import NrStack.Rlc.AmScanSpec
import NrStack.Rlc.SegmentPool

/-!
# The invariant of the AM sender

`TxInv hand e` : the window, the order of the two lists, the shape of the TX list, the end
pointers, and `SegmentPool` for all the segments, those in the lists of `e` and those
`hand` that a function has taken off a list and not put back yet. `TxExact` is what holds
besides while no segment has been lost : the counters are exact, and each SDU in memory
has all its segments in the lists.

Each piece of a function of the sender has one lemma for each of the two.
-/

namespace NrStack

/-- A segment of an SDU that has no SN yet : the whole SDU. -/
structure Unsent (g : NrRlcSduSegment) : Prop where
  sn_eq : g.sdu.sn = -1
  isFirst : g.isFirst
  isLast : g.isLast

namespace NrRlcEntityAm

/-- The segments in the lists of a sender. -/
def listed (e : NrRlcEntityAm) : List NrRlcSduSegment :=
  e.txList ++ (e.waitList ++ e.retransmitList)

/-- The SN before TX_Next, the last one that was given to an SDU. -/
def IsLastSn (e : NrRlcEntityAm) (sn : Int) : Prop :=
  IsSn e.snModulus sn ∧ (sn + 1) % e.snModulus = e.txNext

/-- What a segment at the head of the TX list is : a whole SDU, or the end of the SDU that
has the last SN. -/
def TxHead (e : NrRlcEntityAm) (g : NrRlcSduSegment) : Prop :=
  Unsent g ∨ e.IsLastSn g.sdu.sn ∧ g.isFirst = false

/-- What the sender reads and writes, less its polling and its history. -/
structure TxView where
  snFieldLength : Nat
  snModulus : Int
  windowSize : Int
  txNext : Int
  txNextAck : Int
  txList : List NrRlcSduSegment
  txEnd : Option Nat
  txSize : Int
  waitList : List NrRlcSduSegment
  waitEnd : Option Nat
  retransmitList : List NrRlcSduSegment
  bstatusTxSize : Int
  bstatusRetxSize : Int
  sdus : List NrRlcSduEntry
  nextSdu : Nat
  nextSegment : Nat

/-- The sender of `e`. -/
def txView (e : NrRlcEntityAm) : TxView :=
  { snFieldLength := e.snFieldLength
    snModulus := e.snModulus
    windowSize := e.windowSize
    txNext := e.txNext
    txNextAck := e.txNextAck
    txList := e.txList
    txEnd := e.txEnd
    txSize := e.txSize
    waitList := e.waitList
    waitEnd := e.waitEnd
    retransmitList := e.retransmitList
    bstatusTxSize := e.bstatusTxSize
    bstatusRetxSize := e.bstatusRetxSize
    sdus := e.sdus
    nextSdu := e.nextSdu
    nextSegment := e.nextSegment }

/-- The state of a sender that holds the segments `hand`. -/
structure TxInv (hand : List NrRlcSduSegment) (e : NrRlcEntityAm) : Prop where
  window : e.TxWindow
  lists : TxLists e
  tx_head : ∀ g ∈ e.txList.head?, e.TxHead g
  tx_tail : ∀ g ∈ e.txList.tail, Unsent g
  pool : SegmentPool e.nextSegment e.nextSdu e.sdus (hand ++ e.listed)
  tx_end : e.txEnd = e.txList.getLast?.map (·.addr)
  wait_end : e.waitEnd = e.waitList.getLast?.map (·.addr)

/-- The counters of a sender that has lost no segment. -/
structure TxExact (hand : List NrRlcSduSegment) (e : NrRlcEntityAm) : Prop where
  full : SduHeapFull e.sdus (hand ++ e.listed)
  tx_size : e.txSize = liveSize e.sdus
  bstatus_tx : e.bstatusTxSize = (e.txList.map e.pduSize).sum
  bstatus_retx : e.bstatusRetxSize = (e.retransmitList.map e.pduSize).sum

variable {e e' : NrRlcEntityAm} {hand : List NrRlcSduSegment} {g : NrRlcSduSegment}
  {rest : List NrRlcSduSegment} {size : Int}

theorem TxInv.congr (heq : e'.txView = e.txView) (h : TxInv hand e) : TxInv hand e' := by
  obtain ⟨⟨h1, h2, h3, h4⟩, ⟨h5, h6, h7⟩, h8, h9, h10, h11, h12⟩ := h
  simp only [txView, TxView.mk.injEq] at heq
  obtain ⟨a1, a2, a3, a4, a5, a6, a7, -, a8, a9, a10, -, -, a11, a12, a13⟩ := heq
  simp only [txDist, TxHead, IsLastSn, listed] at *
  refine ⟨⟨?_, ?_, ?_, ?_⟩, ⟨?_, ?_, ?_⟩, ?_, ?_, ?_, ?_, ?_⟩ <;>
    simp only [txDist, TxHead, IsLastSn, listed, a1, a2, a3, a4, a5, a6, a7, a8, a9, a10, a11, a12,
      a13] <;> assumption

theorem pduSize_of_txView (heq : e'.txView = e.txView) : e'.pduSize = e.pduSize := by
  have h := congrArg TxView.snFieldLength heq
  funext g
  simp only [pduSize, computePduHeaderSize, show e'.snFieldLength = e.snFieldLength from h]

theorem TxExact.congr (heq : e'.txView = e.txView) (h : TxExact hand e) : TxExact hand e' := by
  obtain ⟨h1, h2, h3, h4⟩ := h
  have hpdu := pduSize_of_txView heq
  simp only [txView, TxView.mk.injEq] at heq
  obtain ⟨-, -, -, -, -, a1, -, a2, a3, -, a4, a5, a6, a7, -⟩ := heq
  simp only [listed] at *
  refine ⟨?_, ?_, ?_, ?_⟩ <;> simp only [listed, hpdu, a1, a2, a3, a4, a5, a6, a7] <;> assumption

namespace TxInv

/-! ## What it gives -/

theorem sn_range (h : TxInv hand e) :
    ∀ g ∈ e.waitList ++ e.retransmitList, IsSn e.snModulus g.sdu.sn :=
  h.lists.sn_range

theorem addr_nodup_of_sublist (h : TxInv hand e) {l : List NrRlcSduSegment}
    (hl : l.Sublist (hand ++ e.listed)) : (l.map (·.addr)).Nodup :=
  h.pool.addr_nodup.sublist (hl.map _)

theorem wait_sublist : e.waitList.Sublist (hand ++ e.listed) :=
  (List.sublist_append_left _ _).trans
    ((List.sublist_append_right _ _).trans (List.sublist_append_right _ _))

theorem tx_sublist : e.txList.Sublist (hand ++ e.listed) :=
  (List.sublist_append_left _ _).trans (List.sublist_append_right _ _)

/-- The wait list with its end pointer. -/
theorem waitQueue (h : TxInv hand e) : SegmentQueue e.nextSegment e.waitList e.waitEnd :=
  ⟨h.addr_nodup_of_sublist wait_sublist, fun g hg => h.pool.addr_lt g (wait_sublist.subset hg),
    h.wait_end⟩

/-- The TX list with its end pointer. -/
theorem txQueue (h : TxInv hand e) : SegmentQueue e.nextSegment e.txList e.txEnd :=
  ⟨h.addr_nodup_of_sublist tx_sublist, fun g hg => h.pool.addr_lt g (tx_sublist.subset hg),
    h.tx_end⟩

/-! ## The wait list -/

/-- Two segments of one SN, in the lists or in hand, begin at different bytes. -/
theorem txKey_ne (h : TxInv [g] e) {a : NrRlcSduSegment} (ha : a ∈ e.waitList ++ e.retransmitList)
    (hg : IsSn e.snModulus g.sdu.sn) :
    txKey e.snModulus e.txNextAck a ≠ txKey e.snModulus e.txNextAck g := by
  intro heq
  have hsn := h.sn_range a ha
  have hle := txKey_le_iff.1 heq.le
  have hge := txKey_le_iff.1 heq.ge
  have hsame : a.sdu.sn = g.sdu.sn := dist_inj hsn hg (b := e.txNextAck) (by omega)
  exact h.pool.so_ne (List.mem_append_right e.txList ha) hsame (by have := hg.1; omega) (by omega)

end TxInv

/-- Put a segment at its place in the wait list. -/
def addToWaitList (e : NrRlcEntityAm) (g : NrRlcSduSegment) : NrRlcEntityAm :=
  { e with
    waitList := e.nrRlcTxSduSegmentListAdd e.waitList g
    waitEnd := (e.nrRlcTxSduSegmentListAdd e.waitList g).getLast?.map (·.addr) }

/-- `putInWaitList` keeps the end pointer right, and always succeeds. -/
theorem TxInv.putInWaitList_eq (h : TxInv [g] e) (hg : IsSn e.snModulus g.sdu.sn) :
    e.putInWaitList g = some (e.addToWaitList g) := by
  have hn := h.window.txNextAck_sn
  have hsn : ∀ a ∈ e.waitList, IsSn e.snModulus a.sdu.sn := fun a ha => h.sn_range a (by simp [ha])
  have happend : (∀ a, e.waitList.getLast? = some a →
      txKey e.snModulus e.txNextAck a ≤ txKey e.snModulus e.txNextAck g) →
        ((nrRlcSduSegmentListAppend e.waitList e.waitEnd g).map fun r =>
          { e with waitList := r.1, waitEnd := r.2 }) = some (e.addToWaitList g) := by
    intro hlast
    have heq := listAdd_eq_append hn h.lists.wait_sorted hsn hg hlast
    rw [h.waitQueue.append_eq, addToWaitList, heq]
    simp
  unfold putInWaitList
  cases hl : e.waitList.getLast? with
  | none =>
    have hend : e.waitEnd = none := by rw [h.wait_end, hl, Option.map_none]
    rw [hend] at happend
    simp only [hend]
    exact happend (by simp [hl])
  | some last =>
    have hmem := List.mem_of_getLast? hl
    have hend : e.waitEnd = some last.addr := by rw [h.wait_end, hl, Option.map_some]
    have hfind := find?_addr h.waitQueue.addr_nodup hmem
    rw [hend] at happend
    simp only [hend, hfind]
    have hafter : (e.snCompareTx g.sdu.sn last.sdu.sn > 0 ∨
        (e.snCompareTx g.sdu.sn last.sdu.sn = 0 ∧ g.so > last.so)) ↔
          txKey e.snModulus e.txNextAck last < txKey e.snModulus e.txNextAck g := by
      rw [snCompareTx_eq hn hg (hsn last hmem), txKey_lt_iff, txDist, txDist]
      omega
    split_ifs with hcmp
    · refine happend fun a ha => ?_
      obtain rfl : last = a := Option.some.inj (hl ▸ ha)
      exact (hafter.1 hcmp).le
    · -- the last segment stays the last one
      have habove : txKey e.snModulus e.txNextAck g < txKey e.snModulus e.txNextAck last :=
        lt_of_le_of_ne (not_lt.1 fun hlt => hcmp (hafter.2 hlt))
          (h.txKey_ne (by simp [hmem]) hg).symm
      have hlast : (e.nrRlcTxSduSegmentListAdd e.waitList g).getLast? = some last :=
        getLast?_insertBefore hl ((listAdd_above_iff hn (hsn last hmem) hg).2 habove)
      rw [addToWaitList, hlast]
      congr 2
      split
      · next a hw =>
        rw [hw] at hlast
        rw [show a = last by simpa using hlast, Option.map_some]
      · rfl

end NrRlcEntityAm

end NrStack
