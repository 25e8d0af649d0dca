import NrStack.Library.Serial
import NrStack.Rlc.AmScan
import NrStack.Rlc.AmTransmit

/-!
# The order of the transmitting lists

The wait list and the retransmit list are sorted by the distance of the SN from
TX_Next_Ack, then by `so` : `txKey` is that pair in lexicographic order. Insertion at
the place the code looks for, appending after the last segment and moving TX_Next_Ack
keep a list sorted.
-/

namespace NrStack

variable {M base : Int} {g a b : NrRlcSduSegment} {l : List NrRlcSduSegment}

/-- What the lists are sorted by. -/
def txKey (M base : Int) (g : NrRlcSduSegment) : Int ×ₗ Int :=
  toLex (dist M base g.sdu.sn, g.so)

theorem txKey_le_iff : txKey M base a ≤ txKey M base b ↔
    dist M base a.sdu.sn < dist M base b.sdu.sn ∨
      (dist M base a.sdu.sn = dist M base b.sdu.sn ∧ a.so ≤ b.so) :=
  Prod.Lex.toLex_le_toLex

theorem txKey_lt_iff : txKey M base a < txKey M base b ↔
    dist M base a.sdu.sn < dist M base b.sdu.sn ∨
      (dist M base a.sdu.sn = dist M base b.sdu.sn ∧ a.so < b.so) :=
  Prod.Lex.toLex_lt_toLex

theorem dist_le_of_txKey_le (h : txKey M base a ≤ txKey M base b) :
    dist M base a.sdu.sn ≤ dist M base b.sdu.sn := by
  rcases txKey_le_iff.1 h with h | ⟨h, -⟩
  · exact h.le
  · exact h.le

/-- A sorted list. -/
def TxSorted (M base : Int) (l : List NrRlcSduSegment) : Prop :=
  l.Pairwise fun a b => txKey M base a ≤ txKey M base b

theorem TxSorted.sublist {l' : List NrRlcSduSegment} (h : TxSorted M base l)
    (hl : l'.Sublist l) : TxSorted M base l' :=
  List.Pairwise.sublist hl h

/-- A segment that is above the last one is above all. -/
theorem TxSorted.append (h : TxSorted M base l)
    (hlast : ∀ a, l.getLast? = some a → txKey M base a ≤ txKey M base g) :
    TxSorted M base (l ++ [g]) := by
  refine List.pairwise_append.2 ⟨h, List.pairwise_singleton _ _, fun a ha b hb => ?_⟩
  rw [List.mem_singleton.1 hb]
  obtain ⟨last, hl⟩ : ∃ last, l.getLast? = some last :=
    ⟨_, List.getLast?_eq_some_getLast (List.ne_nil_of_mem ha)⟩
  obtain ⟨l', rfl⟩ := List.getLast?_eq_some_iff.1 hl
  rcases List.mem_append.1 ha with ha | ha
  · exact ((List.pairwise_append.1 h).2.2 a ha last (by simp)).trans (hlast last hl)
  · rw [List.mem_singleton.1 ha]
    exact hlast last hl

/-- TX_Next_Ack moves to an SN not above any in the list. -/
theorem TxSorted.rebase {base' : Int} (h : TxSorted M base l) (hM : 0 < M)
    (hbase : ∀ g ∈ l, dist M base base' ≤ dist M base g.sdu.sn) : TxSorted M base' l := by
  refine List.Pairwise.imp_of_mem (fun {a b} ha hb hab => ?_) h
  rw [txKey_le_iff] at hab ⊢
  rw [dist_rebase hM (hbase a ha), dist_rebase hM (hbase b hb)]
  omega

namespace NrRlcEntityAm

variable {e : NrRlcEntityAm} {x y : Int}

/-- How far the SN `a` is after TX_Next_Ack. -/
def txDist (e : NrRlcEntityAm) (a : Int) : Int :=
  dist e.snModulus e.txNextAck a

theorem modulusTx_eq (hn : IsSn e.snModulus e.txNextAck) (hx : IsSn e.snModulus x) :
    e.modulusTx x = e.txDist x := by
  obtain ⟨hn0, hnM⟩ := hn
  obtain ⟨hx0, hxM⟩ := hx
  simp only [modulusTx, txDist]
  split_ifs with h
  · rw [dist_of_lt (by omega) (by omega)]
  · rw [dist_of_le (by omega) (by omega)]

theorem snCompareTx_eq (hn : IsSn e.snModulus e.txNextAck) (hx : IsSn e.snModulus x)
    (hy : IsSn e.snModulus y) : e.snCompareTx x y = e.txDist x - e.txDist y := by
  rw [snCompareTx, modulusTx_eq hn hx, modulusTx_eq hn hy]

/-! ## The window -/

/-- The SN space and the window of the sender. -/
structure TxWindow (e : NrRlcEntityAm) : Prop where
  space : SnSpace e.snFieldLength e.snModulus e.windowSize
  txNext_sn : IsSn e.snModulus e.txNext
  txNextAck_sn : IsSn e.snModulus e.txNextAck
  txNext_le : e.txDist e.txNext ≤ e.windowSize

/-- An SN that is in use : it is in [TX_Next_Ack, TX_Next). -/
def InTxWindow (e : NrRlcEntityAm) (a : Int) : Prop :=
  IsSn e.snModulus a ∧ e.txDist a < e.txDist e.txNext

theorem TxWindow.txDist_nonneg (h : e.TxWindow) (a : Int) : 0 ≤ e.txDist a :=
  dist_nonneg h.space.modulus_pos

/-- The window is stalling when it is full. -/
theorem isWindowStalling_iff (h : e.TxWindow) :
    e.isWindowStalling ↔ e.txDist e.txNext = e.windowSize := by
  have hwin := h.space.two_mul_window
  have hle := h.txNext_le
  have h0 : e.txDist e.txNextAck = 0 := dist_self
  have hW : e.txDist ((e.txNextAck + e.windowSize) % e.snModulus) = e.windowSize :=
    dist_base_add (by omega) (by omega)
  have hnn := h.txDist_nonneg e.txNext
  rw [isWindowStalling, snCompareTx_eq h.txNextAck_sn h.txNextAck_sn h.txNext_sn,
    snCompareTx_eq h.txNextAck_sn h.txNext_sn (h.space.isSn_emod _), h0, hW]
  omega

/-! ## Insertion -/

theorem segmentBefore_iff (hn : IsSn e.snModulus e.txNextAck) (ha : IsSn e.snModulus a.sdu.sn)
    (hb : IsSn e.snModulus b.sdu.sn) :
    e.SegmentBefore a b ↔ txKey e.snModulus e.txNextAck a < txKey e.snModulus e.txNextAck b := by
  rw [SegmentBefore, snCompareTx_eq hn ha hb, txKey_lt_iff, txDist, txDist]
  omega

/-- What `nr_rlc_tx_sdu_segment_list_add` looks for is the first segment above the new one. -/
theorem listAdd_above_iff (hn : IsSn e.snModulus e.txNextAck) (ha : IsSn e.snModulus a.sdu.sn)
    (hg : IsSn e.snModulus g.sdu.sn) :
    (e.snCompareTx a.sdu.sn g.sdu.sn > 0 ∨ (a.sdu.sn = g.sdu.sn ∧ a.so > g.so)) ↔
      txKey e.snModulus e.txNextAck g < txKey e.snModulus e.txNextAck a := by
  rw [snCompareTx_eq hn ha hg, txKey_lt_iff, txDist, txDist,
    ← show a.sdu.sn = g.sdu.sn ↔ _ from
      ⟨fun h => by rw [h], fun h => (dist_inj hg ha h).symm⟩]
  omega

theorem txSorted_listAdd (hn : IsSn e.snModulus e.txNextAck)
    (hl : TxSorted e.snModulus e.txNextAck l) (hsn : ∀ a ∈ l, IsSn e.snModulus a.sdu.sn)
    (hg : IsSn e.snModulus g.sdu.sn) :
    TxSorted e.snModulus e.txNextAck (e.nrRlcTxSduSegmentListAdd l g) := by
  refine pairwise_insertBefore
    (R := fun a b => txKey e.snModulus e.txNextAck a ≤ txKey e.snModulus e.txNextAck b)
    (fun _ _ _ => le_trans) hl (fun a ha hp => ?_) fun a ha hp => ?_
  · exact ((listAdd_above_iff hn (hsn a ha) hg).1 hp).le
  · exact not_lt.1 fun h => hp ((listAdd_above_iff hn (hsn a ha) hg).2 h)

/-- After a segment above all the others the place is the end. -/
theorem listAdd_eq_append (hn : IsSn e.snModulus e.txNextAck)
    (hl : TxSorted e.snModulus e.txNextAck l) (hsn : ∀ a ∈ l, IsSn e.snModulus a.sdu.sn)
    (hg : IsSn e.snModulus g.sdu.sn) (hlast : ∀ a, l.getLast? = some a →
      txKey e.snModulus e.txNextAck a ≤ txKey e.snModulus e.txNextAck g) :
    e.nrRlcTxSduSegmentListAdd l g = l ++ [g] := by
  have hsorted := hl.append hlast
  refine insertBefore_of_forall_not fun a ha hp => ?_
  exact not_le.2 ((listAdd_above_iff hn (hsn a ha) hg).1 hp)
    ((List.pairwise_append.1 hsorted).2.2 a ha g (by simp))

end NrRlcEntityAm

end NrStack
