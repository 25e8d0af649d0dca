import NrStack.Rlc.AmStatusSize
import NrStack.Rlc.UmAccounting
import NrStack.Rlc.UmPdu

/-!
# A grant that produces nothing

`RlcEntity` is an AM entity, or a UM entity with its SDUs in memory : the reference counts,
which no UM function reads, are not part of `NrRlcEntityUm`, and `countReferences` is what
`generate_tx_pdu` does to them.

In AM a grant is refused before anything is taken off a list. In UM `resegment` may fail
after the head is off the list (`LosesHead`) : the header of a whole SDU with 12 bit SNs is
one byte shorter than the one of its first segment.
-/

namespace NrStack

namespace NrRlcEntityUm

variable (e : NrRlcEntityUm)

/-- `nr_rlc_entity_um_buffer_status`. -/
def bufferStatus (_maxsize : Int) : NrRlcBufferStatus :=
  { statusSize := 0, txSize := e.bstatusTxSize, retxSize := 0 }

/-- `generate_tx_pdu` for the SDUs in memory : the SN is assigned, `resegment` counts a
reference before it looks whether there is room, and a segment that is sent is freed. -/
def countReferences (sdus : List NrRlcSduEntry) (size : Int) : List NrRlcSduEntry :=
  match e.txList with
  | [] => sdus
  | sdu :: _ =>
    if e.computePduHeaderSize sdu + 1 > size then sdus
    else
      let assigned := updateSdu sdu.sdu.id
        (fun d => { d with sdu := { d.sdu with sn := e.txNext } }) sdus
      if e.computePduHeaderSize sdu + sdu.size > size then
        let shared := updateSdu sdu.sdu.id (fun d => { d with refCount := d.refCount + 1 }) assigned
        if e.resegmentHeaderSize sdu + 1 > size then shared
        else (nrRlcFreeSduSegment shared (e.resegmentHead sdu size)).1
      else (nrRlcFreeSduSegment assigned sdu).1

end NrRlcEntityUm

/-- An entity, with what it has in memory. -/
inductive RlcEntity
  | am (e : NrRlcEntityAm)
  | um (e : NrRlcEntityUm) (sdus : List NrRlcSduEntry)

namespace RlcEntity

/-- The SN length is one the constructor accepts. -/
def SnLengthValid : RlcEntity → Prop
  | am e => e.snFieldLength = 12 ∨ e.snFieldLength = 18
  | um e _ => e.snFieldLength = 6 ∨ e.snFieldLength = 12

/-- `generate_pdu`, with the bytes of the PDU. -/
def generatePdu (size : Int) : RlcEntity → Option (RlcEntity × List UInt8)
  | am e => (e.generatePdu size).map fun r => (am r.entity, r.pdu)
  | um e sdus => some (um (e.generatePdu size).1 (e.countReferences sdus size),
      (e.generatePdu size).2)

/-- The three lists; UM has the first only. -/
def lists : RlcEntity → List NrRlcSduSegment × List NrRlcSduSegment × List NrRlcSduSegment
  | am e => (e.txList, e.waitList, e.retransmitList)
  | um e _ => (e.txList, [], [])

/-- The SDUs in memory, with their counts. -/
def sdus : RlcEntity → List NrRlcSduEntry
  | am e => e.sdus
  | um _ sdus => sdus

/-- TX_Next. -/
def txNext : RlcEntity → Int
  | am e => e.txNext
  | um e _ => e.txNext

/-- `buffer_status`. -/
def bufferStatus (maxsize : Int) : RlcEntity → NrRlcBufferStatus
  | am e => e.bufferStatus maxsize
  | um e _ => e.bufferStatus maxsize

/-- What an entity has to send is the same. -/
structure SameToSend (s s' : RlcEntity) : Prop where
  lists_eq : s'.lists = s.lists
  sdus_eq : s'.sdus = s.sdus
  txNext_eq : s'.txNext = s.txNext
  bufferStatus_eq : ∀ maxsize, s'.bufferStatus maxsize = s.bufferStatus maxsize

/-- If no PDU is generated, nothing changes. -/
def NothingForNothing (s : RlcEntity) (size : Int) : Prop :=
  ∀ s', s.generatePdu size = some (s', []) → s.SameToSend s'

/-- The head of the TX list is a whole SDU of two bytes or more, the SNs have 12 bits, and the
grant is of 2 bytes. -/
def LosesHead (size : Int) : RlcEntity → Prop
  | am _ => False
  | um e _ => e.snFieldLength = 12 ∧ size = 2 ∧
      ∃ g ∈ e.txList.head?, g.isFirst ∧ g.isLast ∧ 2 ≤ g.size

theorem SameToSend.refl (s : RlcEntity) : s.SameToSend s :=
  ⟨rfl, rfl, rfl, fun _ => rfl⟩

end RlcEntity

/-! ## AM -/

namespace NrRlcEntityAm

variable {e : NrRlcEntityAm} {size : Int} {r : Generated}

theorem generateRetxPdu_nil (hn : 6 ≤ e.snFieldLength) (h : e.generateRetxPdu size = some r)
    (hnil : r.pdu = []) : r.entity = e := by
  unfold generateRetxPdu at h
  split at h
  · cases h
  · next sdu rest hlist =>
    split_ifs at h with hroom
    · cases h
      rfl
    · obtain ⟨e₁, he₁, rfl⟩ := Option.map_eq_some_iff.1 h
      refine absurd hnil (sendPdu_ne_nil ?_ _)
      have hlen : e₁.snFieldLength =
          ((e.takeRetransmit sdu rest).splitRetransmit sdu size).1.snFieldLength :=
        congrArg RxView.snFieldLength (rxView_putInWaitList he₁)
      rw [hlen, splitRetransmit]
      split_ifs <;> exact hn

theorem generateTxPdu_nil (hn : 6 ≤ e.snFieldLength) (h : e.generateTxPdu size = some r)
    (hnil : r.pdu = []) : r.entity = e := by
  unfold generateTxPdu at h
  split_ifs at h with hstall
  · cases h
    rfl
  · split at h
    · cases h
      rfl
    · next sdu rest hlist =>
      split_ifs at h with hroom
      · cases h
        rfl
      · obtain ⟨e₁, he₁, rfl⟩ := Option.map_eq_some_iff.1 h
        refine absurd hnil (sendPdu_ne_nil ?_ _)
        have hassign : ((e.takeTx sdu rest).assignSn sdu).1.snFieldLength = e.snFieldLength := by
          unfold assignSn
          split_ifs <;> rfl
        have hlen : e₁.snFieldLength = (((e.takeTx sdu rest).assignSn sdu).1.splitTx
            ((e.takeTx sdu rest).assignSn sdu).2 size).1.snFieldLength :=
          congrArg RxView.snFieldLength (rxView_putInWaitList he₁)
        show 6 ≤ e₁.snFieldLength
        rw [hlen, splitTx]
        split_ifs
        · exact hassign ▸ hn
        · exact hassign ▸ hn

theorem generatePdu_nil (hn : 6 ≤ e.snFieldLength) (h : e.generatePdu size = some r)
    (hnil : r.pdu = []) : r.entity = e := by
  unfold generatePdu at h
  split_ifs at h with hstatus
  · cases h
    exact absurd hnil hstatus.2
  · unfold generateDataPdu at h
    split_ifs at h with hretx
    · exact generateTxPdu_nil hn h hnil
    · obtain ⟨r₁, hr₁, h⟩ := Option.bind_eq_some_iff.1 h
      split_ifs at h with hpdu
      · cases h
        exact absurd hnil hpdu
      · have hsame := generateRetxPdu_nil hn hr₁ (not_not.1 hpdu)
        rw [hsame] at h
        exact generateTxPdu_nil hn h hnil

end NrRlcEntityAm

/-! ## UM -/

namespace NrRlcEntityUm

variable {e : NrRlcEntityUm} {size : Int}

theorem serializeSdu_ne_nil (hn : e.snFieldLength = 6 ∨ e.snFieldLength = 12)
    (g : NrRlcSduSegment) : e.serializeSdu g size ≠ [] := by
  have hheader : (e.dataHeader g size).buffer ≠ [] := by
    by_cases hwhole : (g.isFirst && g.isLast) = true
    · rw [dataHeader_whole hwhole]
      exact List.cons_ne_nil _ _
    · intro hnil
      have hlt := (hasWritten_dataHeader (e := e) size hwhole).length_lt
      obtain ⟨k, hk⟩ := exists_length_segmentBits hn g
      rw [hnil, List.length_nil] at hlt
      have hsi : 0 < (segmentBits e.snFieldLength g).length := by
        simp [segmentBits, siBits]
      omega
  unfold serializeSdu
  simp [hheader]

end NrRlcEntityUm

namespace RlcEntity

open NrRlcEntityUm

theorem nothingForNothing_um_iff {e : NrRlcEntityUm} (sdus : List NrRlcSduEntry)
    (hn : e.snFieldLength = 6 ∨ e.snFieldLength = 12) (size : Int) :
    (um e sdus).NothingForNothing size ↔ ¬(um e sdus).LosesHead size := by
  have hfirst : (um e sdus).NothingForNothing size ↔ ((e.generatePdu size).2 = [] →
      (um e sdus).SameToSend (um (e.generatePdu size).1 (e.countReferences sdus size))) := by
    constructor
    · exact fun h hnil => h _ (by rw [generatePdu, hnil])
    · intro h s' hs'
      obtain ⟨rfl, hnil⟩ := Prod.mk.inj (Option.some.inj hs')
      exact h hnil
  rw [hfirst, LosesHead]
  unfold NrRlcEntityUm.generatePdu countReferences
  cases hlist : e.txList with
  | nil => exact iff_of_true (fun _ => .refl _) (by simp)
  | cons head rest =>
    simp only [List.head?_cons, Option.mem_def, Option.some.injEq, exists_eq_left',
      ← not_resegment_iff]
    set sdu : NrRlcSduSegment := { head with sdu := { head.sdu with sn := e.txNext } } with hsdu
    by_cases h1 : e.computePduHeaderSize head + 1 > size
    · rw [if_pos h1, if_pos h1]
      exact iff_of_true (fun _ => .refl _) fun hl => hl.1 h1
    rw [if_neg h1, if_neg h1]
    by_cases h2 : e.computePduHeaderSize head + head.size > size
    · have h2' : e.computePduHeaderSize sdu + sdu.size > size := h2
      rw [if_pos h2, if_pos h2']
      by_cases h3 : e.resegmentHeaderSize head + 1 > size
      · -- the head is off the list
        have h3' : e.resegmentHeaderSize sdu + 1 > size := h3
        rw [if_pos h3, if_pos h3']
        refine iff_of_false (fun hsame => ?_) fun hno => hno ⟨h1, h2, h3⟩
        have hlists := congrArg Prod.fst (hsame rfl).lists_eq
        have hrest : rest = head :: rest := hlists.trans hlist
        exact List.cons_ne_self _ _ hrest.symm
      · have h3' : ¬e.resegmentHeaderSize sdu + 1 > size := h3
        rw [if_neg h3, if_neg h3']
        exact iff_of_true (fun hnil => absurd hnil (serializeSdu_ne_nil hn _)) fun hl => h3 hl.2.2
    · have h2' : ¬e.computePduHeaderSize sdu + sdu.size > size := h2
      rw [if_neg h2, if_neg h2']
      exact iff_of_true (fun hnil => absurd hnil (serializeSdu_ne_nil hn _)) fun hl => h2 hl.2.1

/-- For any entity and any grant. -/
theorem nothing_for_nothing_iff (s : RlcEntity) (size : Int) (hn : s.SnLengthValid) :
    s.NothingForNothing size ↔ ¬s.LosesHead size := by
  cases s with
  | am e =>
    refine iff_of_true (fun s' hs' => ?_) id
    obtain ⟨r, hr, heq⟩ := Option.map_eq_some_iff.1 hs'
    obtain ⟨rfl, hnil⟩ := Prod.mk.inj heq
    have hlen : 6 ≤ e.snFieldLength := by
      rcases hn with hn | hn <;> omega
    rw [NrRlcEntityAm.generatePdu_nil hlen hr hnil]
    exact .refl _
  | um e sdus => exact nothingForNothing_um_iff sdus hn size

/-- With a grant of 1 byte an SDU stays where it is. -/
theorem nothing_for_nothing_one : ∃ c e, UmReach c e ∧ e.txList ≠ [] ∧
    (um e []).NothingForNothing 1 := by
  let c : UmConfig := ⟨100, 100, 35, 12, .inr rfl⟩
  have hreach : UmReach c _ := .next .refl (a := .recvSdu [7, 8] 0) trivial rfl
  refine ⟨c, _, hreach, List.cons_ne_nil _ _, (nothing_for_nothing_iff _ 1 ?_).2 fun hl => ?_⟩
  · exact Or.inr rfl
  · exact absurd hl.2.1 (by decide)

/-- With a grant of 2 bytes an SDU of 2 bytes is lost. -/
theorem nothing_for_nothing_fails : ¬∀ (c : UmConfig) (e : NrRlcEntityUm)
    (sdus : List NrRlcSduEntry) (size : Int), UmReach c e →
      (um e sdus).NothingForNothing size := by
  intro h
  let c : UmConfig := ⟨100, 100, 35, 12, .inr rfl⟩
  have hreach : UmReach c _ := .next .refl (a := .recvSdu [7, 8] 0) trivial rfl
  have hsame := h c _ [] 2 hreach _ rfl
  exact absurd (congrArg Prod.fst hsame.lists_eq) (by decide)

end RlcEntity

end NrStack
