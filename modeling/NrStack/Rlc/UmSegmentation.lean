import NrStack.Rlc.AmSegmentation
import NrStack.Rlc.UmChannel
import NrStack.Rlc.ZeroGrant

/-!
# Segmentation in UM

A run of a UM entity with the history of its TX list, `umTxStep`, as in AM. There is one call that
breaks the round trip : a grant that takes a whole SDU off the list without sending it
(`RlcEntity.LosesHead`). The bytes of that SDU are not sent, so the runs where every SDU is tiled by
its segments are those without such a grant.
-/

namespace NrStack

/-- One call, with the history of the TX list. -/
def umTxStep (s : TxLog NrRlcEntityUm) (op : UmOp) : Option (TxLog NrRlcEntityUm) :=
  (umStep s.entity op).map fun e =>
    match op with
    | .recvSdu buffer _ =>
      { s with
        entity := e
        taken := if e.nextSdu = s.entity.nextSdu then s.taken
          else s.taken ++ [(s.entity.nextSdu, buffer)] }
    | .generatePdu _ =>
      { s with entity := e, first := s.first ++ e.sent.drop s.entity.sent.length }
    | .discardSdu _ =>
      { s with
        entity := e
        taken := dropDiscarded s.entity.txList e.txList s.taken }
    | .reestablishment => { entity := e, taken := [], first := [] }
    | .recvPdu _ | .setTime _ => { s with entity := e }

/-- A new entity, which has taken nothing. -/
def newUmTxLog (c : UmConfig) : TxLog NrRlcEntityUm :=
  { entity := newNrRlcEntityUm c, taken := [], first := [] }

/-- A grant does not lose the head of the TX list. -/
def KeepsHead (s : TxLog NrRlcEntityUm) : UmOp → Prop
  | .generatePdu size => ¬(RlcEntity.um s.entity []).LosesHead size
  | _ => True

instance (s : TxLog NrRlcEntityUm) : ∀ op, Decidable (KeepsHead s op)
  | .generatePdu size =>
    inferInstanceAs (Decidable ¬(s.entity.snFieldLength = 12 ∧ size = 2 ∧
      ∃ g ∈ s.entity.txList.head?, g.isFirst ∧ g.isLast ∧ 2 ≤ g.size))
  | .recvSdu _ _ | .recvPdu _ | .setTime _ | .discardSdu _ | .reestablishment => .isTrue trivial

namespace NrRlcEntityUm

variable {e e' : NrRlcEntityUm} {g head : NrRlcSduSegment} {rest : List NrRlcSduSegment}
  {size : Int} {taken : List TakenSdu} {first : List NrRlcSduSegment} {pdu : List UInt8}

/-! ## What is asked of a data PDU -/

/-- The data PDU of a grant, built from the segment `g`. -/
structure PduOf (e : NrRlcEntityUm) (size : Int) (pdu : List UInt8) (g : NrRlcSduSegment) :
    Prop where
  fits : (pdu.length : Int) ≤ size
  /-- Any receiver with this SN length decodes the segment. -/
  decoded : g.sdu.data ≠ [] → ¬(g.isFirst && g.isLast) → ∀ e' : NrRlcEntityUm,
    e'.snFieldLength = e.snFieldLength → e'.receivedPdu pdu = some (receivedPiece g)
  /-- A whole SDU has no SN, and is delivered at once. -/
  delivered : g.sdu.data ≠ [] → (g.isFirst && g.isLast) → ∀ e' : NrRlcEntityUm,
    e'.recvPdu pdu = { e' with out := e'.out ++ [.deliverSdu (g.sdu.data.map some)] }

/-- The length of a header, in bytes. -/
theorem length_segmentBits (hn : e.snFieldLength = 6 ∨ e.snFieldLength = 12)
    (hwhole : ¬(g.isFirst && g.isLast)) : ∃ k : Nat, (k : Int) = e.computePduHeaderSize g ∧
      (segmentBits e.snFieldLength g).length = 8 * k := by
  have hwhole' : ¬(g.isFirst ∧ g.isLast) := by simpa using hwhole
  unfold segmentBits siBits reservedBits soBits computePduHeaderSize
  rw [if_congr (and_iff_right hwhole') rfl rfl]
  rcases hn with hn | hn
  · cases g.isFirst with
    | true => exact ⟨1, by simp [hn], by simp [hn]⟩
    | false => exact ⟨3, by simp [hn], by simp [hn]⟩
  · cases g.isFirst with
    | true => exact ⟨2, by simp [hn], by simp [hn]⟩
    | false => exact ⟨4, by simp [hn], by simp [hn]⟩

/-- A PDU is as long as its header and its data. -/
theorem length_serializeSdu (hn : e.snFieldLength = 6 ∨ e.snFieldLength = 12) (hg : IsPiece g)
    (hnn : 0 ≤ g.size) (size : Int) :
    ((e.serializeSdu g size).length : Int) = e.computePduHeaderSize g + g.size := by
  have hheader : ((e.dataHeader g size).buffer.length : Int) = e.computePduHeaderSize g := by
    by_cases hwhole : (g.isFirst && g.isLast) = true
    · obtain ⟨hf, hl⟩ := Bool.and_eq_true_iff.1 hwhole
      rw [dataHeader_whole hwhole]
      simp [computePduHeaderSize, hf, hl]
    · obtain ⟨k, hk, hlen⟩ := length_segmentBits hn hwhole
      rw [((hasWritten_dataHeader (e := e) size hwhole).buffer_eq hlen).2, hk]
  have hso := hg.so_nonneg
  have hend := hg.end_le
  unfold serializeSdu
  rw [List.length_append, Nat.cast_add, hheader, List.length_take, List.length_drop]
  omega

/-- The PDU that is built from a segment that fits. -/
theorem pduOf_serializeSdu (hn : e.snFieldLength = 6 ∨ e.snFieldLength = 12) (hg : TxSegment g)
    (hsn : IsSn (2 ^ e.snFieldLength) g.sdu.sn) (hfit : e.computePduHeaderSize g + g.size ≤ size) :
    PduOf e size (e.serializeSdu g size) g := by
  have hle := hg.length_le
  unfold nrSduMax at hle
  refine ⟨?_, fun hne hwhole e' he' => ?_, fun hne hwhole e' => ?_⟩
  · rw [length_serializeSdu hn hg.piece hg.size_nonneg]
    exact hfit
  · exact receivedPdu_serializeSdu hn he' hwhole hg.piece (by omega) (hg.size_pos hne) hsn
  · rw [recvPdu_serializeSdu_whole hwhole hg.piece, if_neg hne]

/-! ## The sender -/

/-- The sender and the history of its TX list. -/
structure UmTxWell (e : NrRlcEntityUm) (taken : List TakenSdu) (first : List NrRlcSduSegment) :
    Prop where
  sn_length : e.snFieldLength = 6 ∨ e.snFieldLength = 12
  modulus_eq : e.snModulus = 2 ^ e.snFieldLength
  txNext_sn : IsSn e.snModulus e.txNext
  queue : e.TxQueue
  log : TxLogInv e.nextSdu taken first e.txList

theorem UmTxWell.new (c : UmConfig) : UmTxWell (newNrRlcEntityUm c) [] [] where
  sn_length := c.snFieldLength_valid
  modulus_eq := rfl
  txNext_sn := ⟨le_rfl, by simp [newNrRlcEntityUm]⟩
  queue := .nil
  log := .nil _

/-- What the TX list and the SNs depend on is the same. -/
theorem UmTxWell.congr (h : UmTxWell e taken first) (hq : e'.TxQueue) (hsn : e'.snView = e.snView)
    (hlist : e'.txList = e.txList) (hsdu : e'.nextSdu = e.nextSdu) : UmTxWell e' taken first := by
  simp only [snView, Prod.mk.injEq] at hsn
  obtain ⟨h1, h2, h3⟩ := hsn
  exact ⟨h1 ▸ h.sn_length, by rw [h2, h1, h.modulus_eq], by rw [h2, h3]; exact h.txNext_sn, hq,
    by rw [hsdu, hlist]; exact h.log⟩

theorem UmTxWell.of_txFrame (h : UmTxWell e taken first) (heq : e'.txFrame = e.txFrame) :
    UmTxWell e' taken first := by
  have hview : ∀ {α : Type} (f : NrRlcEntityUm → α), f e'.txFrame = f e.txFrame :=
    fun f => congrArg f heq
  exact h.congr (h.queue.congr (txView_of_txFrame heq)) (hview snView) (hview (·.txList))
    (hview (·.nextSdu))

theorem UmTxWell.recvSdu (h : UmTxWell e taken first) {buffer : List UInt8} {sduId : Int}
    (hs : e.recvSdu buffer sduId = some e') :
    UmTxWell e' (if e'.nextSdu = e.nextSdu then taken else taken ++ [(e.nextSdu, buffer)])
      first := by
  obtain ⟨hq, hsn, ⟨hlist, hsdu⟩ | ⟨hlen, hsdu, hlist⟩⟩ := recvSdu_cases h.queue hs
  · rw [if_pos hsdu]
    exact h.congr hq hsn hlist hsdu
  · rw [if_neg (by omega)]
    simp only [snView, Prod.mk.injEq] at hsn
    obtain ⟨h1, h2, h3⟩ := hsn
    exact ⟨h1 ▸ h.sn_length, by rw [h2, h1, h.modulus_eq], by rw [h2, h3]; exact h.txNext_sn, hq,
      by rw [hsdu, hlist]; exact h.log.take hlen⟩

theorem UmTxWell.discardSdu (h : UmTxWell e taken first) (sduId : Int) :
    UmTxWell (e.discardSdu sduId)
      (dropDiscarded e.txList (e.discardSdu sduId).txList taken) first := by
  obtain ⟨hq, hsn, hsdu, hlist | ⟨before, cur, after, hlist, -, hlist'⟩⟩ :=
    discardSdu_cases h.queue sduId
  · rw [hlist, dropDiscarded_self]
    exact h.congr hq hsn hlist hsdu
  · simp only [snView, Prod.mk.injEq] at hsn
    obtain ⟨h1, h2, h3⟩ := hsn
    have hlog := h.log
    rw [hlist] at hlog
    exact ⟨h1 ▸ h.sn_length, by rw [h2, h1, h.modulus_eq], by rw [h2, h3]; exact h.txNext_sn, hq,
      by rw [hsdu, hlist', hlist]; exact hlog.discard⟩

theorem UmTxWell.clearEntity (h : UmTxWell e taken first) : UmTxWell e.clearEntity [] [] where
  sn_length := h.sn_length
  modulus_eq := h.modulus_eq
  txNext_sn := ⟨le_rfl, h.txNext_sn.1.trans_lt h.txNext_sn.2⟩
  queue := .nil
  log := .nil _

/-! ## A grant -/

/-- When the head of the list is lost. -/
theorem losesHead_iff (hlist : e.txList = head :: rest) (sdus : List NrRlcSduEntry) :
    (RlcEntity.um e sdus).LosesHead size ↔ ¬e.computePduHeaderSize head + 1 > size ∧
      e.computePduHeaderSize head + head.size > size ∧ e.resegmentHeaderSize head + 1 > size := by
  rw [not_resegment_iff]
  simp [RlcEntity.LosesHead, hlist]

theorem isSplit_parts {k : Int} (hpos : 0 < k) (hk : k < g.size) (addr : Nat) :
    IsSplit g (firstPart g k) (restPart g addr k) := by
  refine ⟨rfl, rfl, rfl, hpos, rfl, ?_, ?_, rfl, rfl, rfl, rfl, rfl⟩ <;>
    simp only [firstPart, restPart] <;> omega

theorem sameBytes_numbered (g : NrRlcSduSegment) : SameBytes g (e.numbered g) :=
  ⟨rfl, rfl, rfl, rfl, rfl, rfl⟩

/-- A grant with which the head is lost. -/
theorem generatePdu_of_losesHead {sdus : List NrRlcSduEntry}
    (h : (RlcEntity.um e sdus).LosesHead size) : ∃ head rest,
      e.txList = head :: rest ∧ head.isFirst ∧ 2 ≤ head.size ∧
        e.generatePdu size = (e.takeTx (e.numbered head) rest, []) := by
  cases hlist : e.txList with
  | nil => simp [RlcEntity.LosesHead, hlist] at h
  | cons head rest =>
    obtain ⟨h1, h2, h3⟩ := (losesHead_iff hlist sdus).1 h
    obtain ⟨-, -, hfirst, -, hsize⟩ := not_resegment_iff.1 ⟨h1, h2, h3⟩
    exact ⟨head, rest, rfl, hfirst, hsize, by
      rw [generatePdu_cons hlist, if_neg h1, if_pos h2, if_pos h3]⟩

/-- A grant with which the head is not lost : no PDU, or a segment is sent. -/
theorem UmTxWell.generatePdu (h : UmTxWell e taken first)
    (hkeep : ¬(RlcEntity.um e []).LosesHead size) : e.generatePdu size = (e, []) ∨
      ∃ g, (e.generatePdu size).1.sent = e.sent ++ [g] ∧ PduOf e size (e.generatePdu size).2 g ∧
        UmTxWell (e.generatePdu size).1 taken (first ++ [g]) := by
  cases hlist : e.txList with
  | nil => exact .inl (by rw [NrRlcEntityUm.generatePdu, hlist])
  | cons head rest =>
    rw [losesHead_iff hlist] at hkeep
    rw [generatePdu_cons hlist]
    by_cases h1 : e.computePduHeaderSize head + 1 > size
    · exact .inl (if_pos h1)
    right
    rw [if_neg h1]
    have hlog := h.log
    have htake : (e.takeTx (e.numbered head) rest).TxQueue := txQueue_takeTx h.queue hlist
    rw [hlist] at hlog
    have hhead : TxSegment (e.numbered head) :=
      (hlog.segment head (by simp)).congr (sameBytes_numbered head)
    have hsn : IsSn (2 ^ e.snFieldLength) e.txNext := h.modulus_eq ▸ h.txNext_sn
    have hnext : IsSn e.snModulus ((e.txNext + 1) % e.snModulus) :=
      have hpos := h.txNext_sn.1.trans_lt h.txNext_sn.2
      ⟨Int.emod_nonneg _ hpos.ne', Int.emod_lt_of_pos _ hpos⟩
    by_cases h2 : e.computePduHeaderSize head + head.size > size
    · have h3 : ¬e.resegmentHeaderSize head + 1 > size := fun h3 => hkeep ⟨h1, h2, h3⟩
      rw [if_pos h2, if_neg h3, resegmentHead_numbered, resegmentNext_numbered]
      have hle := computePduHeaderSize_le e head
      have hk : size - e.resegmentHeaderSize head < (e.numbered head).size := by
        show _ < head.size
        omega
      have hsplit : IsSplit (e.numbered head)
          (firstPart (e.numbered head) (size - e.resegmentHeaderSize head))
          (restPart (e.numbered head) e.nextSegment (size - e.resegmentHeaderSize head)) :=
        isSplit_parts (by omega) hk _
      refine ⟨_, rfl, pduOf_serializeSdu h.sn_length (hhead.split hsplit).1 hsn ?_, ?_⟩
      · show e.resegmentHeaderSize head + (size - e.resegmentHeaderSize head) ≤ size
        omega
      · exact ⟨h.sn_length, h.modulus_eq, show IsSn _ (ite _ _ _) by
          rw [if_neg fun hend => Bool.false_ne_true hend.2]
          exact h.txNext_sn, htake.putBack rfl, hlog.sendPart (sameBytes_numbered head) hsplit⟩
    · rw [if_neg h2]
      refine ⟨_, rfl, pduOf_serializeSdu h.sn_length hhead hsn (not_lt.1 h2), ?_⟩
      refine ⟨h.sn_length, h.modulus_eq, ?_, htake, hlog.sendWhole (sameBytes_numbered head)⟩
      show IsSn _ (ite _ _ _)
      split_ifs
      · exact hnext
      · exact h.txNext_sn

/-- One step with which the head is not lost. -/
theorem UmTxWell.step {s s' : TxLog NrRlcEntityUm} {op : UmOp}
    (h : UmTxWell s.entity s.taken s.first) (hs : umTxStep s op = some s')
    (hkeep : KeepsHead s op) : UmTxWell s'.entity s'.taken s'.first := by
  obtain ⟨e', he', rfl⟩ := Option.map_eq_some_iff.1 hs
  cases op with
  | recvSdu buffer sduId => exact h.recvSdu he'
  | recvPdu buffer =>
    obtain rfl := Option.some.inj he'
    exact h.of_txFrame (txFrame_recvPdu buffer)
  | generatePdu size =>
    obtain rfl := Option.some.inj he'
    rcases h.generatePdu hkeep with hnone | ⟨g, hsent, -, hwell⟩
    · simpa [hnone] using h
    · simpa [hsent] using hwell
  | setTime now =>
    obtain rfl := Option.some.inj he'
    exact h.of_txFrame (txFrame_setTime now)
  | discardSdu sduId =>
    obtain rfl := Option.some.inj he'
    exact h.discardSdu sduId
  | reestablishment =>
    obtain rfl := Option.some.inj he'
    exact h.clearEntity

end NrRlcEntityUm

/-- The round trip of UM segments : the segments of each SDU tile it, and a data PDU fits its grant
and is decoded as the segment it is made of. -/
structure UmSegmentsOk (s : TxLog NrRlcEntityUm) : Prop where
  partitioned : Partitioned s.taken s.first s.entity.txList
  pdu : ∀ size, (s.entity.generatePdu size).2 ≠ [] → ∃ g,
    (s.entity.generatePdu size).1.sent = s.entity.sent ++ [g] ∧
      NrRlcEntityUm.PduOf s.entity size (s.entity.generatePdu size).2 g

theorem UmSegmentsOk.of_well {s : TxLog NrRlcEntityUm}
    (h : NrRlcEntityUm.UmTxWell s.entity s.taken s.first) : UmSegmentsOk s := by
  refine ⟨h.log.partitioned, fun size hpdu => ?_⟩
  by_cases hkeep : (RlcEntity.um s.entity []).LosesHead size
  · obtain ⟨head, rest, -, -, -, heq⟩ := NrRlcEntityUm.generatePdu_of_losesHead hkeep
    rw [heq] at hpdu
    exact absurd rfl hpdu
  · rcases h.generatePdu hkeep with hnone | ⟨g, hsent, hof, -⟩
    · rw [hnone] at hpdu
      exact absurd rfl hpdu
    · exact ⟨g, hsent, hof⟩

/-- A grant with which the head is lost breaks it. -/
theorem not_umSegmentsOk_of_losesHead {s s' : TxLog NrRlcEntityUm} {op : UmOp}
    (h : NrRlcEntityUm.UmTxWell s.entity s.taken s.first) (hs : umTxStep s op = some s')
    (hloses : ¬KeepsHead s op) : ¬UmSegmentsOk s' := by
  cases op with
  | generatePdu size =>
    obtain ⟨head, rest, hlist, hfirst, hsize, heq⟩ :=
      NrRlcEntityUm.generatePdu_of_losesHead (not_not.1 hloses)
    obtain rfl := Option.some.inj hs
    intro hok
    have hlog := h.log
    rw [hlist] at hlog
    have hpiece := (hlog.segment head (by simp)).piece
    have hso : head.so = 0 := hpiece.isFirst_iff.1 hfirst
    have hne : head.sdu.data ≠ [] := by
      intro hnil
      have hend := hpiece.end_le
      rw [hnil, List.length_nil] at hend
      omega
    refine hlog.not_partitioned_of_drop hso hne ?_
    simpa [heq, NrRlcEntityUm.takeTx] using hok.partitioned
  | recvSdu _ _ | recvPdu _ | setTime _ | discardSdu _ | reestablishment =>
    exact absurd trivial hloses

/-! ## AM and UM -/

/-- Every run in AM, and in UM exactly the runs where no grant loses the head of the TX list. -/
theorem segmentation_round_trip_iff (amConfig : AmConfig) (umConfig : UmConfig) (ops : List UmOp) :
    ((∀ s : TxLog NrRlcEntityAm, Reach amTxStep anyStep (newAmTxLog amConfig) s → AmSegmentsOk s) ∧
      AllStates umTxStep UmSegmentsOk (newUmTxLog umConfig) ops) ↔
        AllSteps umTxStep KeepsHead (newUmTxLog umConfig) ops := by
  have hum : AllStates umTxStep UmSegmentsOk (newUmTxLog umConfig) ops ↔
      AllSteps umTxStep KeepsHead (newUmTxLog umConfig) ops :=
    allStates_iff_allSteps (Q := fun s => NrRlcEntityUm.UmTxWell s.entity s.taken s.first)
      (fun _ h => .of_well h) (fun _ _ _ h hs hkeep => h.step hs hkeep)
      (fun _ _ _ h hs hloses => not_umSegmentsOk_of_losesHead h hs hloses) ops _
      (NrRlcEntityUm.UmTxWell.new umConfig)
  rw [← hum]
  exact and_iff_right fun s h => amSegmentsOk_of_reach h

/-- An SDU of two bytes is segmented by a grant of 3 bytes, and one of four bytes by one of 5. -/
theorem segmentation_round_trip_two_bytes :
    (∃ s, Reach amTxStep anyStep (newAmTxLog ⟨100, 100, 45, 35, 0, 8, 500, 4, 12, .inl rfl⟩) s ∧
      s.entity.txList ≠ [] ∧ s.first ≠ [] ∧ AmSegmentsOk s) ∧
    AllStates umTxStep UmSegmentsOk (newUmTxLog ⟨100, 100, 35, 12, .inr rfl⟩)
      [.recvSdu [7, 8] 0, .generatePdu 3] := by
  let c : AmConfig := ⟨100, 100, 45, 35, 0, 8, 500, 4, 12, .inl rfl⟩
  have hrun : (([.recvSdu [1, 2, 3, 4] 0, .generatePdu 5] : List AmOp).foldlM amTxStep
      (newAmTxLog c)).any fun s => decide (s.entity.txList ≠ [] ∧ s.first ≠ []) := by
    decide +kernel
  obtain ⟨s, hs, hparts⟩ := (Option.any_eq_true _ _).1 hrun
  obtain ⟨hlist, hfirst⟩ := of_decide_eq_true hparts
  have hreach := reach_foldlM hs
  obtain ⟨ham, hum⟩ := (segmentation_round_trip_iff c ⟨100, 100, 35, 12, .inr rfl⟩
    [.recvSdu [7, 8] 0, .generatePdu 3]).2 (allSteps_of_checked (by decide +kernel))
  exact ⟨⟨s, hreach, hlist, hfirst, ham s hreach⟩, hum⟩

/-- With 12 bit SNs, an SDU of two bytes that meets a grant of 2 bytes is not sent. -/
theorem segmentation_round_trip_fails : ¬∀ (c : UmConfig) (s : TxLog NrRlcEntityUm),
    Reach umTxStep anyStep (newUmTxLog c) s → UmSegmentsOk s := by
  intro h
  let c : UmConfig := ⟨100, 100, 35, 12, .inr rfl⟩
  have hrun : (([.recvSdu [7, 8] 0, .generatePdu 2] : List UmOp).foldlM umTxStep
      (newUmTxLog c)).any fun s => decide ¬Partitioned s.taken s.first s.entity.txList := by
    decide +kernel
  obtain ⟨s, hs, hlost⟩ := (Option.any_eq_true _ _).1 hrun
  exact of_decide_eq_true hlost (h c s (reach_foldlM hs)).partitioned

end NrStack
