import NrStack.Rlc.UmChannel

/-!
# What UM delivers

The receiver in the channel. Every stored segment is that of a PDU whose `seq` is less than
a window behind `stored`, so two stored segments with one SN are of one SDU, and an SDU that
is full is the one that was submitted. A segment that arrives is at most one window ahead of
what is stored (`FewNotStored`), and that is all the arithmetic needs.
-/

namespace NrStack

namespace NrRlcEntityUm

variable {e : NrRlcEntityUm} {pdu : NrRlcPdu} {x : Int}

/-! ## What reception does -/

/-- What the reception list is compared with. -/
def windowView (e : NrRlcEntityUm) : Nat × Int × Int × Int × List RlcEvent :=
  (e.snFieldLength, e.snModulus, e.windowSize, e.rxNextHighest, e.out)

theorem view_updateReassemblyTimer (e : NrRlcEntityUm) :
    e.updateReassemblyTimer.rxList = e.rxList ∧
      e.updateReassemblyTimer.windowView = e.windowView := by
  unfold updateReassemblyTimer startReassembly stopReassembly
  split_ifs <;> exact ⟨rfl, rfl⟩

theorem mem_receiveFull (h : e.RxCore) (hx : IsSn e.snModulus x) {q' : NrRlcPdu}
    (hq' : q' ∈ (e.receiveFull x).rxList) : ∃ q ∈ e.rxList, q' = q ∨ q' = dropData q := by
  have hlist : (e.receiveFull x).rxList = mapSegments dropData e.rxList x := by
    unfold receiveFull updateRxNextReassembly
    split_ifs <;> rfl
  rw [hlist, h.list.mapSegments_eq hx, List.mem_map] at hq'
  obtain ⟨q, hq, rfl⟩ := hq'
  refine ⟨q, hq, ?_⟩
  split_ifs
  · exact .inr rfl
  · exact .inl rfl

/-- A segment that completes its SDU. -/
theorem receptionActions_full (h : e.RxCore) (hx : IsSn e.snModulus x)
    (hfull : sduFull e.rxList x) :
    (∀ q' ∈ (e.receptionActions x).rxList, ∃ q ∈ e.rxList, q' = q ∨ q' = dropData q) ∧
      (e.receptionActions x).windowView = (e.snFieldLength, e.snModulus, e.windowSize,
        e.rxNextHighest, e.out ++ (reassemble (segmentsOf e.rxList x)).delivered) := by
  obtain ⟨hlist, hview⟩ := view_updateReassemblyTimer (e.receiveFull x)
  rw [receptionActions, if_pos hfull]
  refine ⟨fun q' hq' => mem_receiveFull h hx (hlist ▸ hq'), hview.trans ?_⟩
  unfold receiveFull updateRxNextReassembly
  split_ifs <;> rfl

/-- A segment that does not. -/
theorem receptionActions_part (hfull : ¬sduFull e.rxList x) :
    (∀ q ∈ (e.receptionActions x).rxList, q ∈ e.rxList) ∧
      (e.receptionActions x).windowView = (e.snFieldLength, e.snModulus, e.windowSize,
        if e.snCompareRx x e.rxNextHighest ≥ 0 then (x + 1) % e.snModulus else e.rxNextHighest,
        e.out) := by
  obtain ⟨hlist, hview⟩ := view_updateReassemblyTimer (e.receivePart x)
  rw [receptionActions, if_neg hfull]
  refine ⟨fun q hq => ?_, hview.trans ?_⟩
  · rw [hlist] at hq
    unfold receivePart slideWindow resetRxNextReassembly at hq
    split_ifs at hq
    · exact List.dropWhile_subset _ hq
    · exact List.dropWhile_subset _ hq
    · exact hq
  · unfold receivePart slideWindow resetRxNextReassembly
    split_ifs <;> rfl

theorem recvPdu_eq_of_not_accepts {buffer : List UInt8} (hpdu : e.receivedPdu buffer = some pdu)
    (ha : ¬e.acceptsPdu pdu) : e.recvPdu buffer = e := by
  obtain ⟨⟨si, d⟩, hsi, h⟩ := Option.bind_eq_some_iff.1 hpdu
  simp only at h
  split_ifs at h with hwhole
  simp only [recvPdu, hsi, hwhole, if_false, h, recvSegment, if_neg ha, Bool.false_eq_true]

theorem view_setTime (e : NrRlcEntityUm) (now : UInt64) :
    (∀ q ∈ (e.setTime now).rxList, q ∈ e.rxList) ∧ (e.setTime now).windowView = e.windowView := by
  unfold setTime checkTReassembly startReassembly
  split_ifs
  · exact ⟨fun _ hq => hq, rfl⟩
  · exact ⟨fun _ hq => List.dropWhile_subset _ hq, rfl⟩
  · exact ⟨fun _ hq => List.dropWhile_subset _ hq, rfl⟩

/-- The distance of an SN from the base, when RX_Next_Highest is that of `stored`. -/
theorem rxDist_seq {stored : Nat} (h : e.rxNextHighest = stored % e.snModulus) (seq : Nat) :
    e.rxDist (seq % e.snModulus) = (seq - stored + e.windowSize : Int) % e.snModulus := by
  rw [rxDist, dist_emod_right, dist, rxBase, h]
  rw [show (seq : Int) - (stored % e.snModulus - e.windowSize) =
    seq + e.windowSize - stored % e.snModulus by ring, Int.sub_emod_emod]
  congr 1
  ring

/-- An SN in the window is less than a window behind, if it is less than two. -/
theorem RxInv.sub_le_window (h : e.RxInv) {stored seq : Nat}
    (hnext : e.rxNextHighest = stored % e.snModulus) (_ : seq < stored)
    (hle : (stored - seq : Int) ≤ e.snModulus)
    (hdist : e.rxDist (seq % e.snModulus) < e.windowSize) :
    (stored - seq : Int) ≤ e.windowSize := by
  have hwin := h.core.space.two_mul_window
  by_contra hgt
  rw [rxDist_seq hnext, ← Int.add_emod_right, Int.emod_eq_of_lt (by omega) (by omega)] at hdist
  omega

end NrRlcEntityUm

/-! ## The receiver in the channel -/

/-- A stored segment is that of the PDU `p`, as long as it has its data. -/
structure ComesFrom (q : NrRlcPdu) (p : UmPacket) : Prop where
  sn_eq : q.sn = p.segment.sdu.sn
  eq_receivedPiece : q.data.isSome → q = NrRlcEntityUm.receivedPiece p.segment

/-- The receiver, the PDUs that have arrived or were lost, and how far it has stored. -/
structure UmReceiverInv (e : NrRlcEntityUm) (past : List UmPacket) (stored : Nat) : Prop where
  rx : e.RxInv
  rxNextHighest_eq : e.rxNextHighest = stored % e.snModulus
  traced : ∀ q ∈ e.rxList, ∃ p ∈ past, p.hasSn ∧ ComesFrom q p ∧
    p.seq < stored ∧ (stored - p.seq : Int) ≤ e.windowSize
  stored_eq : stored = 0 ∨ ∃ p ∈ past, p.hasSn ∧ p.seq + 1 = stored

/-- A segment with an SN is not a whole SDU. -/
theorem UmPacket.not_whole (p : UmPacket) (h : p.hasSn) :
    ¬(p.segment.isFirst && p.segment.isLast) := by
  unfold UmPacket.hasSn at h
  rw [Bool.not_eq_true'] at h
  rw [h]
  exact Bool.false_ne_true

section Arrival

variable {e e' : NrRlcEntityUm} {submitted : List (List UInt8)} {past : List UmPacket}
  {stored : Nat} {p : UmPacket}

theorem SentPacket.receivedPdu_eq (hp : SentPacket e.snFieldLength e.snModulus submitted p)
    (h : e.RxInv) (hsn : p.hasSn) (hn : e.snFieldLength = 6 ∨ e.snFieldLength = 12) :
    e.receivedPdu p.pdu = some (NrRlcEntityUm.receivedPiece p.segment) := by
  obtain ⟨e₀, size, hn₀, hpdu⟩ := hp.pdu_eq
  have hlen := hp.length_le
  have hmax : nrSduMax = 16000 := rfl
  have hsnM := h.core.space.isSn_emod (p.seq : Int)
  rw [← hp.sn_eq, h.core.space.modulus_eq] at hsnM
  rw [hpdu]
  exact NrRlcEntityUm.receivedPdu_serializeSdu (hn₀ ▸ hn) hn₀.symm (p.not_whole hsn) hp.piece
    (by omega) (hp.size_pos hsn) (hn₀ ▸ hsnM)

/-- PDUs arrive in order : at most the SDU of the last stored segment is open. -/
theorem UmReceiverInv.stored_le (h : UmReceiverInv e past stored)
    (hb : ∀ q ∈ past, SentBefore q p) : stored ≤ p.seq + 1 := by
  rcases h.stored_eq with h0 | ⟨q, hq, -, heq⟩
  · omega
  · have := (hb q hq).seq_le
    omega

theorem UmReceiverInv.rxDist_eq (h : UmReceiverInv e past stored)
    (hb : ∀ q ∈ past, SentBefore q p) (hfew : (p.seq - stored : Int) < e.windowSize) :
    e.rxDist (p.seq % e.snModulus) = p.seq - stored + e.windowSize := by
  have hle := h.stored_le hb
  have hwin := h.rx.core.space.two_mul_window
  rw [NrRlcEntityUm.rxDist_seq h.rxNextHighest_eq, Int.emod_eq_of_lt (by omega) (by omega)]

/-- PDUs of one SN, less than a window apart, are of one SDU. -/
theorem UmReceiverInv.id_eq (h : UmReceiverInv e past stored) {q : UmPacket}
    (hq : SentBefore q p) (hqsn : q.hasSn) (hlt : q.seq < stored)
    (hwindow : (stored - q.seq : Int) ≤ e.windowSize) (hpseq : p.seq + 1 = stored)
    (heq : (q.seq : Int) % e.snModulus = p.seq % e.snModulus) :
    q.segment.sdu.id = p.segment.sdu.id ∧ ¬q.segment.isLast := by
  have hwin := h.rx.core.space.two_mul_window
  have hseq : q.seq = p.seq := by
    have hdvd := Int.dvd_of_emod_eq_zero (Int.emod_eq_emod_iff_emod_sub_eq_zero.1 heq)
    have := Int.eq_zero_of_abs_lt_dvd hdvd (abs_lt.2 ⟨by omega, by omega⟩)
    omega
  rcases hq.id_lt_or_eq with ⟨-, hseqlt⟩ | hsame
  · have := hseqlt hqsn
    omega
  · exact hsame

section Stored

variable (h : UmReceiverInv e past stored)
  (hs : ∀ q ∈ past ++ [p], SentPacket e.snFieldLength e.snModulus submitted q)
  (hb : ∀ q ∈ past, SentBefore q p) (hsn : p.hasSn)
  (hfew : (p.seq - stored : Int) < e.windowSize)
  (hp : e.RxAccepted (NrRlcEntityUm.receivedPiece p.segment))
include h hs hb hsn hfew hp

/-- The segments of an SDU that is full are all of the SDU that was submitted. -/
theorem full_of_submitted
    (hfull : sduFull (e.storePdu (NrRlcEntityUm.receivedPiece p.segment)).rxList
      p.segment.sdu.sn) : p.seq + 1 = stored ∧
    ∀ q ∈ segmentsOf (e.storePdu (NrRlcEntityUm.receivedPiece p.segment)).rxList
        p.segment.sdu.sn,
      SliceOf p.segment.sdu.data q ∧ (q.isLast → q.so + q.size = p.segment.sdu.data.length ∧
        p.segment.isLast) := by
  have hsp := hs p (by simp)
  have hle := h.stored_le hb
  have hlist := (NrRlcEntityUm.rxCore_store h.rx.core hp).1.list
  have hlt : e.rxDist p.segment.sdu.sn < e.windowSize :=
    (NrRlcEntityUm.rxOthersSettled_store h.rx.core h.rx.settled hp).full_lt hfull
  rw [hsp.sn_eq, h.rxDist_eq hb hfew] at hlt
  have hpseq : p.seq + 1 = stored := by omega
  refine ⟨hpseq, fun q hq => ?_⟩
  obtain ⟨hqmem, hqsn⟩ := hlist.mem_segmentsOf.1 hq
  have hdata := hlist.data_isSome (fun hd => not_sduFull_of_sduDelivered hd hfull) hqmem hqsn
  rcases mem_insertBefore.1 hqmem with rfl | hqold
  · exact ⟨hsp.piece.sliceOf (hsp.size_pos hsn), fun hl => ⟨hsp.piece.end_eq hl, hl⟩⟩
  · obtain ⟨p', hp', hsn', hfrom, hlt', hwindow'⟩ := h.traced q hqold
    have hsp' := hs p' (List.mem_append_left _ hp')
    have heq : (p'.seq : Int) % e.snModulus = p.seq % e.snModulus := by
      rw [← hsp'.sn_eq, ← hsp.sn_eq, ← hfrom.sn_eq, hqsn]
    obtain ⟨hid, hnot⟩ := h.id_eq (hb p' hp') hsn' hlt' hwindow' hpseq heq
    have hsame : p'.segment.sdu.data = p.segment.sdu.data := by
      have hsub := hsp'.submitted_eq
      rw [hid, hsp.submitted_eq] at hsub
      exact (Option.some.inj hsub).symm
    obtain rfl := hfrom.eq_receivedPiece hdata
    exact ⟨hsame ▸ hsp'.piece.sliceOf (hsp'.size_pos hsn'), fun hl => absurd hl hnot⟩

/-- What is delivered was submitted. -/
theorem delivered_of_full
    (hfull : sduFull (e.storePdu (NrRlcEntityUm.receivedPiece p.segment)).rxList
      p.segment.sdu.sn) : p.segment.isLast ∧
    (reassemble (segmentsOf (e.storePdu (NrRlcEntityUm.receivedPiece p.segment)).rxList
      p.segment.sdu.sn)).delivered = [.deliverSdu (p.segment.sdu.data.map some)] := by
  have hsp := hs p (by simp)
  have hlist := (NrRlcEntityUm.rxCore_store h.rx.core hp).1.list
  obtain ⟨-, hall⟩ := full_of_submitted h hs hb hsn hfew hp hfull
  obtain ⟨hfrom, -⟩ := hlist.segmentData hfull
  obtain ⟨f, hf⟩ := exists_find_isLast hfrom
  exact ⟨((hall f (List.mem_of_find?_eq_some hf)).2 (List.find?_some hf)).2,
    delivered_reassemble hsp.length_le hfrom (fun q hq => (hall q hq).1)
      fun q hq hl => ((hall q hq).2 hl).1⟩

/-- What an accepted segment does to the list and to RX_Next_Highest. -/
theorem effect_of_accepted (he' : (e.storePdu (NrRlcEntityUm.receivedPiece
      p.segment)).receptionActions p.segment.sdu.sn = e') :
    (∀ q' ∈ e'.rxList, ∃ q, (q = NrRlcEntityUm.receivedPiece p.segment ∨ q ∈ e.rxList) ∧
      (q' = q ∨ q' = NrRlcEntityUm.dropData q)) ∧
    e'.snModulus = e.snModulus ∧ e'.windowSize = e.windowSize ∧
      e'.rxNextHighest = (max stored (p.seq + 1) : Nat) % e.snModulus := by
  have hsp := hs p (by simp)
  have hle := h.stored_le hb
  have hcore := (NrRlcEntityUm.rxCore_store h.rx.core hp).1
  have hx : IsSn e.snModulus p.segment.sdu.sn := hp.segment.sn_range
  subst he'
  by_cases hfull : sduFull (e.storePdu (NrRlcEntityUm.receivedPiece p.segment)).rxList
      p.segment.sdu.sn
  · obtain ⟨hmem, hview⟩ := NrRlcEntityUm.receptionActions_full hcore hx hfull
    simp only [NrRlcEntityUm.windowView, Prod.mk.injEq] at hview
    obtain ⟨-, hM, hW, hnext, -⟩ := hview
    refine ⟨fun q' hq' => ?_, hM, hW, ?_⟩
    · obtain ⟨q, hq, hqq'⟩ := hmem q' hq'
      exact ⟨q, mem_insertBefore.1 hq, hqq'⟩
    · obtain ⟨hpseq, -⟩ := full_of_submitted h hs hb hsn hfew hp hfull
      rw [hnext, hpseq, max_self]
      exact h.rxNextHighest_eq
  · obtain ⟨hmem, hview⟩ := NrRlcEntityUm.receptionActions_part hfull
    simp only [NrRlcEntityUm.windowView, Prod.mk.injEq] at hview
    obtain ⟨-, hM, hW, hnext, -⟩ := hview
    refine ⟨fun q' hq' => ⟨q', mem_insertBefore.1 (hmem q' hq'), .inl rfl⟩, hM, hW, ?_⟩
    rw [hnext, NrRlcEntityUm.snCompareRx_eq hcore.space hcore.rxNextHighest_sn hx
      hcore.rxNextHighest_sn, NrRlcEntityUm.rxDist_rxNextHighest hcore.space]
    show (if e.rxDist p.segment.sdu.sn - e.windowSize ≥ 0 then
      (p.segment.sdu.sn + 1) % e.snModulus else e.rxNextHighest) = _
    rw [hsp.sn_eq, h.rxDist_eq hb hfew, h.rxNextHighest_eq]
    split_ifs with hge
    · rw [Int.emod_add_emod, max_eq_right (by omega), Nat.cast_succ]
    · rw [max_eq_left (by omega)]

/-- The receiver after an accepted segment : it has stored up to its SN. -/
theorem umReceiverInv_store (he' : (e.storePdu (NrRlcEntityUm.receivedPiece
      p.segment)).receptionActions p.segment.sdu.sn = e') :
    UmReceiverInv e' (past ++ [p]) (max stored (p.seq + 1)) := by
  have hsp := hs p (by simp)
  have hle := h.stored_le hb
  have hwin := h.rx.core.space.two_mul_window
  have hrx : e'.RxInv := he' ▸ NrRlcEntityUm.rxInv_receptionActions h.rx hp
  obtain ⟨hmem, hM, hW, hnext⟩ := effect_of_accepted h hs hb hsn hfew hp he'
  have hnext' : e'.rxNextHighest = (max stored (p.seq + 1) : Nat) % e'.snModulus := by
    rw [hM, hnext]
  refine ⟨hrx, hnext', fun q' hq' => ?_, ?_⟩
  · -- the PDU it comes from is at most two windows behind, and in the window
    obtain ⟨q, hq, hqq'⟩ := hmem q' hq'
    obtain ⟨p', hp', hsn', hfrom, hlt', hwindow'⟩ : ∃ p' ∈ past ++ [p], p'.hasSn ∧
        ComesFrom q p' ∧ p'.seq < max stored (p.seq + 1) ∧
          ((max stored (p.seq + 1) : Nat) - p'.seq : Int) ≤ e'.snModulus := by
      rcases hq with rfl | hq
      · exact ⟨p, by simp, hsn, ⟨rfl, fun _ => rfl⟩, by omega, by omega⟩
      · obtain ⟨p', hp', hsn', hfrom, hlt', hwindow'⟩ := h.traced q hq
        exact ⟨p', List.mem_append_left _ hp', hsn', hfrom, by omega, by omega⟩
    have hsn_eq : q'.sn = q.sn := by
      rcases hqq' with rfl | rfl <;> rfl
    have hfrom' : ComesFrom q' p' := by
      rcases hqq' with rfl | rfl
      · exact hfrom
      · exact ⟨hfrom.sn_eq, fun hd => absurd hd (by simp [NrRlcEntityUm.dropData])⟩
    have hdist := hrx.settled.stored_lt q' hq'
    rw [hfrom'.sn_eq, (hs p' hp').sn_eq, ← hM] at hdist
    exact ⟨p', hp', hsn', hfrom', hlt', hrx.sub_le_window hnext' hlt' hwindow' hdist⟩
  · rcases max_choice stored (p.seq + 1) with hmax | hmax
    · rw [hmax]
      exact h.stored_eq.imp_right fun ⟨q, hq, hrest⟩ => ⟨q, List.mem_append_left _ hq, hrest⟩
    · exact .inr ⟨p, by simp, hsn, hmax.symm⟩

end Stored

end Arrival

/-! ## The channel -/

theorem UmReceiverInv.past_append {e : NrRlcEntityUm} {past : List UmPacket} {stored : Nat}
    (h : UmReceiverInv e past stored) (p : UmPacket) : UmReceiverInv e (past ++ [p]) stored := by
  refine ⟨h.rx, h.rxNextHighest_eq, fun q hq => ?_, h.stored_eq.imp_right ?_⟩
  · obtain ⟨p', hp', hrest⟩ := h.traced q hq
    exact ⟨p', List.mem_append_left _ hp', hrest⟩
  · rintro ⟨q, hq, hrest⟩
    exact ⟨q, List.mem_append_left _ hq, hrest⟩

/-- Calls that keep the window and store nothing. -/
theorem UmReceiverInv.congr {e e' : NrRlcEntityUm} {past : List UmPacket} {stored : Nat}
    (h : UmReceiverInv e past stored) (hrx : e'.RxInv) (hmem : ∀ q ∈ e'.rxList, q ∈ e.rxList)
    (hM : e'.snModulus = e.snModulus) (hW : e'.windowSize = e.windowSize)
    (hnext : e'.rxNextHighest = e.rxNextHighest) : UmReceiverInv e' past stored :=
  ⟨hrx, by rw [hnext, hM, h.rxNextHighest_eq], fun q hq => hW ▸ h.traced q (hmem q hq),
    h.stored_eq⟩

/-- An SDU handed to the upper layer as it was submitted. -/
def deliverEvent (buffer : List UInt8) : RlcEvent :=
  .deliverSdu (buffer.map some)

/-- The SDUs that are delivered are among the first `k`, and the rest is yet to come. -/
structure DeliveredUpTo (s : UmChannel) (k : Nat) : Prop where
  le : k ≤ s.submitted.length
  sublist : s.receiver.out.Sublist ((s.submitted.take k).map deliverEvent)
  inFlight_le : ∀ p ∈ s.inFlight, k ≤ p.segment.sdu.id
  queued_le : ∀ g ∈ s.sender.txList, k ≤ g.sdu.id

/-- The invariant of the channel. -/
structure UmChannelInv (s : UmChannel) : Prop where
  sender : s.SenderInv
  snFieldLength_eq : s.receiver.snFieldLength = s.sender.snFieldLength
  receiver : UmReceiverInv s.receiver s.past s.stored
  delivered : ∃ k, DeliveredUpTo s k

namespace UmChannel

variable {s s' : UmChannel} {p : UmPacket} {rest : List UmPacket}

theorem arrive_of_inFlight (hp : s.inFlight = p :: rest) : s.arrive =
    { s with
      receiver := s.receiver.recvPdu p.pdu
      past := s.past ++ [p]
      inFlight := rest
      arrived := if p.hasSn then max s.arrived (p.seq + 1) else s.arrived
      stored := if p.hasSn ∧ s.stores p.pdu then max s.stored (p.seq + 1) else s.stored } := by
  rw [arrive, hp]

section Arrive

variable (h : UmChannelInv s) (hp : s.inFlight = p :: rest)
include h hp

theorem sentPacket_past : ∀ q ∈ s.past ++ [p],
    SentPacket s.receiver.snFieldLength s.receiver.snModulus s.submitted q := by
  intro q hq
  have hM : s.receiver.snModulus = s.sender.snModulus := by
    rw [h.receiver.rx.core.space.modulus_eq, h.sender.snModulus_eq, h.snFieldLength_eq]
  rw [h.snFieldLength_eq, hM]
  refine h.sender.sent q ?_
  rw [← packets_of_inFlight hp]
  exact List.mem_append_left _ hq

theorem sentBefore_past : ∀ q ∈ s.past, SentBefore q p := by
  have horder := h.sender.sent_order
  rw [← packets_of_inFlight hp, List.append_assoc, List.pairwise_append] at horder
  exact fun q hq => horder.2.2 q hq p (by simp)

theorem sentBefore_rest : ∀ q ∈ rest, SentBefore p q := by
  have horder := h.sender.sent_order
  rw [← packets_of_inFlight hp, List.append_assoc, List.pairwise_append] at horder
  exact fun q hq => List.rel_of_pairwise_cons horder.2.1 hq

/-- A whole SDU arrives. -/
theorem receiver_arrive_whole (hsn : ¬p.hasSn) :
    UmReceiverInv s.arrive.receiver (s.past ++ [p]) s.arrive.stored ∧
      s.arrive.receiver.snFieldLength = s.receiver.snFieldLength ∧
      (s.arrive.receiver.out = s.receiver.out ∨ (p.segment.isLast ∧
        s.arrive.receiver.out = s.receiver.out ++ [deliverEvent p.segment.sdu.data])) := by
  have hsp := sentPacket_past h hp p (by simp)
  obtain ⟨e₀, size, -, hpdu⟩ := hsp.pdu_eq
  have hwhole : p.segment.isFirst && p.segment.isLast := by simpa [UmPacket.hasSn] using hsn
  have hinv := h.receiver.past_append p
  rw [arrive_of_inFlight hp]
  simp only [hsn, Bool.false_eq_true, false_and, if_false]
  rw [hpdu, NrRlcEntityUm.recvPdu_serializeSdu_whole hwhole hsp.piece]
  split_ifs with hnil
  · exact ⟨hinv, rfl, .inl rfl⟩
  · refine ⟨hinv.congr (NrRlcEntityUm.RxInv.congr (e := s.receiver) rfl hinv.rx) (fun _ hq => hq)
      rfl rfl rfl, rfl, .inr ⟨(Bool.and_eq_true_iff.1 hwhole).2, rfl⟩⟩

/-- A segment arrives. -/
theorem receiver_arrive_segment (hsn : p.hasSn)
    (hfew : (p.seq - s.stored : Int) < s.receiver.windowSize) :
    UmReceiverInv s.arrive.receiver (s.past ++ [p]) s.arrive.stored ∧
      s.arrive.receiver.snFieldLength = s.receiver.snFieldLength ∧
      (s.arrive.receiver.out = s.receiver.out ∨ (p.segment.isLast ∧
        s.arrive.receiver.out = s.receiver.out ++ [deliverEvent p.segment.sdu.data])) := by
  have hs := sentPacket_past h hp
  have hb := sentBefore_past h hp
  have hdecode := (hs p (by simp)).receivedPdu_eq h.receiver.rx hsn
    (h.snFieldLength_eq ▸ h.sender.snFieldLength_valid)
  have hacc := NrRlcEntityUm.rxAccepted_receivedPdu h.receiver.rx hdecode
  have hstores : s.stores p.pdu = decide (s.receiver.acceptsPdu
      (NrRlcEntityUm.receivedPiece p.segment)) := by
    rw [stores, hdecode, Option.any_some]
  rw [arrive_of_inFlight hp]
  simp only [hsn, true_and, hstores, decide_eq_true_eq]
  by_cases ha : s.receiver.acceptsPdu (NrRlcEntityUm.receivedPiece p.segment)
  · rw [if_pos ha, NrRlcEntityUm.recvPdu_eq_of_accepts hdecode ha]
    have hcore := (NrRlcEntityUm.rxCore_store h.receiver.rx.core hacc).1
    refine ⟨umReceiverInv_store h.receiver hs hb hsn hfew hacc rfl, ?_⟩
    by_cases hfull : sduFull (s.receiver.storePdu
        (NrRlcEntityUm.receivedPiece p.segment)).rxList p.segment.sdu.sn
    · obtain ⟨-, hview⟩ :=
        NrRlcEntityUm.receptionActions_full hcore hacc.segment.sn_range hfull
      obtain ⟨hlast, hdelivered⟩ := delivered_of_full h.receiver hs hb hsn hfew hacc hfull
      simp only [NrRlcEntityUm.windowView, Prod.mk.injEq] at hview
      obtain ⟨hn, -, -, -, hout⟩ := hview
      exact ⟨hn, .inr ⟨hlast, hout.trans (congrArg (s.receiver.out ++ ·) hdelivered)⟩⟩
    · obtain ⟨-, hview⟩ := NrRlcEntityUm.receptionActions_part hfull
      simp only [NrRlcEntityUm.windowView, Prod.mk.injEq] at hview
      obtain ⟨hn, -, -, -, hout⟩ := hview
      exact ⟨hn, .inl hout⟩
  · rw [if_neg ha, NrRlcEntityUm.recvPdu_eq_of_not_accepts hdecode ha]
    exact ⟨h.receiver.past_append p, rfl, .inl rfl⟩

/-- An SDU is delivered with its last segment, so what comes after is of later ones. -/
theorem deliveredUpTo_arrive (hout : s.arrive.receiver.out = s.receiver.out ∨
      (p.segment.isLast ∧
        s.arrive.receiver.out = s.receiver.out ++ [deliverEvent p.segment.sdu.data])) :
    ∃ k, DeliveredUpTo s.arrive k := by
  obtain ⟨k, hk⟩ := h.delivered
  rw [arrive_of_inFlight hp] at hout ⊢
  have hpk : k ≤ p.segment.sdu.id := hk.inFlight_le p (by simp [hp])
  rcases hout with hout | ⟨hlast, hout⟩
  · refine ⟨k, hk.le, ?_, fun q hq => hk.inFlight_le q (by simp [hp, hq]), hk.queued_le⟩
    show (s.receiver.recvPdu p.pdu).out.Sublist _
    rw [show (s.receiver.recvPdu p.pdu).out = _ from hout]
    exact hk.sublist
  · have hsp := sentPacket_past h hp p (by simp)
    have hpmem : p ∈ s.packets := by
      rw [← packets_of_inFlight hp]
      simp
    refine ⟨p.segment.sdu.id + 1, hsp.id_lt, ?_, fun q hq => ?_, fun g hg => ?_⟩
    · show (s.receiver.recvPdu p.pdu).out.Sublist _
      rw [show (s.receiver.recvPdu p.pdu).out = _ from hout, List.take_add_one,
        hsp.submitted_eq, Option.toList_some, List.map_append]
      refine List.Sublist.append ?_ (List.Sublist.refl _)
      exact hk.sublist.trans ((List.take_sublist_take_left hpk).map _)
    · rcases (sentBefore_rest h hp q hq).id_lt_or_eq with ⟨hlt, -⟩ | ⟨-, hnot⟩
      · exact hlt
      · exact absurd hlast hnot
    · rcases (h.sender.sent_before p hpmem).id_lt_or_eq g hg with hlt | ⟨-, hnot, -⟩
      · exact hlt
      · exact absurd hlast hnot

end Arrive

/-! ## Steps -/

theorem umChannelInv_arrive (h : UmChannelInv s) (hfew : FewNotStored s .arrive) :
    UmChannelInv s.arrive := by
  have hsender : s.arrive.SenderInv :=
    senderInv_step h.sender (show umChannelStep s .arrive = _ from rfl)
  cases hp : s.inFlight with
  | nil =>
    have hsame : s.arrive = s := by rw [arrive, hp]
    rwa [hsame]
  | cons p rest =>
    obtain ⟨hrx, hn, hout⟩ : UmReceiverInv s.arrive.receiver (s.past ++ [p]) s.arrive.stored ∧
        s.arrive.receiver.snFieldLength = s.receiver.snFieldLength ∧
        (s.arrive.receiver.out = s.receiver.out ∨ (p.segment.isLast ∧
          s.arrive.receiver.out = s.receiver.out ++ [deliverEvent p.segment.sdu.data])) := by
      by_cases hsn : p.hasSn
      · exact receiver_arrive_segment h hp hsn (hfew rfl p (by rw [hp, List.head?_cons]) hsn)
      · exact receiver_arrive_whole h hp hsn
    have hdelivered := deliveredUpTo_arrive h hp hout
    have heq := arrive_of_inFlight hp
    refine ⟨hsender, hn.trans ?_, ?_, hdelivered⟩
    · rw [heq]
      exact h.snFieldLength_eq
    · have hpast : s.arrive.past = s.past ++ [p] := by rw [heq]
      exact hpast ▸ hrx

theorem umChannelInv_lose (h : UmChannelInv s) : UmChannelInv s.lose := by
  have hsender : s.lose.SenderInv :=
    senderInv_step h.sender (show umChannelStep s .lose = _ from rfl)
  cases hp : s.inFlight with
  | nil =>
    have hsame : s.lose = s := by rw [lose, hp]
    rwa [hsame]
  | cons p rest =>
    have heq : s.lose = { s with past := s.past ++ [p], inFlight := rest } := by rw [lose, hp]
    rw [heq] at hsender ⊢
    obtain ⟨k, hk⟩ := h.delivered
    exact ⟨hsender, h.snFieldLength_eq, h.receiver.past_append p,
      k, hk.le, hk.sublist, fun q hq => hk.inFlight_le q (by simp [hp, hq]), hk.queued_le⟩

theorem umChannelInv_submit (h : UmChannelInv s) {buffer : List UInt8} {sduId : Int}
    (hs : s.submit buffer sduId = some s') : UmChannelInv s' := by
  have hsender := senderInv_submit h.sender hs
  obtain ⟨e', he', rfl⟩ := Option.map_eq_some_iff.1 hs
  obtain ⟨-, hview, hcases⟩ := NrRlcEntityUm.recvSdu_cases h.sender.queue he'
  simp only [NrRlcEntityUm.snView, Prod.mk.injEq] at hview
  obtain ⟨k, hk⟩ := h.delivered
  refine ⟨hsender, h.snFieldLength_eq.trans hview.1.symm, h.receiver, k, ?_⟩
  rcases hcases with ⟨hlist, hsdu⟩ | ⟨-, hsdu, hlist⟩
  · rw [if_pos hsdu]
    exact ⟨hk.le, hk.sublist, hk.inFlight_le, fun g hg => hk.queued_le g (hlist ▸ hg)⟩
  · rw [if_neg (by omega)]
    refine ⟨?_, ?_, hk.inFlight_le, ?_⟩
    · rw [List.length_append]
      exact hk.le.trans (Nat.le_add_right _ _)
    · rw [List.take_append_of_le_length hk.le]
      exact hk.sublist
    · show ∀ g ∈ e'.txList, k ≤ g.sdu.id
      rw [hlist, List.forall_mem_append, List.forall_mem_singleton]
      exact ⟨hk.queued_le, hk.le.trans h.sender.nextSdu_eq.ge⟩

theorem umChannelInv_grant (h : UmChannelInv s) (size : Int) : UmChannelInv (s.grant size) := by
  have hsender := senderInv_grant h.sender size
  obtain ⟨-, ⟨hn, -, -⟩, hgrant⟩ := NrRlcEntityUm.grant_generatePdu h.sender.queue size
  obtain ⟨k, hk⟩ := h.delivered
  have hn' := h.snFieldLength_eq.trans hn.symm
  cases hgrant with
  | nothing hlist hnext hsent =>
    rw [grant_of_sent_eq hsent] at hsender ⊢
    exact ⟨hsender, hn', h.receiver, k, hk.le, hk.sublist, hk.inFlight_le,
      fun g hg => hk.queued_le g (hlist ▸ hg)⟩
  | drop head rest hlist hfirst hlist' hnext hsent =>
    rw [grant_of_sent_eq hsent] at hsender ⊢
    exact ⟨hsender, hn', h.receiver, k, hk.le, hk.sublist, hk.inFlight_le,
      fun g hg => hk.queued_le g (by rw [hlist]; exact List.mem_cons_of_mem _ (hlist' ▸ hg))⟩
  | whole head rest hlist hlist' hnext hsent hpdu =>
    rw [grant_of_sent_append hsent] at hsender ⊢
    refine ⟨hsender, hn', h.receiver, k, hk.le, hk.sublist, ?_, fun g hg => hk.queued_le g ?_⟩
    · show ∀ p ∈ s.inFlight ++ [_], _
      rw [List.forall_mem_append, List.forall_mem_singleton]
      exact ⟨hk.inFlight_le, hk.queued_le head (by simp [hlist])⟩
    · rw [hlist]
      exact List.mem_cons_of_mem _ (hlist' ▸ hg)
  | part head rest j addr hlist hpos hj hlist' hnext hsent hpdu =>
    rw [grant_of_sent_append hsent] at hsender ⊢
    have hhead : k ≤ head.sdu.id := hk.queued_le head (by simp [hlist])
    refine ⟨hsender, hn', h.receiver, k, hk.le, hk.sublist, ?_, ?_⟩
    · show ∀ p ∈ s.inFlight ++ [_], _
      rw [List.forall_mem_append, List.forall_mem_singleton]
      exact ⟨hk.inFlight_le, hhead⟩
    · show ∀ g ∈ (s.sender.generatePdu size).1.txList, k ≤ g.sdu.id
      rw [hlist', List.forall_mem_cons]
      exact ⟨hhead, fun g hg => hk.queued_le g (by rw [hlist]; exact List.mem_cons_of_mem _ hg)⟩

theorem umChannelInv_step {op : UmChannelOp} (h : UmChannelInv s) (hfew : FewNotStored s op)
    (hs : umChannelStep s op = some s') : UmChannelInv s' := by
  have hsender := senderInv_step h.sender hs
  obtain ⟨k, hk⟩ := h.delivered
  cases op with
  | submit buffer sduId => exact umChannelInv_submit h hs
  | grant size => exact Option.some.inj hs ▸ umChannelInv_grant h size
  | arrive => exact Option.some.inj hs ▸ umChannelInv_arrive h hfew
  | lose => exact Option.some.inj hs ▸ umChannelInv_lose h
  | discard sduId =>
    obtain rfl := Option.some.inj hs
    obtain ⟨-, hview, -, hcases⟩ := NrRlcEntityUm.discardSdu_cases h.sender.queue sduId
    simp only [NrRlcEntityUm.snView, Prod.mk.injEq] at hview
    refine ⟨hsender, h.snFieldLength_eq.trans hview.1.symm, h.receiver, k, hk.le, hk.sublist,
      hk.inFlight_le, fun g hg => hk.queued_le g ?_⟩
    rcases hcases with hlist | ⟨before, cur, after, hlist, -, hlist'⟩
    · exact hlist ▸ hg
    · have hg' : g ∈ before ++ after := hlist' ▸ hg
      rw [hlist]
      exact ((List.sublist_cons_self cur after).append_left before).subset hg'
  | senderTime now =>
    obtain rfl := Option.some.inj hs
    have hset : (s.sender.setTime now).snFieldLength = s.sender.snFieldLength ∧
        (s.sender.setTime now).txList = s.sender.txList := by
      unfold NrRlcEntityUm.setTime NrRlcEntityUm.checkTReassembly NrRlcEntityUm.startReassembly
      split_ifs <;> exact ⟨rfl, rfl⟩
    exact ⟨hsender, h.snFieldLength_eq.trans hset.1.symm, h.receiver, k, hk.le, hk.sublist,
      hk.inFlight_le, fun g hg => hk.queued_le g (hset.2 ▸ hg)⟩
  | receiverTime now =>
    obtain rfl := Option.some.inj hs
    have hrx : (s.receiver.setTime now).RxInv := NrRlcEntityUm.rxInv_checkTReassembly
      (NrRlcEntityUm.RxInv.congr (e := s.receiver) rfl h.receiver.rx)
    obtain ⟨hmem, hview⟩ := NrRlcEntityUm.view_setTime s.receiver now
    simp only [NrRlcEntityUm.windowView, Prod.mk.injEq] at hview
    obtain ⟨hn, hM, hW, hnext, hout⟩ := hview
    refine ⟨hsender, hn.trans h.snFieldLength_eq, h.receiver.congr hrx hmem hM hW hnext,
      k, hk.le, ?_, hk.inFlight_le, hk.queued_le⟩
    show (s.receiver.setTime now).out.Sublist _
    rw [hout]
    exact hk.sublist

theorem umChannelInv_new (c : UmConfig) : UmChannelInv (newUmChannel c) :=
  ⟨senderInv_new c, rfl,
    ⟨NrRlcEntityUm.rxInv_new c, rfl, by simp [newUmChannel, newNrRlcEntityUm], .inl rfl⟩,
    0, by simp, by simp [newUmChannel, newNrRlcEntityUm], by simp [newUmChannel], by simp⟩

/-- The receiver delivers what was submitted, and its window is well formed. -/
theorem UmChannelInv.ok (h : UmChannelInv s) : UmChannelOk s := by
  obtain ⟨k, hk⟩ := h.delivered
  have hcore := h.receiver.rx.core
  refine ⟨hk.sublist.trans ((List.take_sublist _ _).map _), h.receiver.rx.settled.stored_lt,
    hcore.list.sorted, hcore.rxNextReassembly_le, fun sn hsn => ?_⟩
  obtain ⟨j, -, -, -, -, hnot⟩ := skipDelivered_le hsn hcore.rxNextHighest_sn
    (NrRlcEntityUm.rxNextHighest_undelivered hcore h.receiver.rx.settled.stored_lt)
  exact hnot

end UmChannel

/-- A UM channel is right in every run in which fewer than a window of consecutive SNs pass
without a stored segment. -/
theorem umChannelOk_of_reach {c : UmConfig} {s : UmChannel}
    (h : Reach umChannelStep FewNotStored (newUmChannel c) s) : UmChannelOk s :=
  UmChannel.UmChannelInv.ok (h.invariant (UmChannel.umChannelInv_new c)
    fun _ _ _ hi hok hs => UmChannel.umChannelInv_step hi hok hs)

instance (s : UmChannel) (op : UmChannelOp) : Decidable (FewLost s op) :=
  decidable_of_iff (op = .arrive → ∀ p ∈ s.inFlight.head?.toList, p.hasSn →
    (p.seq - s.arrived : Int) < s.receiver.windowSize) (by simp [FewLost])

instance (s : UmChannel) (op : UmChannelOp) : Decidable (FewNotStored s op) :=
  decidable_of_iff (op = .arrive → ∀ p ∈ s.inFlight.head?.toList, p.hasSn →
    (p.seq - s.stored : Int) < s.receiver.windowSize) (by simp [FewNotStored])

/-- An SDU of 3 or 4 bytes sent in two segments, of which the first arrives. -/
def twoSegments (buffer : List UInt8) : List UmChannelOp :=
  [.submit buffer 0, .grant 3, .grant 5, .arrive]

/-- The last segment of the first SDU is lost, the second SDU arrives completely. -/
def lossyRun : List UmChannelOp :=
  twoSegments [1, 2, 3] ++ [.lose] ++ twoSegments [4, 5, 6] ++ [.arrive]

theorem umChannelOk_two_sdus : ∃ s : UmChannel,
    s.receiver.out = [.deliverSdu [some 4, some 5, some 6]] ∧ UmChannelOk s := by
  have hrun : (lossyRun.foldlM (fun s op => if FewNotStored s op then umChannelStep s op else none)
      (newUmChannel ⟨100, 100, 35, 6, .inl rfl⟩)).map (fun s => s.receiver.out) =
        some [.deliverSdu [some 4, some 5, some 6]] := by
    decide +kernel
  obtain ⟨s, hs, hout⟩ := Option.map_eq_some_iff.1 hrun
  exact ⟨s, hout, umChannelOk_of_reach (reach_of_checked hs)⟩

/-- The reception buffer holds 3 bytes. Of the first SDU the first 2 bytes arrive and the
others are lost, and for all segments of 2 bytes after that there is no room. Then the SN is
that of the first SDU again, and the byte that is missing fits. -/
def overfullRun : List UmChannelOp :=
  twoSegments [1, 1, 1, 1] ++ [.lose] ++
    (List.replicate 63 (twoSegments [2, 2, 2, 2] ++ [.arrive])).flatten ++
      twoSegments [3, 3, 3] ++ [.arrive]

/-- A full reception buffer has the effect of losses : an SDU made of two is delivered. -/
theorem umChannel_not_ok : ¬∀ (c : UmConfig) (s : UmChannel),
    Reach umChannelStep FewLost (newUmChannel c) s → UmChannelOk s := by
  intro h
  have hrun : (overfullRun.foldlM (fun s op => if FewLost s op then umChannelStep s op else none)
      (newUmChannel ⟨3, 100, 35, 6, .inl rfl⟩)).map (fun s => (s.receiver.out, s.submitted)) =
        some ([.deliverSdu [some 1, some 1, some 3]],
          [1, 1, 1, 1] :: (List.replicate 63 [2, 2, 2, 2] ++ [[3, 3, 3]])) := by
    decide +kernel
  obtain ⟨s, hs, heq⟩ := Option.map_eq_some_iff.1 hrun
  obtain ⟨hout, hsubmitted⟩ := Prod.mk.inj heq
  have hsub := (h _ s (reach_of_checked hs)).delivered
  rw [hout, hsubmitted, List.singleton_sublist] at hsub
  exact absurd hsub (by decide)

end NrStack
