import NrStack.Rlc.Am
import NrStack.Rlc.AmRxInvariant
import NrStack.Rlc.AmScan

/-!
# Runs of the AM receiver

The functions of the sender do not touch the receiver (`rxView`), and the others keep
`RxInv`, so that it holds in every reachable state.
-/

namespace NrStack

namespace NrRlcEntityAm

variable {e e' : NrRlcEntityAm}

/-! ## Frames -/

/-- What the receiver reads and writes, less `status_triggered`. -/
structure RxView where
  tReassembly : Int
  snFieldLength : Nat
  snModulus : Int
  windowSize : Int
  rxNext : Int
  rxNextStatusTrigger : Int
  rxHighestStatus : Int
  rxNextHighest : Int
  tReassemblyStart : UInt64
  rxList : List NrRlcPdu
  rxSize : Int
  rxMaxsize : Int

/-- The receiver of `e`. -/
def rxView (e : NrRlcEntityAm) : RxView :=
  { tReassembly := e.tReassembly
    snFieldLength := e.snFieldLength
    snModulus := e.snModulus
    windowSize := e.windowSize
    rxNext := e.rxNext
    rxNextStatusTrigger := e.rxNextStatusTrigger
    rxHighestStatus := e.rxHighestStatus
    rxNextHighest := e.rxNextHighest
    tReassemblyStart := e.tReassemblyStart
    rxList := e.rxList
    rxSize := e.rxSize
    rxMaxsize := e.rxMaxsize }

theorem RxInv.congr (heq : e'.rxView = e.rxView) (h : e.RxInv) : e'.RxInv := by
  obtain ⟨⟨h1, h2, h3, h4, h5, h6, h7, h8, h9⟩, ⟨h10, h11, h12⟩, h13⟩ := h
  simp only [rxView, RxView.mk.injEq] at heq
  obtain ⟨-, a1, a2, a3, a4, a5, a6, a7, a8, a9, -, -⟩ := heq
  simp only [RxTriggerInRange, rxDist] at *
  refine ⟨⟨?_, ?_, ?_, ?_, ?_, ?_, ?_, ?_, ?_⟩, ⟨?_, ?_, ?_⟩, ?_⟩ <;>
    simp only [RxTriggerInRange, rxDist, a1, a2, a3, a4, a5, a6, a7, a8, a9] <;> assumption

theorem rxView_recvSdu {buffer : List UInt8} {sduId : Int} (h : e.recvSdu buffer sduId = some e') :
    e'.rxView = e.rxView := by
  have hlog : e.logRejected.rxView = e.rxView := by
    unfold logRejected
    split_ifs <;> rfl
  unfold recvSdu at h
  split_ifs at h with h1 h2
  · obtain rfl := Option.some.inj h
    exact hlog
  · obtain ⟨r, -, rfl⟩ := Option.map_eq_some_iff.1 h
    exact hlog

theorem rxView_discardSdu (sduId : Int) : (e.discardSdu sduId).rxView = e.rxView := by
  unfold discardSdu
  split
  · rfl
  · simp only
    split_ifs <;> rfl

theorem rxView_processControlPdu (buffer : List UInt8) :
    (e.processControlPdu buffer).rxView = e.rxView := by
  unfold processControlPdu
  cases e.decodeControlPdu buffer with
  | none => rfl
  | some pdu =>
    simp only
    split_ifs
    · have hscan := congrArg rxView (e.scanFrame_scanControlPdu pdu)
      exact hscan
    · rfl

theorem rxView_putInWaitList {sdu : NrRlcSduSegment} (h : e.putInWaitList sdu = some e') :
    e'.rxView = e.rxView := by
  have happend : ∀ {e'}, ((nrRlcSduSegmentListAppend e.waitList e.waitEnd sdu).map fun r =>
      { e with waitList := r.1, waitEnd := r.2 }) = some e' → e'.rxView = e.rxView := by
    intro e' h
    obtain ⟨r, -, rfl⟩ := Option.map_eq_some_iff.1 h
    rfl
  unfold putInWaitList at h
  simp only at h
  split at h
  · exact happend h
  · split at h
    · cases h
    · split_ifs at h
      · exact happend h
      · exact Option.some.inj h ▸ rfl

theorem rxView_sendPdu (sdu : NrRlcSduSegment) (size : Int) (p : Bool) :
    (e.sendPdu sdu size p).entity.rxView = e.rxView := by
  unfold sendPdu serializeSdu
  simp only
  split_ifs <;> rfl

theorem rxView_generateRetxPdu {size : Int} {r : Generated} (h : e.generateRetxPdu size = some r) :
    r.entity.rxView = e.rxView := by
  unfold generateRetxPdu at h
  split at h
  · cases h
  · split_ifs at h
    · exact Option.some.inj h ▸ rfl
    · obtain ⟨e₁, he₁, rfl⟩ := Option.map_eq_some_iff.1 h
      rw [rxView_sendPdu, rxView_putInWaitList he₁]
      unfold splitRetransmit
      split_ifs <;> rfl

theorem rxView_generateTxPdu {size : Int} {r : Generated} (h : e.generateTxPdu size = some r) :
    r.entity.rxView = e.rxView := by
  unfold generateTxPdu at h
  split_ifs at h
  · exact Option.some.inj h ▸ rfl
  · split at h
    · exact Option.some.inj h ▸ rfl
    · split_ifs at h
      · exact Option.some.inj h ▸ rfl
      · obtain ⟨e₁, he₁, rfl⟩ := Option.map_eq_some_iff.1 h
        rw [rxView_sendPdu]
        show e₁.rxView = _
        rw [rxView_putInWaitList he₁]
        unfold splitTx assignSn
        split_ifs <;> rfl

theorem rxView_generatePdu {size : Int} {r : Generated} (h : e.generatePdu size = some r) :
    r.entity.rxView = e.rxView := by
  unfold generatePdu at h
  split_ifs at h
  · obtain rfl := Option.some.inj h
    unfold generateStatus
    split_ifs <;> rfl
  · unfold generateDataPdu at h
    split_ifs at h
    · exact rxView_generateTxPdu h
    · obtain ⟨r₁, hr₁, h⟩ := Option.bind_eq_some_iff.1 h
      split_ifs at h
      · exact Option.some.inj h ▸ rxView_generateRetxPdu hr₁
      · rw [rxView_generateTxPdu h, rxView_generateRetxPdu hr₁]

theorem rxView_retransmitSn (sn : Int) : ∀ (l : List NrRlcSduSegment) (e : NrRlcEntityAm),
    (retransmitSn sn l e).rxView = e.rxView
  | [], _ => rfl
  | cur :: rest, e => by
    unfold retransmitSn
    split_ifs
    · exact rxView_retransmitSn sn rest _
    · rfl

theorem rxView_reportMaxRetx (g : NrRlcSduSegment) (reached : NrRlcSduEntry → Bool) :
    (e.reportMaxRetx g reached).rxView = e.rxView := by
  unfold reportMaxRetx
  split_ifs <;> rfl

theorem rxView_checkTPollRetransmit (h : e.checkTPollRetransmit = some e') :
    e'.rxView = e.rxView := by
  unfold checkTPollRetransmit at h
  split_ifs at h
  · exact Option.some.inj h ▸ rfl
  · unfold retransmitWaitHead at h
    split at h
    · cases h
    · obtain rfl := Option.some.inj h
      rw [rxView_reportMaxRetx, rxView_retransmitSn]
      rfl
  · exact Option.some.inj h ▸ rfl

@[simp] theorem rxView_triggerStatus (p : Bool) : (e.triggerStatus p).rxView = e.rxView :=
  rfl

theorem tReassemblyStart_triggerStatus (p : Bool) :
    (e.triggerStatus p).tReassemblyStart = e.tReassemblyStart :=
  rfl

theorem hasGap_triggerStatus (p : Bool) : (e.triggerStatus p).HasGap ↔ e.HasGap :=
  Iff.rfl

/-! ## The invariant -/

/-- An accepted PDU is in the receive window. -/
theorem rxAccepted_of_accepts {pdu : NrRlcPdu} (h : e.RxInv)
    (hp : RxSegment e.snModulus pdu ∧ pdu.data.isSome) (ha : e.acceptsDataPdu pdu) :
    e.RxAccepted pdu :=
  ⟨hp.1, hp.2, (snInRecvWindow_iff h.core.rxNext_sn hp.1.sn_range).1 ha.2.1⟩

/-- The segment in a data PDU, if it can be decoded. -/
def receivedPdu (e : NrRlcEntityAm) (buffer : List UInt8) : Option NrRlcPdu := do
  let (dc, d) ← (NrRlcPduDecoder.init buffer).getBits 1
  if dc = 0 then none
  else
    let (_, d) ← d.getBits 1
    e.decodeDataPdu d

theorem rxSegment_receivedPdu (hM : e.snModulus = 2 ^ e.snFieldLength) {buffer : List UInt8}
    {pdu : NrRlcPdu} (h : e.receivedPdu buffer = some pdu) :
    RxSegment e.snModulus pdu ∧ pdu.data.isSome := by
  obtain ⟨⟨dc, d⟩, hdc, h⟩ := Option.bind_eq_some_iff.1 h
  simp only at h
  split_ifs at h
  obtain ⟨⟨p, d'⟩, hp, h⟩ := Option.bind_eq_some_iff.1 h
  obtain ⟨-, -, hd⟩ := NrRlcPduDecoder.getBits_eq_some (NrRlcPduDecoder.reads_init buffer) hdc
  obtain ⟨-, -, hd'⟩ := NrRlcPduDecoder.getBits_eq_some hd hp
  exact rxSegment_decodeDataPdu hM hd' h

/-- What reception does : nothing to the receiver, or the actions for a stored segment. -/
theorem recvPdu_cases (e : NrRlcEntityAm) (buffer : List UInt8) :
    ((∀ pdu, e.receivedPdu buffer = some pdu → ¬e.acceptsDataPdu pdu) ∧
      (e.recvPdu buffer).rxView = e.rxView) ∨
    ∃ pdu p, e.receivedPdu buffer = some pdu ∧ e.acceptsDataPdu pdu ∧
      e.recvPdu buffer = ((e.storePdu pdu).receptionActions pdu.sn).triggerStatus p := by
  unfold recvPdu receivedPdu
  cases (NrRlcPduDecoder.init buffer).getBits 1 with
  | none => exact .inl ⟨by simp, rfl⟩
  | some r =>
    simp only [Option.bind_eq_bind, Option.bind_some]
    split_ifs
    · exact .inl ⟨by simp, rxView_processControlPdu buffer⟩
    · unfold recvDataPdu
      cases r.2.getBits 1 with
      | none => exact .inl ⟨by simp, rfl⟩
      | some r' =>
        simp only [Option.bind_some]
        cases e.decodeDataPdu r'.2 with
        | none => exact .inl ⟨by simp, rxView_triggerStatus _⟩
        | some pdu =>
          simp only
          split_ifs with ha
          · exact .inr ⟨pdu, _, rfl, ha, rfl⟩
          · refine .inl ⟨fun pdu' h => Option.some.inj h ▸ ha, rxView_triggerStatus _⟩

theorem rxInv_recvPdu (h : e.RxInv) (buffer : List UInt8) : (e.recvPdu buffer).RxInv := by
  rcases e.recvPdu_cases buffer with ⟨-, hview⟩ | ⟨pdu, p, hpdu, ha, heq⟩
  · exact h.congr hview
  · have hp := rxSegment_receivedPdu h.core.space.modulus_eq hpdu
    rw [heq]
    exact (rxInv_receptionActions h (rxAccepted_of_accepts h hp ha)).1.congr
      (rxView_triggerStatus p)

theorem rxInv_clearEntity (hs : SnSpace e.snFieldLength e.snModulus e.windowSize) :
    e.clearEntity.RxInv := by
  have hM := hs.modulus_pos
  have hW := hs.two_mul_window
  have h0 : IsSn e.snModulus 0 := ⟨le_rfl, hM⟩
  have hd : e.clearEntity.rxDist 0 = 0 := dist_self
  refine ⟨⟨hs, h0, h0, h0, h0, le_rfl, ?_, .nil, ?_⟩, ⟨fun sn => ?_, ?_, ?_⟩, fun h => absurd rfl h⟩
  · show e.clearEntity.rxDist 0 ≤ e.windowSize
    omega
  · simp [clearEntity]
  · simp [clearEntity, sduFull, segmentsOf]
  · simp [clearEntity, sduDelivered]
  · simp [clearEntity, sduDelivered]

theorem rxInv_step {op : AmOp} (h : e.RxInv) (hstep : amStep e op = some e') : e'.RxInv := by
  cases op with
  | recvSdu buffer sduId => exact h.congr (rxView_recvSdu hstep)
  | recvPdu buffer => exact Option.some.inj hstep ▸ rxInv_recvPdu h buffer
  | generatePdu size =>
    obtain ⟨r, hr, rfl⟩ := Option.map_eq_some_iff.1 hstep
    exact h.congr (rxView_generatePdu hr)
  | setTime now =>
    obtain ⟨e₁, he₁, rfl⟩ := Option.map_eq_some_iff.1 hstep
    exact rxInv_checkTReassembly
      (RxInv.congr (rxView_checkTPollRetransmit he₁) (RxInv.congr (e := e) rfl h))
  | discardSdu sduId => exact Option.some.inj hstep ▸ h.congr (rxView_discardSdu sduId)
  | reestablishment => exact Option.some.inj hstep ▸ rxInv_clearEntity h.core.space

theorem rxInv_new (c : AmConfig) : (newNrRlcEntityAm c).RxInv :=
  rxInv_clearEntity (e := newNrRlcEntityAm c) ⟨by
    rcases c.snFieldLength_valid with h | h
    · exact .inr (.inl h)
    · exact .inr (.inr h), rfl, rfl⟩

/-- The receiver is well formed after any sequence of calls. -/
theorem rxInv_of_reach {c : AmConfig} (h : AmReach c e) : e.RxInv :=
  Reach.invariant h (rxInv_new c) fun _ _ _ hi _ hs => rxInv_step hi hs

/-- The state of the receiver, with all SNs taken from RX_Next on. -/
structure RxStateOk (e : NrRlcEntityAm) : Prop where
  rxNext_le : 0 ≤ e.rxDist e.rxHighestStatus
  rxHighestStatus_le : e.rxDist e.rxHighestStatus ≤ e.rxDist e.rxNextHighest
  rxNextHighest_le : e.rxDist e.rxNextHighest ≤ e.windowSize
  sorted : e.rxList.Pairwise (RxOrder e.snModulus e.rxNext)
  stored : ∀ p ∈ e.rxList, IsSn e.snModulus p.sn ∧ e.rxDist p.sn < e.rxDist e.rxNextHighest
  rxNext_incomplete : ¬CompletelyReceived e.rxList e.rxNext
  rxHighestStatus_incomplete : ¬CompletelyReceived e.rxList e.rxHighestStatus
  trigger : e.tReassemblyStart ≠ 0 → 0 < e.rxDist e.rxNextStatusTrigger ∧
    e.rxDist e.rxNextStatusTrigger ≤ e.rxDist e.rxNextHighest
  /-- After a data PDU that is stored, t-Reassembly runs exactly if there is a gap. -/
  running_iff : ∀ buffer pdu, e.receivedPdu buffer = some pdu → e.acceptsDataPdu pdu →
    e.tCurrent ≥ 1 →
      ((e.recvPdu buffer).tReassemblyStart ≠ 0 ↔ (e.recvPdu buffer).HasGap)

theorem RxInv.incomplete (h : e.RxInv) {sn : Int} (hn : ¬sduDelivered e.rxList sn) :
    ¬CompletelyReceived e.rxList sn := fun hc =>
  (h.core.list.delivered_or_full hc).elim hn (h.settled.not_full sn)

/-- The receiver after any sequence of calls, whatever the PDUs received are. -/
theorem rxStateOk_of_reach {c : AmConfig} (hreach : AmReach c e) : e.RxStateOk := by
  have h := rxInv_of_reach hreach
  refine ⟨h.core.rxDist_nonneg _, h.core.rxHighestStatus_le, h.core.rxNextHighest_le,
    h.core.list.sorted, fun p hp => ⟨(h.core.list.segment p hp).sn_range, h.core.stored_lt p hp⟩,
    h.incomplete h.settled.rxNext_undelivered, h.incomplete h.settled.rxHighestStatus_undelivered,
    h.trigger, fun buffer pdu hpdu ha hcur => ?_⟩
  rcases e.recvPdu_cases buffer with ⟨hno, -⟩ | ⟨pdu', p, hpdu', ha', heq⟩
  · exact absurd ha (hno pdu hpdu)
  · have hp := rxSegment_receivedPdu h.core.space.modulus_eq hpdu'
    have hcur' : e.tCurrent ≠ 0 := by
      rintro h0
      rw [h0] at hcur
      exact absurd hcur (by decide)
    rw [heq, tReassemblyStart_triggerStatus, hasGap_triggerStatus]
    exact (rxInv_receptionActions h (rxAccepted_of_accepts h hp ha')).2 hcur'

/-- A segment of SN 1 has arrived, and nothing of SN 0. -/
theorem rxStateOk_gap :
    ((newNrRlcEntityAm ⟨100, 100, 45, 35, 0, -1, -1, 8, 12, .inl rfl⟩).recvPdu
      [0x80, 1, 0xff]).RxStateOk :=
  rxStateOk_of_reach (.next (a := .recvPdu [0x80, 1, 0xff]) .refl trivial rfl)

end NrRlcEntityAm

end NrStack
