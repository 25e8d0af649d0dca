import NrStack.Rlc.AmTxAck

/-!
# Runs of the AM sender

`TxStep` is what one call of a function of the entity can do to the sender. `TxInv` holds
in every state of a run in which no SDU gets an SN that is still in use (`SnFree`), and
`TxExact` if no STATUS PDU splices the retransmit list either (`NoSplice`).
-/

namespace NrStack

namespace NrRlcEntityAm

variable {e e' : NrRlcEntityAm}

/-! ## Frames -/

/-- The entity less what the receiver writes. -/
def txFrame (e : NrRlcEntityAm) : NrRlcEntityAm :=
  { e with
    rxNext := 0
    rxNextStatusTrigger := 0
    rxHighestStatus := 0
    rxNextHighest := 0
    statusTriggered := false
    tReassemblyStart := 0
    tStatusProhibitStart := 0
    rxList := []
    rxSize := 0
    out := [] }

theorem txView_of_txFrame (h : e'.txFrame = e.txFrame) : e'.txView = e.txView :=
  show e'.txFrame.txView = e.txFrame.txView from h ▸ rfl

@[simp] theorem txFrame_triggerStatus (p : Bool) : (e.triggerStatus p).txFrame = e.txFrame :=
  rfl

@[simp] theorem txFrame_storePdu (pdu : NrRlcPdu) : (e.storePdu pdu).txFrame = e.txFrame :=
  rfl

@[simp] theorem txFrame_receptionActions (x : Int) :
    (e.receptionActions x).txFrame = e.txFrame := by
  have htimer : ∀ e : NrRlcEntityAm, e.updateReassemblyTimer.txFrame = e.txFrame := by
    intro e
    have hstop : e.stopReassembly.txFrame = e.txFrame := by
      unfold stopReassembly
      split_ifs <;> rfl
    unfold updateReassemblyTimer startReassembly
    split_ifs <;> exact hstop
  have hdeliver : ∀ e : NrRlcEntityAm, (e.deliverIfFull x).txFrame = e.txFrame := by
    intro e
    unfold deliverIfFull updateRxNext updateRxHighestStatus
    split_ifs <;> rfl
  have hhighest : (e.updateRxNextHighest x).txFrame = e.txFrame := by
    unfold updateRxNextHighest
    split_ifs <;> rfl
  exact (htimer _).trans ((hdeliver _).trans hhighest)

theorem txFrame_recvDataPdu (d : NrRlcPduDecoder) : (e.recvDataPdu d).txFrame = e.txFrame := by
  unfold recvDataPdu
  split
  · rfl
  · split
    · rfl
    · split_ifs <;> simp

theorem txFrame_checkTReassembly : e.checkTReassembly.txFrame = e.txFrame := by
  unfold checkTReassembly startReassembly
  split_ifs <;> rfl

theorem txFrame_generateStatus (size : Int) :
    (e.generateStatus size).entity.txFrame = e.txFrame := by
  unfold generateStatus
  split_ifs <;> rfl

/-! ## One step -/

/-- The STATUS PDU in a received buffer that passes the checks. -/
def receivedControlPdu (e : NrRlcEntityAm) (buffer : List UInt8) : Option ControlPdu :=
  match (NrRlcPduDecoder.init buffer).getBits 1 with
  | some (0, _) => (e.decodeControlPdu buffer).filter e.validControlPdu
  | _ => none

theorem receivedControlPdu_eq_some {buffer : List UInt8} {pdu : ControlPdu}
    (h : e.receivedControlPdu buffer = some pdu) :
    (∃ d, (NrRlcPduDecoder.init buffer).getBits 1 = some (0, d)) ∧
      e.decodeControlPdu buffer = some pdu ∧ e.validControlPdu pdu := by
  unfold receivedControlPdu at h
  split at h
  · next d hd => exact ⟨⟨d, hd⟩, by simpa [Option.filter_eq_some_iff] using h⟩
  · cases h

/-- A STATUS PDU that passes the checks is processed. -/
theorem recvPdu_eq_applyControlPdu {buffer : List UInt8} {pdu : ControlPdu}
    (h : e.receivedControlPdu buffer = some pdu) : e.recvPdu buffer = e.applyControlPdu pdu := by
  obtain ⟨⟨d, hd⟩, hdec, hv⟩ := receivedControlPdu_eq_some h
  simp [recvPdu, processControlPdu, hd, hdec, hv]

/-- Any other received PDU leaves the sender alone. -/
theorem txFrame_recvPdu {buffer : List UInt8} (h : e.receivedControlPdu buffer = none) :
    (e.recvPdu buffer).txFrame = e.txFrame := by
  unfold recvPdu processControlPdu
  split
  · rfl
  · next dc d hd =>
    split_ifs with hdc
    · subst hdc
      cases hdec : e.decodeControlPdu buffer with
      | none => rfl
      | some pdu =>
        have hno : ¬e.validControlPdu pdu := by simpa [receivedControlPdu, hd, hdec] using h
        simp [hno]
    · exact txFrame_recvDataPdu d

/-- What one call can do to the sender. -/
inductive TxStep (e : NrRlcEntityAm) : AmOp → NrRlcEntityAm → Prop
  | stay {op : AmOp} {e' : NrRlcEntityAm} : e'.txView = e.txView → TxStep e op e'
  | accept {buffer : List UInt8} {sduId : Int} {e' : NrRlcEntityAm} :
      (buffer.length : Int) ≤ nrSduMax → e'.txView = (e.acceptedSdu buffer sduId).txView →
      TxStep e (.recvSdu buffer sduId) e'
  | discard {sduId : Int} {before after : List NrRlcSduSegment} {cur : NrRlcSduSegment} :
      e.txList = before ++ cur :: after → cur.isFirst →
      TxStep e (.discardSdu sduId) (e.discardedSdu before cur after)
  | send {size : Int} {e' : NrRlcEntityAm} : DataPduSent e size e' →
      TxStep e (.generatePdu size) e'
  | ack {buffer : List UInt8} {pdu : ControlPdu} : e.receivedControlPdu buffer = some pdu →
      TxStep e (.recvPdu buffer) (e.applyControlPdu pdu)
  | poll {now : UInt64} {e₁ e₂ e' : NrRlcEntityAm} : e₁.txView = e.txView →
      e₁.retransmitWaitHead = some e₂ → e'.txView = e₂.txView → TxStep e (.setTime now) e'
  | clear : TxStep e .reestablishment e.clearEntity

/-- A PDU does not give an SN that is in use to an SDU. -/
def SnFree (e : NrRlcEntityAm) : AmOp → Prop
  | .generatePdu _ => e.SendsFreeSn
  | _ => True

instance (e : NrRlcEntityAm) : ∀ op, Decidable (e.SnFree op)
  | .generatePdu _ => inferInstanceAs (Decidable e.SendsFreeSn)
  | .recvSdu _ _ | .recvPdu _ | .setTime _ | .discardSdu _ | .reestablishment => .isTrue trivial

theorem TxInv.recvSdu_step (h : TxInv [] e) {buffer : List UInt8} {sduId : Int}
    (hs : e.recvSdu buffer sduId = some e') : TxStep e (.recvSdu buffer sduId) e' := by
  unfold recvSdu at hs
  split_ifs at hs with hmax hfull
  · rw [← Option.some.inj hs]
    exact .stay (txView_logRejected e)
  · have hlog := h.congr (txView_logRejected e)
    rw [hlog.acceptSdu_eq] at hs
    rw [← Option.some.inj hs]
    refine .accept (not_lt.1 hmax) ?_
    unfold logRejected
    split_ifs <;> rfl

theorem checkTPollRetransmit_cases (hs : e.checkTPollRetransmit = some e') :
    e'.txView = e.txView ∨ e.expirePollRetransmit.retransmitWaitHead = some e' := by
  unfold checkTPollRetransmit at hs
  split_ifs at hs
  · exact .inl (Option.some.inj hs ▸ rfl)
  · exact .inr hs
  · exact .inl (Option.some.inj hs ▸ rfl)

/-- Every call is such a step. -/
theorem TxInv.step_cases (h : TxInv [] e) {op : AmOp} (hok : e.SnFree op)
    (hs : amStep e op = some e') : TxStep e op e' := by
  cases op with
  | recvSdu buffer sduId => exact h.recvSdu_step hs
  | recvPdu buffer =>
    rw [← Option.some.inj hs]
    cases hp : e.receivedControlPdu buffer with
    | none => exact .stay (txView_of_txFrame (txFrame_recvPdu hp))
    | some pdu => exact recvPdu_eq_applyControlPdu hp ▸ .ack hp
  | generatePdu size =>
    obtain ⟨r, hr, hcases⟩ := h.generatePdu_cases hok size
    obtain rfl : r.entity = e' := by simpa [amStep, hr] using hs
    obtain hstay | rfl | hsent := hcases
    · exact .stay (by rw [hstay])
    · exact .stay (txView_of_txFrame (txFrame_generateStatus size))
    · exact .send hsent
  | setTime now =>
    obtain ⟨e₁, he₁, rfl⟩ := Option.map_eq_some_iff.1 hs
    have hview : e₁.checkTReassembly.txView = e₁.txView :=
      txView_of_txFrame txFrame_checkTReassembly
    obtain hstay | hpoll := checkTPollRetransmit_cases he₁
    · exact .stay (hview.trans hstay)
    · have hexpire : ({ e with tCurrent := now }.expirePollRetransmit).txView = e.txView := rfl
      exact .poll hexpire hpoll hview
  | discardSdu sduId =>
    rw [← Option.some.inj hs]
    obtain heq | ⟨before, cur, after, hl, hfirst, heq⟩ := e.discardSdu_cases sduId
    · exact .stay (by rw [heq])
    · exact heq ▸ .discard hl hfirst
  | reestablishment =>
    rw [← Option.some.inj hs]
    exact .clear

/-! ## Re-establishment -/

theorem sdus_clearEntity (e : NrRlcEntityAm) :
    e.clearEntity.sdus = nrRlcFreeSduSegmentList e.sdus e.listed := by
  simp [clearEntity, nrRlcFreeSduSegmentList, listed, List.foldl_append]

theorem TxInv.clearEntity (h : TxInv [] e) : TxInv [] e.clearEntity := by
  have hM := h.window.space.modulus_pos
  have hwin := h.window.space.two_mul_window
  have hzero : IsSn e.snModulus 0 := ⟨le_rfl, hM⟩
  have hpool := h.pool
  rw [List.nil_append, ← List.append_nil e.listed] at hpool
  refine ⟨⟨h.window.space, hzero, hzero, ?_⟩, ⟨.nil, .nil, by simp [NrRlcEntityAm.clearEntity]⟩,
    by simp [NrRlcEntityAm.clearEntity], by simp [NrRlcEntityAm.clearEntity], ?_, rfl, rfl⟩
  · show dist e.snModulus 0 0 ≤ e.windowSize
    rw [dist_self]
    omega
  · rw [sdus_clearEntity]
    exact hpool.freeList

theorem TxExact.clearEntity (h : TxInv [] e) (hx : TxExact [] e) : TxExact [] e.clearEntity := by
  have hpool := h.pool
  have hfull := hx.full
  rw [List.nil_append, ← List.append_nil e.listed] at hpool hfull
  have hnil := SduHeapFull.eq_nil (SduHeapFull.freeList hpool hfull)
  rw [← sdus_clearEntity] at hnil
  refine ⟨?_, ?_, rfl, rfl⟩
  · rw [hnil]
    simp [SduHeapFull]
  · rw [hnil]
    rfl

/-! ## Steps and runs -/

theorem TxInv.validPieces (h : TxInv [] e) {buffer : List UInt8} {pdu : ControlPdu}
    (hp : e.receivedControlPdu buffer = some pdu) :
    e.ValidPieces pdu.ackSn (pdu.pieces e.snModulus) := by
  obtain ⟨-, hd, hv⟩ := receivedControlPdu_eq_some hp
  exact validPieces_of_decode h.window hd hv

/-- One step keeps the invariant. -/
theorem TxInv.step (h : TxInv [] e) {op : AmOp} (hok : e.SnFree op) (hs : TxStep e op e') :
    TxInv [] e' := by
  cases hs with
  | stay heq => exact h.congr heq
  | accept hsize heq => exact (h.acceptedSdu hsize).congr heq
  | discard hl => exact h.discardedSdu hl
  | send hsent => exact h.dataPduSent hok hsent
  | ack hp => exact h.applyControlPdu (h.validPieces hp)
  | poll heq hpoll heq' => exact ((h.congr heq).retransmitWaitHead hpoll).congr heq'
  | clear => exact h.clearEntity

/-- A STATUS PDU does not splice the retransmit list. -/
def NoSplice (e : NrRlcEntityAm) : AmOp → Prop
  | .recvPdu buffer => ∀ pdu, e.receivedControlPdu buffer = some pdu → ¬e.Splices pdu
  | _ => True

instance (e : NrRlcEntityAm) : ∀ op, Decidable (e.NoSplice op)
  | .recvPdu buffer =>
    inferInstanceAs (Decidable (∀ pdu ∈ e.receivedControlPdu buffer, ¬e.Splices pdu))
  | .recvSdu _ _ | .generatePdu _ | .setTime _ | .discardSdu _ | .reestablishment =>
    .isTrue trivial

/-- One step keeps the counters exact. -/
theorem TxExact.step (h : TxInv [] e) (hx : TxExact [] e) {op : AmOp} (hok : e.NoSplice op)
    (hs : TxStep e op e') : TxExact [] e' := by
  cases hs with
  | stay heq => exact hx.congr heq
  | accept _ heq => exact (hx.acceptedSdu h).congr heq
  | discard hl hfirst => exact hx.discardedSdu h hl hfirst
  | send hsent => exact hx.dataPduSent hsent
  | ack hp => exact hx.applyControlPdu h (h.validPieces hp) (hok _ hp)
  | poll heq hpoll heq' => exact ((hx.congr heq).retransmitWaitHead hpoll).congr heq'
  | clear => exact hx.clearEntity h

theorem txInv_new (c : AmConfig) : TxInv [] (newNrRlcEntityAm c) := by
  have hspace : SnSpace c.snFieldLength (2 ^ c.snFieldLength) (2 ^ c.snFieldLength / 2) :=
    ⟨.inr c.snFieldLength_valid, rfl, rfl⟩
  have hM := hspace.modulus_pos
  have hwin := hspace.two_mul_window
  refine ⟨⟨hspace, ⟨le_rfl, hM⟩, ⟨le_rfl, hM⟩, ?_⟩, ⟨.nil, .nil, by simp [newNrRlcEntityAm]⟩,
    by simp [newNrRlcEntityAm], by simp [newNrRlcEntityAm], .nil, rfl, rfl⟩
  show dist (2 ^ c.snFieldLength) 0 0 ≤ (2 ^ c.snFieldLength / 2 : Int)
  rw [dist_self]
  omega

theorem txExact_new (c : AmConfig) : TxExact [] (newNrRlcEntityAm c) :=
  ⟨by simp [SduHeapFull, newNrRlcEntityAm], rfl, rfl, rfl⟩

/-- The invariant of the sender in every state of a run in which SNs in use are not given
again. -/
theorem txInv_of_reach {c : AmConfig} (h : Reach amStep SnFree (newNrRlcEntityAm c) e) :
    TxInv [] e :=
  h.invariant (txInv_new c) fun _ _ _ hinv hok hs => hinv.step hok (hinv.step_cases hok hs)

end NrRlcEntityAm

end NrStack
