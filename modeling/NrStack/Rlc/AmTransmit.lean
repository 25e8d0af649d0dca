import NrStack.Rlc.AmEntity

/-!
# The AM sender

Transmission and retransmission of data PDUs, reception of an SDU from the upper layer,
t-PollRetransmit, discard and re-establishment. `none` is a null or dangling pointer
dereferenced, or a failed assertion.

`generate_retx_pdu` and `generate_tx_pdu` end in the same way. The common part is
`putInWaitList` and `sendPdu`.
-/

namespace NrStack

/-- A generated PDU and the entity after. -/
structure Generated where
  entity : NrRlcEntityAm
  pdu : List UInt8

namespace NrRlcEntityAm

variable (e : NrRlcEntityAm)

/-! ## Serialization -/

/-- `include_poll`, less the P bit of the buffer. -/
def includePoll : NrRlcEntityAm :=
  { e with
    pduWithoutPoll := 0
    byteWithoutPoll := 0
    pollSn := (e.txNext - 1 + e.snModulus) % e.snModulus
    tPollRetransmitStart := e.tCurrent }

/-- The header of a data PDU, with P = 0. -/
def dataHeader (sdu : NrRlcSduSegment) (bufsize : Int) : NrRlcPduEncoder :=
  let enc := NrRlcPduEncoder.init bufsize
  let enc := enc.putBits 1 1
  let enc := enc.putBits 0 1
  let enc := enc.putBits (!sdu.isFirst).toNat 1
  let enc := enc.putBits (!sdu.isLast).toNat 1
  let enc := if e.snFieldLength = 18 then enc.putBits 0 2 else enc
  let enc := enc.putBits sdu.sdu.sn.toNat e.snFieldLength
  if !sdu.isFirst then enc.putBits sdu.so.toNat 16 else enc

/-- `serialize_sdu`. -/
def serializeSdu (sdu : NrRlcSduSegment) (bufsize : Int) (p : Bool) : Generated :=
  let data := (sdu.sdu.data.drop sdu.so.toNat).take sdu.size.toNat
  let buffer := (e.dataHeader sdu bufsize).buffer ++ data
  let e := { e with sent := e.sent ++ [sdu] }
  if p then { entity := e.includePoll, pdu := buffer.modify 0 (· ||| 0x40) }
  else { entity := e, pdu := buffer }

/-- The segment that `resegment` leaves in the PDU. -/
def resegmentHead (sdu : NrRlcSduSegment) (pduSize : Int) : NrRlcSduSegment :=
  let overSize := e.pduSize sdu - pduSize
  { sdu with size := sdu.size - overSize, isLast := false }

/-- The segment that `resegment` returns, for the remaining bytes. -/
def resegmentNext (sdu : NrRlcSduSegment) (pduSize : Int) : NrRlcSduSegment :=
  let overSize := e.pduSize sdu - pduSize
  { sdu with
    addr := e.nextSegment
    size := overSize
    so := sdu.so + (sdu.size - overSize)
    isFirst := false }

/-- What `resegment` does to the entity : a reference more, and a new segment. -/
def resegment (sdu : NrRlcSduSegment) : NrRlcEntityAm :=
  { e with
    sdus := updateSdu sdu.sdu.id (fun d => { d with refCount := d.refCount + 1 }) e.sdus
    nextSegment := e.nextSegment + 1 }

/-- Put a segment in the wait list, at the end if it comes after the last one. -/
def putInWaitList (sdu : NrRlcSduSegment) : Option NrRlcEntityAm :=
  let append := (nrRlcSduSegmentListAppend e.waitList e.waitEnd sdu).map fun r =>
    { e with waitList := r.1, waitEnd := r.2 }
  match e.waitEnd with
  | none => append
  | some a =>
    match e.waitList.find? fun g => g.addr = a with
    | none => none
    | some last =>
      if e.snCompareTx sdu.sdu.sn last.sdu.sn > 0 ∨
          (e.snCompareTx sdu.sdu.sn last.sdu.sn = 0 ∧ sdu.so > last.so) then append
      else
        let waitList := e.nrRlcTxSduSegmentListAdd e.waitList sdu
        some { e with
          waitList
          waitEnd := match waitList with
            | [g] => some g.addr
            | _ => e.waitEnd }

/-- The end of the generation of a PDU, whose poll is asked for by `p` or forced. -/
def sendPdu (sdu : NrRlcSduSegment) (size : Int) (p : Bool) : Generated :=
  { e with forcePoll := false }.serializeSdu sdu size (p || e.forcePoll)

/-- Take the head `sdu` off the retransmit list, which is then `rest`. -/
def takeRetransmit (sdu : NrRlcSduSegment) (rest : List NrRlcSduSegment) : NrRlcEntityAm :=
  { e with
    retransmitList := rest
    bstatusRetxSize := e.bstatusRetxSize - e.pduSize sdu }

/-- Put a segment back at the head of the retransmit list. -/
def putBackRetransmit (next : NrRlcSduSegment) : NrRlcEntityAm :=
  { e with
    retransmitList := next :: e.retransmitList
    bstatusRetxSize := e.bstatusRetxSize + e.pduSize next }

/-- Segment `sdu` if necessary : the entity and the segment that fits. -/
def splitRetransmit (sdu : NrRlcSduSegment) (size : Int) : NrRlcEntityAm × NrRlcSduSegment :=
  if e.pduSize sdu > size then
    ((e.resegment sdu).putBackRetransmit (e.resegmentNext sdu size), e.resegmentHead sdu size)
  else (e, sdu)

/-- `generate_retx_pdu`; an empty PDU is a return value of 0. -/
def generateRetxPdu (size : Int) : Option Generated :=
  match e.retransmitList with
  | [] => none
  | sdu :: rest =>
    if e.computePduHeaderSize sdu + 1 > size then some { entity := e, pdu := [] }
    else
      let r := (e.takeRetransmit sdu rest).splitRetransmit sdu size
      (r.1.putInWaitList r.2).map fun e => e.sendPdu r.2 size (decide e.checkPollAfterPduAssembly)

/-- Take the head `sdu` off the TX list, which is then `rest`. -/
def takeTx (sdu : NrRlcSduSegment) (rest : List NrRlcSduSegment) : NrRlcEntityAm :=
  { e with
    txList := rest
    txEnd := if rest = [] then none else e.txEnd
    bstatusTxSize := e.bstatusTxSize - e.pduSize sdu }

/-- Put a segment back at the head of the TX list. -/
def putBackTx (next : NrRlcSduSegment) : NrRlcEntityAm :=
  { e with
    txList := next :: e.txList
    txEnd := if e.txEnd = none then some next.addr else e.txEnd
    bstatusTxSize := e.bstatusTxSize + e.pduSize next }

/-- Segment `sdu` if necessary : the entity and the segment that fits. -/
def splitTx (sdu : NrRlcSduSegment) (size : Int) : NrRlcEntityAm × NrRlcSduSegment :=
  if e.pduSize sdu > size then
    ((e.resegment sdu).putBackTx (e.resegmentNext sdu size), e.resegmentHead sdu size)
  else (e, sdu)

/-- Give the SDU of a segment the SN TX_Next. -/
def assignSn (sdu : NrRlcSduSegment) : NrRlcEntityAm × NrRlcSduSegment :=
  if sdu.sdu.sn = -1 then
    let d := { sdu.sdu with sn := e.txNext }
    ({ e with
        sdus := updateSdu d.id (fun x => { x with sdu := { x.sdu with sn := e.txNext } }) e.sdus
        txNext := (e.txNext + 1) % e.snModulus },
      { sdu with sdu := d })
  else (e, sdu)

/-- The polling actions for a new PDU. -/
def pollNewPdu (sdu : NrRlcSduSegment) : NrRlcEntityAm × Bool :=
  let e := { e with
    pduWithoutPoll := e.pduWithoutPoll + 1
    byteWithoutPoll := e.byteWithoutPoll + sdu.size }
  (e, decide ((e.pollPdu ≠ -1 ∧ e.pduWithoutPoll ≥ e.pollPdu) ∨
      (e.pollByte ≠ -1 ∧ e.byteWithoutPoll ≥ e.pollByte)) || decide e.checkPollAfterPduAssembly)

/-- `generate_tx_pdu`. -/
def generateTxPdu (size : Int) : Option Generated :=
  if e.isWindowStalling then some { entity := e, pdu := [] }
  else
    match e.txList with
    | [] => some { entity := e, pdu := [] }
    | sdu :: rest =>
      if e.computePduHeaderSize sdu + 1 > size then some { entity := e, pdu := [] }
      else
        let r₁ := (e.takeTx sdu rest).assignSn sdu
        let r₂ := r₁.1.splitTx r₁.2 size
        (r₂.1.putInWaitList r₂.2).map fun e =>
          (e.pollNewPdu r₂.2).1.sendPdu r₂.2 size (e.pollNewPdu r₂.2).2

/-! ## SDUs from the upper layer -/

/-- The log of rejected SDUs, at most once per second. -/
def logRejected : NrRlcEntityAm :=
  if e.sduRejected ≠ 0 ∧ e.tCurrent > e.tLogBufferFull + 1000 then
    { e with sduRejected := 0, tLogBufferFull := e.tCurrent }
  else e

/-- Put a new SDU at the end of the TX list. -/
def acceptSdu (buffer : List UInt8) (sduId : Int) : Option NrRlcEntityAm :=
  let sdu := nrRlcNewSdu e.nextSdu e.nextSegment buffer sduId
  (nrRlcSduSegmentListAppend e.txList e.txEnd sdu).map fun r =>
    { e with
      txSize := e.txSize + buffer.length
      txList := r.1
      txEnd := r.2
      bstatusTxSize := e.bstatusTxSize + e.pduSize sdu
      sdus := e.sdus ++ [nrRlcNewSduEntry sdu.sdu]
      nextSdu := e.nextSdu + 1
      nextSegment := e.nextSegment + 1 }

/-- `nr_rlc_entity_am_recv_sdu`. -/
def recvSdu (buffer : List UInt8) (sduId : Int) : Option NrRlcEntityAm :=
  if (buffer.length : Int) > nrSduMax then none
  else if e.logRejected.txSize + buffer.length > e.logRejected.txMaxsize then
    some { e.logRejected with sduRejected := e.logRejected.sduRejected + 1 }
  else e.logRejected.acceptSdu buffer sduId

/-- `nr_rlc_entity_am_discard_sdu` : only an SDU that has not been segmented is removed. -/
def discardSdu (sduId : Int) : NrRlcEntityAm :=
  match e.txList.find? fun g => g.sdu.upperLayerId = sduId with
  | none => e
  | some cur =>
    if ¬cur.isFirst ∨ ¬cur.isLast then e
    else
      let before := e.txList.takeWhile fun g => g.sdu.upperLayerId ≠ sduId
      { e with
        txList := before ++ (e.txList.drop (before.length + 1))
        txEnd := if e.txEnd = some cur.addr then before.getLast?.map (·.addr) else e.txEnd
        bstatusTxSize := e.bstatusTxSize - e.pduSize cur
        txSize := e.txSize - cur.sdu.size
        sdus := (nrRlcFreeSduSegment e.sdus cur).1
        freed := e.freed ++ [cur] }

/-! ## t-PollRetransmit -/

/-- Move a segment from the head of the wait list to the retransmit list. -/
def retransmitHead (cur : NrRlcSduSegment) (rest : List NrRlcSduSegment) : NrRlcEntityAm :=
  { e with
    waitList := rest
    waitEnd := if rest = [] then none else e.waitEnd
    bstatusRetxSize := e.bstatusRetxSize + e.pduSize cur
    retransmitList := e.nrRlcTxSduSegmentListAdd e.retransmitList cur }

/-- The loop over the segments of the SDU at the head of the wait list. -/
def retransmitSn (sn : Int) : List NrRlcSduSegment → NrRlcEntityAm → NrRlcEntityAm
  | [], e => e
  | cur :: rest, e =>
    if cur.sdu.sn = sn then retransmitSn sn rest (e.retransmitHead cur rest) else e

/-- Consider a segment for retransmission; `none` is the wait list walked when it is
empty. -/
def retransmitWaitHead : Option NrRlcEntityAm :=
  match e.waitList with
  | [] => none
  | cur :: rest =>
    some ((retransmitSn cur.sdu.sn (cur :: rest) (e.incrementRetxCount cur)).reportMaxRetx cur
      fun d => decide (d.retxCount ≥ e.maxRetxThreshold))

/-- `t_poll_retransmit_start = 0` and `force_poll = 1`. -/
def expirePollRetransmit : NrRlcEntityAm :=
  { e with tPollRetransmitStart := 0, forcePoll := true }

/-- `check_t_poll_retransmit`. -/
def checkTPollRetransmit : Option NrRlcEntityAm :=
  if e.tPollRetransmitStart = 0 ∨
      e.tCurrent ≤ e.tPollRetransmitStart + .ofInt e.tPollRetransmit then some e
  else if ¬e.expirePollRetransmit.checkPollAfterPduAssembly then some e.expirePollRetransmit
  else e.expirePollRetransmit.retransmitWaitHead

/-! ## Re-establishment -/

/-- `clear_entity`. -/
def clearEntity : NrRlcEntityAm :=
  { e with
    rxNext := 0
    rxNextStatusTrigger := 0
    rxHighestStatus := 0
    rxNextHighest := 0
    statusTriggered := false
    txNext := 0
    txNextAck := 0
    pollSn := 0
    pduWithoutPoll := 0
    byteWithoutPoll := 0
    forcePoll := false
    tCurrent := 0
    tLogBufferFull := 0
    sduRejected := 0
    tPollRetransmitStart := 0
    tReassemblyStart := 0
    tStatusProhibitStart := 0
    rxList := []
    rxSize := 0
    sdus := [e.txList, e.waitList, e.retransmitList].foldl nrRlcFreeSduSegmentList e.sdus
    freed := e.freed ++ (e.txList ++ e.waitList ++ e.retransmitList)
    txList := []
    txEnd := none
    txSize := 0
    waitList := []
    waitEnd := none
    retransmitList := []
    bstatusTxSize := 0
    bstatusRetxSize := 0 }

end NrRlcEntityAm

end NrStack
