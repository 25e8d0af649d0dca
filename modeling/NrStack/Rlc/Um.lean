import NrStack.Library.Run
import NrStack.Rlc.Reassembly

/-!
# The UM entity

`nr_rlc_entity_um_t` and its functions. The reception list and the copy loop are those of
AM, but for a processed segment, whose size is set to 0. There are no acknowledgements : a
segment is freed when it is sent, and no SDU is shared between two of them.
-/

namespace NrStack

/-- The arguments of `new_nr_rlc_entity_um`. -/
structure UmConfig where
  rxMaxsize : Int
  txMaxsize : Int
  tReassembly : Int
  snFieldLength : Nat
  /-- The constructor's assertion. -/
  snFieldLength_valid : snFieldLength = 6 ∨ snFieldLength = 12

/-- `nr_rlc_entity_um_t`. `out`, `freed` and the numbers of SDUs and segments created are
history, as in `NrRlcEntityAm`. -/
structure NrRlcEntityUm where
  tReassembly : Int
  snFieldLength : Nat
  snModulus : Int
  windowSize : Int
  rxNextHighest : Int
  rxNextReassembly : Int
  rxTimerTrigger : Int
  txNext : Int
  tCurrent : UInt64
  tLogBufferFull : UInt64
  sduRejected : Int
  tReassemblyStart : UInt64
  rxList : List NrRlcPdu
  rxSize : Int
  rxMaxsize : Int
  txList : List NrRlcSduSegment
  txEnd : Option Nat
  txSize : Int
  txMaxsize : Int
  bstatusTxSize : Int
  nextSdu : Nat
  nextSegment : Nat
  out : List RlcEvent
  sent : List NrRlcSduSegment

/-- `new_nr_rlc_entity_um`. -/
def newNrRlcEntityUm (c : UmConfig) : NrRlcEntityUm :=
  { tReassembly := c.tReassembly
    snFieldLength := c.snFieldLength
    snModulus := 2 ^ c.snFieldLength
    windowSize := 2 ^ c.snFieldLength / 2
    rxNextHighest := 0
    rxNextReassembly := 0
    rxTimerTrigger := 0
    txNext := 0
    tCurrent := 0
    tLogBufferFull := 0
    sduRejected := 0
    tReassemblyStart := 0
    rxList := []
    rxSize := 0
    rxMaxsize := c.rxMaxsize
    txList := []
    txEnd := none
    txSize := 0
    txMaxsize := c.txMaxsize
    bstatusTxSize := 0
    nextSdu := 0
    nextSegment := 0
    out := []
    sent := [] }

namespace NrRlcEntityUm

variable (e : NrRlcEntityUm)

/-- `compute_pdu_header_size`. -/
def computePduHeaderSize (sdu : NrRlcSduSegment) : Int :=
  1 + (if ¬(sdu.isFirst ∧ sdu.isLast) ∧ e.snFieldLength = 12 then 1 else 0) +
    (if sdu.isFirst then 0 else 2)

/-! ## Reception -/

/-- `modulus_rx` : the base is RX_Next_Highest - window. -/
def modulusRx (a : Int) : Int :=
  let r := a - (e.rxNextHighest - e.windowSize)
  (if r < 0 then r + e.snModulus else r).tmod e.snModulus

/-- `sn_compare_rx`. -/
def snCompareRx (a b : Int) : Int :=
  e.modulusRx a - e.modulusRx b

/-- The first SN from `sn` on that is not delivered. -/
def skipDelivered (sn : Int) : Int :=
  NrStack.skipDelivered e.rxList e.snModulus e.snModulus.toNat sn

/-- `reassemble_and_deliver`. -/
def reassembleAndDeliver (sn : Int) : NrRlcEntityUm :=
  let segments := segmentsOf e.rxList sn
  { e with
    rxList := mapSegments (fun pdu => { pdu with data := none, size := 0 }) e.rxList sn
    rxSize := e.rxSize - (segments.map NrRlcPdu.size).sum
    out := e.out ++ (reassemble segments).delivered }

/-- Free the segments at the head of the list while `p`. -/
def freeHeadWhile (p : NrRlcPdu → Bool) : NrRlcEntityUm :=
  { e with
    rxList := e.rxList.dropWhile p
    rxSize := e.rxSize - ((e.rxList.takeWhile p).map NrRlcPdu.size).sum }

/-- Update RX_Next_Reassembly after the delivery of `x`. -/
def updateRxNextReassembly (x : Int) : NrRlcEntityUm :=
  if x = e.rxNextReassembly then
    { e with rxNextReassembly := e.skipDelivered e.rxNextReassembly }
  else e

/-- Actions for an SDU that is full. -/
def receiveFull (x : Int) : NrRlcEntityUm :=
  (e.reassembleAndDeliver x).updateRxNextReassembly x

/-- `rx_next_highest = x + 1`. -/
def raiseRxNextHighest (x : Int) : NrRlcEntityUm :=
  { e with rxNextHighest := (x + 1) % e.snModulus }

/-- Discard the PDUs that are not in the reassembly window. -/
def discardOutOfWindow : NrRlcEntityUm :=
  e.freeHeadWhile fun p => e.snCompareRx p.sn e.rxNextHighest ≥ 0

/-- Bring RX_Next_Reassembly back into the reassembly window. -/
def resetRxNextReassembly : NrRlcEntityUm :=
  if e.snCompareRx e.rxNextReassembly e.rxNextHighest ≥ 0 then
    { e with rxNextReassembly :=
        e.skipDelivered ((e.rxNextHighest - e.windowSize + e.snModulus) % e.snModulus) }
  else e

/-- Actions for a segment beyond the reassembly window. -/
def slideWindow (x : Int) : NrRlcEntityUm :=
  (e.raiseRxNextHighest x).discardOutOfWindow.resetRxNextReassembly

/-- Actions for an SDU that is not full. -/
def receivePart (x : Int) : NrRlcEntityUm :=
  if e.snCompareRx x e.rxNextHighest ≥ 0 then e.slideWindow x else e

/-- The conditions to stop t-Reassembly. -/
def stopsReassembly : Prop :=
  e.snCompareRx e.rxTimerTrigger e.rxNextReassembly ≤ 0 ∨
    e.snCompareRx e.rxTimerTrigger e.rxNextHighest > 0 ∨
    (e.rxNextHighest = (e.rxNextReassembly + 1) % e.snModulus ∧
      ¬sduHasMissingBytes e.rxList e.rxNextReassembly)

instance : Decidable e.stopsReassembly :=
  inferInstanceAs (Decidable (_ ∨ _))

/-- The conditions to start t-Reassembly; `next` is RX_Next_Reassembly + 1. -/
def startsReassembly (next : Int) : Prop :=
  e.snCompareRx e.rxNextHighest ((e.rxNextReassembly + 1) % e.snModulus) > 0 ∨
    (e.rxNextHighest = next ∧ sduHasMissingBytes e.rxList e.rxNextReassembly)

instance (next : Int) : Decidable (e.startsReassembly next) :=
  inferInstanceAs (Decidable (_ ∨ _))

/-- Start t-Reassembly if the conditions are met. -/
def startReassembly (next : Int) : NrRlcEntityUm :=
  if e.startsReassembly next then
    { e with tReassemblyStart := e.tCurrent, rxTimerTrigger := e.rxNextHighest }
  else e

/-- Stop t-Reassembly if it runs and a stop condition is met. -/
def stopReassembly : NrRlcEntityUm :=
  if e.tReassemblyStart ≠ 0 ∧ e.stopsReassembly then { e with tReassemblyStart := 0 } else e

/-- The timer part of `reception_actions`. -/
def updateReassemblyTimer : NrRlcEntityUm :=
  if e.stopReassembly.tReassemblyStart = 0 then
    e.stopReassembly.startReassembly ((e.rxNextReassembly + 1) % e.snModulus)
  else e.stopReassembly

/-- `reception_actions`. -/
def receptionActions (x : Int) : NrRlcEntityUm :=
  (if sduFull e.rxList x then e.receiveFull x else e.receivePart x).updateReassemblyTimer

/-- Put a PDU in the reception list. -/
def storePdu (pdu : NrRlcPdu) : NrRlcEntityUm :=
  { e with
    rxSize := e.rxSize + pdu.size
    rxList := nrRlcPduListAdd e.snCompareRx e.rxList pdu }

/-- What a decoded segment has to meet to be stored. -/
def acceptsPdu (pdu : NrRlcPdu) : Prop :=
  e.rxSize + pdu.size ≤ e.rxMaxsize ∧ ¬e.snCompareRx pdu.sn e.rxNextReassembly < 0

instance (pdu : NrRlcPdu) : Decidable (e.acceptsPdu pdu) :=
  inferInstanceAs (Decidable (_ ∧ _))

/-- Decode a segment from its R bits on; `none` is a decoding error, a null `so` or a PDU
with no data. -/
def decodeSegment (isFirst isLast : Bool) (d : NrRlcPduDecoder) : Option NrRlcPdu := do
  let (_, d) ← d.getBitsIf (e.snFieldLength = 12) 2
  let (sn, d) ← d.getBits e.snFieldLength
  let (so, d) ← d.getBitsIf (!isFirst) 16
  if !isFirst ∧ so = 0 then none
  else if d.buffer.length ≤ d.byte then none
  else some (nrRlcNewPdu sn so isFirst isLast (d.buffer.drop d.byte)
    (d.buffer.length - d.byte : Nat))

/-- Store a decoded segment, or discard it. -/
def recvSegment (pdu : NrRlcPdu) : NrRlcEntityUm :=
  if e.acceptsPdu pdu then (e.storePdu pdu).receptionActions pdu.sn else e

/-- `nr_rlc_entity_um_recv_pdu`. -/
def recvPdu (buffer : List UInt8) : NrRlcEntityUm :=
  match (NrRlcPduDecoder.init buffer).getBits 2 with
  | none => e
  | some (si, d) =>
    let isFirst := !si.testBit 1
    let isLast := !si.testBit 0
    if isFirst && isLast then
      -- a whole SDU is delivered as it is
      if buffer.length < 2 then e
      else { e with out := e.out ++ [.deliverSdu ((buffer.drop 1).map some)] }
    else
      match e.decodeSegment isFirst isLast d with
      | none => e
      | some pdu => e.recvSegment pdu

/-! ## Transmission -/

/-- The header of a data PDU. -/
def dataHeader (sdu : NrRlcSduSegment) (bufsize : Int) : NrRlcPduEncoder :=
  let enc := NrRlcPduEncoder.init bufsize
  let enc := enc.putBits (!sdu.isFirst).toNat 1
  let enc := enc.putBits (!sdu.isLast).toNat 1
  let enc :=
    if sdu.isFirst && sdu.isLast then enc.putBits 0 6
    else (if e.snFieldLength = 12 then enc.putBits 0 2 else enc).putBits sdu.sdu.sn.toNat
      e.snFieldLength
  if !sdu.isFirst then enc.putBits sdu.so.toNat 16 else enc

/-- `serialize_sdu`. -/
def serializeSdu (sdu : NrRlcSduSegment) (bufsize : Int) : List UInt8 :=
  (e.dataHeader sdu bufsize).buffer ++ (sdu.sdu.data.drop sdu.so.toNat).take sdu.size.toNat

/-- The header size that `resegment` reckons with : the segment is not the last any more. -/
def resegmentHeaderSize (sdu : NrRlcSduSegment) : Int :=
  e.computePduHeaderSize { sdu with isLast := false }

/-- The segment that `resegment` leaves in the PDU. -/
def resegmentHead (sdu : NrRlcSduSegment) (pduSize : Int) : NrRlcSduSegment :=
  let overSize := e.resegmentHeaderSize sdu + sdu.size - pduSize
  { sdu with size := sdu.size - overSize, isLast := false }

/-- The segment that `resegment` returns, for the remaining bytes. -/
def resegmentNext (sdu : NrRlcSduSegment) (pduSize : Int) : NrRlcSduSegment :=
  let overSize := e.resegmentHeaderSize sdu + sdu.size - pduSize
  { sdu with
    addr := e.nextSegment
    size := overSize
    so := sdu.so + (sdu.size - overSize)
    isFirst := false }

/-- The end of `generate_tx_pdu` : TX_Next moves after the last segment of an SDU. -/
def sendPdu (sdu : NrRlcSduSegment) (size : Int) : NrRlcEntityUm × List UInt8 :=
  ({ e with
      txNext := if ¬sdu.isFirst ∧ sdu.isLast then (e.txNext + 1) % e.snModulus else e.txNext
      txSize := e.txSize - sdu.size
      sent := e.sent ++ [sdu] },
    e.serializeSdu sdu size)

/-- Take the head `sdu` off the TX list, which is then `rest`. -/
def takeTx (sdu : NrRlcSduSegment) (rest : List NrRlcSduSegment) : NrRlcEntityUm :=
  { e with
    txList := rest
    txEnd := if rest = [] then none else e.txEnd
    bstatusTxSize := e.bstatusTxSize - (e.computePduHeaderSize sdu + sdu.size) }

/-- Put the remaining segment back at the head of the TX list. -/
def putBackTx (next : NrRlcSduSegment) : NrRlcEntityUm :=
  { e with
    nextSegment := e.nextSegment + 1
    txList := next :: e.txList
    txEnd := if e.txEnd = none then some next.addr else e.txEnd
    bstatusTxSize := e.bstatusTxSize + (e.computePduHeaderSize next + next.size) }

/-- `nr_rlc_entity_um_generate_pdu`, that is `generate_tx_pdu`. An SDU that cannot be
segmented in the grant is out of the list, and not sent. -/
def generatePdu (size : Int) : NrRlcEntityUm × List UInt8 :=
  match e.txList with
  | [] => (e, [])
  | head :: rest =>
    if e.computePduHeaderSize head + 1 > size then (e, [])
    else
      let sdu := { head with sdu := { head.sdu with sn := e.txNext } }
      if e.computePduHeaderSize sdu + sdu.size > size then
        if e.resegmentHeaderSize sdu + 1 > size then (e.takeTx sdu rest, [])
        else
          ((e.takeTx sdu rest).putBackTx (e.resegmentNext sdu size)).sendPdu
            (e.resegmentHead sdu size) size
      else (e.takeTx sdu rest).sendPdu sdu size

/-! ## The other functions -/

/-- The log of rejected SDUs, at most once per second. -/
def logRejected : NrRlcEntityUm :=
  if e.sduRejected ≠ 0 ∧ e.tCurrent > e.tLogBufferFull + 1000 then
    { e with sduRejected := 0, tLogBufferFull := e.tCurrent }
  else e

/-- Put a new SDU at the end of the TX list. -/
def acceptSdu (buffer : List UInt8) (sduId : Int) : Option NrRlcEntityUm :=
  let sdu := nrRlcNewSdu e.nextSdu e.nextSegment buffer sduId
  (nrRlcSduSegmentListAppend e.txList e.txEnd sdu).map fun r =>
    { e with
      txSize := e.txSize + buffer.length
      txList := r.1
      txEnd := r.2
      bstatusTxSize := e.bstatusTxSize + (e.computePduHeaderSize sdu + sdu.size)
      nextSdu := e.nextSdu + 1
      nextSegment := e.nextSegment + 1 }

/-- `nr_rlc_entity_um_recv_sdu`. -/
def recvSdu (buffer : List UInt8) (sduId : Int) : Option NrRlcEntityUm :=
  if (buffer.length : Int) > nrSduMax then none
  else if e.logRejected.txSize + buffer.length > e.logRejected.txMaxsize then
    some { e.logRejected with sduRejected := e.logRejected.sduRejected + 1 }
  else e.logRejected.acceptSdu buffer sduId

/-- The entity at expiry of t-Reassembly : RX_Next_Reassembly is updated and the segments
before it are freed, without a change of `rx_size`. -/
def expireReassembly : NrRlcEntityUm :=
  let e₁ := { e with
    tReassemblyStart := 0
    rxNextReassembly := e.skipDelivered e.rxTimerTrigger }
  { e₁ with
    rxList := e₁.rxList.dropWhile fun p => e₁.snCompareRx p.sn e₁.rxNextReassembly < 0 }

/-- `check_t_reassembly`. The test for RX_Next_Reassembly + 1 has no modulus here. -/
def checkTReassembly : NrRlcEntityUm :=
  if e.tReassemblyStart = 0 ∨ e.tCurrent ≤ e.tReassemblyStart + .ofInt e.tReassembly then e
  else e.expireReassembly.startReassembly (e.expireReassembly.rxNextReassembly + 1)

/-- `nr_rlc_entity_um_set_time`. -/
def setTime (now : UInt64) : NrRlcEntityUm :=
  { e with tCurrent := now }.checkTReassembly

/-- `nr_rlc_entity_um_discard_sdu` : `tx_size` is left as it is. -/
def discardSdu (sduId : Int) : NrRlcEntityUm :=
  match e.txList.find? fun g => g.sdu.upperLayerId = sduId with
  | none => e
  | some cur =>
    if ¬cur.isFirst ∨ ¬cur.isLast then e
    else
      let before := e.txList.takeWhile fun g => g.sdu.upperLayerId ≠ sduId
      { e with
        txList := before ++ (e.txList.drop (before.length + 1))
        txEnd := if e.txEnd = some cur.addr then before.getLast?.map (·.addr) else e.txEnd
        bstatusTxSize := e.bstatusTxSize - (e.computePduHeaderSize cur + cur.size) }

/-- `clear_entity`. -/
def clearEntity : NrRlcEntityUm :=
  { e with
    rxNextHighest := 0
    rxNextReassembly := 0
    rxTimerTrigger := 0
    txNext := 0
    tCurrent := 0
    tLogBufferFull := 0
    sduRejected := 0
    tReassemblyStart := 0
    rxList := []
    rxSize := 0
    txList := []
    txEnd := none
    txSize := 0
    bstatusTxSize := 0 }

/-- `nr_rlc_entity_um_reestablishment`. -/
def reestablishment : NrRlcEntityUm :=
  e.clearEntity

end NrRlcEntityUm

/-- A call of a function of the entity. -/
inductive UmOp
  | recvSdu (buffer : List UInt8) (sduId : Int)
  | recvPdu (buffer : List UInt8)
  | generatePdu (size : Int)
  | setTime (now : UInt64)
  | discardSdu (sduId : Int)
  | reestablishment

/-- One call; `none` is a failed assertion or undefined behaviour. -/
def umStep (e : NrRlcEntityUm) : UmOp → Option NrRlcEntityUm
  | .recvSdu buffer sduId => e.recvSdu buffer sduId
  | .recvPdu buffer => some (e.recvPdu buffer)
  | .generatePdu size => some (e.generatePdu size).1
  | .setTime now => some (e.setTime now)
  | .discardSdu sduId => some (e.discardSdu sduId)
  | .reestablishment => some e.reestablishment

/-- States of a UM entity created with `c`. -/
def UmReach (c : UmConfig) : NrRlcEntityUm → Prop :=
  Reach umStep anyStep (newNrRlcEntityUm c)

end NrStack
