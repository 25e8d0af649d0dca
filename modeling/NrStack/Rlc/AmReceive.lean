import NrStack.Rlc.AmEntity

/-!
# The AM receiver

Reception of a data PDU and expiry of t-Reassembly. `reception_actions` is cut into its
blocks : RX_Next_Highest, delivery with RX_Highest_Status and RX_Next, the timer.

A PDU that is not stored is discarded, which only reads its P bit.
-/

namespace NrStack

/-- The loop of `segment_already_received`. -/
def segmentAlreadyReceived (sn : Int) : List NrRlcPdu → Int → Int → Bool
  | [], _, size => size ≤ 0
  | l :: rest, so, size =>
    if size ≤ 0 then true
    else if l.sn = sn then
      if l.so ≤ so ∧ so < l.so + l.size then
        let covered := l.size - (so - l.so)
        segmentAlreadyReceived sn rest (so + covered) (size - covered)
      else if l.so ≤ so + size - 1 ∧ so + size - 1 < l.so + l.size then
        let covered := size - (l.so - so)
        segmentAlreadyReceived sn rest so (size - covered)
      else segmentAlreadyReceived sn rest so size
    else segmentAlreadyReceived sn rest so size

/-- Free the delivered SDUs at the head of the list, from SN `rxNext` on. The first
argument is the fuel : the length of the list is enough. -/
def freeDeliveredHead (snModulus : Int) : Nat → List NrRlcPdu → Int → List NrRlcPdu × Int
  | 0, rxList, rxNext => (rxList, rxNext)
  | _ + 1, [], rxNext => ([], rxNext)
  | n + 1, l :: rest, rxNext =>
    if l.data = none ∧ l.sn = rxNext then
      freeDeliveredHead snModulus n (rest.dropWhile fun p => p.sn = rxNext)
        ((rxNext + 1) % snModulus)
    else (l :: rest, rxNext)

namespace NrRlcEntityAm

variable (e : NrRlcEntityAm)

/-! ## Reception actions -/

/-- `reassemble_and_deliver`. -/
def reassembleAndDeliver (sn : Int) : NrRlcEntityAm :=
  let segments := segmentsOf e.rxList sn
  { e with
    rxList := mapSegments (fun pdu => { pdu with data := none }) e.rxList sn
    rxSize := e.rxSize - (segments.map NrRlcPdu.size).sum
    out := e.out ++ (reassemble segments).delivered }

/-- The first SN from `sn` on that is not delivered. -/
def skipDelivered (sn : Int) : Int :=
  NrStack.skipDelivered e.rxList e.snModulus e.snModulus.toNat sn

/-- Update RX_Next_Highest. -/
def updateRxNextHighest (x : Int) : NrRlcEntityAm :=
  if e.snCompareRx x e.rxNextHighest ≥ 0 then { e with rxNextHighest := (x + 1) % e.snModulus }
  else e

/-- Update RX_Highest_Status after the delivery of `x`. -/
def updateRxHighestStatus (x : Int) : NrRlcEntityAm :=
  if x = e.rxHighestStatus then { e with rxHighestStatus := e.skipDelivered e.rxHighestStatus }
  else e

/-- Update RX_Next after the delivery of `x`. -/
def updateRxNext (x : Int) : NrRlcEntityAm :=
  if x = e.rxNext then
    let r := freeDeliveredHead e.snModulus e.rxList.length e.rxList e.rxNext
    { e with rxList := r.1, rxNext := r.2 }
  else e

/-- The conditions to stop t-Reassembly. -/
def stopsReassembly : Prop :=
  e.rxNextStatusTrigger = e.rxNext ∨
    (e.rxNextStatusTrigger = (e.rxNext + 1) % e.snModulus ∧
      ¬sduHasMissingBytes e.rxList e.rxNext) ∨
    (¬e.snInRecvWindow e.rxNextStatusTrigger ∧
      e.rxNextStatusTrigger ≠ (e.rxNext + e.windowSize) % e.snModulus)

instance : Decidable e.stopsReassembly :=
  inferInstanceAs (Decidable (_ ∨ _))

/-- The conditions to start t-Reassembly, for the SN `sn` : something below
RX_Next_Highest is missing at or after it. -/
def hasGapFrom (sn : Int) : Prop :=
  e.snCompareRx e.rxNextHighest ((sn + 1) % e.snModulus) > 0 ∨
    (e.rxNextHighest = (sn + 1) % e.snModulus ∧ sduHasMissingBytes e.rxList sn)

instance (sn : Int) : Decidable (e.hasGapFrom sn) :=
  inferInstanceAs (Decidable (_ ∨ _))

/-- Start t-Reassembly if there is a gap from `sn` on. -/
def startReassembly (sn : Int) : NrRlcEntityAm :=
  if e.hasGapFrom sn then
    { e with tReassemblyStart := e.tCurrent, rxNextStatusTrigger := e.rxNextHighest }
  else e

/-- Stop t-Reassembly if it runs and a stop condition is met. -/
def stopReassembly : NrRlcEntityAm :=
  if e.tReassemblyStart ≠ 0 ∧ e.stopsReassembly then { e with tReassemblyStart := 0 } else e

/-- The timer part of `reception_actions`. -/
def updateReassemblyTimer : NrRlcEntityAm :=
  if e.stopReassembly.tReassemblyStart = 0 then e.stopReassembly.startReassembly e.rxNext
  else e.stopReassembly

/-- The delivery part of `reception_actions`. -/
def deliverIfFull (x : Int) : NrRlcEntityAm :=
  if sduFull e.rxList x then
    ((e.reassembleAndDeliver x).updateRxHighestStatus x).updateRxNext x
  else e

/-- `reception_actions`. -/
def receptionActions (x : Int) : NrRlcEntityAm :=
  ((e.updateRxNextHighest x).deliverIfFull x).updateReassemblyTimer

/-! ## Data PDUs -/

/-- Decode a data PDU from its SI field on; `none` is a decoding error, a null `so` or a
PDU with no data. -/
def decodeDataPdu (d : NrRlcPduDecoder) : Option NrRlcPdu := do
  let (si, d) ← d.getBits 2
  let isFirst := !si.testBit 1
  let isLast := !si.testBit 0
  let (_, d) ← d.getBitsIf (e.snFieldLength = 18) 2
  let (sn, d) ← d.getBits e.snFieldLength
  let (so, d) ← d.getBitsIf (!isFirst) 16
  if !isFirst ∧ so = 0 then none
  else if d.buffer.length ≤ d.byte then none
  else some (nrRlcNewPdu sn so isFirst isLast (d.buffer.drop d.byte)
    (d.buffer.length - d.byte : Nat))

/-- What a decoded PDU has to meet to be stored : room, an SN in the receive window, and
bytes that are not all there yet. -/
def acceptsDataPdu (pdu : NrRlcPdu) : Prop :=
  e.rxSize + pdu.size ≤ e.rxMaxsize ∧ e.snInRecvWindow pdu.sn ∧
    ¬segmentAlreadyReceived pdu.sn e.rxList pdu.so pdu.size

instance (pdu : NrRlcPdu) : Decidable (e.acceptsDataPdu pdu) :=
  inferInstanceAs (Decidable (_ ∧ _))

/-- Put a PDU in the reception list. -/
def storePdu (pdu : NrRlcPdu) : NrRlcEntityAm :=
  { e with
    rxSize := e.rxSize + pdu.size
    rxList := nrRlcPduListAdd e.snCompareRx e.rxList pdu }

/-- `status_triggered = 1` if the P bit is set. -/
def triggerStatus (p : Bool) : NrRlcEntityAm :=
  { e with statusTriggered := e.statusTriggered || p }

/-- Reception of a data PDU whose D/C bit has been read. -/
def recvDataPdu (d : NrRlcPduDecoder) : NrRlcEntityAm :=
  match d.getBits 1 with
  | none => e
  | some (p, d) =>
    match e.decodeDataPdu d with
    | none => e.triggerStatus (p = 1)
    | some pdu =>
      if e.acceptsDataPdu pdu then
        ((e.storePdu pdu).receptionActions pdu.sn).triggerStatus (p = 1)
      else e.triggerStatus (p = 1)

/-! ## t-Reassembly -/

/-- The entity at expiry of t-Reassembly, with RX_Highest_Status updated. -/
def expireReassembly : NrRlcEntityAm :=
  { e with
    tReassemblyStart := 0
    rxHighestStatus := e.skipDelivered e.rxNextStatusTrigger
    statusTriggered := true }

/-- `check_t_reassembly`. -/
def checkTReassembly : NrRlcEntityAm :=
  if e.tReassemblyStart = 0 ∨ e.tCurrent ≤ e.tReassemblyStart + .ofInt e.tReassembly then e
  else e.expireReassembly.startReassembly e.expireReassembly.rxHighestStatus

end NrRlcEntityAm

end NrStack
