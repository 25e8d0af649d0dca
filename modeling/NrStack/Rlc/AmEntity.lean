import NrStack.Rlc.Reassembly

/-!
# The AM entity

`nr_rlc_entity_am_t` with its constructor, its SN comparisons and its window tests. The
C integers are `Int`, the clock and the timers `UInt64`, a linked list a Lean list, and a
list end a segment address. The statistics, which nothing here reads, are left out.

Four fields are history, written and never read by the code : the calls to the upper
layer (`out`), the segments given to `nr_rlc_free_sdu_segment` (`freed`) and to
`serialize_sdu` (`sent`), and how many SDUs and segments have been allocated, which
numbers the next one.
-/

namespace NrStack

/-- The arguments of `new_nr_rlc_entity_am`. -/
structure AmConfig where
  rxMaxsize : Int
  txMaxsize : Int
  tPollRetransmit : Int
  tReassembly : Int
  tStatusProhibit : Int
  pollPdu : Int
  pollByte : Int
  maxRetxThreshold : Int
  snFieldLength : Nat
  /-- The constructor's assertion. -/
  snFieldLength_valid : snFieldLength = 12 ∨ snFieldLength = 18

/-- `nr_rlc_entity_am_t`. -/
structure NrRlcEntityAm where
  tPollRetransmit : Int
  tReassembly : Int
  tStatusProhibit : Int
  /-- `-1` means infinity. -/
  pollPdu : Int
  /-- `-1` means infinity. -/
  pollByte : Int
  maxRetxThreshold : Int
  snFieldLength : Nat
  snModulus : Int
  windowSize : Int
  rxNext : Int
  rxNextStatusTrigger : Int
  rxHighestStatus : Int
  rxNextHighest : Int
  statusTriggered : Bool
  txNext : Int
  txNextAck : Int
  pollSn : Int
  pduWithoutPoll : Int
  byteWithoutPoll : Int
  forcePoll : Bool
  tCurrent : UInt64
  tLogBufferFull : UInt64
  sduRejected : Int
  /-- A timer stores the time it was started at, `0` when it is not running. -/
  tPollRetransmitStart : UInt64
  tReassemblyStart : UInt64
  tStatusProhibitStart : UInt64
  rxList : List NrRlcPdu
  rxSize : Int
  rxMaxsize : Int
  txList : List NrRlcSduSegment
  txEnd : Option Nat
  txSize : Int
  txMaxsize : Int
  waitList : List NrRlcSduSegment
  waitEnd : Option Nat
  retransmitList : List NrRlcSduSegment
  bstatusTxSize : Int
  bstatusRetxSize : Int
  sdus : List NrRlcSduEntry
  nextSdu : Nat
  nextSegment : Nat
  out : List RlcEvent
  freed : List NrRlcSduSegment
  sent : List NrRlcSduSegment

/-- `new_nr_rlc_entity_am`. -/
def newNrRlcEntityAm (c : AmConfig) : NrRlcEntityAm :=
  { tPollRetransmit := c.tPollRetransmit
    tReassembly := c.tReassembly
    tStatusProhibit := c.tStatusProhibit
    pollPdu := c.pollPdu
    pollByte := c.pollByte
    maxRetxThreshold := c.maxRetxThreshold
    snFieldLength := c.snFieldLength
    snModulus := 2 ^ c.snFieldLength
    windowSize := 2 ^ c.snFieldLength / 2
    rxNext := 0
    rxNextStatusTrigger := 0
    rxHighestStatus := 0
    rxNextHighest := 0
    statusTriggered := false
    txNext := 0
    txNextAck := 0
    pollSn := 0
    pduWithoutPoll := 0
    byteWithoutPoll := 0
    forcePoll := false
    tCurrent := 0
    tLogBufferFull := 0
    sduRejected := 0
    tPollRetransmitStart := 0
    tReassemblyStart := 0
    tStatusProhibitStart := 0
    rxList := []
    rxSize := 0
    rxMaxsize := c.rxMaxsize * 5
    txList := []
    txEnd := none
    txSize := 0
    txMaxsize := c.txMaxsize * 5
    waitList := []
    waitEnd := none
    retransmitList := []
    bstatusTxSize := 0
    bstatusRetxSize := 0
    sdus := []
    nextSdu := 0
    nextSegment := 0
    out := []
    freed := []
    sent := [] }

namespace NrRlcEntityAm

variable (e : NrRlcEntityAm)

/-- `compute_pdu_header_size`. -/
def computePduHeaderSize (sdu : NrRlcSduSegment) : Int :=
  2 + (if e.snFieldLength = 18 then 1 else 0) + (if sdu.isFirst then 0 else 2)

/-- The buffer status of a segment : its PDU header and its data. -/
def pduSize (g : NrRlcSduSegment) : Int :=
  e.computePduHeaderSize g + g.size

/-! ## SN arithmetic -/

/-- `modulus_rx`. -/
def modulusRx (a : Int) : Int :=
  let r := a - e.rxNext
  if r < 0 then r + e.snModulus else r

/-- `modulus_tx`. -/
def modulusTx (a : Int) : Int :=
  let r := a - e.txNextAck
  if r < 0 then r + e.snModulus else r

/-- `sn_in_recv_window`. -/
def snInRecvWindow (sn : Int) : Prop :=
  e.modulusRx sn < e.windowSize

instance (sn : Int) : Decidable (e.snInRecvWindow sn) :=
  inferInstanceAs (Decidable (_ < _))

/-- `sn_compare_rx`. -/
def snCompareRx (a b : Int) : Int :=
  e.modulusRx a - e.modulusRx b

/-- `sn_compare_tx`. -/
def snCompareTx (a b : Int) : Int :=
  e.modulusTx a - e.modulusTx b

/-- `nr_rlc_tx_sdu_segment_list_add`. The order is by `sn`, then by `so`. -/
def nrRlcTxSduSegmentListAdd (list : List NrRlcSduSegment) (sduSegment : NrRlcSduSegment) :
    List NrRlcSduSegment :=
  insertBefore (fun cur => e.snCompareTx cur.sdu.sn sduSegment.sdu.sn > 0 ∨
    (cur.sdu.sn = sduSegment.sdu.sn ∧ cur.so > sduSegment.so)) sduSegment list

/-- `is_window_stalling`. -/
def isWindowStalling : Prop :=
  ¬(e.snCompareTx e.txNextAck e.txNext ≤ 0 ∧
    e.snCompareTx e.txNext ((e.txNextAck + e.windowSize) % e.snModulus) < 0)

instance : Decidable e.isWindowStalling :=
  inferInstanceAs (Decidable (¬_))

/-- `check_poll_after_pdu_assembly`. -/
def checkPollAfterPduAssembly : Prop :=
  (e.txList = [] ∧ e.retransmitList = []) ∨ e.isWindowStalling

instance : Decidable e.checkPollAfterPduAssembly :=
  inferInstanceAs (Decidable (_ ∨ _))

/-! ## SDU counters -/

/-- `nr_rlc_free_sdu_segment`, and what each caller does with its result when `delivered`
is set : account for an SDU that has been freed and report its delivery. -/
def freeSduSegment (sdu : NrRlcSduSegment) : NrRlcEntityAm :=
  let r := nrRlcFreeSduSegment e.sdus sdu
  { e with
    sdus := r.1
    freed := e.freed ++ [sdu]
    txSize := if r.2 then e.txSize - sdu.sdu.size else e.txSize
    out := if r.2 then e.out ++ [.sduSuccessfulDelivery sdu.sdu] else e.out }

/-- `sdu->retx_count++`. -/
def incrementRetxCount (sdu : NrRlcSduSegment) : NrRlcEntityAm :=
  { e with
    sdus := updateSdu sdu.sdu.id (fun d => { d with retxCount := d.retxCount + 1 }) e.sdus }

/-- Call `max_retx_reached` if the counters of the SDU satisfy `reached`. -/
def reportMaxRetx (sdu : NrRlcSduSegment) (reached : NrRlcSduEntry → Bool) : NrRlcEntityAm :=
  if ((e.sdus.find? fun d => d.sdu.id = sdu.sdu.id).any reached) then
    { e with out := e.out ++ [.maxRetxReached] }
  else e

end NrRlcEntityAm

end NrStack
