import NrStack.Mac.Harq

/-!
# Downlink HARQ of the gNB

`nr_schedule_ue_spec` sends to the UEs in the connected list, `nr_generate_Msg4_MsgB` to those in
random access. The answers are the HARQ bits of the UCIs : `find_harq` matches the head of the
feedback list to the frame and slot of the UCI, after the processes whose time has passed were
taken for lost.
-/

namespace NrStack

/-- How far the random access of a UE is. Once connected it has no `NR_RA_t`. -/
inductive RaState
  | waitMsg3
  | msg4
  | waitMsg4Ack
  | connected
  deriving DecidableEq, Repr

/-- The downlink part of `NR_UE_sched_ctrl_t`, with the random access. -/
structure DlHarq extends HarqLists where
  ra : RaState := .waitMsg3
  raHarqPid : ℕ := 0

/-! ## Feedback -/

/-- The feedback of a process is in the past of `frame`, `slot`. -/
def feedbackPast (harq : HarqProcess) (frame slot : ℕ) : Bool :=
  ((harq.feedbackFrame : ℤ) - frame + 1024) % 1024 > 512 ||
    (harq.feedbackFrame = frame && harq.feedbackSlot < slot)

/-- The feedback of a process is in the future of `frame`, `slot`. -/
def feedbackFuture (harq : HarqProcess) (frame slot : ℕ) : Bool :=
  ((frame : ℤ) - harq.feedbackFrame + 1024) % 1024 > 512 ||
    (harq.feedbackFrame = frame && harq.feedbackSlot > slot)

namespace HarqLists

/-- `handle_dl_harq` for the head of the feedback list. -/
def handleDlHarq (harqRoundMax : ℕ) (h : HarqLists) (harqPid : ℕ) (success : Bool) : HarqLists :=
  let h := { h with
    feedback := h.feedback.tail
    handled := h.handled ++ [(harqPid, success)] }.answered harqPid
  if success then h.finish harqPid
  -- `abort_nr_dl_harq` : the process is finished and an error counted
  else if harqRoundMax - 1 ≤ (h.process harqPid).round then h.finish harqPid
  else h.nextRound harqPid

/-- The loop of `find_harq` over the feedback list : what is in the past was lost. -/
def skipPast (harqRoundMax frame slot : ℕ) : List ℕ → HarqLists → HarqLists
  | [], h => h
  | pid :: feedback, h =>
    if feedbackPast (h.process pid) frame slot then
      skipPast harqRoundMax frame slot feedback (h.handleDlHarq harqRoundMax pid false)
    else h

/-- `find_harq` : the head of the feedback list, if its time has come. -/
def findHarq (harqRoundMax : ℕ) (h : HarqLists) (frame slot : ℕ) : HarqLists × Option ℕ :=
  let h := skipPast harqRoundMax frame slot h.feedback h
  match h.feedback with
  | [] => (h, none)
  | pid :: _ => if feedbackFuture (h.process pid) frame slot then (h, none) else (h, some pid)

end HarqLists

/-- The HARQ bits of a format 0 or 1 UCI : an ACK that was detected with confidence. -/
def harqBits01 (harqValues : List ℕ) (harqConfidenceLevel : ℕ) : List Bool :=
  harqValues.map fun harqValue => harqValue = 0 && harqConfidenceLevel = 0

/-- `acknack` in `handle_nr_uci_pucch_2_3_4` : the byte of the bit, shifted by the bit. -/
def acknack (harqPayload : List UInt8) (harqBit : ℕ) : Bool :=
  (harqPayload.getD (harqBit / 8) 0).toNat / 2 ^ harqBit % 2 = 1

/-- The HARQ bits of a format 2, 3 or 4 UCI. -/
def harqBits234 (harqPayload : List UInt8) (harqBitLen harqCrc : ℕ) : List Bool :=
  (List.range harqBitLen).map fun harqBit => harqCrc ≠ 1 && acknack harqPayload harqBit

namespace DlHarq

/-- The process of the Msg4 leaves the retransmission list, if there is one. -/
def clearRetrans (h : HarqLists) (harqPid : ℕ) : Except HarqAbort HarqLists :=
  if h.retrans = [] then .ok h
  else (removeNrList h.retrans harqPid).map fun retrans => { h with retrans := retrans }

/-- `nr_check_Msg4_MsgB_Ack`. `configure_UE_BWP` sets up `nrofHARQ` processes. -/
def nrCheckMsg4MsgBAck (nrofHARQ : ℕ) (c : DlHarq) (success : Bool) : Except HarqAbort DlHarq :=
  if c.ra = .connected then .error .noRa
  else if (c.process c.raHarqPid).round = 0 then
    match if success then c.toHarqLists.create nrofHARQ else .ok c.toHarqLists with
    | .error e => .error e
    | .ok h => (clearRetrans h c.raHarqPid).map fun h =>
        { c with toHarqLists := h, ra := if success then .connected else c.ra }
  else .ok { c with ra := .msg4 }

/-- The loop over the HARQ bits of a UCI. `isRa` : the UE was in random access when the UCI came. -/
def harqBits (harqRoundMax nrofHARQ frame slot : ℕ) (isRa : Bool) :
    List Bool → DlHarq → Except HarqAbort DlHarq
  | [], c => .ok c
  | success :: bits, c =>
    match c.toHarqLists.findHarq harqRoundMax frame slot with
    | (h, none) => .ok { c with toHarqLists := h }
    | (h, some pid) =>
      if (h.process pid).isWaiting = false then .error .waiting
      else
        let c := { c with toHarqLists := h.handleDlHarq harqRoundMax pid success }
        if isRa then
          match c.nrCheckMsg4MsgBAck nrofHARQ success with
          | .error e => .error e
          | .ok c => harqBits harqRoundMax nrofHARQ frame slot isRa bits c
        else harqBits harqRoundMax nrofHARQ frame slot isRa bits c

/-! ## Transmissions -/

/-- `nr_schedule_ue_spec` for one UE of the connected list. The preprocessor passes over a UE
without a process to use. Without a PUCCH (`pucch_allocation < 0`) no feedback is expected. -/
def nrScheduleUeSpec (harqRoundMax : ℕ) (c : DlHarq) (pucch : Option (ℕ × ℕ)) :
    Except HarqAbort DlHarq :=
  if c.ra ≠ .connected ∨ (c.retrans = [] ∧ c.available = []) then .ok c
  else
    match c.toHarqLists.take (c.retrans.head?.or c.available.head?) with
    | .error e => .error e
    | .ok (pid, h) =>
      if (h.process pid).isWaiting then .error .waiting
      else
        let h :=
          match pucch with
          | none => h.finish pid
          | some (frame, slot) => h.await pid frame slot
        if harqRoundMax ≤ (h.process pid).round then .error .roundBound
        else .ok { c with toHarqLists := h }

/-- The process of a Msg4 or MsgB : the one of a retransmission stays in the list it is in. -/
def msg4Harq (h : HarqLists) : Except HarqAbort (ℕ × HarqLists) :=
  match h.retrans with
  | [] => h.take none
  | pid :: _ => .ok (pid, h)

/-- The HARQ part of `nr_generate_Msg4_MsgB`. -/
def nrGenerateMsg4MsgB (c : DlHarq) (frame slot : ℕ) : Except HarqAbort DlHarq :=
  if c.ra ≠ .msg4 then .ok c
  else
    match msg4Harq c.toHarqLists with
    | .error e => .error e
    | .ok (pid, h) =>
      if (h.process pid).isWaiting then .error .waiting
      else .ok { toHarqLists := h.await pid frame slot, ra := .waitMsg4Ack, raHarqPid := pid }

end DlHarq

/-- What happens to the downlink processes of a UE. -/
inductive DlHarqEvent
  /-- `nr_rx_ra_sdu` gets the Msg3, of a contention free random access or another one -/
  | msg3 (cfra : Bool)
  /-- `nr_generate_Msg4_MsgB`, with the feedback at a frame and slot -/
  | generateMsg4 (frame slot : ℕ)
  /-- `nr_schedule_ue_spec` has resources for the UE -/
  | schedule (pucch : Option (ℕ × ℕ))
  /-- `handle_nr_uci_pucch_0_1` with HARQ bits -/
  | uci01 (frame slot : ℕ) (harqValues : List ℕ) (harqConfidenceLevel nrofHARQ : ℕ)
  /-- `handle_nr_uci_pucch_2_3_4` with HARQ bits -/
  | uci234 (frame slot : ℕ) (harqPayload : List UInt8) (harqBitLen harqCrc : ℕ)
  /-- a connected UE comes back through random access, and its lists are reset -/
  | reset
  /-- `create_dl_harq_list` -/
  | create (nrofHARQ : ℕ)

namespace DlHarq

def step (harqRoundMax : ℕ) (c : DlHarq) : DlHarqEvent → Except HarqAbort DlHarq
  | .msg3 cfra =>
    if c.ra ≠ .waitMsg3 then .ok c
    else if cfra then .ok { c with toHarqLists := c.toHarqLists.reset, ra := .connected }
    else .ok { c with ra := .msg4 }
  | .generateMsg4 frame slot => c.nrGenerateMsg4MsgB frame slot
  | .schedule pucch => c.nrScheduleUeSpec harqRoundMax pucch
  | .uci01 frame slot harqValues harqConfidenceLevel nrofHARQ =>
    harqBits harqRoundMax nrofHARQ frame slot (decide (c.ra ≠ .connected))
      (harqBits01 harqValues harqConfidenceLevel) c
  | .uci234 frame slot harqPayload harqBitLen harqCrc =>
    -- only a UE in the connected list is found
    if c.ra ≠ .connected then .ok c
    else harqBits harqRoundMax 0 frame slot false (harqBits234 harqPayload harqBitLen harqCrc) c
  | .reset =>
    if c.ra = .connected then .ok { c with toHarqLists := c.toHarqLists.reset } else .ok c
  | .create nrofHARQ => (c.toHarqLists.create nrofHARQ).map fun h => { c with toHarqLists := h }

end DlHarq

end NrStack
