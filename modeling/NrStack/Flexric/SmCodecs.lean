import NrStack.Flexric.SliceCodec
import NrStack.Flexric.TcCodec

/-!
# The plain codecs of the service models

`SmMessage` : what the codecs carry. A message with known tags comes back from its encoding exactly
if it carries a zero where the traffic-control encoder drops a member
(`SmMessage.roundTrips_iff_carried`). A decoder that is given the octets of no message reads behind
them (`SmDecoder.stays_iff_covered`) : it checks the length after the last field.
-/

namespace NrStack

/-! ## Round trips -/

/-- A message of the slice or of the traffic-control service model. -/
inductive SmMessage
  | sliceInd (ind : SliceIndMsg)
  | sliceCtrl (ctrl : SliceCtrlMsg)
  | tcInd (ind : TcIndMsg)

namespace SmMessage

/-- The tags of the unions are known. -/
def Known : SmMessage → Prop
  | sliceInd ind => ind.Known
  | sliceCtrl ctrl => ctrl.Known
  | tcInd ind => ind.Known

/-- The decoder has memory for the strings, and the encoder drops nothing but zeros. -/
def Carried : SmMessage → Prop
  | sliceInd ind => ind.Fits
  | sliceCtrl ctrl => ctrl.Fits
  | tcInd ind => ind.Carried

/-- The message is encoded without a failed assertion, in the size computed beforehand, and the
decoder returns it. -/
def RoundTrips : SmMessage → Prop
  | sliceInd ind =>
    NrStack.RoundTrips calIndMsgPayload sliceEncIndMsgPlain sliceDecIndMsgPlain ind
  | sliceCtrl ctrl =>
    NrStack.RoundTrips calCtrlMsgPayload sliceEncCtrlMsgPlain sliceDecCtrlMsgPlain ctrl
  | tcInd ind => NrStack.RoundTrips calTcIndMsgPayload tcEncIndMsgPlain tcDecIndMsgPlain ind

theorem roundTrips_iff_carried {msg : SmMessage} (h : msg.Known) :
    msg.RoundTrips ↔ msg.Carried := by
  cases msg with
  | sliceInd ind => exact sliceIndMsg_roundTrips_iff h
  | sliceCtrl ctrl => exact sliceCtrlMsg_roundTrips_iff h
  | tcInd ind => exact tcIndMsg_roundTrips_iff h

/-- One first-in-first-out queue with an `id`, under a round-robin scheduler. -/
def oneQueue (id : UInt32) : TcIndMsg where
  sch := .rr 0
  pcr := default
  cls := .rr 0
  queues := ⟨[⟨default, default, ⟨id, .fifo default⟩⟩], Nat.one_lt_two_pow (by decide)⟩
  tstamp := 0

theorem oneQueue_known (id : UInt32) : (oneQueue id).Known where
  sch := trivial
  cls := trivial
  queues := fun x hx => by
    rw [List.mem_singleton.1 hx]
    trivial

theorem roundTrips_oneQueue : (tcInd (oneQueue 0)).RoundTrips := by
  have hid : ∀ x ∈ (oneQueue 0).queues.contents, x.q.id = 0 := fun x hx => by
    rw [List.mem_singleton.1 hx]
  have hknown : (tcInd (oneQueue 0)).Known := oneQueue_known 0
  exact (roundTrips_iff_carried hknown).2 ⟨rfl, hid⟩

/-- The `id` of a queue is lost. -/
theorem not_roundTrips : ¬ ∀ msg : SmMessage, msg.Known → msg.RoundTrips := fun h => by
  have htrip := h (tcInd (oneQueue 1)) (oneQueue_known 1)
  have hcarried := (tcIndMsg_roundTrips_iff (oneQueue_known 1)).1 htrip
  exact absurd (hcarried.2 _ List.mem_cons_self) (by decide)

end SmMessage

/-! ## Reading inside the buffer -/

/-- A plain decoder. -/
inductive SmDecoder
  | sliceInd
  | sliceCtrl
  | tcInd

namespace SmDecoder

/-- The decoder returns, or stops on an assertion, before it leaves the buffer. -/
def Stays (dec : SmDecoder) (buffer : List UInt8) : Prop :=
  match dec with
  | sliceInd => sliceDecIndMsgPlain buffer ≠ .outside
  | sliceCtrl => sliceDecCtrlMsgPlain buffer ≠ .outside
  | tcInd => tcDecIndMsgPlain buffer ≠ .outside

/-- The buffer begins with the octets of a message, up to its first unknown tag. A traffic-control
message may also end in front of an assertion that it goes on. -/
def Covered (dec : SmDecoder) (buffer : List UInt8) : Prop :=
  match dec with
  | sliceInd =>
    ∃ ind : SliceIndMsg, ind.Fits ∧ (SliceEnc.indMsg ind).dropRooms.Begins buffer
  | sliceCtrl =>
    ∃ ctrl : SliceCtrlMsg, ctrl.Fits ∧ (SliceEnc.fillSliceCtrlMsg ctrl).dropRooms.Begins buffer
  | tcInd => ∃ ind : TcIndMsg, ind.Carried ∧ (TcEnc.indMsg ind).Begins buffer

theorem stays_iff_covered (dec : SmDecoder) (buffer : List UInt8) :
    dec.Stays buffer ↔ dec.Covered buffer := by
  cases dec with
  | sliceInd => exact (finds_indMsg).end_outside_iff buffer
  | sliceCtrl => exact (finds_ctrlMsg).end_outside_iff buffer
  | tcInd => exact (finds_tcIndMsg).end_outside_iff buffer

/-- A deletion that announces one slice, and ends. -/
theorem not_stays : ¬ ∀ (dec : SmDecoder) (buffer : List UInt8), dec.Stays buffer := fun h =>
  h .sliceCtrl [1, 0, 0, 0, 1, 0, 0, 0] rfl

end SmDecoder

end NrStack
