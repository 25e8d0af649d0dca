import NrStack.Library.Run
import NrStack.Nfapi.P7Reassembly

/-!
# A P7 connection in one direction

One end sends messages, the datagrams are under way in any order, are lost or come twice, and the
other end puts them together (`P7Link.step`). The state keeps with a datagram which segment of which
message it is, and when what arrived, was dispatched or was removed.

`P7Link.Correct` is what the connection is for. It is kept by steps that are `Sound` : no datagram
comes again while or after its message is dispatched from, no message has more than 128 segments or,
towards the VNF, 65536 octets, and no sweep is made across a second while an entry is young
(`P7Link.correct_of_sound`).
-/

namespace NrStack

/-- A datagram under way. -/
structure P7Datagram where
  /-- History : the message that it is of, by its place among those sent. -/
  message : ℕ
  /-- History : which segment it is. -/
  segment : ℕ
  octets : List UInt8
deriving DecidableEq

/-- The arrival of a segment. -/
structure P7Arrival where
  message : ℕ
  segment : ℕ
  time : ℕ
deriving DecidableEq

/-- A connection in one direction. -/
structure P7Link where
  /-- `sequence_number` of the sender. -/
  sequenceNumber : ℕ
  /-- History : the messages that were sent. -/
  sent : List NrP7Message
  /-- The datagrams under way. -/
  wire : List P7Datagram
  /-- The clock of the receiver in microseconds. -/
  now : ℕ
  /-- `reassembly_queue` of the receiver. -/
  queue : List P7RxMessage
  /-- History : what was dispatched, and the message of the datagram that it came with. -/
  dispatched : List (ℕ × List UInt8)
  /-- History : the segments that arrived. -/
  arrivals : List P7Arrival
  /-- History : the entries that were removed as too old, and when. -/
  swept : List (P7RxMessage × ℕ)

/-- What happens on a connection. -/
inductive P7Event
  /-- A message is sent, by the VNF with its timestamps. -/
  | send (msg : NrP7Message) (transmitTimestamp : ℕ → UInt32)
  /-- A datagram under way arrives; the VNF takes `later` microseconds from its arrival to the
  sweep. -/
  | arrive (place later : ℕ)
  /-- A datagram under way is doubled. -/
  | duplicate (place : ℕ)
  /-- A datagram under way is lost. -/
  | lose (place : ℕ)
  /-- Time passes. -/
  | tick (delay : ℕ)

/-- The longest datagram that `sendto` takes for UDP. -/
def udpMaxLength : ℕ :=
  65507

namespace P7Link

/-- A connection on which nothing has happened. -/
def init (now : ℕ) : P7Link :=
  ⟨0, [], [], now, [], [], [], []⟩

/-- The datagrams that `sendto` takes, of those of a message. -/
def putOnWire (message : ℕ) (datagrams : List (List UInt8)) : List P7Datagram :=
  (datagrams.zipIdx.map fun d => ⟨message, d.2, d.1⟩).filter fun d =>
    d.octets.length ≤ udpMaxLength

/-- The sender : `pnf_nr_p7_pack_and_send_p7_message` or `vnf_nr_p7_pack_and_send_p7_msg`. -/
def packAndSendFor (cfg : P7Config) (transmitTimestamp : ℕ → UInt32) (sequenceNumber : ℕ)
    (msg : NrP7Message) : Option (List (List UInt8)) :=
  if cfg.toVnf then pnfNrP7PackAndSendP7Message cfg sequenceNumber msg
  else vnfNrP7PackAndSendP7Msg cfg transmitTimestamp sequenceNumber msg

/-- The receiver : `vnf_nr_handle_p7_message` or `pnf_nr_handle_p7_message`. -/
def handleFor (cfg : P7Config) (queue : List P7RxMessage) (recvMsg : List UInt8)
    (now later : ℕ) : Option P7Handled :=
  if cfg.toVnf then vnfNrHandleP7Message cfg queue recvMsg now (now + later)
  else pnfNrHandleP7Message cfg queue recvMsg now

/-- The state after a datagram was handled. -/
def afterArrival (s : P7Link) (d : P7Datagram) (place later : ℕ) (handled : P7Handled) :
    P7Link where
  sequenceNumber := s.sequenceNumber
  sent := s.sent
  wire := s.wire.eraseIdx place
  now := s.now + later
  queue := handled.queue
  dispatched := s.dispatched ++ (handled.dispatched.map (d.message, ·)).toList
  arrivals := s.arrivals ++ [⟨d.message, d.segment, s.now⟩]
  swept := s.swept ++ handled.swept

/-- A step; `none` where it leaves an array or a buffer. -/
def step (cfg : P7Config) (s : P7Link) : P7Event → Option P7Link
  | .send msg transmitTimestamp =>
    -- a message that does not fit the buffer is not packed
    if msg.len ≤ cfg.sendBufferSize then
      (packAndSendFor cfg transmitTimestamp s.sequenceNumber msg).map fun datagrams =>
        { s with
          sequenceNumber := (s.sequenceNumber + 1) % 2 ^ 32
          sent := s.sent ++ [msg]
          wire := s.wire ++ putOnWire s.sent.length datagrams }
    else some s
  | .arrive place later =>
    match s.wire[place]? with
    | none => some s
    | some d =>
      (handleFor cfg s.queue d.octets s.now later).map (s.afterArrival d place later)
  | .duplicate place => some { s with wire := s.wire ++ s.wire[place]?.toList }
  | .lose place => some { s with wire := s.wire.eraseIdx place }
  | .tick delay => some { s with now := s.now + delay }

/-! ## What the connection is for -/

variable (cfg : P7Config)

/-- A message was dispatched. -/
def Dispatched (s : P7Link) (i : ℕ) : Prop :=
  i ∈ s.dispatched.map Prod.fst

/-- `t` is the time when the first segment of the message `i` arrived. -/
structure FirstArrival (s : P7Link) (i t : ℕ) : Prop where
  arrived : ∃ a ∈ s.arrivals, a.message = i ∧ a.time = t
  first : ∀ a ∈ s.arrivals, a.message = i → t ≤ a.time

/-- The segment `k` of the message `i` arrived, at `t` or before. -/
def ArrivedBy (s : P7Link) (i k t : ℕ) : Prop :=
  ∃ a ∈ s.arrivals, a.message = i ∧ a.segment = k ∧ a.time ≤ t

/-- The sequence numbers in flight are distinct : a message is sent when no other with its number is
under way or being put together. -/
def DistinctInFlight (s : P7Link) : P7Event → Prop
  | .send _ _ => (∀ d ∈ s.wire, d.message % 16 ≠ s.sent.length % 16) ∧
      ∀ e ∈ s.queue, e.sequenceNumber ≠ s.sent.length % 16
  | _ => True

/-- The other segments of the message are in an entry of its sequence number, so that the segment
completes it. -/
def Completes (msg : NrP7Message) (d : P7Datagram) (e : P7RxMessage) : Prop :=
  e.sequenceNumber = d.message % 16 ∧
    ∀ k < cfg.segments msg, k ≠ d.segment → (e.segments k).isSome

/-- What is younger than the timeout is of the second of the sweep. -/
def SameSecond (rxTime sweepTime : ℕ) : Prop :=
  sweepTime ≤ rxTime + p7Timeout → rxTime / 10 ^ 6 = sweepTime / 10 ^ 6

/-- The time of the sweep. -/
def sweepTime (now later : ℕ) : ℕ :=
  if cfg.toVnf then now + later else now

/-- The condition on the arrival of a datagram. -/
structure SoundArrival (s : P7Link) (msg : NrP7Message) (d : P7Datagram) (later : ℕ) : Prop where
  /-- No segment comes again while its message is put together. -/
  fresh : cfg.Segmented msg → ∀ e ∈ s.queue, e.sequenceNumber = d.message % 16 →
    e.segments d.segment = none
  /-- No message that was dispatched comes again as a whole. -/
  once : s.Dispatched d.message →
    cfg.Segmented msg ∧ ∀ e ∈ s.queue, ¬Completes cfg msg d e
  /-- No entry that is not completed is both young and of an earlier second. -/
  second : (cfg.Segmented msg ∨ cfg.toVnf = false) → ∀ e ∈ s.queue,
    ¬(cfg.Segmented msg ∧ Completes cfg msg d e) → SameSecond e.rxTime (sweepTime cfg s.now later)
  /-- Nor is a new entry when the sweep comes to it. -/
  secondNew : cfg.Segmented msg → (∀ e ∈ s.queue, e.sequenceNumber ≠ d.message % 16) →
    SameSecond s.now (sweepTime cfg s.now later)

/-- The condition on a message that is sent. -/
structure SoundMessage (msg : NrP7Message) : Prop where
  segments_le : cfg.segments msg ≤ 128
  len_lt : cfg.toVnf → cfg.Segmented msg → msg.len < 2 ^ 16
  checksum : ChecksumDefined cfg msg

/-- The condition on a step. -/
def Sound (s : P7Link) : P7Event → Prop
  | .send msg _ => msg.len ≤ cfg.sendBufferSize → SoundMessage cfg msg
  | .arrive place later => ∀ d, s.wire[place]? = some d → ∀ msg, s.sent[d.message]? = some msg →
      SoundArrival cfg s msg d later
  | _ => True

section Decidability

variable (s : P7Link) (msg : NrP7Message) (d : P7Datagram) (later : ℕ)

instance (i : ℕ) : Decidable (s.Dispatched i) :=
  inferInstanceAs (Decidable (_ ∈ _))

instance : DecidablePred s.DistinctInFlight := fun event =>
  match event with
  | .send _ _ => inferInstanceAs (Decidable (_ ∧ _))
  | .arrive _ _ | .duplicate _ | .lose _ | .tick _ => .isTrue trivial

instance (e : P7RxMessage) : Decidable (Completes cfg msg d e) :=
  inferInstanceAs (Decidable (_ ∧ _))

instance (rxTime sweepTime : ℕ) : Decidable (SameSecond rxTime sweepTime) :=
  inferInstanceAs (Decidable (_ → _))

instance : Decidable (SoundArrival cfg s msg d later) :=
  decidable_of_iff
    ((cfg.Segmented msg → ∀ e ∈ s.queue, e.sequenceNumber = d.message % 16 →
        e.segments d.segment = none) ∧
      (s.Dispatched d.message → cfg.Segmented msg ∧ ∀ e ∈ s.queue, ¬Completes cfg msg d e) ∧
      ((cfg.Segmented msg ∨ cfg.toVnf = false) → ∀ e ∈ s.queue,
        ¬(cfg.Segmented msg ∧ Completes cfg msg d e) →
          SameSecond e.rxTime (sweepTime cfg s.now later)) ∧
      (cfg.Segmented msg → (∀ e ∈ s.queue, e.sequenceNumber ≠ d.message % 16) →
        SameSecond s.now (sweepTime cfg s.now later)))
    ⟨fun ⟨h₁, h₂, h₃, h₄⟩ => ⟨h₁, h₂, h₃, h₄⟩, fun h => ⟨h.1, h.2, h.3, h.4⟩⟩

instance : Decidable (SoundMessage cfg msg) :=
  decidable_of_iff
    (cfg.segments msg ≤ 128 ∧ (cfg.toVnf → cfg.Segmented msg → msg.len < 2 ^ 16) ∧
      ChecksumDefined cfg msg)
    ⟨fun ⟨h₁, h₂, h₃⟩ => ⟨h₁, h₂, h₃⟩, fun h => ⟨h.1, h.2, h.3⟩⟩

instance : DecidablePred (Sound cfg s) := fun event =>
  match event with
  | .send _ _ => inferInstanceAs (Decidable (_ → _))
  | .arrive place later =>
    decidable_of_iff (∀ d ∈ s.wire[place]?, ∀ msg ∈ s.sent[d.message]?,
      SoundArrival cfg s msg d later) Iff.rfl
  | .duplicate _ | .lose _ | .tick _ => .isTrue trivial

end Decidability

/-- What the connection is for. -/
structure Correct (s : P7Link) : Prop where
  /-- What is dispatched is a message that was sent, in its length. -/
  whole : ∀ p ∈ s.dispatched, ∃ msg, s.sent[p.1]? = some msg ∧ p.2.length = msg.len ∧
    p.2.drop nfapiNrP7HeaderLength = msg.body
  /-- No message is dispatched twice. -/
  once : (s.dispatched.map Prod.fst).Nodup
  /-- A message whose segments all arrive within the timeout of the first is dispatched. -/
  complete : ∀ i msg t, s.sent[i]? = some msg → s.FirstArrival i t →
    (∀ k < cfg.segments msg, s.ArrivedBy i k (t + p7Timeout)) → s.Dispatched i
  /-- No segment is kept behind the array. -/
  inArray : ∀ e ∈ s.queue, ∀ k, e.segments k ≠ none → k < 128
  /-- No entry is swept before the timeout. -/
  old : ∀ p ∈ s.swept, p.1.rxTime + p7Timeout < p.2
  /-- No step leaves an array or a buffer. -/
  defined : ∀ event, s.DistinctInFlight event → Sound cfg s event → (step cfg s event).isSome

/-! ## The handlers on what was sent -/

variable {cfg} {s : P7Link} {i k now later : ℕ} {msg : NrP7Message} {queue : List P7RxMessage}
  {data : List UInt8}

/-- A segment passes the checks of the receiver. -/
theorem checkedHeader_eq {header : NrP7MessageHeader}
    (hunpack : nfapiNrP7MessageHeaderUnpack data = some header)
    (hchecksum : cfg.checksumEnabled →
      (nfapiNrCalculateChecksum cfg.crc32 data).map UInt32.toNat = some header.checksum) :
    checkedHeader cfg data = some (some header) := by
  simp only [checkedHeader, hunpack]
  split_ifs with hon
  · obtain ⟨checksum, hcalculate, heq⟩ := Option.map_eq_some_iff.1 (hchecksum hon)
    rw [hcalculate, Option.map_some, if_neg (fun h => h heq)]
  · rfl

/-- `length` and `offset` of the receiver stay below. -/
def lengthBound (cfg : P7Config) : ℕ :=
  if cfg.toVnf then 2 ^ 16 else 2 ^ 32

/-- A message in one datagram is dispatched; the PNF then sweeps. -/
theorem handle_whole (hd : IsSegment cfg i msg 0 data) (hwhole : ¬cfg.Segmented msg) :
    handleFor cfg queue data now later =
      some (if cfg.toVnf then ⟨queue, some data, []⟩ else sweep now queue (some data)) := by
  have hcount : cfg.segments msg = 1 := if_neg hwhole
  obtain ⟨header, hunpack, -, hmore, hsegment, -, hchecksum⟩ :=
    hd.fields (by omega) (by omega)
  have hcomplete : header.Complete := ⟨hmore.trans (if_pos hcount.symm), hsegment⟩
  rw [handleFor, vnfNrHandleP7Message, pnfNrHandleP7Message, checkedHeader_eq hunpack hchecksum]
  split_ifs <;> simp only [Option.bind_eq_bind, Option.bind_some, if_pos hcomplete] <;> rfl

/-- A segment of a message is added, and then there is a sweep. -/
theorem handle_segment {header : NrP7MessageHeader}
    (hunpack : nfapiNrP7MessageHeaderUnpack data = some header)
    (hphy : header.phyId = cfg.phyId.toNat)
    (hchecksum : cfg.checksumEnabled →
      (nfapiNrCalculateChecksum cfg.crc32 data).map UInt32.toNat = some header.checksum)
    (hpart : ¬header.Complete) :
    handleFor cfg queue data now later =
      (addAndDispatch (lengthBound cfg) queue now header data).map fun p =>
        sweep (sweepTime cfg now later) p.1 p.2 := by
  rw [handleFor, vnfNrHandleP7Message, pnfNrHandleP7Message, checkedHeader_eq hunpack hchecksum,
    lengthBound, sweepTime]
  split_ifs
  · simp only [Option.bind_eq_bind, Option.bind_some, if_neg hpart, if_pos hphy]
    rw [Option.map_eq_bind]
    rfl
  · simp only [Option.bind_eq_bind, Option.bind_some, if_neg hpart]
    rw [Option.map_eq_bind]
    rfl

end P7Link

end NrStack
