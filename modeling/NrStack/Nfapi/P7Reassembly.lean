import Mathlib.Data.Finset.Card
import NrStack.Library.Keyed
import NrStack.Nfapi.P7Message

/-!
# Reassembly of nFAPI P7 messages

`pnfNrHandleP7Message` and `vnfNrHandleP7Message` take a datagram, dispatch it or put it into the
entry of the reassembly queue with its sequence number, dispatch the entry's message when as many
segments have come as there are, and remove what is older than the timeout.

`Holds` is an entry with segments of one message, none of them counted twice. Such an entry counts
up to what it expects exactly when it has all segments (`Holds.complete_iff`), and what is dispatched
is then the message (`Holds.reassemble`).
-/

namespace NrStack

/-! ## The clock -/

/-- `TIME2TIMEHR` of a clock in microseconds : twelve bits of seconds and twenty of microseconds. -/
def time2TimeHr (now : ℕ) : UInt32 :=
  UInt32.ofNat (now / 10 ^ 6 % 2 ^ 12 * 2 ^ 20 + now % 10 ^ 6 % 2 ^ 20)

/-- The timeout that both ends give to the sweep. -/
def p7Timeout : ℕ :=
  10000

/-- Within a second the format counts microseconds, so what is not older than the timeout is not
swept. -/
theorem time2TimeHr_sub {t now : ℕ} (h : t ≤ now) (hsecond : t / 10 ^ 6 = now / 10 ^ 6)
    (hyoung : now ≤ t + p7Timeout) :
    ¬UInt32.ofNat p7Timeout < time2TimeHr now - time2TimeHr t := by
  have hnow : time2TimeHr now = time2TimeHr t + UInt32.ofNat (now - t) := by
    rw [time2TimeHr, time2TimeHr, ← UInt32.ofNat_add, hsecond]
    exact congrArg UInt32.ofNat (by omega)
  rw [hnow, UInt32.add_comm, UInt32.add_sub_cancel, UInt32.lt_iff_toNat_lt, UInt32.toNat_ofNat',
    UInt32.toNat_ofNat']
  unfold p7Timeout at *
  omega

/-! ## The reassembly queue -/

/-- `pnf_p7_rx_message_t` and `vnf_p7_rx_message_t`. -/
structure P7RxMessage where
  sequenceNumber : ℕ
  numSegmentsReceived : UInt8
  numSegmentsExpected : UInt8
  segments : ℕ → Option (List UInt8)
  rxHrTime : UInt32
  /-- History : the clock that `rxHrTime` was taken from. -/
  rxTime : ℕ

/-- The segment is put into the entry and counted. The length is a `uint16_t`. -/
def P7RxMessage.put (msg : P7RxMessage) (segmentNumber m : ℕ) (data : List UInt8) : P7RxMessage :=
  { msg with
    segments := Function.update msg.segments segmentNumber
      (some (data.take (data.length % 2 ^ 16)))
    numSegmentsReceived := msg.numSegmentsReceived + 1
    numSegmentsExpected :=
      if m = 0 then UInt8.ofNat (segmentNumber + 1) else msg.numSegmentsExpected }

/-- A new entry with its first segment. -/
def newRxMessage (rxTime sequenceNumber segmentNumber m : ℕ) (data : List UInt8) :
    P7RxMessage where
  sequenceNumber := sequenceNumber
  numSegmentsReceived := 1
  numSegmentsExpected := if m = 0 then UInt8.ofNat (segmentNumber + 1) else 255
  segments := Function.update (fun _ => none) segmentNumber
    (some (data.take (data.length % 2 ^ 16)))
  rxHrTime := time2TimeHr rxTime
  rxTime := rxTime

/-- `pnf_p7_rx_reassembly_queue_add_segment`, and that of the VNF, which takes the time itself : the
entry of the segment, and the queue. -/
def rxReassemblyQueueAddSegment (queue : List P7RxMessage)
    (rxTime sequenceNumber segmentNumber m : ℕ) (data : List UInt8) :
    P7RxMessage × List P7RxMessage :=
  match queue.find? (P7RxMessage.sequenceNumber · = sequenceNumber) with
  | some msg =>
    let msg' := msg.put segmentNumber m data
    (msg', queue.replaceF fun e => if e.sequenceNumber = sequenceNumber then some msg' else none)
  | none =>
    let msg := newRxMessage rxTime sequenceNumber segmentNumber m data
    (msg, msg :: queue)

/-- `pnf_p7_rx_reassembly_queue_remove_msg` and `vnf_p7_rx_reassembly_queue_remove_msg`. -/
def rxReassemblyQueueRemoveMsg (queue : List P7RxMessage) (msg : P7RxMessage) :
    List P7RxMessage :=
  queue.eraseP (P7RxMessage.sequenceNumber · = msg.sequenceNumber)

/-- The sweep removes an entry at `now`. -/
def P7RxMessage.Stale (now : ℕ) (msg : P7RxMessage) : Prop :=
  UInt32.ofNat p7Timeout < time2TimeHr now - msg.rxHrTime

instance (now : ℕ) : DecidablePred (P7RxMessage.Stale now) := fun _ =>
  inferInstanceAs (Decidable (_ < _))

/-- `pnf_p7_rx_reassembly_queue_remove_old_msgs` and `vnf_p7_rx_reassembly_queue_remove_old_msgs`. -/
def rxReassemblyQueueRemoveOldMsgs (queue : List P7RxMessage) (now : ℕ) : List P7RxMessage :=
  queue.filter (¬P7RxMessage.Stale now ·)

/-! ## A message put together -/

/-- What is copied of a segment. There are 128; of one that has not come, or is shorter than a
header, the length to copy wraps, and the copy does not end well. -/
def P7RxMessage.segmentPart (msg : P7RxMessage) (i : ℕ) : Option (List UInt8) :=
  if 128 ≤ i then none
  else if i = 0 then some ((msg.segments 0).getD [])
  else
    match msg.segments i with
    | some data =>
      if data.length < nfapiNrP7HeaderLength then none else some (data.drop nfapiNrP7HeaderLength)
    | none => none

/-- The reassembly buffer up to `length`. A length from `lengthBound` on does not fit its type, the
buffer is then too short for what is copied. -/
def P7RxMessage.reassemble (msg : P7RxMessage) (lengthBound : ℕ) : Option (List UInt8) := do
  let parts ← (List.range msg.numSegmentsExpected.toNat).mapM msg.segmentPart
  let data := parts.flatten
  if lengthBound ≤ data.length then none else some data

/-! ## The handlers -/

/-- What a handler leaves. -/
structure P7Handled where
  queue : List P7RxMessage
  /-- What is given to the dispatcher, as long as the length that goes with it. -/
  dispatched : Option (List UInt8)
  /-- What was removed as too old, and when. -/
  swept : List (P7RxMessage × ℕ)

/-- The header of a datagram, if that can be unpacked and has the right checksum. -/
def checkedHeader (cfg : P7Config) (recvMsg : List UInt8) : Option (Option NrP7MessageHeader) :=
  match nfapiNrP7MessageHeaderUnpack recvMsg with
  | none => some none
  | some header =>
    if cfg.checksumEnabled then
      (nfapiNrCalculateChecksum cfg.crc32 recvMsg).map fun checksum =>
        if checksum.toNat ≠ header.checksum then none else some header
    else some (some header)

/-- A segment is added, and its message dispatched and removed if as many have come as are
expected. -/
def addAndDispatch (lengthBound : ℕ) (queue : List P7RxMessage) (rxTime : ℕ)
    (header : NrP7MessageHeader) (recvMsg : List UInt8) :
    Option (List P7RxMessage × Option (List UInt8)) :=
  let (rxMsg, queue) := rxReassemblyQueueAddSegment queue rxTime
    (nfapiP7GetSequence header.mSegmentSequence) (nfapiP7GetSegment header.mSegmentSequence)
    (nfapiP7GetMore header.mSegmentSequence) recvMsg
  if rxMsg.numSegmentsReceived = rxMsg.numSegmentsExpected then
    (rxMsg.reassemble lengthBound).map fun data =>
      (rxReassemblyQueueRemoveMsg queue rxMsg, some data)
  else some (queue, none)

/-- The sweep at the end of a handler. -/
def sweep (now : ℕ) (queue : List P7RxMessage) (dispatched : Option (List UInt8)) : P7Handled where
  queue := rxReassemblyQueueRemoveOldMsgs queue now
  dispatched := dispatched
  swept := (queue.filter (P7RxMessage.Stale now ·)).map (·, now)

/-- A message in one datagram. -/
def NrP7MessageHeader.Complete (header : NrP7MessageHeader) : Prop :=
  nfapiP7GetMore header.mSegmentSequence = 0 ∧ nfapiP7GetSegment header.mSegmentSequence = 0

instance : DecidablePred NrP7MessageHeader.Complete := fun _ =>
  inferInstanceAs (Decidable (_ ∧ _))

/-- `pnf_nr_handle_p7_message`. The time of the datagram is that of the sweep. -/
def pnfNrHandleP7Message (cfg : P7Config) (queue : List P7RxMessage) (recvMsg : List UInt8)
    (rxTime : ℕ) : Option P7Handled := do
  match ← checkedHeader cfg recvMsg with
  | none => return ⟨queue, none, []⟩
  | some header =>
    if header.Complete then return sweep rxTime queue (some recvMsg)
    else
      let (queue, dispatched) ← addAndDispatch (2 ^ 32) queue rxTime header recvMsg
      return sweep rxTime queue dispatched

/-- `vnf_nr_handle_p7_message`, with the time when the segment is added and that of the sweep. The
length and the offset are `uint16_t`. -/
def vnfNrHandleP7Message (cfg : P7Config) (queue : List P7RxMessage) (recvMsg : List UInt8)
    (rxTime sweepTime : ℕ) : Option P7Handled := do
  match ← checkedHeader cfg recvMsg with
  | none => return ⟨queue, none, []⟩
  | some header =>
    if header.Complete then return ⟨queue, some recvMsg, []⟩
    else if header.phyId = cfg.phyId.toNat then
      let (queue, dispatched) ← addAndDispatch (2 ^ 16) queue rxTime header recvMsg
      return sweep sweepTime queue dispatched
    else return ⟨queue, none, []⟩

/-! ## Entries of one message -/

namespace P7RxMessage

/-- Which of the first `n` segments are there. -/
def present (e : P7RxMessage) (n : ℕ) : Finset ℕ :=
  (Finset.range n).filter fun k => (e.segments k).isSome

/-- The entry has segments of the message `i`, each counted once. -/
structure Holds (cfg : P7Config) (i : ℕ) (msg : NrP7Message) (e : P7RxMessage) : Prop where
  sequenceNumber : e.sequenceNumber = i % 16
  segments : ∀ k data, e.segments k = some data → k < cfg.segments msg ∧ IsSegment cfg i msg k data
  received : e.numSegmentsReceived.toNat = (e.present (cfg.segments msg)).card
  expected : e.numSegmentsExpected.toNat =
    if (e.segments (cfg.segments msg - 1)).isSome then cfg.segments msg else 255
  rxHrTime : e.rxHrTime = time2TimeHr e.rxTime

/-- All segments of the message are there. -/
def Complete (cfg : P7Config) (msg : NrP7Message) (e : P7RxMessage) : Prop :=
  ∀ k < cfg.segments msg, (e.segments k).isSome

variable {cfg : P7Config} {i k : ℕ} {msg : NrP7Message} {e : P7RxMessage} {data : List UInt8}

theorem put_segments (hlen : data.length < 2 ^ 16) (m : ℕ) :
    (e.put k m data).segments = Function.update e.segments k (some data) := by
  rw [put, Nat.mod_eq_of_lt hlen, List.take_length]

/-- A segment that is not there yet keeps the account. -/
theorem Holds.put (he : Holds cfg i msg e) (hn : cfg.segments msg ≤ 128)
    (hd : IsSegment cfg i msg k data) (hk : k < cfg.segments msg) (hlen : data.length < 2 ^ 16)
    (hnew : e.segments k = none) :
    Holds cfg i msg (e.put k (if k + 1 = cfg.segments msg then 0 else 1) data) := by
  have hsegments := put_segments (e := e) (k := k) hlen
    (if k + 1 = cfg.segments msg then 0 else 1)
  have hpresent : (e.put k (if k + 1 = cfg.segments msg then 0 else 1) data).present
      (cfg.segments msg) = insert k (e.present (cfg.segments msg)) := by
    ext j
    simp only [present, hsegments, Finset.mem_filter, Finset.mem_range, Finset.mem_insert]
    by_cases hj : j = k
    · subst hj
      simp [hk]
    · simp [hj]
  have hfresh : k ∉ e.present (cfg.segments msg) := by
    simp [present, hnew]
  have hcard : (insert k (e.present (cfg.segments msg))).card ≤ 128 := by
    rw [← hpresent]
    exact ((Finset.card_filter_le _ _).trans_eq (Finset.card_range _)).trans hn
  refine ⟨he.sequenceNumber, fun j d hj => ?_, ?_, ?_, he.rxHrTime⟩
  · rw [hsegments] at hj
    by_cases hjk : j = k
    · subst hjk
      rw [Function.update_self] at hj
      cases hj
      exact ⟨hk, hd⟩
    · rw [Function.update_of_ne hjk] at hj
      exact he.segments j d hj
  · rw [hpresent, P7RxMessage.put, UInt8.toNat_add, he.received]
    rw [Finset.card_insert_of_notMem hfresh] at hcard ⊢
    exact Nat.mod_eq_of_lt (by rw [UInt8.toNat_one]; omega)
  · rw [hsegments, P7RxMessage.put]
    by_cases hlast : k + 1 = cfg.segments msg
    · have hk' : cfg.segments msg - 1 = k := by omega
      rw [if_pos hlast, hk', Function.update_self, if_pos rfl, UInt8.toNat_ofNat', hlast]
      exact Nat.mod_eq_of_lt (by omega)
    · rw [if_neg hlast, Function.update_of_ne (by omega), if_neg one_ne_zero]
      exact he.expected

/-- A new entry, before its first segment. -/
def blank (rxTime sequenceNumber : ℕ) : P7RxMessage where
  sequenceNumber := sequenceNumber
  numSegmentsReceived := 0
  numSegmentsExpected := 255
  segments := fun _ => none
  rxHrTime := time2TimeHr rxTime
  rxTime := rxTime

theorem put_blank (rxTime sequenceNumber m : ℕ) :
    (blank rxTime sequenceNumber).put k m data =
      newRxMessage rxTime sequenceNumber k m data :=
  rfl

theorem holds_blank (rxTime : ℕ) : Holds cfg i msg (blank rxTime (i % 16)) :=
  ⟨rfl, nofun, by simp [blank, present], rfl, rfl⟩

/-- As many segments have come as are expected exactly when all have. -/
theorem Holds.complete_iff (he : Holds cfg i msg e) (hn : cfg.segments msg ≤ 128)
    (hpos : 0 < cfg.segments msg) :
    e.numSegmentsReceived = e.numSegmentsExpected ↔ e.Complete cfg msg := by
  have hcard : (e.present (cfg.segments msg)).card ≤ cfg.segments msg :=
    (Finset.card_filter_le _ _).trans_eq (Finset.card_range _)
  rw [← UInt8.toNat_inj, he.received, he.expected]
  constructor
  · intro h
    split_ifs at h with hlast
    · have hall : e.present (cfg.segments msg) = Finset.range (cfg.segments msg) :=
        Finset.eq_of_subset_of_card_le (Finset.filter_subset _ _)
          (by rw [h, Finset.card_range])
      intro k hk
      have hmem : k ∈ e.present (cfg.segments msg) := by
        rw [hall]
        exact Finset.mem_range.2 hk
      exact (Finset.mem_filter.1 hmem).2
    · omega
  · intro h
    rw [if_pos (h _ (by omega)), present, Finset.filter_true_of_mem, Finset.card_range]
    exact fun k hk => h k (Finset.mem_range.1 hk)

theorem mapM_some {α β : Type*} {f : α → Option β} {g : α → β} : ∀ {l : List α},
    (∀ a ∈ l, f a = some (g a)) → l.mapM f = some (l.map g)
  | [], _ => rfl
  | a :: l, h => by
    rw [List.mapM_cons, h a List.mem_cons_self,
      mapM_some fun b hb => h b (List.mem_cons_of_mem _ hb)]
    rfl

/-- All segments put together are the message behind a header. -/
theorem Holds.reassemble (he : Holds cfg i msg e) (hseg : cfg.Segmented msg)
    (hn : cfg.segments msg ≤ 128) (hall : e.Complete cfg msg) {lengthBound : ℕ}
    (hlen : msg.len < lengthBound) :
    ∃ data, e.reassemble lengthBound = some data ∧ data.length = msg.len ∧
      data.drop nfapiNrP7HeaderLength = msg.body := by
  have hpos := P7Config.one_lt_segments hseg
  obtain ⟨first, hfirst⟩ := Option.isSome_iff_exists.1 (hall 0 (by omega))
  have hzero := (he.segments 0 first hfirst).2
  have hheader : (first.take nfapiNrP7HeaderLength).length = nfapiNrP7HeaderLength := by
    rw [List.length_take, hzero.length]
    omega
  have hexpected : e.numSegmentsExpected.toNat = cfg.segments msg := by
    rw [he.expected, if_pos (hall _ (by omega))]
  have hparts : (List.range (cfg.segments msg)).mapM e.segmentPart =
      some ((List.range (cfg.segments msg)).map fun k =>
        if k = 0 then first else cfg.chunk msg k) := by
    refine mapM_some fun k hk => ?_
    rw [List.mem_range] at hk
    rw [segmentPart, if_neg (by omega)]
    split_ifs with hk₀
    · rw [hfirst, Option.getD_some]
    · obtain ⟨data, hdata⟩ := Option.isSome_iff_exists.1 (hall k hk)
      have hd := (he.segments k data hdata).2
      simp only [hdata, hd.body]
      exact if_neg (by rw [hd.length]; omega)
  have hflatten : ((List.range (cfg.segments msg)).map fun k =>
      if k = 0 then first else cfg.chunk msg k).flatten =
        first.take nfapiNrP7HeaderLength ++ msg.body := by
    obtain ⟨n, hn'⟩ := Nat.exists_eq_succ_of_ne_zero (by omega : cfg.segments msg ≠ 0)
    rw [← P7Config.flatten_chunks hseg, hn', List.range_succ_eq_map, List.map_cons,
      List.map_cons, List.flatten_cons, List.flatten_cons, if_pos rfl, List.map_map,
      List.map_map, ← List.append_assoc, ← hzero.body, List.take_append_drop]
    rfl
  have hlength : (first.take nfapiNrP7HeaderLength ++ msg.body).length = msg.len := by
    rw [List.length_append, hheader, NrP7Message.len]
  refine ⟨first.take nfapiNrP7HeaderLength ++ msg.body, ?_, hlength, List.drop_left' hheader⟩
  rw [P7RxMessage.reassemble, hexpected, hparts]
  exact if_neg (by rw [hflatten, hlength]; omega) |>.trans (congrArg some hflatten)

/-- The entry that a segment is put into : that of its sequence number, or a new one. -/
def collecting (queue : List P7RxMessage) (rxTime sequenceNumber : ℕ) : P7RxMessage :=
  (queue.find? (P7RxMessage.sequenceNumber · = sequenceNumber)).getD (blank rxTime sequenceNumber)

theorem collecting_cases (queue : List P7RxMessage) (rxTime sequenceNumber : ℕ) :
    collecting queue rxTime sequenceNumber ∈ queue ∧
        (collecting queue rxTime sequenceNumber).sequenceNumber = sequenceNumber ∨
      collecting queue rxTime sequenceNumber = blank rxTime sequenceNumber ∧
        ∀ e ∈ queue, e.sequenceNumber ≠ sequenceNumber := by
  rw [collecting]
  cases h : queue.find? (P7RxMessage.sequenceNumber · = sequenceNumber) with
  | none => exact .inr ⟨rfl, Keyed.find_eq_none_iff.1 h⟩
  | some e => exact .inl (Keyed.key_of_find h)

theorem sequenceNumber_collecting (queue : List P7RxMessage) (rxTime sequenceNumber : ℕ) :
    (collecting queue rxTime sequenceNumber).sequenceNumber = sequenceNumber := by
  rcases collecting_cases queue rxTime sequenceNumber with ⟨-, h⟩ | ⟨h, -⟩
  · exact h
  · rw [h]
    rfl

theorem addSegment_eq (queue : List P7RxMessage) (rxTime sequenceNumber segmentNumber m : ℕ)
    (data : List UInt8) :
    rxReassemblyQueueAddSegment queue rxTime sequenceNumber segmentNumber m data =
      ((collecting queue rxTime sequenceNumber).put segmentNumber m data,
        Keyed.place P7RxMessage.sequenceNumber
          ((collecting queue rxTime sequenceNumber).put segmentNumber m data) queue) := by
  have hkey : ((collecting queue rxTime sequenceNumber).put segmentNumber m data).sequenceNumber =
      sequenceNumber := sequenceNumber_collecting queue rxTime sequenceNumber
  rw [rxReassemblyQueueAddSegment, Keyed.place, hkey]
  cases h : queue.find? (P7RxMessage.sequenceNumber · = sequenceNumber) with
  | none =>
    rw [collecting, h]
    rfl
  | some e =>
    rw [collecting, h]
    rfl

end P7RxMessage

open P7RxMessage

/-- What comes of a segment that is not there yet, in a queue of entries with different sequence
numbers : its message is put together and leaves the queue, or the segment is in the entry. -/
theorem addAndDispatch_spec {cfg : P7Config} {i k rxTime lengthBound : ℕ} {msg : NrP7Message}
    {queue : List P7RxMessage} {header : NrP7MessageHeader} {data : List UInt8}
    (hqueue : (queue.map P7RxMessage.sequenceNumber).Nodup) (hseg : cfg.Segmented msg)
    (hn : cfg.segments msg ≤ 128) (hk : k < cfg.segments msg) (hlen : data.length < 2 ^ 16)
    (hbound : msg.len < lengthBound) (hd : IsSegment cfg i msg k data)
    (hmore : nfapiP7GetMore header.mSegmentSequence = if k + 1 = cfg.segments msg then 0 else 1)
    (hsegment : nfapiP7GetSegment header.mSegmentSequence = k)
    (hsequence : nfapiP7GetSequence header.mSegmentSequence = i % 16)
    (he : (collecting queue rxTime (i % 16)).Holds cfg i msg)
    (hnew : (collecting queue rxTime (i % 16)).segments k = none) :
    ∃ e queue' dispatched, addAndDispatch lengthBound queue rxTime header data =
        some (queue', dispatched) ∧
      (queue'.map P7RxMessage.sequenceNumber).Nodup ∧ e.Holds cfg i msg ∧
      e.rxTime = (collecting queue rxTime (i % 16)).rxTime ∧
      e.segments = Function.update (collecting queue rxTime (i % 16)).segments k (some data) ∧
      (e.Complete cfg msg ∧ (∃ whole, dispatched = some whole ∧ whole.length = msg.len ∧
          whole.drop nfapiNrP7HeaderLength = msg.body) ∧
          (∀ e', e' ∈ queue' ↔ e' ∈ queue ∧ e'.sequenceNumber ≠ i % 16) ∨
        ¬e.Complete cfg msg ∧ dispatched = none ∧
          ∀ e', e' ∈ queue' ↔ e' = e ∨ e' ∈ queue ∧ e'.sequenceNumber ≠ i % 16) := by
  have hput := he.put hn hd hk hlen hnew
  have hsegments := put_segments (e := collecting queue rxTime (i % 16)) (k := k) hlen
    (if k + 1 = cfg.segments msg then 0 else 1)
  have htime : ((collecting queue rxTime (i % 16)).put k
      (if k + 1 = cfg.segments msg then 0 else 1) data).rxTime =
        (collecting queue rxTime (i % 16)).rxTime := rfl
  rw [addAndDispatch, hsequence, hsegment, hmore, addSegment_eq]
  generalize (collecting queue rxTime (i % 16)).put k
    (if k + 1 = cfg.segments msg then 0 else 1) data = e at hput hsegments htime ⊢
  have hpos := P7Config.one_lt_segments hseg
  have hkey := hput.sequenceNumber
  have hplace := Keyed.nodup_place (x := e) hqueue
  have hcomplete := hput.complete_iff hn (by omega)
  by_cases hall : e.Complete cfg msg
  · obtain ⟨whole, hwhole, hlength, hbody⟩ := hput.reassemble hseg hn hall hbound
    refine ⟨e, rxReassemblyQueueRemoveMsg (Keyed.place sequenceNumber e queue) e, some whole, ?_,
      hplace.sublist (List.eraseP_sublist.map _), hput, htime,
      hsegments, .inl ⟨hall, ⟨whole, rfl, hlength, hbody⟩, fun e' => ?_⟩⟩
    · simp only [if_pos (hcomplete.2 hall), hwhole, Option.map_some]
    · rw [rxReassemblyQueueRemoveMsg, Keyed.mem_erase hplace, Keyed.mem_place hqueue, hkey]
      constructor
      · rintro ⟨rfl | h, hne⟩
        · exact absurd hkey hne
        · exact h
      · exact fun h => ⟨.inr h, h.2⟩
  · refine ⟨e, Keyed.place sequenceNumber e queue, none, if_neg fun h => hall (hcomplete.1 h), hplace, hput, htime, hsegments,
      .inr ⟨hall, rfl, fun e' => ?_⟩⟩
    rw [Keyed.mem_place hqueue, hkey]

end NrStack
