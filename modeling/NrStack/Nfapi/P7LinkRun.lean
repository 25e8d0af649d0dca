import Mathlib
import NrStack.Nfapi.P7Link

/-!
# Runs of a P7 connection

`P7Link.Inv` is kept by `Sound` steps. A message of which something arrived and that was not
dispatched is being collected, in an entry with all that arrived of it, or it is late : the timeout
after its first segment is over, and a segment had not come by then.

An arrival is taken in two steps : what the handler does before the sweep (`Arrived`), and the sweep,
which takes only entries that are older than the timeout (`Swept`).
-/

namespace NrStack

namespace P7Link

open P7RxMessage

variable {cfg : P7Config} {s s' : P7Link} {i j k later place : ℕ} {msg : NrP7Message}
  {d : P7Datagram} {e : P7RxMessage}

/-! ## The invariant -/

/-- The message `i` is the last one sent with its sequence number. -/
def Last (s : P7Link) (i : ℕ) : Prop :=
  ∀ j < s.sent.length, i < j → j % 16 ≠ i % 16

/-- Messages sent last with one sequence number are the same. -/
theorem Last.eq (hi : s.Last i) (hj : s.Last j) (hi' : i < s.sent.length)
    (hj' : j < s.sent.length) (h : i % 16 = j % 16) : i = j := by
  rcases Nat.lt_trichotomy i j with hlt | rfl | hlt
  · exact absurd h.symm (hi j hj' hlt)
  · rfl
  · exact absurd h (hj i hi' hlt)

/-- An entry has all that arrived of the message `i`, from its first segment on. -/
structure Gathers (cfg : P7Config) (s : P7Link) (i : ℕ) (msg : NrP7Message)
    (e : P7RxMessage) : Prop where
  last : s.Last i
  holds : e.Holds cfg i msg
  first : s.FirstArrival i e.rxTime
  segments : ∀ k, (e.segments k).isSome ↔ ∃ a ∈ s.arrivals, a.message = i ∧ a.segment = k

/-- The timeout after the first segment of the message `i` is over, and one had not come by then. -/
def Late (cfg : P7Config) (s : P7Link) (i : ℕ) (msg : NrP7Message) : Prop :=
  ∃ t, s.FirstArrival i t ∧ t + p7Timeout < s.now ∧
    ∃ k < cfg.segments msg, ¬s.ArrivedBy i k (t + p7Timeout)

/-- A datagram under way. -/
structure Underway (cfg : P7Config) (s : P7Link) (d : P7Datagram) (msg : NrP7Message) : Prop where
  sent : s.sent[d.message]? = some msg
  last : s.Last d.message
  segment_lt : d.segment < cfg.segments msg
  length_le : d.octets.length ≤ udpMaxLength
  isSegment : IsSegment cfg d.message msg d.segment d.octets

/-- An entry of the queue, with segments of the message `i`. -/
structure Entry (cfg : P7Config) (s : P7Link) (e : P7RxMessage) (i : ℕ) (msg : NrP7Message) :
    Prop where
  sent : s.sent[i]? = some msg
  last : s.Last i
  segmented : cfg.Segmented msg
  holds : e.Holds cfg i msg
  incomplete : ¬e.Complete cfg msg
  rxTime_le : e.rxTime ≤ s.now
  arrived : ∃ a ∈ s.arrivals, a.message = i

/-- The invariant. -/
structure Inv (cfg : P7Config) (s : P7Link) : Prop where
  sequenceNumber : s.sequenceNumber = s.sent.length % 2 ^ 32
  sound : ∀ msg ∈ s.sent, SoundMessage cfg msg ∧ msg.len ≤ cfg.sendBufferSize
  wire : ∀ d ∈ s.wire, ∃ msg, Underway cfg s d msg
  keys : (s.queue.map P7RxMessage.sequenceNumber).Nodup
  queue : ∀ e ∈ s.queue, ∃ i msg, Entry cfg s e i msg
  whole : ∀ p ∈ s.dispatched, ∃ msg, s.sent[p.1]? = some msg ∧ p.2.length = msg.len ∧
    p.2.drop nfapiNrP7HeaderLength = msg.body
  once : (s.dispatched.map Prod.fst).Nodup
  arrivals : ∀ a ∈ s.arrivals, a.time ≤ s.now ∧ a.message < s.sent.length
  collected : ∀ i msg, s.sent[i]? = some msg → ¬s.Dispatched i →
    (∃ a ∈ s.arrivals, a.message = i) → (∃ e ∈ s.queue, Gathers cfg s i msg e) ∨ Late cfg s i msg
  old : ∀ p ∈ s.swept, p.1.rxTime + p7Timeout < p.2

theorem inv_init (cfg : P7Config) (now : ℕ) : Inv cfg (init now) where
  sequenceNumber := rfl
  sound := nofun
  wire := nofun
  keys := List.nodup_nil
  queue := nofun
  whole := nofun
  once := List.nodup_nil
  arrivals := nofun
  collected := nofun
  old := nofun

/-! ## The sweep -/

/-- What a sweep leaves of a queue : what it takes is older than the timeout. -/
structure Swept (queue : List P7RxMessage) (now : ℕ) (handled : P7Handled) : Prop where
  sublist : handled.queue.Sublist queue
  removed : ∀ e ∈ queue, e ∈ handled.queue ∨ e.rxTime + p7Timeout < now
  old : ∀ p ∈ handled.swept, p.1.rxTime + p7Timeout < p.2

theorem swept_of_sameSecond {queue : List P7RxMessage} {sweepTime now : ℕ}
    {dispatched : Option (List UInt8)} (hnow : sweepTime ≤ now)
    (h : ∀ e ∈ queue, e.rxHrTime = time2TimeHr e.rxTime ∧ e.rxTime ≤ sweepTime ∧
      SameSecond e.rxTime sweepTime) : Swept queue now (sweep sweepTime queue dispatched) := by
  have hstale : ∀ e ∈ queue, e.Stale sweepTime → e.rxTime + p7Timeout < sweepTime := by
    intro e he hstale
    obtain ⟨htime, hle, hsecond⟩ := h e he
    by_contra hyoung
    rw [Stale, htime] at hstale
    exact time2TimeHr_sub hle (hsecond (by omega)) (by omega) hstale
  refine ⟨List.filter_sublist, fun e he => ?_, fun p hp => ?_⟩
  · by_cases hs : e.Stale sweepTime
    · exact .inr ((hstale e he hs).trans_le hnow)
    · exact .inl (List.mem_filter.2 ⟨he, by simpa using hs⟩)
  · obtain ⟨e, he, rfl⟩ := List.mem_map.1 hp
    rw [List.mem_filter] at he
    exact hstale e he.1 (by simpa using he.2)

/-! ## Arrivals -/

/-- What the handler does with a datagram before the sweep : a message is dispatched that was not
before, or the segment is put into the entry of its message. -/
inductive Arrived (cfg : P7Config) (s : P7Link) (d : P7Datagram) (msg : NrP7Message)
    (queue : List P7RxMessage) (dispatched : Option (List UInt8)) : Prop
  | whole (data : List UInt8) (hdispatched : dispatched = some data)
      (hlength : data.length = msg.len) (hbody : data.drop nfapiNrP7HeaderLength = msg.body)
      (honce : ¬s.Dispatched d.message) (hsub : ∀ e ∈ queue, e ∈ s.queue)
      (hother : ∀ e ∈ s.queue, e.sequenceNumber ≠ d.message % 16 → e ∈ queue)
  | part (e : P7RxMessage) (hdispatched : dispatched = none) (hseg : cfg.Segmented msg)
      (hholds : e.Holds cfg d.message msg) (hincomplete : ¬e.Complete cfg msg)
      (htime : e.rxTime = (collecting s.queue s.now (d.message % 16)).rxTime)
      (hsegments : e.segments = Function.update
        (collecting s.queue s.now (d.message % 16)).segments d.segment (some d.octets))
      (hmem : ∀ e', e' ∈ queue ↔ e' = e ∨ e' ∈ s.queue ∧ e'.sequenceNumber ≠ d.message % 16)

/-- An entry found by its sequence number is of the last message with it. -/
theorem Inv.entry_of_key (hs : Inv cfg s) (he : e ∈ s.queue) (hlast : s.Last i)
    (hi : s.sent[i]? = some msg) (hkey : e.sequenceNumber = i % 16) : Entry cfg s e i msg := by
  obtain ⟨j, msg', h⟩ := hs.queue e he
  obtain ⟨hj', -⟩ := List.getElem?_eq_some_iff.1 h.sent
  obtain ⟨hi', -⟩ := List.getElem?_eq_some_iff.1 hi
  obtain rfl : j = i := h.last.eq hlast hj' hi' (h.holds.sequenceNumber.symm.trans hkey)
  obtain rfl : msg' = msg := Option.some.inj (h.sent.symm.trans hi)
  exact h

/-- The entry that a segment is put into has segments of the same message. -/
theorem Inv.collecting_holds (hs : Inv cfg s) (hd : Underway cfg s d msg) :
    (collecting s.queue s.now (d.message % 16)).Holds cfg d.message msg := by
  rcases collecting_cases s.queue s.now (d.message % 16) with ⟨hmem, hkey⟩ | ⟨hblank, -⟩
  · exact (hs.entry_of_key hmem hd.last hd.sent hkey).holds
  · rw [hblank]
    exact holds_blank s.now

theorem now_le_sweepTime (cfg : P7Config) (now later : ℕ) :
    now ≤ sweepTime cfg now later ∧ sweepTime cfg now later ≤ now + later := by
  unfold sweepTime
  split_ifs <;> omega

/-- A segment that makes an entry complete completes one of the queue. -/
theorem completes_of_complete (hcomplete : e.Complete cfg msg) (hseg : cfg.Segmented msg)
    (hsegments : e.segments = Function.update
      (collecting s.queue s.now (d.message % 16)).segments d.segment (some d.octets)) :
    ∃ e' ∈ s.queue, Completes cfg msg d e' := by
  have hother : ∀ k < cfg.segments msg, k ≠ d.segment →
      ((collecting s.queue s.now (d.message % 16)).segments k).isSome := by
    intro k hk hne
    have h := hcomplete k hk
    rwa [hsegments, Function.update_of_ne hne] at h
  rcases collecting_cases s.queue s.now (d.message % 16) with ⟨hmem, hkey⟩ | ⟨hblank, -⟩
  · exact ⟨_, hmem, hkey, hother⟩
  · rw [hblank] at hother
    have htwo := P7Config.one_lt_segments hseg
    obtain ⟨k, hk, hne⟩ : ∃ k < cfg.segments msg, k ≠ d.segment := by
      by_cases hzero : d.segment = 0
      · exact ⟨1, htwo, by omega⟩
      · exact ⟨0, by omega, fun h => hzero h.symm⟩
    exact absurd (hother k hk hne) Bool.false_ne_true

/-- The entry with the new segment is not swept while it is young. -/
theorem sameSecond_part (hs : Inv cfg s) (hsound : SoundArrival cfg s msg d later)
    (hseg : cfg.Segmented msg) (hincomplete : ¬e.Complete cfg msg)
    (htime : e.rxTime = (collecting s.queue s.now (d.message % 16)).rxTime)
    (hsegments : e.segments = Function.update
      (collecting s.queue s.now (d.message % 16)).segments d.segment (some d.octets)) :
    e.rxTime ≤ s.now ∧ SameSecond e.rxTime (sweepTime cfg s.now later) := by
  rcases collecting_cases s.queue s.now (d.message % 16) with ⟨hmem, -⟩ | ⟨hblank, hnone⟩
  · obtain ⟨i, msg', hentry⟩ := hs.queue _ hmem
    rw [htime]
    refine ⟨hentry.rxTime_le, hsound.second (.inl hseg) _ hmem fun ⟨_, h⟩ =>
      hincomplete fun k hk => ?_⟩
    rw [hsegments]
    by_cases hkd : k = d.segment
    · rw [hkd, Function.update_self]
      rfl
    · rw [Function.update_of_ne hkd]
      exact h.2 k hk hkd
  · rw [htime, hblank]
    exact ⟨le_rfl, hsound.secondNew hseg hnone⟩

/-- A sound arrival is handled. -/
theorem Inv.handle (hs : Inv cfg s) (hd : Underway cfg s d msg)
    (hsound : SoundArrival cfg s msg d later) :
    ∃ handled queue, handleFor cfg s.queue d.octets s.now later = some handled ∧
      (queue.map P7RxMessage.sequenceNumber).Nodup ∧ Swept queue (s.now + later) handled ∧
      Arrived cfg s d msg queue handled.dispatched := by
  obtain ⟨hnow, hlater⟩ := now_le_sweepTime cfg s.now later
  obtain ⟨hmessage, hfits⟩ := hs.sound msg (List.mem_of_getElem? hd.sent)
  have hentry : ∀ e ∈ s.queue, e.rxHrTime = time2TimeHr e.rxTime ∧ e.rxTime ≤ s.now := by
    intro e he
    obtain ⟨_, _, h⟩ := hs.queue e he
    exact ⟨h.holds.rxHrTime, h.rxTime_le⟩
  by_cases hseg : cfg.Segmented msg
  · obtain ⟨header, hunpack, hphy, hmore, hsegment, hsequence, hchecksum⟩ :=
      hd.isSegment.fields hmessage.segments_le hd.segment_lt
    have htwo := P7Config.one_lt_segments hseg
    have hpart : ¬header.Complete := by
      rintro ⟨hm, hk⟩
      rw [hmore] at hm
      rw [hsegment] at hk
      split_ifs at hm
      omega
    have hbound : msg.len < lengthBound cfg := by
      unfold lengthBound
      split_ifs with hvnf
      · exact hmessage.len_lt hvnf hseg
      · unfold P7Config.sendBufferSize at hfits
        split_ifs at hfits
        omega
    have hnew : (collecting s.queue s.now (d.message % 16)).segments d.segment = none := by
      rcases collecting_cases s.queue s.now (d.message % 16) with ⟨hmem, hkey⟩ | ⟨hblank, -⟩
      · exact hsound.fresh hseg _ hmem hkey
      · rw [hblank]
        rfl
    have hlength := hd.length_le
    obtain ⟨e, queue', dispatched, hadd, hkeys, hholds, htime, hsegments, hcase⟩ :=
      addAndDispatch_spec hs.keys hseg hmessage.segments_le hd.segment_lt
        (by unfold udpMaxLength at hlength; omega) hbound hd.isSegment hmore hsegment hsequence
        (hs.collecting_holds hd) hnew
    have hold : ∀ e' ∈ s.queue, e'.sequenceNumber ≠ d.message % 16 →
        SameSecond e'.rxTime (sweepTime cfg s.now later) := fun e' he' hne =>
      hsound.second (.inl hseg) e' he' fun h => hne h.2.1
    refine ⟨_, queue', (handle_segment hunpack hphy hchecksum hpart).trans
      (by rw [hadd, Option.map_some]), hkeys, ?_, ?_⟩
    · refine swept_of_sameSecond hlater fun e' he' => ?_
      rcases hcase with ⟨-, -, hmem⟩ | ⟨hincomplete, -, hmem⟩
      · obtain ⟨h, hne⟩ := (hmem e').1 he'
        exact ⟨(hentry e' h).1, (hentry e' h).2.trans hnow, hold e' h hne⟩
      · rcases (hmem e').1 he' with rfl | ⟨h, hne⟩
        · obtain ⟨hle, hsecond⟩ := sameSecond_part hs hsound hseg hincomplete htime hsegments
          exact ⟨hholds.rxHrTime, hle.trans hnow, hsecond⟩
        · exact ⟨(hentry e' h).1, (hentry e' h).2.trans hnow, hold e' h hne⟩
    · rcases hcase with ⟨hcomplete, ⟨whole, hsome, hlen, hbody⟩, hmem⟩ | ⟨hincomplete, hnone, hmem⟩
      · refine .whole whole hsome hlen hbody (fun hdisp => ?_) (fun e' h => ((hmem e').1 h).1)
          fun e' h hne => (hmem e').2 ⟨h, hne⟩
        obtain ⟨e', he', hcompletes⟩ := completes_of_complete hcomplete hseg hsegments
        exact (hsound.once hdisp).2 e' he' hcompletes
      · exact .part e hnone hseg hholds hincomplete htime hsegments hmem
  · have hcount : cfg.segments msg = 1 := if_neg hseg
    have hchunk : cfg.chunk msg 0 = msg.body := if_neg hseg
    have hzero : IsSegment cfg d.message msg 0 d.octets := by
      have h := hd.segment_lt
      rw [hcount, Nat.lt_one_iff] at h
      exact h ▸ hd.isSegment
    have harrived : Arrived cfg s d msg s.queue (some d.octets) :=
      .whole d.octets rfl (by rw [hzero.length, hchunk, NrP7Message.len]) (hzero.body.trans hchunk)
        (fun hdisp => hseg (hsound.once hdisp).1) (fun _ h => h) fun _ h _ => h
    refine ⟨_, s.queue, handle_whole hzero hseg, hs.keys, ?_, ?_⟩
    · split_ifs with hvnf
      · exact ⟨List.Sublist.refl _, fun e he => .inl he, by rintro _ ⟨⟩⟩
      · refine swept_of_sameSecond (Nat.le_add_right _ _) fun e he => ?_
        have hsecond := hsound.second (.inr (by simpa using hvnf)) e he fun h => hseg h.1
        rw [sweepTime, if_neg hvnf] at hsecond
        exact ⟨(hentry e he).1, (hentry e he).2, hsecond⟩
    · split_ifs
      · exact harrived
      · exact harrived

/-- What had arrived before, and the new segment. -/
theorem mem_arrivals_afterArrival {handled : P7Handled} {a : P7Arrival} :
    a ∈ (s.afterArrival d place later handled).arrivals ↔
      a ∈ s.arrivals ∨ a = ⟨d.message, d.segment, s.now⟩ :=
  List.mem_append.trans (or_congr_right List.mem_singleton)

theorem FirstArrival.afterArrival {t : ℕ} (h : s.FirstArrival i t) (handled : P7Handled)
    (ht : i = d.message → t ≤ s.now) : (s.afterArrival d place later handled).FirstArrival i t := by
  obtain ⟨a, ha, harrived⟩ := h.arrived
  refine ⟨⟨a, mem_arrivals_afterArrival.2 (.inl ha), harrived⟩, fun b hb hbi => ?_⟩
  rcases mem_arrivals_afterArrival.1 hb with hb | rfl
  · exact h.first b hb hbi
  · exact ht hbi.symm

theorem Late.afterArrival (h : Late cfg s i msg) (handled : P7Handled) :
    Late cfg (s.afterArrival d place later handled) i msg := by
  obtain ⟨t, hfirst, hnow, k, hk, hnot⟩ := h
  refine ⟨t, hfirst.afterArrival handled fun _ => by omega,
    hnow.trans_le (Nat.le_add_right _ _), k, hk, ?_⟩
  rintro ⟨a, ha, hai, hak, hat⟩
  rcases mem_arrivals_afterArrival.1 ha with ha | rfl
  · exact hnot ⟨a, ha, hai, hak, hat⟩
  · exact absurd hnow (Nat.not_lt.2 hat)

/-- An entry that gathers stays, or it is swept late. -/
theorem Gathers.or_late {s : P7Link} (h : Gathers cfg s i msg e) (hincomplete : ¬e.Complete cfg msg)
    (hmem : e ∈ s.queue ∨ e.rxTime + p7Timeout < s.now) :
    (∃ e ∈ s.queue, Gathers cfg s i msg e) ∨ Late cfg s i msg := by
  rcases hmem with hmem | hold
  · exact .inl ⟨e, hmem, h⟩
  · simp only [Complete, not_forall] at hincomplete
    obtain ⟨k, hk, hnone⟩ := hincomplete
    refine .inr ⟨e.rxTime, h.first, hold, k, hk, ?_⟩
    rintro ⟨a, ha, hai, hak, -⟩
    exact hnone ((h.segments k).2 ⟨a, ha, hai, hak⟩)

/-- The arrival of a segment of another message. -/
theorem Gathers.other (h : Gathers cfg s i msg e) (hne : i ≠ d.message) (handled : P7Handled) :
    Gathers cfg (s.afterArrival d place later handled) i msg e where
  last := h.last
  holds := h.holds
  first := h.first.afterArrival handled fun hi => absurd hi hne
  segments k := by
    rw [h.segments]
    refine ⟨fun ⟨a, ha, hai⟩ => ⟨a, mem_arrivals_afterArrival.2 (.inl ha), hai⟩, ?_⟩
    rintro ⟨a, ha, hai, hak⟩
    rcases mem_arrivals_afterArrival.1 ha with ha | rfl
    · exact ⟨a, ha, hai, hak⟩
    · exact absurd hai.symm hne

/-- The entry with a new segment gathers if the entry before it did, or if it is new and nothing of
the message had arrived. -/
theorem Gathers.part {e₀ : P7RxMessage} (hlast : s.Last d.message)
    (hholds : e.Holds cfg d.message msg) (htime : e.rxTime = e₀.rxTime)
    (hsegments : e.segments = Function.update e₀.segments d.segment (some d.octets))
    (hgathers : Gathers cfg s d.message msg e₀ ∧ e₀.rxTime ≤ s.now ∨
      e₀ = blank s.now (d.message % 16) ∧ ∀ a ∈ s.arrivals, a.message ≠ d.message)
    (handled : P7Handled) :
    Gathers cfg (s.afterArrival d place later handled) d.message msg e where
  last := hlast
  holds := hholds
  first := by
    rw [htime]
    rcases hgathers with ⟨h, hle⟩ | ⟨rfl, hnone⟩
    · exact h.first.afterArrival handled fun _ => hle
    · refine ⟨⟨_, mem_arrivals_afterArrival.2 (.inr rfl), rfl, rfl⟩, fun a ha hai => ?_⟩
      rcases mem_arrivals_afterArrival.1 ha with ha | rfl
      · exact absurd hai (hnone a ha)
      · exact le_rfl
  segments k := by
    have hbefore : (e₀.segments k).isSome ↔
        ∃ a ∈ s.arrivals, a.message = d.message ∧ a.segment = k := by
      rcases hgathers with ⟨h, -⟩ | ⟨rfl, hnone⟩
      · exact h.segments k
      · exact iff_of_false Bool.false_ne_true fun ⟨a, ha, hai, _⟩ => hnone a ha hai
    rw [hsegments]
    by_cases hk : k = d.segment
    · rw [hk, Function.update_self]
      exact iff_of_true rfl ⟨_, mem_arrivals_afterArrival.2 (.inr rfl), rfl, rfl⟩
    · rw [Function.update_of_ne hk, hbefore]
      refine ⟨fun ⟨a, ha, hai⟩ => ⟨a, mem_arrivals_afterArrival.2 (.inl ha), hai⟩, ?_⟩
      rintro ⟨a, ha, hai, hak⟩
      rcases mem_arrivals_afterArrival.1 ha with ha | rfl
      · exact ⟨a, ha, hai, hak⟩
      · exact absurd hak.symm hk

/-- The entries of the queue before the sweep. -/
theorem Inv.queue_arrived {queue : List P7RxMessage} {handled : P7Handled} (hs : Inv cfg s)
    (hd : Underway cfg s d msg) (ha : Arrived cfg s d msg queue handled.dispatched)
    (he : e ∈ queue) : ∃ i msg, Entry cfg (s.afterArrival d place later handled) e i msg := by
  have hold : ∀ e ∈ s.queue, ∃ i msg, Entry cfg (s.afterArrival d place later handled) e i msg := by
    intro e he
    obtain ⟨i, msg', h⟩ := hs.queue e he
    obtain ⟨a, ha, hai⟩ := h.arrived
    exact ⟨i, msg', h.sent, h.last, h.segmented, h.holds, h.incomplete,
      h.rxTime_le.trans (Nat.le_add_right _ _), a, mem_arrivals_afterArrival.2 (.inl ha), hai⟩
  cases ha with
  | whole data hdispatched hlength hbody honce hsub hother => exact hold e (hsub e he)
  | part e' hdispatched hseg hholds hincomplete htime hsegments hmem =>
    rcases (hmem e).1 he with rfl | ⟨he, -⟩
    · have hle : e.rxTime ≤ s.now := by
        rw [htime]
        rcases collecting_cases s.queue s.now (d.message % 16) with ⟨hmem, -⟩ | ⟨hblank, -⟩
        · obtain ⟨_, _, h⟩ := hs.queue _ hmem
          exact h.rxTime_le
        · rw [hblank]
          exact le_rfl
      exact ⟨d.message, msg, hd.sent, hd.last, hseg, hholds, hincomplete,
        hle.trans (Nat.le_add_right _ _), _, mem_arrivals_afterArrival.2 (.inr rfl), rfl⟩
    · exact hold e he

/-- What has become of the messages of which something arrived. -/
theorem Inv.collected_arrived {queue : List P7RxMessage} {handled : P7Handled} (hs : Inv cfg s)
    (hd : Underway cfg s d msg) (ha : Arrived cfg s d msg queue handled.dispatched)
    (hswept : Swept queue (s.now + later) handled) {j : ℕ} {msg' : NrP7Message}
    (hj : s.sent[j]? = some msg')
    (hnot : ¬(s.afterArrival d place later handled).Dispatched j)
    (harr : ∃ a ∈ (s.afterArrival d place later handled).arrivals, a.message = j) :
    (∃ e ∈ (s.afterArrival d place later handled).queue,
      Gathers cfg (s.afterArrival d place later handled) j msg' e) ∨
      Late cfg (s.afterArrival d place later handled) j msg' := by
  have hnot' : ¬s.Dispatched j := fun h => hnot (by
    rw [Dispatched, afterArrival, List.map_append]
    exact List.mem_append_left _ h)
  obtain ⟨hjlt, -⟩ := List.getElem?_eq_some_iff.1 hj
  obtain ⟨hdlt, -⟩ := List.getElem?_eq_some_iff.1 hd.sent
  have hearlier : (∃ a ∈ s.arrivals, a.message = j) →
      (∃ e ∈ s.queue, Gathers cfg s j msg' e) ∨ Late cfg s j msg' := hs.collected j msg' hj hnot'
  by_cases hjd : j = d.message
  · subst hjd
    obtain rfl : msg' = msg := Option.some.inj (hj.symm.trans hd.sent)
    cases ha with
    | whole data hdispatched hlength hbody honce hsub hother =>
      refine absurd ?_ hnot
      rw [Dispatched, afterArrival, hdispatched, List.map_append]
      exact List.mem_append_right _ List.mem_cons_self
    | part e hdispatched hseg hholds hincomplete htime hsegments hmem =>
      have hgather : Gathers cfg s d.message msg' (collecting s.queue s.now (d.message % 16)) ∧
            (collecting s.queue s.now (d.message % 16)).rxTime ≤ s.now ∨
          collecting s.queue s.now (d.message % 16) = blank s.now (d.message % 16) ∧
            (∀ a ∈ s.arrivals, a.message ≠ d.message) ∨ Late cfg s d.message msg' := by
        rcases collecting_cases s.queue s.now (d.message % 16) with ⟨hin, hkey⟩ | ⟨hblank, hno⟩
        · have hentry := hs.entry_of_key hin hd.last hj hkey
          rcases hearlier hentry.arrived with ⟨e₀, he₀, hg⟩ | hlate
          · have hfind := Keyed.find_of_mem hs.keys he₀
            rw [hg.holds.sequenceNumber] at hfind
            have heq : collecting s.queue s.now (d.message % 16) = e₀ := by
              rw [collecting, hfind, Option.getD_some]
            rw [heq] at hentry ⊢
            exact .inl ⟨hg, hentry.rxTime_le⟩
          · exact .inr (.inr hlate)
        · by_cases harr : ∃ a ∈ s.arrivals, a.message = d.message
          · rcases hearlier harr with ⟨e₀, he₀, hg⟩ | hlate
            · exact absurd hg.holds.sequenceNumber (hno e₀ he₀)
            · exact .inr (.inr hlate)
          · exact .inr (.inl ⟨hblank, fun a ha hai => harr ⟨a, ha, hai⟩⟩)
      have hgo : ∀ h, (∃ e ∈ (s.afterArrival d place later handled).queue,
          Gathers cfg (s.afterArrival d place later handled) d.message msg' e) ∨
          Late cfg (s.afterArrival d place later handled) d.message msg' := fun h =>
        (Gathers.part hd.last hholds htime hsegments h handled).or_late hincomplete
          (hswept.removed e ((hmem e).2 (.inl rfl)))
      rcases hgather with h | h | hlate
      · exact hgo (.inl h)
      · exact hgo (.inr h)
      · exact .inr (hlate.afterArrival handled)
  · have harr' : ∃ a ∈ s.arrivals, a.message = j := by
      obtain ⟨a, ha, hai⟩ := harr
      rcases mem_arrivals_afterArrival.1 ha with ha | rfl
      · exact ⟨a, ha, hai⟩
      · exact absurd hai.symm hjd
    rcases hearlier harr' with ⟨e, he, hg⟩ | hlate
    · have hentry := hs.entry_of_key he hg.last hj hg.holds.sequenceNumber
      have hkey : e.sequenceNumber ≠ d.message % 16 := fun h =>
        hjd (hg.last.eq hd.last hjlt hdlt (hg.holds.sequenceNumber.symm.trans h))
      have hin : e ∈ queue := by
        cases ha with
        | whole data hdispatched hlength hbody honce hsub hother => exact hother e he hkey
        | part e' hdispatched hseg hholds hincomplete htime hsegments hmem =>
          exact (hmem e).2 (.inr ⟨he, hkey⟩)
      exact (hg.other hjd handled).or_late hentry.incomplete (hswept.removed e hin)
    · exact .inr (hlate.afterArrival handled)

/-- An arrival keeps the invariant. -/
theorem Inv.afterArrival {queue : List P7RxMessage} {handled : P7Handled} (hs : Inv cfg s)
    (hd : Underway cfg s d msg) (ha : Arrived cfg s d msg queue handled.dispatched)
    (hkeys : (queue.map P7RxMessage.sequenceNumber).Nodup)
    (hswept : Swept queue (s.now + later) handled) :
    Inv cfg (s.afterArrival d place later handled) where
  sequenceNumber := hs.sequenceNumber
  sound := hs.sound
  wire d' hd' := by
    obtain ⟨msg', h⟩ := hs.wire d' (List.mem_of_mem_eraseIdx hd')
    exact ⟨msg', h.sent, h.last, h.segment_lt, h.length_le, h.isSegment⟩
  keys := hkeys.sublist (hswept.sublist.map _)
  queue e he := hs.queue_arrived hd ha (hswept.sublist.subset he)
  whole p hp := by
    rcases List.mem_append.1 hp with hp | hp
    · exact hs.whole p hp
    · cases ha with
      | whole data hdispatched hlength hbody honce hsub hother =>
        rw [hdispatched] at hp
        obtain rfl := List.mem_singleton.1 hp
        exact ⟨msg, hd.sent, hlength, hbody⟩
      | part e hdispatched hseg hholds hincomplete htime hsegments hmem =>
        rw [hdispatched] at hp
        cases hp
  once := by
    rw [P7Link.afterArrival, List.map_append]
    cases ha with
    | whole data hdispatched hlength hbody honce hsub hother =>
      rw [hdispatched]
      refine List.nodup_append.2 ⟨hs.once, List.nodup_singleton _, fun i hi j hj h => honce ?_⟩
      obtain rfl : j = d.message := List.mem_singleton.1 hj
      exact h ▸ hi
    | part e hdispatched hseg hholds hincomplete htime hsegments hmem =>
      rw [hdispatched]
      exact (List.append_nil _).symm ▸ hs.once
  arrivals a ha := by
    rcases mem_arrivals_afterArrival.1 ha with ha | rfl
    · exact ⟨(hs.arrivals a ha).1.trans (Nat.le_add_right _ _), (hs.arrivals a ha).2⟩
    · exact ⟨Nat.le_add_right _ _, (List.getElem?_eq_some_iff.1 hd.sent).1⟩
  collected _ _ hj hnot harr := hs.collected_arrived hd ha hswept hj hnot harr
  old p hp := by
    rcases List.mem_append.1 hp with hp | hp
    · exact hs.old p hp
    · exact hswept.old p hp

/-! ## Sending -/

/-- The sender puts the datagrams of a sound message on the wire. -/
theorem packAndSendFor_spec (hmsg : SoundMessage cfg msg) (transmitTimestamp : ℕ → UInt32)
    (sequenceNumber : ℕ) : ∃ datagrams,
      packAndSendFor cfg transmitTimestamp sequenceNumber msg = some datagrams ∧
        datagrams.length = cfg.segments msg ∧
        AreSegments cfg sequenceNumber msg 0 datagrams := by
  rw [packAndSendFor]
  split_ifs
  · exact packAndSend_spec hmsg.checksum none
  · exact packAndSend_spec hmsg.checksum (some transmitTimestamp)

/-- The state after a message was sent. -/
theorem Inv.send {datagrams : List (List UInt8)} (hs : Inv cfg s) (hmsg : SoundMessage cfg msg)
    (hfits : msg.len ≤ cfg.sendBufferSize)
    (hwire : ∀ d ∈ s.wire, d.message % 16 ≠ s.sent.length % 16)
    (hqueue : ∀ e ∈ s.queue, e.sequenceNumber ≠ s.sent.length % 16)
    (hlength : datagrams.length = cfg.segments msg)
    (hare : AreSegments cfg s.sequenceNumber msg 0 datagrams) :
    Inv cfg { s with
      sequenceNumber := (s.sequenceNumber + 1) % 2 ^ 32
      sent := s.sent ++ [msg]
      wire := s.wire ++ putOnWire s.sent.length datagrams } := by
  have hkeep : ∀ {i : ℕ} {msg' : NrP7Message}, s.sent[i]? = some msg' →
      (s.sent ++ [msg])[i]? = some msg' := fun hi =>
    (List.getElem?_append_left (List.getElem?_eq_some_iff.1 hi).1).trans hi
  have hlast : ∀ {i : ℕ}, s.Last i → i % 16 ≠ s.sent.length % 16 →
      ∀ j < (s.sent ++ [msg]).length, i < j → j % 16 ≠ i % 16 := by
    intro i hi hne j hj hij
    rw [List.length_append, List.length_singleton] at hj
    rcases Nat.lt_succ_iff_lt_or_eq.1 hj with hj | rfl
    · exact hi j hj hij
    · exact hne.symm
  have hold : ∀ i msg', (s.sent ++ [msg])[i]? = some msg' → i < s.sent.length →
      s.sent[i]? = some msg' := fun i msg' h hi =>
    (List.getElem?_append_left hi).symm.trans h
  exact {
    sequenceNumber := by
      have h := hs.sequenceNumber
      change (s.sequenceNumber + 1) % 2 ^ 32 = (s.sent ++ [msg]).length % 2 ^ 32
      rw [List.length_append, List.length_singleton]
      omega
    sound := fun msg' hmem => by
      rcases List.mem_append.1 hmem with hmem | hmem
      · exact hs.sound msg' hmem
      · obtain rfl := List.mem_singleton.1 hmem
        exact ⟨hmsg, hfits⟩
    wire := fun d hd => by
      rcases List.mem_append.1 hd with hd | hd
      · obtain ⟨msg', h⟩ := hs.wire d hd
        exact ⟨msg', hkeep h.sent, hlast h.last (hwire d hd), h.segment_lt, h.length_le,
          h.isSegment⟩
      · rw [putOnWire, List.mem_filter] at hd
        obtain ⟨⟨datagram, k⟩, hk, rfl⟩ := List.mem_map.1 hd.1
        have hget := List.mem_zipIdx_iff_getElem?.1 hk
        obtain ⟨hk', -⟩ := List.getElem?_eq_some_iff.1 hget
        have hseg := hare.get hget
        rw [Nat.zero_add] at hseg
        refine ⟨msg, List.getElem?_concat_length, fun j hj hij => ?_, hlength ▸ hk',
          by simpa using hd.2, hseg.congr ?_⟩
        · change j < (s.sent ++ [msg]).length at hj
          rw [List.length_append, List.length_singleton] at hj
          exact absurd hij (by change ¬s.sent.length < j; omega)
        · have h := hs.sequenceNumber
          change s.sequenceNumber % 16 = s.sent.length % 16
          omega
    keys := hs.keys
    queue := fun e he => by
      obtain ⟨i, msg', h⟩ := hs.queue e he
      exact ⟨i, msg', hkeep h.sent, hlast h.last (h.holds.sequenceNumber ▸ hqueue e he),
        h.segmented, h.holds, h.incomplete, h.rxTime_le, h.arrived⟩
    whole := fun p hp => by
      obtain ⟨msg', h, hrest⟩ := hs.whole p hp
      exact ⟨msg', hkeep h, hrest⟩
    once := hs.once
    arrivals := fun a ha => by
      refine ⟨(hs.arrivals a ha).1, (hs.arrivals a ha).2.trans_le ?_⟩
      change _ ≤ (s.sent ++ [msg]).length
      rw [List.length_append]
      omega
    collected := fun i msg' hi hnot harr => by
      have hlt : i < s.sent.length := by
        obtain ⟨a, ha, rfl⟩ := harr
        exact (hs.arrivals a ha).2
      rcases hs.collected i msg' (hold i msg' hi hlt) hnot harr with ⟨e, he, hg⟩ | hlate
      · refine .inl ⟨e, he, hlast hg.last ?_, hg.holds, ⟨hg.first.1, hg.first.2⟩, hg.segments⟩
        exact hg.holds.sequenceNumber ▸ hqueue e he
      · obtain ⟨t, hfirst, hnow, k, hk, hby⟩ := hlate
        exact .inr ⟨t, ⟨hfirst.1, hfirst.2⟩, hnow, k, hk, hby⟩
    old := hs.old }

/-! ## Runs -/

/-- The invariant where only the wire and the clock have changed. -/
theorem Inv.of_wire {wire : List P7Datagram} {now : ℕ} (hs : Inv cfg s)
    (hwire : ∀ d ∈ wire, d ∈ s.wire) (hnow : s.now ≤ now) :
    Inv cfg { s with wire := wire, now := now } where
  sequenceNumber := hs.sequenceNumber
  sound := hs.sound
  wire d hd := by
    obtain ⟨msg, h⟩ := hs.wire d (hwire d hd)
    exact ⟨msg, h.sent, h.last, h.segment_lt, h.length_le, h.isSegment⟩
  keys := hs.keys
  queue e he := by
    obtain ⟨i, msg, h⟩ := hs.queue e he
    exact ⟨i, msg, h.sent, h.last, h.segmented, h.holds, h.incomplete, h.rxTime_le.trans hnow,
      h.arrived⟩
  whole := hs.whole
  once := hs.once
  arrivals a ha := ⟨(hs.arrivals a ha).1.trans hnow, (hs.arrivals a ha).2⟩
  collected i msg hi hnot harr := by
    rcases hs.collected i msg hi hnot harr with ⟨e, he, hg⟩ | ⟨t, hfirst, hlate, k, hk, hby⟩
    · exact .inl ⟨e, he, hg.last, hg.holds, ⟨hg.first.1, hg.first.2⟩, hg.segments⟩
    · exact .inr ⟨t, ⟨hfirst.1, hfirst.2⟩, hlate.trans_le hnow, k, hk, hby⟩
  old := hs.old

/-- A sound step is defined and keeps the invariant. -/
theorem Inv.step {event : P7Event} (hs : Inv cfg s) (hdistinct : s.DistinctInFlight event)
    (hsound : Sound cfg s event) : ∃ s', P7Link.step cfg s event = some s' ∧ Inv cfg s' := by
  cases event with
  | send msg transmitTimestamp =>
    rw [P7Link.step]
    split_ifs with hfits
    · obtain ⟨datagrams, hsend, hlength, hare⟩ :=
        packAndSendFor_spec (hsound hfits) transmitTimestamp s.sequenceNumber
      exact ⟨_, by rw [hsend, Option.map_some],
        hs.send (hsound hfits) hfits hdistinct.1 hdistinct.2 hlength hare⟩
    · exact ⟨s, rfl, hs⟩
  | arrive place later =>
    simp only [P7Link.step]
    cases hplace : s.wire[place]? with
    | none => exact ⟨s, rfl, hs⟩
    | some d =>
      obtain ⟨msg, hd⟩ := hs.wire d (List.mem_of_getElem? hplace)
      obtain ⟨handled, queue, hhandle, hkeys, hswept, harrived⟩ :=
        hs.handle hd (hsound d hplace msg hd.sent)
      exact ⟨s.afterArrival d place later handled, by simp only [hhandle, Option.map_some],
        hs.afterArrival hd harrived hkeys hswept⟩
  | duplicate place =>
    refine ⟨_, rfl, hs.of_wire (fun d hd => ?_) le_rfl⟩
    rcases List.mem_append.1 hd with hd | hd
    · exact hd
    · exact List.mem_of_getElem? (Option.mem_toList.1 hd)
  | lose place => exact ⟨_, rfl, hs.of_wire (fun d hd => List.mem_of_mem_eraseIdx hd) le_rfl⟩
  | tick delay => exact ⟨_, rfl, hs.of_wire (fun d hd => hd) (Nat.le_add_right _ _)⟩

/-- The invariant is enough. -/
theorem Inv.correct (hs : Inv cfg s) : Correct cfg s where
  whole := hs.whole
  once := hs.once
  complete i msg t hi hfirst hall := by
    by_contra hnot
    obtain ⟨a, ha, hai, -⟩ := hfirst.arrived
    rcases hs.collected i msg hi hnot ⟨a, ha, hai⟩ with ⟨e, he, hg⟩ | ⟨t', hfirst', -, k, hk, hby⟩
    · have hentry := hs.entry_of_key he hg.last hi hg.holds.sequenceNumber
      refine hentry.incomplete fun k hk => (hg.segments k).2 ?_
      obtain ⟨b, hb, hbi, hbk, -⟩ := hall k hk
      exact ⟨b, hb, hbi, hbk⟩
    · obtain ⟨b, hb, hbi, hbt⟩ := hfirst'.arrived
      have ht : t = t' := by
        have h := hfirst.first b hb hbi
        obtain ⟨c, hc, hci, hct⟩ := hfirst.arrived
        have h' := hfirst'.first c hc hci
        omega
      exact hby (ht ▸ hall k hk)
  inArray e he k hk := by
    obtain ⟨i, msg, h⟩ := hs.queue e he
    obtain ⟨data, hdata⟩ := Option.ne_none_iff_exists'.1 hk
    exact (h.holds.segments k data hdata).1.trans_le
      (hs.sound msg (List.mem_of_getElem? h.sent)).1.segments_le
  old := hs.old
  defined event hdistinct hsound := by
    obtain ⟨s', hs', -⟩ := hs.step hdistinct hsound
    exact Option.isSome_iff_exists.2 ⟨s', hs'⟩

/-- In every run of messages with distinct sequence numbers in flight whose steps are sound, the
connection does what it is for. -/
theorem correct_of_sound (cfg : P7Config) (now : ℕ) (events : List P7Event)
    (hdistinct : AllSteps (P7Link.step cfg) DistinctInFlight (init now) events)
    (hsound : AllSteps (P7Link.step cfg) (Sound cfg) (init now) events) :
    AllStates (P7Link.step cfg) (Correct cfg) (init now) events := by
  refine (hdistinct.and hsound).allStates (fun _ hs => Inv.correct hs)
    (fun s event s' hs hstep h => ?_)
    (inv_init cfg now)
  obtain ⟨s'', hs'', hinv⟩ := hs.step h.1 h.2
  obtain rfl := Option.some.inj (hstep.symm.trans hs'')
  exact hinv

/-- A PNF that sends one octet of the body in a datagram. -/
def oneOctetConfig : P7Config where
  toVnf := true
  phyId := 1
  segmentSize := 19
  headerLength_lt := by decide
  checksumEnabled := true
  crc32 := fun crc octets => octets.foldl (fun crc octet => crc * 31 + octet.toUInt32) crc

/-- A message in two segments. -/
def twoOctets : NrP7Message :=
  ⟨0x83, 0, [1, 2]⟩

/-- The segments of a message come in the other order. -/
theorem correct_of_sound_reordered :
    AllStates (P7Link.step oneOctetConfig) (Correct oneOctetConfig) (init 0)
      [.send twoOctets fun _ => 0, .arrive 1 20, .arrive 0 30] :=
  correct_of_sound oneOctetConfig 0 _ (allSteps_of_checked (by decide +kernel))
    (allSteps_of_checked (by decide +kernel))

/-- A segment that arrives a microsecond before a second is over is swept two microseconds later. -/
theorem p7_link_not_correct :
    ¬∀ (cfg : P7Config) (now : ℕ) (events : List P7Event),
      AllSteps (P7Link.step cfg) DistinctInFlight (init now) events →
        AllStates (P7Link.step cfg) (Correct cfg) (init now) events := by
  intro h
  have hall := h oneOctetConfig 999999 [.send twoOctets fun _ => 0, .arrive 0 2]
    (allSteps_of_checked (by decide +kernel))
  have hrun : ([.send twoOctets fun _ => 0, .arrive 0 2].foldlM (P7Link.step oneOctetConfig)
      (init 999999)).any fun s =>
        decide (∃ p ∈ s.swept, ¬p.1.rxTime + p7Timeout < p.2) := by decide +kernel
  obtain ⟨s, hs, hswept⟩ := (Option.any_eq_true _ _).1 hrun
  obtain ⟨p, hp, hyoung⟩ := of_decide_eq_true hswept
  exact hyoung ((hall.last hs).old p hp)

end P7Link

end NrStack
