import NrStack.Flexric.IndEvent
import Mathlib.Data.Nat.Digits.Defs

/-!
# The aperiodic indications of an E2 agent

A thread that calls `e2_async_event_agent` pushes an item on the queue `aind`, and then writes
the text of its request id into a pipe. The event loop waits on the pipe, edge triggered. On an
event it pops as many items as the queue holds, and makes one read of 4 bytes for each.

`aindSafe_iff` : the two channels agree on every run exactly where every request id has four
digits. A shorter text leaves an item behind or makes a read return one byte, a longer one
leaves bytes behind.
-/

namespace NrStack

variable {σ : Type}

/-! ## The agent -/

/-- `aind_event_t` : `indData` is a pointer. -/
structure AindEvent (σ : Type) where
  ricId : RicGenId
  sm : Option σ
  actionId : Nat
  indData : Nat

/-- The item that a call pushes, for the subscription `indEv` it has found. -/
def IndEvent.aindEvent (indEv : IndEvent σ) (indData : Nat) : AindEvent σ where
  ricId := indEv.ricId
  sm := indEv.sm
  actionId := indEv.actionId
  indData := indData

/-- `snprintf(str, num_char, "%u", ric_req_id)` -/
def ricReqIdText (ricReqId : Nat) : List Char :=
  Nat.toDigits 10 ricReqId

/-- Where the event loop is. -/
inductive AindLoop (σ : Type) where
  /-- In `epoll_wait`, or in a branch that leaves the pipe and the queue alone. -/
  | wait
  /-- `epoll_wait` has returned the pipe, and `aind_event` is about to take the size. -/
  | ready
  /-- The loop of `aind_event`, with `left` items to pop. -/
  | pop (left : Nat) (arr : List (AindEvent σ))
  /-- The loop of the aperiodic branch, with the items that it has not handled yet. -/
  | consume (arr : List (AindEvent σ))

/-- The queue, the pipe, the ids of the calls that have pushed and not yet written, whether
`epoll` has an event of the pipe to report, and the loop. -/
structure AindState (σ : Type) where
  aind : List (AindEvent σ)
  pipe : List Char
  calls : Multiset Nat
  edge : Bool
  loop : AindLoop σ

/-- The assertions of the aperiodic branch. -/
inductive AindFail where
  /-- "Aperiodic Event detected but the queue is empty!" -/
  | emptyQueue
  /-- "trying to pop from a void queue" -/
  | voidQueue
  /-- "No bytes in the pipe but message in the queue!" -/
  | noBytes

/-- The atomic steps : the two of a call, and those of the loop. -/
inductive AindAct (σ : Type) where
  | push (indEv : IndEvent σ) (indData : Nat)
  | write (ricReqId : Nat)
  | event
  | size
  | pop
  | popped
  | read
  | consumed

namespace AindState

def init : AindState σ where
  aind := []
  pipe := []
  calls := 0
  edge := false
  loop := .wait

/-- One step of a thread : `none` when it cannot be taken, as a read of an empty pipe, which
blocks. A write sets the edge and a report clears it. -/
def step (s : AindState σ) : AindAct σ → Option (Except AindFail (AindState σ))
  | .push indEv indData =>
    some (.ok { s with aind := s.aind ++ [indEv.aindEvent indData]
                       calls := indEv.ricId.ricReqId ::ₘ s.calls })
  | .write ricReqId =>
    if ricReqId ∈ s.calls then
      some (.ok { s with pipe := s.pipe ++ ricReqIdText ricReqId
                         calls := s.calls.erase ricReqId
                         edge := true })
    else none
  | .event =>
    match s.loop with
    | .wait =>
      if s.edge = true ∧ s.pipe ≠ [] then some (.ok { s with edge := false, loop := .ready })
      else none
    | _ => none
  | .size =>
    match s.loop with
    | .ready =>
      if s.aind.length = 0 then some (.error .emptyQueue)
      else some (.ok { s with loop := .pop s.aind.length [] })
    | _ => none
  | .pop =>
    match s.loop with
    | .pop (left + 1) arr =>
      match s.aind with
      | [] => some (.error .voidQueue)
      | ev :: aind => some (.ok { s with aind := aind, loop := .pop left (arr ++ [ev]) })
    | _ => none
  | .popped =>
    match s.loop with
    | .pop 0 arr => some (.ok { s with loop := .consume arr })
    | _ => none
  | .read =>
    match s.loop with
    | .consume (_ :: arr) =>
      -- `consume_fd_async` : the read returns what the pipe has, 4 bytes at most
      if s.pipe = [] then none
      else if (s.pipe.take 4).length = 1 then some (.error .noBytes)
      else some (.ok { s with pipe := s.pipe.drop 4, loop := .consume arr })
    | _ => none
  | .consumed =>
    match s.loop with
    | .consume [] => some (.ok { s with loop := .wait })
    | _ => none

/-- The loop waits, and `epoll` has nothing to report. -/
def Idle (s : AindState σ) : Prop :=
  s.loop = .wait ∧ ¬ (s.edge = true ∧ s.pipe ≠ [])

end AindState

/-- The calls are for ids of `ids`. -/
def AindAct.CallsIn (ids : Set Nat) : AindAct σ → Prop
  | .push indEv _ => indEv.ricId.ricReqId ∈ ids
  | _ => True

/-- The runs of any number of calls for ids of `ids`, interleaved with the loop. -/
inductive AindRun (ids : Set Nat) : AindState σ → Prop
  | init : AindRun ids .init
  | next {s s' : AindState σ} {a : AindAct σ} : AindRun ids s → a.CallsIn ids →
      s.step a = some (.ok s') → AindRun ids s'

/-- No assertion of the branch fails, and when no call is in progress and the loop is idle,
the queue and the pipe are empty. -/
def AindSafe (σ : Type) (ids : Set Nat) : Prop :=
  ∀ s : AindState σ, AindRun ids s →
    (∀ a fail, a.CallsIn ids → s.step a ≠ some (.error fail)) ∧
    (s.calls = 0 → s.Idle → s.aind = [] ∧ s.pipe = [])

variable {s s' : AindState σ} {a : AindAct σ} {ids : Set Nat} {ricReqId : Nat}

/-! ## Steps -/

/-- What a step can do. -/
inductive AindTrans (s : AindState σ) : AindAct σ → Except AindFail (AindState σ) → Prop
  | push (indEv : IndEvent σ) (indData : Nat) : AindTrans s (.push indEv indData)
      (.ok { s with aind := s.aind ++ [indEv.aindEvent indData]
                    calls := indEv.ricId.ricReqId ::ₘ s.calls })
  | write {id : Nat} (hmem : id ∈ s.calls) : AindTrans s (.write id)
      (.ok { s with pipe := s.pipe ++ ricReqIdText id, calls := s.calls.erase id, edge := true })
  | event (hl : s.loop = .wait) (he : s.edge = true) (hne : s.pipe ≠ []) :
      AindTrans s .event (.ok { s with edge := false, loop := .ready })
  | size (hl : s.loop = .ready) (hq : s.aind ≠ []) :
      AindTrans s .size (.ok { s with loop := .pop s.aind.length [] })
  | emptyQueue (hl : s.loop = .ready) (hq : s.aind = []) :
      AindTrans s .size (.error .emptyQueue)
  | pop {left : Nat} {arr aind : List (AindEvent σ)} {ev : AindEvent σ}
      (hl : s.loop = .pop (left + 1) arr) (hq : s.aind = ev :: aind) :
      AindTrans s .pop (.ok { s with aind := aind, loop := .pop left (arr ++ [ev]) })
  | voidQueue {left : Nat} {arr : List (AindEvent σ)} (hl : s.loop = .pop (left + 1) arr)
      (hq : s.aind = []) : AindTrans s .pop (.error .voidQueue)
  | popped {arr : List (AindEvent σ)} (hl : s.loop = .pop 0 arr) :
      AindTrans s .popped (.ok { s with loop := .consume arr })
  | read {ev : AindEvent σ} {arr : List (AindEvent σ)} (hl : s.loop = .consume (ev :: arr))
      (hne : s.pipe ≠ []) (hone : (s.pipe.take 4).length ≠ 1) :
      AindTrans s .read (.ok { s with pipe := s.pipe.drop 4, loop := .consume arr })
  | noBytes {ev : AindEvent σ} {arr : List (AindEvent σ)} (hl : s.loop = .consume (ev :: arr))
      (hne : s.pipe ≠ []) (hone : (s.pipe.take 4).length = 1) :
      AindTrans s .read (.error .noBytes)
  | consumed (hl : s.loop = .consume []) :
      AindTrans s .consumed (.ok { s with loop := .wait })

theorem AindState.step_trans {r : Except AindFail (AindState σ)} (hs : s.step a = some r) :
    AindTrans s a r := by
  cases a with
  | push indEv indData =>
    obtain rfl := Option.some.inj hs
    exact .push indEv indData
  | write id =>
    simp only [AindState.step] at hs
    split_ifs at hs with hmem
    obtain rfl := Option.some.inj hs
    exact .write hmem
  | event =>
    simp only [AindState.step] at hs
    split at hs
    · split_ifs at hs with hev
      obtain rfl := Option.some.inj hs
      exact .event ‹_› hev.1 hev.2
    · cases hs
  | size =>
    simp only [AindState.step] at hs
    split at hs
    · split_ifs at hs with hlen
      · obtain rfl := Option.some.inj hs
        exact .emptyQueue ‹_› (List.length_eq_zero_iff.mp hlen)
      · obtain rfl := Option.some.inj hs
        exact .size ‹_› fun hq => hlen (List.length_eq_zero_iff.mpr hq)
    · cases hs
  | pop =>
    simp only [AindState.step] at hs
    split at hs
    · split at hs
      · obtain rfl := Option.some.inj hs
        exact .voidQueue ‹_› ‹_›
      · obtain rfl := Option.some.inj hs
        exact .pop ‹_› ‹_›
    · cases hs
  | popped =>
    simp only [AindState.step] at hs
    split at hs
    · obtain rfl := Option.some.inj hs
      exact .popped ‹_›
    · cases hs
  | read =>
    simp only [AindState.step] at hs
    split at hs
    · split_ifs at hs with hnil hone
      · obtain rfl := Option.some.inj hs
        exact .noBytes ‹_› hnil hone
      · obtain rfl := Option.some.inj hs
        exact .read ‹_› hnil hone
    · cases hs
  | consumed =>
    simp only [AindState.step] at hs
    split at hs
    · obtain rfl := Option.some.inj hs
      exact .consumed ‹_›
    · cases hs

/-! ## Ids of four digits -/

theorem ricReqIdText_length_eq_four :
    (ricReqIdText ricReqId).length = 4 ↔ 1000 ≤ ricReqId ∧ ricReqId ≤ 9999 := by
  have h₄ : (ricReqIdText ricReqId).length ≤ 4 ↔ ricReqId < 10 ^ 4 :=
    Nat.length_toDigits_le_iff (by decide) (by decide)
  have h₃ : (ricReqIdText ricReqId).length ≤ 3 ↔ ricReqId < 10 ^ 3 :=
    Nat.length_toDigits_le_iff (by decide) (by decide)
  omega

/-- The items the loop has taken from the queue and not yet read the bytes of. -/
def AindLoop.held : AindLoop σ → Nat
  | .pop _ arr => arr.length
  | .consume arr => arr.length
  | _ => 0

/-- The items that the loop handles before it waits again. -/
def AindLoop.batch (queued : Nat) : AindLoop σ → Nat
  | .wait => 0
  | .ready => queued
  | .pop left arr => left + arr.length
  | .consume arr => arr.length

/-- Every item that has left its call with its bytes has four of them in the pipe. Without an
event to report the current batch covers the pipe. -/
structure AindInv (s : AindState σ) : Prop where
  text : ∀ id ∈ s.calls, (ricReqIdText id).length = 4
  bytes : s.pipe.length + 4 * s.calls.card = 4 * (s.aind.length + s.loop.held)
  edge : s.edge = false → s.pipe.length ≤ 4 * s.loop.batch s.aind.length
  ready : s.loop = .ready → s.aind ≠ []
  left : ∀ left arr, s.loop = .pop left arr → left ≤ s.aind.length

theorem aindInv_init : AindInv (.init : AindState σ) where
  text := by simp [AindState.init]
  bytes := rfl
  edge _ := Nat.zero_le _
  ready h := nomatch h
  left _ _ h := nomatch h

theorem AindInv.step (h : AindInv s) (hid : ∀ id ∈ ids, (ricReqIdText id).length = 4)
    (ha : a.CallsIn ids) (hs : s.step a = some (.ok s')) : AindInv s' := by
  have hbytes := h.bytes
  have hedge := h.edge
  cases AindState.step_trans hs with
  | push indEv indData =>
    refine ⟨?_, ?_, fun he => (hedge he).trans ?_, fun _ => by simp, fun left arr hl => ?_⟩
    · intro id hmem
      rcases Multiset.mem_cons.mp hmem with rfl | hmem
      · exact hid _ ha
      · exact h.text id hmem
    · simp only [List.length_append, List.length_singleton, Multiset.card_cons]
      omega
    · simp only [List.length_append, List.length_singleton]
      cases s.loop <;> simp only [AindLoop.batch] <;> omega
    · have := h.left left arr hl
      simp only [List.length_append, List.length_singleton]
      omega
  | write hmem =>
    have hcard := Multiset.card_erase_add_one hmem
    have hfour := h.text _ hmem
    refine ⟨fun i hi => h.text i (Multiset.mem_of_mem_erase hi), ?_, fun he => (nomatch he), h.ready,
      h.left⟩
    simp only [List.length_append]
    omega
  | event hl _ hne =>
    have hpos := List.length_pos_of_ne_nil hne
    simp only [hl, AindLoop.held] at hbytes
    refine ⟨h.text, hbytes, fun _ => ?_, fun _ hnil => ?_, fun _ _ hl => nomatch hl⟩
    · simp only [AindLoop.batch]
      omega
    · rw [hnil, List.length_nil] at hbytes
      omega
  | size hl _ =>
    rw [hl] at hbytes hedge
    refine ⟨h.text, hbytes, hedge, fun hl => (nomatch hl), ?_⟩
    rintro left arr ⟨⟩
    exact le_rfl
  | pop hl hq =>
    simp only [hl, hq, AindLoop.held, AindLoop.batch, List.length_cons] at hbytes hedge
    refine ⟨h.text, ?_, fun he => (hedge he).trans ?_, fun hl => (nomatch hl), ?_⟩
    · simp only [AindLoop.held, List.length_append, List.length_singleton]
      omega
    · simp only [AindLoop.batch, List.length_append, List.length_singleton]
      omega
    · rintro left arr ⟨⟩
      have hleft := h.left _ _ hl
      rw [hq, List.length_cons] at hleft
      exact Nat.le_of_succ_le_succ hleft
  | popped hl =>
    simp only [hl, AindLoop.held, AindLoop.batch, zero_add] at hbytes hedge
    exact ⟨h.text, hbytes, hedge, fun hl => (nomatch hl), fun _ _ hl => nomatch hl⟩
  | read hl hne _ =>
    have hpos := List.length_pos_of_ne_nil hne
    simp only [hl, AindLoop.held, AindLoop.batch, List.length_cons] at hbytes hedge
    refine ⟨h.text, ?_, fun he => ?_, fun hl => (nomatch hl), fun _ _ hl => nomatch hl⟩
    · simp only [AindLoop.held, List.length_drop]
      omega
    · have := hedge he
      simp only [AindLoop.batch, List.length_drop]
      omega
  | consumed hl =>
    rw [hl] at hbytes hedge
    exact ⟨h.text, hbytes, hedge, fun hl => (nomatch hl), fun _ _ hl => nomatch hl⟩

theorem AindRun.inv (hid : ∀ id ∈ ids, (ricReqIdText id).length = 4) (h : AindRun ids s) :
    AindInv s := by
  induction h with
  | init => exact aindInv_init
  | next _ ha hs ih => exact ih.step hid ha hs

theorem AindInv.no_fail (h : AindInv s) (fail : AindFail) : s.step a ≠ some (.error fail) := by
  intro hs
  cases AindState.step_trans hs with
  | emptyQueue hl hq => exact h.ready hl hq
  | voidQueue hl hq =>
    have hleft := h.left _ _ hl
    rw [hq] at hleft
    exact Nat.not_succ_le_zero _ hleft
  | noBytes hl hne hone =>
    -- the pipe has a multiple of 4 bytes, so a read never returns 1
    have hbytes := h.bytes
    have hpos := List.length_pos_of_ne_nil hne
    rw [hl, AindLoop.held, List.length_cons] at hbytes
    rw [List.length_take] at hone
    omega

theorem AindInv.idle (h : AindInv s) (hcalls : s.calls = 0) (hidle : s.Idle) :
    s.aind = [] ∧ s.pipe = [] := by
  obtain ⟨hloop, hev⟩ := hidle
  have hpipe : s.pipe = [] := by
    by_contra hne
    have hedge := h.edge (Bool.eq_false_iff.mpr fun he => hev ⟨he, hne⟩)
    rw [hloop, AindLoop.batch, Nat.mul_zero, Nat.le_zero, List.length_eq_zero_iff] at hedge
    exact hne hedge
  have hbytes := h.bytes
  rw [hpipe, hcalls, hloop] at hbytes
  simp only [List.length_nil, Multiset.card_zero, AindLoop.held] at hbytes
  exact ⟨List.length_eq_zero_iff.mp (by omega), hpipe⟩

/-! ## Other ids -/

namespace AindRun

/-- A subscription for the id. -/
def indEventOf (σ : Type) (ricReqId : Nat) : IndEvent σ where
  ricId := ⟨ricReqId, 0, 0⟩
  sm := none
  actionId := 0
  type := .aperiodic

variable {aind arr : List (AindEvent σ)} {pipe : List Char} {calls : Multiset Nat} {edge : Bool}
  {loop : AindLoop σ} {ev : AindEvent σ}

/-- A call, with no step of another thread in between. -/
theorem call (h : AindRun ids ⟨aind, pipe, 0, edge, loop⟩) (hid : ricReqId ∈ ids) :
    AindRun ids ⟨aind ++ [(indEventOf σ ricReqId).aindEvent 0], pipe ++ ricReqIdText ricReqId, 0,
      true, loop⟩ := by
  have hpush := h.next (a := .push (indEventOf σ ricReqId) 0) hid rfl
  refine hpush.next (a := .write ricReqId) trivial ?_
  simp [AindState.step, indEventOf]

theorem popAll (h : AindRun ids ⟨aind, pipe, calls, edge, .pop aind.length arr⟩) :
    AindRun ids ⟨[], pipe, calls, edge, .consume (arr ++ aind)⟩ := by
  induction aind generalizing arr with
  | nil => exact h.next (a := .popped) trivial (by simp [AindState.step])
  | cons ev aind ih =>
    have hpop := ih (h.next (a := .pop) trivial rfl)
    rwa [List.append_assoc, List.singleton_append] at hpop

/-- The loop takes a batch, with no step of another thread in between. -/
theorem take (h : AindRun ids ⟨aind, pipe, calls, true, .wait⟩) (hpipe : pipe ≠ [])
    (haind : aind ≠ []) : AindRun ids ⟨[], pipe, calls, false, .consume aind⟩ := by
  have hevent : AindRun ids ⟨aind, pipe, calls, false, .ready⟩ :=
    h.next (a := .event) trivial (by simp [AindState.step, hpipe])
  have hsize : AindRun ids ⟨aind, pipe, calls, false, .pop aind.length []⟩ :=
    hevent.next (a := .size) trivial (by simp [AindState.step, haind])
  exact hsize.popAll

theorem read (h : AindRun ids ⟨aind, pipe, calls, edge, .consume (ev :: arr)⟩)
    (hpipe : pipe ≠ []) (hlen : pipe.length ≠ 1) :
    AindRun ids ⟨aind, pipe.drop 4, calls, edge, .consume arr⟩ := by
  have hone : (pipe.take 4).length ≠ 1 := by
    rw [List.length_take]
    omega
  exact h.next (a := .read) trivial (by simp only [AindState.step, hpipe, hone, ↓reduceIte])

theorem back (h : AindRun ids ⟨aind, pipe, calls, edge, .consume []⟩) :
    AindRun ids ⟨aind, pipe, calls, edge, .wait⟩ :=
  h.next (a := .consumed) trivial rfl

theorem not_safe_of_byte (h : AindRun ids ⟨aind, pipe, calls, edge, .consume (ev :: arr)⟩)
    (hlen : pipe.length = 1) : ¬ AindSafe σ ids := by
  intro hsafe
  have hne : pipe ≠ [] := by
    rintro rfl
    cases hlen
  exact (hsafe _ h).1 .read .noBytes trivial (by simp [AindState.step, hne, hlen])

theorem not_safe_of_idle (h : AindRun ids ⟨aind, pipe, 0, edge, .wait⟩)
    (hidle : edge = true → pipe = []) (hne : aind ≠ [] ∨ pipe ≠ []) : ¬ AindSafe σ ids := by
  intro hsafe
  obtain ⟨haind, hpipe⟩ := (hsafe _ h).2 rfl ⟨rfl, fun hev => hev.2 (hidle hev.1)⟩
  rcases hne with hne | hne
  · exact hne haind
  · exact hne hpipe

end AindRun

/-- A text of one byte. -/
theorem not_aindSafe_one (hid : ricReqId ∈ ids) (hlen : (ricReqIdText ricReqId).length = 1) :
    ¬ AindSafe σ ids := by
  have hne := List.ne_nil_of_length_pos (hlen ▸ Nat.one_pos)
  exact ((AindRun.init.call hid).take hne (by simp)).not_safe_of_byte hlen

/-- Two bytes : the first read takes the bytes of two items, the second one waits for those of
the next call, whose item then stays in the queue. -/
theorem not_aindSafe_two (hid : ricReqId ∈ ids) (hlen : (ricReqIdText ricReqId).length = 2) :
    ¬ AindSafe σ ids := by
  obtain ⟨c, d, htext⟩ := List.length_eq_two.mp hlen
  have hbatch := ((AindRun.init (σ := σ)).call hid).call hid
  rw [htext] at hbatch
  have hread := ((hbatch.take (by simp) (by simp)).read (by simp) (by simp)).call hid
  rw [htext] at hread
  exact (hread.read (by simp) (by simp)).back.not_safe_of_idle (fun _ => by simp) (Or.inl (by simp))

/-- Three bytes : the third read of a batch of three returns one. -/
theorem not_aindSafe_three (hid : ricReqId ∈ ids) (hlen : (ricReqIdText ricReqId).length = 3) :
    ¬ AindSafe σ ids := by
  obtain ⟨c, d, e, htext⟩ := List.length_eq_three.mp hlen
  have hbatch := (((AindRun.init (σ := σ)).call hid).call hid).call hid
  rw [htext] at hbatch
  have hread := (hbatch.take (by simp) (by simp)).read (by simp) (by simp)
  exact (hread.read (by simp) (by simp)).not_safe_of_byte (by simp)

/-- More than four bytes : the rest stays in the pipe, with nothing left to report. -/
theorem not_aindSafe_five (hid : ricReqId ∈ ids) (hlen : 4 < (ricReqIdText ricReqId).length) :
    ¬ AindSafe σ ids := by
  have hne : ricReqIdText ricReqId ≠ [] := List.ne_nil_of_length_pos (by omega)
  have hread := (((AindRun.init (σ := σ)).call hid).take hne (by simp)).read hne
    (by simp only [List.nil_append]; omega)
  refine hread.back.not_safe_of_idle (fun h => nomatch h) (Or.inr ?_)
  exact List.ne_nil_of_length_pos (by simpa [AindState.init] using hlen)

/-- The assertions hold and the two channels are empty in every idle state exactly where all
calls are for ids of four digits. -/
theorem aindSafe_iff : AindSafe σ ids ↔ ∀ id ∈ ids, 1000 ≤ id ∧ id ≤ 9999 := by
  constructor
  · intro hsafe id hid
    have hpos : 0 < (ricReqIdText id).length := Nat.length_toDigits_pos
    by_contra hdigits
    rw [← ricReqIdText_length_eq_four] at hdigits
    have hcases : (ricReqIdText id).length = 1 ∨ (ricReqIdText id).length = 2 ∨
        (ricReqIdText id).length = 3 ∨ 4 < (ricReqIdText id).length := by omega
    rcases hcases with hlen | hlen | hlen | hlen
    · exact not_aindSafe_one hid hlen hsafe
    · exact not_aindSafe_two hid hlen hsafe
    · exact not_aindSafe_three hid hlen hsafe
    · exact not_aindSafe_five hid hlen hsafe
  · intro hid s h
    have hinv := h.inv fun id hmem => ricReqIdText_length_eq_four.2 (hid id hmem)
    exact ⟨fun _ fail _ => hinv.no_fail fail, hinv.idle⟩

/-- The first call with the request id 10000 leaves a byte in the pipe. -/
theorem not_aindSafe : ¬ ∀ ids, AindSafe Unit ids :=
  fun hall => not_aindSafe_five (Set.mem_singleton 10000) (by decide) (hall {10000})

end NrStack
