import NrStack.Library.Ring

/-!
# The queue of RLC data requests

`enqueue_rlc_data_req`, called from any number of threads, and the one
`rlc_data_req_thread` that empties the queue. What a thread does between two points where
it takes or releases the mutex is one step. The consumer works on the head slot with the
mutex released, so its round has three steps : it picks the slot, passes the item to
`nr_rlc_data_req`, and frees the slot.

All threads wait on one condition variable. `pthread_cond_signal` wakes one waiting thread,
whichever it is (`Signal`), and a thread may also wake up by itself. A signal for the
consumer can reach a producer ; but that producer then enqueues and signals again, until the
consumer is reached or the queue is full (`QueueInv.awake`).

An item is only copied, so its type is left open.
-/

set_option linter.unusedSectionVars false

namespace NrStack

/-- `RLC_DATA_REQ_QUEUE_SIZE`. -/
def rlcDataReqQueueSize : Nat :=
  10000

/-- A thread that calls `enqueue_rlc_data_req` : outside of it, about to take the mutex, or
in `pthread_cond_wait`. -/
inductive ProducerState (α : Type*)
  | idle
  | locking (item : α)
  | waiting (item : α)
deriving DecidableEq, Repr

/-- `rlc_data_req_thread` : about to take the mutex, in `pthread_cond_wait`, in
`nr_rlc_data_req` for the slot `i`, or after it. -/
inductive ConsumerState
  | locking
  | waiting
  | working (i : Nat)
  | finished (i : Nat)
deriving DecidableEq, Repr

/-- `rlc_data_req_queue` with its threads, and the items enqueued and passed on so far. -/
structure RlcDataReqQueue (ι α : Type*) where
  q : Ring α
  producer : ι → ProducerState α
  consumer : ConsumerState
  enqueued : List α
  processed : List α

namespace RlcDataReqQueue

variable {ι α : Type*} [DecidableEq ι]

/-- After `init_nr_rlc_data_req_queue`. -/
def init (slots : Nat → α) : RlcDataReqQueue ι α where
  q := ⟨slots, 0, 0⟩
  producer _ := .idle
  consumer := .locking
  enqueued := []
  processed := []

/-- A thread gets to another point. -/
def setProducer (s : RlcDataReqQueue ι α) (p : ι) (st : ProducerState α) : RlcDataReqQueue ι α :=
  { s with producer := Function.update s.producer p st }

/-- The consumer gets to another point. -/
def setConsumer (s : RlcDataReqQueue ι α) (st : ConsumerState) : RlcDataReqQueue ι α :=
  { s with consumer := st }

/-- The end of `enqueue_rlc_data_req`, before the signal. -/
def enqueue (s : RlcDataReqQueue ι α) (p : ι) (item : α) : RlcDataReqQueue ι α :=
  { s.setProducer p .idle with
    q := s.q.push rlcDataReqQueueSize item
    enqueued := s.enqueued ++ [item] }

/-- The end of a round of `rlc_data_req_thread`, before the signal. -/
def dequeue (s : RlcDataReqQueue ι α) : RlcDataReqQueue ι α :=
  { s.setConsumer .locking with q := s.q.pop rlcDataReqQueueSize }

/-- `pthread_cond_signal` : one of the waiting threads wakes up, if there is one. -/
inductive Signal (s : RlcDataReqQueue ι α) : RlcDataReqQueue ι α → Prop
  | consumer : s.consumer = .waiting → Signal s (s.setConsumer .locking)
  | producer (p : ι) (item : α) : s.producer p = .waiting item →
      Signal s (s.setProducer p (.locking item))
  | nobody : s.consumer ≠ .waiting → (∀ p item, s.producer p ≠ .waiting item) → Signal s s

/-- One step of one thread. -/
inductive Step (s : RlcDataReqQueue ι α) : RlcDataReqQueue ι α → Prop
  | call (p : ι) (item : α) : s.producer p = .idle → Step s (s.setProducer p (.locking item))
  | full (p : ι) (item : α) : s.producer p = .locking item → s.q.length = rlcDataReqQueueSize →
      Step s (s.setProducer p (.waiting item))
  | enqueue (p : ι) (item : α) (s' : RlcDataReqQueue ι α) : s.producer p = .locking item →
      s.q.length ≠ rlcDataReqQueueSize → Signal (s.enqueue p item) s' → Step s s'
  | empty : s.consumer = .locking → s.q.length = 0 → Step s (s.setConsumer .waiting)
  | pick : s.consumer = .locking → s.q.length ≠ 0 → Step s (s.setConsumer (.working s.q.start))
  | work (i : Nat) : s.consumer = .working i →
      Step s { s.setConsumer (.finished i) with processed := s.processed ++ [s.q.slots i] }
  | free (i : Nat) (s' : RlcDataReqQueue ι α) : s.consumer = .finished i → Signal s.dequeue s' →
      Step s s'
  | wakeProducer (p : ι) (item : α) : s.producer p = .waiting item →
      Step s (s.setProducer p (.locking item))
  | wakeConsumer : s.consumer = .waiting → Step s (s.setConsumer .locking)

/-- States that the threads can get to, in any order of their steps. -/
inductive Reachable (slots : Nat → α) : RlcDataReqQueue ι α → Prop
  | init : Reachable slots (init slots)
  | step {s s' : RlcDataReqQueue ι α} : Reachable slots s → Step s s' → Reachable slots s'

/-! ## The invariant -/

variable {s s' : RlcDataReqQueue ι α} {slots : Nat → α} {p : ι} {item : α}

/-- The items of the queue that were not passed on yet : the consumer frees the slot of an
item after it has passed it on. -/
def pending (s : RlcDataReqQueue ι α) : List α :=
  match s.consumer with
  | .finished _ => (s.q.contents rlcDataReqQueueSize).tail
  | _ => s.q.contents rlcDataReqQueueSize

/-- The head slot is the one the consumer works on. -/
def HoldsHead (s : RlcDataReqQueue ι α) : Prop :=
  ∀ i, s.consumer = .working i ∨ s.consumer = .finished i → i = s.q.start ∧ 0 < s.q.length

/-- A producer is about to look at the queue. -/
def ProducerAwake (s : RlcDataReqQueue ι α) : Prop :=
  ∃ p item, s.producer p = .locking item

structure QueueInv (s : RlcDataReqQueue ι α) : Prop where
  valid : s.q.Valid rlcDataReqQueueSize
  head : s.HoldsHead
  fifo : s.enqueued = s.processed ++ s.pending
  /-- While the consumer waits, a queue that is neither empty nor full has a producer on
  its way. -/
  awake : s.consumer = .waiting → s.q.length ≠ 0 → s.q.length ≠ rlcDataReqQueueSize →
    s.ProducerAwake

theorem init_inv : QueueInv (init slots : RlcDataReqQueue ι α) where
  valid := ⟨Nat.zero_lt_succ 9999, Nat.zero_le _⟩
  head i h := by simp [init] at h
  fifo := rfl
  awake h := by simp [init] at h

/-- What a producer does, apart from its item, does not touch the queue. -/
theorem QueueInv.setProducer (h : QueueInv s) {st : ProducerState α}
    (ha : s.consumer = .waiting → s.q.length ≠ 0 → s.q.length ≠ rlcDataReqQueueSize →
      (s.setProducer p st).ProducerAwake) : QueueInv (s.setProducer p st) :=
  ⟨h.valid, h.head, h.fifo, ha⟩

/-- A thread that wakes up. -/
theorem QueueInv.wakeProducer (h : QueueInv s) : QueueInv (s.setProducer p (.locking item)) :=
  h.setProducer fun _ _ _ => ⟨p, item, Function.update_self ..⟩

/-- What the consumer does outside of the queue. -/
theorem QueueInv.setConsumer (h : QueueInv s) {st : ConsumerState}
    (hhead : (s.setConsumer st).HoldsHead) (hp : (s.setConsumer st).pending = s.pending)
    (hw : st = .waiting → s.q.length = 0) : QueueInv (s.setConsumer st) where
  valid := h.valid
  head := hhead
  fifo := by rw [hp]; exact h.fifo
  awake hc h0 := absurd (hw hc) h0

/-- The invariant up to the wake-up that is still to come. -/
structure SignalInv (s : RlcDataReqQueue ι α) : Prop where
  valid : s.q.Valid rlcDataReqQueueSize
  head : s.HoldsHead
  fifo : s.enqueued = s.processed ++ s.pending

/-- A signal restores the invariant : it reaches the consumer, or a producer that will
signal again. -/
theorem SignalInv.signal (h : SignalInv s) (hs : Signal s s') : QueueInv s' := by
  cases hs with
  | consumer hw =>
    refine ⟨h.valid, fun i hi => by simp [RlcDataReqQueue.setConsumer] at hi, ?_,
      fun hc => by simp [RlcDataReqQueue.setConsumer] at hc⟩
    have hp : (s.setConsumer .locking).pending = s.pending := by
      rw [pending, pending, hw]
      rfl
    rw [hp]
    exact h.fifo
  | producer p item hw =>
    exact ⟨h.valid, h.head, h.fifo, fun _ _ _ => ⟨p, item, Function.update_self ..⟩⟩
  | nobody hc _ => exact ⟨h.valid, h.head, h.fifo, fun hw => absurd hw hc⟩

theorem enqueue_inv (h : QueueInv s) (hn : s.q.length ≠ rlcDataReqQueueSize) :
    SignalInv (s.enqueue p item) := by
  have hlt : s.q.length < rlcDataReqQueueSize := lt_of_le_of_ne h.valid.length_le hn
  refine ⟨h.valid.push hlt, fun i hi => ⟨(h.head i hi).1, Nat.succ_pos _⟩, ?_⟩
  have hcontents := Ring.contents_push (x := item) hlt
  have hpending : (s.enqueue p item).pending = s.pending ++ [item] := by
    have hcons : (s.enqueue p item).consumer = s.consumer := rfl
    have hq : (s.enqueue p item).q = s.q.push rlcDataReqQueueSize item := rfl
    rw [pending, pending, hcons, hq, hcontents]
    cases hc : s.consumer with
    | finished i =>
      have hpos := (h.head i (.inr hc)).2
      refine List.tail_append_of_ne_nil fun hnil => ?_
      have hlen := congrArg List.length hnil
      simp only [Ring.contents, List.length_map, List.length_range, List.length_nil] at hlen
      omega
    | locking | waiting | working => rfl
  have hprocessed : (s.enqueue p item).processed = s.processed := rfl
  rw [hpending, hprocessed, ← List.append_assoc, ← h.fifo]
  rfl

theorem dequeue_inv (h : QueueInv s) {i : Nat} (hc : s.consumer = .finished i) :
    SignalInv s.dequeue := by
  have hpos := (h.head i (.inr hc)).2
  refine ⟨h.valid.pop, fun j hj => by simp [dequeue, RlcDataReqQueue.setConsumer] at hj, ?_⟩
  have hpending : s.dequeue.pending = s.pending := by
    rw [pending, pending, hc, Ring.contents_pop h.valid hpos]
    rfl
  rw [hpending]
  exact h.fifo

/-- The item the consumer works on is the oldest one. -/
theorem work_inv (h : QueueInv s) {i : Nat} (hc : s.consumer = .working i) :
    QueueInv { s.setConsumer (.finished i) with processed := s.processed ++ [s.q.slots i] } := by
  obtain ⟨hi, hpos⟩ := h.head i (.inl hc)
  refine ⟨h.valid, fun j hj => ?_, ?_, fun hw => by simp [RlcDataReqQueue.setConsumer] at hw⟩
  · obtain rfl : i = j := by simpa [RlcDataReqQueue.setConsumer] using hj
    exact ⟨hi, hpos⟩
  · have hfifo := h.fifo
    rw [pending, hc] at hfifo
    rw [pending]
    dsimp only [RlcDataReqQueue.setConsumer]
    dsimp only at hfifo
    rw [hfifo, Ring.contents_pop h.valid hpos, hi, List.append_assoc]
    rfl

theorem step_inv (h : QueueInv s) (hs : Step s s') : QueueInv s' := by
  cases hs with
  | call p item _ => exact h.wakeProducer
  | full p item _ hn => exact h.setProducer fun _ _ hne => absurd hn hne
  | enqueue p item s' _ hn hsig => exact (enqueue_inv h hn).signal hsig
  | empty hc h0 =>
    refine h.setConsumer (fun i hi => by simp [RlcDataReqQueue.setConsumer] at hi) ?_ fun _ => h0
    rw [pending, pending, hc]
    rfl
  | pick hc h0 =>
    refine h.setConsumer (fun i hi => ?_) ?_ nofun
    · have : s.q.start = i := by simpa [RlcDataReqQueue.setConsumer] using hi
      exact ⟨this.symm, Nat.pos_of_ne_zero h0⟩
    · rw [pending, pending, hc]
      rfl
  | work i hc => exact work_inv h hc
  | free i s' hc hsig => exact (dequeue_inv h hc).signal hsig
  | wakeProducer p item _ => exact h.wakeProducer
  | wakeConsumer hc =>
    refine h.setConsumer (fun i hi => by simp [RlcDataReqQueue.setConsumer] at hi) ?_ nofun
    rw [pending, pending, hc]
    rfl

theorem reachable_inv (h : Reachable slots s) : QueueInv s := by
  induction h with
  | init => exact init_inv
  | step _ hs ih => exact step_inv ih hs

/-! ## What the queue is for -/

structure QueueSpec (s : RlcDataReqQueue ι α) : Prop where
  /-- The items passed on are the first that were enqueued, the others are in the queue. -/
  fifo : s.enqueued = s.processed ++ s.pending
  /-- The slot the consumer works on is the first used one, and holds the next item. -/
  working : ∀ i, s.consumer = .working i → i = s.q.slot rlcDataReqQueueSize 0 ∧
    0 < s.q.length ∧ s.pending.head? = some (s.q.slots i)
  /-- No step overwrites a used slot. -/
  kept : ∀ s', Step s s' → ∀ j < s.q.length,
    s'.q.slots (s.q.slot rlcDataReqQueueSize j) = s.q.slots (s.q.slot rlcDataReqQueueSize j)
  /-- The consumer does not wait for a wake-up that was lost. -/
  awake : s.consumer = .waiting → (∀ p item, s.producer p ≠ .locking item) →
    s.q.length = 0 ∨ s.q.length = rlcDataReqQueueSize

theorem Signal.slots_eq (hs : Signal s s') : s'.q.slots = s.q.slots := by
  cases hs <;> rfl

theorem step_kept (h : QueueInv s) (hs : Step s s') {j : Nat} (hj : j < s.q.length) :
    s'.q.slots (s.q.slot rlcDataReqQueueSize j) = s.q.slots (s.q.slot rlcDataReqQueueSize j) := by
  cases hs with
  | enqueue p item s' _ hn hsig =>
    rw [hsig.slots_eq]
    exact Ring.slots_push (lt_of_le_of_ne h.valid.length_le hn) hj
  | free i s' _ hsig =>
    rw [hsig.slots_eq]
    rfl
  | call | full | empty | pick | work | wakeProducer | wakeConsumer => rfl

/-- In every interleaving of any number of producers with the consumer the queue is a FIFO,
no slot is overwritten while it is used, and no wake-up is lost. -/
theorem rlc_data_req_queue_spec (h : Reachable slots s) : QueueSpec s := by
  have hinv := reachable_inv h
  refine ⟨hinv.fifo, fun i hi => ?_, fun s' hs j hj => step_kept hinv hs hj, fun hw hp => ?_⟩
  · obtain ⟨rfl, hpos⟩ := hinv.head i (.inl hi)
    refine ⟨(Ring.slot_zero hinv.valid).symm, hpos, ?_⟩
    rw [pending, hi]
    dsimp only
    rw [Ring.contents_pop hinv.valid hpos, List.head?_cons]
  · by_contra hno
    obtain ⟨h0, hne⟩ := not_or.1 hno
    obtain ⟨p, item, hlock⟩ := hinv.awake hw h0 hne
    exact hp p item hlock

/-- One producer puts an item in the queue, and the consumer passes it on. -/
theorem rlc_data_req_queue_spec_one : ∃ s : RlcDataReqQueue Unit Nat,
    Reachable (fun _ => 0) s ∧ s.processed = [7] ∧ QueueSpec s := by
  have hcall : Reachable (fun _ => 0) ((init fun _ => 0 : RlcDataReqQueue Unit Nat).setProducer ()
      (.locking 7)) := .step .init (.call () 7 rfl)
  have henqueue := hcall.step (.enqueue () 7 _ rfl (by decide)
    (.nobody (by decide) fun p item => by simp [enqueue, setProducer]))
  have hpick := henqueue.step (.pick rfl (by decide))
  have hwork := hpick.step (.work 0 rfl)
  exact ⟨_, hwork, rfl, rlc_data_req_queue_spec hwork⟩

end RlcDataReqQueue

end NrStack
