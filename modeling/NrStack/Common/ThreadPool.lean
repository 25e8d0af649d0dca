import NrStack.Common.TaskRing
import NrStack.Library.Run
import NrStack.Library.WorkPool

/-!
# The thread pool

`thread-pool.c` over `bounded_notified_fifo.h` : `n` worker threads with a queue each. `pushTpool`
tries the queues in turn, from the one its ticket says on, and waits for that one if the lock of
every queue is held. A worker tries the queues in turn, from its own on, and waits at its own if it
found nothing. `abortTpool` pushes a task of NULL pointers, which each worker hands on before it
ends.

A step is what one thread does between two locks. The callers of `pushTpool` are the threads `P`, a
task that calls it among them. `busy` says that a lock is held by another thread when it is tried,
so it may be anything.

Every state a run leads to is that of a pool of queues (`Tpool.refines`) : nothing is lost, nothing
runs twice, and no worker runs the NULL task.
-/

set_option linter.unusedSectionVars false

namespace NrStack

/-- Where a worker thread is : before `try_pop_not_q` of queue `i`, or before `pop_not_q` at the end
of the loop; with a task; in the `pushTpool` of the NULL task; or at its end. -/
inductive TpoolWorker
  | scan (i : Nat)
  | got (t : Task)
  | handOn (c : PushCall)
  | exited
deriving DecidableEq, Repr

/-- `tpool_t`, with the threads that use it, and the tasks of all calls and of all executions. -/
@[ext] structure Tpool (n : Nat) (P : Type) where
  index : Nat
  queues : Fin n → SeqRing Task
  workers : Fin n → TpoolWorker
  callers : P → Option PushCall
  submitted : List Task
  executed : List Task

/-- A call of `pushTpool`, the next step of one, and the next step of a worker. -/
inductive TpoolEvent (n : Nat) (P : Type)
  | call (p : P) (t : Task)
  | push (p : P) (busy : Bool)
  | work (w : Fin n) (busy : Bool)

namespace Tpool

variable {n : Nat} [NeZero n] {P : Type} [DecidableEq P] (s : Tpool n P)

/-- `initNamedTpool` with `n` workers, after the barrier. -/
def init : Tpool n P where
  index := 0
  queues _ := .empty .null 256
  workers w := .scan w
  callers _ := none
  submitted := []
  executed := []

/-- `tpool->index++` -/
def nextIndex : Tpool n P :=
  { s with index := (s.index + 1) % 2 ^ 64 }

/-- `push_back_seq_ring_task` to queue `i`. -/
def pushBack (i : Fin n) (t : Task) : Except TaskFault (Tpool n P) :=
  (TaskFault.memory.unless ((s.queues i).pushBack .null t)).map fun r =>
    { s with queues := Function.update s.queues i r }

/-- The next step of `pushTpool` : what is left of the call. -/
def pushStep (c : PushCall) (busy : Bool) : Except TaskFault (Tpool n P × Option PushCall) :=
  if c.tried < n then
    if busy then .ok (s, some { c with tried := c.tried + 1 })
    else (s.pushBack (.ofNat n ((c.tried + c.index) % 2 ^ 64)) c.task).map (·, none)
  else if c.task.func = 0 then .error .assertion
  else (s.pushBack (.ofNat n c.index) c.task).map (·, none)

/-- `pop_seq_ring_task` of queue `i` by worker `w`. -/
def pop (w i : Fin n) : Except TaskFault (Tpool n P) :=
  (TaskFault.assertion.unless (s.queues i).popFront).map fun tr => { s with
    queues := Function.update s.queues i tr.2
    workers := Function.update s.workers w (.got tr.1) }

/-- The next step of `worker_thread`. -/
def workStep (w : Fin n) (busy : Bool) : Except TaskFault (Tpool n P) :=
  match s.workers w with
  | .scan i =>
    if i < 2 * (n + w) then
      let q : Fin n := .ofNat n i
      if busy ∨ (s.queues q).size = 0 then
        .ok { s with workers := Function.update s.workers w (.scan (i + 1)) }
      else s.pop w q
    else if (s.queues w).size = 0 then .error .waits
    else s.pop w w
  | .got t =>
    if t = .null then
      .ok { s.nextIndex with workers := Function.update s.workers w (.handOn ⟨.null, s.index, 0⟩) }
    else if t.func = 0 then .error .nullFunction
    else .ok { s with
      workers := Function.update s.workers w (.scan w), executed := s.executed ++ [t] }
  | .handOn c => (s.pushStep c busy).map fun sc =>
    { sc.1 with workers := Function.update sc.1.workers w (sc.2.elim .exited .handOn) }
  | .exited => .error .waits

/-- A step of a thread. -/
def step : TpoolEvent n P → Except TaskFault (Tpool n P)
  | .call p t =>
    match s.callers p with
    | some _ => .error .waits
    | none => .ok { s.nextIndex with
        callers := Function.update s.callers p (some ⟨t, s.index, 0⟩)
        submitted := s.submitted ++ [t] }
  | .push p busy =>
    match s.callers p with
    | none => .error .waits
    | some c => (s.pushStep c busy).map fun sc =>
      { sc.1 with callers := Function.update sc.1.callers p sc.2 }
  | .work w busy => s.workStep w busy

/-- No queue comes to `2 ^ 31` tasks. -/
def FewTasks (_ : TpoolEvent n P) : Prop :=
  ∀ i, FewElements (s.queues i)

instance (e : TpoolEvent n P) : Decidable (FewTasks s e) :=
  inferInstanceAs (Decidable (∀ i, FewElements (s.queues i)))

/-- A state that a run from the first one leads to. -/
def Reachable (s : Tpool n P) : Prop :=
  Reach (fun s e => (step s e).toOption) FewTasks init s

end Tpool

/-! ## What a step can do -/

/-- The task in the hands of a worker. -/
def TpoolWorker.hand : TpoolWorker → List Task
  | .got t => [t]
  | .handOn c => [c.task]
  | _ => []

namespace Tpool

variable {n : Nat} [NeZero n] {P : Type} [DecidableEq P]

/-- What comes of a step. -/
inductive Moves (s : Tpool n P) : Tpool n P → Prop
  | call {p : P} (t : Task) (h : s.callers p = none) : Moves s { s.nextIndex with
      callers := Function.update s.callers p (some ⟨t, s.index, 0⟩)
      submitted := s.submitted ++ [t] }
  | retry {p : P} {c : PushCall} (h : s.callers p = some c) : Moves s { s with
      callers := Function.update s.callers p (some { c with tried := c.tried + 1 }) }
  | put {p : P} {c : PushCall} {i : Fin n} {r : SeqRing Task} (h : s.callers p = some c)
      (hr : (s.queues i).pushBack .null c.task = some r) : Moves s { s with
      queues := Function.update s.queues i r, callers := Function.update s.callers p none }
  | scan {w : Fin n} {i : Nat} (h : s.workers w = .scan i) : Moves s { s with
      workers := Function.update s.workers w (.scan (i + 1)) }
  | take {w i : Fin n} {k : Nat} {t : Task} {r : SeqRing Task} (h : s.workers w = .scan k)
      (hr : (s.queues i).popFront = some (t, r)) : Moves s { s with
      queues := Function.update s.queues i r, workers := Function.update s.workers w (.got t) }
  | handOn {w : Fin n} (h : s.workers w = .got .null) : Moves s { s.nextIndex with
      workers := Function.update s.workers w (.handOn ⟨.null, s.index, 0⟩) }
  | run {w : Fin n} {t : Task} (h : s.workers w = .got t) (ht : t.func ≠ 0) : Moves s { s with
      workers := Function.update s.workers w (.scan w), executed := s.executed ++ [t] }
  | retryOn {w : Fin n} {c : PushCall} (h : s.workers w = .handOn c) : Moves s { s with
      workers := Function.update s.workers w (.handOn { c with tried := c.tried + 1 }) }
  | putOn {w i : Fin n} {c : PushCall} {r : SeqRing Task} (h : s.workers w = .handOn c)
      (hr : (s.queues i).pushBack .null c.task = some r) : Moves s { s with
      queues := Function.update s.queues i r, workers := Function.update s.workers w .exited }

section

variable {s s' : Tpool n P} {c : PushCall} {c' : Option PushCall} {busy : Bool} {w : Fin n}

theorem pushBack_eq_ok {i : Fin n} {t : Task} (h : s.pushBack i t = .ok s') :
    ∃ r, (s.queues i).pushBack .null t = some r ∧
      s' = { s with queues := Function.update s.queues i r } :=
  TaskFault.map_unless_eq_ok h

theorem pushStep_eq_ok (h : s.pushStep c busy = .ok (s', c')) :
    (s' = s ∧ c' = some { c with tried := c.tried + 1 }) ∨
      c' = none ∧ ∃ i r, (s.queues i).pushBack .null c.task = some r ∧
        s' = { s with queues := Function.update s.queues i r } := by
  have hput : ∀ i, (s.pushBack i c.task).map (·, none) = .ok (s', c') →
      c' = none ∧ ∃ i r, (s.queues i).pushBack .null c.task = some r ∧
        s' = { s with queues := Function.update s.queues i r } := by
    intro i hi
    obtain ⟨s₁, hs, heq⟩ := TaskFault.map_eq_ok hi
    obtain ⟨r, hr, rfl⟩ := pushBack_eq_ok hs
    rw [Prod.mk.injEq] at heq
    exact ⟨heq.2, i, r, hr, heq.1⟩
  unfold pushStep at h
  split_ifs at h
  · rw [Except.ok.injEq, Prod.mk.injEq] at h
    exact .inl ⟨h.1.symm, h.2.symm⟩
  · exact .inr (hput _ h)
  · exact .inr (hput _ h)

theorem pop_eq_ok {i : Fin n} (h : s.pop w i = .ok s') :
    ∃ t r, (s.queues i).popFront = some (t, r) ∧ s' = { s with
      queues := Function.update s.queues i r
      workers := Function.update s.workers w (.got t) } := by
  obtain ⟨⟨t, r⟩, hr, hs⟩ := TaskFault.map_unless_eq_ok h
  exact ⟨t, r, hr, hs⟩

theorem moves_workStep (h : s.workStep w busy = .ok s') : s.Moves s' := by
  unfold workStep at h
  cases hw : s.workers w with
  | scan i =>
    simp only [hw] at h
    split_ifs at h
    · rw [Except.ok.injEq] at h
      exact h ▸ .scan hw
    · obtain ⟨t, r, hr, rfl⟩ := pop_eq_ok h
      exact .take hw hr
    · obtain ⟨t, r, hr, rfl⟩ := pop_eq_ok h
      exact .take hw hr
  | got t =>
    simp only [hw] at h
    split_ifs at h with hnull hfunc
    · rw [Except.ok.injEq] at h
      exact h ▸ .handOn (hnull ▸ hw)
    · rw [Except.ok.injEq] at h
      exact h ▸ .run hw hfunc
  | handOn c =>
    simp only [hw] at h
    obtain ⟨⟨s₁, c₁⟩, hp, rfl⟩ := TaskFault.map_eq_ok h
    rcases pushStep_eq_ok hp with ⟨rfl, rfl⟩ | ⟨rfl, i, r, hr, rfl⟩
    · exact .retryOn hw
    · exact .putOn hw hr
  | exited => simp [hw] at h

theorem moves_step {e : TpoolEvent n P} (h : s.step e = .ok s') : s.Moves s' := by
  cases e with
  | call p t =>
    unfold step at h
    cases hp : s.callers p with
    | some _ => simp [hp] at h
    | none =>
      simp only [hp, Except.ok.injEq] at h
      exact h ▸ .call t hp
  | push p busy =>
    unfold step at h
    cases hp : s.callers p with
    | none => simp [hp] at h
    | some c =>
      simp only [hp] at h
      obtain ⟨⟨s₁, c₁⟩, hq, rfl⟩ := TaskFault.map_eq_ok h
      rcases pushStep_eq_ok hq with ⟨rfl, rfl⟩ | ⟨rfl, i, r, hr, rfl⟩
      · exact .retry hp
      · exact .put hp hr
  | work w busy => exact moves_workStep h

end

/-! ## The pool of queues -/

/-- What the threads have in their hands. -/
abbrev hands (workers : Fin n → TpoolWorker) (callers : P → Option PushCall) :
    Fin n ⊕ P → List Task :=
  WorkPool.hands TpoolWorker.hand PushCall.hand workers callers

/-- The pool that the state holds. -/
def toPool (s : Tpool n P) : WorkPool (Fin n) (Fin n ⊕ P) Task :=
  ⟨fun i => (s.queues i).elements, hands s.workers s.callers, s.submitted, s.executed⟩

/-- The rings are queues, only the NULL task is handed on, and none is executed. -/
structure Inv (s : Tpool n P) : Prop where
  rings : ∀ i, SeqRingInv (s.queues i) (s.queues i).elements
  handOn : ∀ w c, s.workers w = .handOn c → c.task = .null
  executed : ∀ t ∈ s.executed, t.func ≠ 0

theorem toPool_queue (s : Tpool n P) (i : Fin n) : s.toPool.queue i = (s.queues i).elements :=
  rfl

variable {s s' : Tpool n P}

theorem hand_inl {w : Fin n} {x : TpoolWorker} (h : s.workers w = x) :
    s.toPool.hand (.inl w) = x.hand :=
  congrArg TpoolWorker.hand h

theorem hand_inr {p : P} {c : Option PushCall} (h : s.callers p = c) :
    s.toPool.hand (.inr p) = PushCall.hand c :=
  congrArg PushCall.hand h

theorem seqRingInv_init : SeqRingInv (SeqRing.empty Task.null 256) [] :=
  .empty ⟨8, by decide, by decide, by norm_num⟩

theorem inv_init : (init : Tpool n P).Inv where
  rings _ := seqRingInv_init.elements_eq.symm ▸ seqRingInv_init
  handOn w c h := by cases h
  executed t h := absurd h (List.not_mem_nil)

theorem toPool_init : (init : Tpool n P).toPool = .empty := by
  refine WorkPool.ext ?_ ?_ rfl rfl
  · exact funext fun i => (toPool_queue init i).trans seqRingInv_init.elements_eq
  · funext k
    cases k <;> rfl

/-- A queue gets a new ring. -/
theorem rings_update (h : s.Inv) {i : Fin n} {r : SeqRing Task} {l : List Task}
    (hr : SeqRingInv r l) (j : Fin n) : SeqRingInv (Function.update s.queues i r j)
      (Function.update s.queues i r j).elements := by
  by_cases hij : j = i
  · rw [hij, Function.update_self]
    exact hr.elements_eq.symm ▸ hr
  · rw [Function.update_of_ne hij]
    exact h.rings j

theorem handOn_update (h : s.Inv) {w : Fin n} {x : TpoolWorker}
    (hx : ∀ c, x = .handOn c → c.task = .null) (v : Fin n) (c : PushCall)
    (hc : Function.update s.workers w x v = .handOn c) : c.task = .null := by
  by_cases hvw : v = w
  · rw [hvw, Function.update_self] at hc
    exact hx c hc
  · rw [Function.update_of_ne hvw] at hc
    exact h.handOn v c hc

theorem Moves.inv (hm : s.Moves s') (h : s.Inv) (hfew : ∀ i, FewElements (s.queues i)) :
    s'.Inv := by
  cases hm with
  | call t hp => exact ⟨h.rings, h.handOn, h.executed⟩
  | retry hp => exact ⟨h.rings, h.handOn, h.executed⟩
  | put hp hr => exact ⟨rings_update h ((h.rings _).pushBack_inv (hfew _) hr), h.handOn, h.executed⟩
  | scan hw => exact ⟨h.rings, handOn_update h (by intro _ hc; cases hc), h.executed⟩
  | take hw hr =>
    obtain ⟨l, -, hl⟩ := (h.rings _).popFront_inv hr
    exact ⟨rings_update h hl, handOn_update h (by intro _ hc; cases hc), h.executed⟩
  | handOn hw =>
    refine ⟨h.rings, handOn_update h ?_, h.executed⟩
    intro c hc
    cases hc
    rfl
  | run hw ht =>
    refine ⟨h.rings, handOn_update h (by intro _ hc; cases hc), fun t hmem => ?_⟩
    rcases List.mem_append.1 hmem with hmem | hmem
    · exact h.executed t hmem
    · rw [List.mem_singleton.1 hmem]
      exact ht
  | @retryOn w c hw =>
    refine ⟨h.rings, handOn_update h ?_, h.executed⟩
    intro c' hc
    cases hc
    exact h.handOn w c hw
  | putOn hw hr =>
    exact ⟨rings_update h ((h.rings _).pushBack_inv (hfew _) hr),
      handOn_update h (by intro _ hc; cases hc), h.executed⟩

/-- What a step does in the pool of queues. -/
theorem Moves.steps (hm : s.Moves s') (h : s.Inv) (hfew : ∀ i, FewElements (s.queues i)) :
    WorkPool.Steps s.toPool s'.toPool := by
  cases hm with
  | @call p t hp =>
    refine .single ?_
    have hstep := WorkPool.Step.submit (p := s.toPool) (.inr p) t
    have hhand : s.toPool.hand (.inr p) = [] := hand_inr hp
    rw [hhand] at hstep
    convert hstep using 1
    exact WorkPool.ext rfl (WorkPool.hands_caller ..) rfl rfl
  | @retry p c hp =>
    exact .of_eq (WorkPool.ext rfl (WorkPool.hands_caller_eq (hp ▸ rfl)).symm rfl rfl)
  | @put p c i r hp hr =>
    refine .single ?_
    have hstep := WorkPool.Step.put (p := s.toPool) (k := .inr p) i (hand_inr hp)
    convert hstep using 1
    refine WorkPool.ext ?_ (WorkPool.hands_caller ..) rfl rfl
    exact (SeqRing.elements_update ..).trans
      (congrArg _ ((h.rings i).pushBack_inv (hfew i) hr).elements_eq)
  | @scan w i hw =>
    exact .of_eq (WorkPool.ext rfl (WorkPool.hands_worker_eq (hw ▸ rfl)).symm rfl rfl)
  | @take w i k t r hw hr =>
    refine .single ?_
    have hstep := WorkPool.Step.take (p := s.toPool) (.inl w) i 1
    obtain ⟨l, hl, hinv⟩ := (h.rings i).popFront_inv hr
    have hqueue : s.toPool.queue i = t :: l := hl
    have hhand : s.toPool.hand (.inl w) = [] := hand_inl hw
    rw [hhand, hqueue] at hstep
    convert hstep using 1
    refine WorkPool.ext ?_ (WorkPool.hands_worker ..) rfl rfl
    exact (SeqRing.elements_update ..).trans (congrArg _ hinv.elements_eq)
  | @handOn w hw =>
    exact .of_eq (WorkPool.ext rfl (WorkPool.hands_worker_eq (hw ▸ rfl)).symm rfl rfl)
  | @run w t hw ht =>
    refine .single ?_
    have hstep := WorkPool.Step.run (p := s.toPool) (k := .inl w) (hand_inl hw)
    convert hstep using 1
    exact WorkPool.ext rfl (WorkPool.hands_worker ..) rfl rfl
  | @retryOn w c hw =>
    exact .of_eq (WorkPool.ext rfl (WorkPool.hands_worker_eq (hw ▸ rfl)).symm rfl rfl)
  | @putOn w i c r hw hr =>
    refine .single ?_
    have hstep := WorkPool.Step.put (p := s.toPool) (k := .inl w) i (hand_inl hw)
    convert hstep using 1
    refine WorkPool.ext ?_ (WorkPool.hands_worker ..) rfl rfl
    exact (SeqRing.elements_update ..).trans
      (congrArg _ ((h.rings i).pushBack_inv (hfew i) hr).elements_eq)

/-! ## Runs -/

/-- Every state of a run is one of the pool of queues. -/
theorem Reachable.refines (h : s.Reachable) : s.Inv ∧ WorkPool.Steps .empty s.toPool := by
  refine Reach.invariant (P := fun s => s.Inv ∧ WorkPool.Steps .empty s.toPool) h
    ⟨inv_init, .of_eq toPool_init.symm⟩ ?_
  rintro s e s' ⟨hi, hs⟩ hfew hstep
  have hm := moves_step (TaskFault.ok_of_toOption hstep)
  exact ⟨hm.inv hi hfew, hs.trans (hm.steps hi hfew)⟩

theorem Reachable.conserves [Fintype P] (h : s.Reachable) :
    (s.submitted : Multiset Task) = ∑ i, ((s.queues i).elements : Multiset Task) +
      (∑ w, ((s.workers w).hand : Multiset Task) +
        ∑ p, (PushCall.hand (s.callers p) : Multiset Task)) + s.executed := by
  have hall := h.refines.2.conserves WorkPool.conserved_empty
  unfold WorkPool.Conserved WorkPool.contents at hall
  rw [Fintype.sum_sum_type] at hall
  exact hall

theorem Reachable.null_notMem (h : s.Reachable) : Task.null ∉ s.executed := fun hnull =>
  h.refines.1.executed _ hnull rfl

/-- A run is one of a pool of queues : every call of `pushTpool` has its task in one queue, in the
hands of one thread, or executed once, and the NULL task is never executed. -/
theorem tpool_exactly_once [Fintype P] (h : s.Reachable) :
    WorkPool.Steps .empty s.toPool ∧
      (s.submitted : Multiset Task) = ∑ i, ((s.queues i).elements : Multiset Task) +
        (∑ w, ((s.workers w).hand : Multiset Task) +
          ∑ p, (PushCall.hand (s.callers p) : Multiset Task)) + s.executed ∧
      Task.null ∉ s.executed :=
  ⟨h.refines.2, h.conserves, h.null_notMem⟩

/-- A call, and the worker that takes its task and runs it. -/
theorem tpool_exactly_once_one : ∃ s : Tpool 2 Unit, s.Reachable ∧ s.executed = [⟨7, 8⟩] ∧
    WorkPool.Steps .empty s.toPool ∧
      (s.submitted : Multiset Task) = ∑ i, ((s.queues i).elements : Multiset Task) +
        (∑ w, ((s.workers w).hand : Multiset Task) +
          ∑ p, (PushCall.hand (s.callers p) : Multiset Task)) + s.executed ∧
      Task.null ∉ s.executed := by
  have hrun : (([.call () ⟨7, 8⟩, .push () true, .push () false, .work 0 false, .work 0 false,
      .work 0 false] : List (TpoolEvent 2 Unit)).foldlM
        (fun s e => if FewTasks s e then (step s e).toOption else none) init).map
          (fun s => s.executed) = some [⟨7, 8⟩] := by
    decide +kernel
  obtain ⟨s, hs, he⟩ := Option.map_eq_some_iff.1 hrun
  have hreach : s.Reachable := reach_of_checked hs
  exact ⟨s, hreach, he, tpool_exactly_once hreach⟩

end Tpool

end NrStack
