import NrStack.Common.TaskRing
import NrStack.Library.Run
import NrStack.Library.WorkPool

/-!
# The task manager

`task_manager.c` : `n` worker threads with a queue each. `async_task_manager` tries the queues in
turn, from the one its ticket says on, and waits for that one if the lock of every queue is held. A
worker takes up to 4096 tasks at once from the first queue that has some, its own first, and waits
at its own if it found none. `free_task_manager` marks each queue as done, and a worker that comes
to wait at a queue that is done goes, even if there are tasks in it.

A step is what one thread does between two locks. The callers of `async_task_manager` are the
threads `P`, a task that calls it among them. `busy` says that a lock is held by another thread when
it is tried, so it may be anything.

Every state a run leads to is that of a pool of queues (`TaskManager.Reachable.refines`).
-/

set_option linter.unusedSectionVars false

namespace NrStack

/-! ## Batches -/

namespace SeqRing

variable (r : SeqRing Task)

/-- `ret.len` -/
def batchLen : Nat :=
  if r.size < 4096 then r.size else 4096

/-- What `try_pop_not_q` does with the ring : the batch, and what is left. -/
def tryPopBatch : Option (List Task × SeqRing Task) := do
  let batch ← (List.range r.batchLen).mapM fun i => r.array[r.at' i]?
  let r' ← r.erase .null r.front (r.at' r.batchLen)
  if r.size = r.batchLen + r'.size then some (batch, r') else none

/-- What `pop_not_q` does with the ring. -/
def popBatch : Option (List Task × SeqRing Task) := do
  let batch ← (List.range r.batchLen).mapM fun i =>
    if r.at' i = r.end' then none else r.array[r.at' i]?
  let r' ← r.erase .null r.front (r.at' r.batchLen)
  return (batch, r')

end SeqRing

namespace SeqRingInv

variable {r : SeqRing Task} {l : List Task}

theorem batchLen_eq (h : SeqRingInv r l) : r.batchLen = min l.length 4096 := by
  rw [SeqRing.batchLen, h.size_eq]
  split_ifs <;> omega

theorem mapM_getElem? {f : Nat → Option Task} {k : Nat} (hk : k ≤ l.length)
    (hf : ∀ i < k, f i = l[i]?) : (List.range k).mapM f = some (l.take k) := by
  induction k with
  | zero => rfl
  | succ k ih =>
    rw [List.range_succ, List.mapM_append, ih (by omega) fun i hi => hf i (by omega),
      List.mapM_cons, hf k (Nat.lt_succ_self k), List.getElem?_eq_getElem (by omega),
      List.mapM_nil, List.take_succ_eq_append_getElem (by omega)]
    rfl

theorem getElem?_at (h : SeqRingInv r l) {i : Nat} (hi : i < l.length) :
    r.array[r.at' i]? = l[i]? := by
  rw [h.at_eq, h.getElem?_slot hi]

/-- What both leave. -/
theorem erase_batch (h : SeqRingInv r l) : ∃ r',
    r.erase .null r.front (r.at' r.batchLen) = some r' ∧ SeqRingInv r' (l.drop 4096) ∧
      r.size = r.batchLen + r'.size := by
  obtain ⟨r', hr', hinv⟩ := h.erase .null (h.batchLen_eq ▸ min_le_left l.length 4096)
  have hdrop : l.drop r.batchLen = l.drop 4096 := by
    rw [h.batchLen_eq]
    rcases Nat.le_total l.length 4096 with hle | hle
    · rw [min_eq_left hle, List.drop_length, List.drop_eq_nil_of_le hle]
    · rw [min_eq_right hle]
  rw [hdrop] at hinv
  refine ⟨r', hr', hinv, ?_⟩
  rw [h.size_eq, hinv.size_eq, h.batchLen_eq, List.length_drop]
  omega

theorem take_batch (h : SeqRingInv r l) : l.take r.batchLen = l.take 4096 := by
  rw [h.batchLen_eq]
  rcases Nat.le_total l.length 4096 with hle | hle
  · rw [min_eq_left hle, List.take_length, List.take_of_length_le hle]
  · rw [min_eq_right hle]

/-- Both take the first tasks, and leave the others. -/
theorem tryPopBatch (h : SeqRingInv r l) : ∃ r', r.tryPopBatch = some (l.take 4096, r') ∧
    SeqRingInv r' (l.drop 4096) := by
  obtain ⟨r', hr', hinv, hsize⟩ := h.erase_batch
  have hlen : r.batchLen ≤ l.length := h.batchLen_eq ▸ min_le_left l.length 4096
  have hmap := mapM_getElem? (f := fun i => r.array[r.at' i]?) hlen fun i hi =>
    h.getElem?_at (hi.trans_le hlen)
  rw [h.take_batch] at hmap
  refine ⟨r', ?_, hinv⟩
  rw [SeqRing.tryPopBatch, hmap, Option.bind_eq_bind, Option.bind_some, hr', Option.bind_eq_bind,
    Option.bind_some, if_pos hsize]

theorem popBatch (h : SeqRingInv r l) : ∃ r', r.popBatch = some (l.take 4096, r') ∧
    SeqRingInv r' (l.drop 4096) := by
  obtain ⟨r', hr', hinv, -⟩ := h.erase_batch
  have hlen : r.batchLen ≤ l.length := h.batchLen_eq ▸ min_le_left l.length 4096
  have hend : ∀ i < r.batchLen, r.at' i ≠ r.end' := fun i hi heq => by
    rw [h.at_eq, h.end_eq, h.slot_inj (hi.trans_le hlen).le le_rfl] at heq
    omega
  have hmap := mapM_getElem? (f := fun i => if r.at' i = r.end' then none else r.array[r.at' i]?)
    hlen fun i hi => by rw [if_neg (hend i hi), h.getElem?_at (hi.trans_le hlen)]
  rw [h.take_batch] at hmap
  refine ⟨r', ?_, hinv⟩
  rw [SeqRing.popBatch, hmap, Option.bind_eq_bind, Option.bind_some, hr']
  rfl

end SeqRingInv

/-! ## Threads -/

/-- `not_q_t` -/
@[ext] structure NotQ where
  r : SeqRing Task
  done : Bool

/-- Where a worker thread is : before `try_pop_not_q` of queue `i`, or before `pop_not_q` at the end
of the loop; before the next task of its batch; or at its end. -/
inductive TaskWorker
  | scan (i : Nat)
  | batch (ts : List Task)
  | exited
deriving DecidableEq, Repr

/-- `task_manager_t`, with the threads that use it, the number of queues that `free_task_manager`
has marked as done, and the tasks of all calls and of all executions. -/
@[ext] structure TaskManager (n : Nat) (P : Type) where
  index : Nat
  qArr : Fin n → NotQ
  workers : Fin n → TaskWorker
  callers : P → Option PushCall
  freed : Nat
  submitted : List Task
  executed : List Task

/-- A call of `async_task_manager`, the next step of one, the next step of a worker, and the next
one of `free_task_manager`. -/
inductive TaskEvent (n : Nat) (P : Type)
  | call (p : P) (t : Task)
  | push (p : P) (busy : Bool)
  | work (w : Fin n) (busy : Bool)
  | free

namespace TaskManager

variable {n : Nat} [NeZero n] {P : Type} [DecidableEq P] (s : TaskManager n P)

/-- `init_task_manager` with `n` threads. -/
def init : TaskManager n P where
  index := 0
  qArr _ := ⟨.empty .null 32768, false⟩
  workers w := .scan w
  callers _ := none
  freed := 0
  submitted := []
  executed := []

/-- Queue `i` has another ring. -/
def setRing (i : Fin n) (r : SeqRing Task) : TaskManager n P :=
  { s with qArr := Function.update s.qArr i { s.qArr i with r := r } }

/-- `seq_ring_push_back` to queue `i`. -/
def pushBack (i : Fin n) (t : Task) : Except TaskFault (TaskManager n P) :=
  (TaskFault.memory.unless ((s.qArr i).r.pushBack .null t)).map (s.setRing i)

/-- The next step of `async_task_manager` : what is left of the call. -/
def pushStep (c : PushCall) (busy : Bool) : Except TaskFault (TaskManager n P × Option PushCall) :=
  if c.tried < n then
    if c.task.func = 0 ∨ c.task.args = 0 then .error .assertion
    else if busy then .ok (s, some { c with tried := c.tried + 1 })
    else (s.pushBack (.ofNat n ((c.tried + c.index) % 2 ^ 64)) c.task).map (·, none)
  else if c.task.func = 0 then .error .assertion
  else (s.pushBack (.ofNat n c.index) c.task).map (·, none)

/-- Worker `w` has a batch of queue `i`, or the assertion on it failed. -/
def takeBatch (w i : Fin n) (batch : Option (List Task × SeqRing Task)) :
    Except TaskFault (TaskManager n P) :=
  (TaskFault.assertion.unless batch).map fun tr =>
    { s.setRing i tr.2 with workers := Function.update s.workers w (.batch tr.1) }

/-- The next step of `worker_thread`. -/
def workStep (w : Fin n) (busy : Bool) : Except TaskFault (TaskManager n P) :=
  match s.workers w with
  | .scan i =>
    if i < 3 * (n + w) then
      let q : Fin n := .ofNat n i
      if busy ∨ (s.qArr q).r.size = 0 then
        .ok { s with workers := Function.update s.workers w (.scan (i + 1)) }
      else s.takeBatch w q (s.qArr q).r.tryPopBatch
    else if (s.qArr w).done then .ok { s with workers := Function.update s.workers w .exited }
    else if (s.qArr w).r.size = 0 then .error .waits
    else s.takeBatch w w (s.qArr w).r.popBatch
  | .batch [] => .ok { s with workers := Function.update s.workers w (.scan w) }
  | .batch (t :: ts) =>
    if t.func = 0 then .error .nullFunction
    else .ok { s with
      workers := Function.update s.workers w (.batch ts), executed := s.executed ++ [t] }
  | .exited => .error .waits

/-- `done_not_q` of queue `i`. -/
def setDone (i : Fin n) : TaskManager n P :=
  { s with qArr := Function.update s.qArr i { s.qArr i with done := true } }

/-- A step of a thread. -/
def step : TaskEvent n P → Except TaskFault (TaskManager n P)
  | .call p t =>
    match s.callers p with
    | some _ => .error .waits
    | none =>
      if t.func = 0 then .error .assertion
      else .ok { s with
        index := (s.index + 1) % 2 ^ 64
        callers := Function.update s.callers p (some ⟨t, s.index, 0⟩)
        submitted := s.submitted ++ [t] }
  | .push p busy =>
    match s.callers p with
    | none => .error .waits
    | some c => (s.pushStep c busy).map fun sc =>
      { sc.1 with callers := Function.update sc.1.callers p sc.2 }
  | .work w busy => s.workStep w busy
  | .free =>
    if s.freed < n then .ok { s.setDone (.ofNat n s.freed) with freed := s.freed + 1 }
    else .error .waits

/-- No queue comes to `2 ^ 31` tasks. -/
def FewTasks (_ : TaskEvent n P) : Prop :=
  ∀ i, FewElements (s.qArr i).r

instance (e : TaskEvent n P) : Decidable (FewTasks s e) :=
  inferInstanceAs (Decidable (∀ i, FewElements (s.qArr i).r))

/-- A state that a run from the first one leads to. -/
def Reachable (s : TaskManager n P) : Prop :=
  Reach (fun s e => (step s e).toOption) FewTasks init s

end TaskManager

/-! ## What a step can do -/

/-- The tasks in the hands of a worker. -/
def TaskWorker.hand : TaskWorker → List Task
  | .batch ts => ts
  | _ => []

namespace TaskManager

variable {n : Nat} [NeZero n] {P : Type} [DecidableEq P]

/-- What comes of a step. -/
inductive Moves (s : TaskManager n P) : TaskManager n P → Prop
  | call {p : P} {t : Task} (h : s.callers p = none) (ht : t.func ≠ 0) : Moves s { s with
      index := (s.index + 1) % 2 ^ 64
      callers := Function.update s.callers p (some ⟨t, s.index, 0⟩)
      submitted := s.submitted ++ [t] }
  | retry {p : P} {c : PushCall} (h : s.callers p = some c) (ht : c.task.args ≠ 0)
      (htried : c.tried < n) : Moves s { s with
        callers := Function.update s.callers p (some { c with tried := c.tried + 1 }) }
  | put {p : P} {c : PushCall} {i : Fin n} {r : SeqRing Task} (h : s.callers p = some c)
      (hr : (s.qArr i).r.pushBack .null c.task = some r) : Moves s { s.setRing i r with
        callers := Function.update s.callers p none }
  | scan {w : Fin n} {i : Nat} (h : s.workers w = .scan i) (hi : i < 3 * (n + w)) : Moves s { s with
      workers := Function.update s.workers w (.scan (i + 1)) }
  | take {w i : Fin n} {k : Nat} {ts : List Task} {r : SeqRing Task} (h : s.workers w = .scan k)
      (hsize : (s.qArr i).r.size ≠ 0)
      (hr : (s.qArr i).r.tryPopBatch = some (ts, r) ∨ (s.qArr i).r.popBatch = some (ts, r)) :
      Moves s { s.setRing i r with workers := Function.update s.workers w (.batch ts) }
  | next {w : Fin n} (h : s.workers w = .batch []) : Moves s { s with
      workers := Function.update s.workers w (.scan w) }
  | run {w : Fin n} {t : Task} {ts : List Task} (h : s.workers w = .batch (t :: ts))
      (ht : t.func ≠ 0) : Moves s { s with
        workers := Function.update s.workers w (.batch ts), executed := s.executed ++ [t] }
  | exit {w : Fin n} {i : Nat} (h : s.workers w = .scan i) (hdone : (s.qArr w).done = true) :
      Moves s { s with workers := Function.update s.workers w .exited }
  | free (h : s.freed < n) : Moves s { s.setDone (.ofNat n s.freed) with freed := s.freed + 1 }

section

variable {s s' : TaskManager n P} {c : PushCall} {c' : Option PushCall} {busy : Bool} {w : Fin n}

theorem pushBack_eq_ok {i : Fin n} {t : Task} (h : s.pushBack i t = .ok s') :
    ∃ r, (s.qArr i).r.pushBack .null t = some r ∧ s' = s.setRing i r :=
  TaskFault.map_unless_eq_ok h

theorem pushStep_eq_ok (h : s.pushStep c busy = .ok (s', c')) : (s' = s ∧ c.task.args ≠ 0 ∧
      c.tried < n ∧ c' = some { c with tried := c.tried + 1 }) ∨
    c' = none ∧ ∃ i r, (s.qArr i).r.pushBack .null c.task = some r ∧ s' = s.setRing i r := by
  have hput : ∀ i, (s.pushBack i c.task).map (·, none) = .ok (s', c') → c' = none ∧
      ∃ i r, (s.qArr i).r.pushBack .null c.task = some r ∧ s' = s.setRing i r := by
    intro i hi
    obtain ⟨s₁, hs, heq⟩ := TaskFault.map_eq_ok hi
    obtain ⟨r, hr, rfl⟩ := pushBack_eq_ok hs
    rw [Prod.mk.injEq] at heq
    exact ⟨heq.2, i, r, hr, heq.1⟩
  unfold pushStep at h
  split_ifs at h with htried htask
  · rw [Except.ok.injEq, Prod.mk.injEq] at h
    exact .inl ⟨h.1.symm, (not_or.1 htask).2, htried, h.2.symm⟩
  · exact .inr (hput _ h)
  · exact .inr (hput _ h)

theorem takeBatch_eq_ok {i : Fin n} {batch : Option (List Task × SeqRing Task)}
    (h : s.takeBatch w i batch = .ok s') : ∃ ts r, batch = some (ts, r) ∧
      s' = { s.setRing i r with workers := Function.update s.workers w (.batch ts) } := by
  obtain ⟨⟨ts, r⟩, hr, hs⟩ := TaskFault.map_unless_eq_ok h
  exact ⟨ts, r, hr, hs⟩

theorem moves_workStep (h : s.workStep w busy = .ok s') : s.Moves s' := by
  unfold workStep at h
  cases hw : s.workers w with
  | scan i =>
    simp only [hw] at h
    split_ifs at h with hi hfree hdone hsize
    · rw [Except.ok.injEq] at h
      exact h ▸ .scan hw hi
    · obtain ⟨ts, r, hr, rfl⟩ := takeBatch_eq_ok h
      exact .take hw (not_or.1 hfree).2 (.inl hr)
    · rw [Except.ok.injEq] at h
      exact h ▸ .exit hw hdone
    · obtain ⟨ts, r, hr, rfl⟩ := takeBatch_eq_ok h
      exact .take hw hsize (.inr hr)
  | batch ts =>
    cases ts with
    | nil =>
      simp only [hw, Except.ok.injEq] at h
      exact h ▸ .next hw
    | cons t ts =>
      simp only [hw] at h
      split_ifs at h with ht
      rw [Except.ok.injEq] at h
      exact h ▸ .run hw ht
  | exited => simp [hw] at h

theorem moves_step {e : TaskEvent n P} (h : s.step e = .ok s') : s.Moves s' := by
  cases e with
  | call p t =>
    unfold step at h
    cases hp : s.callers p with
    | some _ => simp [hp] at h
    | none =>
      simp only [hp] at h
      split_ifs at h with ht
      rw [Except.ok.injEq] at h
      exact h ▸ .call hp ht
  | push p busy =>
    unfold step at h
    cases hp : s.callers p with
    | none => simp [hp] at h
    | some c =>
      simp only [hp] at h
      obtain ⟨⟨s₁, c₁⟩, hq, rfl⟩ := TaskFault.map_eq_ok h
      rcases pushStep_eq_ok hq with ⟨rfl, ht, htried, rfl⟩ | ⟨rfl, i, r, hr, rfl⟩
      · exact .retry hp ht htried
      · exact .put hp hr
  | work w busy => exact moves_workStep h
  | free =>
    unfold step at h
    dsimp only at h
    split_ifs at h with hfreed
    rw [Except.ok.injEq] at h
    exact h ▸ .free hfreed

end

/-! ## The pool of queues -/

/-- What the threads have in their hands. -/
abbrev hands (workers : Fin n → TaskWorker) (callers : P → Option PushCall) :
    Fin n ⊕ P → List Task :=
  WorkPool.hands TaskWorker.hand PushCall.hand workers callers

/-- The pool that the state holds. -/
def toPool (s : TaskManager n P) : WorkPool (Fin n) (Fin n ⊕ P) Task :=
  ⟨fun i => (s.qArr i).r.elements, hands s.workers s.callers, s.submitted, s.executed⟩

/-- The rings are queues, the first `freed` of them are done, no worker is past its last queue, a
call that was turned away has arguments, and every task has a function. -/
structure Inv (s : TaskManager n P) : Prop where
  rings : ∀ i, SeqRingInv (s.qArr i).r (s.qArr i).r.elements
  done : ∀ i, (s.qArr i).done = true ↔ (i : Nat) < s.freed
  scans : ∀ w i, s.workers w = .scan i → i ≤ 3 * (n + w)
  calls : ∀ p c, s.callers p = some c → c.tried ≤ n ∧ (c.tried ≠ 0 → c.task.args ≠ 0)
  freed : s.freed ≤ n
  funcs : ∀ t ∈ s.submitted, t.func ≠ 0

theorem toPool_queue (s : TaskManager n P) (i : Fin n) :
    s.toPool.queue i = (s.qArr i).r.elements :=
  rfl

variable {s s' : TaskManager n P}

theorem hand_inl {w : Fin n} {x : TaskWorker} (h : s.workers w = x) :
    s.toPool.hand (.inl w) = x.hand :=
  congrArg TaskWorker.hand h

theorem hand_inr {p : P} {c : Option PushCall} (h : s.callers p = c) :
    s.toPool.hand (.inr p) = PushCall.hand c :=
  congrArg PushCall.hand h

theorem qArr_setRing (s : TaskManager n P) (i : Fin n) (r : SeqRing Task) :
    (s.setRing i r).qArr = Function.update s.qArr i { s.qArr i with r := r } :=
  rfl

theorem qArr_setDone (s : TaskManager n P) (i : Fin n) :
    (s.setDone i).qArr = Function.update s.qArr i { s.qArr i with done := true } :=
  rfl

theorem elements_setRing (s : TaskManager n P) (i : Fin n) (r : SeqRing Task) :
    (fun j => ((s.setRing i r).qArr j).r.elements) =
      Function.update (fun j => (s.qArr j).r.elements) i r.elements :=
  funext (Function.apply_update (fun _ q => q.r.elements) s.qArr i { s.qArr i with r := r })

theorem done_setRing (s : TaskManager n P) (i : Fin n) (r : SeqRing Task) (j : Fin n) :
    ((s.setRing i r).qArr j).done = (s.qArr j).done := by
  rw [setRing, Function.apply_update (fun _ q => q.done) s.qArr i]
  by_cases hj : j = i
  · rw [hj, Function.update_self]
  · rw [Function.update_of_ne hj]

theorem ring_setDone (s : TaskManager n P) (i j : Fin n) :
    ((s.setDone i).qArr j).r = (s.qArr j).r := by
  rw [setDone, Function.apply_update (fun _ q => q.r) s.qArr i]
  by_cases hj : j = i
  · rw [hj, Function.update_self]
  · rw [Function.update_of_ne hj]

theorem seqRingInv_init : SeqRingInv (SeqRing.empty Task.null 32768) [] :=
  .empty ⟨15, by decide, by decide, by norm_num⟩

theorem inv_init : (init : TaskManager n P).Inv where
  rings _ := seqRingInv_init.elements_eq.symm ▸ seqRingInv_init
  done i := iff_of_false Bool.false_ne_true (Nat.not_lt_zero i)
  scans w i h := by
    cases h
    omega
  calls p c h := by cases h
  freed := Nat.zero_le n
  funcs t h := absurd h List.not_mem_nil

theorem toPool_init : (init : TaskManager n P).toPool = .empty := by
  refine WorkPool.ext ?_ ?_ rfl rfl
  · exact funext fun i => (toPool_queue init i).trans seqRingInv_init.elements_eq
  · funext k
    cases k <;> rfl

theorem rings_setRing (h : s.Inv) {i : Fin n} {r : SeqRing Task} {l : List Task}
    (hr : SeqRingInv r l) (j : Fin n) :
    SeqRingInv ((s.setRing i r).qArr j).r ((s.setRing i r).qArr j).r.elements := by
  rw [qArr_setRing]
  by_cases hij : j = i
  · rw [hij, Function.update_self]
    exact hr.elements_eq.symm ▸ hr
  · rw [Function.update_of_ne hij]
    exact h.rings j

theorem done_iff_setRing (h : s.Inv) (i : Fin n) (r : SeqRing Task) (j : Fin n) :
    ((s.setRing i r).qArr j).done = true ↔ (j : Nat) < s.freed := by
  rw [done_setRing, h.done j]

theorem scans_update (h : s.Inv) {w : Fin n} {x : TaskWorker}
    (hx : ∀ i, x = .scan i → i ≤ 3 * (n + w)) (v : Fin n) (i : Nat)
    (hi : Function.update s.workers w x v = .scan i) : i ≤ 3 * (n + v) := by
  by_cases hvw : v = w
  · rw [hvw, Function.update_self] at hi
    exact hvw ▸ hx i hi
  · rw [Function.update_of_ne hvw] at hi
    exact h.scans v i hi

theorem calls_update (h : s.Inv) {p : P} {c : Option PushCall}
    (hc : ∀ d, c = some d → d.tried ≤ n ∧ (d.tried ≠ 0 → d.task.args ≠ 0)) (q : P) (d : PushCall)
    (hd : Function.update s.callers p c q = some d) :
    d.tried ≤ n ∧ (d.tried ≠ 0 → d.task.args ≠ 0) := by
  by_cases hqp : q = p
  · rw [hqp, Function.update_self] at hd
    exact hc d hd
  · rw [Function.update_of_ne hqp] at hd
    exact h.calls q d hd

/-- Both ways to take a batch take the first 4096 tasks. -/
theorem batch_eq {r r' : SeqRing Task} {l ts : List Task} (h : SeqRingInv r l)
    (hr : r.tryPopBatch = some (ts, r') ∨ r.popBatch = some (ts, r')) :
    ts = l.take 4096 ∧ SeqRingInv r' (l.drop 4096) := by
  have heq : ∀ {o : Option (List Task × SeqRing Task)}, (∃ r₁, o = some (l.take 4096, r₁) ∧
      SeqRingInv r₁ (l.drop 4096)) → o = some (ts, r') →
        ts = l.take 4096 ∧ SeqRingInv r' (l.drop 4096) := by
    rintro o ⟨r₁, rfl, hinv⟩ ho
    rw [Option.some.injEq, Prod.mk.injEq] at ho
    exact ⟨ho.1.symm, ho.2 ▸ hinv⟩
  exact hr.elim (heq h.tryPopBatch) (heq h.popBatch)

theorem done_free (h : s.Inv) (hfreed : s.freed < n) (i : Fin n) :
    ((s.setDone (.ofNat n s.freed)).qArr i).done = true ↔ (i : Nat) < s.freed + 1 := by
  have hval : ((Fin.ofNat n s.freed : Fin n) : Nat) = s.freed := Nat.mod_eq_of_lt hfreed
  rw [qArr_setDone]
  by_cases hi : i = .ofNat n s.freed
  · rw [hi, Function.update_self, hval]
    exact iff_of_true rfl (Nat.lt_succ_self _)
  · have hne : (i : Nat) ≠ s.freed := fun heq => hi (Fin.ext (heq.trans hval.symm))
    rw [Function.update_of_ne hi, h.done i]
    omega

theorem Moves.inv (hm : s.Moves s') (h : s.Inv) (hfew : ∀ i, FewElements (s.qArr i).r) :
    s'.Inv := by
  cases hm with
  | @call p t hp ht =>
    refine ⟨h.rings, h.done, h.scans, calls_update h ?_, h.freed, fun x hx => ?_⟩
    · intro c hc
      cases hc
      exact ⟨Nat.zero_le n, fun h0 => absurd rfl h0⟩
    · rcases List.mem_append.1 hx with hx | hx
      · exact h.funcs x hx
      · rw [List.mem_singleton.1 hx]
        exact ht
  | @retry p c hp ht htried =>
    refine ⟨h.rings, h.done, h.scans, calls_update h ?_, h.freed, h.funcs⟩
    intro d hd
    cases hd
    exact ⟨htried, fun _ => ht⟩
  | @put p c i r hp hr =>
    have hring := (h.rings i).pushBack_inv (hfew i) hr
    exact ⟨rings_setRing h hring, done_iff_setRing h _ _, h.scans,
      calls_update h (by intro d hd; cases hd), h.freed, h.funcs⟩
  | scan hw hi =>
    refine ⟨h.rings, h.done, scans_update h ?_, h.calls, h.freed, h.funcs⟩
    intro j hj
    cases hj
    exact hi
  | take hw hsize hr =>
    exact ⟨rings_setRing h (batch_eq (h.rings _) hr).2, done_iff_setRing h _ _,
      scans_update h (by intro j hj; cases hj), h.calls, h.freed, h.funcs⟩
  | next hw =>
    refine ⟨h.rings, h.done, scans_update h ?_, h.calls, h.freed, h.funcs⟩
    intro j hj
    cases hj
    omega
  | run hw ht =>
    exact ⟨h.rings, h.done, scans_update h (by intro j hj; cases hj), h.calls, h.freed, h.funcs⟩
  | exit hw hdone =>
    exact ⟨h.rings, h.done, scans_update h (by intro j hj; cases hj), h.calls, h.freed, h.funcs⟩
  | free hfreed =>
    exact ⟨fun j => (ring_setDone s _ j).symm ▸ h.rings j, done_free h hfreed, h.scans, h.calls,
      hfreed, h.funcs⟩

/-- What a step does in the pool of queues. -/
theorem Moves.steps (hm : s.Moves s') (h : s.Inv) (hfew : ∀ i, FewElements (s.qArr i).r) :
    WorkPool.Steps s.toPool s'.toPool := by
  cases hm with
  | @call p t hp ht =>
    refine .single ?_
    have hstep := WorkPool.Step.submit (p := s.toPool) (.inr p) t
    have hhand : s.toPool.hand (.inr p) = [] := hand_inr hp
    rw [hhand] at hstep
    convert hstep using 1
    exact WorkPool.ext rfl (WorkPool.hands_caller ..) rfl rfl
  | retry hp ht htried =>
    exact .of_eq (WorkPool.ext rfl (WorkPool.hands_caller_eq (hp ▸ rfl)).symm rfl rfl)
  | @put p c i r hp hr =>
    refine .single ?_
    have hstep := WorkPool.Step.put (p := s.toPool) (k := .inr p) i (hand_inr hp)
    convert hstep using 1
    refine WorkPool.ext ?_ (WorkPool.hands_caller ..) rfl rfl
    exact (elements_setRing ..).trans
      (congrArg _ ((h.rings i).pushBack_inv (hfew i) hr).elements_eq)
  | scan hw hi =>
    exact .of_eq (WorkPool.ext rfl (WorkPool.hands_worker_eq (hw ▸ rfl)).symm rfl rfl)
  | @take w i k ts r hw hsize hr =>
    refine .single ?_
    have hstep := WorkPool.Step.take (p := s.toPool) (.inl w) i 4096
    obtain ⟨rfl, hinv⟩ := batch_eq (h.rings i) hr
    have hhand : s.toPool.hand (.inl w) = [] := hand_inl hw
    rw [hhand] at hstep
    convert hstep using 1
    refine WorkPool.ext ?_ (WorkPool.hands_worker ..) rfl rfl
    exact (elements_setRing ..).trans (congrArg _ hinv.elements_eq)
  | next hw =>
    exact .of_eq (WorkPool.ext rfl (WorkPool.hands_worker_eq (hw ▸ rfl)).symm rfl rfl)
  | @run w t ts hw ht =>
    refine .single ?_
    have hstep := WorkPool.Step.run (p := s.toPool) (k := .inl w) (hand_inl hw)
    convert hstep using 1
    exact WorkPool.ext rfl (WorkPool.hands_worker ..) rfl rfl
  | exit hw hdone =>
    exact .of_eq (WorkPool.ext rfl (WorkPool.hands_worker_eq (hw ▸ rfl)).symm rfl rfl)
  | free hfreed =>
    refine .of_eq (WorkPool.ext (funext fun j => ?_) rfl rfl rfl)
    exact (congrArg SeqRing.elements (ring_setDone s _ j)).symm

/-! ## Runs -/

/-- Every state of a run is one of the pool of queues. -/
theorem Reachable.refines (h : s.Reachable) : s.Inv ∧ WorkPool.Steps .empty s.toPool := by
  refine Reach.invariant (P := fun s => s.Inv ∧ WorkPool.Steps .empty s.toPool) h
    ⟨inv_init, .of_eq toPool_init.symm⟩ ?_
  rintro s e s' ⟨hi, hs⟩ hfew hstep
  have hm := moves_step (TaskFault.ok_of_toOption hstep)
  exact ⟨hm.inv hi hfew, hs.trans (hm.steps hi hfew)⟩

theorem Reachable.conserves [Fintype P] (h : s.Reachable) :
    (s.submitted : Multiset Task) = ∑ i, ((s.qArr i).r.elements : Multiset Task) +
      (∑ w, ((s.workers w).hand : Multiset Task) +
        ∑ p, (PushCall.hand (s.callers p) : Multiset Task)) + s.executed := by
  have hall := h.refines.2.conserves WorkPool.conserved_empty
  unfold WorkPool.Conserved WorkPool.contents at hall
  rw [Fintype.sum_sum_type] at hall
  exact hall

/-- A run is one of a pool of queues : every task of a call is in one queue, in the hands of one
thread, or executed once, and has a function. -/
theorem taskManager_exactly_once [Fintype P] (h : s.Reachable) :
    WorkPool.Steps .empty s.toPool ∧
      (s.submitted : Multiset Task) = ∑ i, ((s.qArr i).r.elements : Multiset Task) +
        (∑ w, ((s.workers w).hand : Multiset Task) +
          ∑ p, (PushCall.hand (s.callers p) : Multiset Task)) + s.executed ∧
      ∀ t ∈ s.submitted, t.func ≠ 0 :=
  ⟨h.refines.2, h.conserves, h.refines.1.funcs⟩

/-- Two tasks, taken as one batch. -/
theorem taskManager_exactly_once_two : ∃ s : TaskManager 1 Unit, s.Reachable ∧
    s.executed = [⟨2, 1⟩] ∧ s.workers 0 = .batch [⟨3, 1⟩] ∧ WorkPool.Steps .empty s.toPool ∧
      (s.submitted : Multiset Task) = ∑ i, ((s.qArr i).r.elements : Multiset Task) +
        (∑ w, ((s.workers w).hand : Multiset Task) +
          ∑ p, (PushCall.hand (s.callers p) : Multiset Task)) + s.executed ∧
      ∀ t ∈ s.submitted, t.func ≠ 0 := by
  have hrun : (([.call () ⟨2, 1⟩, .push () false, .call () ⟨3, 1⟩, .push () true, .push () false,
      .work 0 false, .work 0 false] : List (TaskEvent 1 Unit)).foldlM
        (fun s e => if FewTasks s e then (step s e).toOption else none) init).map
          (fun s => (s.executed, s.workers 0)) = some ([⟨2, 1⟩], .batch [⟨3, 1⟩]) := by
    decide +kernel
  obtain ⟨s, hs, he⟩ := Option.map_eq_some_iff.1 hrun
  rw [Prod.mk.injEq] at he
  have hreach : s.Reachable := reach_of_checked hs
  exact ⟨s, hreach, he.1, he.2, taskManager_exactly_once hreach⟩

end TaskManager

end NrStack
