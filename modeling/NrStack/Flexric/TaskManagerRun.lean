import NrStack.Flexric.TaskManager

/-!
# Runs of the task manager

A step fails only for a task without a function, or for one without arguments (`TaskManager.Fails`)
: `async_task_manager` takes the latter, but `try_push_not_q` asserts that there are some. Without
new calls every run comes to an end (`TaskManager.weight`), and then the workers whose queues are
done have gone, the others wait at empty queues, and what was submitted was executed or is in a
queue that is done. -/

set_option linter.unusedSectionVars false

namespace NrStack

namespace TaskManager

variable {n : Nat} [NeZero n] {P : Type} [DecidableEq P] {s s' : TaskManager n P} {c : PushCall}
  {busy : Bool} {w : Fin n}

/-! ## Faults -/

theorem pushBack_ok (h : s.Inv) (hfew : ∀ i, FewElements (s.qArr i).r) (i : Fin n) (t : Task) :
    ∃ s', s.pushBack i t = .ok s' := by
  obtain ⟨r, hr, -⟩ := (h.rings i).pushBack .null (hfew i) t
  exact ⟨_, by rw [pushBack, hr]; rfl⟩

theorem pushStep_ok (busy : Bool) (h : s.Inv) (hfew : ∀ i, FewElements (s.qArr i).r)
    (hfunc : c.task.func ≠ 0) (hargs : c.task.args ≠ 0) : ∃ sc, s.pushStep c busy = .ok sc := by
  unfold pushStep
  split_ifs with htried hnull hbusy
  · exact absurd hnull (not_or.2 ⟨hfunc, hargs⟩)
  · exact ⟨_, rfl⟩
  · obtain ⟨s', hs'⟩ := pushBack_ok h hfew (.ofNat n ((c.tried + c.index) % 2 ^ 64)) c.task
    exact ⟨_, by rw [hs']; rfl⟩
  · obtain ⟨s', hs'⟩ := pushBack_ok h hfew (.ofNat n c.index) c.task
    exact ⟨_, by rw [hs']; rfl⟩

theorem takeBatch_ok {i : Fin n} {o : Option (List Task × SeqRing Task)} {ts : List Task}
    {r : SeqRing Task} (ho : o = some (ts, r)) : ∃ s', s.takeBatch w i o = .ok s' :=
  ⟨_, by rw [takeBatch, ho]; rfl⟩

/-- Where a step fails. -/
def Fails (s : TaskManager n P) : TaskEvent n P → Prop
  | .call p t => s.callers p = none ∧ t.func = 0
  | .push p _ => ∃ c, s.callers p = some c ∧ c.task.args = 0
  | .work _ _ => False
  | .free => False

/-- Where a step has to wait : a call or a thread that is not there, a worker at its own queue, or
`free_task_manager` at a worker. -/
def Waits (s : TaskManager n P) : TaskEvent n P → Prop
  | .call p _ => s.callers p ≠ none
  | .push p _ => s.callers p = none
  | .work w _ => s.workers w = .exited ∨
      s.workers w = .scan (3 * (n + w)) ∧ s.freed ≤ w ∧ (s.qArr w).r.elements = []
  | .free => s.freed = n

/-- What is there was submitted, so it has a function. -/
theorem Reachable.func_ne_zero (h : s.Reachable) {k : Fin n ⊕ P} {t : Task}
    (ht : t ∈ s.toPool.hand k) : t.func ≠ 0 :=
  h.refines.1.funcs t ((h.refines.2.covered WorkPool.covered_empty).hand k t ht)

theorem Fails.error {e : TaskEvent n P} (h : s.Inv) (hf : s.Fails e) :
    s.step e = .error .assertion := by
  cases e with
  | call p t =>
    simp only [step, hf.1]
    exact if_pos hf.2
  | push p busy =>
    obtain ⟨c, hc, hargs⟩ := hf
    have htried : c.tried = 0 := by
      by_contra hne
      exact (h.calls p c hc).2 hne hargs
    simp only [step, hc, pushStep, htried, if_pos (NeZero.pos n), hargs, or_true, if_true]
    rfl
  | work w busy => exact hf.elim
  | free => exact hf.elim

theorem not_done_iff (h : s.Inv) : (s.qArr w).done = false ↔ s.freed ≤ w := by
  rw [← Bool.not_eq_true, h.done w, not_lt]

theorem Waits.error {e : TaskEvent n P} (h : s.Inv) (hw : s.Waits e) :
    s.step e = .error .waits := by
  cases e with
  | call p t =>
    obtain ⟨c, hc⟩ := Option.ne_none_iff_exists'.1 hw
    simp only [step, hc]
  | push p busy =>
    replace hw : s.callers p = none := hw
    simp only [step, hw]
  | work w busy =>
    rcases hw with hw | ⟨hw, hdone, hempty⟩
    · simp only [step, workStep, hw]
    · have hsize := (h.rings w).size_eq_zero_iff.2 hempty
      have hnot : ¬(s.qArr w).done = true := by simp [(not_done_iff h).2 hdone]
      simp only [step, workStep, hw, if_neg (lt_irrefl _), if_neg hnot, if_pos hsize]
  | free =>
    replace hw : s.freed = n := hw
    simp only [step, if_neg (not_lt.2 hw.ge)]

/-- Every other step goes on. -/
theorem step_ok {e : TaskEvent n P} (h : s.Reachable) (hfew : FewTasks s e) (hf : ¬s.Fails e)
    (hw : ¬s.Waits e) : ∃ s', s.step e = .ok s' := by
  have hi := h.refines.1
  cases e with
  | call p t =>
    have hp : s.callers p = none := not_not.1 hw
    have ht : ¬t.func = 0 := fun ht => hf ⟨hp, ht⟩
    exact ⟨_, by simp only [step, hp, if_neg ht]; rfl⟩
  | push p busy =>
    obtain ⟨c, hc⟩ := Option.ne_none_iff_exists'.1 hw
    have hfunc : c.task.func ≠ 0 := h.func_ne_zero (k := .inr p) (by
      rw [hand_inr hc]
      exact List.mem_singleton_self _)
    obtain ⟨sc, hsc⟩ := pushStep_ok busy hi hfew hfunc fun hargs => hf ⟨c, hc, hargs⟩
    exact ⟨_, by simp only [step, hc, hsc]; rfl⟩
  | work w busy =>
    cases hstate : s.workers w with
    | scan i =>
      simp only [step, workStep, hstate]
      split_ifs with hlt hfree hdone hsize
      · exact ⟨_, rfl⟩
      · obtain ⟨r, hr, -⟩ := (hi.rings (.ofNat n i)).tryPopBatch
        exact takeBatch_ok hr
      · exact ⟨_, rfl⟩
      · have hend : i = 3 * (n + w) := le_antisymm (hi.scans w i hstate) (not_lt.1 hlt)
        have hopen := (not_done_iff hi).1 (Bool.not_eq_true _ ▸ hdone)
        exact absurd (.inr ⟨hend ▸ hstate, hopen, (hi.rings w).size_eq_zero_iff.1 hsize⟩) hw
      · obtain ⟨r, hr, -⟩ := (hi.rings w).popBatch
        exact takeBatch_ok hr
    | batch ts =>
      cases ts with
      | nil => exact ⟨_, by simp only [step, workStep, hstate]; rfl⟩
      | cons t ts =>
        have hfunc : ¬t.func = 0 := h.func_ne_zero (k := .inl w) (by
          rw [hand_inl hstate]
          exact List.mem_cons_self)
        exact ⟨_, by simp only [step, workStep, hstate, if_neg hfunc]; rfl⟩
    | exited => exact absurd (.inl hstate) hw
  | free =>
    have hlt : s.freed < n := lt_of_le_of_ne hi.freed hw
    exact ⟨_, by simp only [step, if_pos hlt]; rfl⟩

theorem waits_iff {e : TaskEvent n P} (h : s.Reachable) (hfew : FewTasks s e) :
    s.step e = .error .waits ↔ s.Waits e := by
  have hi := h.refines.1
  refine ⟨fun hs => ?_, Waits.error hi⟩
  by_contra hw
  by_cases hf : s.Fails e
  · rw [hf.error hi] at hs
    cases hs
  · obtain ⟨s', hs'⟩ := step_ok h hfew hf hw
    rw [hs'] at hs
    cases hs

/-- A step fails exactly where `async_task_manager` is called without a function, or has taken a
task without arguments : no assertion about a ring or a batch does, and no NULL function is called.
-/
theorem taskManager_fails_iff {e : TaskEvent n P} (h : s.Reachable) (hfew : FewTasks s e) :
    (∃ f, f ≠ .waits ∧ s.step e = .error f) ↔ s.Fails e := by
  have hi := h.refines.1
  constructor
  · rintro ⟨f, hne, hs⟩
    by_contra hf
    by_cases hw : s.Waits e
    · rw [hw.error hi, Except.error.injEq] at hs
      exact hne hs.symm
    · obtain ⟨s', hs'⟩ := step_ok h hfew hf hw
      rw [hs'] at hs
      cases hs
  · exact fun hf => ⟨_, by decide, hf.error hi⟩

/-- A task with a function and no arguments is taken, and fails at the first queue. -/
theorem taskManager_fails_iff_args : ∃ s : TaskManager 2 Unit, s.Reachable ∧
    s.submitted = [⟨0, 1⟩] ∧ ((∃ f, f ≠ .waits ∧ s.step (.push () true) = .error f) ↔
      s.Fails (.push () true)) ∧ s.Fails (.push () true) := by
  have hrun : (([.call () ⟨0, 1⟩] : List (TaskEvent 2 Unit)).foldlM
        (fun s e => if FewTasks s e then (step s e).toOption else none) init).map
          (fun s => (s.submitted, s.callers (), decide (FewTasks s (.push () true)))) =
            some ([⟨0, 1⟩], some ⟨⟨0, 1⟩, 0, 0⟩, true) := by
    decide +kernel
  obtain ⟨s, hs, he⟩ := Option.map_eq_some_iff.1 hrun
  simp only [Prod.mk.injEq, decide_eq_true_eq] at he
  obtain ⟨hsub, hcall, hfew⟩ := he
  have hreach : s.Reachable := reach_of_checked hs
  exact ⟨s, hreach, hsub, taskManager_fails_iff hreach hfew, _, hcall, rfl⟩

/-! ## Rest -/

/-- No call goes on, and no worker. -/
def Idle (s : TaskManager n P) : Prop :=
  (∀ p busy, s.step (.push p busy) = .error .waits) ∧
    ∀ w busy, s.step (.work w busy) = .error .waits

theorem idle_iff (h : s.Reachable) (hfew : ∀ i, FewElements (s.qArr i).r) :
    s.Idle ↔ (∀ p, s.callers p = none) ∧ ∀ w, s.workers w = .exited ∨
      s.workers w = .scan (3 * (n + w)) ∧ s.freed ≤ w ∧ (s.qArr w).r.elements = [] := by
  unfold Idle
  simp only [waits_iff h hfew]
  exact ⟨fun hs => ⟨fun p => hs.1 p true, fun w => hs.2 w true⟩,
    fun hs => ⟨fun p _ => hs.1 p, fun w _ => hs.2 w⟩⟩

/-- A worker goes only when its queue is done. -/
theorem Moves.exited (hm : s.Moves s') (h : s.Inv)
    (hall : ∀ w : Fin n, s.workers w = .exited → (w : Nat) < s.freed) :
    ∀ w : Fin n, s'.workers w = .exited → (w : Nat) < s'.freed := by
  have hupdate : ∀ {v : Fin n} {x : TaskWorker}, (x = .exited → (v : Nat) < s.freed) →
      ∀ w : Fin n, Function.update s.workers v x w = .exited → (w : Nat) < s.freed := by
    intro v x hx w hw
    by_cases hv : w = v
    · rw [hv, Function.update_self] at hw
      exact hv ▸ hx hw
    · rw [Function.update_of_ne hv] at hw
      exact hall w hw
  cases hm with
  | call | retry | put => exact hall
  | scan | take | next | run => exact hupdate (by intro hx; cases hx)
  | @exit w i hw hdone => exact hupdate fun _ => (h.done w).1 hdone
  | free hfreed => exact fun w hw => Nat.lt_succ_of_lt (hall w hw)

theorem Reachable.exited (h : s.Reachable) :
    ∀ w : Fin n, s.workers w = .exited → (w : Nat) < s.freed := by
  refine And.right (Reach.invariant (P := fun s => s.Inv ∧
    ∀ w : Fin n, s.workers w = .exited → (w : Nat) < s.freed) h ⟨inv_init, ?_⟩ ?_)
  · intro w hw
    cases hw
  · rintro s e s' ⟨hi, hall⟩ hfew hstep
    have hm := moves_step (TaskFault.ok_of_toOption hstep)
    exact ⟨hm.inv hi hfew, hm.exited hi hall⟩

/-- At rest no call is left over, the workers that have gone are those whose queues are done, the
other queues are empty, and what was submitted was executed or is in a queue. So before
`free_task_manager` everything was executed, and after it every thread can be joined. -/
theorem taskManager_rests [Fintype P] (h : s.Reachable) (hfew : ∀ i, FewElements (s.qArr i).r)
    (hidle : s.Idle) : (∀ p, s.callers p = none) ∧
      (∀ w : Fin n, s.workers w = .exited ↔ (w : Nat) < s.freed) ∧
      (∀ w : Fin n, s.freed ≤ w → (s.qArr w).r.elements = []) ∧
      (s.submitted : Multiset Task) =
        ∑ i, ((s.qArr i).r.elements : Multiset Task) + s.executed := by
  have hall := h.conserves
  obtain ⟨hcallers, hworkers⟩ := (idle_iff h hfew).1 hidle
  have hexited : ∀ w : Fin n, (w : Nat) < s.freed → s.workers w = .exited := by
    intro w hw
    rcases hworkers w with hx | ⟨-, hle, -⟩
    · exact hx
    · exact absurd hle (not_le.2 hw)
  have hhand : ∀ w, (s.workers w).hand = [] := by
    intro w
    rcases hworkers w with hw | ⟨hw, -⟩ <;> rw [hw] <;> rfl
  have hcaller : ∀ p, PushCall.hand (s.callers p) = [] := fun p => by rw [hcallers p]; rfl
  refine ⟨hcallers, fun w => ⟨h.exited w, hexited w⟩, fun w hw => ?_, ?_⟩
  · rcases hworkers w with hx | ⟨-, -, hempty⟩
    · exact absurd (h.exited w hx) (not_lt.2 hw)
    · exact hempty
  · rw [hall]
    simp only [hhand, hcaller, Multiset.coe_nil, Finset.sum_const_zero, add_zero]

/-- A worker whose queue is done goes, and leaves the task in it. -/
theorem taskManager_rests_left : ∃ s : TaskManager 1 Unit, s.Reachable ∧ s.Idle ∧
    (s.qArr 0).r.elements = [⟨2, 1⟩] ∧ (∀ p, s.callers p = none) ∧
      (∀ w : Fin 1, s.workers w = .exited ↔ (w : Nat) < s.freed) ∧
      (∀ w : Fin 1, s.freed ≤ w → (s.qArr w).r.elements = []) ∧
      (s.submitted : Multiset Task) =
        ∑ i, ((s.qArr i).r.elements : Multiset Task) + s.executed := by
  have hrun : (([.call () ⟨2, 1⟩, .work 0 false, .work 0 false, .work 0 false, .free,
      .push () false, .work 0 false] : List (TaskEvent 1 Unit)).foldlM
        (fun s e => if FewTasks s e then (step s e).toOption else none) init).map
          (fun s => (s.callers (), s.workers 0, decide (FewElements (s.qArr 0).r),
            s.submitted, s.executed)) = some (none, .exited, true, [⟨2, 1⟩], []) := by
    decide +kernel
  obtain ⟨s, hs, he⟩ := Option.map_eq_some_iff.1 hrun
  simp only [Prod.mk.injEq, decide_eq_true_eq] at he
  obtain ⟨hcall, hwork, hfew, hsub, hexec⟩ := he
  have hreach : s.Reachable := reach_of_checked hs
  have hfew : ∀ i, FewElements (s.qArr i).r := fun i => Subsingleton.elim 0 i ▸ hfew
  have hidle : s.Idle := (idle_iff hreach hfew).2
    ⟨fun _ => hcall, fun w => Subsingleton.elim 0 w ▸ .inl hwork⟩
  have hrest := taskManager_rests hreach hfew hidle
  refine ⟨s, hreach, hidle, ?_, hrest⟩
  have hall := hrest.2.2.2
  rw [hsub, hexec, Fin.sum_univ_one, Multiset.coe_nil, add_zero, Multiset.coe_eq_coe] at hall
  exact List.perm_singleton.1 hall.symm

/-! ## Every run comes to rest -/

end TaskManager

/-- What a worker may still do without taking another task. -/
def TaskWorker.weight (bound : Nat) : TaskWorker → Nat
  | .scan i => bound + 1 - i
  | .batch ts => bound + 2 + ts.length
  | .exited => 0

section

variable (bound : Nat)

theorem TaskWorker.weight_scan (i : Nat) : (TaskWorker.scan i).weight bound = bound + 1 - i :=
  rfl

theorem TaskWorker.weight_batch (ts : List Task) :
    (TaskWorker.batch ts).weight bound = bound + 2 + ts.length :=
  rfl

theorem TaskWorker.weight_exited : TaskWorker.exited.weight bound = 0 :=
  rfl

end

/-- What may still come of a call, with `n` queues. -/
def PushCall.weight (n : Nat) : Option PushCall → Nat
  | none => 0
  | some c => 6 * n + 2 + (n - c.tried)

theorem PushCall.weight_none (n : Nat) : PushCall.weight n none = 0 :=
  rfl

theorem PushCall.weight_some (n : Nat) (c : PushCall) :
    PushCall.weight n (some c) = 6 * n + 2 + (n - c.tried) :=
  rfl

namespace TaskManager

variable {n : Nat} [NeZero n] {P : Type} [DecidableEq P] [Fintype P] {s s' : TaskManager n P}

/-- How many steps there may be without new calls. -/
def weight (s : TaskManager n P) : Nat :=
  ∑ i, (6 * n + 1) * (s.qArr i).r.elements.length +
    (∑ w : Fin n, (s.workers w).weight (3 * (n + w)) + ∑ p, PushCall.weight n (s.callers p)) +
      (n - s.freed)

/-- How many steps one call may bring. -/
def callWeight (n : Nat) : Nat :=
  7 * n + 3

theorem sum_workers (w : Fin n) (x : TaskWorker) :
    ∑ v : Fin n, (Function.update s.workers w x v).weight (3 * (n + v)) +
      (s.workers w).weight (3 * (n + w)) =
        ∑ v : Fin n, (s.workers v).weight (3 * (n + v)) + x.weight (3 * (n + w)) :=
  WorkPool.sum_update_add (fun (v : Fin n) (x : TaskWorker) => x.weight (3 * (n + v))) s.workers w x

theorem sum_callers (p : P) (c : Option PushCall) :
    ∑ q, PushCall.weight n (Function.update s.callers p c q) + PushCall.weight n (s.callers p) =
      ∑ q, PushCall.weight n (s.callers q) + PushCall.weight n c :=
  WorkPool.sum_update_add (fun _ => PushCall.weight n) s.callers p c

theorem sum_rings {i : Fin n} {r : SeqRing Task} {l : List Task} (hr : SeqRingInv r l) :
    ∑ j, (6 * n + 1) * ((s.setRing i r).qArr j).r.elements.length +
      (6 * n + 1) * (s.qArr i).r.elements.length =
        ∑ j, (6 * n + 1) * (s.qArr j).r.elements.length + (6 * n + 1) * l.length := by
  have hsum := WorkPool.sum_update_add (fun (_ : Fin n) (q : NotQ) =>
    (6 * n + 1) * q.r.elements.length) s.qArr i { s.qArr i with r := r }
  dsimp only at hsum
  rw [hr.elements_eq] at hsum
  exact hsum

/-- A batch of at most `k` tasks weighs less than they did in the queue. -/
theorem batch_weight {k l : Nat} (hk : 0 < k) (hl : 0 < l) :
    6 * n + min k l + (6 * n + 1) * (l - k) ≤ (6 * n + 1) * l := by
  have hsplit : l = min k l + (l - k) := by omega
  have hbatch : 6 * n * 1 ≤ 6 * n * min k l := Nat.mul_le_mul_left _ (by omega)
  calc 6 * n + min k l + (6 * n + 1) * (l - k)
      ≤ (6 * n + 1) * min k l + (6 * n + 1) * (l - k) := by
        rw [Nat.add_one_mul (6 * n) (min k l)]
        omega
    _ = (6 * n + 1) * l := by rw [← mul_add, ← hsplit]

theorem batch_take {r r' : SeqRing Task} {l ts : List Task} (h : SeqRingInv r l)
    (hr : r.tryPopBatch = some (ts, r') ∨ r.popBatch = some (ts, r')) :
    ∃ k, 0 < k ∧ ts = l.take k ∧ SeqRingInv r' (l.drop k) :=
  ⟨4096, by norm_num, batch_eq h hr⟩

/-- A step makes the state lighter, if no task is submitted. -/
theorem Moves.weight (hm : s.Moves s') (h : s.Inv) (hfew : ∀ i, FewElements (s.qArr i).r) :
    s'.weight + 1 + callWeight n * s.submitted.length ≤
      s.weight + callWeight n * s'.submitted.length := by
  unfold TaskManager.weight
  cases hm with
  | @call p t hp ht =>
    have hsum := sum_callers (s := s) p (some ⟨t, s.index, 0⟩)
    rw [hp] at hsum
    simp only [PushCall.weight_some, PushCall.weight_none, Nat.sub_zero] at hsum
    simp only [List.length_append, List.length_singleton, mul_add, mul_one, callWeight]
    omega
  | @retry p c hp ht htried =>
    have hsum := sum_callers (s := s) p (some { c with tried := c.tried + 1 })
    rw [hp] at hsum
    simp only [PushCall.weight_some] at hsum
    dsimp only
    omega
  | @put p c i r hp hr =>
    have hring := sum_rings (s := s) (i := i) ((h.rings i).pushBack_inv (hfew i) hr)
    have hsum := sum_callers (s := s) p none
    rw [hp] at hsum
    simp only [PushCall.weight_some, PushCall.weight_none] at hsum
    rw [List.length_append, List.length_singleton, mul_add] at hring
    dsimp only [setRing] at hring ⊢
    omega
  | @scan w i hw hi =>
    have hsum := sum_workers (s := s) w (.scan (i + 1))
    rw [hw] at hsum
    simp only [TaskWorker.weight_scan] at hsum
    dsimp only
    omega
  | @take w i j ts r hw hsize hr =>
    obtain ⟨k, hk, rfl, hinv⟩ := batch_take (h.rings i) hr
    have hring := sum_rings (s := s) (i := i) hinv
    have hsum := sum_workers (s := s) w (.batch ((s.qArr i).r.elements.take k))
    have hne : 0 < (s.qArr i).r.elements.length :=
      List.length_pos_iff.2 fun hnil => hsize ((h.rings i).size_eq_zero_iff.2 hnil)
    rw [hw] at hsum
    simp only [TaskWorker.weight_scan, TaskWorker.weight_batch, List.length_take] at hsum
    rw [List.length_drop] at hring
    have hbatch := batch_weight (n := n) hk hne
    dsimp only [setRing] at hring ⊢
    omega
  | @next w hw =>
    have hsum := sum_workers (s := s) w (.scan w)
    rw [hw] at hsum
    simp only [TaskWorker.weight_scan, TaskWorker.weight_batch, List.length_nil] at hsum
    dsimp only
    omega
  | @run w t ts hw ht =>
    have hsum := sum_workers (s := s) w (.batch ts)
    rw [hw] at hsum
    simp only [TaskWorker.weight_batch, List.length_cons] at hsum
    dsimp only
    omega
  | @exit w i hw hdone =>
    have hsum := sum_workers (s := s) w .exited
    have hscan := h.scans w i hw
    rw [hw] at hsum
    simp only [TaskWorker.weight_scan, TaskWorker.weight_exited] at hsum
    dsimp only
    omega
  | free hfreed =>
    simp only [ring_setDone]
    dsimp only [setDone]
    omega

theorem Reachable.next {e : TaskEvent n P} (h : s.Reachable) (hfew : FewTasks s e)
    (hs : s.step e = .ok s') : s'.Reachable :=
  Reach.next h hfew (by rw [hs]; rfl)

theorem weight_run : ∀ {as : List (TaskEvent n P)} {s s' : TaskManager n P}, s.Reachable →
    as.foldlM (fun s e => if FewTasks s e then (step s e).toOption else none) s = some s' →
      as.length + s'.weight + callWeight n * s.submitted.length ≤
        s.weight + callWeight n * s'.submitted.length
  | [], s, s', h, hrun => by
    cases hrun
    rw [List.length_nil, Nat.zero_add]
  | e :: as, s, s', h, hrun => by
    rw [List.foldlM_cons] at hrun
    obtain ⟨s₁, hs₁, hrest⟩ := Option.bind_eq_some_iff.1 hrun
    split_ifs at hs₁ with hfew
    have hstep := TaskFault.ok_of_toOption hs₁
    have hhead := (moves_step hstep).weight h.refines.1 hfew
    have htail := weight_run (h.next hfew hstep) hrest
    rw [List.length_cons]
    omega

/-- Whatever the interleaving, a run is finite but for the calls in it : each brings `7 * n + 3`
steps at most. -/
theorem taskManager_terminates {as : List (TaskEvent n P)} (h : s.Reachable)
    (hrun : as.foldlM (fun s e => if FewTasks s e then (step s e).toOption else none) s = some s') :
    as.length ≤ s.weight + (7 * n + 3) * (s'.submitted.length - s.submitted.length) := by
  have hall := weight_run h hrun
  unfold callWeight at hall
  rw [Nat.mul_sub]
  omega

/-- One task, one worker. -/
theorem taskManager_terminates_one : ∃ as : List (TaskEvent 1 Unit), ∃ s : TaskManager 1 Unit,
    s.executed = [⟨2, 1⟩] ∧ s.workers 0 = .exited ∧
      as.length ≤ (init : TaskManager 1 Unit).weight +
        (7 * 1 + 3) * (s.submitted.length - (init : TaskManager 1 Unit).submitted.length) := by
  have hrun : (([.call () ⟨2, 1⟩, .push () true, .push () false, .work 0 false, .work 0 false,
      .work 0 false, .free, .work 0 true, .work 0 false, .work 0 true, .work 0 false] :
      List (TaskEvent 1 Unit)).foldlM
        (fun s e => if FewTasks s e then (step s e).toOption else none) init).map
          (fun s => (s.executed, s.workers 0)) = some ([⟨2, 1⟩], .exited) := by
    decide +kernel
  obtain ⟨s, hs, he⟩ := Option.map_eq_some_iff.1 hrun
  rw [Prod.mk.injEq] at he
  exact ⟨_, s, he.1, he.2, taskManager_terminates .refl hs⟩

end TaskManager

end NrStack
