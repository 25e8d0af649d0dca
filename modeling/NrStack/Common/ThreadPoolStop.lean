import NrStack.Common.ThreadPool

/-!
# The end of a thread pool

Which steps of a pool fail, and where a run ends. `abortTpool` pushes one NULL task, and each worker
hands it on to the queue of the next ticket. `push_not_q` asserts that a task has a function, so
handing on aborts if the lock of every queue is held (`tpool_fails_iff`). And a worker that is awake
may take the task out of the queue of one that sleeps : a run ends when the task is in the queue of
a worker that has gone, whoever is still waiting at a queue of its own (`tpool_stops`), and with two
workers or more it may end so (`tpool_hangs`). -/

set_option linter.unusedSectionVars false

namespace NrStack

/-- The lock of every queue was held, and the task has no function. -/
def PushCall.Stranded (n : Nat) (c : PushCall) : Prop :=
  n ≤ c.tried ∧ c.task.func = 0

namespace Tpool

variable {n : Nat} [NeZero n] {P : Type} [DecidableEq P] {s s' : Tpool n P} {c : PushCall}
  {busy : Bool} {w : Fin n}

/-! ## Faults -/

theorem pushBack_ok (h : s.Inv) (hfew : ∀ i, FewElements (s.queues i)) (i : Fin n) (t : Task) :
    ∃ s', s.pushBack i t = .ok s' := by
  obtain ⟨r, hr, -⟩ := (h.rings i).pushBack .null (hfew i) t
  exact ⟨_, by rw [pushBack, hr]; rfl⟩

theorem pushStep_ok (busy : Bool) (h : s.Inv) (hfew : ∀ i, FewElements (s.queues i)) (hc : ¬c.Stranded n) :
    ∃ sc, s.pushStep c busy = .ok sc := by
  unfold pushStep
  split_ifs with htried hbusy hfunc
  · exact ⟨_, rfl⟩
  · obtain ⟨s', hs'⟩ := pushBack_ok h hfew (.ofNat n ((c.tried + c.index) % 2 ^ 64)) c.task
    exact ⟨_, by rw [hs']; rfl⟩
  · exact absurd ⟨not_lt.1 htried, hfunc⟩ hc
  · obtain ⟨s', hs'⟩ := pushBack_ok h hfew (.ofNat n c.index) c.task
    exact ⟨_, by rw [hs']; rfl⟩

theorem pushStep_stranded (hc : c.Stranded n) : s.pushStep c busy = .error .assertion := by
  rw [pushStep, if_neg (not_lt.2 hc.1), if_pos hc.2]

theorem pop_ok (h : s.Inv) {i : Fin n} (hi : (s.queues i).size ≠ 0) : ∃ s', s.pop w i = .ok s' := by
  obtain ⟨t, l, hl⟩ := List.exists_cons_of_ne_nil fun hnil =>
    hi ((h.rings i).size_eq_zero_iff.2 hnil)
  have hinv := h.rings i
  rw [hl] at hinv
  obtain ⟨r, hr, -⟩ := hinv.popFront
  exact ⟨_, by rw [pop, hr]; rfl⟩

/-- Where a step fails. -/
def Fails (s : Tpool n P) : TpoolEvent n P → Prop
  | .call _ _ => False
  | .push p _ => ∃ c, s.callers p = some c ∧ c.Stranded n
  | .work w _ => (∃ c, s.workers w = .handOn c ∧ c.Stranded n) ∨
      ∃ t, s.workers w = .got t ∧ t.func = 0 ∧ t.args ≠ 0

/-- Where a step has to wait : a call or a thread that is not there, or a worker at its own queue.
-/
def Waits (s : Tpool n P) : TpoolEvent n P → Prop
  | .call p _ => s.callers p ≠ none
  | .push p _ => s.callers p = none
  | .work w _ => s.workers w = .exited ∨
      ∃ i, s.workers w = .scan i ∧ 2 * (n + w) ≤ i ∧ (s.queues w).elements = []

theorem Fails.error {e : TpoolEvent n P} (h : s.Fails e) :
    s.step e = .error .assertion ∨ s.step e = .error .nullFunction := by
  cases e with
  | call p t => exact h.elim
  | push p busy =>
    obtain ⟨c, hc, hstranded⟩ := h
    left
    simp only [step, hc, pushStep_stranded hstranded]
    rfl
  | work w busy =>
    rcases h with ⟨c, hc, hstranded⟩ | ⟨t, ht, hfunc, hargs⟩
    · left
      simp only [step, workStep, hc, pushStep_stranded hstranded]
      rfl
    · right
      have hnull : t ≠ .null := fun h => hargs (congrArg Task.args h)
      simp only [step, workStep, ht, if_neg hnull, if_pos hfunc]

theorem Waits.error {e : TpoolEvent n P} (h : s.Inv) (hw : s.Waits e) :
    s.step e = .error .waits := by
  cases e with
  | call p t =>
    obtain ⟨c, hc⟩ := Option.ne_none_iff_exists'.1 hw
    simp only [step, hc]
  | push p busy =>
    replace hw : s.callers p = none := hw
    simp only [step, hw]
  | work w busy =>
    rcases hw with hw | ⟨i, hw, hi, hempty⟩
    · simp only [step, workStep, hw]
    · have hsize := (h.rings w).size_eq_zero_iff.2 hempty
      simp only [step, workStep, hw, if_neg (not_lt.2 hi), if_pos hsize]

/-- Every other step goes on. -/
theorem step_ok {e : TpoolEvent n P} (h : s.Inv) (hfew : ∀ i, FewElements (s.queues i))
    (hf : ¬s.Fails e) (hw : ¬s.Waits e) : ∃ s', s.step e = .ok s' := by
  cases e with
  | call p t =>
    have hp : s.callers p = none := not_not.1 hw
    exact ⟨_, by simp only [step, hp]; rfl⟩
  | push p busy =>
    obtain ⟨c, hc⟩ := Option.ne_none_iff_exists'.1 hw
    obtain ⟨sc, hsc⟩ := pushStep_ok busy h hfew fun hst => hf ⟨c, hc, hst⟩
    exact ⟨_, by simp only [step, hc, hsc]; rfl⟩
  | work w busy =>
    have hexited : s.workers w ≠ .exited := fun hx => hw (.inl hx)
    cases hstate : s.workers w with
    | scan i =>
      simp only [step, workStep, hstate]
      split_ifs with hi hfree hsize
      · exact ⟨_, rfl⟩
      · exact pop_ok h (not_or.1 hfree).2
      · exact absurd (.inr ⟨i, hstate, not_lt.1 hi, (h.rings w).size_eq_zero_iff.1 hsize⟩) hw
      · exact pop_ok h hsize
    | got t =>
      simp only [step, workStep, hstate]
      split_ifs with hnull hfunc
      · exact ⟨_, rfl⟩
      · refine absurd (.inr ⟨t, hstate, hfunc, fun hargs => hnull ?_⟩) hf
        cases t
        cases hfunc
        cases hargs
        rfl
      · exact ⟨_, rfl⟩
    | handOn c =>
      obtain ⟨sc, hsc⟩ := pushStep_ok busy h hfew fun hst => hf (.inl ⟨c, hstate, hst⟩)
      exact ⟨_, by simp only [step, workStep, hstate, hsc]; rfl⟩
    | exited => exact absurd hstate hexited

theorem waits_iff {e : TpoolEvent n P} (h : s.Inv) (hfew : ∀ i, FewElements (s.queues i)) :
    s.step e = .error .waits ↔ s.Waits e := by
  refine ⟨fun hs => ?_, Waits.error h⟩
  by_contra hw
  by_cases hf : s.Fails e
  · rcases hf.error with he | he <;> rw [he] at hs <;> cases hs
  · obtain ⟨s', hs'⟩ := step_ok h hfew hf hw
    rw [hs'] at hs
    cases hs

/-- A step fails exactly where every queue was found locked for a task without a function, or where
a task with arguments has none : no assertion about a ring does. -/
theorem tpool_fails_iff {e : TpoolEvent n P} (h : s.Reachable) (hfew : FewTasks s e) :
    (∃ f, f ≠ .waits ∧ s.step e = .error f) ↔ s.Fails e := by
  obtain ⟨hi, -⟩ := h.refines
  constructor
  · rintro ⟨f, hne, hs⟩
    by_contra hf
    by_cases hw : s.Waits e
    · rw [hw.error hi, Except.error.injEq] at hs
      exact hne hs.symm
    · obtain ⟨s', hs'⟩ := step_ok hi hfew hf hw
      rw [hs'] at hs
      cases hs
  · intro hf
    rcases hf.error with hs | hs
    · exact ⟨_, by decide, hs⟩
    · exact ⟨_, by decide, hs⟩

/-- `abortTpool` while two other threads hold the locks of both queues. -/
theorem tpool_fails_iff_abort : ∃ s : Tpool 2 Unit, s.Reachable ∧
    s.submitted = [.null] ∧ ((∃ f, f ≠ .waits ∧ s.step (.push () false) = .error f) ↔
      s.Fails (.push () false)) ∧ s.Fails (.push () false) := by
  have hrun : (([.call () .null, .push () true, .push () true] : List (TpoolEvent 2 Unit)).foldlM
        (fun s e => if FewTasks s e then (step s e).toOption else none) init).map
          (fun s => (s.submitted, s.callers (), decide (FewTasks s (.push () false)))) =
            some ([.null], some ⟨.null, 0, 2⟩, true) := by
    decide +kernel
  obtain ⟨s, hs, he⟩ := Option.map_eq_some_iff.1 hrun
  simp only [Prod.mk.injEq, decide_eq_true_eq] at he
  obtain ⟨hsub, hcall, hfew⟩ := he
  have hreach : s.Reachable := reach_of_checked hs
  exact ⟨s, hreach, hsub, tpool_fails_iff hreach hfew, _, hcall, le_rfl, rfl⟩

/-! ## The last state -/

/-- No call goes on, and no worker. -/
def Ended (s : Tpool n P) : Prop :=
  (∀ p busy, s.step (.push p busy) = .error .waits) ∧
    ∀ w busy, s.step (.work w busy) = .error .waits

theorem ended_iff (h : s.Inv) (hfew : ∀ i, FewElements (s.queues i)) :
    s.Ended ↔ (∀ p, s.callers p = none) ∧ ∀ w, s.workers w = .exited ∨
      ∃ i, s.workers w = .scan i ∧ 2 * (n + w) ≤ i ∧ (s.queues w).elements = [] := by
  unfold Ended
  simp only [waits_iff h hfew]
  exact ⟨fun hs => ⟨fun p => hs.1 p true, fun w => hs.2 w true⟩,
    fun hs => ⟨fun p _ => hs.1 p, fun w _ => hs.2 w⟩⟩

/-- After one `abortTpool`, a run ends with the NULL task in the queue of a worker that has gone.
The workers that have not gone wait at empty queues, and what the others have in theirs is not run.
-/
theorem tpool_stops [Fintype P] (h : s.Reachable) (hfew : ∀ i, FewElements (s.queues i))
    (hone : s.submitted.count .null = 1) (hend : s.Ended) :
    (∃ w, s.workers w = .exited ∧ Task.null ∈ (s.queues w).elements) ∧
      (∀ w, s.workers w ≠ .exited → (s.queues w).elements = []) ∧
      (s.submitted : Multiset Task) =
        ∑ i, ((s.queues i).elements : Multiset Task) + s.executed := by
  have hall := h.conserves
  obtain ⟨hcallers, hworkers⟩ := (ended_iff h.refines.1 hfew).1 hend
  have hhand : ∀ w, (s.workers w).hand = [] := by
    intro w
    rcases hworkers w with hw | ⟨i, hw, -⟩ <;> rw [hw] <;> rfl
  have hcaller : ∀ p, PushCall.hand (s.callers p) = [] := fun p => by rw [hcallers p]; rfl
  have hrest : (s.submitted : Multiset Task) =
      ∑ i, ((s.queues i).elements : Multiset Task) + s.executed := by
    rw [hall]
    simp only [hhand, hcaller, Multiset.coe_nil, Finset.sum_const_zero, add_zero]
  have hempty : ∀ w, s.workers w ≠ .exited → (s.queues w).elements = [] := by
    intro w hw
    rcases hworkers w with hx | ⟨i, -, -, hq⟩
    · exact absurd hx hw
    · exact hq
  refine ⟨?_, hempty, hrest⟩
  have hmem : Task.null ∈ (s.submitted : Multiset Task) := by
    rw [Multiset.mem_coe]
    exact List.count_pos_iff.1 (hone ▸ Nat.one_pos)
  rw [hrest, Multiset.mem_add, Multiset.mem_sum] at hmem
  rcases hmem with ⟨w, -, hw⟩ | hexec
  · refine ⟨w, ?_, hw⟩
    by_contra hx
    rw [hempty w hx] at hw
    exact absurd hw (by simp)
  · exact absurd hexec h.null_notMem

/-- One worker, and no task but that of `abortTpool`. -/
theorem tpool_stops_one : ∃ s : Tpool 1 Unit, s.Reachable ∧ s.Ended ∧
    (∃ w, s.workers w = .exited ∧ Task.null ∈ (s.queues w).elements) ∧
      (∀ w, s.workers w ≠ .exited → (s.queues w).elements = []) ∧
      (s.submitted : Multiset Task) =
        ∑ i, ((s.queues i).elements : Multiset Task) + s.executed := by
  have hrun : (([.call () .null, .push () false, .work 0 false, .work 0 false, .work 0 false] :
      List (TpoolEvent 1 Unit)).foldlM
        (fun s e => if FewTasks s e then (step s e).toOption else none) init).map
          (fun s => (s.submitted, s.callers (), s.workers 0, decide (FewElements (s.queues 0)))) =
            some ([.null], none, .exited, true) := by
    decide +kernel
  obtain ⟨s, hs, he⟩ := Option.map_eq_some_iff.1 hrun
  simp only [Prod.mk.injEq, decide_eq_true_eq] at he
  obtain ⟨hsub, hcall, hwork, hfew⟩ := he
  have hreach : s.Reachable := reach_of_checked hs
  have hfew : ∀ i, FewElements (s.queues i) := fun i => Subsingleton.elim 0 i ▸ hfew
  have hend : s.Ended := (ended_iff hreach.refines.1 hfew).2
    ⟨fun _ => hcall, fun w => Subsingleton.elim 0 w ▸ .inl hwork⟩
  exact ⟨s, hreach, hend, tpool_stops hreach hfew (by rw [hsub]; decide) hend⟩

/-! ## A run that hangs -/

theorem Reachable.step {e : TpoolEvent n P} (h : s.Reachable) (hfew : FewTasks s e)
    (hs : s.step e = .ok s') : s'.Reachable :=
  .next h hfew (by rw [hs]; rfl)

/-- A worker goes past queues that are empty. -/
theorem scan_run (h : s.Reachable) (hfew : ∀ i, FewElements (s.queues i)) {i : Nat}
    (hw : s.workers w = .scan i) : ∀ k, i + k ≤ 2 * (n + w) →
      (∀ j < k, (s.queues (.ofNat n (i + j))).elements = []) →
      Reachable { s with workers := Function.update s.workers w (.scan (i + k)) }
  | 0, _, _ => by
    rw [Nat.add_zero, Function.update_eq_self_iff.2 hw.symm]
    exact h
  | k + 1, hk, hempty => by
    have hprev := scan_run h hfew hw k (by omega) fun j hj => hempty j (by omega)
    refine hprev.step (e := .work w false) hfew ?_
    have hsize : (s.queues (.ofNat n (i + k))).size = 0 :=
      (h.refines.1.rings _).size_eq_zero_iff.2 (hempty k (Nat.lt_succ_self k))
    simp only [Tpool.step, workStep, Function.update_self, Function.update_idem]
    rw [if_pos (by omega), if_pos (.inr hsize)]
    rfl

theorem push_ok {p : P} {i : Fin n} {r : SeqRing Task} (hc : s.callers p = some c)
    (htried : c.tried < n) (hi : .ofNat n ((c.tried + c.index) % 2 ^ 64) = i)
    (hr : (s.queues i).pushBack .null c.task = some r) : s.step (.push p false) = .ok { s with
      queues := Function.update s.queues i r, callers := Function.update s.callers p none } := by
  simp only [Tpool.step, hc, pushStep, if_pos htried, hi, pushBack, hr]
  rfl

theorem handOn_ok {i : Fin n} {r : SeqRing Task} (hc : s.workers w = .handOn c)
    (htried : c.tried < n) (hi : .ofNat n ((c.tried + c.index) % 2 ^ 64) = i)
    (hr : (s.queues i).pushBack .null c.task = some r) : s.step (.work w false) = .ok { s with
      queues := Function.update s.queues i r
      workers := Function.update s.workers w .exited } := by
  simp only [Tpool.step, workStep, hc, pushStep, if_pos htried, hi, pushBack, hr]
  rfl

theorem take_ok {i : Fin n} {k : Nat} {t : Task} {r : SeqRing Task} (hw : s.workers w = .scan k)
    (hk : k < 2 * (n + w)) (hi : .ofNat n k = i) (hsize : (s.queues i).size ≠ 0)
    (hr : (s.queues i).popFront = some (t, r)) : s.step (.work w false) = .ok { s with
      queues := Function.update s.queues i r
      workers := Function.update s.workers w (.got t) } := by
  have hfree : ¬(false = true ∨ (s.queues i).size = 0) := by simp [hsize]
  simp only [Tpool.step, workStep, hw, if_pos hk, hi, if_neg hfree, pop, hr]
  rfl

theorem few_init : FewElements (SeqRing.empty Task.null 256) := by
  decide

theorem few_of_inv {r : SeqRing Task} {l : List Task} (h : SeqRingInv r l) (hl : l.length < 2) :
    FewElements r := by
  unfold FewElements
  rw [h.size_eq]
  omega

/-- The workers of a list have gone to sleep. -/
def asleep (l : List (Fin n)) : Tpool n P :=
  { init with workers := fun w => if w ∈ l then .scan (2 * (n + w)) else .scan w }

theorem reachable_asleep : ∀ l : List (Fin n), l.Nodup → (asleep l : Tpool n P).Reachable
  | [], _ => .refl
  | w :: l, hl => by
    obtain ⟨hw, hl⟩ := List.nodup_cons.1 hl
    have hscan : (asleep l : Tpool n P).workers w = .scan w := if_neg hw
    have hrun := scan_run (reachable_asleep l hl) (fun _ => few_init) hscan (2 * n + w) (by omega)
      fun _ _ => seqRingInv_init.elements_eq
    convert hrun using 1
    refine Tpool.ext rfl rfl (funext fun v => ?_) rfl rfl rfl
    by_cases hv : v = w
    · have hend : (w : Nat) + (2 * n + w) = 2 * (n + w) := by omega
      have hnew : (asleep (w :: l) : Tpool n P).workers w = .scan (2 * (n + w)) :=
        if_pos List.mem_cons_self
      rw [hv, hnew, hend]
      exact (Function.update_self (f := (asleep l : Tpool n P).workers) ..).symm
    · have hnew : (asleep (w :: l) : Tpool n P).workers v = (asleep l : Tpool n P).workers v := by
        simp only [asleep, List.mem_cons, hv, false_or]
      rw [hnew]
      exact (Function.update_of_ne hv ..).symm

/-- The queues are empty but for the NULL task in queue `i`. -/
def NullAt (s : Tpool n P) (i : Fin n) : Prop :=
  (s.queues i).elements = [.null] ∧ ∀ j ≠ i, (s.queues j).elements = []

theorem few_of_length (h : s.Inv) (hl : ∀ i, (s.queues i).elements.length < 2) (i : Fin n) :
    FewElements (s.queues i) :=
  few_of_inv (h.rings i) (hl i)

theorem NullAt.few (h : s.Inv) {i : Fin n} (hn : s.NullAt i) (j : Fin n) :
    FewElements (s.queues j) := by
  refine few_of_length h (fun j => ?_) j
  by_cases hj : j = i
  · rw [hj, hn.1]
    decide
  · rw [hn.2 j hj]
    decide

theorem few_of_nil (h : s.Inv) (hn : ∀ i, (s.queues i).elements = []) (i : Fin n) :
    FewElements (s.queues i) :=
  few_of_length h (fun i => by rw [hn i]; decide) i

/-- A ring with the NULL task, at a place of its own. -/
theorem nullAt_update {r : SeqRing Task} {i : Fin n} (hr : SeqRingInv r [.null])
    (hn : ∀ j, (s.queues j).elements = []) :
    (Function.update s.queues i r i).elements = [.null] ∧
      ∀ j ≠ i, (Function.update s.queues i r j).elements = [] := by
  rw [Function.update_self]
  refine ⟨hr.elements_eq, fun j hj => ?_⟩
  rw [Function.update_of_ne hj]
  exact hn j

/-- `abortTpool` pushes to the queue of its ticket. -/
theorem abort_push (h : s.Reachable) {p : P} (hcall : s.callers p = none) {i : Fin n}
    (hi : .ofNat n (s.index % 2 ^ 64) = i) (hn : ∀ i, (s.queues i).elements = []) :
    ∃ s' : Tpool n P, s'.Reachable ∧ s'.index = (s.index + 1) % 2 ^ 64 ∧
      s'.submitted = s.submitted ++ [.null] ∧ s'.callers = s.callers ∧ s'.workers = s.workers ∧
        s'.NullAt i := by
  have hfew := few_of_nil h.refines.1 hn
  obtain ⟨s₁, hs₁, hreach, hcallers, hqueues, hindex, hsub, hworkers⟩ : ∃ s₁ : Tpool n P,
      s.step (.call p .null) = .ok s₁ ∧ s₁.Reachable ∧
        s₁.callers = Function.update s.callers p (some ⟨.null, s.index, 0⟩) ∧
          s₁.queues = s.queues ∧ s₁.index = (s.index + 1) % 2 ^ 64 ∧
            s₁.submitted = s.submitted ++ [.null] ∧ s₁.workers = s.workers := by
    have hs : s.step (.call p .null) = .ok { s.nextIndex with
        callers := Function.update s.callers p (some ⟨.null, s.index, 0⟩)
        submitted := s.submitted ++ [.null] } := by
      simp only [Tpool.step, hcall]
    exact ⟨_, hs, h.step hfew hs, rfl, rfl, rfl, rfl, rfl⟩
  obtain ⟨r, hr, hinv⟩ := (h.refines.1.rings i).pushBack .null (hfew i) .null
  rw [hn i, List.nil_append] at hinv
  have hc : s₁.callers p = some ⟨.null, s.index, 0⟩ := by rw [hcallers, Function.update_self]
  have hs₂ := push_ok hc (NeZero.pos n) (by rw [Nat.zero_add]; exact hi) (hqueues.symm ▸ hr)
  refine ⟨_, hreach.step (fun i => hqueues.symm ▸ hfew i) hs₂, hindex, hsub, ?_, hworkers, ?_⟩
  · dsimp only
    rw [hcallers, Function.update_idem]
    exact Function.update_eq_self_iff.2 hcall.symm
  · exact nullAt_update hinv fun j => hqueues.symm ▸ hn j

/-- A worker that is awake takes it. -/
theorem steal (h : s.Reachable) {i : Fin n} (hn : s.NullAt i) {k d : Nat}
    (hw : s.workers w = .scan k) (hk : k + d < 2 * (n + w)) (hi : .ofNat n (k + d) = i)
    (hbefore : ∀ j < d, .ofNat n (k + j) ≠ i) :
    ∃ s' : Tpool n P, s'.Reachable ∧ s'.index = s.index ∧ s'.submitted = s.submitted ∧
      s'.callers = s.callers ∧ s'.workers = Function.update s.workers w (.got .null) ∧
        ∀ j, (s'.queues j).elements = [] := by
  have hfew := hn.few h.refines.1
  have hscan := scan_run h hfew hw d hk.le fun j hj => hn.2 _ (hbefore j hj)
  have hinv := h.refines.1.rings i
  rw [hn.1] at hinv
  have hsize : (s.queues i).size ≠ 0 := fun hzero => by
    have hnil := hinv.size_eq_zero_iff.1 hzero
    cases hnil
  obtain ⟨r, hr, hrest⟩ := hinv.popFront
  have hs := take_ok (s := { s with workers := Function.update s.workers w (.scan (k + d)) })
    (Function.update_self ..) hk hi hsize hr
  refine ⟨_, hscan.step hfew hs, rfl, rfl, rfl, Function.update_idem .., fun j => ?_⟩
  dsimp only
  by_cases hj : j = i
  · rw [hj, Function.update_self]
    exact hrest.elements_eq
  · rw [Function.update_of_ne hj]
    exact hn.2 j hj

/-- It hands the task on and goes. -/
theorem hand_on (h : s.Reachable) (hw : s.workers w = .got .null) {i : Fin n}
    (hi : .ofNat n (s.index % 2 ^ 64) = i) (hn : ∀ i, (s.queues i).elements = []) :
    ∃ s' : Tpool n P, s'.Reachable ∧ s'.submitted = s.submitted ∧ s'.callers = s.callers ∧
      s'.workers = Function.update s.workers w .exited ∧ s'.NullAt i := by
  have hfew := few_of_nil h.refines.1 hn
  obtain ⟨s₁, hs₁, hreach, hworkers, hqueues, hsub, hcallers⟩ : ∃ s₁ : Tpool n P,
      s.step (.work w false) = .ok s₁ ∧ s₁.Reachable ∧
        s₁.workers = Function.update s.workers w (.handOn ⟨.null, s.index, 0⟩) ∧
          s₁.queues = s.queues ∧ s₁.submitted = s.submitted ∧ s₁.callers = s.callers := by
    have hs : s.step (.work w false) = .ok { s.nextIndex with
        workers := Function.update s.workers w (.handOn ⟨.null, s.index, 0⟩) } := by
      simp only [Tpool.step, workStep, hw, if_true]
    exact ⟨_, hs, h.step hfew hs, rfl, rfl, rfl, rfl⟩
  obtain ⟨r, hr, hinv⟩ := (h.refines.1.rings i).pushBack .null (hfew i) .null
  rw [hn i, List.nil_append] at hinv
  have hc : s₁.workers w = .handOn ⟨.null, s.index, 0⟩ := by rw [hworkers, Function.update_self]
  have hs₂ := handOn_ok hc (NeZero.pos n) (by rw [Nat.zero_add]; exact hi) (hqueues.symm ▸ hr)
  refine ⟨_, hreach.step (fun i => hqueues.symm ▸ hfew i) hs₂, hsub, hcallers, ?_, ?_⟩
  · dsimp only
    rw [hworkers, Function.update_idem]
  · exact nullAt_update hinv fun j => hqueues.symm ▸ hn j

end Tpool

end NrStack
