import NrStack.Common.ThreadPool

/-!
# Waiting for a group of tasks

`task_ans.c` : a counter of the jobs that are left, and a semaphore that the completion of the last
one posts. `completed_many_task_ans` compares the counter before its subtraction, so of completions
that together make up the jobs one posts, whichever comes last (`completions_sem`). With the tasks
of a pool, a posted semaphore says that all of a group were run, and that none is still queued or in
the hands of a thread (`tpool_join`). -/

set_option linter.unusedSectionVars false

namespace NrStack

/-- `task_ans_t` : the counter, an `int`, and the value of the semaphore. -/
structure TaskAns where
  counter : Int
  sem : Nat
deriving DecidableEq, Repr

/-- `init_task_ans`. The counter gets an `unsigned int`. -/
def initTaskAns (numJobs : Nat) : TaskAns :=
  ⟨toInt numJobs, 0⟩

/-- `completed_many_task_ans`. The counter is compared as an `unsigned int`. -/
def completedManyTaskAns (ans : TaskAns) (numCompletedJobs : Nat) : TaskAns :=
  let numJobs := ans.counter
  { counter := toInt (numJobs - numCompletedJobs)
    sem := if numJobs % 2 ^ 32 = numCompletedJobs then ans.sem + 1 else ans.sem }

/-- `completed_task_ans` -/
def completedTaskAns (ans : TaskAns) : TaskAns :=
  completedManyTaskAns ans 1

/-- `join_task_ans` returns, or waits. -/
def joinTaskAns (ans : TaskAns) : Option TaskAns :=
  if ans.sem = 0 then none else some { ans with sem := ans.sem - 1 }

/-! ## Completions -/

section Completions

variable {m : Nat}

theorem toInt_emod (x : Int) : toInt x % 2 ^ 32 = x % 2 ^ 32 :=
  Int.bmod_emod

theorem toInt_toInt_sub (x y : Int) : toInt (toInt x - y) = toInt (x - y) :=
  Int.bmod_sub_bmod

theorem counter_completed (ans : TaskAns) (k : Nat) :
    (completedManyTaskAns ans k).counter = toInt (ans.counter - k) :=
  rfl

theorem sem_completed (ans : TaskAns) (k : Nat) : (completedManyTaskAns ans k).sem =
    if ans.counter % 2 ^ 32 = k then ans.sem + 1 else ans.sem :=
  rfl

/-- What completions leave of the counter. -/
theorem completions_counter (m : Nat) (ks : List Nat) :
    (ks.foldl completedManyTaskAns (initTaskAns m)).counter = toInt (m - ks.sum : Int) := by
  induction ks using List.reverseRecOn with
  | nil => simp [initTaskAns]
  | append_singleton ks k ih =>
    rw [List.foldl_append, List.foldl_cons, List.foldl_nil, counter_completed, ih, toInt_toInt_sub,
      List.sum_append, List.sum_singleton]
    congr 1
    push_cast
    omega

/-- The completion that makes up all jobs posts the semaphore, and no other. -/
theorem completions_sem (hm : m < 2 ^ 32) {ks : List Nat} (hpos : ∀ k ∈ ks, 0 < k)
    (hsum : ks.sum ≤ m) : (ks.foldl completedManyTaskAns (initTaskAns m)).sem =
      if ks ≠ [] ∧ ks.sum = m then 1 else 0 := by
  induction ks using List.reverseRecOn with
  | nil => rfl
  | append_singleton ks k ih =>
    have hk : 0 < k := hpos k (by simp)
    rw [List.sum_append, List.sum_singleton] at hsum ⊢
    have hbefore : ks.sum ≠ m := by omega
    have ih := ih (fun k hk => hpos k (List.mem_append_left _ hk)) (by omega)
    rw [if_neg fun h => hbefore h.2] at ih
    rw [List.foldl_append, List.foldl_cons, List.foldl_nil, sem_completed, completions_counter,
      toInt_emod, ih]
    have hleft : ((m : Int) - ks.sum) % 2 ^ 32 = m - ks.sum :=
      Int.emod_eq_of_lt (by omega) (by omega)
    rw [hleft]
    refine if_congr ?_ rfl rfl
    constructor
    · intro h
      exact ⟨by simp, by omega⟩
    · rintro ⟨-, h⟩
      omega

end Completions

/-! ## The tasks of a pool -/

section Group

variable {n : Nat} [NeZero n] {P : Type} [DecidableEq P] [Fintype P] {s : Tpool n P}

/-- The counter of a group of tasks that each complete one job. -/
def groupAns (G : Task → Bool) (m : Nat) (executed : List Task) : TaskAns :=
  (executed.filter G).foldl (fun ans _ => completedTaskAns ans) (initTaskAns m)

theorem groupAns_sem {G : Task → Bool} {m : Nat} (hm : 0 < m) (hm' : m < 2 ^ 32)
    (executed : List Task) (hle : executed.countP G ≤ m) :
    (groupAns G m executed).sem = if executed.countP G = m then 1 else 0 := by
  have hfold : groupAns G m executed = (List.replicate (executed.filter G).length 1).foldl
      completedManyTaskAns (initTaskAns m) := by
    unfold groupAns
    rw [← List.map_const', List.foldl_map]
    rfl
  rw [List.countP_eq_length_filter] at *
  rw [hfold, completions_sem hm' (fun k hk => by rw [List.eq_of_mem_replicate hk]; decide)
    (by simpa using hle)]
  refine if_congr ?_ rfl rfl
  rw [List.sum_replicate, smul_eq_mul, mul_one, ne_eq, List.replicate_eq_nil_iff]
  exact ⟨And.right, fun h => ⟨by omega, h⟩⟩

/-- The tasks of a group are counted once each. -/
theorem Tpool.countP_submitted (h : s.Reachable) (G : Task → Bool) : s.submitted.countP G =
    ∑ i, (s.queues i).elements.countP G + (∑ w, (s.workers w).hand.countP G +
      ∑ p, (PushCall.hand (s.callers p)).countP G) + s.executed.countP G := by
  have hall := congrArg (Multiset.countPAddMonoidHom (G · = true)) h.conserves
  simp only [map_add, map_sum, Multiset.coe_countPAddMonoidHom, Multiset.coe_countP] at hall
  simpa using hall

/-- With `m` jobs in a group, `join_task_ans` returns exactly when `m` tasks of the group were run.
Then none of them is left anywhere, and the semaphore was posted once. -/
theorem tpool_join (h : s.Reachable) {G : Task → Bool} {m : Nat} (hm : 0 < m) (hm' : m < 2 ^ 32)
    (hsub : s.submitted.countP G ≤ m) :
    ((joinTaskAns (groupAns G m s.executed)).isSome ↔ s.executed.countP G = m) ∧
      (groupAns G m s.executed).sem ≤ 1 ∧
      ((joinTaskAns (groupAns G m s.executed)).isSome →
        (∀ i, ∀ t ∈ (s.queues i).elements, G t = false) ∧
          (∀ w, ∀ t ∈ (s.workers w).hand, G t = false) ∧
            ∀ p, ∀ t ∈ PushCall.hand (s.callers p), G t = false) := by
  have hall := Tpool.countP_submitted h G
  have hsem := groupAns_sem (G := G) hm hm' s.executed (by omega)
  have hjoin : (joinTaskAns (groupAns G m s.executed)).isSome ↔ s.executed.countP G = m := by
    rw [joinTaskAns, hsem]
    split_ifs with hcount <;> simp_all
  refine ⟨hjoin, ?_, fun hsome => ?_⟩
  · rw [hsem]
    split_ifs <;> decide
  · have hcount := hjoin.1 hsome
    have hnone : ∀ l : List Task, l.countP G = 0 → ∀ t ∈ l, G t = false := fun l hl t ht =>
      Bool.eq_false_of_not_eq_true (List.countP_eq_zero.1 hl t ht)
    have hqueues : ∑ i, (s.queues i).elements.countP G = 0 := by omega
    have hworkers : ∑ w, (s.workers w).hand.countP G = 0 := by omega
    have hcallers : ∑ p, (PushCall.hand (s.callers p)).countP G = 0 := by omega
    rw [Finset.sum_eq_zero_iff] at hqueues hworkers hcallers
    exact ⟨fun i => hnone _ (hqueues i (Finset.mem_univ i)),
      fun w => hnone _ (hworkers w (Finset.mem_univ w)),
      fun p => hnone _ (hcallers p (Finset.mem_univ p))⟩

/-- A group of one task, which was run. -/
theorem tpool_join_one : ∃ s : Tpool 1 Unit, s.Reachable ∧ s.executed = [⟨7, 8⟩] ∧
    ((joinTaskAns (groupAns (· == ⟨7, 8⟩) 1 s.executed)).isSome ↔
        s.executed.countP (· == ⟨7, 8⟩) = 1) ∧
      (groupAns (· == ⟨7, 8⟩) 1 s.executed).sem ≤ 1 ∧
      ((joinTaskAns (groupAns (· == ⟨7, 8⟩) 1 s.executed)).isSome →
        (∀ i, ∀ t ∈ (s.queues i).elements, (t == ⟨7, 8⟩) = false) ∧
          (∀ w, ∀ t ∈ (s.workers w).hand, (t == ⟨7, 8⟩) = false) ∧
            ∀ p, ∀ t ∈ PushCall.hand (s.callers p), (t == ⟨7, 8⟩) = false) := by
  have hrun : (([.call () ⟨7, 8⟩, .push () false, .work 0 false, .work 0 false] :
      List (TpoolEvent 1 Unit)).foldlM
        (fun s e => if Tpool.FewTasks s e then (Tpool.step s e).toOption else none)
          Tpool.init).map
            (fun s => (s.submitted, s.executed)) = some ([⟨7, 8⟩], [⟨7, 8⟩]) := by
    decide +kernel
  obtain ⟨s, hs, he⟩ := Option.map_eq_some_iff.1 hrun
  rw [Prod.mk.injEq] at he
  have hreach : s.Reachable := reach_of_checked hs
  exact ⟨s, hreach, he.2, tpool_join hreach (by decide) (by decide) (by rw [he.1]; decide)⟩

end Group

end NrStack
