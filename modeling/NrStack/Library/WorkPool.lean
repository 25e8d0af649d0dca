import Mathlib.Algebra.BigOperators.Group.Finset.Basic
import Mathlib.Algebra.Order.Group.Multiset
import Mathlib.Logic.Relation
import Mathlib.Tactic

/-!
# Pools of queues

Queues that several threads fill and empty. A thread has tasks in its hands : those it is about to
queue, or those it took from a queue and has not run yet. `WorkPool.Step` is what a thread may do,
in any order : be given a task, put its first task behind a queue, take the first tasks of a queue,
or run its first task.

Whatever the order, no task is lost and none is doubled (`WorkPool.Step.conserves`) : what was
submitted is in a queue, in a hand, or was executed.
-/

namespace NrStack

/-- The queues and the hands of a pool, with all that was submitted and all that was executed. -/
@[ext] structure WorkPool (ι κ τ : Type*) where
  queue : ι → List τ
  hand : κ → List τ
  submitted : List τ
  executed : List τ

namespace WorkPool

variable {ι κ τ : Type*} [DecidableEq ι] [DecidableEq κ]

/-- Nothing was submitted. -/
def empty : WorkPool ι κ τ :=
  ⟨fun _ => [], fun _ => [], [], []⟩

/-- What thread `k` may do. -/
inductive Step : WorkPool ι κ τ → WorkPool ι κ τ → Prop
  | submit {p : WorkPool ι κ τ} (k : κ) (t : τ) : Step p { p with
      hand := Function.update p.hand k (p.hand k ++ [t]), submitted := p.submitted ++ [t] }
  | put {p : WorkPool ι κ τ} {k : κ} (i : ι) {t : τ} {ts : List τ} (h : p.hand k = t :: ts) :
      Step p { p with
        queue := Function.update p.queue i (p.queue i ++ [t])
        hand := Function.update p.hand k ts }
  | take {p : WorkPool ι κ τ} (k : κ) (i : ι) (n : ℕ) : Step p { p with
      queue := Function.update p.queue i ((p.queue i).drop n)
      hand := Function.update p.hand k (p.hand k ++ (p.queue i).take n) }
  | run {p : WorkPool ι κ τ} {k : κ} {t : τ} {ts : List τ} (h : p.hand k = t :: ts) :
      Step p { p with hand := Function.update p.hand k ts, executed := p.executed ++ [t] }

/-- Any number of steps. -/
abbrev Steps : WorkPool ι κ τ → WorkPool ι κ τ → Prop :=
  Relation.ReflTransGen Step

theorem Steps.of_eq {p p' : WorkPool ι κ τ} (h : p = p') : Steps p p' :=
  h ▸ .refl

/-! ## Hands of two kinds -/

section Hands

variable {σ γ : Type*} (f : σ → List τ) (g : γ → List τ) (workers : ι → σ) (callers : κ → γ)

/-- What workers and callers have in their hands. -/
def hands : ι ⊕ κ → List τ :=
  Sum.elim (fun i => f (workers i)) fun k => g (callers k)

variable {f g workers callers}

theorem hands_worker (i : ι) (x : σ) : hands f g (Function.update workers i x) callers =
    Function.update (hands f g workers callers) (.inl i) (f x) := by
  rw [hands, hands, Sum.update_elim_inl]
  congr 1
  exact funext (Function.apply_update (fun _ => f) workers i x)

theorem hands_caller (k : κ) (c : γ) : hands f g workers (Function.update callers k c) =
    Function.update (hands f g workers callers) (.inr k) (g c) := by
  rw [hands, hands, Sum.update_elim_inr]
  congr 1
  exact funext (Function.apply_update (fun _ => g) callers k c)

/-- A worker has the same tasks as before. -/
theorem hands_worker_eq {i : ι} {x : σ} (h : f (workers i) = f x) :
    hands f g (Function.update workers i x) callers = hands f g workers callers := by
  rw [hands_worker]
  exact Function.update_eq_self_iff.2 h.symm

/-- A caller has the same tasks as before. -/
theorem hands_caller_eq {k : κ} {c : γ} (h : g (callers k) = g c) :
    hands f g workers (Function.update callers k c) = hands f g workers callers := by
  rw [hands_caller]
  exact Function.update_eq_self_iff.2 h.symm

end Hands

/-! ## Nothing is lost -/

variable [Fintype ι] [Fintype κ]

/-- All that is there. -/
def contents (p : WorkPool ι κ τ) : Multiset τ :=
  ∑ i, (p.queue i : Multiset τ) + ∑ k, (p.hand k : Multiset τ) + p.executed

/-- Nothing is lost and nothing is doubled. -/
def Conserved (p : WorkPool ι κ τ) : Prop :=
  (p.submitted : Multiset τ) = p.contents

omit [DecidableEq ι] [DecidableEq κ] in
theorem conserved_empty : (empty : WorkPool ι κ τ).Conserved := by
  simp [Conserved, contents, empty]

omit [DecidableEq κ] [Fintype κ] in
/-- One of several summands is replaced. -/
theorem sum_update_add {σ M : Type*} [AddCommMonoid M] (g : ι → σ → M) (f : ι → σ) (i : ι) (x : σ) :
    ∑ j, g j (Function.update f i x j) + g i (f i) = ∑ j, g j (f j) + g i x := by
  have hnew : ∑ j, g j (Function.update f i x j) =
      g i x + ∑ j ∈ Finset.univ.erase i, g j (f j) := by
    rw [← Finset.add_sum_erase _ _ (Finset.mem_univ i), Function.update_self]
    congr 1
    refine Finset.sum_congr rfl fun j hj => ?_
    rw [Function.update_of_ne (Finset.ne_of_mem_erase hj)]
  rw [hnew, ← Finset.add_sum_erase _ (fun j => g j (f j)) (Finset.mem_univ i)]
  abel

omit [DecidableEq κ] [Fintype κ] in
theorem sum_update (f : ι → List τ) (i : ι) (l : List τ) :
    ∑ j, (Function.update f i l j : Multiset τ) + (f i : Multiset τ) =
      ∑ j, (f j : Multiset τ) + (l : Multiset τ) :=
  sum_update_add (fun _ (l : List τ) => (l : Multiset τ)) f i l

omit [DecidableEq κ] [Fintype κ] in
theorem sum_append (f : ι → List τ) (i : ι) (l : List τ) :
    ∑ j, (Function.update f i (f i ++ l) j : Multiset τ) =
      ∑ j, (f j : Multiset τ) + (l : Multiset τ) := by
  refine add_right_cancel (b := (f i : Multiset τ)) ?_
  rw [sum_update, ← Multiset.coe_add]
  abel

omit [DecidableEq κ] [Fintype κ] in
theorem sum_tail {f : ι → List τ} {i : ι} {t : τ} {ts : List τ} (h : f i = t :: ts) :
    ∑ j, (Function.update f i ts j : Multiset τ) + ([t] : List τ) = ∑ j, (f j : Multiset τ) := by
  refine add_right_cancel (b := (ts : Multiset τ)) ?_
  have hsplit : (f i : Multiset τ) = ([t] : List τ) + (ts : Multiset τ) := by
    rw [h, Multiset.coe_add, List.singleton_append]
  rw [← sum_update f i ts, hsplit]
  abel

omit [DecidableEq κ] [Fintype κ] in
theorem sum_drop (f : ι → List τ) (i : ι) (n : ℕ) :
    ∑ j, (Function.update f i ((f i).drop n) j : Multiset τ) + ((f i).take n : List τ) =
      ∑ j, (f j : Multiset τ) := by
  refine add_right_cancel (b := ((f i).drop n : Multiset τ)) ?_
  have hsplit : (f i : Multiset τ) = ((f i).take n : List τ) + ((f i).drop n : Multiset τ) := by
    rw [Multiset.coe_add, List.take_append_drop]
  rw [← sum_update f i, hsplit]
  abel

theorem Step.conserves {p p' : WorkPool ι κ τ} (h : Step p p') (hp : p.Conserved) :
    p'.Conserved := by
  unfold Conserved contents at *
  cases h with
  | submit k t =>
    rw [sum_append, ← Multiset.coe_add, hp]
    abel
  | put i hk =>
    rw [sum_append, hp, ← sum_tail hk]
    abel
  | take k i n =>
    rw [sum_append, hp, ← sum_drop p.queue i n]
    abel
  | run hk =>
    rw [← Multiset.coe_add, hp, ← sum_tail hk]
    abel

theorem Steps.conserves {p p' : WorkPool ι κ τ} (h : Steps p p') (hp : p.Conserved) :
    p'.Conserved := by
  induction h with
  | refl => exact hp
  | tail _ hstep ih => exact hstep.conserves ih

/-! ## What is there was submitted -/

/-- Every task there is was submitted. -/
structure Covered (p : WorkPool ι κ τ) : Prop where
  queue : ∀ i, ∀ t ∈ p.queue i, t ∈ p.submitted
  hand : ∀ k, ∀ t ∈ p.hand k, t ∈ p.submitted
  executed : ∀ t ∈ p.executed, t ∈ p.submitted

omit [DecidableEq ι] [DecidableEq κ] [Fintype ι] [Fintype κ] in
theorem covered_empty : (empty : WorkPool ι κ τ).Covered :=
  ⟨fun _ _ h => h, fun _ _ h => h, fun _ h => h⟩

omit [DecidableEq κ] [Fintype ι] [Fintype κ] in
theorem forall_update {f : ι → List τ} {l l' : List τ} {i : ι} (h : ∀ j, ∀ t ∈ f j, t ∈ l)
    (hl : ∀ t ∈ l', t ∈ l) (j : ι) : ∀ t ∈ Function.update f i l' j, t ∈ l := by
  by_cases hj : j = i
  · rw [hj, Function.update_self]
    exact hl
  · rw [Function.update_of_ne hj]
    exact h j

omit [Fintype ι] [Fintype κ] in
theorem Step.covered {p p' : WorkPool ι κ τ} (h : Step p p') (hp : p.Covered) : p'.Covered := by
  cases h with
  | submit k t =>
    refine ⟨fun i x hx => List.mem_append_left _ (hp.queue i x hx), ?_,
      fun x hx => List.mem_append_left _ (hp.executed x hx)⟩
    refine forall_update (fun k x hx => List.mem_append_left _ (hp.hand k x hx)) fun x hx => ?_
    exact (List.mem_append.1 hx).elim (fun hx => List.mem_append_left _ (hp.hand k x hx))
      (List.mem_append_right _)
  | @put k i t ts hk =>
    have hhand := hp.hand k
    rw [hk, List.forall_mem_cons] at hhand
    refine ⟨forall_update hp.queue fun x hx => ?_, forall_update hp.hand hhand.2, hp.executed⟩
    rcases List.mem_append.1 hx with hx | hx
    · exact hp.queue i x hx
    · exact List.mem_singleton.1 hx ▸ hhand.1
  | take k i n =>
    refine ⟨forall_update hp.queue fun x hx => hp.queue i x (List.mem_of_mem_drop hx),
      forall_update hp.hand fun x hx => ?_, hp.executed⟩
    exact (List.mem_append.1 hx).elim (hp.hand k x) fun hx => hp.queue i x (List.mem_of_mem_take hx)
  | @run k t ts hk =>
    have hhand := hp.hand k
    rw [hk, List.forall_mem_cons] at hhand
    refine ⟨hp.queue, forall_update hp.hand hhand.2, fun x hx => ?_⟩
    rcases List.mem_append.1 hx with hx | hx
    · exact hp.executed x hx
    · exact List.mem_singleton.1 hx ▸ hhand.1

omit [Fintype ι] [Fintype κ] in
theorem Steps.covered {p p' : WorkPool ι κ τ} (h : Steps p p') (hp : p.Covered) : p'.Covered := by
  induction h with
  | refl => exact hp
  | tail _ hstep ih => exact hstep.covered ih

end WorkPool

end NrStack
