import Mathlib.Tactic

/-!
# Runs of a partial step function

`step s a = none` is an action the system does not survive (undefined behaviour of the
program, or an abort), so a run stops there and no state follows.

`Reach step ok s₀ s` : a run from `s₀` leads to `s`, every step of it meeting `ok`.
`Reach.invariant` is the induction over runs. `allStates_iff_of_allSteps` turns two step
lemmas (a step that meets `ok` keeps the invariant `Q`, one that does not breaks the
property `P`) into an exact account of the runs on which `P` never fails.
-/

namespace NrStack

variable {σ α : Type*} {step : σ → α → Option σ}

/-- States that runs from `s₀` lead to, by steps that all meet `ok`. -/
inductive Reach (step : σ → α → Option σ) (ok : σ → α → Prop) (s₀ : σ) : σ → Prop
  | refl : Reach step ok s₀ s₀
  | next {s s' : σ} {a : α} : Reach step ok s₀ s → ok s a → step s a = some s' →
      Reach step ok s₀ s'

/-- Any step may be taken. -/
def anyStep (_ : σ) (_ : α) : Prop :=
  True

namespace Reach

variable {ok ok' : σ → α → Prop} {s₀ s : σ}

theorem invariant {P : σ → Prop} (h : Reach step ok s₀ s) (h₀ : P s₀)
    (hstep : ∀ s a s', P s → ok s a → step s a = some s' → P s') : P s := by
  induction h with
  | refl => exact h₀
  | next _ hok hs ih => exact hstep _ _ _ ih hok hs

theorem mono (hok : ∀ s a, ok s a → ok' s a) (h : Reach step ok s₀ s) :
    Reach step ok' s₀ s := by
  induction h with
  | refl => exact .refl
  | next _ h hs ih => exact .next ih (hok _ _ h) hs

theorem any (h : Reach step ok s₀ s) : Reach step anyStep s₀ s :=
  h.mono fun _ _ _ => trivial

theorem head {s' : σ} {a : α} (hok : ok s₀ a) (hs : step s₀ a = some s')
    (h : Reach step ok s' s) : Reach step ok s₀ s := by
  induction h with
  | refl => exact .next .refl hok hs
  | next _ hok' hs' ih => exact .next ih hok' hs'

end Reach

/-- The run of a list of actions leads to its last state. -/
theorem reach_foldlM : ∀ {as : List α} {s s' : σ}, as.foldlM step s = some s' →
    Reach step anyStep s s'
  | [], _, _, h => by
    cases h
    exact .refl
  | _ :: _, _, _, h => by
    rw [List.foldlM_cons] at h
    obtain ⟨_, h₁, h₂⟩ := Option.bind_eq_some_iff.1 h
    exact (reach_foldlM h₂).head trivial h₁

/-- The run of a list of actions that are all checked to meet `ok`. -/
theorem reach_of_checked {ok : σ → α → Prop} [∀ s a, Decidable (ok s a)] :
    ∀ {as : List α} {s s' : σ},
      as.foldlM (fun s a => if ok s a then step s a else none) s = some s' → Reach step ok s s'
  | [], _, _, h => by
    cases h
    exact .refl
  | _ :: _, _, _, h => by
    rw [List.foldlM_cons] at h
    obtain ⟨_, h₁, h₂⟩ := Option.bind_eq_some_iff.1 h
    split_ifs at h₁ with hok
    exact (reach_of_checked h₂).head hok h₁

/-- A checked run is a run. -/
theorem foldlM_of_checked {ok : σ → α → Prop} [∀ s a, Decidable (ok s a)] :
    ∀ {as : List α} {s s' : σ},
      as.foldlM (fun s a => if ok s a then step s a else none) s = some s' →
        as.foldlM step s = some s'
  | [], _, _, h => h
  | _ :: _, _, _, h => by
    rw [List.foldlM_cons] at h ⊢
    obtain ⟨_, h₁, h₂⟩ := Option.bind_eq_some_iff.1 h
    split_ifs at h₁
    exact Option.bind_eq_some_iff.2 ⟨_, h₁, foldlM_of_checked h₂⟩

/-- `P` holds at `s` and at every state of the run of `as` from `s`. -/
def AllStates (step : σ → α → Option σ) (P : σ → Prop) : σ → List α → Prop
  | s, [] => P s
  | s, a :: as => P s ∧ ∀ s', step s a = some s' → AllStates step P s' as

/-- Every step of the run of `as` from `s` meets `ok`. -/
def AllSteps (step : σ → α → Option σ) (ok : σ → α → Prop) : σ → List α → Prop
  | _, [] => True
  | s, a :: as => ∀ s', step s a = some s' → ok s a ∧ AllSteps step ok s' as

theorem AllStates.head {P : σ → Prop} {s : σ} : ∀ {as : List α}, AllStates step P s as → P s
  | [], h => h
  | _ :: _, h => h.1

/-- The last state of the run. -/
theorem AllStates.last {P : σ → Prop} : ∀ {as : List α} {s s' : σ}, AllStates step P s as →
    as.foldlM step s = some s' → P s'
  | [], _, _, h, hs => by
    cases hs
    exact h
  | _ :: _, _, _, h, hs => by
    rw [List.foldlM_cons] at hs
    obtain ⟨_, h₁, h₂⟩ := Option.bind_eq_some_iff.1 hs
    exact (h.2 _ h₁).last h₂

/-- The steps of a run that goes through with all its actions checked. -/
theorem allSteps_of_checked {ok : σ → α → Prop} [∀ s a, Decidable (ok s a)] :
    ∀ {as : List α} {s : σ},
      (as.foldlM (fun s a => if ok s a then step s a else none) s).isSome → AllSteps step ok s as
  | [], _, _ => trivial
  | a :: as, s, h => by
    intro s' hs
    by_cases hok : ok s a
    · rw [List.foldlM_cons, if_pos hok, hs] at h
      exact ⟨hok, allSteps_of_checked h⟩
    · rw [List.foldlM_cons, if_neg hok] at h
      cases h

theorem allSteps_any : ∀ {as : List α} {s : σ}, AllSteps step anyStep s as
  | [], _ => trivial
  | _ :: _, _ => fun _ _ => ⟨trivial, allSteps_any⟩

theorem AllSteps.and {ok ok' : σ → α → Prop} : ∀ {as : List α} {s : σ}, AllSteps step ok s as →
    AllSteps step ok' s as → AllSteps step (fun s a => ok s a ∧ ok' s a) s as
  | [], _, _, _ => trivial
  | _ :: _, _, h, h' => fun s' hs =>
    ⟨⟨(h s' hs).1, (h' s' hs).1⟩, (h s' hs).2.and (h' s' hs).2⟩

/-- In a run whose steps all meet `pre` : if steps that meet `ok` keep `Q`, which gives `P`,
and a step from `Q` that does not meet it breaks `P`, the run keeps `P` throughout exactly
when all its steps meet `ok`. -/
theorem allStates_iff_of_allSteps {P Q : σ → Prop} {pre ok : σ → α → Prop} (hQP : ∀ s, Q s → P s)
    (hkeep : ∀ s a s', Q s → pre s a → step s a = some s' → ok s a → Q s')
    (hbreak : ∀ s a s', Q s → pre s a → step s a = some s' → ¬ok s a → ¬P s') :
    ∀ (as : List α) (s : σ), Q s → AllSteps step pre s as →
      (AllStates step P s as ↔ AllSteps step ok s as)
  | [], s, hQ, _ => iff_of_true (hQP s hQ) trivial
  | a :: as, s, hQ, hpre => by
    have ih := allStates_iff_of_allSteps hQP hkeep hbreak as
    constructor
    · intro h s' hs
      obtain ⟨hp, hpre'⟩ := hpre s' hs
      have hok : ok s a := by
        by_contra hno
        exact hbreak s a s' hQ hp hs hno (h.2 s' hs).head
      exact ⟨hok, (ih s' (hkeep s a s' hQ hp hs hok) hpre').1 (h.2 s' hs)⟩
    · intro h
      refine ⟨hQP s hQ, fun s' hs => ?_⟩
      obtain ⟨hp, hpre'⟩ := hpre s' hs
      obtain ⟨hok, hrest⟩ := h s' hs
      exact (ih s' (hkeep s a s' hQ hp hs hok) hpre').2 hrest

/-- Steps that meet `ok` keep `Q`, which gives `P`. -/
theorem AllSteps.allStates {P Q : σ → Prop} {ok : σ → α → Prop} (hQP : ∀ s, Q s → P s)
    (hkeep : ∀ s a s', Q s → step s a = some s' → ok s a → Q s') :
    ∀ {as : List α} {s : σ}, AllSteps step ok s as → Q s → AllStates step P s as
  | [], s, _, hQ => hQP s hQ
  | a :: _, s, h, hQ => ⟨hQP s hQ, fun s' hs =>
    (h s' hs).2.allStates hQP hkeep (hkeep s a s' hQ hs (h s' hs).1)⟩

/-- The same for any run. -/
theorem allStates_iff_allSteps {P Q : σ → Prop} {ok : σ → α → Prop} (hQP : ∀ s, Q s → P s)
    (hkeep : ∀ s a s', Q s → step s a = some s' → ok s a → Q s')
    (hbreak : ∀ s a s', Q s → step s a = some s' → ¬ok s a → ¬P s') (as : List α) (s : σ)
    (hQ : Q s) : AllStates step P s as ↔ AllSteps step ok s as :=
  allStates_iff_of_allSteps hQP (fun s a s' h _ => hkeep s a s' h)
    (fun s a s' h _ => hbreak s a s' h) as s hQ allSteps_any

end NrStack
