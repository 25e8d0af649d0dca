import Mathlib.Tactic

/-!
# Loops with fuel

A loop that need not end is a function of its fuel, which is `none` when the fuel does not suffice.
`Returns f a` : with enough fuel, the loop returns `a`. Nothing is returned by a loop that is `none`
for any fuel, and at most one value by any loop (`Returns.unique`).
-/

namespace NrStack

variable {α β : Type*}

/-- All fuel from some amount on gives `a`. -/
def Returns (f : ℕ → Option α) (a : α) : Prop :=
  ∃ n₀, ∀ n, n₀ ≤ n → f n = some a

namespace Returns

variable {f : ℕ → Option α} {a b : α}

theorem pure (h : ∀ n, f n = some a) : Returns f a :=
  ⟨0, fun n _ => h n⟩

theorem unique (ha : Returns f a) (hb : Returns f b) : a = b := by
  obtain ⟨n, hn⟩ := ha
  obtain ⟨m, hm⟩ := hb
  have heq : some a = some b := (hn (max n m) (le_max_left n m)).symm.trans
    (hm (max n m) (le_max_right n m))
  exact Option.some.inj heq

theorem not_of_none (h : ∀ n, f n = none) : ¬Returns f a := by
  rintro ⟨n, hn⟩
  have heq := hn n le_rfl
  rw [h n] at heq
  cases heq

/-- One more turn. -/
theorem of_succ {g : ℕ → Option α} (hg : ∀ n, f (n + 1) = g n) (h : Returns g a) :
    Returns f a := by
  obtain ⟨n₀, hn⟩ := h
  refine ⟨n₀ + 1, fun n hle => ?_⟩
  obtain ⟨m, rfl⟩ := Nat.exists_eq_add_of_le' (Nat.one_le_of_lt hle)
  rw [hg]
  exact hn m (Nat.le_of_succ_le_succ hle)

theorem bind {g : ℕ → α → Option β} {c : β} (h : Returns f a) (hg : Returns (fun n => g n a) c) :
    Returns (fun n => (f n).bind (g n)) c := by
  obtain ⟨n, hn⟩ := h
  obtain ⟨m, hm⟩ := hg
  refine ⟨max n m, fun k hk => ?_⟩
  dsimp only
  rw [hn k ((le_max_left n m).trans hk), Option.bind_some]
  exact hm k ((le_max_right n m).trans hk)

theorem map (g : α → β) (h : Returns f a) : Returns (fun n => (f n).map g) (g a) := by
  obtain ⟨n, hn⟩ := h
  refine ⟨n, fun k hk => ?_⟩
  dsimp only
  rw [hn k hk, Option.map_some]

end Returns

end NrStack
