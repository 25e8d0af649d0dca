import Mathlib.Tactic
import Mathlib.Data.Prod.Lex

/-!
# Comparators that return a sign

A comparator in the way of `qsort` returns -1, 0 or 1. `signCmp x y` is the one of a linear order. A
comparator that looks at one field after the other is the one of the lexicographic order of the
fields (`signCmp_lex`), with the dual order for a field that is compared the other way round
(`signCmp_dual`).
-/

namespace NrStack

variable {α β : Type*} [LinearOrder α] [LinearOrder β]

/-- -1 for smaller, 1 for larger, 0 for equal. -/
def signCmp (x y : α) : Int :=
  if x < y then -1 else if y < x then 1 else 0

theorem signCmp_eq_zero {x y : α} : signCmp x y = 0 ↔ x = y := by
  unfold signCmp
  rcases lt_trichotomy x y with h | h | h
  · simp [h, h.ne]
  · simp [h]
  · simp [h, h.not_gt, h.ne']

theorem signCmp_nonpos {x y : α} : signCmp x y ≤ 0 ↔ x ≤ y := by
  unfold signCmp
  rcases lt_trichotomy x y with h | h | h
  · simp [h, h.le]
  · simp [h]
  · simp [h, h.not_gt]

theorem signCmp_swap (x y : α) : signCmp y x = -signCmp x y := by
  unfold signCmp
  rcases lt_trichotomy x y with h | h | h
  · simp [h, h.not_gt]
  · simp [h]
  · simp [h, h.not_gt]

/-- The first field decides, unless it is equal. -/
theorem signCmp_lex (x x' : α) (y y' : β) : signCmp (toLex (x, y)) (toLex (x', y')) =
    if x < x' then -1 else if x' < x then 1 else signCmp y y' := by
  unfold signCmp
  simp only [Prod.Lex.toLex_lt_toLex]
  rcases lt_trichotomy x x' with h | h | h
  · simp [h]
  · simp [h]
  · simp [h, h.not_gt, h.ne']

/-- The same for a first field that has a comparator of its own. -/
theorem signCmp_lex_of_ne (x x' : α) (y y' : β) : signCmp (toLex (x, y)) (toLex (x', y')) =
    if signCmp x x' ≠ 0 then signCmp x x' else signCmp y y' := by
  rw [signCmp_lex]
  unfold signCmp
  split_ifs <;> simp_all

theorem signCmp_dual (x y : α) : signCmp (OrderDual.toDual x) (OrderDual.toDual y) =
    signCmp y x :=
  rfl

end NrStack
