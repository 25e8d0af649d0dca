import Mathlib.Tactic

/-!
# Halving an interval

To find the first number with a property that is kept upwards, an interval `(lo, hi]` is halved
towards it. Where only some numbers count, the middle is rounded up to the next of them.
`HalvesTo S m lo hi lo' hi'` : on the way to `m` in the numbers `S`, the interval `(lo, hi]` becomes
`(lo', hi']`. Two things go wrong on the way : no number from the middle up to `hi` counts while `m`
is below, and a search that stops at an exact match has one above `m`. If neither does, the way is
`Clear`, which is checked one interval after the other (`clear_iff`).
-/

namespace NrStack

variable {S : Set ℕ} {m lo hi lo' hi' p : ℕ}

/-- The first number that counts, from the middle on. -/
def IsMiddle (S : Set ℕ) (lo hi p : ℕ) : Prop :=
  IsLeast {q | (lo + hi) / 2 ≤ q ∧ q ∈ S} p

/-- The intervals on the way to `m`. -/
inductive HalvesTo (S : Set ℕ) (m : ℕ) : ℕ → ℕ → ℕ → ℕ → Prop
  | refl (lo hi : ℕ) : HalvesTo S m lo hi lo hi
  | up {lo hi lo' hi' p : ℕ} (hlt : lo + 1 < hi) (hp : IsMiddle S lo hi p) (hhi : p < hi)
      (hpm : p < m) (h : HalvesTo S m p hi lo' hi') : HalvesTo S m lo hi lo' hi'
  | down {lo hi lo' hi' p : ℕ} (hlt : lo + 1 < hi) (hp : IsMiddle S lo hi p) (hhi : p < hi)
      (hpm : m ≤ p) (h : HalvesTo S m lo p lo' hi') : HalvesTo S m lo hi lo' hi'

/-- Every interval that is still larger than `m` has a middle below its end, which is not an exact
match above `m`. -/
def Clear (S exact : Set ℕ) (m lo hi : ℕ) : Prop :=
  ∀ lo' hi', HalvesTo S m lo hi lo' hi' → m < hi' →
    ∃ p, IsMiddle S lo' hi' p ∧ p < hi' ∧ (m < p → p ∉ exact)

theorem IsMiddle.unique {q : ℕ} (hp : IsMiddle S lo hi p) (hq : IsMiddle S lo hi q) : p = q :=
  IsLeast.unique hp hq

/-- There is a middle below a number that counts. -/
theorem exists_isMiddle (hhi : hi ∈ S) (hlt : lo < hi) : ∃ p, IsMiddle S lo hi p ∧ p ≤ hi := by
  have hmem : hi ∈ {q | (lo + hi) / 2 ≤ q ∧ q ∈ S} := ⟨by omega, hhi⟩
  have hmid : IsMiddle S lo hi (sInf {q | (lo + hi) / 2 ≤ q ∧ q ∈ S}) :=
    ⟨Nat.sInf_mem ⟨hi, hmem⟩, fun _ hq => Nat.sInf_le hq⟩
  exact ⟨_, hmid, hmid.2 hmem⟩

/-- The intervals keep `m`. -/
theorem HalvesTo.hi_eq (h : HalvesTo S m lo hi lo' hi') (hlo : lo < m) (hhi : hi = m) :
    hi' = m := by
  induction h with
  | refl lo hi => exact hhi
  | up _ _ _ hpm _ ih => exact ih hpm hhi
  | down _ _ hlt hpm _ _ => omega

theorem clear_self {exact : Set ℕ} (hm : lo < m) : Clear S exact m lo m :=
  fun _ _ h hlt => absurd (h.hi_eq hm rfl) hlt.ne'

/-- A way is clear if its first interval is, and so on. -/
theorem clear_iff {exact : Set ℕ} (hlt : lo + 1 < hi) (hm : m < hi) (hp : IsMiddle S lo hi p) :
    Clear S exact m lo hi ↔ p < hi ∧ (m < p → p ∉ exact) ∧
      (p < m → Clear S exact m p hi) ∧ (m ≤ p → Clear S exact m lo p) := by
  constructor
  · intro h
    obtain ⟨q, hq, hlt', hexact⟩ := h lo hi (.refl lo hi) hm
    obtain rfl := hq.unique hp
    exact ⟨hlt', hexact, fun hpm lo' hi' hway => h lo' hi' (.up hlt hp hlt' hpm hway),
      fun hpm lo' hi' hway => h lo' hi' (.down hlt hp hlt' hpm hway)⟩
  · rintro ⟨hlt', hexact, habove, hbelow⟩ lo' hi' hway hm'
    cases hway with
    | refl => exact ⟨p, hp, hlt', hexact⟩
    | up _ hq _ hpm hway =>
      obtain rfl := hq.unique hp
      exact habove hpm lo' hi' hway hm'
    | down _ hq _ hpm hway =>
      obtain rfl := hq.unique hp
      exact hbelow hpm lo' hi' hway hm'

end NrStack
