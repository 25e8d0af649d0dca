import Mathlib.Tactic

/-!
# Serial numbers modulo `M`

Counters that wrap are compared by how far they are after a moving base.
`dist M base a` is that distance : the representative of `a - base` in `[0, M)`.
A window protocol moves the base forward, and `dist_rebase` is what a comparison
relative to the old base says about the new one.
-/

namespace NrStack

/-- How far `a` is after `base`, modulo `M`. -/
def dist (M base a : Int) : Int :=
  (a - base) % M

variable {M b a c k : Int}

theorem dist_nonneg (hM : 0 < M) : 0 ≤ dist M b a :=
  Int.emod_nonneg _ hM.ne'

theorem dist_lt (hM : 0 < M) : dist M b a < M :=
  Int.emod_lt_of_pos _ hM

@[simp] theorem dist_self : dist M b b = 0 := by
  simp [dist]

theorem dist_of_le (h0 : b ≤ a) (h1 : a - b < M) : dist M b a = a - b :=
  Int.emod_eq_of_lt (by omega) h1

/-- A number behind the base counts as almost a whole turn ahead of it. -/
theorem dist_of_lt (h0 : a < b) (h1 : b - a ≤ M) : dist M b a = a - b + M := by
  rw [dist, ← Int.add_emod_right, Int.emod_eq_of_lt (by omega) (by omega)]

@[simp] theorem dist_emod_right : dist M b (a % M) = dist M b a := by
  simp [dist, Int.sub_emod]

@[simp] theorem dist_emod_left : dist M (b % M) a = dist M b a := by
  simp [dist, Int.sub_emod]

theorem dist_add (h0 : 0 ≤ dist M b a + k) (h1 : dist M b a + k < M) :
    dist M b (a + k) = dist M b a + k := by
  unfold dist at *
  rw [show a + k - b = (a - b) + k by ring, ← Int.emod_add_emod, Int.emod_eq_of_lt h0 h1]

/-- One step forward adds one to the distance until it wraps. -/
theorem dist_succ (h : dist M b a + 1 < M) (hM : 0 < M) :
    dist M b ((a + 1) % M) = dist M b a + 1 := by
  have := dist_nonneg (b := b) (a := a) hM
  rw [dist_emod_right, dist_add (by omega) h]

/-- What is `k` after the base is at distance `k`. -/
theorem dist_base_add (h0 : 0 ≤ k) (hk : k < M) : dist M b ((b + k) % M) = k := by
  rw [dist_emod_right, dist_add, dist_self, zero_add] <;> rw [dist_self, zero_add] <;> assumption

/-- A number of `[0, M)` is where its distance says. -/
theorem base_add_dist (ha : 0 ≤ a ∧ a < M) : (b + dist M b a) % M = a := by
  rw [dist, Int.add_emod_emod, add_sub_cancel, Int.emod_eq_of_lt ha.1 ha.2]

/-- Moving the base forward to `a` shortens every longer distance by that of `a`. -/
theorem dist_rebase (hM : 0 < M) (h : dist M b a ≤ dist M b c) :
    dist M a c = dist M b c - dist M b a := by
  have hc := dist_lt (b := b) (a := c) hM
  have ha := dist_nonneg (b := b) (a := a) hM
  have hcong : dist M a c = (dist M b c - dist M b a) % M := by
    simp only [dist, Int.emod_sub_emod, Int.sub_emod_emod]
    congr 1
    ring
  rw [hcong, Int.emod_eq_of_lt (by omega) (by omega)]

/-- A number the base has moved past is a turn, less how far it was passed, ahead. -/
theorem dist_rebase_lt (hM : 0 < M) (h : dist M b c < dist M b a) :
    dist M a c = dist M b c - dist M b a + M := by
  have hc := dist_nonneg (b := b) (a := c) hM
  have ha := dist_lt (b := b) (a := a) hM
  have hcong : dist M a c = (dist M b c - dist M b a) % M := by
    simp only [dist, Int.emod_sub_emod, Int.sub_emod_emod]
    congr 1
    ring
  rw [hcong, ← Int.add_emod_right, Int.emod_eq_of_lt (by omega) (by omega)]

/-- Numbers in `[0, M)` at one distance are equal. -/
theorem dist_inj (ha : 0 ≤ a ∧ a < M) (hc : 0 ≤ c ∧ c < M) (h : dist M b a = dist M b c) :
    a = c := by
  have hdvd : M ∣ a - c := by
    have := Int.emod_eq_emod_iff_emod_sub_eq_zero.1 h
    rw [show a - b - (c - b) = a - c by ring] at this
    exact Int.dvd_of_emod_eq_zero this
  have := Int.eq_zero_of_abs_lt_dvd hdvd (abs_lt.2 ⟨by omega, by omega⟩)
  omega

theorem dist_eq_zero_iff (ha : 0 ≤ a ∧ a < M) (hb : 0 ≤ b ∧ b < M) :
    dist M b a = 0 ↔ a = b :=
  ⟨fun h => dist_inj ha hb (h.trans (dist_self).symm), fun h => h ▸ dist_self⟩

end NrStack
