import Mathlib.Analysis.SpecialFunctions.Log.Base
import Mathlib.Tactic

/-!
# The length of a polar code

`nr_polar_output_length` compares the code rate `K / E` with 9/16 after an integer division : every
rate below one is taken for a low one. From 9/16 on the length is half of what 38.212 asks for, if
`E` is not far above a power of two and nothing else bounds the length (`nrPolarOutputLength_iff`).
-/

namespace NrStack

/-- `nr_polar_output_length`, for `K` and `E` above zero. -/
def nrPolarOutputLength (K E : UInt16) (nMax : UInt8) : UInt32 :=
  let log2E : ℤ := Nat.clog 2 E.toNat
  let n1 := if (E.toNat : ℚ) ≤ 9 / 8 * 2 ^ (log2E - 1) ∧ ((K / E).toNat : ℚ) < 9 / 16 then log2E - 1
    else log2E
  let n2 : ℤ := Nat.clog 2 (8 * K.toNat)
  let n : ℤ := nMax.toNat
  let n := if n > n1 then n1 else n
  let n := if n > n2 then n2 else n
  let n := if n < 5 then 5 else n
  .ofNat (2 ^ n.toNat)

/-- The length of a polar code, in 38.212, 5.3.1. -/
noncomputable def polarCodeLength (K E nMax : ℕ) : ℕ :=
  let n1 := if (E : ℝ) ≤ 9 / 8 * 2 ^ (⌈Real.logb 2 E⌉ - 1) ∧ (K / E : ℝ) < 9 / 16 then
      ⌈Real.logb 2 E⌉ - 1
    else ⌈Real.logb 2 E⌉
  let n2 := ⌈Real.logb 2 (8 * K)⌉
  2 ^ (max (min n1 (min n2 nMax)) 5).toNat

/-- A rate from 9/16 up to one, where it decides on the length. -/
def HighRate (K E nMax : ℕ) : Prop :=
  9 * E ≤ 16 * K ∧ K < E ∧ 16 * E ≤ 9 * 2 ^ Nat.clog 2 E ∧ 6 ≤ Nat.clog 2 E ∧ Nat.clog 2 E ≤ nMax

/-! ## The comparisons -/

theorem ceil_logb_two (n : ℕ) : ⌈Real.logb 2 n⌉ = Nat.clog 2 n := by
  have h := Real.ceil_logb_natCast (b := 2) (Nat.cast_nonneg (α := ℝ) n)
  rwa [Int.clog_natCast] at h

/-- Not far above a power of two. -/
theorem le_nine_eighths_iff {R : Type*} [Field R] [LinearOrder R] [IsStrictOrderedRing R]
    (E l : ℕ) : (E : R) ≤ 9 / 8 * 2 ^ ((l : ℤ) - 1) ↔ 16 * E ≤ 9 * 2 ^ l := by
  have hpow : (9 / 8 * 2 ^ ((l : ℤ) - 1) : R) = 9 * 2 ^ l / 16 := by
    rw [zpow_sub₀ (by norm_num), zpow_natCast, zpow_one]
    ring
  rw [hpow, le_div_iff₀ (by norm_num), mul_comm]
  exact_mod_cast Iff.rfl

/-- The rate in integers. -/
theorem integer_rate_iff {K E : ℕ} (hE : 0 < E) : (((K / E : ℕ) : ℚ) < 9 / 16) ↔ K < E := by
  rw [← Nat.div_eq_zero_iff_lt hE]
  constructor
  · intro h
    by_contra hne
    have hone : (1 : ℚ) ≤ ((K / E : ℕ) : ℚ) := by
      exact_mod_cast Nat.one_le_iff_ne_zero.2 hne
    linarith
  · intro h
    rw [h]
    norm_num

theorem rate_iff {K E : ℕ} (hE : 0 < E) : ((K / E : ℝ) < 9 / 16) ↔ 16 * K < 9 * E := by
  rw [div_lt_div_iff₀ (by exact_mod_cast hE) (by norm_num), mul_comm (K : ℝ)]
  exact_mod_cast Iff.rfl

/-- Above a power of two the logarithm is not zero. -/
theorem clog_pos_of_le {E : ℕ} (hE : 0 < E) (h : 16 * E ≤ 9 * 2 ^ Nat.clog 2 E) :
    1 ≤ Nat.clog 2 E := by
  by_contra hzero
  rw [Nat.lt_one_iff.1 (not_le.1 hzero), pow_zero] at h
  omega

/-! ## The length -/

/-- The length in the source, in integers. -/
theorem nrPolarOutputLength_eq (K E : UInt16) (nMax : UInt8) (hE : 0 < E.toNat) :
    (nrPolarOutputLength K E nMax).toNat =
      2 ^ max (min (if 16 * E.toNat ≤ 9 * 2 ^ Nat.clog 2 E.toNat ∧ K.toNat < E.toNat then
        Nat.clog 2 E.toNat - 1 else Nat.clog 2 E.toNat)
        (min (Nat.clog 2 (8 * K.toNat)) nMax.toNat)) 5 := by
  have hlog : Nat.clog 2 E.toNat ≤ 16 := Nat.clog_le_of_le_pow E.toNat_lt.le
  have hlow := clog_pos_of_le hE
  have hword : ∀ n m : ℕ, n = m → m ≤ 16 → (UInt32.ofNat (2 ^ n)).toNat = 2 ^ m := by
    rintro n _ rfl hn
    exact UInt32.toNat_ofNat_of_lt' ((Nat.pow_le_pow_right two_pos hn).trans_lt (by decide))
  unfold nrPolarOutputLength
  simp only [le_nine_eighths_iff, UInt16.toNat_div, integer_rate_iff hE]
  generalize Nat.clog 2 E.toNat = log2E at hlog hlow ⊢
  generalize Nat.clog 2 (8 * K.toNat) = n2
  refine hword _ _ ?_ ?_
  · split_ifs <;> omega
  · split_ifs <;> omega

/-- The length is a power of two between 32 and the longest code, and less than twice as long as
what is sent. -/
theorem nrPolarOutputLength_pow (K E : UInt16) (nMax : UInt8) (hE : 16 < E.toNat)
    (hmax : 5 ≤ nMax.toNat) : ∃ n, 5 ≤ n ∧ n ≤ nMax.toNat ∧
      (nrPolarOutputLength K E nMax).toNat = 2 ^ n ∧ 2 ^ n < 2 * E.toNat := by
  refine ⟨_, le_max_right _ _, ?_, nrPolarOutputLength_eq K E nMax (by omega), ?_⟩
  · exact max_le ((min_le_right _ _).trans (min_le_right _ _)) hmax
  · have hpred := Nat.pow_pred_clog_lt_self one_lt_two (show 1 < E.toNat by omega)
    have hpos := Nat.clog_pos one_lt_two (show 1 < E.toNat by omega)
    have hlong : 2 ^ Nat.clog 2 E.toNat < 2 * E.toNat := by
      rw [← Nat.succ_pred_eq_of_pos hpos, pow_succ]
      omega
    have hshort : 2 ^ 5 < 2 * E.toNat := by omega
    have hle : ∀ n, n ≤ Nat.clog 2 E.toNat → 2 ^ max n 5 < 2 * E.toNat := fun n hn => by
      rcases le_total n 5 with h5 | h5
      · rwa [max_eq_right h5]
      · rw [max_eq_left h5]
        exact (Nat.pow_le_pow_right two_pos hn).trans_lt hlong
    refine hle _ ((min_le_left _ _).trans ?_)
    split_ifs
    · exact Nat.sub_le _ _
    · exact le_refl _

/-- The length in the standard, in integers. -/
theorem polarCodeLength_eq (K E nMax : ℕ) (hE : 0 < E) :
    polarCodeLength K E nMax =
      2 ^ max (min (if 16 * E ≤ 9 * 2 ^ Nat.clog 2 E ∧ 16 * K < 9 * E then
        Nat.clog 2 E - 1 else Nat.clog 2 E) (min (Nat.clog 2 (8 * K)) nMax)) 5 := by
  have hlow := clog_pos_of_le hE
  have hsecond : ⌈Real.logb 2 (8 * K)⌉ = Nat.clog 2 (8 * K) := by
    rw [← ceil_logb_two]
    push_cast
    rfl
  unfold polarCodeLength
  simp only [ceil_logb_two, hsecond, le_nine_eighths_iff, rate_iff hE]
  generalize Nat.clog 2 E = log2E at hlow ⊢
  congr 1
  split_ifs <;> omega

/-- The length is that of the standard exactly if the rate is not high where it decides. -/
theorem nrPolarOutputLength_iff (K E : UInt16) (nMax : UInt8) (hE : 0 < E) :
    (nrPolarOutputLength K E nMax).toNat = polarCodeLength K.toNat E.toNat nMax.toNat ↔
      ¬HighRate K.toNat E.toNat nMax.toNat := by
  have hpos : 0 < E.toNat := UInt16.lt_iff_toNat_lt.1 hE
  have hlow := clog_pos_of_le hpos
  have hsecond : 9 * E.toNat ≤ 16 * K.toNat →
      Nat.clog 2 E.toNat ≤ Nat.clog 2 (8 * K.toNat) := fun h =>
    Nat.clog_mono_right 2 (by omega)
  rw [nrPolarOutputLength_eq K E nMax hpos, polarCodeLength_eq _ _ _ hpos, HighRate]
  rw [Nat.pow_right_inj (le_refl 2)]
  generalize Nat.clog 2 E.toNat = log2E at hlow hsecond ⊢
  generalize Nat.clog 2 (8 * K.toNat) = n2 at hsecond ⊢
  split_ifs <;> omega

/-- The PBCH, at a rate of 56/864. -/
theorem nrPolarOutputLength_iff_pbch :
    (nrPolarOutputLength 56 864 9).toNat = polarCodeLength 56 864 9 :=
  (nrPolarOutputLength_iff 56 864 9 (by decide)).2 (by
    rintro ⟨hrate, -⟩
    exact absurd hrate (by decide))

/-- UCI of 70 bits on nine resource blocks, at a rate of 81/144, gets a code of length 128 instead
of 256. -/
theorem nrPolarOutputLength_pucch :
    (nrPolarOutputLength 81 144 10).toNat = 128 ∧ polarCodeLength 81 144 10 = 256 := by
  refine ⟨by decide +kernel, ?_⟩
  rw [polarCodeLength_eq 81 144 10 (by decide)]
  decide

end NrStack
