import Mathlib.Tactic

/-!
# Resource indication values

An allocation of `nprb` resource blocks from `rbStart` on, in a bandwidth of `n`, is one number :
the row `nprb - 1` of `n` columns, or for a long allocation a mirrored place in the other half.
`nrriv2Bw` and `nrriv2PrbOffset` read the two back. `int` is an integer here : the values stay below
`n * (n + 1) / 2`, for a bandwidth of at most 275 blocks.
-/

namespace NrStack

/-- `PRBalloc_to_locationandbandwidth0`; `none` is a failed assertion. -/
def prbAllocToLocationAndBandwidth0 (nprb rbStart bwpSize : ℤ) : Option ℤ :=
  if ¬(nprb > 0 ∧ nprb + rbStart ≤ bwpSize) then none
  else if nprb ≤ 1 + bwpSize / 2 then some (bwpSize * (nprb - 1) + rbStart)
  else some (bwpSize * (bwpSize + 1 - nprb) + (bwpSize - 1 - rbStart))

/-- The test of the two decoders for an allocation that is not mirrored. -/
def NotMirrored (locationAndBandwidth nRb : ℤ) : Prop :=
  locationAndBandwidth.tdiv nRb ≤ nRb / 2 + 1 ∧
    locationAndBandwidth.tdiv nRb + locationAndBandwidth.tmod nRb < nRb

instance (locationAndBandwidth nRb : ℤ) : Decidable (NotMirrored locationAndBandwidth nRb) :=
  inferInstanceAs (Decidable (_ ∧ _))

/-- `NRRIV2BW`. -/
def nrriv2Bw (locationAndBandwidth nRb : ℤ) : ℤ :=
  if NotMirrored locationAndBandwidth nRb then locationAndBandwidth.tdiv nRb + 1
  else nRb + 1 - locationAndBandwidth.tdiv nRb

/-- `NRRIV2PRBOFFSET`. -/
def nrriv2PrbOffset (locationAndBandwidth nRb : ℤ) : ℤ :=
  if NotMirrored locationAndBandwidth nRb then locationAndBandwidth.tmod nRb
  else nRb - 1 - locationAndBandwidth.tmod nRb

/-- An allocation in a bandwidth. -/
structure IsPrbAlloc (n start length : ℤ) : Prop where
  start_nonneg : 0 ≤ start
  length_pos : 1 ≤ length
  end_le : start + length ≤ n

/-- The values that stand for an allocation, as many as there are. -/
def IsRiv (n riv : ℤ) : Prop :=
  0 ≤ riv ∧ riv < n * (n + 1) / 2

/-- A number by its row and column. -/
theorem row_column {n column : ℤ} (row : ℤ) (h : 0 ≤ row) (h₀ : 0 ≤ column) (h₁ : column < n) :
    (n * row + column).tdiv n = row ∧ (n * row + column).tmod n = column := by
  have hn : n ≠ 0 := by omega
  have hnonneg : 0 ≤ n * row + column := Int.add_nonneg (Int.mul_nonneg (by omega) h) h₀
  constructor
  · rw [Int.tdiv_eq_ediv_of_nonneg hnonneg, Int.mul_add_ediv_left _ _ hn,
      Int.ediv_eq_zero_of_lt h₀ h₁, add_zero]
  · rw [Int.tmod_eq_emod_of_nonneg hnonneg, Int.mul_add_emod_self_left, Int.emod_eq_of_lt h₀ h₁]

theorem decode_encode_riv {n start length : ℤ} (h : IsPrbAlloc n start length) :
    ∃ riv, prbAllocToLocationAndBandwidth0 length start n = some riv ∧
      nrriv2Bw riv n = length ∧ nrriv2PrbOffset riv n = start := by
  obtain ⟨hstart, hlength, hend⟩ := h
  rw [prbAllocToLocationAndBandwidth0, if_neg (by omega)]
  by_cases hfold : length ≤ 1 + n / 2
  · obtain ⟨hrow, hcolumn⟩ := row_column (length - 1) (by omega) hstart
      (show start < n by omega)
    have hdirect : NotMirrored (n * (length - 1) + start) n := by
      rw [NotMirrored, hrow, hcolumn]
      omega
    refine ⟨_, if_pos hfold, ?_, ?_⟩
    · rw [nrriv2Bw, if_pos hdirect, hrow]
      omega
    · rw [nrriv2PrbOffset, if_pos hdirect, hcolumn]
  · obtain ⟨hrow, hcolumn⟩ := row_column (n + 1 - length) (by omega)
      (show 0 ≤ n - 1 - start by omega) (show n - 1 - start < n by omega)
    have hmirrored : ¬NotMirrored (n * (n + 1 - length) + (n - 1 - start)) n := by
      rw [NotMirrored, hrow, hcolumn]
      omega
    refine ⟨_, if_neg hfold, ?_, ?_⟩
    · rw [nrriv2Bw, if_neg hmirrored, hrow]
      omega
    · rw [nrriv2PrbOffset, if_neg hmirrored, hcolumn]
      omega

/-- The row and the column of a value are below the fold of the triangle. -/
theorem IsRiv.row_le {n riv : ℤ} (hn : 1 ≤ n) (h : IsRiv n riv) :
    0 ≤ riv / n ∧ 2 * (riv / n) ≤ n ∧ (2 * (riv / n) = n → 2 * (riv % n) < n) := by
  have hsplit := Int.mul_ediv_add_emod riv n
  have hcolumn := Int.emod_nonneg riv (show n ≠ 0 by omega)
  have hbelow : 2 * (n * (riv / n)) + 2 * (riv % n) + 2 ≤ n * (n + 1) := by
    have hlt := h.2
    omega
  have hle : 2 * (riv / n) ≤ n := by
    by_contra hgt
    have hmul : n * (n + 1) ≤ n * (2 * (riv / n)) :=
      Int.mul_le_mul_of_nonneg_left (by omega) (by omega)
    have hswap : n * (2 * (riv / n)) = 2 * (n * (riv / n)) := by ring
    omega
  refine ⟨Int.ediv_nonneg h.1 (by omega), hle, fun heq => ?_⟩
  have hmul : 2 * (n * (riv / n)) = n * n := by rw [mul_left_comm, heq]
  have hsucc : n * (n + 1) = n * n + n := by ring
  omega

/-- A value is the encoding of what it decodes to. -/
theorem encode_decode_riv {n riv : ℤ} (hn : 1 ≤ n) (h : IsRiv n riv) :
    IsPrbAlloc n (nrriv2PrbOffset riv n) (nrriv2Bw riv n) ∧
      prbAllocToLocationAndBandwidth0 (nrriv2Bw riv n) (nrriv2PrbOffset riv n) n = some riv := by
  obtain ⟨hrow, hhalf, hfold⟩ := h.row_le hn
  have hsplit := Int.mul_ediv_add_emod riv n
  have hcolumn := Int.emod_nonneg riv (show n ≠ 0 by omega)
  have hcolumn' := Int.emod_lt_of_pos riv (show 0 < n by omega)
  have hdiv : riv.tdiv n = riv / n := Int.tdiv_eq_ediv_of_nonneg h.1
  have hmod : riv.tmod n = riv % n := Int.tmod_eq_emod_of_nonneg h.1
  have htest : NotMirrored riv n ↔ riv / n ≤ n / 2 + 1 ∧ riv / n + riv % n < n := by
    rw [NotMirrored, hdiv, hmod]
  rw [nrriv2PrbOffset, nrriv2Bw, prbAllocToLocationAndBandwidth0, hdiv, hmod]
  by_cases hdirect : NotMirrored riv n
  · rw [if_pos hdirect, if_pos hdirect]
    obtain ⟨-, hsum⟩ := htest.1 hdirect
    refine ⟨⟨hcolumn, by omega, by omega⟩, ?_⟩
    rw [if_neg (by omega), if_pos (by omega), add_sub_cancel_right, hsplit]
  · rw [if_neg hdirect, if_neg hdirect]
    -- the row is never above the bound of the test
    have hsum : n ≤ riv / n + riv % n := by
      by_contra hlt
      exact hdirect (htest.2 ⟨by omega, by omega⟩)
    refine ⟨⟨by omega, by omega, by omega⟩, ?_⟩
    rw [if_neg (by omega), if_neg (by omega), sub_sub_cancel, sub_sub_cancel, hsplit]

/-- Every allocation is encoded by a value in the triangle. -/
theorem isRiv_encode {n start length riv : ℤ} (h : IsPrbAlloc n start length)
    (hriv : prbAllocToLocationAndBandwidth0 length start n = some riv) : IsRiv n riv := by
  obtain ⟨hstart, hlength, hend⟩ := h
  rw [prbAllocToLocationAndBandwidth0, if_neg (by omega)] at hriv
  have hsucc : n * (n + 1) = n * n + n := by ring
  have hbelow : ∀ row column : ℤ, 0 ≤ row → 0 ≤ column → column < n → 2 * row ≤ n →
      (2 * row = n → 2 * column < n) → IsRiv n (n * row + column) := by
    intro row column hrow hcolumn hlt hhalf hfold
    have hnonneg : 0 ≤ n * row := Int.mul_nonneg (by omega) hrow
    refine ⟨by omega, ?_⟩
    have htwice : 2 * (n * row) = n * (2 * row) := by ring
    rcases hhalf.lt_or_eq with hrow' | hrow'
    · have hmul : n * (2 * row) ≤ n * (n - 1) :=
        Int.mul_le_mul_of_nonneg_left (by omega) (by omega)
      have hpred : n * (n - 1) = n * n - n := by ring
      omega
    · have heq : n * (2 * row) = n * n := by rw [hrow']
      have hcol := hfold hrow'
      omega
  split_ifs at hriv with hfold
  · cases hriv
    exact hbelow _ _ (by omega) hstart (by omega) (by omega) (by omega)
  · cases hriv
    exact hbelow _ _ (by omega) (by omega) (by omega) (by omega) (by omega)

end NrStack
