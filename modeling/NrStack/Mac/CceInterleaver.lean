import NrStack.Library.Permutation
import NrStack.Mac.Pdcch

/-!
# The interleaver of the PDCCH

`cce_to_reg_interleaving` of `nr_common.c` permutes the REG bundles of a CORESET whose REGs fill the
rectangle of the interleaver : with `L` REGs in a bundle, `R` rows and `C` columns. The CCEs are
made of different bundles, so no two of them have a REG in common. -/

namespace NrStack

variable {R C L nShift NSymb j j' k : ℕ}

/-- The REGs of CCE `j` of an interleaved CORESET, as resource blocks and symbols : all that the
loops of `fill_pdcch_vrb_map` over its bundles and their resource blocks reach. -/
def cceRegs (R nShift C L NRegs NSymb j : ℕ) : List (ℕ × ℕ) :=
  let BRb := L / NSymb
  (List.range' (6 * j / L) (6 / L)).flatMap fun k =>
    (cceToRegInterleaving R k nShift C L NRegs).toList.flatMap fun f =>
      (List.range BRb).flatMap fun rb => (List.range NSymb).map fun symb => (f * BRb + rb, symb)

/-- On the bundles of the CORESET the function is a rectangular interleaver. -/
theorem cceToRegInterleaving_eq_some (hL : 0 < L) (hk : k < R * C) :
    cceToRegInterleaving R k nShift C L (L * R * C) = some (rectInterleave R C nShift k) := by
  have hpos : 0 < R * C := Nat.zero_lt_of_lt hk
  have hR : R ≠ 0 := (Nat.pos_of_mul_pos_right hpos).ne'
  have hregs : L * R * C / L = R * C := by
    rw [Nat.mul_assoc, Nat.mul_div_cancel_left _ hL]
  rw [cceToRegInterleaving, if_neg hR, hregs, if_neg hpos.ne', rectInterleave]

/-! ## The bundles of a CCE -/

/-- The bundles of a CCE are some of the CORESET. -/
theorem bundle_lt_of_cce (hL : 0 < L) (hj : j < L * R * C / 6) (hk : k < 6 * j / L + 6 / L) :
    k < R * C := by
  have hj6 : 6 * (j + 1) ≤ L * (R * C) := by
    rw [← Nat.mul_assoc]
    omega
  calc k < 6 * j / L + 6 / L := hk
    _ ≤ (6 * j + 6) / L := Nat.div_add_div_le_add_div
    _ ≤ L * (R * C) / L := Nat.div_le_div_right hj6
    _ = R * C := Nat.mul_div_cancel_left _ hL

/-- Those of a CCE come before those of the next ones. -/
theorem bundles_le_of_lt (h : j < j') : 6 * j / L + 6 / L ≤ 6 * j' / L :=
  Nat.div_add_div_le_add_div.trans (Nat.div_le_div_right (by omega))

/-- A REG belongs to one bundle of its CCE. -/
theorem exists_bundle_of_mem_cceRegs (hL : 0 < L) (hj : j < L * R * C / 6) {reg : ℕ × ℕ}
    (hreg : reg ∈ cceRegs R nShift C L (L * R * C) NSymb j) :
    ∃ k, 6 * j / L ≤ k ∧ k < 6 * j / L + 6 / L ∧ k < R * C ∧
      rectInterleave R C nShift k = reg.1 / (L / NSymb) := by
  simp only [cceRegs, List.mem_flatMap, List.mem_range'_1, List.mem_map, List.mem_range,
    Option.mem_toList] at hreg
  obtain ⟨k, ⟨hge, hlt⟩, f, hf, rb, hrb, symb, -, rfl⟩ := hreg
  have hk := bundle_lt_of_cce hL hj hlt
  rw [cceToRegInterleaving_eq_some hL hk, Option.some_inj] at hf
  refine ⟨k, hge, hlt, hk, ?_⟩
  rw [hf, Nat.add_comm, Nat.add_mul_div_right _ _ (Nat.zero_lt_of_lt hrb), Nat.div_eq_of_lt hrb,
    Nat.zero_add]

/-! ## The permutation -/

/-- The bundles of the CORESET are permuted, and no two CCEs share a REG. -/
theorem cceToRegInterleaving_bijOn (hL : 0 < L) (R C nShift : ℕ) :
    (∃ f : ℕ → ℕ, (∀ k < R * C, cceToRegInterleaving R k nShift C L (L * R * C) = some (f k)) ∧
      Set.BijOn f (Set.Iio (R * C)) (Set.Iio (R * C))) ∧
    ∀ NSymb j j', j < L * R * C / 6 → j' < L * R * C / 6 → j ≠ j' →
      (cceRegs R nShift C L (L * R * C) NSymb j).Disjoint
        (cceRegs R nShift C L (L * R * C) NSymb j') := by
  have hbij := rectInterleave_bijOn R C nShift
  refine ⟨⟨rectInterleave R C nShift, fun k hk => cceToRegInterleaving_eq_some hL hk, hbij⟩, ?_⟩
  intro NSymb j j' hj hj' hne reg hreg hreg'
  obtain ⟨k, hge, hlt, hk, hf⟩ := exists_bundle_of_mem_cceRegs hL hj hreg
  obtain ⟨k', hge', hlt', hk', hf'⟩ := exists_bundle_of_mem_cceRegs hL hj' hreg'
  obtain rfl : k = k' := hbij.injOn hk hk' (hf.trans hf'.symm)
  rcases Nat.lt_or_gt_of_ne hne with h | h
  · have := bundles_le_of_lt (L := L) h
    omega
  · have := bundles_le_of_lt (L := L) h
    omega

/-- 48 resource blocks in one symbol, in bundles of 6 REGs. -/
theorem cceToRegInterleaving_bijOn_six :
    (∃ f : ℕ → ℕ, (∀ k < 2 * 4, cceToRegInterleaving 2 k 3 4 6 (6 * 2 * 4) = some (f k)) ∧
      Set.BijOn f (Set.Iio (2 * 4)) (Set.Iio (2 * 4))) ∧
    ∀ NSymb j j', j < 6 * 2 * 4 / 6 → j' < 6 * 2 * 4 / 6 → j ≠ j' →
      (cceRegs 2 3 4 6 (6 * 2 * 4) NSymb j).Disjoint (cceRegs 2 3 4 6 (6 * 2 * 4) NSymb j') :=
  cceToRegInterleaving_bijOn (by decide) 2 4 3

end NrStack
