import Mathlib.Tactic

/-!
# Permutations of a range, and selections from them

A list of `n` numbers is a permutation of those below `n` if its mask has `n` bits
(`perm_range_of_mask`). `selectLast` takes the last `k` of the elements that are not excluded, as
many as asked for if enough are left (`length_selectLast`); with the others they are the whole list
again (`append_filter_perm`). A block interleaver moves blocks by a permutation of them
(`blockInterleave_injOn`), and keeps the elements in front where it keeps the blocks
(`blockInterleave_lt`). A rectangle written by columns and read by rows is a permutation, from
whichever number the reading starts (`rectInterleave_bijOn`).
-/

namespace NrStack

/-! ## Masks -/

/-- The bits with the numbers of the list. -/
def maskOf (q : List ℕ) : ℕ :=
  q.foldl (fun mask i => mask ||| 1 <<< i) 0

theorem testBit_foldl_mask (q : List ℕ) (mask j : ℕ) :
    (q.foldl (fun mask i => mask ||| 1 <<< i) mask).testBit j =
      (mask.testBit j || decide (j ∈ q)) := by
  induction q generalizing mask with
  | nil => simp
  | cons i q ih =>
    have hbit : (1 <<< i).testBit j = decide (j = i) := by
      rw [Nat.one_shiftLeft, Nat.testBit_two_pow]
      exact decide_eq_decide.2 eq_comm
    rw [List.foldl_cons, ih, Nat.testBit_or, hbit, Bool.or_assoc, ← Bool.decide_or]
    simp only [List.mem_cons]

/-- All bits in as many elements. -/
theorem perm_range_of_mask {q : List ℕ} {n : ℕ} (hlen : q.length = n)
    (hmask : maskOf q = 2 ^ n - 1) : q.Perm (List.range n) := by
  have hmem : List.range n ⊆ q := by
    intro j hj
    have hbit := testBit_foldl_mask q 0 j
    rw [← maskOf, hmask, Nat.testBit_two_pow_sub_one, Nat.zero_testBit, Bool.false_or,
      decide_eq_decide] at hbit
    exact hbit.1 (List.mem_range.1 hj)
  refine ((List.subperm_of_subset List.nodup_range hmem).perm_of_length_le ?_).symm
  rw [hlen, List.length_range]

/-! ## Selections -/

section Selection

variable {α : Type*} [DecidableEq α] {q f : List α} {k : ℕ}

/-- The last `k` elements of `q` that are not in `f`. -/
def selectLast (q f : List α) (k : ℕ) : List α :=
  let free := q.filter (· ∉ f)
  free.drop (free.length - k)

theorem length_selectLast (h : k ≤ (q.filter (· ∉ f)).length) : (selectLast q f k).length = k := by
  rw [selectLast, List.length_drop]
  omega

theorem selectLast_sublist (q f : List α) (k : ℕ) : (selectLast q f k).Sublist q :=
  (List.drop_sublist _ _).trans List.filter_sublist

/-- Nothing excluded is selected. -/
theorem not_mem_of_mem_selectLast {a : α} (h : a ∈ selectLast q f k) : a ∉ f :=
  of_decide_eq_true (List.mem_filter.1 (List.mem_of_mem_drop h)).2

/-- A selection, by its members. -/
theorem filter_mem_perm {s : List α} (hq : q.Nodup) (hs : s.Nodup) (h : s ⊆ q) :
    (q.filter (· ∈ s)).Perm s := by
  refine (List.perm_ext_iff_of_nodup (hq.filter _) hs).2 fun a => ?_
  rw [List.mem_filter, decide_eq_true_iff]
  exact ⟨And.right, fun ha => ⟨h ha, ha⟩⟩

/-- A selection and the others. -/
theorem append_filter_perm {s : List α} (hq : q.Nodup) (hs : s.Sublist q) :
    (s ++ q.filter (· ∉ s)).Perm q := by
  have hsplit := List.filter_append_perm (fun a => decide (a ∈ s)) q
  simp only [← decide_not] at hsplit
  exact ((filter_mem_perm hq (hs.nodup hq) hs.subset).symm.append_right _).trans hsplit

/-- A number of elements is left over. -/
theorem length_filter_not_mem (hq : q.Nodup) (f : List α) :
    (q.filter (· ∉ f)).length + (q.toFinset ∩ f.toFinset).card = q.length := by
  have hin : (q.filter (· ∈ f)).length = (q.toFinset ∩ f.toFinset).card := by
    rw [← List.toFinset_card_of_nodup (hq.filter _)]
    congr 1
    ext a
    simp
  have hsplit := (List.filter_append_perm (fun a => decide (a ∈ f)) q).length_eq
  simp only [← decide_not] at hsplit
  rw [List.length_append, hin] at hsplit
  omega

end Selection

/-! ## Block interleavers -/

/-- Element `m` of blocks of `b` elements, in the order `p` of the blocks. -/
def blockInterleave (p : List ℕ) (b m : ℕ) : ℕ :=
  p.getD (m / b) 0 * b + m % b

variable {p : List ℕ} {b m n : ℕ}

/-- Different elements stay apart. -/
theorem blockInterleave_injOn (hp : p.Nodup) :
    Set.InjOn (blockInterleave p b) (Set.Iio (p.length * b)) := by
  intro m hm n hn h
  have hb : 0 < b := Nat.pos_of_ne_zero (by rintro rfl; simp at hm)
  have hlow : ∀ k, blockInterleave p b k % b = k % b := fun k => by
    rw [blockInterleave, Nat.mul_add_mod_self_right, Nat.mod_mod]
  have hhigh : ∀ k, blockInterleave p b k / b = p.getD (k / b) 0 := fun k => by
    rw [blockInterleave, Nat.mul_comm, Nat.mul_add_div hb, Nat.mod_div_self, add_zero]
  have hblock : ∀ {k}, k ∈ Set.Iio (p.length * b) → k / b < p.length := fun hk =>
    Nat.div_lt_of_lt_mul (by rwa [mul_comm])
  have hmod : m % b = n % b := by
    rw [← hlow m, h, hlow]
  have hdiv : m / b = n / b := by
    have hget := hhigh m
    simp only [h, hhigh n, List.getD_eq_getElem?_getD, List.getElem?_eq_getElem (hblock hm),
      List.getElem?_eq_getElem (hblock hn), Option.getD_some] at hget
    exact (hp.getElem_inj_iff.1 hget).symm
  rw [← Nat.div_add_mod m b, ← Nat.div_add_mod n b, hmod, hdiv]

/-- The first blocks, if their places are the first ones. -/
theorem blockInterleave_lt {k : ℕ} (hfront : ∀ i < k, p.getD i 0 < k) (hm : m < k * b) :
    blockInterleave p b m < k * b := by
  have hb : 0 < b := Nat.pos_of_ne_zero (by rintro rfl; simp at hm)
  have hblock := hfront (m / b) (Nat.div_lt_of_lt_mul (by rwa [mul_comm]))
  have hle : (p.getD (m / b) 0 + 1) * b ≤ k * b := Nat.mul_le_mul_right b hblock
  have hmod := Nat.mod_lt m hb
  rw [blockInterleave]
  rw [add_mul, one_mul] at hle
  omega

/-! ## Rectangular interleavers -/

/-- The place of number `k` in a rectangle of `R` rows and `C` columns that is filled by columns and
read by rows, `s` places further on. -/
def rectInterleave (R C s k : ℕ) : ℕ :=
  (k % R * C + k / R + s) % (R * C)

variable {R C s k : ℕ}

/-- Before the places are turned. -/
theorem rect_lt (hk : k < R * C) : k % R * C + k / R < R * C := by
  have hR : 0 < R := Nat.pos_of_ne_zero (by rintro rfl; simp at hk)
  calc k % R * C + k / R < k % R * C + C := Nat.add_lt_add_left (Nat.div_lt_of_lt_mul hk) _
    _ = (k % R + 1) * C := by rw [add_mul, one_mul]
    _ ≤ R * C := Nat.mul_le_mul_right _ (Nat.mod_lt k hR)

theorem rectInterleave_injOn (R C s : ℕ) :
    Set.InjOn (rectInterleave R C s) (Set.Iio (R * C)) := by
  intro k hk l hl h
  have hcol : ∀ {k}, k ∈ Set.Iio (R * C) → k / R < C := fun hk => Nat.div_lt_of_lt_mul hk
  have hplace : k % R * C + k / R = l % R * C + l / R :=
    (Nat.ModEq.add_right_cancel' s h).eq_of_lt_of_lt (rect_lt hk) (rect_lt hl)
  have hdiv : k / R = l / R := by
    have hmod := congrArg (· % C) hplace
    simpa only [Nat.mul_add_mod_self_right, Nat.mod_eq_of_lt (hcol hk),
      Nat.mod_eq_of_lt (hcol hl)] using hmod
  have hmod : k % R = l % R := by
    rw [hdiv, Nat.add_right_cancel_iff] at hplace
    exact Nat.eq_of_mul_eq_mul_right (Nat.zero_lt_of_lt (hcol hk)) hplace
  rw [← Nat.div_add_mod k R, ← Nat.div_add_mod l R, hdiv, hmod]

theorem rectInterleave_bijOn (R C s : ℕ) :
    Set.BijOn (rectInterleave R C s) (Set.Iio (R * C)) (Set.Iio (R * C)) := by
  have hmaps : Set.MapsTo (rectInterleave R C s) (Set.Iio (R * C)) (Set.Iio (R * C)) := fun k hk =>
    Nat.mod_lt _ (Nat.zero_lt_of_lt hk)
  refine ⟨hmaps, rectInterleave_injOn R C s, ?_⟩
  rw [← Finset.coe_range]
  refine Finset.surjOn_of_injOn_of_card_le _ ?_ ?_ le_rfl
  · rwa [Finset.coe_range]
  · rw [Finset.coe_range]
    exact rectInterleave_injOn R C s

end NrStack
