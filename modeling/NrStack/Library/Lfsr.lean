import Mathlib.Tactic

/-!
# Shift registers a word at a time

A linear feedback shift register of 31 bits gives the sequence `lfsr taps init` : the first 31 bits
are `init`, and bit `n + 31` is the sum of the bits `n + t` for the taps `t` (`lfsr_add`). If the
taps are low, 32 bits come of the 32 before them by shifts of the whole word (`lfsrWord`), once to
the right for the bits that are there and once to the left for the new ones (`word_lfsrWord`). -/

namespace NrStack

/-- The sum of the bits of a function. -/
def bitSum (f : ℕ → Bool) (taps : List ℕ) : Bool :=
  taps.foldl (fun b t => b ^^ f t) false

theorem foldl_xor (f : ℕ → Bool) : ∀ (taps : List ℕ) (b : Bool),
    taps.foldl (fun b t => b ^^ f t) b = (b ^^ bitSum f taps)
  | [], b => by simp [bitSum]
  | t :: taps, b => by
    rw [List.foldl_cons, bitSum, List.foldl_cons, foldl_xor f taps, foldl_xor f taps,
      Bool.false_xor, Bool.xor_assoc]

theorem bitSum_cons (f : ℕ → Bool) (t : ℕ) (taps : List ℕ) :
    bitSum f (t :: taps) = (f t ^^ bitSum f taps) := by
  rw [bitSum, List.foldl_cons, foldl_xor, Bool.false_xor]

theorem bitSum_congr {f g : ℕ → Bool} : ∀ {taps : List ℕ}, (∀ t ∈ taps, f t = g t) →
    bitSum f taps = bitSum g taps
  | [], _ => rfl
  | t :: taps, h => by
    rw [bitSum_cons, bitSum_cons, h t List.mem_cons_self,
      bitSum_congr fun u hu => h u (List.mem_cons_of_mem t hu)]

theorem bitSum_xor (f g : ℕ → Bool) : ∀ taps : List ℕ,
    (bitSum f taps ^^ bitSum g taps) = bitSum (fun t => f t ^^ g t) taps
  | [] => rfl
  | t :: taps => by
    rw [bitSum_cons, bitSum_cons, bitSum_cons, ← bitSum_xor f g taps]
    generalize f t = a, g t = b, bitSum f taps = c, bitSum g taps = d
    cases a <;> cases b <;> cases c <;> cases d <;> rfl

/-! ## The register -/

/-- The register after `n` steps : bit 30 is the new one. -/
def lfsrWindow (taps : List ℕ) (init : ℕ → Bool) : ℕ → ℕ → Bool
  | 0, i => init i
  | n + 1, i =>
    if i < 30 then lfsrWindow taps init n (i + 1) else bitSum (lfsrWindow taps init n) taps

/-- Its output. -/
def lfsr (taps : List ℕ) (init : ℕ → Bool) (n : ℕ) : Bool :=
  lfsrWindow taps init n 0

variable {taps : List ℕ} {init : ℕ → Bool}

theorem lfsrWindow_eq : ∀ {i : ℕ} (n : ℕ), i < 31 →
    lfsrWindow taps init n i = lfsr taps init (n + i)
  | 0, _, _ => rfl
  | i + 1, n, hi => by
    have hstep : lfsrWindow taps init (n + 1) i = lfsrWindow taps init n (i + 1) :=
      if_pos (by omega)
    rw [← hstep, lfsrWindow_eq (n + 1) (by omega), Nat.add_right_comm, Nat.add_assoc]

theorem lfsr_init {i : ℕ} (hi : i < 31) : lfsr taps init i = init i := by
  rw [← Nat.zero_add i, ← lfsrWindow_eq 0 hi, Nat.zero_add]
  rfl

theorem lfsr_add (htaps : ∀ t ∈ taps, t < 31) (n : ℕ) :
    lfsr taps init (n + 31) = bitSum (fun t => lfsr taps init (n + t)) taps := by
  have hlast : lfsrWindow taps init (n + 1) 30 = bitSum (lfsrWindow taps init n) taps :=
    if_neg (lt_irrefl 30)
  rw [← bitSum_congr fun t ht => lfsrWindow_eq n (htaps t ht), ← hlast,
    lfsrWindow_eq (n + 1) (by omega), Nat.add_assoc, Nat.add_comm 1 30]

/-! ## Words -/

/-- The bits `32 * k`, `32 * k + 1`, … of a sequence, from the low bit on. -/
def IsWord (s : ℕ → Bool) (k : ℕ) (w : BitVec 32) : Prop :=
  ∀ j < 32, w.getLsbD j = s (32 * k + j)

theorem getLsbD_foldl_xor (f : ℕ → BitVec 32) (j : ℕ) : ∀ (taps : List ℕ) (v : BitVec 32),
    (taps.foldl (fun v t => v ^^^ f t) v).getLsbD j =
      (v.getLsbD j ^^ bitSum (fun t => (f t).getLsbD j) taps)
  | [], v => by simp [bitSum]
  | t :: taps, v => by
    rw [List.foldl_cons, getLsbD_foldl_xor f j taps, bitSum_cons, BitVec.getLsbD_xor,
      Bool.xor_assoc]

/-- The sums that the word has the bits of. -/
def lfsrOld (taps : List ℕ) (w : BitVec 32) : BitVec 32 :=
  taps.foldl (fun v t => v ^^^ w >>> (t + 1)) 0#32

/-- The next word. -/
def lfsrWord (taps : List ℕ) (w : BitVec 32) : BitVec 32 :=
  taps.foldl (fun v t => v ^^^ lfsrOld taps w <<< (31 - t)) (lfsrOld taps w)

theorem getLsbD_lfsrOld (w : BitVec 32) (j : ℕ) :
    (lfsrOld taps w).getLsbD j = bitSum (fun t => w.getLsbD (t + 1 + j)) taps := by
  rw [lfsrOld, getLsbD_foldl_xor, BitVec.getLsbD_zero, Bool.false_xor]
  exact bitSum_congr fun t _ => BitVec.getLsbD_ushiftRight ..

section

variable {k : ℕ} {w : BitVec 32}

/-- The low bits of the next word need only the bits of this one. -/
theorem getLsbD_lfsrOld_of_lt (htaps : ∀ t ∈ taps, t < 16) (hw : IsWord (lfsr taps init) k w)
    {i : ℕ} (hi : i < 16) : (lfsrOld taps w).getLsbD i = lfsr taps init (32 * (k + 1) + i) := by
  have hsum : 32 * (k + 1) + i = 32 * k + i + 1 + 31 := by omega
  rw [getLsbD_lfsrOld, hsum, lfsr_add fun t ht => (htaps t ht).trans (by omega)]
  refine bitSum_congr fun t ht => ?_
  have ht := htaps t ht
  rw [hw _ (by omega)]
  congr 1
  omega

theorem isWord_lfsrWord (htaps : ∀ t ∈ taps, t < 16) (hw : IsWord (lfsr taps init) k w) :
    IsWord (lfsr taps init) (k + 1) (lfsrWord taps w) := by
  intro j hj
  have hsum : 32 * (k + 1) + j = 32 * k + j + 1 + 31 := by omega
  rw [lfsrWord, getLsbD_foldl_xor, getLsbD_lfsrOld, bitSum_xor, hsum,
    lfsr_add fun t ht => (htaps t ht).trans (by omega)]
  refine bitSum_congr fun t ht => ?_
  have ht := htaps t ht
  rw [BitVec.getLsbD_shiftLeft]
  by_cases hold : t + 1 + j < 32
  · -- the bit is in the old word
    have hlow : j < 31 - t := by omega
    rw [hw _ hold]
    simp only [hlow, decide_true, Bool.not_true, Bool.and_false, Bool.false_and, Bool.xor_false]
    congr 1
    omega
  · have hlow : ¬j < 31 - t := by omega
    rw [BitVec.getLsbD_of_ge _ _ (by omega), getLsbD_lfsrOld_of_lt htaps hw (by omega)]
    simp only [hlow, hj, decide_true, decide_false, Bool.not_false, Bool.and_true, Bool.true_and,
      Bool.false_xor]
    congr 1
    omega

end

end NrStack
