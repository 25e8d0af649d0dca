import NrStack.Library.Lfsr

/-!
# Gold sequences

`lte_gold_generic` gives the pseudo-random sequence of 38.211, 5.2.1, 32 bits at a time. It keeps a
word of each of the two shift registers, and after a reset it goes past the first 1600 bits. The
words are those of the sequence bit by bit (`lteGoldGeneric_words`) for an initial value of 31 bits.
-/

namespace NrStack

/-! ## Bit by bit -/

/-- The taps of the first register. -/
def goldTaps1 : List ℕ := [0, 3]

/-- The taps of the second register. -/
def goldTaps2 : List ℕ := [0, 1, 2, 3]

/-- The sequence `x1`. -/
def goldX1 : ℕ → Bool :=
  lfsr goldTaps1 fun i => decide (i = 0)

/-- The sequence `x2`, which begins with the bits of `cinit`. -/
def goldX2 (cinit : BitVec 32) : ℕ → Bool :=
  lfsr goldTaps2 cinit.getLsbD

/-- The sequence `c`, with `Nc = 1600`. -/
def goldBit (cinit : BitVec 32) (n : ℕ) : Bool :=
  goldX1 (n + 1600) ^^ goldX2 cinit (n + 1600)

/-! ## Word by word -/

/-- The step of `x1` in `lte_gold_generic`. -/
def goldStep1 (x1 : BitVec 32) : BitVec 32 :=
  let x := x1 >>> 1 ^^^ x1 >>> 4
  x ^^^ x <<< 31 ^^^ x <<< 28

/-- The step of `x2` in `lte_gold_generic`. -/
def goldStep2 (x2 : BitVec 32) : BitVec 32 :=
  let x := x2 >>> 1 ^^^ x2 >>> 2 ^^^ x2 >>> 3 ^^^ x2 >>> 4
  x ^^^ x <<< 31 ^^^ x <<< 30 ^^^ x <<< 29 ^^^ x <<< 28

/-- Both. -/
def goldStep (x : BitVec 32 × BitVec 32) : BitVec 32 × BitVec 32 :=
  (goldStep1 x.1, goldStep2 x.2)

/-- The branch of the reset. -/
def goldReset (x2 : BitVec 32) : BitVec 32 × BitVec 32 :=
  goldStep^[49] (1 + 1 <<< 31, x2 ^^^ (x2 ^^^ x2 >>> 1 ^^^ x2 >>> 2 ^^^ x2 >>> 3) <<< 31)

/-- `lte_gold_generic` : the word that it returns, and `x1` and `x2`. -/
def lteGoldGeneric (x : BitVec 32 × BitVec 32) (reset : Bool) :
    BitVec 32 × BitVec 32 × BitVec 32 :=
  let x := goldStep (if reset then goldReset x.2 else x)
  (x.1 ^^^ x.2, x)

/-- The words of the calls after the first. -/
def goldRest (x : BitVec 32 × BitVec 32) : ℕ → List (BitVec 32)
  | 0 => []
  | n + 1 => (lteGoldGeneric x false).1 :: goldRest (lteGoldGeneric x false).2 n

/-- The words of `n` calls, the first one with a reset to `cinit`. -/
def goldWords (cinit : BitVec 32) : ℕ → List (BitVec 32)
  | 0 => []
  | n + 1 => (lteGoldGeneric (0, cinit) true).1 :: goldRest (lteGoldGeneric (0, cinit) true).2 n

/-! ## They agree -/

theorem goldStep1_eq (x1 : BitVec 32) : goldStep1 x1 = lfsrWord goldTaps1 x1 := by
  simp [goldStep1, lfsrWord, lfsrOld, goldTaps1]

theorem goldStep2_eq (x2 : BitVec 32) : goldStep2 x2 = lfsrWord goldTaps2 x2 := by
  simp [goldStep2, lfsrWord, lfsrOld, goldTaps2]

/-- The registers hold word `k` of the two sequences. -/
def GoldAt (cinit : BitVec 32) (k : ℕ) (x : BitVec 32 × BitVec 32) : Prop :=
  IsWord goldX1 k x.1 ∧ IsWord (goldX2 cinit) k x.2

variable {cinit : BitVec 32} {k : ℕ} {x : BitVec 32 × BitVec 32}

theorem GoldAt.step (h : GoldAt cinit k x) : GoldAt cinit (k + 1) (goldStep x) := by
  refine ⟨?_, ?_⟩
  · rw [goldStep, goldStep1_eq]
    exact isWord_lfsrWord (by decide) h.1
  · rw [goldStep, goldStep2_eq]
    exact isWord_lfsrWord (by decide) h.2

theorem GoldAt.iterate (h : GoldAt cinit k x) : ∀ m, GoldAt cinit (k + m) (goldStep^[m] x)
  | 0 => h
  | m + 1 => by
    rw [Function.iterate_succ_apply']
    exact (h.iterate m).step

/-- A word of 31 bits of the start and the next one. -/
theorem isWord_zero {taps : List ℕ} {init : ℕ → Bool} (htaps : ∀ t ∈ taps, t < 31) {w : BitVec 32}
    (hlow : ∀ j < 31, w.getLsbD j = init j) (hhigh : w.getLsbD 31 = bitSum init taps) :
    IsWord (lfsr taps init) 0 w := by
  intro j hj
  rw [Nat.mul_zero, Nat.zero_add]
  rcases Nat.lt_succ_iff_lt_or_eq.1 hj with hj | rfl
  · rw [lfsr_init hj, hlow j hj]
  · have hnext : lfsr taps init (0 + 31) = _ := lfsr_add htaps 0
    rw [Nat.zero_add] at hnext
    rw [hnext, hhigh]
    refine bitSum_congr fun t ht => ?_
    rw [Nat.zero_add, lfsr_init (htaps t ht)]

theorem isWord_x1 : IsWord goldX1 0 (1 + 1 <<< 31) :=
  isWord_zero (by decide) (by decide) (by decide)

theorem isWord_x2 (h : cinit.getLsbD 31 = false) : IsWord (goldX2 cinit) 0
    (cinit ^^^ (cinit ^^^ cinit >>> 1 ^^^ cinit >>> 2 ^^^ cinit >>> 3) <<< 31) := by
  refine isWord_zero (by decide) (fun j hj => ?_) ?_
  · rw [BitVec.getLsbD_xor, BitVec.getLsbD_shiftLeft]
    simp [hj]
  · have hhigh : cinit[31] = false := h
    simp [bitSum, goldTaps2, hhigh]

theorem goldReset_at (h : cinit.getLsbD 31 = false) : GoldAt cinit 49 (goldReset cinit) := by
  have hstart : GoldAt cinit 0 (1 + 1 <<< 31,
      cinit ^^^ (cinit ^^^ cinit >>> 1 ^^^ cinit >>> 2 ^^^ cinit >>> 3) <<< 31) :=
    ⟨isWord_x1, isWord_x2 h⟩
  have hrun := hstart.iterate 49
  rw [Nat.zero_add] at hrun
  exact hrun

/-- What a call returns. -/
theorem GoldAt.word (h : GoldAt cinit (k + 50) x) : IsWord (goldBit cinit) k (x.1 ^^^ x.2) := by
  intro j hj
  have hpos : 32 * (k + 50) + j = 32 * k + j + 1600 := by omega
  rw [BitVec.getLsbD_xor, h.1 j hj, h.2 j hj, hpos]
  rfl

theorem goldRest_words : ∀ {n k : ℕ} {x : BitVec 32 × BitVec 32}, GoldAt cinit (k + 50) x →
    ∀ i (hi : i < (goldRest x n).length), IsWord (goldBit cinit) (k + 1 + i) (goldRest x n)[i]
  | 0, _, _, _, _, hi => absurd hi (Nat.not_lt_zero _)
  | n + 1, k, x, h, 0, _ => GoldAt.word h.step
  | n + 1, k, x, h, i + 1, hi => by
    have hrest := goldRest_words (n := n) (k := k + 1) h.step i (Nat.lt_of_succ_lt_succ hi)
    rw [Nat.add_assoc (k + 1) 1 i, Nat.add_comm 1 i] at hrest
    exact hrest

theorem length_goldRest : ∀ (n : ℕ) (x : BitVec 32 × BitVec 32), (goldRest x n).length = n
  | 0, _ => rfl
  | n + 1, _ => congrArg Nat.succ (length_goldRest n _)

@[simp] theorem length_goldWords (cinit : BitVec 32) : ∀ n, (goldWords cinit n).length = n
  | 0 => rfl
  | n + 1 => congrArg Nat.succ (length_goldRest n _)

/-- The words are those of the sequence, if `cinit` has 31 bits. -/
theorem lteGoldGeneric_words {n : ℕ} (h : cinit.toNat < 2 ^ 31) {i j : ℕ}
    (hi : i < (goldWords cinit n).length) (hj : j < 32) :
    (goldWords cinit n)[i].getLsbD j = goldBit cinit (32 * i + j) := by
  have hbit : cinit.getLsbD 31 = false := Nat.testBit_lt_two_pow h
  have hreset := (goldReset_at hbit).step
  cases n with
  | zero => exact absurd hi (Nat.not_lt_zero _)
  | succ n =>
    cases i with
    | zero => exact GoldAt.word (k := 0) hreset j hj
    | succ i =>
      have hrest := goldRest_words (n := n) (k := 0) hreset i (Nat.lt_of_succ_lt_succ hi) j hj
      rw [Nat.zero_add, Nat.add_comm 1 i] at hrest
      exact hrest

/-- The second word for the initial value 5. -/
theorem lteGoldGeneric_words_one : 1 < (goldWords 5 3).length ∧
    ∀ hi : 1 < (goldWords 5 3).length, (goldWords 5 3)[1].getLsbD 7 = goldBit 5 (32 * 1 + 7) :=
  ⟨by decide, fun hi => lteGoldGeneric_words (by decide) hi (by decide)⟩

end NrStack
