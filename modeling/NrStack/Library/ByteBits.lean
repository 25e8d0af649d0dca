import Mathlib.Tactic

/-!
# The bits of a byte

`byteBit x k` is bit `k` of `x`, the low one first. Bytes with the same eight bits are equal
(`byte_ext`), and the bitwise operations act bit by bit. So do a loop that puts bits into a word
(`getLsbD_foldl_or`), and the bytes that are cut out of a word (`byteBit_octet`).
-/

namespace NrStack

/-- Bit `k` of a byte. -/
def byteBit (x : UInt8) (k : Nat) : Bool :=
  x.toNat.testBit k

variable {x y : UInt8} {k s : Nat}

theorem byteBit_of_ge (h : 8 ≤ k) : byteBit x k = false :=
  Nat.testBit_lt_two_pow (x.toNat_lt.trans_le (Nat.pow_le_pow_right (by omega) h))

/-- Eight bits make the byte. -/
theorem byte_ext (h : ∀ k < 8, byteBit x k = byteBit y k) : x = y := by
  apply UInt8.toNat_inj.1
  refine Nat.eq_of_testBit_eq fun k => ?_
  rcases Nat.lt_or_ge k 8 with hk | hk
  · exact h k hk
  · exact (byteBit_of_ge hk).trans (byteBit_of_ge hk).symm

@[simp] theorem byteBit_zero (k : Nat) : byteBit 0 k = false :=
  Nat.zero_testBit k

@[simp] theorem byteBit_or (x y : UInt8) (k : Nat) :
    byteBit (x ||| y) k = (byteBit x k || byteBit y k) := by
  rw [byteBit, UInt8.toNat_or, Nat.testBit_or]
  rfl

@[simp] theorem byteBit_and (x y : UInt8) (k : Nat) :
    byteBit (x &&& y) k = (byteBit x k && byteBit y k) := by
  rw [byteBit, UInt8.toNat_and, Nat.testBit_and]
  rfl

@[simp] theorem byteBit_xor (x y : UInt8) (k : Nat) :
    byteBit (x ^^^ y) k = (byteBit x k ^^ byteBit y k) := by
  rw [byteBit, UInt8.toNat_xor, Nat.testBit_xor]
  rfl

theorem byteBit_shiftRight (x : UInt8) (hs : s < 8) (k : Nat) :
    byteBit (x >>> UInt8.ofNat s) k = byteBit x (k + s) := by
  have hmod : s % 2 ^ 8 % 8 = s := by omega
  rw [byteBit, UInt8.toNat_shiftRight, UInt8.toNat_ofNat', hmod, Nat.testBit_shiftRight, add_comm]
  rfl

theorem byteBit_shiftLeft (x : UInt8) (hs : s < 8) (hk : k < 8) :
    byteBit (x <<< UInt8.ofNat s) k = (decide (s ≤ k) && byteBit x (k - s)) := by
  have hmod : s % 2 ^ 8 % 8 = s := by omega
  rw [byteBit, UInt8.toNat_shiftLeft, UInt8.toNat_ofNat', hmod, Nat.testBit_mod_two_pow,
    Nat.testBit_shiftLeft]
  simp [hk, byteBit]

/-- The bits of a number below `2 ^ n`. -/
theorem byteBit_ofNat {n : Nat} (hk : k < 8) : byteBit (UInt8.ofNat n) k = n.testBit k := by
  rw [byteBit, UInt8.toNat_ofNat', Nat.testBit_mod_two_pow]
  simp [hk]

theorem byteBit_one (k : Nat) : byteBit 1 k = decide (k = 0) := by
  have h : byteBit 1 k = (2 ^ 0 : Nat).testBit k := rfl
  rw [h, Nat.testBit_two_pow]
  exact decide_eq_decide.2 eq_comm

/-- The bytes that are a bit. -/
theorem byteBit_of_le_one (h : x ≤ 1) (k : Nat) :
    byteBit x k = (decide (k = 0) && decide (x = 1)) := by
  have hx : x = 0 ∨ x = 1 := by
    have hle := UInt8.le_iff_toNat_le.1 h
    have : x.toNat = 0 ∨ x.toNat = 1 := by
      simp at hle
      omega
    exact this.imp UInt8.toNat_inj.1 UInt8.toNat_inj.1
  obtain rfl | rfl := hx
  · simp
  · simp [byteBit_one]

/-! ## Words -/

section Words

variable {w : Nat} {ι : Type*}

/-- A number below `2 ^ n` has no bits from `n` on. -/
theorem getLsbD_of_lt {v : BitVec w} {n k : Nat} (h : v.toNat < 2 ^ n) (hk : n ≤ k) :
    v.getLsbD k = false :=
  Nat.testBit_lt_two_pow (h.trans_le (Nat.pow_le_pow_right (by decide) hk))

/-- The low byte of a word. -/
def octet (v : BitVec w) : UInt8 :=
  UInt8.ofBitVec (v.setWidth 8)

theorem byteBit_octet (v : BitVec w) (k : Nat) :
    byteBit (octet v) k = (decide (k < 8) && v.getLsbD k) := by
  have h : byteBit (octet v) k = (v.setWidth 8).getLsbD k := rfl
  rw [h, BitVec.getLsbD_setWidth]

/-- A byte in a word. -/
theorem getLsbD_toBitVec_setWidth (x : UInt8) (hw : 8 ≤ w) (k : Nat) :
    (x.toBitVec.setWidth w).getLsbD k = byteBit x k := by
  have h : x.toBitVec.getLsbD k = byteBit x k := rfl
  rw [BitVec.getLsbD_setWidth, h]
  rcases Nat.lt_or_ge k w with hk | hk
  · rw [decide_eq_true hk, Bool.true_and]
  · rw [byteBit_of_ge (hw.trans hk), Bool.and_false]

/-- Words that are put into a word one by one. -/
theorem getLsbD_foldl_or (f : ι → BitVec w) (is : List ι) (v : BitVec w) (k : Nat) :
    (is.foldl (fun v i => v ||| f i) v).getLsbD k =
      (v.getLsbD k || is.any fun i => (f i).getLsbD k) := by
  induction is generalizing v with
  | nil => simp
  | cons i is ih => rw [List.foldl_cons, ih, BitVec.getLsbD_or, Bool.or_assoc, List.any_cons]

end Words

end NrStack
