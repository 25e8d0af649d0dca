import Mathlib.Tactic

/-!
# Bit strings and the bytes that carry them

A header is a string of bits, most significant first. `natBits n v` is the field of
width `n` with value `v`, `bitsOf` the bits of a buffer. A field read back from the
front of a string it was written to is its value (`bitsNat_natBits`), and setting one
bit of a byte sets one bit of the string (`bitsOf_modify_or`).
-/

namespace NrStack

/-- The `n` low bits of `v`, most significant first. -/
def natBits : Nat → Nat → List Bool
  | 0, _ => []
  | n + 1, v => v.testBit n :: natBits n v

/-- The number that `bs` spells, continuing from `r`. -/
def bitsNatFrom (r : Nat) : List Bool → Nat
  | [] => r
  | b :: bs => bitsNatFrom (2 * r + b.toNat) bs

/-- The number that `bs` spells. -/
def bitsNat (bs : List Bool) : Nat :=
  bitsNatFrom 0 bs

/-- The bits of a buffer. -/
def bitsOf (bytes : List UInt8) : List Bool :=
  bytes.flatMap fun b => natBits 8 b.toNat

/-! ## Fields -/

@[simp] theorem length_natBits : ∀ n v : Nat, (natBits n v).length = n
  | 0, _ => rfl
  | n + 1, v => by simp [natBits, length_natBits n v]

theorem bitsNatFrom_natBits : ∀ (n v r : Nat), bitsNatFrom r (natBits n v) = r * 2 ^ n + v % 2 ^ n
  | 0, v, r => by simp [natBits, bitsNatFrom, Nat.mod_one]
  | n + 1, v, r => by
    have hsplit : v % 2 ^ (n + 1) = 2 ^ n * (v.testBit n).toNat + v % 2 ^ n := by
      rw [Nat.mod_pow_succ, Nat.testBit_eq_decide_div_mod_eq]
      rcases Nat.mod_two_eq_zero_or_one (v / 2 ^ n) with h | h <;> simp [h, add_comm]
    rw [natBits, bitsNatFrom, bitsNatFrom_natBits n v, hsplit, pow_succ]
    ring

/-- A field reads back as the value it was written from, cut to its width. -/
theorem bitsNat_natBits_mod (n v : Nat) : bitsNat (natBits n v) = v % 2 ^ n := by
  simp [bitsNat, bitsNatFrom_natBits]

theorem bitsNat_natBits {n v : Nat} (h : v < 2 ^ n) : bitsNat (natBits n v) = v := by
  rw [bitsNat_natBits_mod, Nat.mod_eq_of_lt h]

theorem bitsNatFrom_append (r : Nat) : ∀ bs cs : List Bool,
    bitsNatFrom r (bs ++ cs) = bitsNatFrom (bitsNatFrom r bs) cs
  | [], _ => rfl
  | _ :: bs, cs => bitsNatFrom_append _ bs cs

theorem bitsNatFrom_lt : ∀ (bs : List Bool) (r : Nat),
    bitsNatFrom r bs < (r + 1) * 2 ^ bs.length
  | [], r => by simp [bitsNatFrom]
  | b :: bs, r => by
    have ih := bitsNatFrom_lt bs (2 * r + b.toNat)
    have hb : 2 * r + b.toNat + 1 ≤ 2 * (r + 1) := by
      cases b <;> simp only [Bool.toNat_false, Bool.toNat_true] <;> omega
    calc bitsNatFrom r (b :: bs) < (2 * r + b.toNat + 1) * 2 ^ bs.length := ih
      _ ≤ 2 * (r + 1) * 2 ^ bs.length := Nat.mul_le_mul_right _ hb
      _ = (r + 1) * 2 ^ (b :: bs).length := by rw [List.length_cons, pow_succ]; ring

/-- A field of `n` bits is below `2 ^ n`. -/
theorem bitsNat_lt (bs : List Bool) : bitsNat bs < 2 ^ bs.length := by
  simpa [bitsNat] using bitsNatFrom_lt bs 0

theorem drop_natBits (v : Nat) : ∀ n k : Nat, (natBits n v).drop k = natBits (n - k) v
  | n, 0 => by simp
  | 0, k + 1 => by simp [natBits]
  | n + 1, k + 1 => by
    rw [natBits, List.drop_succ_cons, drop_natBits v n k, Nat.add_sub_add_right]

theorem bitsNatFrom_eq (bs : List Bool) (r : Nat) :
    bitsNatFrom r bs = r * 2 ^ bs.length + bitsNat bs := by
  induction bs generalizing r with
  | nil => simp [bitsNatFrom, bitsNat]
  | cons b bs ih =>
    unfold bitsNat
    rw [bitsNatFrom, ih, bitsNatFrom, ih, List.length_cons, pow_succ]
    ring

/-- A string is the field of the number it spells. -/
theorem natBits_bitsNat (bs : List Bool) : natBits bs.length (bitsNat bs) = bs := by
  have hfrom : ∀ r, natBits bs.length (bitsNatFrom r bs) = bs := by
    induction bs with
    | nil => exact fun _ => rfl
    | cons b bs ih =>
      intro r
      have hlt := bitsNat_lt bs
      have hbit : (bitsNatFrom (2 * r + b.toNat) bs).testBit bs.length = b := by
        rw [bitsNatFrom_eq, Nat.mul_comm, Nat.testBit_two_pow_mul_add _ hlt, if_neg (lt_irrefl _),
          Nat.sub_self]
        cases b <;> simp [Nat.testBit_zero]
      rw [List.length_cons, natBits, bitsNatFrom, hbit, ih]
  exact hfrom 0

theorem not_mem_natBits_zero (n : Nat) : true ∉ natBits n 0 := by
  induction n with
  | zero => exact List.not_mem_nil
  | succ n ih =>
    rw [natBits, Nat.zero_testBit]
    simpa using ih

theorem getElem?_natBits_zero {n i : Nat} (h : i < n) : (natBits n 0)[i]? = some false := by
  have hlen : i < (natBits n 0).length := by rwa [length_natBits]
  rw [List.getElem?_eq_getElem hlen]
  have hmem := List.getElem_mem hlen
  cases hbit : (natBits n 0)[i] with
  | false => rfl
  | true =>
    rw [hbit] at hmem
    exact absurd hmem (not_mem_natBits_zero n)

theorem take_natBits {n k v : Nat} (h : k ≤ n) :
    (natBits n v).take k = natBits k (v >>> (n - k)) := by
  induction n generalizing k with
  | zero => rw [Nat.le_zero.1 h]; rfl
  | succ n ih =>
    match k with
    | 0 => rfl
    | k + 1 =>
      have hbit : n - k + k = n := by omega
      rw [natBits, List.take_succ_cons, ih (by omega), natBits, Nat.add_sub_add_right,
        Nat.testBit_shiftRight, hbit]

/-- Shifting a bit in at the right extends the field by it. -/
theorem natBits_shiftIn {x v : Nat} {b : Bool} (h0 : x.testBit 0 = b) : ∀ n,
    (∀ i < n, x.testBit (i + 1) = v.testBit i) → natBits (n + 1) x = natBits n v ++ [b]
  | 0, _ => by simp only [natBits, h0, List.nil_append]
  | n + 1, h => by
    rw [natBits, natBits_shiftIn h0 n fun i hi => h i (by omega), h n (by omega), natBits,
      List.cons_append]

/-! ## Buffers -/

@[simp] theorem bitsOf_nil : bitsOf [] = [] :=
  rfl

@[simp] theorem bitsOf_cons (b : UInt8) (l : List UInt8) :
    bitsOf (b :: l) = natBits 8 b.toNat ++ bitsOf l :=
  rfl

@[simp] theorem bitsOf_append (l m : List UInt8) : bitsOf (l ++ m) = bitsOf l ++ bitsOf m :=
  List.flatMap_append

@[simp] theorem length_bitsOf : ∀ l : List UInt8, (bitsOf l).length = 8 * l.length
  | [] => rfl
  | b :: l => by rw [bitsOf_cons, List.length_append, length_natBits, length_bitsOf l,
      List.length_cons]; ring

/-- The bits after the first `n` bytes are those of the rest of the buffer. -/
theorem drop_bitsOf : ∀ (l : List UInt8) (n k : Nat),
    (bitsOf l).drop (8 * n + k) = (bitsOf (l.drop n)).drop k
  | l, 0, k => by simp
  | [], n + 1, k => by simp
  | b :: l, n + 1, k => by
    rw [show 8 * (n + 1) + k = 8 + (8 * n + k) by ring, ← List.drop_drop, bitsOf_cons,
      List.drop_left' (length_natBits _ _), drop_bitsOf l n k, List.drop_succ_cons]

theorem natBits_add (m n v : Nat) : natBits (m + n) v = natBits m (v >>> n) ++ natBits n v := by
  have htake := take_natBits (v := v) (Nat.le_add_right m n)
  have hdrop := drop_natBits v (m + n) m
  rw [Nat.add_sub_cancel_left] at htake hdrop
  rw [← htake, ← hdrop, List.take_append_drop]

theorem bitsOf_replicate_zero (n : Nat) : bitsOf (List.replicate n 0) = natBits (8 * n) 0 := by
  induction n with
  | zero => rfl
  | succ n ih =>
    rw [List.replicate_succ, bitsOf_cons, ih, Nat.mul_succ, Nat.add_comm, natBits_add,
      Nat.zero_shiftRight]
    rfl

theorem take_bitsOf (l : List UInt8) (n k : Nat) (h : 8 * n ≤ (bitsOf l).length) :
    (bitsOf l).take (8 * n + k) = bitsOf (l.take n) ++ (bitsOf (l.drop n)).take k := by
  have hlen : (bitsOf (l.take n)).length = 8 * n := by
    rw [length_bitsOf] at h
    rw [length_bitsOf, List.length_take]
    omega
  conv_lhs => rw [← List.take_append_drop n l, bitsOf_append]
  rw [List.take_append, hlen, List.take_of_length_le (by omega), Nat.add_sub_cancel_left]

/-- Bits from position `n` on do not count in a field of width `n`. -/
theorem natBits_or_two_pow_of_le {n k : Nat} (v : Nat) (h : n ≤ k) :
    natBits n (v ||| 2 ^ k) = natBits n v := by
  induction n with
  | zero => rfl
  | succ n ih =>
    have hne : k ≠ n := by omega
    rw [natBits, natBits, ih (by omega), Nat.testBit_or, Nat.testBit_two_pow_of_ne hne,
      Bool.or_false]

/-- Setting bit `k` of a number sets one bit of its field. -/
theorem natBits_or_two_pow {n k : Nat} (v : Nat) (h : k < n) :
    natBits n (v ||| 2 ^ k) = (natBits n v).set (n - 1 - k) true := by
  induction n with
  | zero => omega
  | succ n ih =>
    rcases Nat.lt_or_ge k n with hk | hk
    · rw [natBits, natBits, ih hk, Nat.testBit_or, Nat.testBit_two_pow_of_ne (by omega),
        Bool.or_false, show n + 1 - 1 - k = n - 1 - k + 1 by omega, List.set_cons_succ]
    · obtain rfl : k = n := by omega
      rw [natBits, natBits, natBits_or_two_pow_of_le v le_rfl, Nat.testBit_or,
        Nat.testBit_two_pow_self, Bool.or_true, Nat.add_sub_cancel, Nat.sub_self,
        List.set_cons_zero]

/-- Setting bit `k` of byte `i` sets one bit of the string. -/
theorem bitsOf_modify_or {k : Nat} (hk : k < 8) : ∀ (l : List UInt8) (i : Nat),
    bitsOf (l.modify i fun b => b ||| UInt8.ofNat (2 ^ k)) =
      (bitsOf l).set (8 * i + (7 - k)) true
  | [], i => by simp
  | b :: l, 0 => by
    have hpow : 2 ^ k % 256 = 2 ^ k := Nat.mod_eq_of_lt (by
      calc 2 ^ k < 2 ^ 8 := Nat.pow_lt_pow_right (by omega) hk)
    have hset : natBits 8 (b ||| UInt8.ofNat (2 ^ k)).toNat =
        (natBits 8 b.toNat).set (7 - k) true := by
      rw [UInt8.toNat_or, UInt8.toNat_ofNat', hpow, natBits_or_two_pow _ hk]
    rw [List.modify_zero_cons, bitsOf_cons, hset, bitsOf_cons,
      List.set_append_left _ _ (by rw [length_natBits]; omega)]
    simp
  | b :: l, i + 1 => by
    rw [List.modify_succ_cons, bitsOf_cons, bitsOf_modify_or hk l i, bitsOf_cons,
      List.set_append_right _ _ (by rw [length_natBits]; omega), length_natBits]
    congr 2
    omega

end NrStack
