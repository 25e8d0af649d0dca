import Mathlib.Tactic
import Mathlib.Algebra.Polynomial.Div
import Mathlib.Data.ZMod.Basic
import NrStack.Library.Bits

/-!
# Division by a generator, bit by bit and from a table

`crcDivide` divides a string of bits by a generator in a register of `w` bits whose top bit meets
the next bit of the message. The register is linear in its start and in the message
(`crcDivide_xor`), so `k` bits at a time come from a table over `k` bits (`crcDivide_natBits`). Over
`ZMod 2` the register holds the remainder of the polynomial division (`crcPoly_crcDivide`).
-/

open Polynomial

namespace NrStack

variable {w : Nat}

/-! ## The register -/

/-- One bit of the message. -/
def crcStep (poly crc : BitVec w) (bit : Bool) : BitVec w :=
  if crc.msb ^^ bit then crc <<< 1 ^^^ poly else crc <<< 1

/-- The register behind the bits of a message. -/
def crcDivide (poly crc : BitVec w) (bits : List Bool) : BitVec w :=
  bits.foldl (crcStep poly) crc

/-- What the top bit and the bit of the message bring into the register. -/
def crcFeed (poly : BitVec w) (bit : Bool) : BitVec w :=
  if bit then poly else 0#w

theorem crcStep_eq (poly crc : BitVec w) (bit : Bool) :
    crcStep poly crc bit = crc <<< 1 ^^^ crcFeed poly (crc.msb ^^ bit) := by
  unfold crcStep crcFeed
  split
  · rfl
  · rw [BitVec.xor_zero]

theorem crcStep_zero (poly : BitVec w) (bit : Bool) : crcStep poly 0#w bit = crcFeed poly bit := by
  rw [crcStep_eq, BitVec.msb_zero, Bool.false_xor, BitVec.zero_shiftLeft, BitVec.zero_xor]

theorem crcFeed_xor (poly : BitVec w) (a b : Bool) :
    crcFeed poly (a ^^ b) = crcFeed poly a ^^^ crcFeed poly b := by
  cases a <;> cases b <;> simp [crcFeed]

theorem crcStep_xor (poly a b : BitVec w) (x y : Bool) :
    crcStep poly (a ^^^ b) (x ^^ y) = crcStep poly a x ^^^ crcStep poly b y := by
  have hbits : ((a.msb ^^ b.msb) ^^ (x ^^ y)) = ((a.msb ^^ x) ^^ (b.msb ^^ y)) := by
    cases a.msb <;> cases b.msb <;> cases x <;> cases y <;> rfl
  rw [crcStep_eq, crcStep_eq, crcStep_eq, BitVec.msb_xor, hbits, crcFeed_xor,
    BitVec.shiftLeft_xor_distrib]
  ac_rfl

@[simp] theorem crcDivide_nil (poly crc : BitVec w) : crcDivide poly crc [] = crc :=
  rfl

theorem crcDivide_cons (poly crc : BitVec w) (bit : Bool) (bits : List Bool) :
    crcDivide poly crc (bit :: bits) = crcDivide poly (crcStep poly crc bit) bits :=
  rfl

theorem crcDivide_append (poly crc : BitVec w) (bits bits' : List Bool) :
    crcDivide poly crc (bits ++ bits') = crcDivide poly (crcDivide poly crc bits) bits' :=
  List.foldl_append

/-- The division is linear. -/
theorem crcDivide_xor (poly a b : BitVec w) : ∀ {n x y : Nat},
    crcDivide poly (a ^^^ b) (natBits n (x ^^^ y)) =
      crcDivide poly a (natBits n x) ^^^ crcDivide poly b (natBits n y)
  | 0, _, _ => rfl
  | n + 1, x, y => by
    rw [natBits, natBits, natBits, Nat.testBit_xor, crcDivide_cons, crcDivide_cons, crcDivide_cons,
      crcStep_xor]
    exact crcDivide_xor poly _ _

/-! ## Many bits at a time -/

theorem natBits_congr {n x y : Nat} (h : ∀ i < n, x.testBit i = y.testBit i) :
    natBits n x = natBits n y := by
  induction n with
  | zero => rfl
  | succ n ih =>
    rw [natBits, natBits, h n (Nat.lt_succ_self n),
      ih fun i hi => h i (hi.trans (Nat.lt_succ_self n))]

/-- The top `k` bits as a number. -/
theorem toNat_shiftRight_lt {k : Nat} (hk : k ≤ w) (x : BitVec w) :
    x.toNat >>> (w - k) < 2 ^ k := by
  have hpow : 2 ^ w = 2 ^ k * 2 ^ (w - k) := by
    rw [← pow_add, Nat.add_sub_cancel' hk]
  rw [Nat.shiftRight_eq_div_pow, Nat.div_lt_iff_lt_mul (by positivity), ← hpow]
  exact x.isLt

theorem msb_eq_testBit {k : Nat} (crc : BitVec w) (hk : k < w) :
    crc.msb = (crc.toNat >>> (w - (k + 1))).testBit k := by
  have hbit : w - (k + 1) + k = w - 1 := by omega
  rw [Nat.testBit_shiftRight, hbit, BitVec.msb_eq_getLsbD_last]
  rfl

/-- The top `k` bits of a register that is shifted once. -/
theorem natBits_shiftLeft_one {k : Nat} (crc : BitVec w) (hk : k < w) (y : Nat) :
    natBits k (y ^^^ (crc <<< 1).toNat >>> (w - k)) =
      natBits k (y ^^^ crc.toNat >>> (w - (k + 1))) := by
  refine natBits_congr fun i hi => ?_
  have hbit : w - k + i - 1 = w - (k + 1) + i := by omega
  have hshift : (crc <<< 1).toNat.testBit (w - k + i) = crc.toNat.testBit (w - (k + 1) + i) := by
    change (crc <<< 1).getLsbD (w - k + i) = crc.getLsbD (w - (k + 1) + i)
    rw [BitVec.getLsbD_shiftLeft, hbit, decide_eq_true (by omega), decide_eq_false (by omega)]
    simp
  rw [Nat.testBit_xor, Nat.testBit_xor, Nat.testBit_shiftRight, Nat.testBit_shiftRight, hshift]

/-- `k` bits at a time : the register moves up by `k`, and the table adds the entry of the bits that
meet its top. The induction is on `k`; what the first bit brings in is divided on its own. -/
theorem crcDivide_natBits (poly : BitVec w) : ∀ {k : Nat} (crc : BitVec w) (y : Nat), k ≤ w →
    crcDivide poly crc (natBits k y) =
      crc <<< k ^^^ crcDivide poly 0#w (natBits k (y ^^^ crc.toNat >>> (w - k)))
  | 0, crc, y, _ => by simp [natBits]
  | k + 1, crc, y, hk => by
    have hfeed (crc : BitVec w) (bit : Bool) (y : Nat) :
        crcDivide poly (crc <<< 1 ^^^ crcFeed poly bit) (natBits k y) =
          crcDivide poly (crc <<< 1) (natBits k y) ^^^
            crcDivide poly (crcFeed poly bit) (natBits k 0) := by
      rw [← crcDivide_xor, Nat.xor_zero]
    have hzero (bit : Bool) (y : Nat) : crcDivide poly 0#w (bit :: natBits k y) =
        crcDivide poly 0#w (natBits k y) ^^^ crcDivide poly (crcFeed poly bit) (natBits k 0) := by
      have h := hfeed 0#w bit y
      rw [BitVec.zero_shiftLeft, BitVec.zero_xor] at h
      rw [crcDivide_cons, crcStep_zero, h]
    have hbit : (y ^^^ crc.toNat >>> (w - (k + 1))).testBit k = (crc.msb ^^ y.testBit k) := by
      rw [Nat.testBit_xor, ← msb_eq_testBit crc hk, Bool.xor_comm]
    calc crcDivide poly crc (natBits (k + 1) y)
        = crcDivide poly (crc <<< 1) (natBits k y) ^^^
            crcDivide poly (crcFeed poly (crc.msb ^^ y.testBit k)) (natBits k 0) := by
          rw [natBits, crcDivide_cons, crcStep_eq, hfeed]
      _ = crc <<< 1 <<< k ^^^ crcDivide poly 0#w (natBits k (y ^^^ crc.toNat >>> (w - (k + 1)))) ^^^
            crcDivide poly (crcFeed poly (crc.msb ^^ y.testBit k)) (natBits k 0) := by
          rw [crcDivide_natBits poly (crc <<< 1) y (by omega), natBits_shiftLeft_one crc hk]
      _ = crc <<< (k + 1) ^^^
            crcDivide poly 0#w (natBits (k + 1) (y ^^^ crc.toNat >>> (w - (k + 1)))) := by
          rw [natBits, hbit, hzero, ← BitVec.shiftLeft_add, Nat.add_comm 1 k, BitVec.xor_assoc]

/-- Leading zeros leave an empty register empty. -/
theorem crcDivide_zero_natBits (poly : BitVec w) {k x : Nat} (hx : x < 2 ^ k) : ∀ j : Nat,
    crcDivide poly 0#w (natBits (j + k) x) = crcDivide poly 0#w (natBits k x)
  | 0 => by rw [Nat.zero_add]
  | j + 1 => by
    have hbit : x.testBit (j + k) = false :=
      Nat.testBit_lt_two_pow (hx.trans_le (Nat.pow_le_pow_right (by omega) (by omega)))
    rw [Nat.add_right_comm, natBits, hbit, crcDivide_cons, crcStep_zero]
    exact crcDivide_zero_natBits poly hx j

/-- A message of zeros leaves an empty register empty. -/
theorem crcDivide_zero_zeros (poly : BitVec w) (n : Nat) :
    crcDivide poly 0#w (natBits n 0) = 0#w :=
  crcDivide_zero_natBits poly (k := 0) Nat.one_pos n

/-- Low bits that the generator does not have stay clear. -/
theorem getLsbD_crcDivide {poly : BitVec w} {s : Nat} (hpoly : ∀ i < s, poly.getLsbD i = false) :
    ∀ (bits : List Bool) {crc : BitVec w}, (∀ i < s, crc.getLsbD i = false) →
      ∀ i < s, (crcDivide poly crc bits).getLsbD i = false
  | [], _, hcrc => hcrc
  | bit :: bits, crc, hcrc => by
    refine getLsbD_crcDivide hpoly bits fun i hi => ?_
    have hshift : (crc <<< 1).getLsbD i = false := by
      rw [BitVec.getLsbD_shiftLeft, hcrc (i - 1) (by omega), Bool.and_false]
    rw [crcStep_eq, BitVec.getLsbD_xor, hshift, crcFeed]
    split
    · rw [hpoly i hi, Bool.false_xor]
    · simp

/-- A register whose low bits are clear is not changed by shifting them out. -/
theorem shiftLeft_shiftRight {x : BitVec w} {s : Nat} (h : ∀ i < s, x.getLsbD i = false) :
    (x >>> s) <<< s = x := by
  apply BitVec.eq_of_getLsbD_eq
  intro i hi
  rw [BitVec.getLsbD_shiftLeft, BitVec.getLsbD_ushiftRight]
  rcases Nat.lt_or_ge i s with his | his
  · rw [h i his]
    simp [his]
  · rw [Nat.add_sub_cancel' his]
    simp [hi, not_lt.2 his]

/-! ## The remainder -/

/-- The polynomial of a register. -/
noncomputable def crcPoly (x : BitVec w) : (ZMod 2)[X] :=
  ∑ i ∈ Finset.range w, if x.getLsbD i then X ^ i else 0

/-- The polynomial of a message, continuing from `p`. -/
noncomputable def messagePolyFrom (p : (ZMod 2)[X]) (bits : List Bool) : (ZMod 2)[X] :=
  bits.foldl (fun p bit => X * p + if bit then 1 else 0) p

/-- The polynomial of a message, whose first bit has the highest power. -/
noncomputable def messagePoly (bits : List Bool) : (ZMod 2)[X] :=
  messagePolyFrom 0 bits

/-- The generator, with the top bit that the register leaves out. -/
noncomputable def crcGenerator (poly : BitVec w) : (ZMod 2)[X] :=
  X ^ w + crcPoly poly

theorem crcPoly_xor (a b : BitVec w) : crcPoly (a ^^^ b) = crcPoly a + crcPoly b := by
  unfold crcPoly
  rw [← Finset.sum_add_distrib]
  refine Finset.sum_congr rfl fun i _ => ?_
  rw [BitVec.getLsbD_xor]
  cases a.getLsbD i <;> cases b.getLsbD i <;> simp [CharTwo.add_self_eq_zero]

theorem add_self_zmod (p : (ZMod 2)[X]) : p + p = 0 :=
  CharTwo.add_self_eq_zero p

/-- Shifting multiplies by `X` and drops the top bit. -/
theorem crcPoly_shiftLeft_one (hw : 0 < w) (crc : BitVec w) :
    crcPoly (crc <<< 1) = X * crcPoly crc + if crc.msb then X ^ w else 0 := by
  obtain ⟨n, rfl⟩ := Nat.exists_eq_succ_of_ne_zero hw.ne'
  have hbit (i : Nat) (hi : i < n) : (crc <<< 1).getLsbD (i + 1) = crc.getLsbD i := by
    rw [BitVec.getLsbD_shiftLeft, Nat.add_sub_cancel]
    simp [hi]
  have hlow : ∑ i ∈ Finset.range n,
      (if (crc <<< 1).getLsbD (i + 1) then (X : (ZMod 2)[X]) ^ (i + 1) else 0) =
        X * ∑ i ∈ Finset.range n, if crc.getLsbD i then X ^ i else 0 := by
    rw [Finset.mul_sum]
    refine Finset.sum_congr rfl fun i hi => ?_
    rw [hbit i (Finset.mem_range.1 hi), mul_ite, mul_zero, pow_succ']
  have hmsb : crc.msb = crc.getLsbD n := by
    rw [BitVec.msb_eq_getLsbD_last, Nat.succ_sub_one]
  unfold crcPoly
  rw [Finset.sum_range_succ', hlow, Finset.sum_range_succ, mul_add, hmsb]
  cases crc.getLsbD n
  · simp
  · simp only [BitVec.getLsbD_shiftLeft, if_true, ← pow_succ']
    rw [add_assoc, add_self_zmod]
    simp

theorem degree_crcPoly_lt (x : BitVec w) : (crcPoly x).degree < w := by
  rw [degree_lt_iff_coeff_zero]
  intro m hm
  unfold crcPoly
  rw [finsetSum_coeff]
  refine Finset.sum_eq_zero fun i hi => ?_
  have hne : m ≠ i := by
    have := Finset.mem_range.1 hi
    omega
  split
  · rw [coeff_X_pow, if_neg hne]
  · exact coeff_zero m

theorem monic_crcGenerator (poly : BitVec w) : (crcGenerator poly).Monic :=
  monic_X_pow_add (degree_crcPoly_lt poly)

theorem degree_crcGenerator (poly : BitVec w) : (crcGenerator poly).degree = w := by
  unfold crcGenerator
  rw [degree_add_eq_left_of_degree_lt, degree_X_pow]
  rw [degree_X_pow]
  exact degree_crcPoly_lt poly

/-- One bit, up to a multiple of the generator. -/
theorem crcPoly_crcStep (hw : 0 < w) (poly crc : BitVec w) (bit : Bool) :
    ∃ q, crcPoly (crcStep poly crc bit) =
      X * crcPoly crc + (if bit then X ^ w else 0) + crcGenerator poly * q := by
  have hfeed (b : Bool) : crcPoly (crcFeed poly b) = if b then crcPoly poly else 0 := by
    cases b
    · simp [crcFeed, crcPoly]
    · rfl
  refine ⟨if crc.msb ^^ bit then 1 else 0, ?_⟩
  rw [crcStep_eq, crcPoly_xor, crcPoly_shiftLeft_one hw, hfeed]
  unfold crcGenerator
  cases crc.msb <;> cases bit <;> simp
  · linear_combination -add_self_zmod (X ^ w : (ZMod 2)[X])
  · ring

theorem crcPoly_crcDivide_from (hw : 0 < w) (poly : BitVec w) :
    ∀ (bits : List Bool) {crc : BitVec w} {p : (ZMod 2)[X]},
      (∃ q, crcPoly crc + crcGenerator poly * q = X ^ w * p) →
        ∃ q, crcPoly (crcDivide poly crc bits) + crcGenerator poly * q =
          X ^ w * messagePolyFrom p bits
  | [], _, _, h => h
  | bit :: bits, crc, p, ⟨q, hq⟩ => by
    refine crcPoly_crcDivide_from hw poly bits ?_
    obtain ⟨q', hstep⟩ := crcPoly_crcStep hw poly crc bit
    refine ⟨X * q - q', ?_⟩
    rw [hstep]
    cases bit
    · simp only [Bool.false_eq_true, if_false]
      linear_combination X * hq
    · simp only [if_true]
      linear_combination X * hq

/-- The register holds the remainder of the message, moved up by the width of the register. -/
theorem crcPoly_crcDivide (hw : 0 < w) (poly : BitVec w) (bits : List Bool) :
    crcPoly (crcDivide poly 0#w bits) = (X ^ w * messagePoly bits) %ₘ crcGenerator poly := by
  have hzero : ∃ q, crcPoly (0#w) + crcGenerator poly * q = X ^ w * 0 :=
    ⟨0, by simp [crcPoly]⟩
  obtain ⟨q, hq⟩ := crcPoly_crcDivide_from hw poly bits hzero
  refine ((div_modByMonic_unique q _ (monic_crcGenerator poly) ⟨hq, ?_⟩).2).symm
  rw [degree_crcGenerator]
  exact degree_crcPoly_lt _

/-- A generator of degree `n` at the top of a wider register. -/
theorem modByMonic_X_pow_mul {s n : Nat} {g p : (ZMod 2)[X]} (hg : g.Monic) :
    (X ^ (s + n) * p) %ₘ (X ^ s * g) = X ^ s * ((X ^ n * p) %ₘ g) := by
  have hmonic : (X ^ s * g).Monic := (monic_X_pow s).mul hg
  refine (div_modByMonic_unique ((X ^ n * p) /ₘ g) _ hmonic ⟨?_, ?_⟩).2
  · linear_combination X ^ s * modByMonic_add_div (X ^ n * p) g
  · rw [degree_mul, degree_mul, degree_X_pow]
    exact WithBot.add_lt_add_left (WithBot.natCast_ne_bot s) (degree_modByMonic_lt _ hg)

end NrStack
