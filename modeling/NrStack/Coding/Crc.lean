import NrStack.Library.Crc

/-!
# The CRCs

The table path of `crc_byte.c`. A CRC is a register of 32 bits with the generator at its top. A
function reads its octets from a list; reading past the end, or past a table, is `none`.
-/

open Polynomial

namespace NrStack

/-! ## Bit by bit -/

def poly24a : BitVec 32 :=
  0x864cfb00

def poly24b : BitVec 32 :=
  0x80006300

def poly24c : BitVec 32 :=
  0xb2b11700

def poly16 : BitVec 32 :=
  0x10210000

def poly12 : BitVec 32 :=
  0x80F00000

def poly8 : BitVec 32 :=
  0x9B000000

def poly6 : BitVec 32 :=
  0x84000000

def poly11 : BitVec 32 :=
  0xc4200000

/-- An octet in a register. -/
def octetWord (octet : UInt8) : BitVec 32 :=
  octet.toBitVec.setWidth 32

/-- The inner loop of `crcbit`, `i` turns. -/
def crcbitOctet (poly : BitVec 32) : Nat → BitVec 32 → BitVec 32 → BitVec 32
  | 0, crc, _ => crc
  | i + 1, crc, c =>
    if (1#32 <<< 31) &&& (c ^^^ crc) ≠ 0 then crcbitOctet poly i (crc <<< 1 ^^^ poly) (c <<< 1)
    else crcbitOctet poly i (crc <<< 1) (c <<< 1)

/-- `crcbit`, on the octets at `inputptr`. -/
def crcbit (octets : List UInt8) (poly : BitVec 32) : BitVec 32 :=
  octets.foldl (fun crc octet => crcbitOctet poly 8 crc (octetWord octet <<< 24)) 0

/-! ## The tables -/

/-- A table of `crcTableInit`, whose entries are moved down by `shift`. -/
def crcTable (poly : BitVec 32) (shift : Nat) : Vector (BitVec 32) 256 :=
  .ofFn fun c => crcbit [UInt8.ofNat c] poly >>> shift

def crc24aTable : Vector (BitVec 32) 256 :=
  crcTable poly24a 0

def crc24bTable : Vector (BitVec 32) 256 :=
  crcTable poly24b 0

def crc24cTable : Vector (BitVec 32) 256 :=
  crcTable poly24c 0

def crc16Table : Vector (BitVec 32) 256 :=
  crcTable poly16 16

def crc12Table : Vector (BitVec 32) 256 :=
  crcTable poly12 16

def crc11Table : Vector (BitVec 32) 256 :=
  crcTable poly11 16

def crc8Table : Vector (BitVec 32) 256 :=
  crcTable poly8 24

def crc6Table : Vector (BitVec 32) 256 :=
  crcTable poly6 24

/-! ## Octet by octet -/

/-- One octet : the register moves up, and the entry is added. -/
def crcOctet (table : Vector (BitVec 32) 256) (shift : Nat) (crc : BitVec 32) (octet : UInt8) :
    Option (BitVec 32) := do
  let entry ← table[(octetWord octet ^^^ crc >>> 24).toNat]?
  return crc <<< 8 ^^^ entry <<< shift

/-- One octet of `crc8` and `crc6` : the entry replaces the register. -/
def crcOctetReplace (table : Vector (BitVec 32) 256) (shift : Nat) (crc : BitVec 32)
    (octet : UInt8) : Option (BitVec 32) := do
  let entry ← table[(octetWord octet ^^^ crc >>> 24).toNat]?
  return entry <<< shift

/-- The loop over the octets : the register, and the octets left. -/
def crcOctets (octet : BitVec 32 → UInt8 → Option (BitVec 32)) :
    Nat → BitVec 32 → List UInt8 → Option (BitVec 32 × List UInt8)
  | 0, crc, inptr => some (crc, inptr)
  | _ + 1, _, [] => none
  | octetlen + 1, crc, o :: inptr => do
    let crc ← octet crc o
    crcOctets octet octetlen crc inptr

/-- The bits behind the last whole octet. -/
def crcResidual (table : Vector (BitVec 32) 256) (shift : Nat) (crc : BitVec 32)
    (inptr : List UInt8) (resbit : Nat) : Option (BitVec 32) := do
  let o ← inptr[0]?
  let entry ← table[(octetWord o >>> (8 - resbit) ^^^ crc >>> (32 - resbit)).toNat]?
  return crc <<< resbit ^^^ entry <<< shift

/-- The body that the CRCs share. `/` and `%` round to zero. -/
def crcBytes (octet : BitVec 32 → UInt8 → Option (BitVec 32)) (table : Vector (BitVec 32) 256)
    (shift : Nat) (inptr : List UInt8) (bitlen : Int) : Option (BitVec 32) := do
  let octetlen := bitlen.tdiv 8
  let resbit := bitlen.tmod 8
  let (crc, inptr) ← crcOctets octet octetlen.toNat 0 inptr
  if resbit > 0 then crcResidual table shift crc inptr resbit.toNat else return crc

/-- `crc24a`, without `USE_INTEL_CRC`. -/
def crc24a : List UInt8 → Int → Option (BitVec 32) :=
  crcBytes (crcOctet crc24aTable 0) crc24aTable 0

/-- `crc24b`, without `USE_INTEL_CRC`. -/
def crc24b : List UInt8 → Int → Option (BitVec 32) :=
  crcBytes (crcOctet crc24bTable 0) crc24bTable 0

def crc24c : List UInt8 → Int → Option (BitVec 32) :=
  crcBytes (crcOctet crc24cTable 0) crc24cTable 0

def crc16 : List UInt8 → Int → Option (BitVec 32) :=
  crcBytes (crcOctet crc16Table 16) crc16Table 16

def crc12 : List UInt8 → Int → Option (BitVec 32) :=
  crcBytes (crcOctet crc12Table 16) crc12Table 16

def crc11 : List UInt8 → Int → Option (BitVec 32) :=
  crcBytes (crcOctet crc11Table 16) crc11Table 16

def crc8 : List UInt8 → Int → Option (BitVec 32) :=
  crcBytes (crcOctetReplace crc8Table 24) crc8Table 24

def crc6 : List UInt8 → Int → Option (BitVec 32) :=
  crcBytes (crcOctetReplace crc6Table 24) crc6Table 24

/-! ## The division -/

theorem toNat_octetWord (octet : UInt8) : (octetWord octet).toNat = octet.toNat := by
  unfold octetWord
  rw [BitVec.toNat_setWidth, UInt8.toNat_toBitVec]
  exact Nat.mod_eq_of_lt (octet.toNat_lt.trans (by decide))

theorem and_top_ne_zero (x : BitVec 32) : (1#32 <<< 31) &&& x ≠ 0 ↔ x.msb = true := by
  have hbit (i : Nat) : ((1#32 <<< 31) &&& x).getLsbD i = (decide (i = 31) && x.msb) := by
    rw [BitVec.getLsbD_and, BitVec.getLsbD_shiftLeft, BitVec.getLsbD_one,
      BitVec.msb_eq_getLsbD_last]
    by_cases hi : i = 31
    · subst hi
      simp
    · rcases Nat.lt_or_ge i 31 with h | h
      · simp [h, hi]
      · simp [show ¬ i < 32 by omega, hi]
  constructor
  · intro h
    by_contra hmsb
    refine h (BitVec.eq_of_getLsbD_eq fun i _ => ?_)
    rw [hbit, Bool.eq_false_of_not_eq_true hmsb, Bool.and_false]
    exact BitVec.getLsbD_zero.symm
  · intro hmsb h
    have h31 := hbit 31
    rw [h, hmsb] at h31
    cases h31

/-- The inner loop divides the top `i` bits of `c`. -/
theorem crcbitOctet_eq (poly : BitVec 32) : ∀ {i : Nat} (crc c : BitVec 32), i ≤ 32 →
    crcbitOctet poly i crc c = crcDivide poly crc (natBits i (c.toNat >>> (32 - i)))
  | 0, _, _, _ => rfl
  | i + 1, crc, c, hi => by
    have hbits : natBits (i + 1) (c.toNat >>> (32 - (i + 1))) =
        c.msb :: natBits i ((c <<< 1).toNat >>> (32 - i)) := by
      have h := natBits_shiftLeft_one c (k := i) (by omega) 0
      rw [Nat.zero_xor, Nat.zero_xor] at h
      rw [natBits, ← msb_eq_testBit c (by omega), h]
    rw [hbits, crcDivide_cons, ← crcbitOctet_eq poly _ _ (by omega), crcbitOctet]
    have hmsb : (crc.msb ^^ c.msb) = (c ^^^ crc).msb := by
      rw [BitVec.msb_xor, Bool.xor_comm]
    unfold crcStep
    rw [hmsb]
    by_cases h : (c ^^^ crc).msb = true
    · rw [if_pos ((and_top_ne_zero _).2 h), if_pos h]
    · rw [if_neg (mt (and_top_ne_zero _).1 h), if_neg h]

/-- An octet is divided bit by bit. -/
theorem crcbitOctet_octet (poly crc : BitVec 32) (octet : UInt8) :
    crcbitOctet poly 8 crc (octetWord octet <<< 24) =
      crcDivide poly crc (natBits 8 octet.toNat) := by
  have htop : (octetWord octet <<< 24).toNat >>> (32 - 8) = octet.toNat := by
    have := octet.toNat_lt
    rw [BitVec.toNat_shiftLeft, toNat_octetWord, Nat.shiftLeft_eq, Nat.shiftRight_eq_div_pow]
    omega
  rw [crcbitOctet_eq poly crc _ (by omega), htop]

/-- `crcbit` is the division. -/
theorem crcbit_eq (octets : List UInt8) (poly : BitVec 32) :
    crcbit octets poly = crcDivide poly 0#32 (bitsOf octets) := by
  have h : ∀ crc : BitVec 32, octets.foldl (fun crc octet =>
      crcbitOctet poly 8 crc (octetWord octet <<< 24)) crc =
        crcDivide poly crc (bitsOf octets) := by
    induction octets with
    | nil => exact fun _ => rfl
    | cons octet octets ih =>
      intro crc
      rw [List.foldl_cons, ih, crcbitOctet_octet, bitsOf_cons, crcDivide_append]
  exact h 0

/-! ## The table path -/

section Table

variable {poly : BitVec 32} {shift : Nat} (hpoly : ∀ i < shift, poly.getLsbD i = false)

include hpoly

/-- The entry, moved up again. -/
theorem crcTable_entry {i : Nat} (hi : i < 256) : ∃ entry, (crcTable poly shift)[i]? = some entry ∧
    entry <<< shift = crcDivide poly 0#32 (natBits 8 i) := by
  refine ⟨_, by rw [Vector.getElem?_eq_getElem hi], ?_⟩
  unfold crcTable
  rw [Vector.getElem_ofFn, crcbit_eq, bitsOf_cons, bitsOf_nil, List.append_nil, UInt8.toNat_ofNat',
    Nat.mod_eq_of_lt (by omega)]
  exact shiftLeft_shiftRight (getLsbD_crcDivide hpoly _ fun _ _ => by simp)

/-- `k` bits from the table : the index is at most a byte. -/
theorem crcTable_bits {k y : Nat} (hk : k ≤ 8) (hy : y < 2 ^ k) (crc : BitVec 32) :
    ∃ entry, (crcTable poly shift)[y ^^^ crc.toNat >>> (32 - k)]? = some entry ∧
      crc <<< k ^^^ entry <<< shift = crcDivide poly crc (natBits k y) := by
  have hindex : y ^^^ crc.toNat >>> (32 - k) < 2 ^ k :=
    Nat.xor_lt_two_pow hy (toNat_shiftRight_lt (by omega) crc)
  obtain ⟨entry, hentry, hshift⟩ := crcTable_entry hpoly
    (hindex.trans_le (Nat.pow_le_pow_right (by decide) hk))
  refine ⟨entry, hentry, ?_⟩
  have hzeros := crcDivide_zero_natBits poly hindex (8 - k)
  rw [Nat.sub_add_cancel hk] at hzeros
  rw [hshift, hzeros, crcDivide_natBits poly crc y (by omega)]

/-- One turn of the loop. -/
theorem crcOctet_eq (crc : BitVec 32) (octet : UInt8) :
    crcOctet (crcTable poly shift) shift crc octet =
      some (crcDivide poly crc (natBits 8 octet.toNat)) := by
  obtain ⟨entry, hentry, h⟩ := crcTable_bits hpoly le_rfl octet.toNat_lt crc
  have hindex : (octetWord octet ^^^ crc >>> 24).toNat =
      octet.toNat ^^^ crc.toNat >>> (32 - 8) := by
    rw [BitVec.toNat_xor, toNat_octetWord, BitVec.toNat_ushiftRight]
  unfold crcOctet
  rw [hindex, hentry, ← h]
  rfl

/-- The residual bits are the top bits of the next octet. -/
theorem crcResidual_eq (crc : BitVec 32) (o : UInt8) (inptr : List UInt8) {k : Nat} (hk : k ≤ 8) :
    crcResidual (crcTable poly shift) shift crc (o :: inptr) k =
      some (crcDivide poly crc ((natBits 8 o.toNat).take k)) := by
  have ho : o.toNat >>> (8 - k) < 2 ^ k := toNat_shiftRight_lt hk o.toBitVec
  obtain ⟨entry, hentry, h⟩ := crcTable_bits hpoly hk ho crc
  have hindex : (octetWord o >>> (8 - k) ^^^ crc >>> (32 - k)).toNat =
      o.toNat >>> (8 - k) ^^^ crc.toNat >>> (32 - k) := by
    rw [BitVec.toNat_xor, BitVec.toNat_ushiftRight, BitVec.toNat_ushiftRight, toNat_octetWord]
  unfold crcResidual
  rw [List.getElem?_cons_zero, Option.bind_eq_bind, Option.bind_some, hindex, hentry,
    take_natBits hk, ← h]
  rfl

end Table

section Bytes

variable {poly : BitVec 32} {shift : Nat} {octet : BitVec 32 → UInt8 → Option (BitVec 32)}
  (P : BitVec 32 → Prop) (hP : ∀ crc bits, P crc → P (crcDivide poly crc bits))
  (hoctet : ∀ crc o, P crc → octet crc o = some (crcDivide poly crc (natBits 8 o.toNat)))

include hP hoctet

/-- The loop divides its octets, in a register with the property `P`. -/
theorem crcOctets_eq :
    ∀ {n : Nat} {crc : BitVec 32} {inptr : List UInt8}, P crc → n ≤ inptr.length →
      crcOctets octet n crc inptr =
        some (crcDivide poly crc (bitsOf (inptr.take n)), inptr.drop n)
  | 0, _, _, _, _ => rfl
  | n + 1, crc, o :: inptr, hcrc, hn => by
    have ih := crcOctets_eq (hP crc (natBits 8 o.toNat) hcrc)
      (Nat.le_of_succ_le_succ hn)
    rw [crcOctets, hoctet crc o hcrc, List.take_succ_cons, bitsOf_cons, crcDivide_append,
      List.drop_succ_cons, ← ih]
    rfl

/-- The whole function divides the first `bitlen` bits. -/
theorem crcBytes_eq (hzero : P 0) (hpoly : ∀ i < shift, poly.getLsbD i = false)
    {inptr : List UInt8} {bitlen : Nat} (hlen : bitlen ≤ 8 * inptr.length) :
    crcBytes octet (crcTable poly shift) shift inptr bitlen =
      some (crcDivide poly 0#32 ((bitsOf inptr).take bitlen)) := by
  have hoctets : crcOctets octet (bitlen / 8) 0 inptr = some (crcDivide poly 0#32
      (bitsOf (inptr.take (bitlen / 8))), inptr.drop (bitlen / 8)) :=
    crcOctets_eq P hP hoctet hzero (by omega)
  have hdiv : ((bitlen : Int).tdiv 8).toNat = bitlen / 8 :=
    congrArg Int.toNat (Int.ofNat_tdiv bitlen 8).symm
  have hmod : ((bitlen : Int).tmod 8) = (bitlen % 8 : Nat) :=
    (Int.ofNat_tmod bitlen 8).symm
  have htake : (bitsOf inptr).take bitlen =
      bitsOf (inptr.take (bitlen / 8)) ++ (bitsOf (inptr.drop (bitlen / 8))).take (bitlen % 8) := by
    conv_lhs => rw [← Nat.div_add_mod bitlen 8]
    exact take_bitsOf inptr _ _ (by rw [length_bitsOf]; omega)
  unfold crcBytes
  simp only [hdiv, hmod, hoctets, Option.bind_eq_bind, Option.bind_some]
  rw [htake, crcDivide_append]
  by_cases hres : bitlen % 8 = 0
  · rw [hres, if_neg (by decide), List.take_zero, crcDivide_nil]
    rfl
  · have hnext : inptr.drop (bitlen / 8) ≠ [] := by
      intro h
      have := List.drop_eq_nil_iff.1 h
      omega
    obtain ⟨o, rest, hdrop⟩ := List.exists_cons_of_ne_nil hnext
    have hbits : (bitsOf (o :: rest)).take (bitlen % 8) =
        (natBits 8 o.toNat).take (bitlen % 8) := by
      rw [bitsOf_cons, List.take_append_of_le_length (by rw [length_natBits]; omega)]
    rw [if_pos (by omega), hdrop, hbits]
    exact crcResidual_eq hpoly _ o rest (by omega)

end Bytes

/-- Every octet adds its entry. -/
theorem crcBytes_crcOctet {poly : BitVec 32} {shift : Nat}
    (hpoly : ∀ i < shift, poly.getLsbD i = false) {inptr : List UInt8} {bitlen : Nat}
    (hlen : bitlen ≤ 8 * inptr.length) :
    crcBytes (crcOctet (crcTable poly shift) shift) (crcTable poly shift) shift inptr bitlen =
      some (crcDivide poly 0#32 ((bitsOf inptr).take bitlen)) :=
  crcBytes_eq (fun _ => True) (fun _ _ _ => trivial) (fun crc o _ => crcOctet_eq hpoly crc o)
    trivial hpoly hlen

/-- Where the register fills one octet only, the entry may replace it. -/
theorem crcBytes_crcOctetReplace {poly : BitVec 32} (hpoly : ∀ i < 24, poly.getLsbD i = false)
    {inptr : List UInt8} {bitlen : Nat} (hlen : bitlen ≤ 8 * inptr.length) :
    crcBytes (crcOctetReplace (crcTable poly 24) 24) (crcTable poly 24) 24 inptr bitlen =
      some (crcDivide poly 0#32 ((bitsOf inptr).take bitlen)) := by
  refine crcBytes_eq (fun crc => ∀ i < 24, crc.getLsbD i = false)
    (fun crc bits hcrc => getLsbD_crcDivide hpoly bits hcrc) (fun crc o hcrc => ?_)
    (fun i _ => BitVec.getLsbD_zero) hpoly hlen
  have hshift : crc <<< 8 = 0#32 := by
    refine BitVec.eq_of_getLsbD_eq fun i hi => ?_
    rw [BitVec.getLsbD_shiftLeft, hcrc (i - 8) (by omega), Bool.and_false, BitVec.getLsbD_zero]
  have h := crcOctet_eq hpoly crc o
  unfold crcOctet at h
  rw [hshift] at h
  unfold crcOctetReplace
  rw [← h]
  simp only [BitVec.zero_xor]

/-! ## The eight CRCs -/

/-- The CRCs of `crc_byte.c`. -/
inductive CrcKind
  | crc24a
  | crc24b
  | crc24c
  | crc16
  | crc12
  | crc11
  | crc8
  | crc6
deriving DecidableEq, Repr

/-- The function of a CRC. -/
def CrcKind.crc : CrcKind → List UInt8 → Int → Option (BitVec 32)
  | .crc24a => NrStack.crc24a
  | .crc24b => NrStack.crc24b
  | .crc24c => NrStack.crc24c
  | .crc16 => NrStack.crc16
  | .crc12 => NrStack.crc12
  | .crc11 => NrStack.crc11
  | .crc8 => NrStack.crc8
  | .crc6 => NrStack.crc6

/-- The constant that `crcTableInit` hands to `crcbit`. -/
def CrcKind.poly : CrcKind → BitVec 32
  | .crc24a => poly24a
  | .crc24b => poly24b
  | .crc24c => poly24c
  | .crc16 => poly16
  | .crc12 => poly12
  | .crc11 => poly11
  | .crc8 => poly8
  | .crc6 => poly6

/-- The number of bits of a CRC, which are at the top of the register. -/
def CrcKind.len : CrcKind → Nat
  | .crc24a | .crc24b | .crc24c => 24
  | .crc16 => 16
  | .crc12 => 12
  | .crc11 => 11
  | .crc8 => 8
  | .crc6 => 6

/-- The generator polynomial. -/
noncomputable def CrcKind.generator : CrcKind → (ZMod 2)[X]
  | .crc24a => X ^ 24 + X ^ 23 + X ^ 18 + X ^ 17 + X ^ 14 + X ^ 11 + X ^ 10 + X ^ 7 + X ^ 6 +
      X ^ 5 + X ^ 4 + X ^ 3 + X + 1
  | .crc24b => X ^ 24 + X ^ 23 + X ^ 6 + X ^ 5 + X + 1
  | .crc24c => X ^ 24 + X ^ 23 + X ^ 21 + X ^ 20 + X ^ 17 + X ^ 15 + X ^ 13 + X ^ 12 + X ^ 8 +
      X ^ 4 + X ^ 2 + X + 1
  | .crc16 => X ^ 16 + X ^ 12 + X ^ 5 + 1
  | .crc12 => X ^ 12 + X ^ 11 + X ^ 3 + X ^ 2 + X + 1
  | .crc11 => X ^ 11 + X ^ 10 + X ^ 9 + X ^ 5 + 1
  | .crc8 => X ^ 8 + X ^ 7 + X ^ 4 + X ^ 3 + X + 1
  | .crc6 => X ^ 6 + X ^ 5 + 1

theorem CrcKind.len_le (kind : CrcKind) : kind.len ≤ 24 := by
  cases kind <;> decide

theorem CrcKind.getLsbD_poly (kind : CrcKind) :
    ∀ i < 32 - kind.len, kind.poly.getLsbD i = false := by
  cases kind <;> decide

/-- The table path divides the message bit by bit. -/
theorem CrcKind.crc_eq (kind : CrcKind) {inptr : List UInt8} {bitlen : Nat}
    (hlen : bitlen ≤ 8 * inptr.length) :
    kind.crc inptr bitlen = some (crcDivide kind.poly 0#32 ((bitsOf inptr).take bitlen)) := by
  have hpoly := kind.getLsbD_poly
  cases kind with
  | crc24a | crc24b | crc24c =>
    exact crcBytes_crcOctet (fun _ hi => absurd hi (Nat.not_lt_zero _)) hlen
  | crc16 | crc12 | crc11 =>
    exact crcBytes_crcOctet (fun i hi => hpoly i (hi.trans_le (by decide))) hlen
  | crc8 | crc6 =>
    exact crcBytes_crcOctetReplace (fun i hi => hpoly i (hi.trans_le (by decide))) hlen

theorem CrcKind.crcGenerator_poly (kind : CrcKind) :
    crcGenerator kind.poly = X ^ (32 - kind.len) * kind.generator := by
  cases kind <;>
    simp [crcGenerator, crcPoly, Finset.sum_range_succ, generator, poly, len, poly24a, poly24b,
      poly24c, poly16, poly12, poly11, poly8, poly6] <;>
    ring

theorem CrcKind.monic_generator (kind : CrcKind) : kind.generator.Monic :=
  (monic_X_pow _).of_mul_monic_left (kind.crcGenerator_poly ▸ monic_crcGenerator kind.poly)

/-- Over `ZMod 2`, the register holds at its top the remainder of the message by the generator. -/
theorem CrcKind.crcPoly_crcDivide (kind : CrcKind) (bits : List Bool) :
    crcPoly (crcDivide kind.poly 0#32 bits) =
      X ^ (32 - kind.len) * ((X ^ kind.len * messagePoly bits) %ₘ kind.generator) := by
  have hlen : 32 - kind.len + kind.len = 32 := by
    have := kind.len_le
    omega
  have hmod := modByMonic_X_pow_mul (s := 32 - kind.len) (n := kind.len) (p := messagePoly bits)
    kind.monic_generator
  rw [hlen] at hmod
  rw [NrStack.crcPoly_crcDivide (by decide), kind.crcGenerator_poly, hmod]

end NrStack
