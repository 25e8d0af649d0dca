import NrStack.Library.ByteBits

/-!
# Reversing the low bits of a word

`reverse_bits` of `nr_common.c`. Whole bytes are reversed by a table and put back in the other
order, then the word is shifted for the bits that do not fill a byte, which are reversed one by one.
-/

namespace NrStack

/-- `bit_reverse_table_256`. -/
def bitReverseTable256 : List UInt8 :=
  [0x00, 0x80, 0x40, 0xC0, 0x20, 0xA0, 0x60, 0xE0, 0x10, 0x90, 0x50, 0xD0, 0x30, 0xB0, 0x70, 0xF0,
   0x08, 0x88, 0x48, 0xC8, 0x28, 0xA8, 0x68, 0xE8, 0x18, 0x98, 0x58, 0xD8, 0x38, 0xB8, 0x78, 0xF8,
   0x04, 0x84, 0x44, 0xC4, 0x24, 0xA4, 0x64, 0xE4, 0x14, 0x94, 0x54, 0xD4, 0x34, 0xB4, 0x74, 0xF4,
   0x0C, 0x8C, 0x4C, 0xCC, 0x2C, 0xAC, 0x6C, 0xEC, 0x1C, 0x9C, 0x5C, 0xDC, 0x3C, 0xBC, 0x7C, 0xFC,
   0x02, 0x82, 0x42, 0xC2, 0x22, 0xA2, 0x62, 0xE2, 0x12, 0x92, 0x52, 0xD2, 0x32, 0xB2, 0x72, 0xF2,
   0x0A, 0x8A, 0x4A, 0xCA, 0x2A, 0xAA, 0x6A, 0xEA, 0x1A, 0x9A, 0x5A, 0xDA, 0x3A, 0xBA, 0x7A, 0xFA,
   0x06, 0x86, 0x46, 0xC6, 0x26, 0xA6, 0x66, 0xE6, 0x16, 0x96, 0x56, 0xD6, 0x36, 0xB6, 0x76, 0xF6,
   0x0E, 0x8E, 0x4E, 0xCE, 0x2E, 0xAE, 0x6E, 0xEE, 0x1E, 0x9E, 0x5E, 0xDE, 0x3E, 0xBE, 0x7E, 0xFE,
   0x01, 0x81, 0x41, 0xC1, 0x21, 0xA1, 0x61, 0xE1, 0x11, 0x91, 0x51, 0xD1, 0x31, 0xB1, 0x71, 0xF1,
   0x09, 0x89, 0x49, 0xC9, 0x29, 0xA9, 0x69, 0xE9, 0x19, 0x99, 0x59, 0xD9, 0x39, 0xB9, 0x79, 0xF9,
   0x05, 0x85, 0x45, 0xC5, 0x25, 0xA5, 0x65, 0xE5, 0x15, 0x95, 0x55, 0xD5, 0x35, 0xB5, 0x75, 0xF5,
   0x0D, 0x8D, 0x4D, 0xCD, 0x2D, 0xAD, 0x6D, 0xED, 0x1D, 0x9D, 0x5D, 0xDD, 0x3D, 0xBD, 0x7D, 0xFD,
   0x03, 0x83, 0x43, 0xC3, 0x23, 0xA3, 0x63, 0xE3, 0x13, 0x93, 0x53, 0xD3, 0x33, 0xB3, 0x73, 0xF3,
   0x0B, 0x8B, 0x4B, 0xCB, 0x2B, 0xAB, 0x6B, 0xEB, 0x1B, 0x9B, 0x5B, 0xDB, 0x3B, 0xBB, 0x7B, 0xFB,
   0x07, 0x87, 0x47, 0xC7, 0x27, 0xA7, 0x67, 0xE7, 0x17, 0x97, 0x57, 0xD7, 0x37, 0xB7, 0x77, 0xF7,
   0x0F, 0x8F, 0x4F, 0xCF, 0x2F, 0xAF, 0x6F, 0xEF, 0x1F, 0x9F, 0x5F, 0xDF, 0x3F, 0xBF, 0x7F, 0xFF]

/-- Byte `n` of a word in memory. -/
def wordByte (x : BitVec 64) (n : Nat) : UInt8 :=
  octet (x >>> (8 * n))

/-- A word with another byte `n`. -/
def setWordByte (x : BitVec 64) (n : Nat) (v : UInt8) : BitVec 64 :=
  x &&& ~~~(0xFF#64 <<< (8 * n)) ||| v.toBitVec.setWidth 64 <<< (8 * n)

/-- The loop over the whole bytes. -/
def reverseBytes (x : BitVec 64) (nBytes : Nat) : BitVec 64 :=
  (List.range nBytes).foldl (fun revBits n =>
    setWordByte revBits (nBytes - 1 - n) (bitReverseTable256.getD (wordByte x n).toNat 0)) 0

/-- `reverse_bits`, or the assertion on `n_bits`. -/
def reverseBits (x : BitVec 64) (nBits : Nat) : Option (BitVec 64) :=
  if nBits > 64 then none
  else
    let nBytes := nBits / 8
    let revBits := reverseBytes x nBytes <<< (nBits % 8)
    some ((List.range' (nBytes * 8) (nBits - nBytes * 8)).foldl (fun revBits i =>
      revBits ||| (x >>> i &&& 1) <<< (nBits - i - 1)) revBits)

/-! ## The table -/

theorem byteBit_bitReverseTable (b : UInt8) {k : Nat} (hk : k < 8) :
    byteBit (bitReverseTable256.getD b.toNat 0) k = byteBit b (7 - k) := by
  have htable : ∀ n < 256, ∀ k < 8,
      byteBit (bitReverseTable256.getD n 0) k = n.testBit (7 - k) := by
    decide +kernel
  exact htable b.toNat b.toNat_lt k hk

/-! ## The bytes of a word -/

theorem byteBit_wordByte (x : BitVec 64) (n : Nat) {k : Nat} (hk : k < 8) :
    byteBit (wordByte x n) k = x.getLsbD (8 * n + k) := by
  rw [wordByte, byteBit_octet, BitVec.getLsbD_ushiftRight, decide_eq_true hk, Bool.true_and]

theorem getLsbD_setWordByte (x : BitVec 64) (n : Nat) (v : UInt8) {i : Nat} (hi : i < 64) :
    (setWordByte x n v).getLsbD i = if i / 8 = n then byteBit v (i % 8) else x.getLsbD i := by
  have hmask : (0xFF#64).getLsbD (i - 8 * n) = decide (i - 8 * n < 8) := by
    rw [BitVec.getLsbD_ofNat]
    have h255 := Nat.testBit_two_pow_sub_one 8 (i - 8 * n)
    rw [show (255 : Nat) = 2 ^ 8 - 1 from rfl, h255]
    grind
  simp only [setWordByte, BitVec.getLsbD_or, BitVec.getLsbD_and, BitVec.getLsbD_not,
    BitVec.getLsbD_shiftLeft, getLsbD_toBitVec_setWidth v (by decide : 8 ≤ 64), hi, hmask,
    decide_true, Bool.true_and]
  rcases Nat.lt_trichotomy (i / 8) n with h | h | h
  · have hlt : i < 8 * n := by omega
    simp [h.ne, hlt]
  · have hge : ¬i < 8 * n := by omega
    have hmod : i - 8 * n = i % 8 := by omega
    simp [h, hge, hmod, Nat.mod_lt i (by decide : 8 > 0)]
  · have hge : ¬i < 8 * n := by omega
    have hlt : ¬i - 8 * n < 8 := by omega
    simp [h.ne', hge, hlt, byteBit_of_ge (Nat.le_of_not_lt hlt)]

/-! ## Whole bytes -/

/-- After `m` bytes, the upper ones are there. -/
theorem getLsbD_reverseBytes_foldl (x : BitVec 64) {nBytes m : Nat} (hn : nBytes ≤ 8)
    (hm : m ≤ nBytes) {i : Nat} (hi : i < 64) :
    ((List.range m).foldl (fun revBits n =>
      setWordByte revBits (nBytes - 1 - n) (bitReverseTable256.getD (wordByte x n).toNat 0))
      0).getLsbD i =
      (decide (8 * (nBytes - m) ≤ i ∧ i < 8 * nBytes) && x.getLsbD (8 * nBytes - 1 - i)) := by
  induction m with
  | zero =>
    have hnone : ¬(8 * (nBytes - 0) ≤ i ∧ i < 8 * nBytes) := by omega
    simp
  | succ m ih =>
    rw [List.range_succ, List.foldl_append, List.foldl_cons, List.foldl_nil,
      getLsbD_setWordByte _ _ _ hi, ih (by omega)]
    split_ifs with hbyte
    · have hin : 8 * (nBytes - (m + 1)) ≤ i ∧ i < 8 * nBytes := by omega
      have hbit : 8 * m + (7 - i % 8) = 8 * nBytes - 1 - i := by omega
      rw [byteBit_bitReverseTable _ (Nat.mod_lt i (by decide)), byteBit_wordByte _ _ (by omega),
        hbit, decide_eq_true hin, Bool.true_and]
    · congr 1
      exact decide_eq_decide.2 (by omega)

theorem getLsbD_reverseBytes (x : BitVec 64) {nBytes : Nat} (hn : nBytes ≤ 8) {i : Nat}
    (hi : i < 64) : (reverseBytes x nBytes).getLsbD i =
      (decide (i < 8 * nBytes) && x.getLsbD (8 * nBytes - 1 - i)) := by
  rw [reverseBytes, getLsbD_reverseBytes_foldl x hn le_rfl hi]
  simp

/-! ## The other bits -/

/-- One bit in its place. -/
theorem getLsbD_bit_shiftLeft (x : BitVec 64) (j s : Nat) {i : Nat} (hi : i < 64) :
    ((x >>> j &&& 1) <<< s).getLsbD i = (decide (i = s) && x.getLsbD j) := by
  have hone : (1 : BitVec 64).getLsbD (i - s) = decide (i - s = 0) := by
    rw [BitVec.ofNat_eq_ofNat, BitVec.getLsbD_one]
    simp
  rw [BitVec.getLsbD_shiftLeft, BitVec.getLsbD_and, BitVec.getLsbD_ushiftRight, hone,
    decide_eq_true hi, Bool.true_and]
  rcases Nat.lt_trichotomy i s with h | rfl | h
  · simp [h, h.ne]
  · simp
  · have hne : i - s ≠ 0 := by omega
    simp [hne, h.ne']

theorem any_remaining_bits (x : BitVec 64) {nBits i : Nat} :
    ((List.range' (nBits / 8 * 8) (nBits - nBits / 8 * 8)).any fun j =>
      decide (i = nBits - j - 1) && x.getLsbD j) =
      (decide (i < nBits % 8) && x.getLsbD (nBits - 1 - i)) := by
  rw [Bool.eq_iff_iff, List.any_eq_true]
  simp only [List.mem_range'_1, Bool.and_eq_true, decide_eq_true_eq]
  constructor
  · rintro ⟨j, hj, rfl, hbit⟩
    have hback : nBits - 1 - (nBits - j - 1) = j := by omega
    exact ⟨by omega, by rwa [hback]⟩
  · rintro ⟨hi, hbit⟩
    exact ⟨nBits - 1 - i, by omega, by omega, hbit⟩

/-! ## The word -/

/-- Bit `i` is bit `n - 1 - i`, and there are no bits above. -/
theorem getLsbD_reverseBits {x y : BitVec 64} {nBits : Nat} (h : reverseBits x nBits = some y)
    (i : Nat) : y.getLsbD i = (decide (i < nBits) && x.getLsbD (nBits - 1 - i)) := by
  unfold reverseBits at h
  split_ifs at h with hn
  cases h
  rcases Nat.lt_or_ge i 64 with hi | hi
  · rw [getLsbD_foldl_or, BitVec.getLsbD_shiftLeft]
    simp only [getLsbD_bit_shiftLeft _ _ _ hi]
    rw [any_remaining_bits, getLsbD_reverseBytes x (by omega) (by omega), decide_eq_true hi,
      Bool.true_and]
    rcases Nat.lt_or_ge i (nBits % 8) with hrest | hbytes
    · have hlt : i < nBits := by omega
      simp [hrest, hlt]
    · have hbit : 8 * (nBits / 8) - 1 - (i - nBits % 8) = nBits - 1 - i := by omega
      have hiff : i - nBits % 8 < 8 * (nBits / 8) ↔ i < nBits := by omega
      simp [hbytes.not_gt, hbit, hiff]
  · rw [BitVec.getLsbD_of_ge _ _ hi]
    have hge : ¬i < nBits := by omega
    simp [hge]

theorem reverseBits_isSome {nBits : Nat} (hn : nBits ≤ 64) (x : BitVec 64) :
    (reverseBits x nBits).isSome := by
  rw [reverseBits, if_neg (by omega)]
  rfl

/-- The low `n` bits are reversed, the others are zero, and reversing them again gives them back. -/
theorem reverseBits_spec {n : Nat} (h64 : n ≤ 64) (x : BitVec 64) :
    ∃ y, reverseBits x n = some y ∧ (∀ i < n, y.getLsbD i = x.getLsbD (n - 1 - i)) ∧
      (∀ i, n ≤ i → y.getLsbD i = false) ∧
      reverseBits y n = some (x &&& BitVec.ofNat 64 (2 ^ n - 1)) := by
  obtain ⟨y, hy⟩ := Option.isSome_iff_exists.1 (reverseBits_isSome h64 x)
  obtain ⟨z, hz⟩ := Option.isSome_iff_exists.1 (reverseBits_isSome h64 y)
  have hbits := getLsbD_reverseBits hy
  refine ⟨y, hy, fun i hi => ?_, fun i hi => ?_, ?_⟩
  · rw [hbits, decide_eq_true hi, Bool.true_and]
  · rw [hbits, decide_eq_false hi.not_gt, Bool.false_and]
  · rw [hz]
    congr 1
    refine BitVec.eq_of_getLsbD_eq fun i hi => ?_
    rw [getLsbD_reverseBits hz, hbits, BitVec.getLsbD_and, BitVec.getLsbD_ofNat,
      Nat.testBit_two_pow_sub_one, decide_eq_true hi, Bool.true_and]
    rcases Nat.lt_or_ge i n with hlt | hge
    · have hback : n - 1 - (n - 1 - i) = i := by omega
      have hin : n - 1 - i < n := by omega
      simp [hlt, hback, hin]
    · simp [hge.not_gt]

theorem reverseBits_spec_ten :
    ∃ y, reverseBits 0b1000001111 10 = some y ∧
      (∀ i < 10, y.getLsbD i = (0b1000001111 : BitVec 64).getLsbD (10 - 1 - i)) ∧
      (∀ i, 10 ≤ i → y.getLsbD i = false) ∧
      reverseBits y 10 = some (0b1000001111 &&& BitVec.ofNat 64 (2 ^ 10 - 1)) :=
  reverseBits_spec (by decide) _

end NrStack
