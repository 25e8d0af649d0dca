import NrStack.Coding.CheckCrc
import NrStack.Library.Block

/-!
# Segmentation of a transport block

`nr_segmentation` of `nr_segmentation.c`. The sizes are `unsigned int`s; they are numbers here, cut
to 32 bits where the code can leave that range. The segmentation is right up to two defects
(`nrSegmentation_iff`) : the number of bits with the CRCs wraps for a transport block near `2 ^ 32`,
and the filler is cleared in whole octets.
-/

namespace NrStack

/-- How `nr_segmentation` fails : `-1`, or an access outside a buffer. -/
inductive SegmentationFault
  | illegalSize
  | outOfBounds
deriving DecidableEq, Repr

/-- What `nr_segmentation` returns, and writes through its pointers. -/
structure Segmentation where
  Kb : Nat
  C : Nat
  K : Nat
  Zout : Nat
  F : Nat
  outputBuffers : List (List UInt8)
deriving DecidableEq, Repr

/-! ## The sizes -/

/-- A number as an `unsigned int`. -/
def uint32 (n : Nat) : Nat :=
  n % 2 ^ 32

/-- `Kcb`. -/
def maxCodeBlock (BG : UInt8) : Nat :=
  if BG = 1 then 8448 else 3840

/-- `L`, `C` and `Bprime`. -/
def codeBlockSplit (B : Nat) (BG : UInt8) : Nat × Nat × Nat :=
  let Kcb := maxCodeBlock BG
  if B ≤ Kcb then (0, 1, B)
  else
    let L := 24
    let C := B / (Kcb - L)
    let C := if (Kcb - L) * C < B then C + 1 else C
    (L, C, uint32 (B + C * L))

/-- `Kb`. -/
def segmentKb (B : Nat) (BG : UInt8) : Nat :=
  if BG = 1 then 22
  else if B > 640 then 10
  else if B > 560 then 9
  else if B > 192 then 8
  else 6

/-- `Z` rounded up to a multiple of `2 ^ s`. -/
def roundUp (Z s : Nat) : Nat :=
  let K := Z >>> s <<< s
  if K < Z then K + 2 ^ s else K

/-- The lifting size for `Z`. -/
def liftingSize (Z : Nat) : Option Nat :=
  if Z ≤ 2 then some 2
  else if Z ≤ 16 then some Z
  else if Z ≤ 32 then some (roundUp Z 1)
  else if Z ≤ 64 then some (roundUp Z 2)
  else if Z ≤ 128 then some (roundUp Z 3)
  else if Z ≤ 256 then some (roundUp Z 4)
  else if Z ≤ 384 then some (roundUp Z 5)
  else none

/-- The number of systematic columns. -/
def segmentColumns (BG : UInt8) : Nat :=
  if BG = 1 then 22 else 10

/-! ## The code blocks -/

/-- The low three octets of a CRC, the high one first. -/
def crcOctets24 (crc : BitVec 32) : List UInt8 :=
  [⟨(crc >>> 16).setWidth 8⟩, ⟨(crc >>> 8).setWidth 8⟩, ⟨crc.setWidth 8⟩]

/-- `memcpy` from the input. -/
def copyInput (inputBuffer : List UInt8) (s n : Nat) : BlockM UInt8 SegmentationFault Unit :=
  if s + n ≤ inputBuffer.length then store .outOfBounds 0 ((inputBuffer.drop s).take n)
  else throw .outOfBounds

/-- The CRC of the first `bitlen` bits of the block. -/
def appendCrc (bitlen : Nat) : BlockM UInt8 SegmentationFault Unit := fun out =>
  match crc24b out (BitVec.ofNat 32 bitlen).toInt with
  | none => .error .outOfBounds
  | some crc => store .outOfBounds (bitlen >>> 3) (crcOctets24 (crc >>> 8)) out

/-- The body of the loop over the code blocks, with `n` octets of payload from `s` on. -/
def segmentBlock (inputBuffer : List UInt8) (C Kprime bitlen K F s : Nat) :
    BlockM UInt8 SegmentationFault Unit := do
  copyInput inputBuffer s (bitlen >>> 3)
  (if C > 1 then appendCrc bitlen else pure ())
  if F > 0 then store .outOfBounds (Kprime >>> 3) (.replicate (K >>> 3 - Kprime >>> 3) 0)

/-- The loop over the code blocks, `r` turns. -/
def segmentBlocks (inputBuffer : List UInt8) (C Kprime bitlen K F : Nat) :
    Nat → Nat → List (List UInt8) → Except SegmentationFault (List (List UInt8))
  | 0, _, outputBuffers => .ok outputBuffers
  | _ + 1, _, [] => .error .outOfBounds
  | r + 1, s, out :: outputBuffers => do
    let (_, out) ← segmentBlock inputBuffer C Kprime bitlen K F s out
    let outputBuffers ← segmentBlocks inputBuffer C Kprime bitlen K F r (s + bitlen >>> 3)
      outputBuffers
    return out :: outputBuffers

/-- `nr_segmentation`. The buffers may be null. -/
def nrSegmentation (buffers : Option (List UInt8 × List (List UInt8))) (B : BitVec 32)
    (BG : UInt8) : Except SegmentationFault Segmentation := do
  let B := B.toNat
  let (L, C, Bprime) := codeBlockSplit B BG
  let Kprime := Bprime / C
  let Kb := segmentKb B BG
  let Z := if Kprime % Kb > 0 then Kprime / Kb + 1 else Kprime / Kb
  match liftingSize Z with
  | none => throw .illegalSize
  | some Zout =>
    let K := Zout * segmentColumns BG
    let F := K - Kprime
    match buffers with
    | none => return ⟨Kb, C, K, Zout, F, []⟩
    | some (inputBuffer, outputBuffers) =>
      let outputBuffers ← segmentBlocks inputBuffer C Kprime (uint32 (Kprime + 2 ^ 32 - L)) K F C 0
        outputBuffers
      return ⟨Kb, C, K, Zout, F, outputBuffers⟩

/-! ## What the sizes should be -/

/-- The 51 lifting sizes. -/
def liftingSizes : List Nat :=
  [2, 3, 4, 5, 6, 7, 8, 9, 10, 11, 12, 13, 14, 15, 16, 18, 20, 22, 24, 26, 28, 30, 32, 36, 40, 44,
    48, 52, 56, 60, 64, 72, 80, 88, 96, 104, 112, 120, 128, 144, 160, 176, 192, 208, 224, 240, 256,
    288, 320, 352, 384]

/-- The number of code blocks : one, or as many as it takes with 24 bits of CRC in each. -/
def codeBlockCount (B : Nat) (BG : UInt8) : Nat :=
  if B ≤ maxCodeBlock BG then 1 else (B + (maxCodeBlock BG - 24) - 1) / (maxCodeBlock BG - 24)

/-- The bits of CRC in each code block. -/
def codeBlockCrc (B : Nat) (BG : UInt8) : Nat :=
  if B ≤ maxCodeBlock BG then 0 else 24

/-- `B'` : the bits with the CRCs. -/
def bitsWithCrc (B : Nat) (BG : UInt8) : Nat :=
  B + codeBlockCount B BG * codeBlockCrc B BG

/-- `K'`. -/
def codeBlockBits (B : Nat) (BG : UInt8) : Nat :=
  bitsWithCrc B BG / codeBlockCount B BG

/-! ## The lifting size -/

/-- Above each power of two the lifting sizes are multiples of a larger step. -/
theorem mem_liftingSizes_iff {z : Nat} : z ∈ liftingSizes ↔ 2 ≤ z ∧ z ≤ 384 ∧ (16 < z → z % 2 = 0) ∧
    (32 < z → z % 4 = 0) ∧ (64 < z → z % 8 = 0) ∧ (128 < z → z % 16 = 0) ∧
    (256 < z → z % 32 = 0) := by
  have hsmall : ∀ z : Fin 385, z.val ∈ liftingSizes ↔ 2 ≤ z.val ∧ z.val ≤ 384 ∧
      (16 < z.val → z.val % 2 = 0) ∧ (32 < z.val → z.val % 4 = 0) ∧ (64 < z.val → z.val % 8 = 0) ∧
      (128 < z.val → z.val % 16 = 0) ∧ (256 < z.val → z.val % 32 = 0) := by
    decide +kernel
  have hmax : ∀ y ∈ liftingSizes, y ≤ 384 := by decide
  constructor
  · exact fun h => (hsmall ⟨z, Nat.lt_succ_of_le (hmax z h)⟩).1 h
  · exact fun h => (hsmall ⟨z, Nat.lt_succ_of_le h.2.1⟩).2 h

theorem roundUp_spec (Z s : Nat) :
    Z ≤ roundUp Z s ∧ roundUp Z s < Z + 2 ^ s ∧ roundUp Z s % 2 ^ s = 0 := by
  have hpos := Nat.two_pow_pos s
  have hdiv := Nat.div_add_mod Z (2 ^ s)
  have hmod := Nat.mod_lt Z hpos
  unfold roundUp
  rw [Nat.shiftRight_eq_div_pow, Nat.shiftLeft_eq, Nat.mul_comm]
  dsimp only
  split
  · refine ⟨by omega, by omega, ?_⟩
    rw [Nat.add_mod_right, Nat.mul_mod_right]
  · exact ⟨by omega, by omega, Nat.mul_mod_right _ _⟩

/-- The chain of roundings finds the smallest lifting size. -/
theorem liftingSize_eq {Z : Nat} (hZ : Z ≤ 384) :
    ∃ z, liftingSize Z = some z ∧ IsLeast {y | y ∈ liftingSizes ∧ Z ≤ y} z := by
  have hleast {z : Nat} (hmem : z ∈ liftingSizes) (hge : Z ≤ z)
      (h : ∀ y ∈ liftingSizes, Z ≤ y → z ≤ y) : IsLeast {y | y ∈ liftingSizes ∧ Z ≤ y} z :=
    ⟨⟨hmem, hge⟩, fun y hy => h y hy.1 hy.2⟩
  have hround (s : Nat) := roundUp_spec Z s
  simp only [mem_liftingSizes_iff] at hleast ⊢
  unfold liftingSize
  split_ifs
  · exact ⟨_, rfl, hleast (by omega) (by omega) (by omega)⟩
  · exact ⟨_, rfl, hleast (by omega) (by omega) (by omega)⟩
  · have h := hround 1
    exact ⟨_, rfl, hleast (by omega) (by omega) (by omega)⟩
  · have := hround 2
    exact ⟨_, rfl, hleast (by omega) (by omega) (by omega)⟩
  · have := hround 3
    exact ⟨_, rfl, hleast (by omega) (by omega) (by omega)⟩
  · have := hround 4
    exact ⟨_, rfl, hleast (by omega) (by omega) (by omega)⟩
  · have := hround 5
    exact ⟨_, rfl, hleast (by omega) (by omega) (by omega)⟩

/-! ## The sizes are right -/

theorem maxCodeBlock_eq (BG : UInt8) : maxCodeBlock BG = 8448 ∨ maxCodeBlock BG = 3840 := by
  unfold maxCodeBlock
  split
  · exact .inl rfl
  · exact .inr rfl

/-- The count of code blocks, and the one count that may wrap around. -/
theorem codeBlockSplit_eq {B : Nat} (BG : UInt8) (hB : B < 2 ^ 32) :
    codeBlockSplit B BG =
      (codeBlockCrc B BG, codeBlockCount B BG, uint32 (bitsWithCrc B BG)) := by
  unfold codeBlockSplit codeBlockCrc codeBlockCount bitsWithCrc uint32
  unfold codeBlockCount codeBlockCrc
  by_cases hone : B ≤ maxCodeBlock BG
  · simp only [if_pos hone, Nat.mul_zero, Nat.add_zero, Nat.mod_eq_of_lt hB]
  · have hcount : (if (maxCodeBlock BG - 24) * (B / (maxCodeBlock BG - 24)) < B
        then B / (maxCodeBlock BG - 24) + 1 else B / (maxCodeBlock BG - 24)) =
          (B + (maxCodeBlock BG - 24) - 1) / (maxCodeBlock BG - 24) := by
      rcases maxCodeBlock_eq BG with h | h <;> rw [h] <;> split <;> omega
    simp only [if_neg hone, hcount]

theorem codeBlockCount_pos (B : Nat) (BG : UInt8) : 0 < codeBlockCount B BG := by
  unfold codeBlockCount
  split
  · exact Nat.one_pos
  · rcases maxCodeBlock_eq BG with h | h <;> rw [h] at * <;> omega

/-- Several code blocks have a CRC each. -/
theorem ite_codeBlockCount (B : Nat) (BG : UInt8) :
    (if codeBlockCount B BG > 1 then 24 else 0) = codeBlockCrc B BG := by
  unfold codeBlockCount codeBlockCrc
  by_cases hone : B ≤ maxCodeBlock BG
  · rw [if_pos hone, if_pos hone, if_neg (by decide)]
  · rw [if_neg hone, if_neg hone, if_pos]
    rcases maxCodeBlock_eq BG with h | h <;> rw [h] at hone ⊢ <;> omega

theorem codeBlockCrc_le (B : Nat) (BG : UInt8) : codeBlockCrc B BG ≤ codeBlockBits B BG := by
  unfold codeBlockBits bitsWithCrc
  rw [Nat.le_div_iff_mul_le (codeBlockCount_pos B BG), Nat.mul_comm]
  exact Nat.le_add_left _ _

/-- No code block is longer than the largest. -/
theorem codeBlockBits_le (B : Nat) (BG : UInt8) : codeBlockBits B BG ≤ maxCodeBlock BG := by
  unfold codeBlockBits bitsWithCrc codeBlockCount codeBlockCrc
  split_ifs with hone
  · omega
  · refine Nat.div_le_of_le_mul ?_
    rcases maxCodeBlock_eq BG with h | h <;> rw [h] at * <;> omega

/-- `Z` is the least size that holds the bits in `Kb` columns. -/
theorem ceil_le_iff {n d y : Nat} (hd : 0 < d) :
    (if n % d > 0 then n / d + 1 else n / d) ≤ y ↔ n ≤ d * y := by
  have hdiv := Nat.div_add_mod n d
  split_ifs with h
  · rw [Nat.succ_le_iff, Nat.div_lt_iff_lt_mul hd, Nat.mul_comm y d]
    refine ⟨Nat.le_of_lt, fun hle => lt_of_le_of_ne hle fun heq => ?_⟩
    rw [heq, Nat.mul_mod_right] at h
    exact absurd h (lt_irrefl 0)
  · have heq : d * (n / d) = n := by omega
    rw [← Nat.mul_le_mul_left_iff hd, heq]

theorem segmentKb_pos (B : Nat) (BG : UInt8) : 0 < segmentKb B BG := by
  unfold segmentKb
  split_ifs <;> decide

theorem segmentKb_le (B : Nat) (BG : UInt8) : segmentKb B BG ≤ segmentColumns BG := by
  unfold segmentKb segmentColumns
  split_ifs <;> decide

/-- The largest code block fits the largest lifting size. -/
theorem codeBlockBits_le_mul (B : Nat) (BG : UInt8) :
    codeBlockBits B BG ≤ segmentKb B BG * 384 := by
  have hmax := codeBlockBits_le B BG
  have hsmall (h : B ≤ 640) : codeBlockBits B BG ≤ 640 := by
    unfold codeBlockBits bitsWithCrc codeBlockCount codeBlockCrc
    rcases maxCodeBlock_eq BG with hBG | hBG <;> rw [hBG, if_pos (by omega), if_pos (by omega)] <;>
      omega
  unfold maxCodeBlock at hmax
  unfold segmentKb
  split_ifs at hmax ⊢
  · omega
  · omega
  · have := hsmall (by omega)
    omega
  · have := hsmall (by omega)
    omega
  · have := hsmall (by omega)
    omega

/-- The octets of all code blocks, if the sizes do not wrap around. -/
theorem nrSegmentation_of_fits {B : BitVec 32} {BG : UInt8}
    (hfits : bitsWithCrc B.toNat BG < 2 ^ 32) :
    ∃ z, IsLeast {y | y ∈ liftingSizes ∧ codeBlockBits B.toNat BG ≤ segmentKb B.toNat BG * y} z ∧
      ∀ buffers, nrSegmentation buffers B BG =
        match buffers with
        | none => .ok ⟨segmentKb B.toNat BG, codeBlockCount B.toNat BG, z * segmentColumns BG, z,
            z * segmentColumns BG - codeBlockBits B.toNat BG, []⟩
        | some (inputBuffer, outputBuffers) => do
          let outputBuffers ← segmentBlocks inputBuffer (codeBlockCount B.toNat BG)
            (codeBlockBits B.toNat BG) (codeBlockBits B.toNat BG - codeBlockCrc B.toNat BG)
            (z * segmentColumns BG) (z * segmentColumns BG - codeBlockBits B.toNat BG)
            (codeBlockCount B.toNat BG) 0 outputBuffers
          return ⟨segmentKb B.toNat BG, codeBlockCount B.toNat BG, z * segmentColumns BG, z,
            z * segmentColumns BG - codeBlockBits B.toNat BG, outputBuffers⟩ := by
  have hle := (ceil_le_iff (segmentKb_pos B.toNat BG)).2 (codeBlockBits_le_mul B.toNat BG)
  obtain ⟨z, hz, hleast⟩ := liftingSize_eq hle
  simp only [ceil_le_iff (segmentKb_pos B.toNat BG)] at hleast
  refine ⟨z, hleast, fun buffers => ?_⟩
  have hcrc := codeBlockCrc_le B.toNat BG
  have hmax := codeBlockBits_le B.toNat BG
  have hbitlen : uint32 (codeBlockBits B.toNat BG + 2 ^ 32 - codeBlockCrc B.toNat BG) =
      codeBlockBits B.toNat BG - codeBlockCrc B.toNat BG := by
    unfold uint32
    rcases maxCodeBlock_eq BG with h | h <;> omega
  have hwrap : uint32 (bitsWithCrc B.toNat BG) = bitsWithCrc B.toNat BG := Nat.mod_eq_of_lt hfits
  unfold nrSegmentation
  simp only [codeBlockSplit_eq BG B.isLt, hwrap]
  have hbits : bitsWithCrc B.toNat BG / codeBlockCount B.toNat BG = codeBlockBits B.toNat BG := rfl
  simp only [hbits, hz, hbitlen]
  cases buffers <;> rfl

/-! ## One code block -/

theorem bitsOf_crcOctets24 (crc : BitVec 32) : bitsOf (crcOctets24 crc) = natBits 24 crc.toNat := by
  have hoctet (x : BitVec 32) : natBits 8 (x.setWidth 8).toNat = natBits 8 x.toNat := by
    refine natBits_congr fun i hi => ?_
    rw [BitVec.toNat_setWidth, Nat.testBit_mod_two_pow, decide_eq_true hi, Bool.true_and]
  change natBits 8 ((crc >>> 16).setWidth 8).toNat ++ (natBits 8 ((crc >>> 8).setWidth 8).toNat ++
    (natBits 8 (crc.setWidth 8).toNat ++ [])) = _
  rw [hoctet, hoctet, hoctet, List.append_nil, BitVec.toNat_ushiftRight, BitVec.toNat_ushiftRight,
    natBits_add 8 16, natBits_add 8 8]

/-- The bits of a block that is written in whole octets. -/
theorem bitsOf_written {out xs : List UInt8} {n : Nat} (hxs : xs.length = n) :
    bitsOf (overwrite out 0 xs) = bitsOf xs ++ bitsOf (out.drop (n)) := by
  rw [overwrite, List.take_zero, List.nil_append, bitsOf_append, Nat.zero_add, hxs]

section Block

variable {inputBuffer out : List UInt8} {C Kprime bitlen K s : Nat}
  (hbitlen : bitlen + (if C > 1 then 24 else 0) = Kprime) (hK : Kprime ≤ K)
  (hout : K ≤ 8 * out.length) (hinput : s + bitlen / 8 ≤ inputBuffer.length)

include hbitlen hK hout hinput

/-- The payload is copied to the front of the block. -/
theorem copyInput_eq : copyInput inputBuffer s (bitlen >>> 3) out =
    .ok ((), overwrite out 0 ((inputBuffer.drop s).take (bitlen / 8))) := by
  unfold copyInput
  rw [Nat.shiftRight_eq_div_pow, if_pos hinput]
  refine store_eq _ ?_
  rw [List.length_take, List.length_drop]
  omega

/-- The CRC is written behind the payload. -/
theorem appendCrc_eq (hmax : Kprime < 2 ^ 31) (hC : C > 1) : ∃ crcs : List UInt8, crcs.length = 3 ∧
    (8 ∣ bitlen → bitsOf crcs = natBits 24 ((crcDivide poly24b 0#32
      (bitsOf ((inputBuffer.drop s).take (bitlen / 8)))).toNat >>> 8)) ∧
    appendCrc bitlen (overwrite out 0 ((inputBuffer.drop s).take (bitlen / 8))) =
      .ok ((), overwrite out 0 ((inputBuffer.drop s).take (bitlen / 8) ++ crcs)) := by
  rw [if_pos hC] at hbitlen
  have hpayload : ((inputBuffer.drop s).take (bitlen / 8)).length = bitlen / 8 := by
    rw [List.length_take, List.length_drop]
    omega
  have hcopied : (overwrite out 0 ((inputBuffer.drop s).take (bitlen / 8))).length = out.length :=
    length_overwrite (by omega)
  have hint : (BitVec.ofNat 32 bitlen).toInt = bitlen := by
    rw [BitVec.toInt_eq_toNat_of_lt] <;> rw [BitVec.toNat_ofNat] <;> omega
  have hcrc : crc24b (overwrite out 0 ((inputBuffer.drop s).take (bitlen / 8))) bitlen =
      some (crcDivide poly24b 0#32 ((bitsOf (overwrite out 0
        ((inputBuffer.drop s).take (bitlen / 8)))).take bitlen)) :=
    CrcKind.crc24b.crc_eq (by omega)
  refine ⟨crcOctets24 (crcDivide poly24b 0#32 ((bitsOf (overwrite out 0
    ((inputBuffer.drop s).take (bitlen / 8)))).take bitlen) >>> 8), rfl, fun hwhole => ?_, ?_⟩
  · have htake : (bitsOf (overwrite out 0 ((inputBuffer.drop s).take (bitlen / 8)))).take bitlen =
        bitsOf ((inputBuffer.drop s).take (bitlen / 8)) := by
      rw [overwrite, List.take_zero, List.nil_append, bitsOf_append]
      refine List.take_left' ?_
      rw [length_bitsOf, hpayload]
      omega
    rw [bitsOf_crcOctets24, BitVec.toNat_ushiftRight, htake]
  · unfold appendCrc
    rw [hint, hcrc]
    dsimp only
    have happend : overwrite (overwrite out 0 ((inputBuffer.drop s).take (bitlen / 8)))
        (0 + ((inputBuffer.drop s).take (bitlen / 8)).length)
        (crcOctets24 (crcDivide poly24b 0#32 ((bitsOf (overwrite out 0
          ((inputBuffer.drop s).take (bitlen / 8)))).take bitlen) >>> 8)) =
            overwrite out 0 ((inputBuffer.drop s).take (bitlen / 8) ++ _) :=
      overwrite_append (by rw [List.length_append, hpayload]; change _ + (_ + 3) ≤ _; omega)
    rw [hpayload, Nat.zero_add] at happend
    rw [← happend, Nat.shiftRight_eq_div_pow]
    refine store_eq _ ?_
    rw [hcopied]
    change bitlen / 8 + 3 ≤ _
    omega

/-- The block is written from its start on : the payload, the CRC, and zeros. -/
theorem segmentBlock_eq (hmax : Kprime < 2 ^ 31) : ∃ crcs : List UInt8,
    (crcs.length = if C > 1 then 3 else 0) ∧
    (C > 1 → 8 ∣ bitlen → bitsOf crcs = natBits 24 ((crcDivide poly24b 0#32
      (bitsOf ((inputBuffer.drop s).take (bitlen / 8)))).toNat >>> 8)) ∧
    segmentBlock inputBuffer C Kprime bitlen K (K - Kprime) s out = .ok ((), overwrite out 0
      ((inputBuffer.drop s).take (bitlen / 8) ++ crcs ++
        List.replicate (K / 8 - Kprime / 8) 0)) := by
  have hpayload : ((inputBuffer.drop s).take (bitlen / 8)).length = bitlen / 8 := by
    rw [List.length_take, List.length_drop]
    omega
  obtain ⟨crcs, hlen, hbits, hcrcs⟩ : ∃ crcs : List UInt8,
      (crcs.length = if C > 1 then 3 else 0) ∧
      (C > 1 → 8 ∣ bitlen → bitsOf crcs = natBits 24 ((crcDivide poly24b 0#32
        (bitsOf ((inputBuffer.drop s).take (bitlen / 8)))).toNat >>> 8)) ∧
      (if C > 1 then appendCrc bitlen else pure ())
        (overwrite out 0 ((inputBuffer.drop s).take (bitlen / 8))) =
          .ok ((), overwrite out 0 ((inputBuffer.drop s).take (bitlen / 8) ++ crcs)) := by
    by_cases hC : C > 1
    · obtain ⟨crcs, hlen, hbits, h⟩ := appendCrc_eq hbitlen hK hout hinput hmax hC
      exact ⟨crcs, by rw [hlen, if_pos hC], fun _ => hbits, by rw [if_pos hC, h]⟩
    · exact ⟨[], by rw [if_neg hC]; rfl, fun h => absurd h hC, by
        rw [if_neg hC, List.append_nil]; rfl⟩
  refine ⟨crcs, hlen, hbits, ?_⟩
  have hend : ((inputBuffer.drop s).take (bitlen / 8) ++ crcs).length = Kprime / 8 := by
    rw [List.length_append, hpayload, hlen]
    split_ifs at hbitlen ⊢ <;> omega
  unfold segmentBlock
  rw [bind_of_ok (copyInput_eq hbitlen hK hout hinput)]
  rw [bind_of_ok hcrcs]
  by_cases hF : K - Kprime > 0
  · have happend : overwrite (overwrite out 0 ((inputBuffer.drop s).take (bitlen / 8) ++ crcs))
        (0 + ((inputBuffer.drop s).take (bitlen / 8) ++ crcs).length)
        (List.replicate (K / 8 - Kprime / 8) 0) = overwrite out 0 (_ ++ _) :=
      overwrite_append (by rw [List.length_append, hend, List.length_replicate]; omega)
    rw [hend, Nat.zero_add] at happend
    rw [if_pos hF, ← happend, Nat.shiftRight_eq_div_pow, Nat.shiftRight_eq_div_pow]
    refine store_eq _ ?_
    rw [length_overwrite (by omega), List.length_replicate]
    change Kprime / 8 + (K / 8 - Kprime / 8) ≤ _
    omega
  · have hzeros : K / 8 - Kprime / 8 = 0 := by omega
    rw [if_neg hF, hzeros, List.replicate_zero, List.append_nil]
    rfl

omit hout in
/-- A block of whole octets carries its CRC, and zeros up to its end. -/
theorem block_right {crcs : List UInt8} (hlen : crcs.length = if C > 1 then 3 else 0)
    (hbits : C > 1 → 8 ∣ bitlen → bitsOf crcs = natBits 24 ((crcDivide poly24b 0#32
      (bitsOf ((inputBuffer.drop s).take (bitlen / 8)))).toNat >>> 8))
    (hwhole : 8 ∣ bitlen) :
    (C > 1 → HasCrc (overwrite out 0 ((inputBuffer.drop s).take (bitlen / 8) ++ crcs ++
      List.replicate (K / 8 - Kprime / 8) 0)) Kprime 1) ∧
    (8 ∣ K → ∀ i, Kprime ≤ i → i < K → (bitsOf (overwrite out 0
      ((inputBuffer.drop s).take (bitlen / 8) ++ crcs ++
        List.replicate (K / 8 - Kprime / 8) 0)))[i]? = some false) := by
  have hpayload : ((inputBuffer.drop s).take (bitlen / 8)).length = bitlen / 8 := by
    rw [List.length_take, List.length_drop]
    omega
  have hend : ((inputBuffer.drop s).take (bitlen / 8) ++ crcs).length = Kprime / 8 := by
    rw [List.length_append, hpayload, hlen]
    split_ifs at hbitlen ⊢ <;> omega
  have hxs : ((inputBuffer.drop s).take (bitlen / 8) ++ crcs ++
      List.replicate (K / 8 - Kprime / 8) 0).length = K / 8 := by
    rw [List.length_append, hend, List.length_replicate]
    omega
  have hKprime : 8 ∣ Kprime := by
    split_ifs at hbitlen <;> omega
  constructor
  · intro hC
    rw [if_pos hC] at hbitlen hlen
    have hstart : (bitsOf ((inputBuffer.drop s).take (bitlen / 8))).length = Kprime - 24 := by
      rw [length_bitsOf, hpayload]
      omega
    have hstop :
        (bitsOf ((inputBuffer.drop s).take (bitlen / 8)) ++ bitsOf crcs).length = Kprime := by
      rw [← bitsOf_append, length_bitsOf, hend]
      omega
    refine ⟨.crc24b, rfl, by change 24 ≤ _; omega, ?_⟩
    change List.drop (Kprime - 24) _ = natBits 24 ((crcDivide poly24b 0#32
      (List.take (Kprime - 24) _)).toNat >>> 8)
    rw [bitsOf_written hxs, bitsOf_append, bitsOf_append, List.append_assoc, List.take_left' hstop,
      List.drop_left' hstart, List.append_assoc, List.take_left' hstart, hbits hC hwhole]
  · intro hK8 i hi hiK
    have hfront : (bitsOf ((inputBuffer.drop s).take (bitlen / 8) ++ crcs)).length = Kprime := by
      rw [length_bitsOf, hend]
      omega
    rw [bitsOf_written hxs, bitsOf_append, bitsOf_replicate_zero, List.append_assoc,
      List.getElem?_append_right (by rw [hfront]; exact hi), hfront,
      List.getElem?_append_left (by rw [length_natBits]; omega)]
    exact getElem?_natBits_zero (by omega)

end Block

/-- What the code blocks should be : their payloads make up the input, each of several blocks ends
with its CRC, and the rest of it is zero. -/
structure BlocksRight (inputBuffer : List UInt8) (B C Kprime L K : Nat)
    (blocks : List (List UInt8)) : Prop where
  payload : (blocks.map (·.take ((Kprime - L) / 8))).flatten = inputBuffer.take (B / 8)
  crc : C > 1 → ∀ block ∈ blocks, HasCrc block Kprime 1
  filler : ∀ block ∈ blocks, ∀ i, Kprime ≤ i → i < K → (bitsOf block)[i]? = some false

/-- Every block takes the next octets of the input. -/
theorem segmentBlocks_eq {inputBuffer : List UInt8} {C Kprime bitlen K : Nat}
    (hbitlen : bitlen + (if C > 1 then 24 else 0) = Kprime) (hK : Kprime ≤ K)
    (hmax : Kprime < 2 ^ 31) : ∀ {r s : Nat} {outs : List (List UInt8)}, outs.length = r →
      (∀ out ∈ outs, K ≤ 8 * out.length) → s + r * (bitlen / 8) ≤ inputBuffer.length →
      ∃ blocks, segmentBlocks inputBuffer C Kprime bitlen K (K - Kprime) r s outs = .ok blocks ∧
        (8 ∣ bitlen → (blocks.map (·.take (bitlen / 8))).flatten =
            (inputBuffer.drop s).take (r * (bitlen / 8)) ∧
          (C > 1 → ∀ block ∈ blocks, HasCrc block Kprime 1) ∧
          (8 ∣ K → ∀ block ∈ blocks, ∀ i, Kprime ≤ i → i < K →
            (bitsOf block)[i]? = some false))
  | 0, s, [], _, _, _ => ⟨[], rfl, fun _ => ⟨by simp, by simp, by simp⟩⟩
  | r + 1, s, out :: outs, hlen, hcap, hinput => by
    have hmul : (r + 1) * (bitlen / 8) = bitlen / 8 + r * (bitlen / 8) := by ring
    have hout : K ≤ 8 * out.length := hcap out (List.mem_cons_self ..)
    have hfirst : s + bitlen / 8 ≤ inputBuffer.length := by
      have := Nat.zero_le (r * (bitlen / 8))
      omega
    obtain ⟨crcs, hcrcs, hbits, hblock⟩ := segmentBlock_eq hbitlen hK hout hfirst hmax
    have hrest : s + bitlen / 8 + r * (bitlen / 8) ≤ inputBuffer.length := by omega
    obtain ⟨blocks, hblocks, hright⟩ := segmentBlocks_eq hbitlen hK hmax (Nat.succ.inj hlen)
      (fun out h => hcap out (List.mem_cons_of_mem _ h)) hrest
    refine ⟨overwrite out 0 ((inputBuffer.drop s).take (bitlen / 8) ++ crcs ++
      List.replicate (K / 8 - Kprime / 8) 0) :: blocks, ?_, fun hwhole => ?_⟩
    · rw [segmentBlocks, hblock, Nat.shiftRight_eq_div_pow]
      change Except.bind (segmentBlocks inputBuffer C Kprime bitlen K (K - Kprime) r
        (s + bitlen / 8) outs) _ = _
      rw [hblocks]
      rfl
    · obtain ⟨hpayload, hcrc, hfiller⟩ := hright hwhole
      obtain ⟨hcrc', hfiller'⟩ := block_right hbitlen hK hfirst hcrcs hbits hwhole
      refine ⟨?_, fun hC => ?_, fun hK8 => ?_⟩
      · have htake : (overwrite out 0 ((inputBuffer.drop s).take (bitlen / 8) ++ crcs ++
            List.replicate (K / 8 - Kprime / 8) 0)).take (bitlen / 8) =
              (inputBuffer.drop s).take (bitlen / 8) := by
          rw [overwrite, List.take_zero, List.nil_append, List.append_assoc, List.append_assoc]
          refine List.take_left' ?_
          rw [List.length_take, List.length_drop]
          omega
        rw [List.map_cons, List.flatten_cons, htake, hpayload, hmul, List.take_add, List.drop_drop]
      · exact List.forall_mem_cons.2 ⟨hcrc' hC, hcrc hC⟩
      · exact List.forall_mem_cons.2 ⟨hfiller' hK8, hfiller hK8⟩

/-! ## The result -/

/-- What the segmentation should be. `z` is the smallest lifting size for the code block. -/
def SegmentsRight (B : BitVec 32) (BG : UInt8) : Prop :=
  let C := codeBlockCount B.toNat BG
  let L := codeBlockCrc B.toNat BG
  let Kprime := codeBlockBits B.toNat BG
  let Kb := segmentKb B.toNat BG
  ∃ z, IsLeast {y | y ∈ liftingSizes ∧ Kprime ≤ Kb * y} z ∧
    let K := z * segmentColumns BG
    Kprime ≤ K ∧ nrSegmentation none B BG = .ok ⟨Kb, C, K, z, K - Kprime, []⟩ ∧
    ∀ inputBuffer outputBuffers, B.toNat ≤ 8 * inputBuffer.length → outputBuffers.length = C →
      (∀ out ∈ outputBuffers, K ≤ 8 * out.length) →
      ∃ blocks,
        nrSegmentation (some (inputBuffer, outputBuffers)) B BG =
          .ok ⟨Kb, C, K, z, K - Kprime, blocks⟩ ∧
        (8 ∣ B.toNat → 8 * C ∣ bitsWithCrc B.toNat BG →
          BlocksRight inputBuffer B.toNat C Kprime L K blocks)

/-- The lifting size for `Z` is a multiple of four. -/
def WholeFiller (Z : Nat) : Prop :=
  32 < Z ∨ Z % 4 = 0 ∨ 16 < Z ∧ Z % 4 = 3

/-- The columns that the bits of one code block fill. -/
def filledColumns (B : Nat) (BG : UInt8) : Nat :=
  (B + segmentKb B BG - 1) / segmentKb B BG

/-- Several code blocks are long. -/
theorem le_codeBlockBits {B : Nat} {BG : UInt8} (h : maxCodeBlock BG < B) :
    1900 ≤ codeBlockBits B BG := by
  unfold codeBlockBits
  rw [Nat.le_div_iff_mul_le (codeBlockCount_pos B BG)]
  unfold bitsWithCrc codeBlockCount codeBlockCrc
  rw [if_neg (not_le.2 h), if_neg (not_le.2 h)]
  rcases maxCodeBlock_eq BG with hBG | hBG <;> rw [hBG] at h ⊢ <;> omega

theorem codeBlockBits_of_le {B : Nat} {BG : UInt8} (h : B ≤ maxCodeBlock BG) :
    codeBlockBits B BG = B := by
  unfold codeBlockBits bitsWithCrc codeBlockCount codeBlockCrc
  rw [if_pos h, if_pos h, Nat.mul_zero, Nat.add_zero, Nat.div_one]

theorem wholeFiller_iff {Z z : Nat} (hZ : 1 ≤ Z)
    (hz : IsLeast {y | y ∈ liftingSizes ∧ Z ≤ y} z) : z % 4 = 0 ↔ WholeFiller Z := by
  obtain ⟨⟨hmem, hge⟩, hleast⟩ := hz
  have hle (y : Nat) (hy : y ∈ liftingSizes) (h : Z ≤ y) : z ≤ y := hleast ⟨hy, h⟩
  simp only [mem_liftingSizes_iff] at hmem hle
  have h2 := hle 2 (by omega)
  have hself := hle Z
  have hnext := hle (Z + 1)
  unfold WholeFiller
  omega

/-- The filler ends with an octet exactly if the columns allow it. -/
theorem eight_dvd_iff {B : Nat} {BG : UInt8} (hB : 1 ≤ B) {z : Nat}
    (hz : IsLeast {y | y ∈ liftingSizes ∧ codeBlockBits B BG ≤ segmentKb B BG * y} z) :
    8 ∣ z * segmentColumns BG ↔ WholeFiller (filledColumns B BG) := by
  have hKb := segmentKb_pos B BG
  have hfour : 8 ∣ z * segmentColumns BG ↔ z % 4 = 0 := by
    unfold segmentColumns
    split_ifs <;> omega
  rw [hfour]
  rcases Nat.lt_or_ge (maxCodeBlock BG) B with hmany | hone
  · have hbits := le_codeBlockBits hmany
    have hKbmax : segmentKb B BG ≤ 22 := by
      unfold segmentKb
      split_ifs <;> omega
    have hz32 : 32 < z := by
      have := hbits.trans (hz.1.2.trans (Nat.mul_le_mul_right z hKbmax))
      omega
    have hfilled : 33 ≤ filledColumns B BG := by
      unfold filledColumns
      rw [Nat.le_div_iff_mul_le hKb]
      rcases maxCodeBlock_eq BG with h | h <;> omega
    exact iff_of_true ((mem_liftingSizes_iff.1 hz.1.1).2.2.2.1 hz32) (.inl hfilled)
  · rw [codeBlockBits_of_le hone] at hz
    have hceil (y : Nat) : filledColumns B BG ≤ y ↔ B ≤ segmentKb B BG * y := by
      unfold filledColumns
      rw [Nat.div_le_iff_le_mul_add_pred hKb]
      omega
    simp only [← hceil] at hz
    refine wholeFiller_iff ?_ hz
    by_contra h
    have := (hceil 0).1 (by omega)
    omega

theorem segmentsRight_of_fits {B : BitVec 32} {BG : UInt8} (hB : 1 ≤ B.toNat)
    (hfits : bitsWithCrc B.toNat BG < 2 ^ 32)
    (hwhole : 8 ∣ B.toNat → WholeFiller (filledColumns B.toNat BG)) : SegmentsRight B BG := by
  obtain ⟨z, hz, hseg⟩ := nrSegmentation_of_fits hfits
  have hK : codeBlockBits B.toNat BG ≤ z * segmentColumns BG :=
    hz.1.2.trans ((Nat.mul_le_mul_right z (segmentKb_le B.toNat BG)).trans_eq (Nat.mul_comm _ _))
  refine ⟨z, hz, hK, hseg none, fun inputBuffer outputBuffers hinput hlen hcap => ?_⟩
  have hcrc := codeBlockCrc_le B.toNat BG
  have hmax := codeBlockBits_le B.toNat BG
  have hbitlen : codeBlockBits B.toNat BG - codeBlockCrc B.toNat BG +
      (if codeBlockCount B.toNat BG > 1 then 24 else 0) = codeBlockBits B.toNat BG := by
    rw [ite_codeBlockCount]
    omega
  have hpayload : codeBlockCount B.toNat BG *
      (codeBlockBits B.toNat BG - codeBlockCrc B.toNat BG) ≤ B.toNat := by
    have hmul := Nat.mul_div_le (bitsWithCrc B.toNat BG) (codeBlockCount B.toNat BG)
    rw [Nat.mul_sub]
    change codeBlockCount B.toNat BG * codeBlockBits B.toNat BG ≤ _ at hmul
    unfold bitsWithCrc at hmul
    omega
  have hread : 0 + codeBlockCount B.toNat BG *
      ((codeBlockBits B.toNat BG - codeBlockCrc B.toNat BG) / 8) ≤ inputBuffer.length := by
    have hdiv := Nat.mul_div_le_mul_div_assoc (codeBlockCount B.toNat BG)
      (codeBlockBits B.toNat BG - codeBlockCrc B.toNat BG) 8
    omega
  obtain ⟨blocks, hblocks, hright⟩ := segmentBlocks_eq hbitlen hK
    (by rcases maxCodeBlock_eq BG with h | h <;> omega) hlen hcap hread
  refine ⟨blocks, ?_, fun h8 hC8 => ?_⟩
  · rw [hseg]
    dsimp only
    rw [hblocks]
    rfl
  · have hcrc8 : 8 ∣ codeBlockCrc B.toNat BG := by
      unfold codeBlockCrc
      split <;> decide
    obtain ⟨q, hq⟩ := hC8
    have hbits : codeBlockBits B.toNat BG = 8 * q := by
      unfold codeBlockBits
      rw [hq, Nat.mul_comm 8, Nat.mul_assoc, Nat.mul_div_cancel_left _ (codeBlockCount_pos _ _)]
    obtain ⟨hpay, hcrcs, hfiller⟩ := hright (by omega)
    refine ⟨?_, hcrcs, hfiller ((eight_dvd_iff hB hz).2 (hwhole h8))⟩
    have hcount : codeBlockCount B.toNat BG *
        ((codeBlockBits B.toNat BG - codeBlockCrc B.toNat BG) / 8) = B.toNat / 8 := by
      obtain ⟨l, hl⟩ := hcrc8
      have hdiv : (codeBlockBits B.toNat BG - codeBlockCrc B.toNat BG) / 8 = q - l := by omega
      have hsum : B.toNat + 8 * (codeBlockCount B.toNat BG * l) =
          8 * (codeBlockCount B.toNat BG * q) := by
        unfold bitsWithCrc at hq
        rw [hl] at hq
        linarith
      rw [hdiv, Nat.mul_sub]
      omega
    rw [hpay, List.drop_zero, hcount]

/-- Where the number of bits wraps around, the code blocks seem to be short. -/
theorem nrSegmentation_of_wraps {B : BitVec 32} {BG : UInt8}
    (hwraps : 2 ^ 32 ≤ bitsWithCrc B.toNat BG) :
    ∃ seg, nrSegmentation none B BG = .ok seg ∧ seg.Zout ≤ 3 := by
  have hlt := B.isLt
  have hcount := codeBlockCount_pos B.toNat BG
  have hbits : bitsWithCrc B.toNat BG < 2 ^ 32 + codeBlockCount B.toNat BG * 24 := by
    have hcrc : codeBlockCrc B.toNat BG ≤ 24 := by
      unfold codeBlockCrc
      split <;> decide
    have := Nat.mul_le_mul_left (codeBlockCount B.toNat BG) hcrc
    unfold bitsWithCrc
    omega
  have hbig : 640 < B.toNat ∧ codeBlockCount B.toNat BG * 24 < 2 ^ 32 := by
    unfold bitsWithCrc codeBlockCount codeBlockCrc at hwraps
    unfold codeBlockCount
    split_ifs at hwraps ⊢
    · omega
    · rcases maxCodeBlock_eq BG with h | h <;> rw [h] at hwraps ⊢ <;> omega
  have hwrapped : uint32 (bitsWithCrc B.toNat BG) < codeBlockCount B.toNat BG * 24 := by
    unfold uint32
    omega
  have hKprime : uint32 (bitsWithCrc B.toNat BG) / codeBlockCount B.toNat BG < 24 :=
    Nat.div_lt_of_lt_mul hwrapped
  have hKb : 8 ≤ segmentKb B.toNat BG := by
    unfold segmentKb
    split_ifs <;> omega
  have hZ := (ceil_le_iff (n := uint32 (bitsWithCrc B.toNat BG) / codeBlockCount B.toNat BG)
    (y := 3) (segmentKb_pos B.toNat BG)).2 (by omega)
  obtain ⟨z, hz, -, hleast⟩ := liftingSize_eq (hZ.trans (by decide))
  refine ⟨⟨segmentKb B.toNat BG, codeBlockCount B.toNat BG, z * segmentColumns BG, z,
    z * segmentColumns BG - uint32 (bitsWithCrc B.toNat BG) / codeBlockCount B.toNat BG, []⟩,
    ?_, hleast ⟨by decide, hZ⟩⟩
  unfold nrSegmentation
  simp only [codeBlockSplit_eq BG B.isLt, hz]
  rfl

theorem bitsOf_replicate_ones (n : Nat) :
    bitsOf (List.replicate n 0xff) = List.replicate (8 * n) true := by
  induction n with
  | zero => rfl
  | succ n ih =>
    rw [List.replicate_succ, bitsOf_cons, ih, Nat.mul_succ, Nat.add_comm, List.replicate_add]
    rfl

/-- The last bits of the filler stay as they were if they do not end an octet. -/
theorem wholeFiller_of_segmentsRight {B : BitVec 32} {BG : UInt8} (hB : 1 ≤ B.toNat)
    (h8 : 8 ∣ B.toNat) (h : SegmentsRight B BG) : WholeFiller (filledColumns B.toNat BG) := by
  by_contra hnot
  have hKb : segmentKb B.toNat BG ≤ 22 := by
    unfold segmentKb
    split_ifs <;> omega
  have hone : B.toNat ≤ maxCodeBlock BG := by
    have hfew : filledColumns B.toNat BG ≤ 32 := not_lt.1 fun hlt => hnot (.inl hlt)
    unfold filledColumns at hfew
    rw [Nat.div_le_iff_le_mul_add_pred (segmentKb_pos B.toNat BG)] at hfew
    rcases maxCodeBlock_eq BG with h | h <;> omega
  have hC : codeBlockCount B.toNat BG = 1 := if_pos hone
  have hL : codeBlockCrc B.toNat BG = 0 := if_pos hone
  have hKprime := codeBlockBits_of_le hone
  have hbits : bitsWithCrc B.toNat BG = B.toNat := by
    unfold bitsWithCrc
    rw [hL, Nat.mul_zero, Nat.add_zero]
  obtain ⟨z, hz, hK, -, hblocks⟩ := h
  obtain ⟨z', hz', hseg⟩ := nrSegmentation_of_fits (hbits.trans_lt B.isLt)
  cases hz.unique hz'
  have hpartial := mt (eight_dvd_iff hB hz).1 hnot
  have hinput : B.toNat ≤ 8 * (List.replicate (B.toNat / 8) (0 : UInt8)).length := by
    rw [List.length_replicate]
    omega
  obtain ⟨blocks, hok, hright⟩ := hblocks (List.replicate (B.toNat / 8) 0)
    [List.replicate (z * segmentColumns BG) 0xff] hinput hC.symm (by simp; omega)
  have hfiller := (hright h8 (by rw [hC, hbits]; exact h8)).filler
  rw [hKprime] at hK hfiller
  obtain ⟨xs, hxs, hblock⟩ : ∃ xs : List UInt8, xs.length = z * segmentColumns BG / 8 ∧
      segmentBlock (List.replicate (B.toNat / 8) 0) 1 B.toNat B.toNat (z * segmentColumns BG)
        (z * segmentColumns BG - B.toNat) 0 (List.replicate (z * segmentColumns BG) 0xff) =
          .ok ((), overwrite (List.replicate (z * segmentColumns BG) 0xff) 0 xs) := by
    have hcap : z * segmentColumns BG ≤
        8 * (List.replicate (z * segmentColumns BG) (0xff : UInt8)).length := by
      rw [List.length_replicate]
      omega
    have hread : 0 + B.toNat / 8 ≤ (List.replicate (B.toNat / 8) (0 : UInt8)).length := by
      rw [List.length_replicate]
      omega
    obtain ⟨crcs, hcrcs, -, hblock⟩ := segmentBlock_eq (C := 1)
      (show B.toNat + (if 1 > 1 then 24 else 0) = B.toNat from rfl) hK hcap hread
      (by rcases maxCodeBlock_eq BG with h | h <;> omega)
    refine ⟨_, ?_, hblock⟩
    rw [if_neg (by decide)] at hcrcs
    rw [List.length_append, List.length_append, hcrcs, List.length_replicate, List.length_take,
      List.drop_zero, List.length_replicate]
    omega
  have hout : blocks = [overwrite (List.replicate (z * segmentColumns BG) 0xff) 0 xs] := by
    rw [hseg] at hok
    dsimp only at hok
    rw [hC, hL, hKprime, Nat.sub_zero, segmentBlocks, hblock] at hok
    cases hok
    rfl
  have hlast := hfiller _ (hout ▸ List.mem_singleton_self _) (z * segmentColumns BG - 1) (by omega)
    (by omega)
  have hbitsxs : (bitsOf xs).length = 8 * (z * segmentColumns BG / 8) := by
    rw [length_bitsOf, hxs]
  -- the last bit of the block is in the octet behind the cleared ones
  rw [bitsOf_written hxs, List.getElem?_append_right (by omega), List.drop_replicate,
    bitsOf_replicate_ones, List.getElem?_replicate, if_pos (by omega)] at hlast
  cases hlast

/-- The segmentation is right exactly if the number of bits with the CRCs does not wrap around, and
the lifting size for a transport block of whole octets is a multiple of four. -/
theorem nrSegmentation_iff (B : BitVec 32) (BG : UInt8) (hB : 1 ≤ B.toNat) :
    SegmentsRight B BG ↔ bitsWithCrc B.toNat BG < 2 ^ 32 ∧
      (8 ∣ B.toNat → WholeFiller (filledColumns B.toNat BG)) := by
  constructor
  · intro h
    refine ⟨?_, fun h8 => wholeFiller_of_segmentsRight hB h8 h⟩
    by_contra hwraps
    obtain ⟨seg, hseg, hsmall⟩ := nrSegmentation_of_wraps (not_lt.1 hwraps)
    obtain ⟨z, hz, -, hok, -⟩ := h
    rw [hseg] at hok
    cases hok
    have hmany : maxCodeBlock BG < B.toNat := by
      by_contra hone
      refine hwraps ?_
      unfold bitsWithCrc codeBlockCrc
      rw [if_pos (not_lt.1 hone), Nat.mul_zero, Nat.add_zero]
      exact B.isLt
    have hlong := (le_codeBlockBits hmany).trans (hz.1.2.trans
      (Nat.mul_le_mul_left _ hsmall))
    have hKb : segmentKb B.toNat BG ≤ 22 := by
      unfold segmentKb
      split_ifs <;> omega
    omega
  · rintro ⟨hfits, hwhole⟩
    exact segmentsRight_of_fits hB hfits hwhole

theorem nrSegmentation_iff_largest : SegmentsRight 8448 1 ↔
    bitsWithCrc (8448#32).toNat 1 < 2 ^ 32 ∧
      (8 ∣ (8448#32).toNat → WholeFiller (filledColumns (8448#32).toNat 1)) :=
  nrSegmentation_iff 8448 1 (by decide)

/-- Five octets in a code block of 70 bits : the last six bits of the filler are not cleared. -/
theorem not_segmentsRight_five_octets : ¬ SegmentsRight 40 2 := by
  intro h
  have hfill := wholeFiller_of_segmentsRight (by decide) (by decide) h
  unfold WholeFiller at hfill
  revert hfill
  decide

end NrStack
