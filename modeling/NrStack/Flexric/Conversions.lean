import NrStack.Library.ByteBits

/-!
# E2SM identifiers as bit strings

The conversions of `conversions.c` between the identifiers and their bit strings. Most of them write
the octets from the low one on, the last one shifted over the unused bits, and read them back with
shifts of an `int`. Octet 3 of the NR cell identity is shifted into the sign of it, and the sign
fills the upper half of the `uint64_t` : the conversions round trip except there (`roundTrips_iff`).
-/

namespace NrStack

/-- `BIT_STRING_t` -/
structure BitString where
  buf : List UInt8
  size : Nat
  bitsUnused : Nat
deriving DecidableEq, Repr

/-! ## The identifiers with the low octet first -/

/-- The conversions from an identifier of `n` octets with `unused` bits, below `bound` by an
assertion. -/
def idToBitString {w : Nat} (bound unused n : Nat) (val : BitVec w) : Option BitString :=
  if val.toNat < bound then
    some {
      buf := (List.range (n - 1)).map (fun i => octet (val >>> (8 * i))) ++
        [octet (val >>> (8 * (n - 1)) <<< unused)]
      size := n
      bitsUnused := unused }
  else none

/-- An octet shifted as an `int`, in a `uint64_t`. -/
def shiftInt (b : UInt8) (s : Nat) : BitVec 64 :=
  (b.toBitVec.setWidth 32 <<< s).signExtend 64

/-- The conversions back : the last octet first, then the others with their shifts. -/
def bitStringToId (unused n : Nat) (src : BitString) : Option (BitVec 64) :=
  if src.bitsUnused ≠ unused ∨ src.size ≠ n then none
  else
    let dst := shiftInt (src.buf.getD (n - 1) 0) 0 >>> unused
    some ((List.range (n - 1)).reverse.foldl
      (fun dst i => dst ||| shiftInt (src.buf.getD i 0) (8 * i))
      (dst <<< (8 * (n - 1))))

/-- Those that return a `uint32_t`. -/
def bitStringToId32 (unused n : Nat) (src : BitString) : Option (BitVec 32) :=
  (bitStringToId unused n src).map (·.setWidth 32)

def cpNrCellIdToBitString : BitVec 64 → Option BitString := idToBitString 68719476736 4 5

def cpNrCellIdToU64 : BitString → Option (BitVec 64) := bitStringToId 4 5

def cpEutraCellIdToBitString : BitVec 32 → Option BitString := idToBitString 268435456 4 4

def cpEutraCellIdToU32 : BitString → Option (BitVec 32) := bitStringToId32 4 4

def cpMacroEnbIdToBitString : BitVec 32 → Option BitString := idToBitString 1048576 4 3

def cpMacroEnbIdToU32 : BitString → Option (BitVec 32) := bitStringToId32 4 3

def cpHomeEnbIdToBitString : BitVec 32 → Option BitString := idToBitString 268435456 4 4

def cpHomeEnbIdToU32 : BitString → Option (BitVec 32) := bitStringToId32 4 4

def cpShortMacroEnbIdToBitString : BitVec 32 → Option BitString := idToBitString 262144 6 3

def cpShortMacroEnbIdToU32 : BitString → Option (BitVec 32) := bitStringToId32 6 3

def cpLongMacroEnbIdToBitString : BitVec 32 → Option BitString := idToBitString 2097152 3 3

def cpLongMacroEnbIdToU32 : BitString → Option (BitVec 32) := bitStringToId32 3 3

def cpMacroNgEnbIdToBitString : BitVec 32 → Option BitString := idToBitString 1048576 4 3

def cpMacroNgEnbIdToU32 : BitString → Option (BitVec 32) := bitStringToId32 4 3

def cpShortMacroNgEnbIdToBitString : BitVec 32 → Option BitString := idToBitString 262144 6 3

def cpShortMacroNgEnbIdToU32 : BitString → Option (BitVec 32) := bitStringToId32 6 3

def cpLongMacroNgEnbIdToBitString : BitVec 32 → Option BitString := idToBitString 2097152 3 3

def cpLongMacroNgEnbIdToU32 : BitString → Option (BitVec 32) := bitStringToId32 3 3

/-! ## The AMF set id and pointer -/

/-- The shifts are of an `int`. -/
def cpAmfSetIdToBitString (val : BitVec 16) : Option BitString :=
  if val.toNat < 1024 then
    let int := val.setWidth 32
    some { buf := [octet (int <<< 6 >>> 8), octet (int <<< 6)], size := 2, bitsUnused := 6 }
  else none

def cpAmfSetIdToU16 (src : BitString) : Option (BitVec 16) :=
  if src.bitsUnused ≠ 6 ∨ src.size ≠ 2 then none
  else
    let high := (src.buf.getD 0 0).toBitVec.setWidth 32
    let low := (src.buf.getD 1 0).toBitVec.setWidth 32
    some ((high <<< 8 >>> 6 ||| low >>> 6).setWidth 16)

def cpAmfPtrToBitString (src : BitVec 8) : Option BitString :=
  if src.toNat < 64 then some { buf := [octet (src <<< 2)], size := 1, bitsUnused := 2 } else none

def cpAmfPtrToU8 (src : BitString) : Option (BitVec 8) :=
  if src.bitsUnused ≠ 2 ∨ src.size ≠ 1 then none
  else some ((src.buf.getD 0 0).toBitVec >>> 2)

/-! ## The gNB id -/

/-- `e2ap_gnb_id_t` -/
structure GnbId where
  nbId : BitVec 32
  unused : Nat
deriving DecidableEq, Repr

/-- The octets from the high one on. The last one is masked before it is shifted. -/
def cpGnbIdToBitString (src : GnbId) : Option BitString :=
  if src.unused < 11 ∧ src.nbId.toNat >>> (32 - src.unused) = 0 then
    if src.unused > 7 then
      let unused := src.unused - 8
      let m := 0xFF#32 >>> unused
      some {
        buf := [octet (src.nbId >>> (16 - unused)), octet (src.nbId >>> (8 - unused)),
          octet ((src.nbId &&& m) <<< unused)]
        size := 3
        bitsUnused := src.unused % 8 }
    else
      let m := 0xFF#32 >>> src.unused
      some {
        buf := [octet (src.nbId >>> (24 - src.unused)), octet (src.nbId >>> (16 - src.unused)),
          octet (src.nbId >>> (8 - src.unused)), octet ((src.nbId &&& m) <<< src.unused)]
        size := 4
        bitsUnused := src.unused % 8 }
  else none

def cpBitStringToGnbId (src : BitString) : Option GnbId :=
  let word i := (src.buf.getD i 0).toBitVec.setWidth 32
  if src.bitsUnused < 8 then
    if src.size = 3 then
      if src.bitsUnused < 3 then
        some {
          nbId := word 0 <<< (16 - src.bitsUnused) ||| word 1 <<< (8 - src.bitsUnused) |||
            word 2 >>> src.bitsUnused
          unused := src.bitsUnused + 8 }
      else none
    else if src.size = 4 then
      some {
        nbId := word 0 <<< (24 - src.bitsUnused) ||| word 1 <<< (16 - src.bitsUnused) |||
          word 2 <<< (8 - src.bitsUnused) ||| word 3 >>> src.bitsUnused
        unused := src.bitsUnused }
    else none
  else none

/-! ## Round trips -/

/-- An identifier of one of the kinds. -/
inductive E2smId
  | amfSetId (val : BitVec 16)
  | amfPtr (val : BitVec 8)
  | nrCellId (val : BitVec 64)
  | gnbId (src : GnbId)
  | eutraCellId (val : BitVec 32)
  | macroEnbId (val : BitVec 32)
  | homeEnbId (val : BitVec 32)
  | shortMacroEnbId (val : BitVec 32)
  | longMacroEnbId (val : BitVec 32)
  | macroNgEnbId (val : BitVec 32)
  | shortMacroNgEnbId (val : BitVec 32)
  | longMacroNgEnbId (val : BitVec 32)
deriving DecidableEq, Repr

namespace E2smId

/-- The conversion of the kind, or its assertion. -/
def toBitString : E2smId → Option BitString
  | amfSetId val => cpAmfSetIdToBitString val
  | amfPtr val => cpAmfPtrToBitString val
  | nrCellId val => cpNrCellIdToBitString val
  | gnbId src => cpGnbIdToBitString src
  | eutraCellId val => cpEutraCellIdToBitString val
  | macroEnbId val => cpMacroEnbIdToBitString val
  | homeEnbId val => cpHomeEnbIdToBitString val
  | shortMacroEnbId val => cpShortMacroEnbIdToBitString val
  | longMacroEnbId val => cpLongMacroEnbIdToBitString val
  | macroNgEnbId val => cpMacroNgEnbIdToBitString val
  | shortMacroNgEnbId val => cpShortMacroNgEnbIdToBitString val
  | longMacroNgEnbId val => cpLongMacroNgEnbIdToBitString val

/-- The conversion back to the kind of `id`. -/
def readAs (id : E2smId) (src : BitString) : Option E2smId :=
  match id with
  | amfSetId _ => (cpAmfSetIdToU16 src).map amfSetId
  | amfPtr _ => (cpAmfPtrToU8 src).map amfPtr
  | nrCellId _ => (cpNrCellIdToU64 src).map nrCellId
  | gnbId _ => (cpBitStringToGnbId src).map gnbId
  | eutraCellId _ => (cpEutraCellIdToU32 src).map eutraCellId
  | macroEnbId _ => (cpMacroEnbIdToU32 src).map macroEnbId
  | homeEnbId _ => (cpHomeEnbIdToU32 src).map homeEnbId
  | shortMacroEnbId _ => (cpShortMacroEnbIdToU32 src).map shortMacroEnbId
  | longMacroEnbId _ => (cpLongMacroEnbIdToU32 src).map longMacroEnbId
  | macroNgEnbId _ => (cpMacroNgEnbIdToU32 src).map macroNgEnbId
  | shortMacroNgEnbId _ => (cpShortMacroNgEnbIdToU32 src).map shortMacroNgEnbId
  | longMacroNgEnbId _ => (cpLongMacroNgEnbIdToU32 src).map longMacroNgEnbId

/-- The bits of an identifier. -/
def bitLength : E2smId → Nat
  | amfSetId _ => 10
  | amfPtr _ => 6
  | nrCellId _ => 36
  | gnbId src => 32 - src.unused
  | eutraCellId _ => 28
  | macroEnbId _ => 20
  | homeEnbId _ => 28
  | shortMacroEnbId _ => 18
  | longMacroEnbId _ => 21
  | macroNgEnbId _ => 20
  | shortMacroNgEnbId _ => 18
  | longMacroNgEnbId _ => 21

/-- The bit string has the bits of the identifier in its octets, and reads back as it. -/
def RoundTrips (id : E2smId) : Prop :=
  ∃ s, id.toBitString = some s ∧ s.buf.length = s.size ∧ s.bitsUnused < 8 ∧
    8 * s.size = id.bitLength + s.bitsUnused ∧ id.readAs s = some id

end E2smId

/-! ## The octets -/

/-- The sign bit of the `int` fills the upper half. -/
theorem getLsbD_shiftInt (b : UInt8) {s : Nat} (hs : s ≤ 24) {k : Nat} (hk : k < 64) :
    (shiftInt b s).getLsbD k =
      if k < 32 then decide (s ≤ k) && byteBit b (k - s) else byteBit b (31 - s) := by
  have hbit : ∀ j < 32, (b.toBitVec.setWidth 32 <<< s).getLsbD j =
      (decide (s ≤ j) && byteBit b (j - s)) := fun j hj => by
    rw [BitVec.getLsbD_shiftLeft, getLsbD_toBitVec_setWidth b (by decide), decide_eq_true hj,
      Bool.true_and, ← decide_not, decide_eq_decide.2 Nat.not_lt]
  rw [shiftInt, BitVec.getLsbD_signExtend, decide_eq_true hk, Bool.true_and,
    BitVec.msb_eq_getLsbD_last, hbit 31 (by decide), decide_eq_true (by omega : s ≤ 31),
    Bool.true_and]
  split_ifs with h
  · exact hbit k h
  · rfl

section Octets

variable {w bound unused n : Nat} {val : BitVec w} {s : BitString}

theorem eq_of_idToBitString (h : idToBitString bound unused n val = some s) :
    val.toNat < bound ∧ s = ⟨(List.range (n - 1)).map (fun i => octet (val >>> (8 * i))) ++
      [octet (val >>> (8 * (n - 1)) <<< unused)], n, unused⟩ := by
  unfold idToBitString at h
  split_ifs at h with hlt
  exact ⟨hlt, (Option.some.inj h).symm⟩

/-- The bits of the octets before the last one. -/
theorem byteBit_idToBitString (h : idToBitString bound unused n val = some s) {i : Nat}
    (hi : i < n - 1) (k : Nat) :
    byteBit (s.buf.getD i 0) k = (decide (k < 8) && val.getLsbD (8 * i + k)) := by
  obtain ⟨-, rfl⟩ := eq_of_idToBitString h
  have hget : ((List.range (n - 1)).map (fun i => octet (val >>> (8 * i))) ++
      [octet (val >>> (8 * (n - 1)) <<< unused)]).getD i 0 = octet (val >>> (8 * i)) := by
    rw [List.getD_eq_getElem?_getD, List.getElem?_append_left (by simpa using hi)]
    simp [hi]
  rw [hget, byteBit_octet, BitVec.getLsbD_ushiftRight]

/-- The last one keeps what is left of the value. -/
theorem byteBit_idToBitString_last (h : idToBitString bound unused n val = some s)
    (hw : 8 ≤ w) {k : Nat} (hk : k + unused < 8) :
    byteBit (s.buf.getD (n - 1) 0) (k + unused) = val.getLsbD (8 * (n - 1) + k) := by
  obtain ⟨-, rfl⟩ := eq_of_idToBitString h
  have hget : ((List.range (n - 1)).map (fun i => octet (val >>> (8 * i))) ++
      [octet (val >>> (8 * (n - 1)) <<< unused)]).getD (n - 1) 0 =
      octet (val >>> (8 * (n - 1)) <<< unused) := by
    rw [List.getD_eq_getElem?_getD, List.getElem?_append_right (by simp)]
    simp
  have hlt : k + unused < w := by omega
  rw [hget, byteBit_octet, BitVec.getLsbD_shiftLeft, BitVec.getLsbD_ushiftRight, decide_eq_true hk,
    decide_eq_true hlt, decide_eq_false (by omega), Nat.add_sub_cancel]
  rfl

/-- The value has no other bits. -/
theorem getLsbD_of_idToBitString (h : idToBitString (2 ^ (8 * n - unused)) unused n val = some s)
    {k : Nat} (hk : 8 * n - unused ≤ k) : val.getLsbD k = false :=
  getLsbD_of_lt (eq_of_idToBitString h).1 hk

theorem getLsbD_last (h : idToBitString (2 ^ (8 * n - unused)) unused n val = some s)
    (hw : 8 ≤ w) {k : Nat} (hk : k < 64) :
    (shiftInt (s.buf.getD (n - 1) 0) 0 >>> unused <<< (8 * (n - 1))).getLsbD k =
      (decide (8 * (n - 1) ≤ k) && val.getLsbD k) := by
  rw [BitVec.getLsbD_shiftLeft, BitVec.getLsbD_ushiftRight, decide_eq_true hk, Bool.true_and,
    ← decide_not, decide_eq_decide.2 Nat.not_lt]
  by_cases hle : 8 * (n - 1) ≤ k
  · rw [decide_eq_true hle, Bool.true_and, Bool.true_and]
    rcases Nat.lt_or_ge (k - 8 * (n - 1) + unused) 8 with hin | hout
    · have hpos : unused + (k - 8 * (n - 1)) < 64 := by omega
      have hval : 8 * (n - 1) + (k - 8 * (n - 1)) = k := by omega
      have hbyte := byteBit_idToBitString_last h hw hin
      rw [hval, Nat.add_comm] at hbyte
      rw [getLsbD_shiftInt _ (by decide) hpos, if_pos (by omega), Nat.sub_zero, hbyte,
        decide_eq_true (Nat.zero_le _), Bool.true_and]
    · rw [getLsbD_of_idToBitString h (by omega)]
      rcases Nat.lt_or_ge (unused + (k - 8 * (n - 1))) 64 with hlt | hge
      · rw [getLsbD_shiftInt _ (by decide) hlt]
        split_ifs
        · rw [byteBit_of_ge (by omega), Bool.and_false]
        · exact byteBit_of_ge (by decide)
      · exact BitVec.getLsbD_of_ge _ _ hge
  · rw [decide_eq_false hle, Bool.false_and, Bool.false_and]

/-- Bit 31 is the top bit of octet 3. -/
theorem any_shiftInt (h : idToBitString bound unused n val = some s) (hn5 : n ≤ 5) {k : Nat}
    (hk : k < 64) :
    ((List.range (n - 1)).any fun i => (shiftInt (s.buf.getD i 0) (8 * i)).getLsbD k) =
      if k < 32 then decide (k < 8 * (n - 1)) && val.getLsbD k
      else decide (n = 5) && val.getLsbD 31 := by
  have hbit : ∀ i < n - 1, (shiftInt (s.buf.getD i 0) (8 * i)).getLsbD k =
      if k < 32 then decide (8 * i ≤ k ∧ k < 8 * i + 8) && val.getLsbD k
      else decide (i = 3) && val.getLsbD 31 := by
    intro i hi
    rw [getLsbD_shiftInt _ (by omega) hk, byteBit_idToBitString h hi, byteBit_idToBitString h hi]
    split_ifs with h32
    · by_cases hle : 8 * i ≤ k
      · have hval : 8 * i + (k - 8 * i) = k := by omega
        have hiff : k - 8 * i < 8 ↔ k < 8 * i + 8 := by omega
        simp [hle, hval, hiff]
      · simp [hle]
    · by_cases hi3 : i = 3
      · subst hi3
        simp
      · have hge : ¬31 - 8 * i < 8 := by omega
        simp [hi3, hge]
  rw [Bool.eq_iff_iff, List.any_eq_true]
  constructor
  · rintro ⟨i, hi, hany⟩
    rw [List.mem_range] at hi
    rw [hbit i hi] at hany
    split_ifs at hany ⊢ with h32
    · simp only [Bool.and_eq_true, decide_eq_true_eq] at hany ⊢
      exact ⟨by omega, hany.2⟩
    · simp only [Bool.and_eq_true, decide_eq_true_eq] at hany ⊢
      exact ⟨by omega, hany.2⟩
  · intro hval
    split_ifs at hval with h32
    · simp only [Bool.and_eq_true, decide_eq_true_eq] at hval
      refine ⟨k / 8, List.mem_range.2 (by omega), ?_⟩
      rw [hbit _ (by omega), if_pos h32, hval.2, decide_eq_true (by omega)]
      rfl
    · simp only [Bool.and_eq_true, decide_eq_true_eq] at hval
      refine ⟨3, List.mem_range.2 (by omega), ?_⟩
      rw [hbit _ (by omega), if_neg h32, hval.2]
      rfl

/-- What the conversion back returns : the value, with bit 31 over the upper half if there is an
octet behind it. -/
theorem getLsbD_bitStringToId (h : idToBitString (2 ^ (8 * n - unused)) unused n val = some s)
    (hn5 : n ≤ 5) (hw : 8 ≤ w) :
    ∃ y, bitStringToId unused n s = some y ∧ ∀ k < 64,
      y.getLsbD k = (val.getLsbD k || decide (n = 5 ∧ 32 ≤ k) && val.getLsbD 31) := by
  have hs := (eq_of_idToBitString h).2
  refine ⟨_, by rw [bitStringToId, if_neg (by simp [hs])], fun k hk => ?_⟩
  rw [getLsbD_foldl_or, List.any_reverse, getLsbD_last h hw hk, any_shiftInt h hn5 hk]
  split_ifs with h32
  · have hno : ¬(n = 5 ∧ 32 ≤ k) := by omega
    rw [decide_eq_false hno, Bool.false_and, Bool.or_false]
    rcases Nat.lt_or_ge k (8 * (n - 1)) with hlt | hge
    · simp [hlt, hlt.not_ge]
    · simp [hge, hge.not_gt]
  · have hge : 8 * (n - 1) ≤ k := by omega
    have hiff : n = 5 ∧ 32 ≤ k ↔ n = 5 := by omega
    rw [decide_eq_true hge, Bool.true_and, decide_eq_decide.2 hiff]

/-- The bit string has the size and the unused bits of the kind. -/
theorem shape_of_idToBitString (h : idToBitString bound unused n val = some s) (hn : 1 ≤ n) :
    s.buf.length = s.size ∧ s.size = n ∧ s.bitsUnused = unused := by
  obtain ⟨-, rfl⟩ := eq_of_idToBitString h
  refine ⟨?_, rfl, rfl⟩
  simp only [List.length_append, List.length_map, List.length_range, List.length_singleton]
  omega

end Octets

/-- Up to four octets, the value comes back. -/
theorem bitStringToId32_eq {unused n : Nat} {val : BitVec 32} {s : BitString}
    (h : idToBitString (2 ^ (8 * n - unused)) unused n val = some s) (hn4 : n ≤ 4) :
    bitStringToId32 unused n s = some val := by
  obtain ⟨y, hy, hbits⟩ := getLsbD_bitStringToId h (by omega) (by decide)
  rw [bitStringToId32, hy, Option.map_some, Option.some_inj]
  refine BitVec.eq_of_getLsbD_eq fun k hk => ?_
  have hno : ¬(n = 5 ∧ 32 ≤ k) := by omega
  rw [BitVec.getLsbD_setWidth, hbits k (by omega), decide_eq_true hk, decide_eq_false hno]
  simp

/-- Five octets come back if bit 31 is not set. -/
theorem cpNrCellIdToU64_eq_some_iff {val : BitVec 64} {s : BitString}
    (h : cpNrCellIdToBitString val = some s) :
    cpNrCellIdToU64 s = some val ↔ val.getLsbD 31 = false := by
  have hid : idToBitString (2 ^ (8 * 5 - 4)) 4 5 val = some s := h
  obtain ⟨y, hy, hbits⟩ := getLsbD_bitStringToId hid le_rfl (by decide)
  rw [cpNrCellIdToU64, hy, Option.some_inj]
  constructor
  · rintro rfl
    have htop := getLsbD_of_idToBitString hid (by decide : 8 * 5 - 4 ≤ 63)
    have hsign := hbits 63 (by decide)
    rw [htop] at hsign
    simpa using hsign
  · intro h31
    refine BitVec.eq_of_getLsbD_eq fun k hk => ?_
    rw [hbits k hk, h31, Bool.and_false, Bool.or_false]

/-! ## The other kinds -/

theorem cpAmfSetIdToU16_eq {val : BitVec 16} {s : BitString}
    (h : cpAmfSetIdToBitString val = some s) :
    s.buf.length = s.size ∧ s.size = 2 ∧ s.bitsUnused = 6 ∧ cpAmfSetIdToU16 s = some val := by
  unfold cpAmfSetIdToBitString at h
  split_ifs at h with hlt
  cases h
  refine ⟨rfl, rfl, rfl, ?_⟩
  rw [cpAmfSetIdToU16, if_neg (by simp), Option.some_inj]
  refine BitVec.eq_of_getLsbD_eq fun k hk => ?_
  have hzero : ∀ k, 10 ≤ k → val.getLsbD k = false := fun k hk => getLsbD_of_lt hlt hk
  simp only [List.getD_cons_zero, List.getD_cons_succ, BitVec.getLsbD_setWidth, BitVec.getLsbD_or,
    BitVec.getLsbD_ushiftRight, BitVec.getLsbD_shiftLeft,
    getLsbD_toBitVec_setWidth _ (by decide : 8 ≤ 32), byteBit_octet]
  rcases Nat.lt_or_ge k 10 with hlow | hhigh
  · interval_cases k <;> simp
  · rw [hzero k hhigh]
    interval_cases k <;> simp

theorem cpAmfPtrToU8_eq {val : BitVec 8} {s : BitString} (h : cpAmfPtrToBitString val = some s) :
    s.buf.length = s.size ∧ s.size = 1 ∧ s.bitsUnused = 2 ∧ cpAmfPtrToU8 s = some val := by
  unfold cpAmfPtrToBitString at h
  split_ifs at h with hlt
  cases h
  refine ⟨rfl, rfl, rfl, ?_⟩
  rw [cpAmfPtrToU8, if_neg (by simp), Option.some_inj]
  refine BitVec.eq_of_getLsbD_eq fun k hk => ?_
  have hzero : ∀ k, 6 ≤ k → val.getLsbD k = false := fun k hk => getLsbD_of_lt hlt hk
  have hbyte : (octet (val <<< 2)).toBitVec.getLsbD (2 + k) = byteBit (octet (val <<< 2)) (2 + k) :=
    rfl
  rw [List.getD_cons_zero, BitVec.getLsbD_ushiftRight, hbyte, byteBit_octet,
    BitVec.getLsbD_shiftLeft]
  rcases Nat.lt_or_ge k 6 with hlow | hhigh
  · have hin : 2 + k < 8 := by omega
    have hout : ¬2 + k < 2 := by omega
    rw [decide_eq_true hin, decide_eq_false hout, Nat.add_sub_cancel_left]
    rfl
  · simp [hzero k hhigh]

/-- An octet of the gNB id in its place. -/
theorem getLsbD_octet_shift (id : BitVec 32) (s : Nat) {k : Nat} (hk : k < 32) :
    ((octet (id >>> s)).toBitVec.setWidth 32 <<< s).getLsbD k =
      (decide (s ≤ k ∧ k < s + 8) && id.getLsbD k) := by
  rw [BitVec.getLsbD_shiftLeft, getLsbD_toBitVec_setWidth _ (by decide), byteBit_octet,
    BitVec.getLsbD_ushiftRight, decide_eq_true hk, Bool.true_and]
  by_cases hs : s ≤ k
  · have hval : s + (k - s) = k := by omega
    have hiff : k - s < 8 ↔ k < s + 8 := by omega
    simp [hs, hs.not_gt, hval, hiff]
  · simp [hs, Nat.lt_of_not_le hs]

/-- The last octet has the bits below. -/
theorem getLsbD_octet_last (id : BitVec 32) (u k : Nat) :
    ((octet ((id &&& (0xFF#32 >>> u)) <<< u)).toBitVec.setWidth 32 >>> u).getLsbD k =
      (decide (k + u < 8) && id.getLsbD k) := by
  have hmask : (0xFF#32 >>> u).getLsbD k = decide (u + k < 8) := by
    have h255 := Nat.testBit_two_pow_sub_one 8 (u + k)
    rw [BitVec.getLsbD_ushiftRight, BitVec.getLsbD_ofNat, show (255 : Nat) = 2 ^ 8 - 1 from rfl,
      h255]
    grind
  rw [BitVec.getLsbD_ushiftRight, getLsbD_toBitVec_setWidth _ (by decide), byteBit_octet,
    BitVec.getLsbD_shiftLeft, BitVec.getLsbD_and, Nat.add_sub_cancel_left, hmask, Nat.add_comm k u]
  by_cases h : u + k < 8
  · have h32 : u + k < 32 := by omega
    simp [h, h32]
  · simp [h]

/-- 22 to 24 bits in three octets. -/
theorem gnbId_three {id : BitVec 32} {u : Nat} (hu : u < 8)
    (hzero : ∀ k, 24 - u ≤ k → id.getLsbD k = false) :
    (octet (id >>> (16 - u))).toBitVec.setWidth 32 <<< (16 - u) |||
        (octet (id >>> (8 - u))).toBitVec.setWidth 32 <<< (8 - u) |||
        (octet ((id &&& (0xFF#32 >>> u)) <<< u)).toBitVec.setWidth 32 >>> u = id := by
  refine BitVec.eq_of_getLsbD_eq fun k hk => ?_
  simp only [BitVec.getLsbD_or, getLsbD_octet_shift _ _ hk, getLsbD_octet_last]
  rcases Nat.lt_or_ge k (24 - u) with hin | hout
  · rw [← Bool.and_or_distrib_right, ← Bool.and_or_distrib_right]
    have hcover : (16 - u ≤ k ∧ k < 16 - u + 8) ∨ (8 - u ≤ k ∧ k < 8 - u + 8) ∨ k + u < 8 := by
      omega
    rcases hcover with h | h | h <;> simp [h]
  · simp [hzero k hout]

/-- 25 to 32 bits in four octets. -/
theorem gnbId_four {id : BitVec 32} {u : Nat} (hu : u < 8)
    (hzero : ∀ k, 32 - u ≤ k → id.getLsbD k = false) :
    (octet (id >>> (24 - u))).toBitVec.setWidth 32 <<< (24 - u) |||
        (octet (id >>> (16 - u))).toBitVec.setWidth 32 <<< (16 - u) |||
        (octet (id >>> (8 - u))).toBitVec.setWidth 32 <<< (8 - u) |||
        (octet ((id &&& (0xFF#32 >>> u)) <<< u)).toBitVec.setWidth 32 >>> u = id := by
  refine BitVec.eq_of_getLsbD_eq fun k hk => ?_
  simp only [BitVec.getLsbD_or, getLsbD_octet_shift _ _ hk, getLsbD_octet_last]
  rcases Nat.lt_or_ge k (32 - u) with hin | hout
  · rw [← Bool.and_or_distrib_right, ← Bool.and_or_distrib_right, ← Bool.and_or_distrib_right]
    have hcover : (24 - u ≤ k ∧ k < 24 - u + 8) ∨ (16 - u ≤ k ∧ k < 16 - u + 8) ∨
        (8 - u ≤ k ∧ k < 8 - u + 8) ∨ k + u < 8 := by omega
    rcases hcover with h | h | h | h <;> simp [h]
  · simp [hzero k hout]

theorem cpBitStringToGnbId_eq {src : GnbId} {s : BitString} (h : cpGnbIdToBitString src = some s) :
    s.buf.length = s.size ∧ s.bitsUnused < 8 ∧ 8 * s.size = 32 - src.unused + s.bitsUnused ∧
      cpBitStringToGnbId s = some src := by
  obtain ⟨nbId, unused⟩ := src
  unfold cpGnbIdToBitString at h
  split_ifs at h with hid h7
  all_goals
    obtain ⟨hu, hshift⟩ := hid
    dsimp only at hu hshift h7
    rw [Nat.shiftRight_eq_div_pow, Nat.div_eq_zero_iff_lt (by positivity)] at hshift
    have hzero : ∀ k, 32 - unused ≤ k → nbId.getLsbD k = false := fun k hk =>
      getLsbD_of_lt hshift hk
    cases h
  · obtain ⟨u, rfl⟩ : ∃ u, unused = u + 8 := ⟨unused - 8, by omega⟩
    have hmod : (u + 8) % 8 = u := by omega
    refine ⟨rfl, by dsimp only; omega, by dsimp only; omega, ?_⟩
    have hbits := @gnbId_three nbId u (by omega) fun k hk => hzero k (by omega)
    simp only [cpBitStringToGnbId, hmod, Nat.add_sub_cancel, List.getD_cons_zero,
      List.getD_cons_succ, hbits, if_true]
    rw [if_pos (by omega), if_pos (by omega)]
  · have hmod : unused % 8 = unused := by omega
    refine ⟨rfl, by dsimp only; omega, by dsimp only; omega, ?_⟩
    have hbits := gnbId_four (by omega : unused < 8) hzero
    simp only [cpBitStringToGnbId, hmod, List.getD_cons_zero, List.getD_cons_succ, hbits, if_true]
    rw [if_pos (by omega), if_neg (by decide)]

/-! ## Round trips -/

namespace E2smId

variable {id : E2smId} {s : BitString}

/-- A kind with the low octet first that is a `uint32_t`. -/
theorem roundTrips_of_32 (unused n : Nat) {val : BitVec 32} (kind : BitVec 32 → E2smId)
    (h : idToBitString (2 ^ (8 * n - unused)) unused n val = some s) (hn : 1 ≤ n ∧ n ≤ 4)
    (hu : unused < 8) (hto : (kind val).toBitString = some s)
    (hread : (kind val).readAs s = (bitStringToId32 unused n s).map kind)
    (hlength : (kind val).bitLength = 8 * n - unused) : (kind val).RoundTrips := by
  obtain ⟨hlen, hsize, hunused⟩ := shape_of_idToBitString h hn.1
  refine ⟨s, hto, hlen, by omega, by omega, ?_⟩
  rw [hread, bitStringToId32_eq h hn.2, Option.map_some]

/-- An NR cell identity with bit 31 set. -/
def SignBit : E2smId → Prop
  | nrCellId val => val.getLsbD 31 = true
  | _ => False

theorem roundTrips_nrCellId {val : BitVec 64} (hs : cpNrCellIdToBitString val = some s) :
    (nrCellId val).RoundTrips ↔ val.getLsbD 31 = false := by
  have hid : idToBitString (2 ^ (8 * 5 - 4)) 4 5 val = some s := hs
  obtain ⟨hlen, hsize, hunused⟩ := shape_of_idToBitString hid (by decide)
  rw [← cpNrCellIdToU64_eq_some_iff hs]
  constructor
  · rintro ⟨s', hs', -, -, -, hback⟩
    obtain rfl : s = s' := Option.some.inj (hs.symm.trans hs')
    obtain ⟨val', hval, heq⟩ := Option.map_eq_some_iff.1 hback
    rw [hval, nrCellId.inj heq]
  · intro hback
    refine ⟨s, hs, hlen, by omega, by rw [hsize, hunused]; rfl, ?_⟩
    rw [readAs, hback, Option.map_some]

/-- An identifier that its assertion admits comes back from a bit string of its size, unless it is
an NR cell identity with bit 31 set. -/
theorem roundTrips_iff (h : id.toBitString.isSome) : id.RoundTrips ↔ ¬id.SignBit := by
  obtain ⟨s, hs⟩ := Option.isSome_iff_exists.1 h
  have hn3 : 1 ≤ 3 ∧ 3 ≤ 4 := by decide
  have hn4 : 1 ≤ 4 ∧ 4 ≤ 4 := by decide
  cases id with
  | nrCellId val =>
    rw [roundTrips_nrCellId hs, SignBit, Bool.not_eq_true]
  | gnbId src =>
    obtain ⟨hlen, hunused, hsize, hback⟩ := cpBitStringToGnbId_eq hs
    exact iff_of_true ⟨s, hs, hlen, hunused, hsize, by rw [readAs, hback, Option.map_some]⟩
      not_false
  | amfSetId val =>
    obtain ⟨hlen, hsize, hunused, hback⟩ := cpAmfSetIdToU16_eq hs
    refine iff_of_true ⟨s, hs, hlen, by omega, by rw [hsize, hunused]; rfl, ?_⟩ not_false
    rw [readAs, hback, Option.map_some]
  | amfPtr val =>
    obtain ⟨hlen, hsize, hunused, hback⟩ := cpAmfPtrToU8_eq hs
    refine iff_of_true ⟨s, hs, hlen, by omega, by rw [hsize, hunused]; rfl, ?_⟩ not_false
    rw [readAs, hback, Option.map_some]
  | eutraCellId val =>
    exact iff_of_true (roundTrips_of_32 4 4 eutraCellId hs hn4 (by decide) hs rfl rfl) not_false
  | homeEnbId val =>
    exact iff_of_true (roundTrips_of_32 4 4 homeEnbId hs hn4 (by decide) hs rfl rfl) not_false
  | macroEnbId val =>
    exact iff_of_true (roundTrips_of_32 4 3 macroEnbId hs hn3 (by decide) hs rfl rfl) not_false
  | shortMacroEnbId val =>
    exact iff_of_true (roundTrips_of_32 6 3 shortMacroEnbId hs hn3 (by decide) hs rfl rfl) not_false
  | longMacroEnbId val =>
    exact iff_of_true (roundTrips_of_32 3 3 longMacroEnbId hs hn3 (by decide) hs rfl rfl) not_false
  | macroNgEnbId val =>
    exact iff_of_true (roundTrips_of_32 4 3 macroNgEnbId hs hn3 (by decide) hs rfl rfl) not_false
  | shortMacroNgEnbId val =>
    exact iff_of_true (roundTrips_of_32 6 3 shortMacroNgEnbId hs hn3 (by decide) hs rfl rfl)
      not_false
  | longMacroNgEnbId val =>
    exact iff_of_true (roundTrips_of_32 3 3 longMacroNgEnbId hs hn3 (by decide) hs rfl rfl)
      not_false

theorem roundTrips_iff_gnbId : (gnbId ⟨0xE00, 8⟩).RoundTrips ↔ ¬(gnbId ⟨0xE00, 8⟩).SignBit :=
  roundTrips_iff (by decide)

/-- The NR cell identity 2 ^ 31 comes back with the upper half set. -/
theorem not_roundTrips_nrCellId : ¬∀ id : E2smId, id.toBitString.isSome → id.RoundTrips := by
  intro hall
  obtain ⟨s, hs, -, -, -, hback⟩ := hall (nrCellId 0x80000000) (by decide)
  have hread : ((nrCellId 0x80000000).toBitString.bind (nrCellId 0x80000000).readAs) =
      some (nrCellId 0xFFFFFFFF80000000) := by
    decide
  rw [hs, Option.bind_some, hback] at hread
  exact absurd hread (by decide)

end E2smId

end NrStack
