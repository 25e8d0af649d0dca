import NrStack.Coding.Crc

/-!
# Checking a CRC

`check_crc` of `crc_byte.c` compares the CRC of the first bits with the octets behind them. It cuts
the number of bits down to whole octets for the one and not for the other, and it accepts anything
for a type it does not know (`check_crc_iff`).
-/

open Polynomial

namespace NrStack

/-- The length of the CRC in octets; for another type the assertion does not fire. -/
def crcTypeLen (crcType : UInt8) : Nat :=
  if crcType = 0 ∨ crcType = 1 then 3
  else if crcType = 2 then 2
  else if crcType = 3 then 1
  else 0

/-- The octets of the CRC at the end of `n` bits, the first one highest. -/
def oldCrc (decodedBytes : List UInt8) (n : BitVec 32) (crcLen : Nat) : Option (BitVec 32) :=
  (List.range crcLen).foldlM (fun oldcrc i => do
    let o ← decodedBytes[(n >>> 3 - BitVec.ofNat 32 crcLen + BitVec.ofNat 32 i).toNat]?
    return oldcrc ||| octetWord o <<< ((crcLen - 1 - i) * 8)) 0

/-- `check_crc`. `CRC24_A` is 0, `CRC24_B` 1, `CRC16` 2, and `CRC8` 3. -/
def checkCrc (decodedBytes : List UInt8) (n : BitVec 32) (crcType : UInt8) : Option Bool := do
  let oldcrc ← oldCrc decodedBytes n (crcTypeLen crcType)
  if crcType = 0 then
    let crc ← crc24a decodedBytes (n - 24).toInt
    return crc >>> 8 == oldcrc &&& 0x00ffffff
  else if crcType = 1 then
    let crc ← crc24b decodedBytes (n - 24).toInt
    return crc >>> 8 == oldcrc &&& 0x00ffffff
  else if crcType = 2 then
    let crc ← crc16 decodedBytes (n - 16).toInt
    return crc >>> 16 == oldcrc &&& 0x0000ffff
  else if crcType = 3 then
    let crc ← crc8 decodedBytes (n - 8).toInt
    return crc >>> 24 == oldcrc &&& 0x000000ff
  else return (0 : BitVec 32) == oldcrc

/-- The CRC of a type. -/
def checkedCrc (crcType : UInt8) : Option CrcKind :=
  if crcType = 0 then some .crc24a
  else if crcType = 1 then some .crc24b
  else if crcType = 2 then some .crc16
  else if crcType = 3 then some .crc8
  else none

/-- The last of `n` bits are the CRC of a type over the bits before. -/
def HasCrc (decodedBytes : List UInt8) (n : Nat) (crcType : UInt8) : Prop :=
  ∃ kind, checkedCrc crcType = some kind ∧ kind.len ≤ n ∧
    ((bitsOf decodedBytes).take n).drop (n - kind.len) = natBits kind.len
      ((crcDivide kind.poly 0#32 ((bitsOf decodedBytes).take (n - kind.len))).toNat >>>
        (32 - kind.len))

/-! ## The octets of the CRC -/

/-- Reading on one octet. -/
theorem oldCrc_step {v k : Nat} (o : UInt8) (h : (v * 256 + o.toNat) * 2 ^ k < 2 ^ 32) :
    BitVec.ofNat 32 (v * 2 ^ (k + 8)) ||| octetWord o <<< k =
      BitVec.ofNat 32 ((v * 256 + o.toNat) * 2 ^ k) := by
  have hpow : v * 2 ^ (k + 8) = v * 256 * 2 ^ k := by
    rw [pow_add]
    ring
  have ho : o.toNat * 2 ^ k ≤ (v * 256 + o.toNat) * 2 ^ k := Nat.mul_le_mul_right _ (by omega)
  have hv : v * 256 * 2 ^ k ≤ (v * 256 + o.toNat) * 2 ^ k := Nat.mul_le_mul_right _ (by omega)
  apply BitVec.eq_of_toNat_eq
  rw [BitVec.toNat_or, BitVec.toNat_shiftLeft, toNat_octetWord, BitVec.toNat_ofNat,
    BitVec.toNat_ofNat, Nat.shiftLeft_eq, hpow, Nat.mod_eq_of_lt (hv.trans_lt h),
    Nat.mod_eq_of_lt (ho.trans_lt h), Nat.mod_eq_of_lt h, ← Nat.shiftLeft_eq, ← Nat.shiftLeft_eq,
    ← Nat.shiftLeft_eq, ← Nat.shiftLeft_or_distrib]
  congr 1
  have hor := Nat.shiftLeft_add_eq_or_of_lt (i := 8) (b := o.toNat) o.toNat_lt v
  rw [Nat.shiftLeft_eq] at hor
  exact hor.symm

/-- The bits of `c` whole octets before position `m`. -/
def octetsBefore (decodedBytes : List UInt8) (m c : Nat) : List UInt8 :=
  (decodedBytes.take m).drop (m - c)

theorem length_octetsBefore {decodedBytes : List UInt8} {m c : Nat} (hm : m ≤ decodedBytes.length)
    (hc : c ≤ m) : (octetsBefore decodedBytes m c).length = c := by
  unfold octetsBefore
  rw [List.length_drop, List.length_take]
  omega

theorem bitsNat_bitsOf_append_singleton (l : List UInt8) (o : UInt8) :
    bitsNat (bitsOf (l ++ [o])) = bitsNat (bitsOf l) * 256 + o.toNat := by
  unfold bitsNat
  rw [bitsOf_append, bitsNatFrom_append, bitsOf_cons, bitsOf_nil, List.append_nil,
    bitsNatFrom_natBits, Nat.mod_eq_of_lt o.toNat_lt]
  norm_num

/-- The octets before a position, read as one number. -/
theorem oldCrc_eq {decodedBytes : List UInt8} {n : BitVec 32} {m c : Nat} (hn : n.toNat / 8 = m)
    (hm : m ≤ decodedBytes.length) (hc : c ≤ m) (hc4 : c ≤ 4) :
    oldCrc decodedBytes n c =
      some (BitVec.ofNat 32 (bitsNat (bitsOf (octetsBefore decodedBytes m c)))) := by
  have hloop : ∀ i ≤ c, (List.range i).foldlM (fun oldcrc i => do
      let o ← decodedBytes[(n >>> 3 - BitVec.ofNat 32 c + BitVec.ofNat 32 i).toNat]?
      return oldcrc ||| octetWord o <<< ((c - 1 - i) * 8)) (0 : BitVec 32) =
        some (BitVec.ofNat 32 (bitsNat (bitsOf ((octetsBefore decodedBytes m c).take i)) *
          2 ^ ((c - i) * 8))) := by
    intro i hi
    induction i with
    | zero => simp [bitsNat, bitsNatFrom]
    | succ i ih =>
      have hlt := n.isLt
      have hindex : (n >>> 3 - BitVec.ofNat 32 c + BitVec.ofNat 32 i).toNat = m - c + i := by
        rw [BitVec.toNat_add, BitVec.toNat_sub, BitVec.toNat_ushiftRight, BitVec.toNat_ofNat,
          BitVec.toNat_ofNat, Nat.shiftRight_eq_div_pow]
        omega
      have hpos : m - c + i < decodedBytes.length := by omega
      have htail : i < (octetsBefore decodedBytes m c).length := by
        rw [length_octetsBefore hm hc]
        omega
      have hget : (octetsBefore decodedBytes m c)[i] = decodedBytes[m - c + i] := by
        simp only [octetsBefore, List.getElem_drop, List.getElem_take]
      have htake : (octetsBefore decodedBytes m c).take (i + 1) =
          (octetsBefore decodedBytes m c).take i ++ [decodedBytes[m - c + i]] := by
        rw [← hget, List.take_succ_eq_append_getElem htail]
      have hbound : bitsNat (bitsOf ((octetsBefore decodedBytes m c).take (i + 1))) *
          2 ^ ((c - 1 - i) * 8) < 2 ^ 32 := by
        have hv := bitsNat_lt (bitsOf ((octetsBefore decodedBytes m c).take (i + 1)))
        rw [length_bitsOf, List.length_take, length_octetsBefore hm hc, Nat.min_eq_left hi] at hv
        refine (Nat.mul_lt_mul_of_pos_right hv (by positivity)).trans_le ?_
        rw [← pow_add]
        exact Nat.pow_le_pow_right (by decide) (by omega)
      have hshift : (c - i) * 8 = (c - 1 - i) * 8 + 8 := by omega
      have hshift' : (c - (i + 1)) * 8 = (c - 1 - i) * 8 := by omega
      rw [htake, bitsNat_bitsOf_append_singleton] at hbound
      rw [List.range_succ, List.foldlM_append, ih (by omega), htake,
        bitsNat_bitsOf_append_singleton, hshift', ← oldCrc_step _ hbound, ← hshift]
      simp only [List.foldlM_cons, List.foldlM_nil, Option.bind_eq_bind, Option.bind_some, hindex,
        List.getElem?_eq_getElem hpos, Option.pure_def]
  have h := hloop c le_rfl
  unfold oldCrc
  rw [h, Nat.sub_self, Nat.zero_mul, pow_zero, Nat.mul_one,
    List.take_of_length_le (length_octetsBefore hm hc).le]

/-! ## Known types -/

theorem checkedCrc_len {crcType : UInt8} {kind : CrcKind} (h : checkedCrc crcType = some kind) :
    kind.len = 24 ∨ kind.len = 16 ∨ kind.len = 8 := by
  unfold checkedCrc at h
  split_ifs at h <;> cases h <;> decide

/-- The cases of `check_crc` as one. -/
theorem checkCrc_of_known {decodedBytes : List UInt8} {n : BitVec 32} {crcType : UInt8}
    {kind : CrcKind} (h : checkedCrc crcType = some kind) :
    checkCrc decodedBytes n crcType = do
      let oldcrc ← oldCrc decodedBytes n (kind.len / 8)
      let crc ← kind.crc decodedBytes (n - BitVec.ofNat 32 kind.len).toInt
      return crc >>> (32 - kind.len) == oldcrc &&& BitVec.ofNat 32 (2 ^ kind.len - 1) := by
  unfold checkedCrc at h
  split_ifs at h with h0 h1 h2 h3
  · cases h
    subst h0
    rfl
  · cases h
    subst h1
    rfl
  · cases h
    subst h2
    rfl
  · cases h
    subst h3
    rfl

/-- Any octets are accepted for a type that is not known. -/
theorem checkCrc_of_unknown {decodedBytes : List UInt8} {n : BitVec 32} {crcType : UInt8}
    (h : checkedCrc crcType = none) : checkCrc decodedBytes n crcType = some true := by
  unfold checkedCrc at h
  split_ifs at h with h0 h1 h2 h3
  have hlen : crcTypeLen crcType = 0 := by
    unfold crcTypeLen
    rw [if_neg (by simp [h0, h1]), if_neg h2, if_neg h3]
  unfold checkCrc
  rw [hlen]
  simp only [h0, h1, h2, h3, if_false]
  rfl

/-- The octets of the CRC and the register agree as numbers if they agree bit by bit. -/
theorem natBits_inj {n a b : Nat} (ha : a < 2 ^ n) (hb : b < 2 ^ n) :
    natBits n a = natBits n b ↔ a = b := by
  refine ⟨fun h => ?_, fun h => h ▸ rfl⟩
  rw [← bitsNat_natBits ha, ← bitsNat_natBits hb, h]

/-- The number of payload bits as an `int`. -/
theorem toInt_payload {n : BitVec 32} {kind : CrcKind} (hlen : kind.len ≤ n.toNat) :
    (n - BitVec.ofNat 32 kind.len).toInt = if n.toNat - kind.len < 2 ^ 31
      then ((n.toNat - kind.len : Nat) : Int) else (n.toNat - kind.len : Nat) - 2 ^ 32 := by
  have hn := n.isLt
  have := kind.len_le
  have hnat : (n - BitVec.ofNat 32 kind.len).toNat = n.toNat - kind.len := by
    rw [BitVec.toNat_sub, BitVec.toNat_ofNat]
    omega
  rw [BitVec.toInt_eq_toNat_cond, hnat]
  split_ifs <;> omega

/-- For whole octets `check_crc` compares the CRC. -/
theorem checksCrc_of_dvd {decodedBytes : List UInt8} {n : BitVec 32} {crcType : UInt8}
    {kind : CrcKind} (hkind : checkedCrc crcType = some kind) (hlen : kind.len ≤ n.toNat)
    (hdvd : 8 ∣ n.toNat) (hmax : n.toNat - kind.len < 2 ^ 31)
    (hbytes : n.toNat ≤ 8 * decodedBytes.length) :
    ∃ ok, checkCrc decodedBytes n crcType = some ok ∧
      (ok = true ↔ HasCrc decodedBytes n.toNat crcType) := by
  obtain ⟨m, hm⟩ := hdvd
  obtain ⟨c, hc⟩ : 8 ∣ kind.len := by
    rcases checkedCrc_len hkind with h | h | h <;> rw [h] <;> decide
  have hc4 : c ≤ 4 := by
    have := kind.len_le
    omega
  have hint := toInt_payload hlen
  rw [if_pos hmax] at hint
  have hold : oldCrc decodedBytes n c = some _ := oldCrc_eq (m := m) (by omega)
    (by omega) (by omega) hc4
  have hcrc := @CrcKind.crc_eq kind decodedBytes (n.toNat - kind.len) (by omega)
  rw [checkCrc_of_known hkind, hint, hcrc, hc, Nat.mul_div_cancel_left c (by decide), hold, ← hc]
  refine ⟨_, rfl, ?_⟩
  have htail : ((bitsOf decodedBytes).take n.toNat).drop (n.toNat - kind.len) =
      bitsOf (octetsBefore decodedBytes m c) := by
    have htake := take_bitsOf decodedBytes m 0 (by rw [length_bitsOf]; omega)
    have hdrop := drop_bitsOf (decodedBytes.take m) (m - c) 0
    have hstart : n.toNat - kind.len = 8 * (m - c) + 0 := by omega
    rw [Nat.add_zero, List.take_zero, List.append_nil] at htake
    rw [hm, htake, ← hm, hstart, hdrop, List.drop_zero]
    rfl
  have hbits : (bitsOf (octetsBefore decodedBytes m c)).length = kind.len := by
    rw [length_bitsOf, length_octetsBefore (by omega) (by omega), hc]
  have hv := bitsNat_lt (bitsOf (octetsBefore decodedBytes m c))
  have hnat := natBits_bitsNat (bitsOf (octetsBefore decodedBytes m c))
  rw [hbits] at hv hnat
  have hregister := toNat_shiftRight_lt (kind.len_le.trans (by decide))
    (crcDivide kind.poly 0#32 ((bitsOf decodedBytes).take (n.toNat - kind.len)))
  have hiff : HasCrc decodedBytes n.toNat crcType ↔
      (crcDivide kind.poly 0#32 ((bitsOf decodedBytes).take (n.toNat - kind.len))).toNat >>>
        (32 - kind.len) = bitsNat (bitsOf (octetsBefore decodedBytes m c)) := by
    rw [← natBits_inj hregister hv, hnat, ← htail]
    constructor
    · rintro ⟨kind', hkind', -, h⟩
      cases hkind.symm.trans hkind'
      exact h.symm
    · exact fun h => ⟨kind, hkind, hlen, h.symm⟩
  have hpow : 2 ^ kind.len ≤ 2 ^ 24 := Nat.pow_le_pow_right (by decide) kind.len_le
  rw [hiff, beq_iff_eq, ← BitVec.toNat_inj, BitVec.toNat_ushiftRight, BitVec.toNat_and,
    BitVec.toNat_ofNat, BitVec.toNat_ofNat, Nat.mod_eq_of_lt (by omega),
    Nat.mod_eq_of_lt (by omega), Nat.and_two_pow_sub_one_eq_mod, Nat.mod_eq_of_lt hv]

/-! ## Where the comparison goes wrong -/

theorem not_checksCrc_of_unknown {decodedBytes : List UInt8} {n : BitVec 32} {crcType : UInt8}
    (hkind : checkedCrc crcType = none) :
    ¬ ∃ ok, checkCrc decodedBytes n crcType = some ok ∧
      (ok = true ↔ HasCrc decodedBytes n.toNat crcType) := by
  rintro ⟨ok, hok, hiff⟩
  rw [checkCrc_of_unknown hkind] at hok
  cases hok
  obtain ⟨kind, hkind', -⟩ := hiff.1 rfl
  rw [hkind] at hkind'
  cases hkind'

/-- With fewer bits than the CRC has, the octets are read before the buffer. -/
theorem checkCrc_of_short {n : BitVec 32} {crcType : UInt8} {kind : CrcKind}
    (hkind : checkedCrc crcType = some kind) (hlen : n.toNat < kind.len) :
    checkCrc (List.replicate 3 0) n crcType = none := by
  obtain ⟨c, hc⟩ : ∃ c, kind.len / 8 = c + 1 := by
    rcases checkedCrc_len hkind with h | h | h <;> rw [h] <;> exact ⟨_, rfl⟩
  have hlenmax := kind.len_le
  have hindex : 3 ≤ (n >>> 3 - BitVec.ofNat 32 (c + 1) + BitVec.ofNat 32 0).toNat := by
    have hdvd : 8 ∣ kind.len := by
      rcases checkedCrc_len hkind with h | h | h <;> rw [h] <;> decide
    rw [BitVec.toNat_add, BitVec.toNat_sub, BitVec.toNat_ushiftRight, BitVec.toNat_ofNat,
      BitVec.toNat_ofNat, Nat.shiftRight_eq_div_pow]
    omega
  rw [checkCrc_of_known hkind, hc]
  unfold oldCrc
  rw [List.range_succ_eq_map, List.foldlM_cons, List.getElem?_eq_none (by simpa using hindex)]
  rfl

theorem crc_of_neg (kind : CrcKind) (inptr : List UInt8) {bitlen : Int} (h : bitlen < 0) :
    kind.crc inptr bitlen = some 0 := by
  have hdiv : (bitlen.tdiv 8).toNat = 0 := by
    have := Int.tdiv_nonneg (Int.neg_nonneg.2 h.le) (show 0 ≤ (8 : Int) by decide)
    rw [Int.neg_tdiv] at this
    omega
  have hmod : ¬ bitlen.tmod 8 > 0 := by
    have := Int.tmod_nonneg 8 (Int.neg_nonneg.2 h.le)
    rw [Int.neg_tmod] at this
    omega
  have hbytes (octet : BitVec 32 → UInt8 → Option (BitVec 32)) (table : Vector (BitVec 32) 256)
      (shift : Nat) : crcBytes octet table shift inptr bitlen = some 0 := by
    unfold crcBytes
    simp only [hdiv, crcOctets, Option.bind_eq_bind, Option.bind_some, if_neg hmod]
    rfl
  cases kind <;> exact hbytes _ _ _

/-- The CRC of a payload of zeros. -/
theorem crc_of_zeros {decodedBytes : List UInt8} {n : BitVec 32} {kind : CrcKind}
    (hlen : kind.len ≤ n.toNat) (hbytes : n.toNat ≤ 8 * decodedBytes.length)
    (hzero : (bitsOf decodedBytes).take (n.toNat - kind.len) = natBits (n.toNat - kind.len) 0) :
    kind.crc decodedBytes (n - BitVec.ofNat 32 kind.len).toInt = some 0 := by
  have hn := n.isLt
  rw [toInt_payload hlen]
  split_ifs
  · rw [kind.crc_eq (by omega), hzero, crcDivide_zero_zeros]
    rfl
  · exact crc_of_neg kind _ (by omega)

/-- With zeros in the octets that are compared, a CRC of zero is accepted. -/
theorem checkCrc_of_zeros {decodedBytes : List UInt8} {n : BitVec 32} {crcType : UInt8}
    {kind : CrcKind} (hkind : checkedCrc crcType = some kind) (hlen : kind.len ≤ n.toNat)
    (hbytes : n.toNat / 8 ≤ decodedBytes.length)
    (hcrc : kind.crc decodedBytes (n - BitVec.ofNat 32 kind.len).toInt = some 0)
    (hzero : octetsBefore decodedBytes (n.toNat / 8) (kind.len / 8) =
      List.replicate (kind.len / 8) 0) :
    checkCrc decodedBytes n crcType = some true := by
  have hlenmax := kind.len_le
  have hold : oldCrc decodedBytes n (kind.len / 8) = some _ := oldCrc_eq rfl hbytes
    (Nat.div_le_div_right hlen) (by omega)
  rw [hzero, bitsOf_replicate_zero, bitsNat_natBits (Nat.two_pow_pos _)] at hold
  rw [checkCrc_of_known hkind, hold, hcrc]
  simp

/-- The octets behind a whole number of them are not compared. -/
theorem not_checksCrc_of_not_dvd {n : BitVec 32} {crcType : UInt8} {kind : CrcKind}
    (hkind : checkedCrc crcType = some kind) (hlen : kind.len ≤ n.toNat) (hdvd : ¬ 8 ∣ n.toNat) :
    ∃ decodedBytes : List UInt8, n.toNat ≤ 8 * decodedBytes.length ∧
      checkCrc decodedBytes n crcType = some true ∧ ¬ HasCrc decodedBytes n.toNat crcType := by
  have hlen8 : 8 ≤ kind.len ∧ 8 ∣ kind.len := by
    rcases checkedCrc_len hkind with h | h | h <;> rw [h] <;> decide
  obtain ⟨m, r, hn, hr0, hr8⟩ : ∃ m r, n.toNat = 8 * m + r ∧ 0 < r ∧ r < 8 :=
    ⟨n.toNat / 8, n.toNat % 8, by omega, by omega, by omega⟩
  have hm : n.toNat / 8 = m := by omega
  let last := UInt8.ofNat (2 ^ (8 - r))
  have hbits : bitsOf (List.replicate m 0 ++ [last]) =
      natBits (8 * m) 0 ++ natBits 8 last.toNat := by
    rw [bitsOf_append, bitsOf_replicate_zero, bitsOf_cons, bitsOf_nil, List.append_nil]
  have hlength : n.toNat ≤ 8 * (List.replicate m 0 ++ [last]).length := by
    rw [List.length_append, List.length_replicate, List.length_singleton]
    omega
  have hpayload : (bitsOf (List.replicate m 0 ++ [last])).take (n.toNat - kind.len) =
      natBits (n.toNat - kind.len) 0 := by
    rw [hbits, List.take_append_of_le_length (by rw [length_natBits]; omega),
      take_natBits (by omega), Nat.zero_shiftRight]
  refine ⟨List.replicate m 0 ++ [last], hlength, ?_, ?_⟩
  · refine checkCrc_of_zeros hkind hlen (by omega) (crc_of_zeros hlen hlength hpayload) ?_
    unfold octetsBefore
    rw [hm, List.take_left' List.length_replicate, List.drop_replicate]
    congr 1
    omega
  · rintro ⟨kind', hkind', -, h⟩
    cases hkind.symm.trans hkind'
    rw [hpayload, crcDivide_zero_zeros, BitVec.toNat_zero, Nat.zero_shiftRight] at h
    refine not_mem_natBits_zero kind.len (h ▸ ?_)
    have hlast : last.toNat = 2 ^ (8 - r) := by
      rw [UInt8.toNat_ofNat']
      exact Nat.mod_eq_of_lt (Nat.pow_lt_pow_right (by decide) (by omega))
    have htake : (bitsOf (List.replicate m 0 ++ [last])).take n.toNat =
        natBits (8 * m) 0 ++ natBits r 1 := by
      rw [hbits, hn, List.take_append, length_natBits, Nat.add_sub_cancel_left,
        List.take_of_length_le (by rw [length_natBits]; omega), take_natBits (by omega), hlast,
        Nat.shiftRight_eq_div_pow, Nat.div_self (Nat.two_pow_pos _)]
    obtain ⟨k, rfl⟩ : ∃ k, r = k + 1 := ⟨r - 1, by omega⟩
    rw [htake, List.drop_append_of_le_length (by rw [length_natBits]; omega), natBits_add]
    exact List.mem_append_right _ (List.mem_append_right _ (List.mem_singleton.2 rfl))

/-- A single one at the end of the payload leaves the generator in the register. -/
theorem crcDivide_one (kind : CrcKind) (a : Nat) :
    crcDivide kind.poly 0#32 (natBits a 0 ++ natBits 8 1) = kind.poly := by
  rw [crcDivide_append, crcDivide_zero_zeros,
    crcDivide_zero_natBits kind.poly (k := 1) Nat.one_lt_two 7]
  cases kind <;> decide

/-- A payload that is too long for an `int` counts as empty. -/
theorem not_checksCrc_of_long {n : BitVec 32} {crcType : UInt8} {kind : CrcKind}
    (hkind : checkedCrc crcType = some kind) (hlen : kind.len ≤ n.toNat) (hdvd : 8 ∣ n.toNat)
    (hmax : 2 ^ 31 ≤ n.toNat - kind.len) :
    ∃ decodedBytes : List UInt8, n.toNat ≤ 8 * decodedBytes.length ∧
      checkCrc decodedBytes n crcType = some true ∧ ¬ HasCrc decodedBytes n.toNat crcType := by
  obtain ⟨c, hc⟩ : 8 ∣ kind.len := by
    rcases checkedCrc_len hkind with h | h | h <;> rw [h] <;> decide
  obtain ⟨m, hm⟩ := hdvd
  obtain ⟨a, ha⟩ : ∃ a, m = a + 1 + c := ⟨m - c - 1, by omega⟩
  have hlt := n.isLt
  have hfirst : (List.replicate a (0 : UInt8) ++ [1]).length = m - c := by
    rw [List.length_append, List.length_replicate, List.length_singleton]
    omega
  have hbits : bitsOf (List.replicate a 0 ++ [1] ++ List.replicate c 0) =
      natBits (8 * a) 0 ++ natBits 8 1 ++ natBits kind.len 0 := by
    rw [bitsOf_append, bitsOf_append, bitsOf_replicate_zero, bitsOf_replicate_zero, hc]
    rfl
  have hpayload : (natBits (8 * a) 0 ++ natBits 8 1).length = n.toNat - kind.len := by
    rw [List.length_append, length_natBits, length_natBits]
    omega
  have hlength : (List.replicate a (0 : UInt8) ++ [1] ++ List.replicate c 0).length = m := by
    rw [List.length_append, hfirst, List.length_replicate]
    omega
  refine ⟨List.replicate a 0 ++ [1] ++ List.replicate c 0, ?_, ?_, ?_⟩
  · rw [hlength, hm]
  · have hneg : (n - BitVec.ofNat 32 kind.len).toInt < 0 := by
      rw [toInt_payload hlen, if_neg (by omega)]
      omega
    refine checkCrc_of_zeros hkind hlen (by omega) (crc_of_neg kind _ hneg) ?_
    have hdiv : n.toNat / 8 = m := by omega
    have hdiv' : kind.len / 8 = c := by omega
    unfold octetsBefore
    rw [hdiv, hdiv', List.take_of_length_le hlength.le, List.drop_left' hfirst]
  · rintro ⟨kind', hkind', -, h⟩
    cases hkind.symm.trans hkind'
    rw [hbits, List.take_left' hpayload, crcDivide_one, List.take_of_length_le,
      List.drop_left' hpayload, natBits_inj (Nat.two_pow_pos _)
        (toNat_shiftRight_lt (kind.len_le.trans (by decide)) _)] at h
    · revert h
      cases kind <;> decide
    · rw [List.length_append, hpayload, length_natBits]
      omega

/-- `check_crc` compares the CRC of its type with the bits behind the payload exactly for a type it
knows and a whole number of octets, at least those of the CRC and at most what an `int` counts. -/
theorem checkCrc_iff (n : BitVec 32) (crcType : UInt8) :
    (∀ decodedBytes : List UInt8, n.toNat ≤ 8 * decodedBytes.length →
      ∃ ok, checkCrc decodedBytes n crcType = some ok ∧
        (ok = true ↔ HasCrc decodedBytes n.toNat crcType)) ↔
    ∃ kind, checkedCrc crcType = some kind ∧ kind.len ≤ n.toNat ∧ 8 ∣ n.toNat ∧
      n.toNat - kind.len < 2 ^ 31 := by
  constructor
  · intro h
    cases hkind : checkedCrc crcType with
    | none =>
      exact absurd (h (List.replicate n.toNat 0) (by rw [List.length_replicate]; omega))
        (not_checksCrc_of_unknown hkind)
    | some kind =>
      have hwrong (hex : ∃ decodedBytes : List UInt8, n.toNat ≤ 8 * decodedBytes.length ∧
          checkCrc decodedBytes n crcType = some true ∧
            ¬ HasCrc decodedBytes n.toNat crcType) : False := by
        obtain ⟨decodedBytes, hbytes, hok, hnot⟩ := hex
        obtain ⟨ok, hok', hiff⟩ := h decodedBytes hbytes
        rw [hok] at hok'
        cases hok'
        exact hnot (hiff.1 rfl)
      have hlen : kind.len ≤ n.toNat := by
        by_contra hshort
        have hlenmax := kind.len_le
        obtain ⟨ok, hok, -⟩ := h (List.replicate 3 0) (by rw [List.length_replicate]; omega)
        rw [checkCrc_of_short hkind (not_le.1 hshort)] at hok
        cases hok
      have hdvd : 8 ∣ n.toNat := by
        by_contra hdvd
        exact hwrong (not_checksCrc_of_not_dvd hkind hlen hdvd)
      refine ⟨kind, rfl, hlen, hdvd, ?_⟩
      by_contra hmax
      exact hwrong (not_checksCrc_of_long hkind hlen hdvd (not_lt.1 hmax))
  · rintro ⟨kind, hkind, hlen, hdvd, hmax⟩ decodedBytes hbytes
    exact checksCrc_of_dvd hkind hlen hdvd hmax hbytes

/-- The functions divide by their generators as `crcbit` does, whatever the number of bits, and
leave the remainder at the top of the register; `check_crc` needs whole octets and a type it
knows. -/
theorem crc_functions_iff (octets : List UInt8) (poly : BitVec 32) (kind : CrcKind)
    (bits : List Bool) (n : BitVec 32) (crcType : UInt8) :
    crcbit octets poly = crcDivide poly 0#32 (bitsOf octets) ∧
    (∀ bitlen ≤ 8 * octets.length,
      kind.crc octets bitlen = some (crcDivide kind.poly 0#32 ((bitsOf octets).take bitlen))) ∧
    crcPoly (crcDivide kind.poly 0#32 bits) =
      X ^ (32 - kind.len) * ((X ^ kind.len * messagePoly bits) %ₘ kind.generator) ∧
    ((∀ decodedBytes : List UInt8, n.toNat ≤ 8 * decodedBytes.length →
        ∃ ok, checkCrc decodedBytes n crcType = some ok ∧
          (ok = true ↔ HasCrc decodedBytes n.toNat crcType)) ↔
      ∃ kind, checkedCrc crcType = some kind ∧ kind.len ≤ n.toNat ∧ 8 ∣ n.toNat ∧
        n.toNat - kind.len < 2 ^ 31) :=
  ⟨crcbit_eq octets poly, fun _ hlen => kind.crc_eq hlen, kind.crcPoly_crcDivide bits,
    checkCrc_iff n crcType⟩

/-- A payload of one bit : the CRC8 behind it is refused, a wrong one is accepted. Type 4 is not
known. -/
theorem checkCrc_one_bit :
    (HasCrc [0xcd, 0x80] 9 3 ∧ checkCrc [0xcd, 0x80] 9 3 = some false) ∧
    (¬ HasCrc [0, 0x80] 9 3 ∧ checkCrc [0, 0x80] 9 3 = some true) ∧
    (¬ HasCrc [1, 2, 3] 24 4 ∧ checkCrc [1, 2, 3] 24 4 = some true) := by
  refine ⟨⟨⟨.crc8, rfl, by decide, by decide⟩, by decide +kernel⟩, ⟨?_, by decide +kernel⟩, ?_,
    checkCrc_of_unknown rfl⟩
  · rintro ⟨kind, hkind, -, h⟩
    cases hkind
    revert h
    decide
  · rintro ⟨kind, hkind, -⟩
    cases hkind

end NrStack
