import NrStack.Coding.Segmentation
import Mathlib.Algebra.Order.Floor.Div

/-!
# The transport block size

`nr_compute_tbs` of `nr_compute_tbs_common.c`, over the arithmetic of its words : with `uint32` it is
the code, with `checked32` it stops where a word would overflow. For all a scheduler passes the two
agree, and the size has the code blocks that `nr_segmentation` finds in it (`nrComputeTbs_segments`).
-/

namespace NrStack

/-! ## The parameters -/

/-- What `nr_compute_tbs` is called with. -/
structure TbsParams where
  Qm : UInt16
  R : UInt16
  nbRb : UInt16
  nbSymbSch : UInt16
  nbDmrsPrb : UInt16
  nbRbOh : UInt16
  tbScaling : UInt8
  Nl : UInt8
deriving DecidableEq, Repr

/-- `Table_51311` : modulation order, and code rate times 10240. -/
def table51311 : List (UInt16 × UInt16) :=
  [(2, 1200), (2, 1570), (2, 1930), (2, 2510), (2, 3080), (2, 3790), (2, 4490), (2, 5260),
    (2, 6020), (2, 6790), (4, 3400), (4, 3780), (4, 4340), (4, 4900), (4, 5530), (4, 6160),
    (4, 6580), (6, 4380), (6, 4660), (6, 5170), (6, 5670), (6, 6160), (6, 6660), (6, 7190),
    (6, 7720), (6, 8220), (6, 8730), (6, 9100), (6, 9480), (2, 0), (4, 0), (6, 0)]

/-- `Table_51312`. -/
def table51312 : List (UInt16 × UInt16) :=
  [(2, 1200), (2, 1930), (2, 3080), (2, 4490), (2, 6020), (4, 3780), (4, 4340), (4, 4900),
    (4, 5530), (4, 6160), (4, 6580), (6, 4660), (6, 5170), (6, 5670), (6, 6160), (6, 6660),
    (6, 7190), (6, 7720), (6, 8220), (6, 8730), (8, 6825), (8, 7110), (8, 7540), (8, 7970),
    (8, 8410), (8, 8850), (8, 9165), (8, 9480), (2, 0), (4, 0), (6, 0), (8, 0)]

/-- `Table_51313`. -/
def table51313 : List (UInt16 × UInt16) :=
  [(2, 300), (2, 400), (2, 500), (2, 640), (2, 780), (2, 990), (2, 1200), (2, 1570), (2, 1930),
    (2, 2510), (2, 3080), (2, 3790), (2, 4490), (2, 5260), (2, 6020), (4, 3400), (4, 3780),
    (4, 4340), (4, 4900), (4, 5530), (4, 6160), (6, 4380), (6, 4660), (6, 5170), (6, 5670),
    (6, 6160), (6, 6660), (6, 7190), (6, 7720), (2, 0), (4, 0), (6, 0)]

/-- `Table_61411`. -/
def table61411 : List (UInt16 × UInt16) :=
  [(2, 1200), (2, 1570), (2, 1930), (2, 2510), (2, 3080), (2, 3790), (2, 4490), (2, 5260),
    (2, 6020), (2, 6790), (4, 3400), (4, 3780), (4, 4340), (4, 4900), (4, 5530), (4, 6160),
    (4, 6580), (6, 4660), (6, 5170), (6, 5670), (6, 6160), (6, 6660), (6, 7190), (6, 7720),
    (6, 8220), (6, 8730), (6, 9100), (6, 9480), (2, 0), (2, 0), (4, 0), (6, 0)]

/-- `Table_61412`. -/
def table61412 : List (UInt16 × UInt16) :=
  [(2, 300), (2, 400), (2, 500), (2, 640), (2, 780), (2, 990), (2, 1200), (2, 1570), (2, 1930),
    (2, 2510), (2, 3080), (2, 3790), (2, 4490), (2, 5260), (2, 6020), (2, 6790), (4, 3780),
    (4, 4340), (4, 4900), (4, 5530), (4, 6160), (4, 6580), (4, 6990), (4, 7720), (6, 5670),
    (6, 6160), (6, 6660), (6, 7720), (2, 0), (2, 0), (4, 0), (6, 0)]

/-- An entry of the table `tableIdx` : zero for an index that the code logs as invalid. -/
def mcsEntry (tables : List (List (UInt16 × UInt16))) (Imcs tableIdx : UInt8) : UInt16 × UInt16 :=
  ((tables[tableIdx.toNat]?.getD [])[Imcs.toNat]?).getD (0, 0)

/-- The tables of the downlink. -/
def mcsTablesDl : List (List (UInt16 × UInt16)) :=
  [table51311, table51312, table51313]

/-- The tables of the uplink : two more for transform precoding. -/
def mcsTablesUl : List (List (UInt16 × UInt16)) :=
  mcsTablesDl ++ [table61411, table61412]

/-- `nr_get_Qm_dl`. -/
def nrGetQmDl (Imcs tableIdx : UInt8) : UInt16 :=
  (mcsEntry mcsTablesDl Imcs tableIdx).1

/-- `nr_get_code_rate_dl`. -/
def nrGetCodeRateDl (Imcs tableIdx : UInt8) : UInt16 :=
  (mcsEntry mcsTablesDl Imcs tableIdx).2

/-- `nr_get_Qm_ul`. -/
def nrGetQmUl (Imcs tableIdx : UInt8) : UInt16 :=
  (mcsEntry mcsTablesUl Imcs tableIdx).1

/-- `nr_get_code_rate_ul`. -/
def nrGetCodeRateUl (Imcs tableIdx : UInt8) : UInt16 :=
  (mcsEntry mcsTablesUl Imcs tableIdx).2

/-- `update_ul_ue_R_Qm`, with `tp_pi2BPSK` of the configuration. -/
def updateUlUeRQm (mcs mcsTable : UInt8) (tpPi2BPSK : Bool) : UInt16 × UInt16 :=
  let R := nrGetCodeRateUl mcs mcsTable
  let Qm := nrGetQmUl mcs mcsTable
  if tpPi2BPSK && ((mcsTable == 3 && mcs < 2) || (mcsTable == 4 && mcs < 6)) then (R >>> 1, Qm <<< 1)
  else (R, Qm)

/-- Within the tables, the largest bandwidth part (`MAX_BWP_SIZE`), and four layers. -/
structure TbsParams.Schedulable (p : TbsParams) : Prop where
  Qm_le : p.Qm.toNat ≤ 8
  R_le : p.R.toNat ≤ 9480
  nbRb_le : p.nbRb.toNat ≤ 275
  Nl_le : p.Nl.toNat ≤ 4
  tbScaling_lt : p.tbScaling.toNat < 32

/-- An entry of the tables is small. -/
theorem mcsEntry_le {tables : List (List (UInt16 × UInt16))} (h : tables ⊆ mcsTablesUl)
    (Imcs tableIdx : UInt8) : (mcsEntry tables Imcs tableIdx).1.toNat ≤ 8 ∧
      (mcsEntry tables Imcs tableIdx).2.toNat ≤ 9480 := by
  have hcheck : (mcsTablesUl.all fun table =>
      table.all fun e => e.1.toNat ≤ 8 && e.2.toNat ≤ 9480) = true := by
    rfl
  have hall : ∀ table ∈ mcsTablesUl, ∀ e ∈ table, e.1.toNat ≤ 8 ∧ e.2.toNat ≤ 9480 := by
    simpa using hcheck
  unfold mcsEntry
  cases htable : tables[tableIdx.toNat]? with
  | none => exact ⟨Nat.zero_le _, Nat.zero_le _⟩
  | some table =>
    cases hentry : table[Imcs.toNat]? with
    | none =>
      rw [Option.getD_some, hentry]
      exact ⟨by decide, by decide⟩
    | some e =>
      rw [Option.getD_some, hentry]
      exact hall table (h (List.mem_of_getElem? htable)) e (List.mem_of_getElem? hentry)

theorem mcsDl_le (Imcs tableIdx : UInt8) :
    (nrGetQmDl Imcs tableIdx).toNat ≤ 8 ∧ (nrGetCodeRateDl Imcs tableIdx).toNat ≤ 9480 :=
  mcsEntry_le (List.subset_append_left _ _) Imcs tableIdx

theorem mcsUl_le (Imcs tableIdx : UInt8) :
    (nrGetQmUl Imcs tableIdx).toNat ≤ 8 ∧ (nrGetCodeRateUl Imcs tableIdx).toNat ≤ 9480 :=
  mcsEntry_le (List.Subset.refl _) Imcs tableIdx

/-- Only entries of order 2 are doubled. -/
theorem updateUlUeRQm_le (mcs mcsTable : UInt8) (tpPi2BPSK : Bool) :
    (updateUlUeRQm mcs mcsTable tpPi2BPSK).2.toNat ≤ 8 ∧
      (updateUlUeRQm mcs mcsTable tpPi2BPSK).1.toNat ≤ 9480 := by
  have hrow (n : Nat) (t : UInt8) (hn : n ≤ 32)
      (h : ∀ i < n, (nrGetQmUl (UInt8.ofNat i) t <<< 1).toNat ≤ 8) (hlt : mcs.toNat < n) :
      (nrGetQmUl mcs t <<< 1).toNat ≤ 8 := by
    have := h mcs.toNat hlt
    rwa [UInt8.ofNat_toNat] at this
  have hul := mcsUl_le mcs mcsTable
  unfold updateUlUeRQm
  split_ifs with hpi
  · simp only [Bool.and_eq_true, Bool.or_eq_true, beq_iff_eq, decide_eq_true_eq] at hpi
    refine ⟨?_, ?_⟩
    · obtain ⟨-, ⟨rfl, hlt⟩ | ⟨rfl, hlt⟩⟩ := hpi
      · exact hrow 2 3 (by decide) (by decide) hlt
      · exact hrow 6 4 (by decide) (by decide) hlt
    · rw [UInt16.toNat_shiftRight]
      exact (Nat.shiftRight_le _ _).trans hul.2
  · exact ⟨hul.1, hul.2⟩

/-! ## The code -/

/-- A word that stops the computation where it overflows. -/
def checked32 (n : Nat) : Option Nat :=
  if n < 2 ^ 32 then some n else none

/-- The size, and the number of code blocks it was computed for. -/
structure TbsResult where
  nrTbs : Nat
  C : Nat
deriving DecidableEq, Repr

/-- `Tbstable_nr`. -/
def tbstableNr : List Nat :=
  [24, 32, 40, 48, 56, 64, 72, 80, 88, 96, 104, 112, 120, 128, 136, 144, 152, 160, 168, 176, 184,
    192, 208, 224, 240, 256, 272, 288, 304, 320, 336, 352, 368, 384, 408, 432, 456, 480, 504, 528,
    552, 576, 608, 640, 672, 704, 736, 768, 808, 848, 888, 928, 984, 1032, 1064, 1128, 1160, 1192,
    1224, 1256, 1288, 1320, 1352, 1416, 1480, 1544, 1608, 1672, 1736, 1800, 1864, 1928, 2024, 2088,
    2152, 2216, 2280, 2408, 2472, 2536, 2600, 2664, 2728, 2792, 2856, 2976, 3104, 3240, 3368, 3496,
    3624, 3752, 3824]

/-- `NR_MAX_PDSCH_TBS`. -/
def nrMaxPdschTbs : Nat :=
  3824

section Code

variable {m : Type → Type} [Monad m] (word : Nat → m Nat)

/-- `CEILIDIV`. -/
def ceilIDiv (a b : Nat) : m Nat := do
  return (← word (a + b - 1)) / b

/-- `ROUNDIDIV`. -/
def roundIDiv (a b : Nat) : m Nat := do
  return (← word (a <<< 1 + b)) / (← word (b <<< 1))

/-- `Ninfo`. The resource elements of a block are counted with `int`s, and may be negative. -/
def intermediateInfo (p : TbsParams) : m Nat := do
  let nbpRe := uint32 (12 * p.nbSymbSch.toNat + 2 ^ 32 - p.nbDmrsPrb.toNat - p.nbRbOh.toNat)
  let nbRe ← word (min 156 nbpRe * p.nbRb.toNat)
  let R5 := p.R.toNat / 5
  let product ← word (nbRe * R5)
  let product ← word (product * p.Qm.toNat)
  let product ← word (product * p.Nl.toNat)
  return product >>> 11 >>> p.tbScaling.toNat

/-- `Np_info` of a size in the table. -/
def quantizedSmall (Ninfo : Nat) : m Nat := do
  let n := max 3 (Nat.log2 Ninfo - 6)
  return max 24 (← word (Ninfo >>> n <<< n))

/-- `Np_info` of a larger size. -/
def quantizedLarge (Ninfo : Nat) : m Nat := do
  let n := Nat.log2 (Ninfo - 24) - 5
  let step ← word (1 <<< n)
  return max 3840 (← word ((← roundIDiv word (Ninfo - 24) step) <<< n))

/-- `(C<<3)*CEILIDIV((Np_info+24),(C<<3)) - 24`. -/
def blocksOf (C NpInfo : Nat) : m TbsResult := do
  let C8 ← word (C <<< 3)
  let quotient ← ceilIDiv word (NpInfo + 24) C8
  return ⟨(← word (C8 * quotient)) - 24, C⟩

/-- `nr_compute_tbs`. It has no `C` where there is one code block. -/
def nrComputeTbs (p : TbsParams) : m TbsResult := do
  let Ninfo ← intermediateInfo word p
  if Ninfo ≤ nrMaxPdschTbs then
    let NpInfo ← quantizedSmall word Ninfo
    return ⟨(tbstableNr.find? (NpInfo ≤ ·)).getD 0, 1⟩
  else
    let NpInfo ← quantizedLarge word Ninfo
    if p.R ≤ 2560 then
      let C ← ceilIDiv word (NpInfo + 24) 3816
      blocksOf word C NpInfo
    else if NpInfo > 8424 then
      let C ← ceilIDiv word (NpInfo + 24) 8424
      blocksOf word C NpInfo
    else
      let quotient ← ceilIDiv word (NpInfo + 24) 8
      return ⟨(← word (quotient <<< 3)) - 24, 1⟩

end Code

/-- `get_BG`. The code rate is a `float`, far enough from the two bounds for every `R`. -/
def getBG (A : Nat) (R : UInt16) : UInt8 :=
  if A ≤ 292 ∨ (A ≤ nrMaxPdschTbs ∧ 10000 * R.toNat ≤ 6667 * 10240) ∨ 4 * R.toNat ≤ 10240 then 2
  else 1

/-! ## The numbers without words -/

/-- `Ninfo` of numbers. -/
def infoOf (p : TbsParams) : Nat :=
  (min 156 (uint32 (12 * p.nbSymbSch.toNat + 2 ^ 32 - p.nbDmrsPrb.toNat - p.nbRbOh.toNat)) *
    p.nbRb.toNat * (p.R.toNat / 5) * p.Qm.toNat * p.Nl.toNat) >>> 11 >>> p.tbScaling.toNat

/-- A number rounded to a multiple of `2 ^ n`. -/
def roundedTo (n N : Nat) : Nat :=
  ((N <<< 1 + 1 <<< n) / (1 <<< n <<< 1)) <<< n

/-- `Np_info` of numbers. -/
def quantizedOf (Ninfo : Nat) : Nat :=
  if Ninfo ≤ nrMaxPdschTbs then
    max 24 (Ninfo >>> max 3 (Nat.log2 Ninfo - 6) <<< max 3 (Nat.log2 Ninfo - 6))
  else max 3840 (roundedTo (Nat.log2 (Ninfo - 24) - 5) (Ninfo - 24))

/-- The size with `C` code blocks that holds `Np_info` bits and the CRC. -/
def sizeOf (C NpInfo : Nat) : Nat :=
  8 * C * ((NpInfo + 24) ⌈/⌉ (8 * C)) - 24

/-- The result of numbers. -/
def tbsOf (p : TbsParams) : TbsResult :=
  let NpInfo := quantizedOf (infoOf p)
  if infoOf p ≤ nrMaxPdschTbs then ⟨(tbstableNr.find? (NpInfo ≤ ·)).getD 0, 1⟩
  else
    let C := if p.R ≤ 2560 then (NpInfo + 24) ⌈/⌉ 3816
      else if NpInfo > 8424 then (NpInfo + 24) ⌈/⌉ 8424 else 1
    ⟨sizeOf C NpInfo, C⟩

theorem infoOf_lt {p : TbsParams} (hp : p.Schedulable) : infoOf p < 2 ^ 21 := by
  have hre : min 156 (uint32 (12 * p.nbSymbSch.toNat + 2 ^ 32 - p.nbDmrsPrb.toNat -
      p.nbRbOh.toNat)) * p.nbRb.toNat ≤ 156 * 275 := Nat.mul_le_mul (Nat.min_le_left _ _) hp.nbRb_le
  have hrate : p.R.toNat / 5 ≤ 1896 := Nat.div_le_of_le_mul hp.R_le
  have hproduct := Nat.mul_le_mul (Nat.mul_le_mul (Nat.mul_le_mul hre hrate) hp.Qm_le) hp.Nl_le
  unfold infoOf
  refine lt_of_le_of_lt (Nat.shiftRight_le _ _) ?_
  rw [Nat.shiftRight_eq_div_pow]
  omega

theorem quantizedOf_small {N : Nat} (h : N ≤ nrMaxPdschTbs) :
    24 ≤ quantizedOf N ∧ quantizedOf N ≤ nrMaxPdschTbs := by
  unfold quantizedOf
  rw [if_pos h]
  refine ⟨le_max_left _ _, max_le (by decide) (le_trans ?_ h)⟩
  rw [Nat.shiftRight_eq_div_pow, Nat.shiftLeft_eq]
  exact Nat.div_mul_le_self _ _

theorem log2_le {N : Nat} (hN : N < 2 ^ 21) : Nat.log2 (N - 24) - 5 ≤ 15 := by
  by_cases h0 : N - 24 = 0
  · rw [h0]
    decide
  · have := (Nat.log2_lt h0).2 (show N - 24 < 2 ^ 21 by omega)
    omega

/-- At most half a step above. -/
theorem roundedTo_le (n N : Nat) : roundedTo n N ≤ N + 2 ^ n := by
  unfold roundedTo
  simp only [Nat.shiftLeft_eq, Nat.one_mul, pow_one]
  have h := Nat.div_mul_le_self (N * 2 + 2 ^ n) (2 ^ n * 2)
  rw [← Nat.mul_assoc] at h
  have := Nat.two_pow_pos n
  omega

theorem quantizedOf_large {N : Nat} (h : nrMaxPdschTbs < N) (hN : N < 2 ^ 21) :
    3840 ≤ quantizedOf N ∧ quantizedOf N < 2 ^ 22 := by
  have hround := roundedTo_le (Nat.log2 (N - 24) - 5) (N - 24)
  have hstep : 2 ^ (Nat.log2 (N - 24) - 5) ≤ 2 ^ 15 := Nat.pow_le_pow_right (by decide) (log2_le hN)
  unfold quantizedOf
  rw [if_neg (not_le.2 h)]
  omega

/-- Rounded up, a number grows by less than the step. -/
theorem mul_ceilDiv_spec {d : Nat} (hd : 0 < d) (N : Nat) :
    N ≤ d * (N ⌈/⌉ d) ∧ d * (N ⌈/⌉ d) < N + d := by
  refine ⟨(ceilDiv_le_iff_le_mul hd).1 le_rfl, ?_⟩
  rw [Nat.ceilDiv_eq_add_pred_div, Nat.mul_comm]
  have := Nat.div_mul_le_self (N + d - 1) d
  omega

/-! ## No word overflows -/

section Words

variable {m : Type → Type} [Monad m] [LawfulMonad m] {word : Nat → m Nat}
  (hword : ∀ n < 2 ^ 32, word n = pure n)

include hword

theorem ceilIDiv_eq {a b : Nat} (h : a + b < 2 ^ 32) : ceilIDiv word a b = pure (a ⌈/⌉ b) := by
  unfold ceilIDiv
  rw [hword _ (by omega), pure_bind, Nat.ceilDiv_eq_add_pred_div]

theorem intermediateInfo_eq {p : TbsParams} (hp : p.Schedulable) :
    intermediateInfo word p = pure (infoOf p) := by
  have hre : min 156 (uint32 (12 * p.nbSymbSch.toNat + 2 ^ 32 - p.nbDmrsPrb.toNat -
      p.nbRbOh.toNat)) * p.nbRb.toNat ≤ 156 * 275 := Nat.mul_le_mul (Nat.min_le_left _ _) hp.nbRb_le
  have hrate : p.R.toNat / 5 ≤ 1896 := Nat.div_le_of_le_mul hp.R_le
  have hfirst := Nat.mul_le_mul hre hrate
  have hsecond := Nat.mul_le_mul hfirst hp.Qm_le
  have hthird := Nat.mul_le_mul hsecond hp.Nl_le
  unfold intermediateInfo infoOf
  dsimp only
  rw [hword _ (by omega), pure_bind, hword _ (by omega), pure_bind, hword _ (by omega), pure_bind,
    hword _ (by omega), pure_bind]

theorem quantizedSmall_eq {N : Nat} (h : N ≤ nrMaxPdschTbs) :
    quantizedSmall word N = pure (quantizedOf N) := by
  have hle : N >>> max 3 (Nat.log2 N - 6) <<< max 3 (Nat.log2 N - 6) ≤ nrMaxPdschTbs := by
    refine le_trans ?_ (quantizedOf_small h).2
    rw [quantizedOf, if_pos h]
    exact le_max_right _ _
  unfold quantizedSmall quantizedOf
  dsimp only
  rw [hword _ (lt_of_le_of_lt hle (by decide)), pure_bind, if_pos h]

theorem quantizedLarge_eq {N : Nat} (h : nrMaxPdschTbs < N) (hN : N < 2 ^ 21) :
    quantizedLarge word N = pure (quantizedOf N) := by
  have hround := roundedTo_le (Nat.log2 (N - 24) - 5) (N - 24)
  have hstep : 2 ^ (Nat.log2 (N - 24) - 5) ≤ 2 ^ 15 := Nat.pow_le_pow_right (by decide) (log2_le hN)
  unfold quantizedLarge quantizedOf roundIDiv
  unfold roundedTo at *
  rw [if_neg (not_le.2 h)]
  generalize Nat.log2 (N - 24) - 5 = n at *
  have hone : 1 <<< n = 2 ^ n := by rw [Nat.shiftLeft_eq, Nat.one_mul]
  simp only [hone, bind_assoc] at hround ⊢
  rw [hword _ (by omega), pure_bind]
  rw [hword _ (by omega), pure_bind, hword _ (by omega), pure_bind, pure_bind, hword _ (by omega),
    pure_bind]

theorem blocksOf_eq {C N : Nat} (hC : 0 < C) (hCN : C ≤ N) (hN : N < 2 ^ 22) :
    blocksOf word C N = pure ⟨sizeOf C N, C⟩ := by
  have hround := mul_ceilDiv_spec (d := 8 * C) (by omega) (N + 24)
  have height : C <<< 3 = 8 * C := by rw [Nat.shiftLeft_eq, Nat.mul_comm]
  unfold blocksOf sizeOf
  rw [height, hword _ (by omega), pure_bind, ceilIDiv_eq hword (by omega), pure_bind,
    hword _ (by omega), pure_bind]

/-- Where words do not overflow, the code computes with numbers. -/
theorem nrComputeTbs_eq {p : TbsParams} (hp : p.Schedulable) :
    nrComputeTbs word p = pure (tbsOf p) := by
  unfold nrComputeTbs tbsOf
  rw [intermediateInfo_eq hword hp, pure_bind]
  by_cases hsmall : infoOf p ≤ nrMaxPdschTbs
  · rw [if_pos hsmall, quantizedSmall_eq hword hsmall, pure_bind, if_pos hsmall]
  · have hlarge := not_le.1 hsmall
    obtain ⟨hmin, hmax⟩ := quantizedOf_large hlarge (infoOf_lt hp)
    rw [if_neg hsmall, quantizedLarge_eq hword hlarge (infoOf_lt hp), pure_bind, if_neg hsmall]
    have hblocks {K : Nat} (hK : 0 < K) (hK8 : 2 < K) (hKmax : K ≤ 2 ^ 16) :
        (do
          let C ← ceilIDiv word (quantizedOf (infoOf p) + 24) K
          blocksOf word C (quantizedOf (infoOf p))) =
        pure ⟨sizeOf ((quantizedOf (infoOf p) + 24) ⌈/⌉ K) (quantizedOf (infoOf p)),
          (quantizedOf (infoOf p) + 24) ⌈/⌉ K⟩ := by
      rw [ceilIDiv_eq hword (by omega), pure_bind]
      refine blocksOf_eq hword ?_ ((ceilDiv_le_iff_le_mul hK).2 (by nlinarith)) hmax
      by_contra h0
      have := (ceilDiv_le_iff_le_mul hK).1 (not_lt.1 h0)
      omega
    dsimp only
    by_cases hR : p.R ≤ 2560
    · rw [if_pos hR, if_pos hR]
      exact hblocks (by decide) (by decide) (by decide)
    · rw [if_neg hR, if_neg hR]
      by_cases h8424 : quantizedOf (infoOf p) > 8424
      · rw [if_pos h8424, if_pos h8424]
        exact hblocks (by decide) (by decide) (by decide)
      · rw [if_neg h8424, if_neg h8424, ceilIDiv_eq hword (by omega), pure_bind]
        have hround := mul_ceilDiv_spec (d := 8) (by decide) (quantizedOf (infoOf p) + 24)
        have height (q : Nat) : q <<< 3 = 8 * 1 * q := by rw [Nat.shiftLeft_eq, Nat.mul_comm]
        rw [height, hword _ (by omega), pure_bind]
        rfl

end Words

/-! ## The size -/

/-- A size below the first code block comes from the table. -/
theorem tbstableNr_find {N : Nat} (hN : N ≤ nrMaxPdschTbs) :
    8 ∣ (tbstableNr.find? (N ≤ ·)).getD 0 ∧ (tbstableNr.find? (N ≤ ·)).getD 0 ≤ nrMaxPdschTbs := by
  have hall : ∀ t ∈ tbstableNr, 8 ∣ t ∧ t ≤ nrMaxPdschTbs := by decide
  cases h : tbstableNr.find? (N ≤ ·) with
  | none =>
    have hlast := List.find?_eq_none.1 h 3824 (by decide)
    exact absurd (decide_eq_true hN) hlast
  | some t => exact hall t (List.mem_of_find?_eq_some h)

/-- Rounding a size up to whole octets in each of its code blocks does not need another one. -/
theorem ceilDiv_roundUp {N k : Nat} (hk : 0 < k) (hN : 0 < N) :
    (8 * (N ⌈/⌉ (8 * k)) * (N ⌈/⌉ (8 * (N ⌈/⌉ (8 * k))))) ⌈/⌉ (8 * k) = N ⌈/⌉ (8 * k) := by
  set C := N ⌈/⌉ (8 * k) with hC
  have hCN := (mul_ceilDiv_spec (d := 8 * k) (by omega) N).1
  rw [← hC] at hCN
  have hpos : 0 < C := by
    by_contra h0
    rw [Nat.eq_zero_of_not_pos h0, Nat.mul_zero] at hCN
    omega
  refine le_antisymm ?_ ?_
  · rw [ceilDiv_le_iff_le_mul (by omega)]
    have hle : N ⌈/⌉ (8 * C) ≤ k := (ceilDiv_le_iff_le_mul (by omega)).2 (by nlinarith)
    nlinarith [Nat.mul_le_mul_left (8 * C) hle]
  · have hup := (mul_ceilDiv_spec (d := 8 * C) (by omega) N).1
    exact (ceilDiv_le_iff_le_mul (by omega)).2 (hup.trans (ceilDiv_le_iff_le_mul (by omega) |>.1 le_rfl))

theorem sizeOf_add {C N : Nat} (hC : 0 < C) :
    sizeOf C N + 24 = 8 * C * ((N + 24) ⌈/⌉ (8 * C)) := by
  have := (mul_ceilDiv_spec (d := 8 * C) (by omega) (N + 24)).1
  unfold sizeOf
  omega

theorem getBG_large {A : Nat} (hA : nrMaxPdschTbs < A) (R : UInt16) :
    getBG A R = if R ≤ 2560 then 2 else 1 := by
  have hsmall : ¬ A ≤ 292 := by
    unfold nrMaxPdschTbs at hA
    omega
  have hR : 4 * R.toNat ≤ 10240 ↔ R ≤ 2560 := by
    rw [UInt16.le_iff_toNat_le]
    change _ ↔ R.toNat ≤ 2560
    omega
  unfold getBG
  simp only [hsmall, not_le.2 hA, hR, false_and, false_or]

/-- The code blocks of the rounded size are those of `Np_info`. -/
theorem codeBlockCount_sizeOf {N : Nat} {BG : UInt8} {k : Nat} (hk : maxCodeBlock BG = 8 * k + 24)
    (hN : maxCodeBlock BG < N + 24) (h0 : 0 < k) :
    codeBlockCount (sizeOf ((N + 24) ⌈/⌉ (8 * k)) N + 24) BG = (N + 24) ⌈/⌉ (8 * k) := by
  have hCN := (mul_ceilDiv_spec (d := 8 * k) (by omega) (N + 24)).1
  have hpos : 0 < (N + 24) ⌈/⌉ (8 * k) := by
    by_contra h
    rw [Nat.eq_zero_of_not_pos h, Nat.mul_zero] at hCN
    omega
  have hup := (mul_ceilDiv_spec (d := 8 * ((N + 24) ⌈/⌉ (8 * k))) (by omega) (N + 24)).1
  have hround := ceilDiv_roundUp h0 (show 0 < N + 24 by omega)
  rw [← sizeOf_add hpos] at hround hup
  unfold codeBlockCount
  rw [hk] at hN ⊢
  rw [if_neg (by omega), Nat.add_sub_cancel, ← Nat.ceilDiv_eq_add_pred_div, hround]

/-- A small number of bits takes its size from the table. -/
theorem tbsOf_small {p : TbsParams} (hinfo : infoOf p ≤ nrMaxPdschTbs) :
    8 ∣ (tbsOf p).nrTbs ∧ (tbsOf p).nrTbs ≤ nrMaxPdschTbs := by
  have hfind := tbstableNr_find (quantizedOf_small hinfo).2
  generalize hN : quantizedOf (infoOf p) = N at hfind
  have hsize : (tbsOf p).nrTbs = (tbstableNr.find? (N ≤ ·)).getD 0 := by
    simp only [tbsOf, hinfo, hN, if_true]
  rw [hsize]
  exact hfind

/-- A larger one is rounded up in its code blocks. -/
theorem tbsOf_large {p : TbsParams} (hinfo : nrMaxPdschTbs < infoOf p) :
    (tbsOf p).nrTbs = sizeOf (tbsOf p).C (quantizedOf (infoOf p)) ∧
      (tbsOf p).C = if p.R ≤ 2560 then (quantizedOf (infoOf p) + 24) ⌈/⌉ 3816
        else if quantizedOf (infoOf p) > 8424 then (quantizedOf (infoOf p) + 24) ⌈/⌉ 8424 else 1 := by
  have hlarge : ¬ infoOf p ≤ nrMaxPdschTbs := not_le.2 hinfo
  constructor <;> simp only [tbsOf, hlarge, if_false]

/-- It has the code blocks it was computed for. -/
theorem codeBlockCount_tbsOf {p : TbsParams} (hp : p.Schedulable)
    (hinfo : nrMaxPdschTbs < infoOf p) :
    8 * (tbsOf p).C ∣ (tbsOf p).nrTbs + 24 ∧ (tbsOf p).nrTbs < 2 ^ 27 ∧
      codeBlockCount ((tbsOf p).nrTbs + 24) (getBG (tbsOf p).nrTbs p.R) = (tbsOf p).C := by
  obtain ⟨hsize, hC⟩ := tbsOf_large hinfo
  obtain ⟨hmin, hmax⟩ := quantizedOf_large hinfo (infoOf_lt hp)
  clear hinfo
  generalize tbsOf p = r at *
  generalize quantizedOf (infoOf p) = N at *
  have hpos : 0 < r.C := by
    have hceil {k : Nat} (hk : 0 < k) : 0 < (N + 24) ⌈/⌉ k := by
      by_contra h0
      have := (ceilDiv_le_iff_le_mul hk).1 (not_lt.1 h0)
      omega
    rw [hC]
    split_ifs
    · exact hceil (by decide)
    · exact hceil (by decide)
    · exact Nat.one_pos
  have hbound : r.C ≤ N + 24 := by
    have hceil {k : Nat} (hk : 0 < k) : (N + 24) ⌈/⌉ k ≤ N + 24 :=
      (ceilDiv_le_iff_le_mul hk).2 (Nat.le_mul_of_pos_left _ hk)
    rw [hC]
    split_ifs
    · exact hceil (by decide)
    · exact hceil (by decide)
    · omega
  have hadd := sizeOf_add (N := N) hpos
  obtain ⟨hup, hround⟩ := mul_ceilDiv_spec (d := 8 * r.C) (by omega) (N + 24)
  rw [hsize, getBG_large (by unfold nrMaxPdschTbs; omega)]
  refine ⟨Dvd.intro _ hadd.symm, by omega, ?_⟩
  clear hadd hup hround hbound hpos hsize
  rw [hC]
  split_ifs with hR h8424
  · exact codeBlockCount_sizeOf (k := 477) (by decide) (by rw [maxCodeBlock, if_neg (by decide)]; omega)
      (by decide)
  · exact codeBlockCount_sizeOf (k := 1053) (by decide) (by rw [maxCodeBlock, if_pos rfl]; omega)
      (by decide)
  · have hfits : sizeOf 1 N + 24 ≤ 8448 := by
      have hceil : (N + 24) ⌈/⌉ (8 * 1) ≤ 1056 := (ceilDiv_le_iff_le_mul (by decide)).2 (by omega)
      rw [sizeOf_add Nat.one_pos]
      omega
    rw [codeBlockCount, maxCodeBlock, if_pos rfl, if_pos hfits]

/-- What `nr_segmentation` makes of a size with its CRC. -/
structure TbsResult.Segments (r : TbsResult) (R : UInt16) : Prop where
  dvd : 8 * r.C ∣ r.nrTbs + 24
  accepted : ∃ seg, nrSegmentation none (BitVec.ofNat 32 (r.nrTbs + 24)) (getBG r.nrTbs R) = .ok seg
  blocks : ∀ buffers seg,
    nrSegmentation buffers (BitVec.ofNat 32 (r.nrTbs + 24)) (getBG r.nrTbs R) = .ok seg →
      seg.C = r.C ∧ seg.K - seg.F ≤ maxCodeBlock (getBG r.nrTbs R) ∧
        seg.K ≤ maxCodeBlock (getBG r.nrTbs R)

/-- No code block with its filler is longer than the largest. -/
theorem mul_segmentColumns_le {z : Nat} (hz : z ∈ liftingSizes) (BG : UInt8) :
    z * segmentColumns BG ≤ maxCodeBlock BG := by
  have h384 := (mem_liftingSizes_iff.1 hz).2.1
  unfold segmentColumns maxCodeBlock
  split_ifs <;> omega

/-- The number and the length of the code blocks, as `nr_segmentation` returns them. -/
theorem nrSegmentation_blocks {B : BitVec 32} {BG : UInt8}
    (hfits : bitsWithCrc B.toNat BG < 2 ^ 32) :
    (∃ seg, nrSegmentation none B BG = .ok seg) ∧
      ∀ buffers seg, nrSegmentation buffers B BG = .ok seg →
        seg.C = codeBlockCount B.toNat BG ∧ seg.K - seg.F ≤ maxCodeBlock BG ∧
          seg.K ≤ maxCodeBlock BG := by
  obtain ⟨z, hz, hseg⟩ := nrSegmentation_of_fits hfits
  have hK := mul_segmentColumns_le hz.1.1 BG
  clear hz hfits
  generalize z * segmentColumns BG = K at *
  generalize codeBlockBits B.toNat BG = Kprime at *
  generalize codeBlockCount B.toNat BG = C at *
  generalize maxCodeBlock BG = Kcb at *
  refine ⟨⟨_, hseg none⟩, fun buffers seg h => ?_⟩
  rw [hseg buffers] at h
  cases buffers with
  | none =>
    cases h
    exact ⟨rfl, (Nat.sub_le _ _).trans hK, hK⟩
  | some buffers =>
    dsimp only at h
    cases houtput : segmentBlocks buffers.1 C Kprime (Kprime - codeBlockCrc B.toNat BG) K
        (K - Kprime) C 0 buffers.2 with
    | error e =>
      rw [houtput] at h
      cases h
    | ok outputBuffers =>
      rw [houtput] at h
      cases h
      exact ⟨rfl, (Nat.sub_le _ _).trans hK, hK⟩

theorem segments_tbsOf {p : TbsParams} (hp : p.Schedulable)
    (hinfo : nrMaxPdschTbs < infoOf p) : (tbsOf p).Segments p.R := by
  obtain ⟨hdvd, hlt, hcount⟩ := codeBlockCount_tbsOf hp hinfo
  generalize tbsOf p = r at *
  generalize hBG : getBG r.nrTbs p.R = BG at *
  have hB : (BitVec.ofNat 32 (r.nrTbs + 24)).toNat = r.nrTbs + 24 := by
    rw [BitVec.toNat_ofNat, Nat.mod_eq_of_lt (by omega)]
  have hfits : bitsWithCrc (BitVec.ofNat 32 (r.nrTbs + 24)).toNat BG < 2 ^ 32 := by
    have hC : r.C ≤ r.nrTbs + 24 := by
      have := Nat.le_of_dvd (by omega) hdvd
      omega
    have hcrc : r.C * codeBlockCrc (r.nrTbs + 24) BG ≤ r.C * 24 := by
      refine Nat.mul_le_mul_left _ ?_
      unfold codeBlockCrc
      split_ifs <;> decide
    rw [hB, bitsWithCrc, hcount]
    omega
  obtain ⟨haccepted, hblocks⟩ := nrSegmentation_blocks hfits
  rw [hB, hcount] at hblocks
  subst hBG
  exact ⟨hdvd, haccepted, hblocks⟩

/-- The size is a multiple of 8, is computed without overflow, and has the code blocks that
`nr_segmentation` splits it into. -/
theorem nrComputeTbs_segments (p : TbsParams) (hp : p.Schedulable) :
    ∃ r, nrComputeTbs checked32 p = some r ∧ Id.run (nrComputeTbs (fun n => pure (uint32 n)) p) = r ∧
      8 ∣ r.nrTbs ∧ (nrMaxPdschTbs < r.nrTbs → r.Segments p.R) := by
  have hchecked (n : Nat) (hn : n < 2 ^ 32) : checked32 n = pure n := by
    rw [checked32, if_pos hn, Option.pure_def]
  have hword (n : Nat) (hn : n < 2 ^ 32) : (pure (uint32 n) : Id Nat) = pure n := by
    rw [uint32, Nat.mod_eq_of_lt hn]
  refine ⟨tbsOf p, ?_, ?_, ?_⟩
  · rw [nrComputeTbs_eq hchecked hp, Option.pure_def]
  · rw [nrComputeTbs_eq hword hp, Id.run_pure]
  by_cases hinfo : infoOf p ≤ nrMaxPdschTbs
  · obtain ⟨h8, hle⟩ := tbsOf_small hinfo
    exact ⟨h8, fun hlarge => absurd hle (not_le.2 hlarge)⟩
  · have hsegments := segments_tbsOf hp (not_le.1 hinfo)
    refine ⟨?_, fun _ => hsegments⟩
    have hdvd : 8 ∣ (tbsOf p).nrTbs + 24 := (Nat.dvd_mul_right 8 _).trans hsegments.dvd
    exact (Nat.dvd_add_left (by decide)).1 hdvd

theorem nrComputeTbs_segments_largest :
    ∃ r, nrComputeTbs checked32 ⟨8, 9480, 273, 14, 12, 0, 0, 4⟩ = some r ∧
      Id.run (nrComputeTbs (fun n => pure (uint32 n)) ⟨8, 9480, 273, 14, 12, 0, 0, 4⟩) = r ∧
        8 ∣ r.nrTbs ∧ (nrMaxPdschTbs < r.nrTbs → r.Segments 9480) :=
  nrComputeTbs_segments ⟨8, 9480, 273, 14, 12, 0, 0, 4⟩
    ⟨by decide, by decide, by decide, by decide, by decide⟩

/-- The largest block on four layers. -/
example : nrComputeTbs checked32 ⟨8, 9480, 273, 14, 12, 0, 0, 4⟩ = some ⟨1277992, 152⟩ := by
  decide +kernel

end NrStack
