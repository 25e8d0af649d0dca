import NrStack.Mac.UlMacPdu

/-!
# Buffer status reports

The UE reports the index of the first table entry that is not below the number of bytes it has,
found by halving (`nrLocateBsrIndexByBufferSize_spec`). The gNB takes the entry behind it. The last
entry of the long table is `2 ^ 32 - 1`, so what it adds to an `int` for one of the last two indices
is -1, and its estimate may be too small or negative. `neverUnderReports_iff` says for which long
reports it is not.
-/

namespace NrStack

/-! ## The index that the UE reports -/

/-- `NR_SHORT_BSR_TABLE_SIZE` -/
def nrShortBsrTableSize : ℕ := 32

/-- `NR_LONG_BSR_TABLE_SIZE` -/
def nrLongBsrTableSize : ℕ := 256

/-- `get_short_bsr_value`, with its assertion. -/
def getShortBsrValue (idx : ℕ) : Option ℕ :=
  nrShortBsrTable[idx]?

/-- `get_long_bsr_value`, with its assertion. -/
def getLongBsrValue (idx : ℕ) : Option ℕ :=
  nrLongBsrTable[idx]?

/-- The loop of `nr_locate_BsrIndexByBufferSize`. The `int` is compared with an unsigned entry, so
it is read as one. -/
def locateBsrLoop (getBsrValue : ℕ → Option ℕ) (ascend : Bool) (value : UInt32) :
    ℕ → ℕ → ℕ → Option ℕ
  | 0, _, _ => none
  | fuel + 1, jl, ju =>
    if ju - jl > 1 then do
      let jm := (ju + jl) / 2
      let x ← getBsrValue jm
      if decide (value.toNat ≥ x) = ascend then locateBsrLoop getBsrValue ascend value fuel jm ju
      else locateBsrLoop getBsrValue ascend value fuel jl jm
    else some jl

/-- `nr_locate_BsrIndexByBufferSize` -/
def nrLocateBsrIndexByBufferSize (size : ℕ) (value : UInt32) : Option UInt8 :=
  if value = 0 then some 0
  else do
    let getBsrValue := if size = nrShortBsrTableSize then getShortBsrValue else getLongBsrValue
    let last ← getBsrValue (size - 1)
    let first ← getBsrValue 0
    let jl ← locateBsrLoop getBsrValue (last ≥ first) value size 0 (size - 1)
    let x ← getBsrValue jl
    some (if value.toNat = x then UInt8.ofNat jl else UInt8.ofNat (jl + 1))

/-! ## What is asked for -/

/-- Each number of bytes gets the least index whose entry is not below it, or the last one. Only 0
gets index 0, and the index does not go down when the number goes up. -/
def Quantises (size : ℕ) (table : List ℕ) : Prop :=
  (∀ value, ∃ idx, nrLocateBsrIndexByBufferSize size value = some idx ∧
    ((∃ x ∈ table, value.toNat ≤ x) →
      IsLeast {i | ∃ x, table[i]? = some x ∧ value.toNat ≤ x} idx.toNat) ∧
    ((∀ x ∈ table, x < value.toNat) → idx.toNat = size - 1) ∧ (idx = 0 ↔ value = 0)) ∧
  ∀ value value' idx idx', nrLocateBsrIndexByBufferSize size value = some idx →
    nrLocateBsrIndexByBufferSize size value' = some idx' → value ≤ value' → idx ≤ idx'

/-- The estimate of a short report is not below a number of bytes that is reported so, unless the
index is the last. -/
def ShortBsrOk (octet : UInt8) : Prop :=
  0 ≤ estimateUlBufferShortBsr octet ∧ ∀ (bytes : UInt32) (idx : UInt8),
    nrLocateBsrIndexByBufferSize nrShortBsrTableSize bytes = some idx →
      idx.toNat = octet.toNat % 32 → idx.toNat ≠ nrShortBsrTableSize - 1 →
        (bytes.toNat : ℤ) ≤ estimateUlBufferShortBsr octet

/-- A long report : a bit for each LCG, and an index for each bit that is set. -/
structure LongBsr where
  bitmap : UInt8
  indices : List UInt8
  complete : indices.length = (bsrActive bitmap).count true

/-- The bytes of the control element. -/
def LongBsr.ce (bsr : LongBsr) : List UInt8 :=
  bsr.bitmap :: bsr.indices

/-- The bytes of an LCG, if its index is not the last. -/
def unsaturatedBytes (bytes : UInt32) : ℕ :=
  if nrLocateBsrIndexByBufferSize nrLongBsrTableSize bytes = some 255 then 0 else bytes.toNat

/-- The estimate of a long report is not below the sum of numbers of bytes that are reported so,
without the LCGs whose index is the last. -/
def LongBsrOk (bsr : LongBsr) : Prop :=
  ∃ estimSize, estimateUlBufferLongBsr bsr.ce = .ok estimSize ∧ 0 ≤ estimSize ∧
    ∀ lcgs : List UInt32,
      lcgs.map (nrLocateBsrIndexByBufferSize nrLongBsrTableSize) = bsr.indices.map some →
        (((lcgs.map unsaturatedBytes).sum : ℕ) : ℤ) ≤ estimSize

/-- Both tables, each short report, and one long report. -/
def NeverUnderReports (bsr : LongBsr) : Prop :=
  Quantises nrShortBsrTableSize nrShortBsrTable ∧ Quantises nrLongBsrTableSize nrLongBsrTable ∧
    (∀ octet, ShortBsrOk octet) ∧ LongBsrOk bsr

/-- What the entry behind the one of an index has more, below the last two. -/
def surplus (idx : UInt8) : ℕ :=
  if 0 < idx ∧ idx < 254 then
    nrLongBsrTable.getD (idx.toNat + 1) 0 - nrLongBsrTable.getD idx.toNat 0
  else 0

/-- What the last two indices take away. -/
def shortfall (idx : UInt8) : ℕ :=
  if idx = 254 then nrLongBsrTable.getD 254 0 + 1 else if idx = 255 then 1 else 0

/-- The surplus of the LCGs makes up for the last two indices. -/
def LongBsrFits (bsr : LongBsr) : Prop :=
  (bsr.indices.map shortfall).sum ≤ (bsr.indices.map surplus).sum

/-! ## The search -/

section Search

variable {table : List ℕ} {value : UInt32} {fuel jl ju : ℕ}

theorem getElem_le_of_isChain (h : table.IsChain (· < ·)) {i j : ℕ} (hij : i ≤ j)
    (hj : j < table.length) : table[i] ≤ table[j] := by
  rcases Nat.eq_or_lt_of_le hij with rfl | hlt
  · exact le_rfl
  · exact (List.pairwise_iff_getElem.mp (List.isChain_iff_pairwise.mp h) i j _ hj hlt).le

/-- The least index whose entry is not below the value, or the last index. -/
structure Locates (table : List ℕ) (value idx : ℕ) : Prop where
  lt : idx < table.length
  above : ∀ (i : ℕ) (hi : i < table.length), i < idx → table[i] < value
  reached : value ≤ table[idx] ∨ idx = table.length - 1

/-- The entry at the lower end stays below the value or is it, the one at the upper end is above or
the last. -/
theorem locateBsrLoop_spec (hju : ju < table.length)
    (hlt : jl < ju) (hfuel : ju - jl ≤ fuel) (hlow : table[jl] ≤ value.toNat)
    (hhigh : value.toNat < table[ju] ∨ ju = table.length - 1) :
    ∃ jl', ∃ h : jl' + 1 < table.length,
      locateBsrLoop (fun idx => table[idx]?) true value fuel jl ju = some jl' ∧
        table[jl'] ≤ value.toNat ∧
          (value.toNat < table[jl' + 1] ∨ jl' + 1 = table.length - 1) := by
  induction fuel generalizing jl ju with
  | zero => omega
  | succ fuel ih =>
    by_cases hwide : ju - jl > 1
    · have hjm : (ju + jl) / 2 < table.length := by omega
      by_cases hup : table[(ju + jl) / 2] ≤ value.toNat
      · obtain ⟨jl', h, hloop, hspec⟩ := ih hju (by omega) (by omega) hup hhigh
        refine ⟨jl', h, ?_, hspec⟩
        simpa [locateBsrLoop, hwide, hjm, hup] using hloop
      · obtain ⟨jl', h, hloop, hspec⟩ :=
          ih hjm (by omega) (by omega) hlow (.inl (Nat.lt_of_not_le hup))
        refine ⟨jl', h, ?_, hspec⟩
        simpa [locateBsrLoop, hwide, hjm, hup] using hloop
    · obtain rfl : ju = jl + 1 := by omega
      exact ⟨jl, hju, by simp [locateBsrLoop], hlow, hhigh⟩

/-- A larger value has no smaller index. -/
theorem Locates.le_of_le {value value' idx idx' : ℕ} (h : Locates table value idx)
    (h' : Locates table value' idx') (hle : value ≤ value') : idx ≤ idx' := by
  by_contra hlt
  have hbelow := h.above idx' h'.lt (by omega)
  have hlt' := h.lt
  rcases h'.reached with hreached | hlast <;> omega

/-- What the search needs of a table and its size. -/
structure BsrTable (size : ℕ) (table : List ℕ) : Prop where
  get : (if size = nrShortBsrTableSize then getShortBsrValue else getLongBsrValue) =
    fun idx => table[idx]?
  length : table.length = size
  size_le : size ≤ 256
  two_le : 2 ≤ size
  head : table[0]? = some 0
  increasing : table.IsChain (· < ·)

variable {size : ℕ}

theorem bsrTable_short : BsrTable nrShortBsrTableSize nrShortBsrTable where
  get := rfl
  length := by decide
  size_le := by decide
  two_le := by decide
  head := rfl
  increasing := by decide

theorem bsrTable_long : BsrTable nrLongBsrTableSize nrLongBsrTable where
  get := rfl
  length := by decide +kernel
  size_le := by decide
  two_le := by decide
  head := rfl
  increasing := by decide +kernel

namespace BsrTable

variable (h : BsrTable size table)
include h

theorem getElem_zero (h0 : 0 < table.length) : table[0] = 0 := by
  simpa [List.getElem?_eq_getElem h0] using h.head

theorem nrLocateBsrIndexByBufferSize_spec (value : UInt32) :
    ∃ idx, nrLocateBsrIndexByBufferSize size value = some idx ∧
      Locates table value.toNat idx.toNat := by
  obtain ⟨hlength, hsize, htwo⟩ := And.intro h.length (And.intro h.size_le h.two_le)
  have hzero := h.getElem_zero (by omega)
  by_cases hvalue : value = 0
  · refine ⟨0, by simp [nrLocateBsrIndexByBufferSize, hvalue], by simp; omega, ?_, ?_⟩
    · intro i hi hlt
      exact absurd hlt (by simp)
    · exact .inl (by simp [hvalue])
  obtain ⟨jl, hjl, hloop, hlow, hhigh⟩ := @locateBsrLoop_spec table value size 0 (size - 1)
    (by omega) (by omega) (by omega) (by omega) (.inr (by omega))
  have hrun : nrLocateBsrIndexByBufferSize size value =
      some (if value.toNat = table[jl] then UInt8.ofNat jl else UInt8.ofNat (jl + 1)) := by
    have hlast : size - 1 < table.length := by omega
    simp only [nrLocateBsrIndexByBufferSize, if_neg hvalue, h.get, h.head,
      List.getElem?_eq_getElem hlast, Option.bind_eq_bind, Option.bind_some, ge_iff_le,
      Nat.zero_le, decide_true, hloop, List.getElem?_eq_getElem (Nat.lt_of_succ_lt hjl)]
  refine ⟨_, hrun, ?_⟩
  split
  · next heq =>
    have hidx : (UInt8.ofNat jl).toNat = jl := by
      rw [UInt8.toNat_ofNat']
      omega
    refine ⟨by omega, fun i hi hlt => ?_, .inl ?_⟩
    · rw [heq]
      exact List.pairwise_iff_getElem.mp (List.isChain_iff_pairwise.mp h.increasing) i jl hi
        (by omega) (by omega)
    · simp only [hidx]
      exact heq.le
  · next hne =>
    have hidx : (UInt8.ofNat (jl + 1)).toNat = jl + 1 := by
      rw [UInt8.toNat_ofNat']
      omega
    refine ⟨by omega, fun i hi hlt => ?_, ?_⟩
    · have hle := getElem_le_of_isChain h.increasing (show i ≤ jl by omega) (by omega)
      omega
    · simp only [hidx]
      exact hhigh.imp_left fun hlt => hlt.le

theorem locates_of_eq_some {idx : UInt8}
    (hidx : nrLocateBsrIndexByBufferSize size value = some idx) :
    Locates table value.toNat idx.toNat := by
  obtain ⟨idx', hidx', hloc⟩ := h.nrLocateBsrIndexByBufferSize_spec value
  rw [hidx] at hidx'
  exact Option.some.inj hidx' ▸ hloc

theorem isLeast_of_locates {value idx : ℕ} (hloc : Locates table value idx)
    (hmem : ∃ x ∈ table, value ≤ x) :
    IsLeast {i | ∃ x, table[i]? = some x ∧ value ≤ x} idx := by
  constructor
  · refine ⟨_, List.getElem?_eq_getElem hloc.lt, hloc.reached.elim id fun hlast => ?_⟩
    obtain ⟨x, hx, hle⟩ := hmem
    obtain ⟨i, hi, rfl⟩ := List.getElem_of_mem hx
    exact hle.trans (getElem_le_of_isChain h.increasing (by omega) hloc.lt)
  · rintro i ⟨x, hx, hle⟩
    obtain ⟨hi, rfl⟩ := List.getElem?_eq_some_iff.mp hx
    by_contra hlt
    have hbelow := hloc.above i hi (by omega)
    omega

theorem quantises : Quantises size table := by
  have hlength := h.length
  have htwo := h.two_le
  refine ⟨fun value => ?_, fun value value' idx idx' hidx hidx' hle => ?_⟩
  · obtain ⟨idx, hidx, hloc⟩ := h.nrLocateBsrIndexByBufferSize_spec value
    refine ⟨idx, hidx, h.isLeast_of_locates hloc, fun hall => ?_, ?_⟩
    · have hlt := hall _ (List.getElem_mem hloc.lt)
      rcases hloc.reached with hreached | hlast <;> omega
    · have hzero := h.getElem_zero (by omega)
      rw [← UInt8.toNat_inj, ← UInt32.toNat_inj]
      constructor
      · intro hidx0
        rcases hloc.reached with hreached | hlast
        · simpa [hidx0, hzero] using hreached
        · rw [hidx0, UInt8.toNat_zero] at hlast
          omega
      · intro hvalue
        by_contra hpos
        have hbelow := hloc.above 0 (by omega) (Nat.pos_of_ne_zero hpos)
        rw [hvalue, UInt32.toNat_zero] at hbelow
        omega
  · exact UInt8.le_iff_toNat_le.mpr ((h.locates_of_eq_some hidx).le_of_le
      (h.locates_of_eq_some hidx') (UInt32.le_iff_toNat_le.mp hle))

/-- An entry of the table has its own index. -/
theorem nrLocateBsrIndexByBufferSize_getElem {idx : UInt8} (hidx : idx.toNat < table.length)
    (hvalue : value.toNat = table[idx.toNat]) :
    nrLocateBsrIndexByBufferSize size value = some idx := by
  have hloc : Locates table value.toNat idx.toNat :=
    ⟨hidx, fun i hi hlt => hvalue ▸ List.pairwise_iff_getElem.mp
      (List.isChain_iff_pairwise.mp h.increasing) i _ hi hidx hlt, .inl hvalue.le⟩
  obtain ⟨idx', hidx', hloc'⟩ := h.nrLocateBsrIndexByBufferSize_spec value
  rw [hidx', UInt8.toNat_inj.mp (Nat.le_antisymm (hloc.le_of_le hloc' le_rfl)
    (hloc'.le_of_le hloc le_rfl))]

/-- A value is not above the entry of its index, unless the index is the last. -/
theorem toNat_le_getElem {idx : UInt8}
    (hidx : nrLocateBsrIndexByBufferSize size value = some idx) (hlast : idx.toNat ≠ size - 1)
    (hlt : idx.toNat < table.length) : value.toNat ≤ table[idx.toNat] := by
  have hlength := h.length
  exact (h.locates_of_eq_some hidx).reached.resolve_right (by omega)

end BsrTable

end Search

/-! ## Short reports -/

theorem shortBsrOk (octet : UInt8) : ShortBsrOk octet := by
  refine ⟨Int.natCast_nonneg _, fun bytes idx hidx hocted hlast => ?_⟩
  have hlength : nrShortBsrTable.length = 32 := bsrTable_short.length
  have hbound : min (overestimBsrIndex (octet.toNat % 32)) 31 < nrShortBsrTable.length := by omega
  have hle := bsrTable_short.toNat_le_getElem hidx hlast (by omega)
  have hmono : nrShortBsrTable[idx.toNat] ≤
      nrShortBsrTable[min (overestimBsrIndex (octet.toNat % 32)) 31] := by
    refine getElem_le_of_isChain bsrTable_short.increasing ?_ hbound
    rw [hocted]
    unfold overestimBsrIndex
    split <;> omega
  simp only [estimateUlBufferShortBsr, List.getD_eq_getElem?_getD, List.getElem?_eq_getElem hbound,
    Option.getD_some]
  exact_mod_cast hle.trans hmono

/-! ## Long reports -/

/-- What an index adds to the estimate. -/
def addedSize (idx : UInt8) : ℤ :=
  Int.bmod (nrLongBsrTable.getD (min (overestimBsrIndex idx.toNat) 255) 0 : ℕ) (2 ^ 32)

/-- The most bytes that an index stands for, none for the last. -/
def mostBytes (idx : UInt8) : ℕ :=
  if idx = 255 then 0 else nrLongBsrTable.getD idx.toNat 0

theorem addedSize_eq (idx : UInt8) :
    addedSize idx = mostBytes idx + surplus idx - shortfall idx := by
  have hall : ∀ n < 256, addedSize (UInt8.ofNat n) =
      mostBytes (UInt8.ofNat n) + surplus (UInt8.ofNat n) - shortfall (UInt8.ofNat n) := by
    decide +kernel
  simpa using hall idx.toNat idx.toNat_lt

theorem abs_addedSize_le (idx : UInt8) : |addedSize idx| ≤ 162676736 := by
  have hall : ∀ n < 256, |addedSize (UInt8.ofNat n)| ≤ 162676736 := by
    decide +kernel
  simpa using hall idx.toNat idx.toNat_lt

/-- An entry is added as the `int` that it is. -/
theorem bmod_add_entry {estimSize : ℤ} (idx : UInt8) (h : |estimSize| + 162676736 < 2 ^ 31) :
    Int.bmod (estimSize + (nrLongBsrTable.getD (min (overestimBsrIndex idx.toNat) 255) 0 : ℕ))
      (2 ^ 32) = estimSize + addedSize idx := by
  have habs := abs_le.mp (abs_addedSize_le idx)
  have hestim := abs_lt.mp (lt_sub_iff_add_lt.mpr h)
  unfold addedSize at habs ⊢
  -- the table is not looked at any more
  generalize nrLongBsrTable.getD (min (overestimBsrIndex idx.toNat) 255) 0 = entry at habs ⊢
  rw [← Int.add_bmod_bmod]
  generalize Int.bmod entry (2 ^ 32) = added at habs ⊢
  refine Int.bmod_eq_of_le ?_ ?_ <;> omega

/-- The sum of eight entries stays an `int`. -/
theorem estimateLongBsrLoop_eq (payload : List UInt8) :
    ∀ (active : List Bool) (m : ℕ) (estimSize : ℤ),
      (payload.drop m).length = active.count true →
        |estimSize| + 162676736 * active.count true < 2 ^ 31 →
          estimateLongBsrLoop payload active m estimSize =
            .ok (estimSize + ((payload.drop m).map addedSize).sum)
  | [], m, estimSize, hlength, _ => by
    have hdrop : payload.drop m = [] := List.length_eq_zero_iff.mp hlength
    simp [estimateLongBsrLoop, hdrop, pure, Except.pure]
  | false :: active, m, estimSize, hlength, hbound => by
    simpa [estimateLongBsrLoop] using
      estimateLongBsrLoop_eq payload active m estimSize (by simpa using hlength)
        (by simpa using hbound)
  | true :: active, m, estimSize, hlength, hbound => by
    rw [List.count_cons_self] at hlength hbound
    have hm : m < payload.length := by
      rw [List.length_drop] at hlength
      omega
    have hdrop : payload.drop m = payload[m] :: payload.drop (m + 1) :=
      List.drop_eq_getElem_cons hm
    have habs := abs_addedSize_le payload[m]
    have htri := abs_add_le estimSize (addedSize payload[m])
    have hsum := bmod_add_entry payload[m] (show |estimSize| + 162676736 < 2 ^ 31 by omega)
    have htail := estimateLongBsrLoop_eq payload active (m + 1) (estimSize + addedSize payload[m])
      (by rw [List.length_drop] at hlength ⊢; omega) (by omega)
    simp only [estimateLongBsrLoop, pduOctet_of_lt hm, ok_bind]
    rw [hsum, htail, hdrop, List.map_cons, List.sum_cons, add_assoc]

theorem estimateUlBufferLongBsr_eq (bsr : LongBsr) :
    estimateUlBufferLongBsr bsr.ce = .ok (bsr.indices.map addedSize).sum := by
  have hcount : (bsrActive bsr.bitmap).count true ≤ 8 :=
    List.count_le_length.trans (by simp [bsrActive])
  have hloop := estimateLongBsrLoop_eq bsr.indices (bsrActive bsr.bitmap) 0 0
    (by simpa using bsr.complete) (by rw [abs_zero]; omega)
  simpa [estimateUlBufferLongBsr, LongBsr.ce] using hloop

/-- What is added is what the LCGs may have, more by the surplus and less by the shortfall. -/
theorem sum_addedSize (indices : List UInt8) :
    (indices.map addedSize).sum = ((indices.map mostBytes).sum : ℕ) +
      ((indices.map surplus).sum : ℕ) - ((indices.map shortfall).sum : ℕ) := by
  induction indices with
  | nil => rfl
  | cons idx indices ih =>
    simp only [List.map_cons, List.sum_cons, ih, addedSize_eq]
    push_cast
    ring

theorem toNat_lt_nrLongBsrTable (idx : UInt8) : idx.toNat < nrLongBsrTable.length :=
  lt_of_lt_of_eq idx.toNat_lt bsrTable_long.length.symm

theorem unsaturatedBytes_le {bytes : UInt32} {idx : UInt8}
    (hidx : nrLocateBsrIndexByBufferSize nrLongBsrTableSize bytes = some idx) :
    unsaturatedBytes bytes ≤ mostBytes idx := by
  have hlt := toNat_lt_nrLongBsrTable idx
  unfold unsaturatedBytes mostBytes
  by_cases hlast : idx = 255
  · simp [hidx, hlast]
  · have hle := bsrTable_long.toNat_le_getElem hidx
      (fun heq => hlast (UInt8.toNat_inj.mp heq)) hlt
    simpa [hidx, hlast, List.getD_eq_getElem?_getD, hlt] using hle

/-- Each index is reported for a number of bytes that is the most. -/
theorem exists_unsaturatedBytes_eq (idx : UInt8) :
    ∃ bytes, nrLocateBsrIndexByBufferSize nrLongBsrTableSize bytes = some idx ∧
      unsaturatedBytes bytes = mostBytes idx := by
  have hlt := toNat_lt_nrLongBsrTable idx
  have hentry : nrLongBsrTable[idx.toNat] < 2 ^ 32 := by
    have hall : ∀ x ∈ nrLongBsrTable, x < 2 ^ 32 := by
      decide +kernel
    exact hall _ (List.getElem_mem hlt)
  have hvalue : (UInt32.ofNat nrLongBsrTable[idx.toNat]).toNat = nrLongBsrTable[idx.toNat] := by
    rw [UInt32.toNat_ofNat']
    exact Nat.mod_eq_of_lt hentry
  have hidx := bsrTable_long.nrLocateBsrIndexByBufferSize_getElem hlt hvalue
  refine ⟨_, hidx, ?_⟩
  unfold unsaturatedBytes mostBytes
  by_cases hlast : idx = 255
  · rw [hidx, if_pos (congrArg some hlast), if_pos hlast]
  · simp [hidx, hlast, hvalue, List.getD_eq_getElem?_getD, hlt]

theorem sum_unsaturatedBytes_le : ∀ {lcgs : List UInt32} {indices : List UInt8},
    lcgs.map (nrLocateBsrIndexByBufferSize nrLongBsrTableSize) = indices.map some →
      (lcgs.map unsaturatedBytes).sum ≤ (indices.map mostBytes).sum
  | [], [], _ => le_rfl
  | bytes :: lcgs, idx :: indices, h => by
    simp only [List.map_cons, List.cons.injEq] at h
    simp only [List.map_cons, List.sum_cons]
    exact Nat.add_le_add (unsaturatedBytes_le h.1) (sum_unsaturatedBytes_le h.2)

theorem exists_sum_unsaturatedBytes_eq : ∀ indices : List UInt8, ∃ lcgs : List UInt32,
    lcgs.map (nrLocateBsrIndexByBufferSize nrLongBsrTableSize) = indices.map some ∧
      (lcgs.map unsaturatedBytes).sum = (indices.map mostBytes).sum
  | [] => ⟨[], rfl, rfl⟩
  | idx :: indices => by
    obtain ⟨bytes, hidx, hbytes⟩ := exists_unsaturatedBytes_eq idx
    obtain ⟨lcgs, hmap, hsum⟩ := exists_sum_unsaturatedBytes_eq indices
    exact ⟨bytes :: lcgs, by simp [hidx, hmap], by simp [hbytes, hsum]⟩

/-- A long report is estimated well if and only if the surplus of its LCGs makes up for those with
one of the last two indices. -/
theorem longBsrOk_iff (bsr : LongBsr) : LongBsrOk bsr ↔ LongBsrFits bsr := by
  have hsum := sum_addedSize bsr.indices
  constructor
  · rintro ⟨estimSize, hrun, -, hbytes⟩
    rw [estimateUlBufferLongBsr_eq, Except.ok.injEq] at hrun
    obtain ⟨lcgs, hmap, hmost⟩ := exists_sum_unsaturatedBytes_eq bsr.indices
    have hle := hbytes lcgs hmap
    unfold LongBsrFits
    omega
  · intro hfits
    unfold LongBsrFits at hfits
    refine ⟨_, estimateUlBufferLongBsr_eq bsr, by omega, fun lcgs hmap => ?_⟩
    have hle := sum_unsaturatedBytes_le hmap
    omega

/-- Both searches and the short estimate are right ; the long one is for the reports that fit. -/
theorem neverUnderReports_iff (bsr : LongBsr) : NeverUnderReports bsr ↔ LongBsrFits bsr :=
  ⟨fun h => (longBsrOk_iff bsr).mp h.2.2.2, fun h =>
    ⟨bsrTable_short.quantises, bsrTable_long.quantises, shortBsrOk, (longBsrOk_iff bsr).mpr h⟩⟩

/-- One LCG with the last index : the estimate is -1. -/
theorem not_neverUnderReports : ¬∀ bsr : LongBsr, NeverUnderReports bsr := by
  intro h
  obtain ⟨estimSize, hrun, hpos, -⟩ := (h ⟨1, [255], by decide⟩).2.2.2
  have hestim : estimateUlBufferLongBsr [1, 255] = .ok (-1) := by decide +kernel
  obtain rfl : -1 = estimSize := Except.ok.inj (hestim.symm.trans hrun)
  omega

end NrStack
