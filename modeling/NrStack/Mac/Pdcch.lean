import NrStack.Coding.Segmentation
import NrStack.Library.Marks

/-!
# The resource blocks of the PDCCH

`find_pdcch_candidate` and `fill_pdcch_vrb_map` of `gNB_scheduler_primitives.c`. The first checks the
resource blocks of a candidate, the second marks them. They agree, so no two DCIs of a slot share a
resource block in a symbol, as long as the aggregation level fits in the CORESET : above it the search
divides by zero (`not_findPdcchCandidate_isSome`). `verify_agg_levels` of the configuration leaves no
candidates to such a level.
-/

namespace NrStack

/-! ## The configuration -/

/-- `reg_BundleSize` and `interleaverSize` : `n2`, `n3` or `n6`. -/
inductive RegCount
  | n2
  | n3
  | n6
deriving DecidableEq, Repr

/-- As the code reads it : 6, or 2 more than the value of the enumeration. -/
def RegCount.toNat : RegCount → Nat
  | n2 => 2
  | n3 => 3
  | n6 => 6

theorem RegCount.toNat_eq (c : RegCount) : c.toNat = 2 ∨ c.toNat = 3 ∨ c.toNat = 6 := by
  cases c <;> decide

/-- `cce_REG_MappingType.choice.interleaved`. -/
structure CceRegInterleaved where
  regBundleSize : RegCount
  interleaverSize : RegCount
  shiftIndex : Option Nat
deriving DecidableEq, Repr

/-- `NR_ControlResourceSet_t`. A CORESET has one to three symbols. -/
structure ControlResourceSet where
  frequencyDomainResources : List UInt8
  duration : Nat
  cceRegMappingType : Option CceRegInterleaved
  length_eq : frequencyDomainResources.length = 6
  duration_pos : 0 < duration
  duration_le : duration ≤ 3
deriving DecidableEq, Repr

/-- The bits of `frequencyDomainResources`, the high one of an octet first. -/
def ControlResourceSet.resourceBits (coreset : ControlResourceSet) : List Bool :=
  coreset.frequencyDomainResources.flatMap fun octet =>
    (List.range 8).map fun t => octet.toNat.testBit (7 - t)

/-- `get_coreset_num_cces` : the last three bits are not used. -/
def getCoresetNumCces (coreset : ControlResourceSet) : Nat :=
  6 * (coreset.resourceBits.take 45).count true * coreset.duration / 6

/-- What the scheduler keeps of a PDCCH (`NR_sched_pdcch_t`). -/
structure SchedPdcch where
  BWPStart : Nat
  startSymbolIndex : Nat
  durationSymbols : Nat
  regBundleSize : Nat
  interleaverSize : Nat
  shiftIndex : Nat
  rbStart : Nat
  nRb : Nat
deriving DecidableEq, Repr

/-- The first monitored symbol of the `sps` in a slot. -/
def firstMonitored (monitoringSymbolsWithinSlot : UInt8 × UInt8) (sps : Nat) : Option Nat :=
  let symbols := monitoringSymbolsWithinSlot.1.toNat <<< (sps - 8) |||
    monitoringSymbolsWithinSlot.2.toNat >>> (16 - sps)
  (List.range sps).find? fun i => symbols.testBit (sps - 1 - i)

/-- `set_pdcch_structure`, in a bandwidth part from `BWPStart` on. Without a monitored symbol
`StartSymbolIndex` is not set. -/
def setPdcchStructure (BWPStart : Nat) (monitoringSymbolsWithinSlot : UInt8 × UInt8) (sps : Nat)
    (physCellId : Nat) (coreset : ControlResourceSet) : Option SchedPdcch := do
  let startSymbolIndex ← firstMonitored monitoringSymbolsWithinSlot sps
  let (regBundleSize, interleaverSize, shiftIndex) := match coreset.cceRegMappingType with
    | some interleaved => (interleaved.regBundleSize.toNat, interleaved.interleaverSize.toNat,
        interleaved.shiftIndex.getD physCellId)
    | none => (6, 0, 0)
  return {
    BWPStart
    startSymbolIndex
    durationSymbols := coreset.duration
    regBundleSize
    interleaverSize
    shiftIndex
    rbStart := if true ∈ coreset.resourceBits then 6 * coreset.resourceBits.idxOf true else 0
    nRb := 6 * coreset.resourceBits.count true }

/-- `verify_agg_levels` : the candidates of the levels 1, 2, 4, 8 and 16. -/
def verifyAggLevels (numCceInCoreset : Nat) (candidates : List Nat) : List Nat :=
  candidates.mapIdx fun i num =>
    let num := if num = 7 then 8 else num
    let num := if num * 2 ^ i > numCceInCoreset then numCceInCoreset / 2 ^ i else num
    min num 7

/-! ## The search and the marks -/

/-- `SL_to_bitmap`. -/
def slToBitmap (startSymbolIndex nrOfSymbols : Nat) : BitVec 16 :=
  BitVec.ofNat 16 ((1 <<< nrOfSymbols - 1) <<< startSymbolIndex)

/-- `vrb_map` of a beam : a bit for each symbol of a resource block. -/
abbrev VrbMap :=
  Marks Nat 16

/-- `cce_to_reg_interleaving`, or a division by zero. -/
def cceToRegInterleaving (R k nShift C L NRegs : Nat) : Option Nat :=
  if R = 0 then some k
  else if NRegs / L = 0 then none
  else some ((k % R * C + k / R + nShift) % (NRegs / L))

/-- The loops over the CCEs, the REG bundles and the resource blocks of a candidate, until one is
taken. -/
def candidateTaken (vrbMap : VrbMap) (pdcch : SchedPdcch) (coreset : ControlResourceSet)
    (firstCce aggregation : Nat) : Option Bool :=
  let NSymb := coreset.duration
  let NRegs := pdcch.nRb * NSymb
  let R := pdcch.interleaverSize
  let L := pdcch.regBundleSize
  let C := if R > 0 then NRegs / (L * R) else 0
  let BRb := L / NSymb
  (List.range' firstCce aggregation).anyM fun j =>
    (List.range' (6 * j / L) (6 / L)).anyM fun k => do
      let f ← cceToRegInterleaving R k pdcch.shiftIndex C L NRegs
      return (List.range BRb).any fun rb =>
        vrbMap (pdcch.BWPStart + f * BRb + rb) &&& slToBitmap pdcch.startSymbolIndex NSymb != 0

/-- The first CCE of candidate `m`, or a division by zero. The sum is a `uint32_t`. -/
def firstCceOf (aggregation nrOfCandidates NCces Y m : Nat) : Option Nat :=
  if NCces / aggregation = 0 then none
  else some (aggregation *
    (uint32 (Y + m * NCces / (aggregation * nrOfCandidates)) % (NCces / aggregation)))

/-- `find_pdcch_candidate` : the first candidate that is not taken. -/
def findPdcchCandidate (vrbMap : VrbMap) (aggregation nrOfCandidates : Nat) (pdcch : SchedPdcch)
    (coreset : ControlResourceSet) (Y : Nat) : Option (Option Nat) :=
  let NCces := pdcch.nRb * coreset.duration / 6
  (List.range nrOfCandidates).findSomeM? fun m => do
    let firstCce ← firstCceOf aggregation nrOfCandidates NCces Y m
    return if ← candidateTaken vrbMap pdcch coreset firstCce aggregation then none else some firstCce

/-- `fill_pdcch_vrb_map`. -/
def fillPdcchVrbMap (vrbMap : VrbMap) (pdcch : SchedPdcch) (firstCce aggregation : Nat) :
    Option VrbMap :=
  let L := pdcch.regBundleSize
  let R := pdcch.interleaverSize
  let NSymb := pdcch.durationSymbols
  let NRegs := pdcch.nRb * NSymb
  let BRb := L / NSymb
  let C := if R > 0 then NRegs / (L * R) else 0
  (List.range' firstCce aggregation).foldlM (fun vrbMap j =>
    (List.range' (6 * j / L) (6 / L)).foldlM (fun vrbMap k => do
      let f ← cceToRegInterleaving R k pdcch.shiftIndex C L NRegs
      return (List.range BRb).foldl (fun vrbMap rb =>
        vrbMap.set (slToBitmap pdcch.startSymbolIndex NSymb) (pdcch.BWPStart + f * BRb + rb))
        vrbMap) vrbMap) vrbMap

/-! ## The resource blocks of a candidate -/

namespace SchedPdcch

variable (pdcch : SchedPdcch)

/-- The REGs. -/
def numRegs : Nat :=
  pdcch.nRb * pdcch.durationSymbols

/-- The CCEs. -/
def numCces : Nat :=
  pdcch.numRegs / 6

/-- The REG bundle that bundle `k` is mapped to. -/
def bundle (k : Nat) : Nat :=
  if pdcch.interleaverSize = 0 then k
  else (k % pdcch.interleaverSize * (pdcch.numRegs / (pdcch.regBundleSize * pdcch.interleaverSize)) +
    k / pdcch.interleaverSize + pdcch.shiftIndex) % (pdcch.numRegs / pdcch.regBundleSize)

/-- The resource blocks of bundle `k`. -/
def bundleRbs (k : Nat) : List Nat :=
  let BRb := pdcch.regBundleSize / pdcch.durationSymbols
  (List.range BRb).map fun rb => pdcch.BWPStart + pdcch.bundle k * BRb + rb

/-- The resource blocks of a candidate, in its symbols. -/
def grant (firstCce aggregation : Nat) : Grant Nat 16 where
  cells := (List.range' firstCce aggregation).flatMap fun j =>
    (List.range' (6 * j / pdcch.regBundleSize) (6 / pdcch.regBundleSize)).flatMap pdcch.bundleRbs
  bits := slToBitmap pdcch.startSymbolIndex pdcch.durationSymbols

/-- What `set_pdcch_structure` makes of a CORESET. -/
structure Built (coreset : ControlResourceSet) : Prop where
  durationSymbols_eq : pdcch.durationSymbols = coreset.duration
  nRb_eq : pdcch.nRb = 6 * coreset.resourceBits.count true
  regBundleSize_mem : pdcch.regBundleSize = 2 ∨ pdcch.regBundleSize = 3 ∨ pdcch.regBundleSize = 6

end SchedPdcch

theorem built_of_setPdcchStructure {BWPStart sps physCellId : Nat} {monitoring : UInt8 × UInt8}
    {coreset : ControlResourceSet} {pdcch : SchedPdcch}
    (h : setPdcchStructure BWPStart monitoring sps physCellId coreset = some pdcch) :
    pdcch.Built coreset := by
  obtain ⟨i, -, h⟩ := Option.bind_eq_some_iff.1 h
  cases h
  refine ⟨rfl, rfl, ?_⟩
  cases coreset.cceRegMappingType with
  | none => exact .inr (.inr rfl)
  | some interleaved => exact interleaved.regBundleSize.toNat_eq

section Built

variable {pdcch : SchedPdcch} {coreset : ControlResourceSet} (hbuilt : pdcch.Built coreset)
  (hcces : 0 < pdcch.numCces)

include hbuilt hcces

/-- The interleaver does not divide by zero in a CORESET with a CCE. -/
theorem cceToRegInterleaving_eq (k : Nat) :
    cceToRegInterleaving pdcch.interleaverSize k pdcch.shiftIndex
      (if pdcch.interleaverSize > 0 then
        pdcch.numRegs / (pdcch.regBundleSize * pdcch.interleaverSize) else 0)
      pdcch.regBundleSize pdcch.numRegs = some (pdcch.bundle k) := by
  have hregs : pdcch.numRegs / pdcch.regBundleSize ≠ 0 := by
    have h6 : 6 ≤ pdcch.numRegs := (Nat.div_pos_iff.1 hcces).2
    obtain h | h | h := hbuilt.regBundleSize_mem <;> rw [h] <;> omega
  unfold cceToRegInterleaving SchedPdcch.bundle
  by_cases hR : pdcch.interleaverSize = 0
  · rw [if_pos hR, if_pos hR]
  · rw [if_neg hR, if_neg hregs, if_neg hR, if_pos (Nat.pos_of_ne_zero hR)]

/-- A candidate is found free exactly if its resource blocks are. -/
theorem candidateTaken_eq (vrbMap : VrbMap) (firstCce aggregation : Nat) :
    candidateTaken vrbMap pdcch coreset firstCce aggregation =
      some ((pdcch.grant firstCce aggregation).cells.any fun rb =>
        vrbMap rb &&& (pdcch.grant firstCce aggregation).bits != 0) := by
  unfold candidateTaken
  simp only [← hbuilt.durationSymbols_eq]
  have hf := cceToRegInterleaving_eq hbuilt hcces
  unfold SchedPdcch.numRegs at hf
  simp only [hf, Option.bind_eq_bind, Option.bind_some, List.anyM_pure]
  rw [Option.pure_def, SchedPdcch.grant]
  simp only [List.any_flatMap, SchedPdcch.bundleRbs, List.any_map, Function.comp_def]

theorem candidateTaken_false {vrbMap : VrbMap} {firstCce aggregation : Nat} :
    candidateTaken vrbMap pdcch coreset firstCce aggregation = some false ↔
      vrbMap.Free (pdcch.grant firstCce aggregation) := by
  rw [candidateTaken_eq hbuilt hcces, Option.some_inj, List.any_eq_false]
  simp only [bne_iff_ne, ne_eq, not_not]
  rfl

/-- Exactly these resource blocks are marked. -/
theorem fillPdcchVrbMap_eq (vrbMap : VrbMap) (firstCce aggregation : Nat) :
    fillPdcchVrbMap vrbMap pdcch firstCce aggregation =
      some (vrbMap.mark (pdcch.grant firstCce aggregation)) := by
  have hf := cceToRegInterleaving_eq hbuilt hcces
  unfold SchedPdcch.numRegs at hf
  unfold fillPdcchVrbMap
  simp only [hf, Option.bind_eq_bind, Option.bind_some, List.foldlM_pure]
  rw [Option.pure_def, Marks.mark, SchedPdcch.grant]
  simp only [List.foldl_flatMap, SchedPdcch.bundleRbs, List.foldl_map]

omit hcces in
/-- A bundle is one of the CORESET. -/
theorem bundle_lt {j k : Nat} (hj : j < pdcch.numCces)
    (hk : k < 6 * j / pdcch.regBundleSize + 6 / pdcch.regBundleSize) :
    pdcch.bundle k < pdcch.numRegs / pdcch.regBundleSize := by
  have hk' : k < pdcch.numRegs / pdcch.regBundleSize := by
    unfold SchedPdcch.numCces at hj
    obtain h | h | h := hbuilt.regBundleSize_mem <;> rw [h] at hk ⊢ <;> omega
  unfold SchedPdcch.bundle
  split_ifs
  · exact hk'
  · exact Nat.mod_lt _ (Nat.zero_lt_of_lt hk')

omit hcces in
/-- The resource blocks lie in the CORESET. -/
theorem mem_grant {firstCce aggregation rb : Nat}
    (hfit : firstCce + aggregation ≤ pdcch.numCces)
    (hrb : rb ∈ (pdcch.grant firstCce aggregation).cells) :
    pdcch.BWPStart ≤ rb ∧ rb < pdcch.BWPStart + pdcch.nRb := by
  simp only [SchedPdcch.grant, SchedPdcch.bundleRbs, List.mem_flatMap, List.mem_map,
    List.mem_range'_1, List.mem_range] at hrb
  obtain ⟨j, ⟨-, hj⟩, k, ⟨-, hk⟩, x, hx, rfl⟩ := hrb
  have hbundle := bundle_lt hbuilt (hj.trans_le hfit) hk
  refine ⟨by omega, ?_⟩
  have hpos : 0 < pdcch.durationSymbols := hbuilt.durationSymbols_eq ▸ coreset.duration_pos
  have hmul : (pdcch.bundle k + 1) * (pdcch.regBundleSize / pdcch.durationSymbols) ≤ pdcch.nRb :=
    calc (pdcch.bundle k + 1) * (pdcch.regBundleSize / pdcch.durationSymbols)
        ≤ pdcch.numRegs / pdcch.regBundleSize * (pdcch.regBundleSize / pdcch.durationSymbols) :=
          Nat.mul_le_mul_right _ hbundle
      _ ≤ pdcch.numRegs * pdcch.regBundleSize / (pdcch.regBundleSize * pdcch.durationSymbols) :=
          Nat.div_mul_div_le _ _ _ _
      _ = pdcch.numRegs / pdcch.durationSymbols := by
        rw [Nat.mul_comm, Nat.mul_div_mul_left _ _ (by have := hbuilt.regBundleSize_mem; omega)]
      _ = pdcch.nRb := Nat.mul_div_cancel _ hpos
  rw [Nat.add_mul, Nat.one_mul] at hmul
  omega

end Built

/-! ## The search -/

/-- The first CCE of a candidate leaves room for all its CCEs. -/
theorem firstCceOf_add_le {aggregation nrOfCandidates NCces Y m firstCce : Nat}
    (h : firstCceOf aggregation nrOfCandidates NCces Y m = some firstCce) :
    firstCce + aggregation ≤ NCces := by
  unfold firstCceOf at h
  split_ifs at h with h0
  cases h
  have hlt := Nat.mod_lt (uint32 (Y + m * NCces / (aggregation * nrOfCandidates)))
    (Nat.pos_of_ne_zero h0)
  calc _ = aggregation * (uint32 (Y + m * NCces / (aggregation * nrOfCandidates)) %
        (NCces / aggregation) + 1) := by rw [Nat.mul_add, Nat.mul_one]
    _ ≤ aggregation * (NCces / aggregation) := Nat.mul_le_mul_left _ hlt
    _ ≤ NCces := Nat.mul_div_le _ _

/-- A request for a DCI on a PDCCH that `set_pdcch_structure` filled in. -/
structure PdcchRequest where
  coreset : ControlResourceSet
  pdcch : SchedPdcch
  aggregation : Nat
  nrOfCandidates : Nat
  Y : Nat
  built : pdcch.Built coreset

/-- A level with candidates fits in the CORESET. -/
def PdcchRequest.Fits (r : PdcchRequest) : Prop :=
  0 < r.nrOfCandidates → 0 < r.aggregation ∧ r.aggregation ≤ r.pdcch.numCces

/-- The search of a request. -/
def PdcchRequest.find (r : PdcchRequest) (vrbMap : VrbMap) : Option (Option Nat) :=
  findPdcchCandidate vrbMap r.aggregation r.nrOfCandidates r.pdcch r.coreset r.Y

/-- The search of a level that fits finds a free candidate, or none. -/
theorem PdcchRequest.find_spec {r : PdcchRequest} (hfits : r.Fits) (vrbMap : VrbMap) :
    ∃ found, r.find vrbMap = some found ∧ ∀ firstCce ∈ found,
      firstCce + r.aggregation ≤ r.pdcch.numCces ∧ 0 < r.pdcch.numCces ∧
        vrbMap.Free (r.pdcch.grant firstCce r.aggregation) := by
  have hcces : r.pdcch.nRb * r.coreset.duration / 6 = r.pdcch.numCces := by
    rw [SchedPdcch.numCces, SchedPdcch.numRegs, r.built.durationSymbols_eq]
  unfold PdcchRequest.find findPdcchCandidate
  rw [hcces]
  obtain h0 | hpos := Nat.eq_zero_or_pos r.nrOfCandidates
  · rw [h0]
    exact ⟨none, rfl, fun _ h => absurd h (by simp)⟩
  obtain ⟨hagg, hle⟩ := hfits hpos
  have hquotient : r.pdcch.numCces / r.aggregation ≠ 0 := (Nat.div_pos hle hagg).ne'
  let cce (m : Nat) : Nat := r.aggregation * (uint32 (r.Y + m * r.pdcch.numCces /
    (r.aggregation * r.nrOfCandidates)) % (r.pdcch.numCces / r.aggregation))
  have hcce (m : Nat) : firstCceOf r.aggregation r.nrOfCandidates r.pdcch.numCces r.Y m =
      some (cce m) := if_neg hquotient
  let taken (m : Nat) : Bool := (r.pdcch.grant (cce m) r.aggregation).cells.any fun rb =>
    vrbMap rb &&& (r.pdcch.grant (cce m) r.aggregation).bits != 0
  have htaken (m : Nat) : candidateTaken vrbMap r.pdcch r.coreset (cce m) r.aggregation =
      some (taken m) := candidateTaken_eq r.built (hagg.trans_le hle) vrbMap _ _
  simp only [hcce, htaken, Option.bind_eq_bind, Option.bind_some]
  refine ⟨_, List.findSomeM?_pure (f := fun m => if taken m then none else some (cce m)), ?_⟩
  intro firstCce hfound
  obtain ⟨m, -, hm⟩ := List.exists_of_findSome?_eq_some hfound
  split_ifs at hm with hfree
  cases hm
  refine ⟨firstCceOf_add_le (hcce m), hagg.trans_le hle, ?_⟩
  rw [← candidateTaken_false r.built (hagg.trans_le hle), htaken]
  rw [Bool.eq_false_iff.2 hfree]

/-- What the search tests for a first CCE is what is marked for it, and lies in the CORESET. -/
structure PdcchRequest.Agrees (r : PdcchRequest) (firstCce : Nat) : Prop where
  fits : firstCce + r.aggregation ≤ r.pdcch.numCces
  tested : ∀ m : VrbMap, candidateTaken m r.pdcch r.coreset firstCce r.aggregation = some false ↔
    m.Free (r.pdcch.grant firstCce r.aggregation)
  marked : ∀ m : VrbMap, fillPdcchVrbMap m r.pdcch firstCce r.aggregation =
    some (m.mark (r.pdcch.grant firstCce r.aggregation))
  inside : ∀ rb ∈ (r.pdcch.grant firstCce r.aggregation).cells,
    r.pdcch.BWPStart ≤ rb ∧ rb < r.pdcch.BWPStart + r.pdcch.nRb

theorem PdcchRequest.agrees (r : PdcchRequest) {firstCce : Nat} (hcces : 0 < r.pdcch.numCces)
    (hfit : firstCce + r.aggregation ≤ r.pdcch.numCces) : r.Agrees firstCce :=
  ⟨hfit, fun _ => candidateTaken_false r.built hcces,
    fun m => fillPdcchVrbMap_eq r.built hcces m firstCce r.aggregation,
    fun _ => mem_grant r.built hfit⟩

/-! ## The configured levels fit -/

/-- A level that keeps candidates fits. -/
theorem le_of_verifyAggLevels {numCces i num : Nat} {candidates : List Nat}
    (h : (verifyAggLevels numCces candidates)[i]? = some num) (hnum : 0 < num) :
    2 ^ i ≤ numCces := by
  rw [verifyAggLevels, List.getElem?_mapIdx] at h
  obtain ⟨c, -, rfl⟩ := Option.map_eq_some_iff.1 h
  dsimp only at hnum
  generalize (if c = 7 then 8 else c) = c' at hnum
  split_ifs at hnum with hmany
  · exact (Nat.div_pos_iff.1 (hnum.trans_le (min_le_left _ _))).2
  · have hc' : 0 < c' := hnum.trans_le (min_le_left _ _)
    exact (Nat.le_mul_of_pos_left _ hc').trans (not_lt.1 hmany)

/-- The unused bits only add CCEs. -/
theorem getCoresetNumCces_le {pdcch : SchedPdcch} {coreset : ControlResourceSet}
    (hbuilt : pdcch.Built coreset) : getCoresetNumCces coreset ≤ pdcch.numCces := by
  rw [SchedPdcch.numCces, SchedPdcch.numRegs, hbuilt.durationSymbols_eq, hbuilt.nRb_eq]
  refine Nat.div_le_div_right (Nat.mul_le_mul_right _ (Nat.mul_le_mul_left _ ?_))
  exact (List.take_sublist _ _).count_le _

/-- A search space whose candidates `verify_agg_levels` has limited. -/
theorem PdcchRequest.fits_of_verifyAggLevels {r : PdcchRequest} {candidates : List Nat} {i : Nat}
    (hlevel : r.aggregation = 2 ^ i)
    (h : (verifyAggLevels (getCoresetNumCces r.coreset) candidates)[i]? = some r.nrOfCandidates) :
    r.Fits := fun hpos => by
  rw [hlevel]
  exact ⟨Nat.two_pow_pos i, (le_of_verifyAggLevels h hpos).trans (getCoresetNumCces_le r.built)⟩

/-! ## The DCIs of a slot -/

/-- The map of a beam and the DCIs granted in it. -/
structure PdcchState where
  vrbMap : VrbMap
  granted : List (Grant Nat 16)

/-- A DCI is requested, or other channels are marked. -/
inductive PdcchAction
  | request (r : PdcchRequest)
  | mark (other : Grant Nat 16)

/-- One action : the marks follow where the search finds a candidate. -/
def pdcchStep (s : PdcchState) : PdcchAction → Option PdcchState
  | .request r => do
    match ← r.find s.vrbMap with
    | none => return s
    | some firstCce =>
      let vrbMap ← fillPdcchVrbMap s.vrbMap r.pdcch firstCce r.aggregation
      return ⟨vrbMap, r.pdcch.grant firstCce r.aggregation :: s.granted⟩
  | .mark other => some { s with vrbMap := s.vrbMap.mark other }

theorem held_pdcchStep {first : VrbMap} {s : PdcchState} (hs : Held first s.vrbMap s.granted)
    (a : PdcchAction) (hfits : ∀ r, a = .request r → r.Fits) :
    ∃ s', pdcchStep s a = some s' ∧ Held first s'.vrbMap s'.granted := by
  cases a with
  | mark other => exact ⟨_, rfl, hs.mark other⟩
  | request r =>
    obtain ⟨found, hfound, hspec⟩ := PdcchRequest.find_spec (hfits r rfl) s.vrbMap
    cases found with
    | none => exact ⟨s, by rw [pdcchStep, hfound]; rfl, hs⟩
    | some firstCce =>
      obtain ⟨-, hcces, hfree⟩ := hspec firstCce rfl
      refine ⟨⟨_, _⟩, ?_, hs.grant hfree⟩
      rw [pdcchStep, hfound]
      simp only [Option.bind_eq_bind, Option.bind_some, fillPdcchVrbMap_eq r.built hcces]
      rfl

theorem held_pdcchRun {first : VrbMap} : ∀ {actions : List PdcchAction} {s : PdcchState},
    Held first s.vrbMap s.granted → (∀ r, .request r ∈ actions → r.Fits) →
      ∃ s', actions.foldlM pdcchStep s = some s' ∧ Held first s'.vrbMap s'.granted
  | [], s, hs, _ => ⟨s, rfl, hs⟩
  | a :: actions, s, hs, hfits => by
    obtain ⟨s₁, h₁, hs₁⟩ := held_pdcchStep hs a fun r hr => hfits r (hr ▸ List.mem_cons_self)
    obtain ⟨s', h', hs'⟩ := held_pdcchRun hs₁ fun r hr => hfits r (List.mem_cons_of_mem _ hr)
    exact ⟨s', by rw [List.foldlM_cons, h₁]; exact h', hs'⟩

/-- The DCIs of a slot are apart, if their aggregation levels fit in their CORESETs. -/
theorem pdcch_exclusive (first : VrbMap) (actions : List PdcchAction)
    (hfits : ∀ r, .request r ∈ actions → r.Fits) :
    (∀ r, .request r ∈ actions → ∀ vrbMap, ∃ found, r.find vrbMap = some found ∧
        ∀ firstCce ∈ found, r.Agrees firstCce) ∧
      ∃ s, actions.foldlM pdcchStep ⟨first, []⟩ = some s ∧ Held first s.vrbMap s.granted := by
  refine ⟨fun r hr vrbMap => ?_, held_pdcchRun (Held.nil first) hfits⟩
  obtain ⟨found, hfound, hspec⟩ := PdcchRequest.find_spec (hfits r hr) vrbMap
  refine ⟨found, hfound, fun firstCce h => ?_⟩
  obtain ⟨hfit, hcces, -⟩ := hspec firstCce h
  exact r.agrees hcces hfit

/-- CORESET 0 of 24 resource blocks and two symbols, with eight CCEs. -/
def coreset24 : ControlResourceSet :=
  ⟨[0xf0, 0, 0, 0, 0, 0], 2, some ⟨.n6, .n2, none⟩, rfl, by decide, by decide⟩

/-- Its PDCCH, in the first two symbols. -/
def pdcch24 : SchedPdcch :=
  ⟨0, 0, 2, 6, 2, 1, 0, 24⟩

theorem setPdcchStructure_coreset24 : setPdcchStructure 0 (0x80, 0) 14 1 coreset24 = some pdcch24 := by
  decide +kernel

/-- A request for level `aggregation` in this CORESET. -/
def request24 (aggregation : Nat) : PdcchRequest :=
  ⟨coreset24, pdcch24, aggregation, 1, 0, built_of_setPdcchStructure setPdcchStructure_coreset24⟩

/-- A slot with three of them. -/
def requests24 : List PdcchAction :=
  [.request (request24 4), .request (request24 8), .request (request24 4)]

theorem pdcch_exclusive_coreset24 :
    (∀ r, .request r ∈ requests24 → ∀ vrbMap, ∃ found, r.find vrbMap = some found ∧
        ∀ firstCce ∈ found, r.Agrees firstCce) ∧
      ∃ s, requests24.foldlM pdcchStep ⟨fun _ => 0, []⟩ = some s ∧
        Held (fun _ => 0) s.vrbMap s.granted := by
  refine pdcch_exclusive _ _ fun r hr => ?_
  simp only [requests24, List.mem_cons, PdcchAction.request.injEq, List.not_mem_nil, or_false] at hr
  obtain rfl | rfl | rfl := hr <;> exact fun _ => ⟨by decide, by decide⟩

/-- Sixteen CCEs are searched in a CORESET of eight : the search divides by zero. -/
theorem not_findPdcchCandidate_isSome :
    ¬ ∀ (r : PdcchRequest) (vrbMap : VrbMap), (r.find vrbMap).isSome := fun h =>
  absurd (h (request24 16) fun _ => 0) (by decide)

end NrStack
