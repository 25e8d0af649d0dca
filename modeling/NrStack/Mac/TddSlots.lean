import Mathlib.Tactic

/-!
# TDD slots

`nr_mac_common_tdd.c`, and what it calls of `nr_common.c` : the slots of a TDD period are kept in a
bitmap, which `config_frame_structure` fills with the downlink slots, the mixed slot and the uplink
slots of a pattern, one after the other, and goes on with the second pattern. A pattern leaves the
slots between its downlink and uplink flexible (`TddPattern.Dl`, `TddPattern.Ul`), and the code
leaves them at its end, and not even flexible : the bitmap has no value for such a slot. So it gives
each slot its direction exactly if no pattern has one (`tddSlots_iff`).

The counts of a pattern are in slots of the numerology `mu`.
-/

namespace NrStack

/-- The number in an `int8_t`. -/
def toInt8 (n : Int) : Int :=
  n.bmod (2 ^ 8)

/-- The number in a `uint8_t`. -/
def toUInt8 (n : Int) : Nat :=
  (n % 2 ^ 8).toNat

inductive FrameType
  | fdd
  | tdd
deriving DecidableEq, Repr

/-- `enum slot_type` -/
inductive SlotType
  | downlink
  | uplink
  | mixed
deriving DecidableEq, Repr

/-- `tdd_bitmap_t` -/
structure TddBitmap where
  slotType : SlotType
  numDlSymbols : Nat
  numUlSymbols : Nat
deriving DecidableEq, Repr

/-- `tdd_period_config_t` -/
structure TddPeriodConfig where
  tddSlotBitmap : List TddBitmap
  numDlSlots : Nat
  numUlSlots : Nat
deriving DecidableEq, Repr

/-- `frame_structure_t` -/
structure FrameStructure where
  periodCfg : TddPeriodConfig
  numbSlotsFrame : Int
  numbSlotsPeriod : Int
  numbPeriodFrame : Int
  frameType : FrameType
deriving DecidableEq, Repr

/-- `NR_TDD_UL_DL_Pattern_t`, whose extension has a periodicity of its own. -/
structure TddPattern where
  dlUlTransmissionPeriodicity : Nat
  ext1 : Option Nat
  nrofDownlinkSlots : Nat
  nrofDownlinkSymbols : Nat
  nrofUplinkSlots : Nat
  nrofUplinkSymbols : Nat
deriving DecidableEq, Repr

/-- `NR_TDD_UL_DL_ConfigCommon_t` -/
structure TddConfigCommon where
  pattern1 : TddPattern
  pattern2 : Option TddPattern
deriving DecidableEq, Repr

/-! ## Configuration -/

/-- `tdd_ms_period_pattern`, in eighths of a millisecond. -/
def tddMsPeriodPattern : List Nat := [4, 5, 8, 10, 16, 20, 40, 80]

/-- `tdd_ms_period_ext` -/
def tddMsPeriodExt : List Nat := [24, 32]

/-- `get_tdd_periodicity` -/
def getTddPeriodicity (pattern : TddPattern) : Option Nat :=
  match pattern.ext1 with
  | none => tddMsPeriodPattern[pattern.dlUlTransmissionPeriodicity]?
  | some periodicity => tddMsPeriodExt[periodicity]?

/-- `get_tdd_period_idx` -/
def getTddPeriodIdx (tdd : TddConfigCommon) : Option Nat := do
  let pattern1Ms ← getTddPeriodicity tdd.pattern1
  let pattern2Ms ← tdd.pattern2.elim (some 0) getTddPeriodicity
  (List.range 8).find? fun i => tddMsPeriodPattern[i]? = some (pattern1Ms + pattern2Ms)

/-- `get_nb_periods_per_frame` -/
def getNbPeriodsPerFrame (tddPeriod : Nat) : Option Int :=
  [20, 16, 10, 8, 5, 4, 2, 1][tddPeriod]?

/-- `get_slots_per_frame_from_scs` -/
def getSlotsPerFrameFromScs (scs : Nat) : Option Int :=
  [10, 20, 40, 80, 160][scs]?

/-- Write slot `i` of the bitmap. -/
def updateSlot (f : TddBitmap → TddBitmap) (bitmap : List TddBitmap) (i : Int) :
    Option (List TddBitmap) :=
  if 0 ≤ i ∧ i < bitmap.length then some (bitmap.modify i.toNat f) else none

/-- The slot `i` of a pattern. A full slot keeps the symbols it has. -/
def tddSlot (nDlSlot nUlSlot nDlSymbols nUlSymbols : Int) (hasMixedSlot : Bool) (i : Nat)
    (bitmap : TddBitmap) : TddBitmap :=
  if i < nDlSlot then { bitmap with slotType := .downlink }
  else if i = nDlSlot ∧ hasMixedSlot then ⟨.mixed, toUInt8 nDlSymbols, toUInt8 nUlSymbols⟩
  else if nUlSlot ≠ 0 then { bitmap with slotType := .uplink }
  else bitmap

/-- `set_tdd_bmap_period` -/
def setTddBmapPeriod (pattern : TddPattern) (pc : TddPeriodConfig) (currTotalSlot : Int) :
    Option (Nat × TddPeriodConfig) := do
  let nDlSlot := toInt8 pattern.nrofDownlinkSlots
  let nUlSlot := toInt8 pattern.nrofUplinkSlots
  let nDlSymbols := toInt8 pattern.nrofDownlinkSymbols
  let nUlSymbols := toInt8 pattern.nrofUplinkSymbols
  let hasMixedSlot : Bool := 0 < nUlSymbols + nDlSymbols
  let totalSlot := toInt8 (if hasMixedSlot then nDlSlot + nUlSlot + 1 else nDlSlot + nUlSlot)
  let bitmap ← (List.range totalSlot.toNat).foldlM (fun bitmap i =>
    updateSlot (tddSlot nDlSlot nUlSlot nDlSymbols nUlSymbols hasMixedSlot i) bitmap
      (i + currTotalSlot)) pc.tddSlotBitmap
  return (toUInt8 totalSlot,
    { tddSlotBitmap := bitmap
      numDlSlots := toUInt8 (pc.numDlSlots + (nDlSlot + if 0 < nDlSymbols then 1 else 0))
      numUlSlots := toUInt8 (pc.numUlSlots + (nUlSlot + if 0 < nUlSymbols then 1 else 0)) })

/-- `config_tdd_patterns` -/
def configTddPatterns (tdd : TddConfigCommon) (pc : TddPeriodConfig) : Option TddPeriodConfig := do
  let pc := { pc with numDlSlots := 0, numUlSlots := 0 }
  let (nbSlotsP1, pc) ← setTddBmapPeriod tdd.pattern1 pc 0
  match tdd.pattern2 with
  | none => some pc
  | some pattern2 => (setTddBmapPeriod pattern2 pc (toInt8 nbSlotsP1)).map (·.2)

/-- `config_frame_structure` -/
def configFrameStructure (mu : Nat) (tdd : TddConfigCommon) (tddPeriod : Nat)
    (frameType : FrameType) (fs : FrameStructure) : Option FrameStructure := do
  let numbSlotsFrame := toInt8 (← getSlotsPerFrameFromScs mu)
  match frameType with
  | .tdd =>
    let numbPeriodFrame := toInt8 (← getNbPeriodsPerFrame tddPeriod)
    let periodCfg ← configTddPatterns tdd fs.periodCfg
    if 0 < numbPeriodFrame then
      some {
        periodCfg := periodCfg
        numbSlotsFrame := numbSlotsFrame
        numbSlotsPeriod := toInt8 (numbSlotsFrame.tdiv numbPeriodFrame)
        numbPeriodFrame := numbPeriodFrame
        frameType := frameType }
    else none
  | .fdd =>
    return { fs with
      numbSlotsFrame := numbSlotsFrame
      numbSlotsPeriod := numbSlotsFrame
      numbPeriodFrame := 1
      frameType := frameType }

namespace FrameStructure

/-- `get_slot_idx_in_period`, from a `slot_t` to a `slot_t`, both through an `int`. -/
def getSlotIdxInPeriod (slot : Nat) (fs : FrameStructure) : Option Nat :=
  if fs.numbSlotsPeriod = 0 then none
  else some ((((slot : Int).bmod (2 ^ 32)).tmod fs.numbSlotsPeriod) % 2 ^ 32).toNat

/-- `is_mixed_slot` -/
def isMixedSlot (slot : Nat) (fs : FrameStructure) : Option Bool :=
  match fs.frameType with
  | .fdd => some false
  | .tdd => do
    let s ← fs.getSlotIdxInPeriod slot
    let bitmap ← fs.periodCfg.tddSlotBitmap[s]?
    return bitmap.slotType = .mixed

/-- `is_ul_slot` -/
def isUlSlot (slot : Nat) (fs : FrameStructure) : Option Bool :=
  match fs.frameType with
  | .fdd => some true
  | .tdd => do
    let s ← fs.getSlotIdxInPeriod slot
    let mixed ← fs.isMixedSlot s
    let bitmap ← fs.periodCfg.tddSlotBitmap[s]?
    return mixed && bitmap.numUlSymbols ≠ 0 || bitmap.slotType = .uplink

/-- `is_dl_slot` -/
def isDlSlot (slot : Nat) (fs : FrameStructure) : Option Bool :=
  match fs.frameType with
  | .fdd => some true
  | .tdd => do
    let s ← fs.getSlotIdxInPeriod slot
    let mixed ← fs.isMixedSlot s
    let bitmap ← fs.periodCfg.tddSlotBitmap[s]?
    return mixed && bitmap.numDlSymbols ≠ 0 || bitmap.slotType = .downlink

/-- The memory before the first configuration. -/
def zero : FrameStructure :=
  ⟨⟨List.replicate 80 ⟨.downlink, 0, 0⟩, 0, 0⟩, 0, 0, 0, .fdd⟩

/-- What any configurations leave. -/
inductive Configured : FrameStructure → Prop
  | zero : Configured zero
  | config {fs fs' : FrameStructure} {mu tddPeriod : Nat} {tdd : TddConfigCommon}
      {frameType : FrameType} (h : Configured fs)
      (hop : configFrameStructure mu tdd tddPeriod frameType fs = some fs') : Configured fs'

end FrameStructure

/-! ## Directions of the slots -/

namespace TddPattern

/-- The slots of a pattern. -/
def slots (mu : Nat) (p : TddPattern) : Nat :=
  (getTddPeriodicity p).getD 0 * 2 ^ mu / 8

/-- Slot `i` has downlink : the first slots, and the symbols at the start of the next one. -/
def Dl (p : TddPattern) (i : Nat) : Prop :=
  i < p.nrofDownlinkSlots ∨ i = p.nrofDownlinkSlots ∧ 0 < p.nrofDownlinkSymbols

/-- Slot `i` has uplink : the last slots, and the symbols at the end of the one before. -/
def Ul (mu : Nat) (p : TddPattern) (i : Nat) : Prop :=
  p.slots mu ≤ i + p.nrofUplinkSlots ∨
    i + p.nrofUplinkSlots + 1 = p.slots mu ∧ 0 < p.nrofUplinkSymbols

/-- The slot that both kinds of symbols are in for the code. -/
def mixedSlots (p : TddPattern) : Nat :=
  if 0 < p.nrofUplinkSymbols + p.nrofDownlinkSymbols then 1 else 0

/-- The slots and symbols fit in the periodicity, which is of whole slots. -/
structure Fits (mu : Nat) (p : TddPattern) : Prop where
  whole : 8 ∣ (getTddPeriodicity p).getD 0 * 2 ^ mu
  dlSymbols : p.nrofDownlinkSymbols < 14
  ulSymbols : p.nrofUplinkSymbols < 14
  room : 14 * (p.nrofDownlinkSlots + p.nrofUplinkSlots) + p.nrofDownlinkSymbols +
    p.nrofUplinkSymbols ≤ 14 * p.slots mu

/-- No slot is left flexible, and the symbols are in one slot. -/
def Filled (mu : Nat) (p : TddPattern) : Prop :=
  p.slots mu = p.nrofDownlinkSlots + p.nrofUplinkSlots + p.mixedSlots

end TddPattern

namespace TddConfigCommon

/-- The slots of a period. -/
def slots (mu : Nat) (tdd : TddConfigCommon) : Nat :=
  tdd.pattern1.slots mu + (tdd.pattern2.map (·.slots mu)).getD 0

def Dl (mu : Nat) (tdd : TddConfigCommon) (s : Nat) : Prop :=
  if s < tdd.pattern1.slots mu then tdd.pattern1.Dl s
  else ∃ p ∈ tdd.pattern2, p.Dl (s - tdd.pattern1.slots mu)

def Ul (mu : Nat) (tdd : TddConfigCommon) (s : Nat) : Prop :=
  if s < tdd.pattern1.slots mu then tdd.pattern1.Ul mu s
  else ∃ p ∈ tdd.pattern2, p.Ul mu (s - tdd.pattern1.slots mu)

def Fits (mu : Nat) (tdd : TddConfigCommon) : Prop :=
  tdd.pattern1.Fits mu ∧ ∀ p ∈ tdd.pattern2, p.Fits mu

def Filled (mu : Nat) (tdd : TddConfigCommon) : Prop :=
  tdd.pattern1.Filled mu ∧ ∀ p ∈ tdd.pattern2, p.Filled mu

end TddConfigCommon

/-! ## Filling the bitmap -/

theorem toInt8_eq {n : Nat} (h : n < 128) : toInt8 n = n := by
  exact Int.bmod_eq_of_le (by omega) (by omega)

theorem toUInt8_eq {n : Nat} (h : n < 256) : toUInt8 n = n := by
  unfold toUInt8
  omega

theorem updateSlot_eq (f : TddBitmap → TddBitmap) {bitmap : List TddBitmap} {i : Nat}
    (h : i < bitmap.length) : updateSlot f bitmap i = some (bitmap.modify i f) := by
  rw [updateSlot, if_pos ⟨Int.natCast_nonneg i, by exact_mod_cast h⟩, Int.toNat_natCast]

/-- The loop changes `n` slots, each once. -/
theorem foldlM_updateSlot (f : Nat → TddBitmap → TddBitmap) {bitmap : List TddBitmap}
    {curr n : Nat} (h : curr + n ≤ bitmap.length) :
    ∃ bitmap', (List.range n).foldlM (fun bitmap i =>
        updateSlot (f i) bitmap ((i : Int) + (curr : Int))) bitmap = some bitmap' ∧
      bitmap'.length = bitmap.length ∧ ∀ j, bitmap'[j]? =
        if curr ≤ j ∧ j < curr + n then bitmap[j]?.map (f (j - curr)) else bitmap[j]? := by
  induction n with
  | zero => exact ⟨bitmap, rfl, rfl, fun j => by rw [if_neg (by omega)]⟩
  | succ n ih =>
    obtain ⟨bitmap', hfold, hlen, hslots⟩ := ih (by omega)
    have hslot : n + curr < bitmap'.length := by omega
    have hupdate := updateSlot_eq (f n) hslot
    rw [Nat.cast_add] at hupdate
    refine ⟨bitmap'.modify (n + curr) (f n), ?_, (List.length_modify _ _ _).trans hlen, fun j => ?_⟩
    · rw [List.range_succ, List.foldlM_append, hfold]
      simp [hupdate]
    · by_cases hj : n + curr = j
      · subst hj
        rw [List.getElem?_modify_eq, hslots, if_neg (by omega), if_pos (by omega),
          Nat.add_sub_cancel]
        rfl
      · rw [List.getElem?_modify_ne _ _ hj, hslots]
        exact if_congr (by omega) rfl rfl

namespace TddBitmap

/-- `is_dl_slot` of a slot of the bitmap. -/
def Dl (b : TddBitmap) : Prop :=
  b.slotType = .mixed ∧ b.numDlSymbols ≠ 0 ∨ b.slotType = .downlink

/-- `is_ul_slot` -/
def Ul (b : TddBitmap) : Prop :=
  b.slotType = .mixed ∧ b.numUlSymbols ≠ 0 ∨ b.slotType = .uplink

instance (b : TddBitmap) : Decidable b.Dl :=
  inferInstanceAs (Decidable (_ ∨ _))

instance (b : TddBitmap) : Decidable b.Ul :=
  inferInstanceAs (Decidable (_ ∨ _))

end TddBitmap

namespace TddPattern

variable {mu i : Nat} {p : TddPattern} {b : TddBitmap}

/-- The slots that the code counts. -/
def total (p : TddPattern) : Nat :=
  p.nrofDownlinkSlots + p.nrofUplinkSlots + p.mixedSlots

/-- Slot `i` of the bitmap from the start of the pattern. -/
def slotOf (p : TddPattern) (i : Nat) : TddBitmap → TddBitmap :=
  tddSlot p.nrofDownlinkSlots p.nrofUplinkSlots p.nrofDownlinkSymbols p.nrofUplinkSymbols
    (0 < p.nrofUplinkSymbols + p.nrofDownlinkSymbols) i

theorem Fits.total_le (h : p.Fits mu) : p.total ≤ p.slots mu := by
  have hroom := h.room
  unfold total mixedSlots
  split_ifs <;> omega

theorem slotOf_of_lt (hi : i < p.nrofDownlinkSlots) :
    p.slotOf i b = { b with slotType := .downlink } :=
  if_pos (by exact_mod_cast hi)

theorem slotOf_mixed (h : p.Fits mu) (hsym : 0 < p.nrofUplinkSymbols + p.nrofDownlinkSymbols) :
    p.slotOf p.nrofDownlinkSlots b = ⟨.mixed, p.nrofDownlinkSymbols, p.nrofUplinkSymbols⟩ := by
  have hd := h.dlSymbols
  have hu := h.ulSymbols
  rw [slotOf, tddSlot, if_neg (lt_irrefl _), if_pos ⟨rfl, decide_eq_true hsym⟩,
    toUInt8_eq (by omega), toUInt8_eq (by omega)]

theorem slotOf_of_ge (hi : p.nrofDownlinkSlots + p.mixedSlots ≤ i) (hlt : i < p.total) :
    p.slotOf i b = { b with slotType := .uplink } := by
  have hmixed : ¬((i : Int) = p.nrofDownlinkSlots ∧
      decide (0 < p.nrofUplinkSymbols + p.nrofDownlinkSymbols) = true) := by
    rintro ⟨hieq, hsym⟩
    rw [mixedSlots, if_pos (of_decide_eq_true hsym)] at hi
    omega
  unfold total at hlt
  rw [slotOf, tddSlot, if_neg (by omega), if_neg hmixed, if_pos (by omega)]

/-- The three parts of a pattern. -/
theorem slot_cases (p : TddPattern) (i : Nat) : i < p.nrofDownlinkSlots ∨
    (i = p.nrofDownlinkSlots ∧ 0 < p.nrofUplinkSymbols + p.nrofDownlinkSymbols) ∨
      p.nrofDownlinkSlots + p.mixedSlots ≤ i := by
  unfold mixedSlots
  split_ifs <;> omega

theorem dl_slotOf (h : p.Fits mu) (hi : i < p.total) : (p.slotOf i b).Dl ↔ p.Dl i := by
  unfold Dl TddBitmap.Dl
  rcases p.slot_cases i with hdl | ⟨rfl, hsym⟩ | hul
  · rw [slotOf_of_lt hdl]
    simp [hdl]
  · rw [slotOf_mixed h hsym]
    simp [Nat.pos_iff_ne_zero]
  · rw [slotOf_of_ge hul hi]
    refine iff_of_false (by simp) ?_
    unfold mixedSlots at hul
    split_ifs at hul <;> omega

theorem ul_slotOf (h : p.Fits mu) (hi : i < p.total) : (p.slotOf i b).Ul ↔
    p.nrofDownlinkSlots + p.mixedSlots ≤ i ∨
      i = p.nrofDownlinkSlots ∧ 0 < p.nrofUplinkSymbols := by
  unfold TddBitmap.Ul
  rcases p.slot_cases i with hdl | ⟨rfl, hsym⟩ | hul
  · rw [slotOf_of_lt hdl]
    refine iff_of_false (by simp) ?_
    omega
  · have hmixed : p.mixedSlots = 1 := if_pos hsym
    rw [slotOf_mixed h hsym, hmixed]
    simp [Nat.pos_iff_ne_zero]
  · rw [slotOf_of_ge hul hi]
    simp [hul]

/-- A pattern that does not fill its slots is not given its directions, by a bitmap whose slots all
have some. -/
theorem filled_of_agree (h : p.Fits mu) (slot : Nat → TddBitmap)
    (hslot : ∀ i < p.total, ∃ b, slot i = p.slotOf i b)
    (hdirected : ∀ i < p.slots mu, (slot i).Dl ∨ (slot i).Ul)
    (hagree : ∀ i < p.slots mu, ((slot i).Dl ↔ p.Dl i) ∧ ((slot i).Ul ↔ p.Ul mu i)) :
    p.Filled mu := by
  by_contra hne
  have hlt : p.total < p.slots mu := lt_of_le_of_ne h.total_le fun heq => hne heq.symm
  have htotal : p.total = p.nrofDownlinkSlots + p.nrofUplinkSlots + p.mixedSlots := rfl
  by_cases htwo : 0 < p.nrofUplinkSymbols ∧ 0 < p.nrofDownlinkSymbols
  · -- the uplink symbols are in the slot of the downlink symbols, and not in the next one
    have hmixed : p.mixedSlots = 1 := if_pos (by omega)
    obtain ⟨b, hb⟩ := hslot p.nrofDownlinkSlots (by omega)
    have hul : (slot p.nrofDownlinkSlots).Ul := by
      rw [hb]
      exact (ul_slotOf h (by omega)).2 (Or.inr ⟨rfl, htwo.1⟩)
    have hspec := (hagree _ (by omega)).2.1 hul
    unfold Ul at hspec
    omega
  · -- the slot behind the downlink is flexible
    obtain ⟨i, hi⟩ : ∃ i, i = p.nrofDownlinkSlots +
      if 0 < p.nrofDownlinkSymbols then 1 else 0 := ⟨_, rfl⟩
    have hmixed : p.mixedSlots = (if 0 < p.nrofDownlinkSymbols then 1 else 0) +
        if 0 < p.nrofUplinkSymbols then 1 else 0 := by
      unfold mixedSlots
      split_ifs <;> omega
    have hin : i < p.slots mu := by omega
    obtain ⟨hdl, hul⟩ := hagree i hin
    rcases hdirected i hin with hd | hu
    · have hspec := hdl.1 hd
      unfold Dl at hspec
      split_ifs at hi <;> omega
    · have hspec := hul.1 hu
      unfold Ul at hspec
      split_ifs at hi hmixed <;> omega

/-- The directions of a pattern that fills its slots. -/
theorem agree_of_filled (h : p.Fits mu) (hfilled : p.Filled mu) (hi : i < p.slots mu) :
    ((p.slotOf i b).Dl ↔ p.Dl i) ∧ ((p.slotOf i b).Ul ↔ p.Ul mu i) := by
  have hlt : i < p.total := hi.trans_eq hfilled
  refine ⟨dl_slotOf h hlt, (ul_slotOf h hlt).trans ?_⟩
  unfold Filled mixedSlots at hfilled
  unfold Ul mixedSlots
  split_ifs at hfilled ⊢ <;> omega

/-- The counts of a pattern, in an `int8_t`. -/
theorem setTddBmapPeriod_eq (h : p.Fits mu) (pc : TddPeriodConfig) (curr : Nat)
    (hroom : curr + p.total ≤ pc.tddSlotBitmap.length) (h80 : pc.tddSlotBitmap.length = 80) :
    ∃ pc', setTddBmapPeriod p pc curr = some (p.total, pc') ∧ pc'.tddSlotBitmap.length = 80 ∧
      ∀ j, pc'.tddSlotBitmap[j]? = if curr ≤ j ∧ j < curr + p.total then
        pc.tddSlotBitmap[j]?.map (p.slotOf (j - curr)) else pc.tddSlotBitmap[j]? := by
  have hd := h.dlSymbols
  have hu := h.ulSymbols
  have htotal : p.total = p.nrofDownlinkSlots + p.nrofUplinkSlots + p.mixedSlots := rfl
  obtain ⟨bitmap', hfold, hlen, hslots⟩ := foldlM_updateSlot p.slotOf hroom
  have hflag : decide ((0 : Int) < p.nrofUplinkSymbols + p.nrofDownlinkSymbols) =
      decide (0 < p.nrofUplinkSymbols + p.nrofDownlinkSymbols) :=
    decide_eq_decide.2 (by omega)
  have hcount : (if decide (0 < p.nrofUplinkSymbols + p.nrofDownlinkSymbols) = true
      then (p.nrofDownlinkSlots : Int) + p.nrofUplinkSlots + 1
      else (p.nrofDownlinkSlots : Int) + p.nrofUplinkSlots) = p.total := by
    rw [htotal, mixedSlots]
    simp only [decide_eq_true_eq]
    split_ifs <;> push_cast <;> omega
  unfold setTddBmapPeriod
  dsimp only
  rw [toInt8_eq (n := p.nrofDownlinkSlots) (by omega),
    toInt8_eq (n := p.nrofUplinkSlots) (by omega),
    toInt8_eq (n := p.nrofDownlinkSymbols) (by omega),
    toInt8_eq (n := p.nrofUplinkSymbols) (by omega), hflag, hcount, toInt8_eq (by omega),
    toUInt8_eq (by omega), Int.toNat_natCast]
  exact ⟨_, Option.bind_eq_some_iff.2 ⟨bitmap', hfold, rfl⟩, hlen.trans h80, hslots⟩

end TddPattern

/-! ## Every slot has a direction -/

/-- The bitmap has its length, and each of its slots is downlink or uplink. -/
structure Directed (bitmap : List TddBitmap) : Prop where
  length_eq : bitmap.length = 80
  directed : ∀ b ∈ bitmap, b.Dl ∨ b.Ul

theorem toUInt8_toInt8_ne_zero {n : Int} (h : 0 < toInt8 n) : toUInt8 (toInt8 n) ≠ 0 := by
  have hlt : toInt8 n < 128 := Int.bmod_lt (by decide)
  unfold toUInt8
  omega

/-- A mixed slot has symbols. -/
theorem tddSlot_directed {nDlSlot nUlSlot nDlSymbols nUlSymbols : Int} {i : Nat} {b : TddBitmap}
    (h : b.Dl ∨ b.Ul) :
    (tddSlot nDlSlot nUlSlot (toInt8 nDlSymbols) (toInt8 nUlSymbols)
      (0 < toInt8 nUlSymbols + toInt8 nDlSymbols) i b).Dl ∨
    (tddSlot nDlSlot nUlSlot (toInt8 nDlSymbols) (toInt8 nUlSymbols)
      (0 < toInt8 nUlSymbols + toInt8 nDlSymbols) i b).Ul := by
  unfold tddSlot
  split_ifs with hdl hmixed hul
  · exact Or.inl (Or.inr rfl)
  · have hsym : 0 < toInt8 nUlSymbols + toInt8 nDlSymbols := of_decide_eq_true hmixed.2
    rcases Int.lt_or_le 0 (toInt8 nDlSymbols) with hd | hd
    · exact Or.inl (Or.inl ⟨rfl, toUInt8_toInt8_ne_zero hd⟩)
    · exact Or.inr (Or.inl ⟨rfl, toUInt8_toInt8_ne_zero (by omega)⟩)
  · exact Or.inr (Or.inr rfl)
  · exact h

namespace Directed

variable {bitmap bitmap' : List TddBitmap}

theorem updateSlot (h : Directed bitmap) {f : TddBitmap → TddBitmap}
    (hf : ∀ b, b.Dl ∨ b.Ul → (f b).Dl ∨ (f b).Ul) {i : Int}
    (hop : NrStack.updateSlot f bitmap i = some bitmap') : Directed bitmap' := by
  unfold NrStack.updateSlot at hop
  split_ifs at hop
  rw [← Option.some.inj hop]
  refine ⟨(List.length_modify _ _ _).trans h.length_eq, fun b hb => ?_⟩
  obtain ⟨j, hj, hget⟩ := List.getElem_of_mem hb
  rw [List.getElem_modify] at hget
  rw [List.length_modify] at hj
  have hold := h.directed _ (List.getElem_mem hj)
  split_ifs at hget
  · exact hget ▸ hf _ hold
  · exact hget ▸ hold

theorem foldlM {f : Nat → TddBitmap → TddBitmap}
    (hf : ∀ i b, b.Dl ∨ b.Ul → (f i b).Dl ∨ (f i b).Ul) {curr : Int} :
    ∀ {l : List Nat} {bitmap : List TddBitmap}, Directed bitmap →
      l.foldlM (fun bitmap i => NrStack.updateSlot (f i) bitmap (i + curr)) bitmap = some bitmap' →
        Directed bitmap'
  | [], bitmap, h, hop => Option.some.inj hop ▸ h
  | i :: l, bitmap, h, hop => by
    rw [List.foldlM_cons] at hop
    obtain ⟨next, hnext, hrest⟩ := Option.bind_eq_some_iff.1 hop
    exact foldlM hf (h.updateSlot (hf i) hnext) hrest

theorem setTddBmapPeriod {p : TddPattern} {pc pc' : TddPeriodConfig} {curr : Int} {n : Nat}
    (h : Directed pc.tddSlotBitmap) (hop : NrStack.setTddBmapPeriod p pc curr = some (n, pc')) :
    Directed pc'.tddSlotBitmap := by
  unfold NrStack.setTddBmapPeriod at hop
  obtain ⟨bitmap', hfold, hrest⟩ := Option.bind_eq_some_iff.1 hop
  rw [← (Prod.mk.inj (Option.some.inj hrest)).2]
  exact foldlM (fun _ _ => tddSlot_directed) h hfold

theorem configTddPatterns {tdd : TddConfigCommon} {pc pc' : TddPeriodConfig}
    (h : Directed pc.tddSlotBitmap) (hop : NrStack.configTddPatterns tdd pc = some pc') :
    Directed pc'.tddSlotBitmap := by
  unfold NrStack.configTddPatterns at hop
  obtain ⟨⟨n, pc₁⟩, hp1, hrest⟩ := Option.bind_eq_some_iff.1 hop
  have h₁ : Directed pc₁.tddSlotBitmap := setTddBmapPeriod (by exact h) hp1
  cases hp2 : tdd.pattern2 with
  | none =>
    rw [hp2] at hrest
    exact Option.some.inj hrest ▸ h₁
  | some p2 =>
    rw [hp2] at hrest
    obtain ⟨⟨n₂, pc₂⟩, hset, rfl⟩ := Option.map_eq_some_iff.1 hrest
    exact h₁.setTddBmapPeriod hset

end Directed

theorem directed_zero : Directed FrameStructure.zero.periodCfg.tddSlotBitmap := by
  have hzero : FrameStructure.zero.periodCfg.tddSlotBitmap =
      List.replicate 80 ⟨.downlink, 0, 0⟩ := rfl
  rw [hzero]
  refine ⟨List.length_replicate, fun b hb => Or.inl (Or.inr ?_)⟩
  rw [List.eq_of_mem_replicate hb]

/-- Whatever was configured before, every slot has a direction. -/
theorem FrameStructure.Configured.directed {fs : FrameStructure} (h : fs.Configured) :
    Directed fs.periodCfg.tddSlotBitmap := by
  induction h with
  | zero => exact directed_zero
  | @config fs fs' mu tddPeriod tdd frameType _ hop ih =>
    unfold configFrameStructure at hop
    obtain ⟨frame, -, hop⟩ := Option.bind_eq_some_iff.1 hop
    cases frameType with
    | tdd =>
      obtain ⟨periods, -, hop⟩ := Option.bind_eq_some_iff.1 hop
      obtain ⟨pc, hpc, hop⟩ := Option.bind_eq_some_iff.1 hop
      split_ifs at hop
      rw [← Option.some.inj hop]
      exact ih.configTddPatterns hpc
    | fdd =>
      rw [← Option.some.inj hop]
      exact ih

/-! ## Slots of a period -/

namespace TddConfigCommon

/-- Slot `j` of the bitmap after a configuration. -/
def slotAt (tdd : TddConfigCommon) (j : Nat) (b : TddBitmap) : TddBitmap :=
  if j < tdd.pattern1.total then tdd.pattern1.slotOf j b
  else match tdd.pattern2 with
    | none => b
    | some p =>
      if j < tdd.pattern1.total + p.total then p.slotOf (j - tdd.pattern1.total) b else b

variable {mu idx : Nat} {tdd : TddConfigCommon}

theorem configTddPatterns_eq (h : tdd.Fits mu) (hslots : tdd.slots mu ≤ 80)
    {pc : TddPeriodConfig} (h80 : pc.tddSlotBitmap.length = 80) :
    ∃ pc', configTddPatterns tdd pc = some pc' ∧ pc'.tddSlotBitmap.length = 80 ∧
      ∀ j, pc'.tddSlotBitmap[j]? = pc.tddSlotBitmap[j]?.map (tdd.slotAt j) := by
  have htotal := h.1.total_le
  unfold slots at hslots
  obtain ⟨pc₁, hset₁, hlen₁, hslots₁⟩ := TddPattern.setTddBmapPeriod_eq h.1
    { pc with numDlSlots := 0, numUlSlots := 0 } 0 (by dsimp only; omega) h80
  rw [Nat.cast_zero] at hset₁
  unfold configTddPatterns
  dsimp only
  rw [hset₁, Option.bind_eq_bind, Option.bind_some]
  cases hp2 : tdd.pattern2 with
  | none =>
    refine ⟨pc₁, rfl, hlen₁, fun j => ?_⟩
    have hslot : tdd.slotAt j =
        if j < tdd.pattern1.total then tdd.pattern1.slotOf j else id := by
      funext b
      rw [slotAt, hp2]
      split_ifs <;> rfl
    rw [hslots₁ j, hslot, Nat.sub_zero, Nat.zero_add]
    by_cases hj : j < tdd.pattern1.total
    · rw [if_pos ⟨Nat.zero_le j, hj⟩, if_pos hj]
    · rw [if_neg fun hand => hj hand.2, if_neg hj, Option.map_id_fun, id]
  | some p =>
    have hfit := h.2 p hp2
    have htotal' := hfit.total_le
    rw [hp2, Option.map_some, Option.getD_some] at hslots
    obtain ⟨pc₂, hset₂, hlen₂, hslots₂⟩ := TddPattern.setTddBmapPeriod_eq hfit
      pc₁ tdd.pattern1.total (by omega) hlen₁
    refine ⟨pc₂, ?_, hlen₂, fun j => ?_⟩
    · dsimp only
      rw [toInt8_eq (by omega), hset₂, Option.map_some]
    · have hslot : tdd.slotAt j = if j < tdd.pattern1.total then tdd.pattern1.slotOf j
          else if j < tdd.pattern1.total + p.total then p.slotOf (j - tdd.pattern1.total)
          else id := by
        funext b
        rw [slotAt, hp2]
        dsimp only
        split_ifs <;> rfl
      rw [hslots₂ j, hslots₁ j, hslot, Nat.sub_zero, Nat.zero_add]
      dsimp only
      by_cases hj : j < tdd.pattern1.total
      · rw [if_neg (by omega), if_pos ⟨Nat.zero_le j, hj⟩, if_pos hj]
      · rw [if_neg fun hand : 0 ≤ j ∧ _ => hj hand.2, if_neg hj]
        by_cases hj' : j < tdd.pattern1.total + p.total
        · rw [if_pos ⟨Nat.le_of_not_lt hj, hj'⟩, if_pos hj']
        · rw [if_neg fun hand => hj' hand.2, if_neg hj', Option.map_id_fun, id]

/-- The periods of a frame, and the slots of one. -/
theorem period_eq {ms : Nat} (hmu : mu ≤ 3) (hidx : tddMsPeriodPattern[idx]? = some ms)
    (hdvd : 8 ∣ ms * 2 ^ mu) : ∃ frame periods,
      getSlotsPerFrameFromScs mu = some frame ∧ getNbPeriodsPerFrame idx = some periods ∧
        0 < toInt8 periods ∧ toInt8 ((toInt8 frame).tdiv (toInt8 periods)) =
          (ms * 2 ^ mu / 8 : Nat) ∧ 0 < ms * 2 ^ mu / 8 ∧ ms * 2 ^ mu / 8 ≤ 80 := by
  have hlt : idx < 8 := (List.getElem?_eq_some_iff.1 hidx).1
  interval_cases mu <;> interval_cases idx <;> obtain rfl := Option.some.inj hidx <;>
    first
      | exact absurd hdvd (by decide)
      | exact ⟨_, _, rfl, rfl, by decide, by decide, by decide, by decide⟩

/-- A period has the slots of the patterns. -/
theorem slots_eq (h : tdd.Fits mu) (hidx : getTddPeriodIdx tdd = some idx) :
    ∃ ms, tddMsPeriodPattern[idx]? = some ms ∧ 8 ∣ ms * 2 ^ mu ∧
      ms * 2 ^ mu / 8 = tdd.slots mu := by
  unfold getTddPeriodIdx at hidx
  obtain ⟨ms₁, hms₁, hidx⟩ := Option.bind_eq_some_iff.1 hidx
  obtain ⟨ms₂, hms₂, hidx⟩ := Option.bind_eq_some_iff.1 hidx
  have hms : tddMsPeriodPattern[idx]? = some (ms₁ + ms₂) := by
    simpa using List.find?_some hidx
  have hdvd₁ := h.1.whole
  rw [hms₁, Option.getD_some] at hdvd₁
  have hdvd₂ : 8 ∣ ms₂ * 2 ^ mu ∧
      (tdd.pattern2.map (·.slots mu)).getD 0 = ms₂ * 2 ^ mu / 8 := by
    cases hp2 : tdd.pattern2 with
    | none =>
      rw [hp2] at hms₂
      obtain rfl := Option.some.inj hms₂
      simp
    | some p =>
      rw [hp2, Option.elim_some] at hms₂
      have hwhole := (h.2 p hp2).whole
      rw [hms₂, Option.getD_some] at hwhole
      refine ⟨hwhole, ?_⟩
      rw [Option.map_some, Option.getD_some, TddPattern.slots, hms₂, Option.getD_some]
  refine ⟨_, hms, ?_, ?_⟩
  · rw [Nat.add_mul]
    exact Nat.dvd_add hdvd₁ hdvd₂.1
  · rw [slots, hdvd₂.2, TddPattern.slots, hms₁, Option.getD_some, Nat.add_mul,
      Nat.add_div_of_dvd_right hdvd₁]

/-- The frame structure of a configuration that fits. -/
theorem configFrameStructure_eq (hmu : mu ≤ 3) (h : tdd.Fits mu)
    (hidx : getTddPeriodIdx tdd = some idx) {fs : FrameStructure}
    (h80 : fs.periodCfg.tddSlotBitmap.length = 80) :
    ∃ fs', configFrameStructure mu tdd idx .tdd fs = some fs' ∧ fs'.frameType = .tdd ∧
      fs'.numbSlotsPeriod = tdd.slots mu ∧ 0 < tdd.slots mu ∧ tdd.slots mu ≤ 80 ∧
      ∀ j, fs'.periodCfg.tddSlotBitmap[j]? =
        fs.periodCfg.tddSlotBitmap[j]?.map (tdd.slotAt j) := by
  obtain ⟨ms, hms, hdvd, hslots⟩ := slots_eq h hidx
  obtain ⟨frame, periods, hframe, hperiods, hpos, hperiod, hlt, hle⟩ := period_eq hmu hms hdvd
  rw [hslots] at hperiod hlt hle
  obtain ⟨pc, hpc, -, hbitmap⟩ := configTddPatterns_eq h hle h80
  unfold configFrameStructure
  simp only [hframe, hperiods, hpc, Option.bind_eq_bind, Option.bind_some, if_pos hpos]
  exact ⟨_, rfl, rfl, hperiod, hlt, hle, hbitmap⟩

end TddConfigCommon

/-! ## Directions -/

section Lookup

variable {fs : FrameStructure} {n slot : Nat} {b : TddBitmap}

theorem getSlotIdxInPeriod_eq (hperiod : fs.numbSlotsPeriod = n) (hpos : 0 < n) (hle : n ≤ 80)
    (hslot : slot < 2 ^ 31) : fs.getSlotIdxInPeriod slot = some (slot % n) := by
  have hint : (slot : Int).bmod (2 ^ 32) = slot := Int.bmod_eq_of_le (by omega) (by omega)
  have hmod : ((slot % n : ℕ) : ℤ) < 2 ^ 32 := by
    have hlt := Nat.mod_lt slot hpos
    omega
  unfold FrameStructure.getSlotIdxInPeriod
  rw [hperiod, if_neg (by omega), hint, Int.tmod_eq_emod_of_nonneg (Int.natCast_nonneg slot),
    ← Int.natCast_emod, Int.emod_eq_of_lt (Int.natCast_nonneg _) hmod, Int.toNat_natCast]

theorem isMixedSlot_eq (htype : fs.frameType = .tdd) (hperiod : fs.numbSlotsPeriod = n)
    (hpos : 0 < n) (hle : n ≤ 80) (hslot : slot < n)
    (hb : fs.periodCfg.tddSlotBitmap[slot]? = some b) :
    fs.isMixedSlot slot = some (decide (b.slotType = .mixed)) := by
  unfold FrameStructure.isMixedSlot
  rw [htype, getSlotIdxInPeriod_eq hperiod hpos hle (by omega), Nat.mod_eq_of_lt hslot]
  simp [hb]

theorem isDlSlot_eq (htype : fs.frameType = .tdd) (hperiod : fs.numbSlotsPeriod = n)
    (hpos : 0 < n) (hle : n ≤ 80) (hslot : slot < 2 ^ 31)
    (hb : fs.periodCfg.tddSlotBitmap[slot % n]? = some b) :
    fs.isDlSlot slot = some (decide b.Dl) := by
  unfold FrameStructure.isDlSlot
  rw [htype, getSlotIdxInPeriod_eq hperiod hpos hle hslot]
  simp only [isMixedSlot_eq htype hperiod hpos hle (Nat.mod_lt _ hpos) hb, hb,
    Option.bind_eq_bind, Option.bind_some]
  refine congrArg some (Bool.eq_iff_iff.2 ?_)
  rw [decide_eq_true_iff, TddBitmap.Dl]
  simp

theorem isUlSlot_eq (htype : fs.frameType = .tdd) (hperiod : fs.numbSlotsPeriod = n)
    (hpos : 0 < n) (hle : n ≤ 80) (hslot : slot < 2 ^ 31)
    (hb : fs.periodCfg.tddSlotBitmap[slot % n]? = some b) :
    fs.isUlSlot slot = some (decide b.Ul) := by
  unfold FrameStructure.isUlSlot
  rw [htype, getSlotIdxInPeriod_eq hperiod hpos hle hslot]
  simp only [isMixedSlot_eq htype hperiod hpos hle (Nat.mod_lt _ hpos) hb, hb,
    Option.bind_eq_bind, Option.bind_some]
  refine congrArg some (Bool.eq_iff_iff.2 ?_)
  rw [decide_eq_true_iff, TddBitmap.Ul]
  simp

end Lookup

/-- The functions give every slot the directions that the patterns do. -/
def FrameStructure.Agrees (mu : Nat) (tdd : TddConfigCommon) (fs : FrameStructure) : Prop :=
  ∀ slot < 2 ^ 31,
    (∃ dl, fs.isDlSlot slot = some dl ∧ (dl = true ↔ tdd.Dl mu (slot % tdd.slots mu))) ∧
      ∃ ul, fs.isUlSlot slot = some ul ∧ (ul = true ↔ tdd.Ul mu (slot % tdd.slots mu))

namespace TddConfigCommon

variable {mu idx : Nat} {tdd : TddConfigCommon}

/-- The bitmap has the directions of the patterns exactly if these have no flexible slots. -/
theorem agree_iff (h : tdd.Fits mu) (old : Nat → TddBitmap)
    (hdirected : ∀ j < tdd.slots mu, (tdd.slotAt j (old j)).Dl ∨ (tdd.slotAt j (old j)).Ul) :
    (∀ j < tdd.slots mu, ((tdd.slotAt j (old j)).Dl ↔ tdd.Dl mu j) ∧
      ((tdd.slotAt j (old j)).Ul ↔ tdd.Ul mu j)) ↔ tdd.Filled mu := by
  have hfirst : ∀ i < tdd.pattern1.total, ∀ b, tdd.slotAt i b = tdd.pattern1.slotOf i b :=
    fun i hi b => if_pos hi
  have hle : tdd.pattern1.slots mu ≤ tdd.slots mu := Nat.le_add_right _ _
  have hsecond : tdd.pattern1.Filled mu → ∀ p ∈ tdd.pattern2, ∀ i < p.total, ∀ b,
      tdd.slotAt (tdd.pattern1.slots mu + i) b = p.slotOf i b := by
    intro hfilled p hp i hi b
    have htotal : tdd.pattern1.slots mu = tdd.pattern1.total := hfilled
    rw [slotAt, if_neg (by omega), hp]
    dsimp only
    rw [if_pos (by omega), htotal, Nat.add_sub_cancel_left]
  constructor
  · intro hagree
    have hfilled : tdd.pattern1.Filled mu := TddPattern.filled_of_agree h.1
      (fun i => tdd.slotAt i (old i)) (fun i hi => ⟨old i, hfirst i hi _⟩)
      (fun i hi => hdirected i (by omega)) fun i hi => by
        have hi' := hagree i (by omega)
        rwa [Dl, Ul, if_pos hi, if_pos hi] at hi'
    refine ⟨hfilled, fun p hp => ?_⟩
    have hslots : tdd.slots mu = tdd.pattern1.slots mu + p.slots mu := by
      rw [slots, hp, Option.map_some, Option.getD_some]
    refine TddPattern.filled_of_agree (h.2 p hp)
      (fun i => tdd.slotAt (tdd.pattern1.slots mu + i) (old (tdd.pattern1.slots mu + i)))
      (fun i hi => ⟨_, hsecond hfilled p hp i hi _⟩) (fun i hi => hdirected _ (by omega))
      fun i hi => ?_
    have hi' := hagree (tdd.pattern1.slots mu + i) (by omega)
    rw [Dl, Ul, if_neg (by omega), if_neg (by omega), Nat.add_sub_cancel_left, hp] at hi'
    simpa using hi'
  · rintro ⟨hfilled, hfilled'⟩ j hj
    rw [Dl, Ul]
    by_cases hlt : j < tdd.pattern1.slots mu
    · rw [if_pos hlt, if_pos hlt, hfirst j (hlt.trans_eq hfilled)]
      exact TddPattern.agree_of_filled h.1 hfilled hlt
    · rw [if_neg hlt, if_neg hlt]
      cases hp : tdd.pattern2 with
      | none =>
        rw [slots, hp, Option.map_none, Option.getD_none] at hj
        omega
      | some p =>
        have hslots : tdd.slots mu = tdd.pattern1.slots mu + p.slots mu := by
          rw [slots, hp, Option.map_some, Option.getD_some]
        obtain ⟨i, rfl⟩ := Nat.exists_eq_add_of_le (Nat.le_of_not_lt hlt)
        have hi : i < p.slots mu := by omega
        rw [hsecond hfilled p hp i (hi.trans_eq (hfilled' p hp)), Nat.add_sub_cancel_left]
        simpa using TddPattern.agree_of_filled (h.2 p hp) (hfilled' p hp) hi

/-- After a configuration that fits, whatever was configured before, `is_dl_slot` and `is_ul_slot`
answer as the patterns prescribe for every slot number if and only if no pattern leaves a slot
flexible or has its downlink and uplink symbols in two slots. -/
theorem tddSlots_iff {fs : FrameStructure} (hfs : fs.Configured) (hmu : mu ≤ 3) (h : tdd.Fits mu)
    (hidx : getTddPeriodIdx tdd = some idx) :
    (∃ fs', configFrameStructure mu tdd idx .tdd fs = some fs' ∧ fs'.Agrees mu tdd) ↔
      tdd.Filled mu := by
  obtain ⟨fs', hconfig, htype, hperiod, hpos, hle, hbitmap⟩ :=
    configFrameStructure_eq hmu h hidx hfs.directed.length_eq
  have hnew := (hfs.config hconfig).directed
  have hold : ∀ j, ∃ b, j < tdd.slots mu → fs.periodCfg.tddSlotBitmap[j]? = some b := fun j =>
    ⟨fs.periodCfg.tddSlotBitmap.getD j ⟨.downlink, 0, 0⟩, fun hj => by
      rw [List.getD_eq_getElem?_getD, List.getElem?_eq_getElem
        ((hj.trans_le hle).trans_eq hfs.directed.length_eq.symm), Option.getD_some]⟩
  choose old hold using hold
  have hslot : ∀ j < tdd.slots mu,
      fs'.periodCfg.tddSlotBitmap[j]? = some (tdd.slotAt j (old j)) := fun j hj => by
    rw [hbitmap, hold j hj, Option.map_some]
  rw [← agree_iff h old fun j hj =>
    hnew.directed _ (List.mem_of_getElem? (hslot j hj))]
  have hdl : ∀ slot < 2 ^ 31, fs'.isDlSlot slot =
      some (decide (tdd.slotAt (slot % tdd.slots mu) (old (slot % tdd.slots mu))).Dl) :=
    fun slot hlt => isDlSlot_eq htype hperiod hpos hle hlt (hslot _ (Nat.mod_lt _ hpos))
  have hul : ∀ slot < 2 ^ 31, fs'.isUlSlot slot =
      some (decide (tdd.slotAt (slot % tdd.slots mu) (old (slot % tdd.slots mu))).Ul) :=
    fun slot hlt => isUlSlot_eq htype hperiod hpos hle hlt (hslot _ (Nat.mod_lt _ hpos))
  constructor
  · rintro ⟨fs'', hconfig', hagrees⟩ j hj
    rw [hconfig, Option.some.injEq] at hconfig'
    subst hconfig'
    have hlt : j < 2 ^ 31 := by omega
    obtain ⟨⟨dl, hdl', hdliff⟩, ul, hul', huliff⟩ := hagrees j hlt
    rw [hdl j hlt, Option.some.injEq] at hdl'
    rw [hul j hlt, Option.some.injEq] at hul'
    rw [← hdl', decide_eq_true_iff] at hdliff
    rw [← hul', decide_eq_true_iff] at huliff
    rw [Nat.mod_eq_of_lt hj] at hdliff huliff
    exact ⟨hdliff, huliff⟩
  · intro hagree
    refine ⟨fs', hconfig, fun slot hlt => ⟨⟨_, hdl slot hlt, ?_⟩, _, hul slot hlt, ?_⟩⟩
    · rw [decide_eq_true_iff]
      exact (hagree _ (Nat.mod_lt _ hpos)).1
    · rw [decide_eq_true_iff]
      exact (hagree _ (Nat.mod_lt _ hpos)).2

/-- Three downlink slots, six symbols of downlink and four of uplink, and an uplink slot in 2.5 ms
of 30 kHz. -/
def dddsu : TddConfigCommon :=
  ⟨⟨5, none, 3, 6, 1, 4⟩, none⟩

theorem dddsu_fits : dddsu.Fits 1 :=
  ⟨⟨by decide, by decide, by decide, by decide⟩, fun p hp => nomatch hp⟩

theorem tddSlots_iff_dddsu :
    (∃ fs', configFrameStructure 1 dddsu 5 .tdd .zero = some fs' ∧ fs'.Agrees 1 dddsu) ↔
      dddsu.Filled 1 :=
  tddSlots_iff .zero (by decide) dddsu_fits (by decide)

/-- As many slots and symbols in 5 ms, which leave five slots flexible. -/
def flexible : TddConfigCommon :=
  ⟨⟨6, none, 3, 6, 1, 4⟩, none⟩

/-- Its last slot is downlink for the code. -/
theorem not_tddSlots_agree : ¬∀ mu idx tdd fs, FrameStructure.Configured fs → mu ≤ 3 →
    TddConfigCommon.Fits mu tdd → getTddPeriodIdx tdd = some idx →
      ∃ fs', configFrameStructure mu tdd idx .tdd fs = some fs' ∧ fs'.Agrees mu tdd := by
  intro hall
  obtain ⟨fs', hconfig, hagrees⟩ := hall 1 6 flexible .zero .zero (by decide)
    ⟨⟨by decide, by decide, by decide, by decide⟩, fun p hp => nomatch hp⟩ (by decide)
  obtain ⟨⟨dl, hdl, hiff⟩, -⟩ := hagrees 9 (by decide)
  have hcode : (configFrameStructure 1 flexible 6 .tdd .zero).bind (·.isDlSlot 9) = some true := by
    decide +kernel
  rw [hconfig, Option.bind_some, hdl, Option.some.injEq] at hcode
  have hspec : ¬flexible.Dl 1 (9 % flexible.slots 1) := by
    unfold Dl TddPattern.Dl
    decide
  exact hspec (hiff.1 hcode)

end TddConfigCommon

end NrStack
