import NrStack.Mac.FindNbRb
import NrStack.Mac.Pdcch

/-!
# The size of retransmissions

A retransmission has to give the transport block size of the first transmission.
`allocate_dl_retransmission` and `allocate_ul_retransmission` keep the old allocation where they
can, and search another one of the same size with `nr_find_nb_rb` where the time domain allocation
is a new one. `nr_generate_Msg4_MsgB` searches again from one block on, for the first size that is
large enough, and takes whatever it is (`not_harqRetx`).

What the rest of the scheduler finds for an attempt is an input of it : the time domain allocation
and the DMRS, the marked blocks, and if there is a CCE and a PUCCH occasion.
-/

namespace NrStack

/-- `NR_tda_info_t` -/
structure TdaInfo where
  startSymbolIndex : ℕ
  nrOfSymbols : ℕ
  validTda : Bool
deriving DecidableEq, Repr

/-- `NR_pdsch_dmrs_t`, or `NR_pusch_dmrs_t` with its `num_dmrs_symb`. -/
structure DmrsInfo where
  nPrbDmrs : ℕ
  nDmrsSlot : ℕ
deriving DecidableEq, Repr

/-- `NR_sched_pdsch_t`, or `NR_sched_pusch_t` with its `tpmi` for the `pm_index`. -/
structure SchedSch where
  rbSize : ℕ
  rbStart : ℕ
  R : UInt16
  Qm : UInt16
  tbSize : ℕ
  nrOfLayers : UInt8
  pmIndex : ℕ
  timeDomainAllocation : ℕ
  tdaInfo : TdaInfo
  dmrs : DmrsInfo
deriving DecidableEq, Repr

/-- The bytes of `rbSize` blocks. -/
def blockBytes (Qm R : UInt16) (nrOfLayers : UInt8) (tda : TdaInfo) (dmrs : DmrsInfo)
    (rbSize : ℕ) : ℕ :=
  tbsBytes Qm R nrOfLayers (UInt16.ofNat tda.nrOfSymbols)
    (UInt16.ofNat (dmrs.nPrbDmrs * dmrs.nDmrsSlot)) rbSize

/-- The transport block of an allocation with blocks has the size that the process is said to have.
-/
structure SchedSch.Gives (T : ℕ) (s : SchedSch) : Prop where
  tbSize_eq : s.tbSize = T
  bytes_eq : blockBytes s.Qm s.R s.nrOfLayers s.tdaInfo s.dmrs s.rbSize = T
  rbSize_pos : 0 < s.rbSize

/-- What an attempt sends, the process, and the marks afterwards. -/
structure RetxResult where
  sent : Option SchedSch
  retInfo : SchedSch
  mask : VrbMap

/-! ## Free blocks -/

/-- The first free block, or the one after `n` used ones. -/
def skipUsed (used : ℕ → Bool) : ℕ → ℕ → ℕ
  | 0, rb => rb
  | n + 1, rb => if used rb then skipUsed used n (rb + 1) else rb

/-- The free blocks in a row, at most `n`. -/
def countFree (used : ℕ → Bool) : ℕ → ℕ → ℕ
  | 0, _ => 0
  | n + 1, rb => if used rb then 0 else countFree used n (rb + 1) + 1

/-- The loop of `allocate_dl_retransmission` for `rbSize` blocks in a row, before `rbEnd`. -/
def reuseStart (used : ℕ → Bool) (rbSize rbEnd : ℕ) : ℕ → ℕ → Option (Option ℕ)
  | 0, _ => none
  | fuel + 1, rbStart =>
    let rbStart := skipUsed used (rbEnd - 1 - rbStart) rbStart
    if rbEnd ≤ rbStart + 1 then some none
    else
      let found := countFree used (min (rbEnd - rbStart) rbSize) rbStart
      if found < rbSize then reuseStart used rbSize rbEnd fuel (rbStart + found)
      else some (some rbStart)

/-! ## Downlink -/

/-- An attempt in the downlink. The layers and precoder are those of the current `sched_pdsch`. -/
structure DlAttempt where
  nrOfLayers : UInt8
  pmIndex : ℕ
  tda : ℕ
  tdaInfo : TdaInfo
  dmrs : UInt8 → DmrsInfo
  rballocMask : VrbMap
  bwpStart : ℕ
  bwpSize : ℕ
  cce : Bool
  pucch : Bool

namespace DlAttempt

variable (a : DlAttempt) (retInfo : SchedSch)

def used (tda : TdaInfo) (rb : ℕ) : Bool :=
  a.rballocMask rb &&& slToBitmap tda.startSymbolIndex tda.nrOfSymbols != 0

def layers : UInt8 :=
  if a.nrOfLayers < retInfo.nrOfLayers then a.nrOfLayers else retInfo.nrOfLayers

def reuses : Prop :=
  (retInfo.tdaInfo.startSymbolIndex = a.tdaInfo.startSymbolIndex ∧
    retInfo.tdaInfo.nrOfSymbols ≤ a.tdaInfo.nrOfSymbols) ∧ a.layers retInfo = retInfo.nrOfLayers

instance : Decidable (a.reuses retInfo) :=
  inferInstanceAs (Decidable (_ ∧ _))

/-- The first free block for a new time domain allocation, and how many there are from it on. -/
def newStart : ℕ :=
  skipUsed (a.used a.tdaInfo) (a.bwpStart + a.bwpSize - 1 - a.bwpStart) a.bwpStart

def newSize : ℕ :=
  countFree (a.used a.tdaInfo) (a.bwpStart + a.bwpSize - a.newStart) a.newStart

/-- The CCE and PUCCH, and the marks : a loop from `rbStart` up to the number of blocks. -/
def finish (rbStart : ℕ) : RetxResult :=
  if a.cce && a.pucch then
    ⟨some { retInfo with rbStart := rbStart - a.bwpStart }, retInfo, fun rb =>
      if rbStart ≤ rb ∧ rb < retInfo.rbSize then a.rballocMask rb |||
        slToBitmap retInfo.tdaInfo.startSymbolIndex retInfo.tdaInfo.nrOfSymbols
      else a.rballocMask rb⟩
  else ⟨none, retInfo, a.rballocMask⟩

/-- With the old time domain allocation, after the search for the blocks. -/
def reuse : Option ℕ → RetxResult
  | none => ⟨none, retInfo, a.rballocMask⟩
  | some rbStart => a.finish retInfo rbStart

/-- With a new time domain allocation, after `nr_find_nb_rb`. -/
def renew (r : NbRbFound) : RetxResult :=
  if r.success = false ∨ r.tbs ≠ retInfo.tbSize then ⟨none, retInfo, a.rballocMask⟩
  else a.finish { retInfo with
    tbSize := r.tbs
    rbSize := r.nbRb
    timeDomainAllocation := a.tda
    nrOfLayers := a.layers retInfo
    pmIndex := if a.nrOfLayers < retInfo.nrOfLayers then a.pmIndex else retInfo.pmIndex
    dmrs := a.dmrs (a.layers retInfo)
    tdaInfo := a.tdaInfo } a.newStart

end DlAttempt

/-- `allocate_dl_retransmission` -/
def allocateDlRetransmission (a : DlAttempt) (retInfo : SchedSch) (fuel : ℕ) :
    Option RetxResult :=
  if a.tdaInfo.validTda = false then some ⟨none, retInfo, a.rballocMask⟩
  else if a.reuses retInfo then
    if retInfo.rbSize = 0 then some (a.finish retInfo a.bwpStart)
    else (reuseStart (a.used retInfo.tdaInfo) retInfo.rbSize (a.bwpStart + a.bwpSize) fuel
      a.bwpStart).map (a.reuse retInfo)
  else
    (nrFindNbRb retInfo.Qm retInfo.R 1 (a.layers retInfo) (UInt16.ofNat a.tdaInfo.nrOfSymbols)
      (UInt16.ofNat ((a.dmrs (a.layers retInfo)).nPrbDmrs * (a.dmrs (a.layers retInfo)).nDmrsSlot))
      retInfo.tbSize 1 a.newSize fuel).map (a.renew retInfo)

/-! ## Uplink -/

/-- An attempt in the uplink. The blocks count from the start of the bandwidth part. -/
structure UlAttempt where
  transformPrecoding : ℤ
  tda : ℕ
  tdaInfo : TdaInfo
  dmrs : DmrsInfo
  rballocMask : VrbMap
  bwpStart : ℕ
  bwpSize : ℕ
  cce : Bool

namespace UlAttempt

variable (a : UlAttempt) (retInfo : SchedSch)

def used (tda : TdaInfo) (rb : ℕ) : Bool :=
  a.rballocMask (rb + a.bwpStart) &&& slToBitmap tda.startSymbolIndex tda.nrOfSymbols != 0

/-- The number of layers is the old one. -/
def reuses : Prop :=
  retInfo.tdaInfo.startSymbolIndex = a.tdaInfo.startSymbolIndex ∧
    retInfo.tdaInfo.nrOfSymbols ≤ a.tdaInfo.nrOfSymbols

instance : Decidable (a.reuses retInfo) :=
  inferInstanceAs (Decidable (_ ∧ _))

def firstFree (tda : TdaInfo) : ℕ :=
  skipUsed (a.used tda) a.bwpSize 0

def newSize : ℕ :=
  countFree (a.used a.tdaInfo) (a.bwpSize - a.firstFree a.tdaInfo) (a.firstFree a.tdaInfo)

/-- The CCE, and the marks : a loop from the start of the bandwidth part up to the number of
blocks. -/
def finish (rbStart : ℕ) : RetxResult :=
  if a.cce then
    ⟨some { retInfo with rbStart := rbStart }, retInfo, fun rb =>
      if a.bwpStart + rbStart ≤ rb ∧ rb < retInfo.rbSize + rbStart then a.rballocMask rb |||
        slToBitmap retInfo.tdaInfo.startSymbolIndex retInfo.tdaInfo.nrOfSymbols
      else a.rballocMask rb⟩
  else ⟨none, retInfo, a.rballocMask⟩

/-- With a new time domain allocation, after `nr_find_nb_rb`. -/
def renew (r : NbRbFound) : RetxResult :=
  if r.success = false ∨ r.tbs ≠ retInfo.tbSize then ⟨none, retInfo, a.rballocMask⟩
  else a.finish { retInfo with
    tbSize := r.tbs
    rbSize := r.nbRb
    timeDomainAllocation := a.tda
    dmrs := a.dmrs
    tdaInfo := a.tdaInfo } (a.firstFree a.tdaInfo)

end UlAttempt

/-- `allocate_ul_retransmission` -/
def allocateUlRetransmission (a : UlAttempt) (retInfo : SchedSch) (fuel : ℕ) :
    Option RetxResult :=
  if a.tdaInfo.validTda = false then some ⟨none, retInfo, a.rballocMask⟩
  else if a.reuses retInfo then
    -- only the first of the blocks is known to be free
    if a.bwpSize < a.firstFree retInfo.tdaInfo + retInfo.rbSize then
      some ⟨none, retInfo, a.rballocMask⟩
    else some (a.finish retInfo (a.firstFree retInfo.tdaInfo))
  else
    (nrFindNbRb retInfo.Qm retInfo.R a.transformPrecoding retInfo.nrOfLayers
      (UInt16.ofNat a.tdaInfo.nrOfSymbols) (UInt16.ofNat (a.dmrs.nPrbDmrs * a.dmrs.nDmrsSlot))
      retInfo.tbSize 1 a.newSize fuel).map (a.renew retInfo)

/-! ## Msg4 and MsgB -/

/-- An attempt of a retransmission of Msg4 or MsgB : what its early exits depend on, and the search
space. -/
structure Msg4Attempt where
  beam : Bool
  cce : Bool
  dlReqRoom : Bool
  tdaInfo : TdaInfo
  dmrs : DmrsInfo
  mcsTableIdx : UInt8
  bwpStart : ℕ
  bwpSize : ℕ
  vrbMap : VrbMap
  pucch : Bool

/-- What is sent. -/
structure Msg4Alloc where
  rbSize : ℕ
  rbStart : ℕ
  mcsIndex : ℕ
  tbSize : ℕ
deriving DecidableEq, Repr

/-- What an attempt sends, and the `tb_size` of the process afterwards. -/
structure Msg4Result where
  sent : Option Msg4Alloc
  tbSize : ℕ
deriving DecidableEq, Repr

namespace Msg4Attempt

variable (a : Msg4Attempt)

/-- The bytes of `rbSize` blocks, with one layer. -/
def bytes (rbSize mcsIndex : ℕ) : ℕ :=
  blockBytes (nrGetQmDl (UInt8.ofNat mcsIndex) a.mcsTableIdx)
    (nrGetCodeRateDl (UInt8.ofNat mcsIndex) a.mcsTableIdx) 1 a.tdaInfo a.dmrs rbSize

def used (rb : ℕ) : Bool :=
  a.vrbMap (a.bwpStart + rb) &&&
    slToBitmap a.tdaInfo.startSymbolIndex a.tdaInfo.nrOfSymbols != 0

end Msg4Attempt

/-- The loop over the blocks, and then over the MCS. -/
def msg4Search (bytes : ℕ → ℕ → ℕ) (bwpSize pduLength : ℕ) : ℕ → ℕ → ℕ → Option (ℕ × ℕ)
  | 0, _, _ => none
  | fuel + 1, rbSize, mcsIndex =>
    let rbSize' := if rbSize < bwpSize then rbSize + 1 else rbSize
    let mcsIndex' := if rbSize < bwpSize then mcsIndex else mcsIndex + 1
    if bytes rbSize' mcsIndex' < pduLength ∧ mcsIndex' ≤ 28 then
      msg4Search bytes bwpSize pduLength fuel rbSize' mcsIndex'
    else some (rbSize', mcsIndex')

/-- The loop for free blocks in a row. -/
def msg4Start (used : ℕ → Bool) (bwpSize rbSize : ℕ) : ℕ → ℕ → ℕ → Option ℕ
  | 0, _, _ => none
  | fuel + 1, rbStart, i =>
    if i < rbSize ∧ rbStart + rbSize ≤ bwpSize then
      if used (rbStart + i) then msg4Start used bwpSize rbSize fuel (rbStart + i + 1) 0
      else msg4Start used bwpSize rbSize fuel rbStart (i + 1)
    else some rbStart

/-- `nr_generate_Msg4_MsgB` for a process that awaits a retransmission. The length of the block is a
`uint16_t`. -/
def nrGenerateMsg4 (a : Msg4Attempt) (tbSize fuel : ℕ) : Option Msg4Result :=
  if (a.beam && a.cce && a.dlReqRoom && a.tdaInfo.validTda) = false then some ⟨none, tbSize⟩
  else
    let pduLength := tbSize % 2 ^ 16
    (msg4Search a.bytes a.bwpSize pduLength fuel 0 0).bind fun (rbSize, mcsIndex) =>
      -- an assertion
      if a.bytes rbSize mcsIndex < pduLength then none
      else
        (msg4Start a.used a.bwpSize rbSize fuel 0 0).bind fun rbStart =>
          if a.bwpSize < rbStart + rbSize then some ⟨none, tbSize⟩
          else if a.pucch then
            some ⟨some ⟨rbSize, rbStart, mcsIndex, a.bytes rbSize mcsIndex⟩,
              a.bytes rbSize mcsIndex⟩
          else some ⟨none, tbSize⟩

/-! ## The loops end -/

section Loops

variable {used : ℕ → Bool} {n rb j rbSize rbEnd bwpSize : ℕ}

theorem countFree_le : countFree used n rb ≤ n := by
  induction n generalizing rb with
  | zero => exact le_rfl
  | succ n ih =>
    rw [countFree]
    split_ifs
    · exact Nat.zero_le _
    · exact Nat.succ_le_succ ih

theorem countFree_free (hj : j < countFree used n rb) : used (rb + j) = false := by
  induction n generalizing rb j with
  | zero => exact absurd hj (Nat.not_lt_zero j)
  | succ n ih =>
    rw [countFree] at hj
    split_ifs at hj with hused
    · exact absurd hj (Nat.not_lt_zero j)
    · cases j with
      | zero => exact Bool.eq_false_of_not_eq_true hused
      | succ j =>
        rw [Nat.add_succ, ← Nat.succ_add]
        exact ih (Nat.lt_of_succ_lt_succ hj)

theorem countFree_pos (hn : 0 < n) (hrb : used rb = false) : 0 < countFree used n rb := by
  obtain ⟨m, rfl⟩ := Nat.exists_eq_add_of_le' hn
  rw [countFree, hrb]
  exact Nat.succ_pos _

theorem skipUsed_mem : rb ≤ skipUsed used n rb ∧ skipUsed used n rb ≤ rb + n ∧
    (skipUsed used n rb < rb + n → used (skipUsed used n rb) = false) := by
  induction n generalizing rb with
  | zero => exact ⟨le_rfl, le_rfl, fun h => absurd h (lt_irrefl _)⟩
  | succ n ih =>
    rw [skipUsed]
    split_ifs with hused
    · obtain ⟨hle, hle', hfree⟩ := @ih (rb + 1)
      exact ⟨by omega, by omega, fun h => hfree (by omega)⟩
    · exact ⟨le_rfl, by omega, fun _ => Bool.eq_false_of_not_eq_true hused⟩

/-- The blocks found to be reused are free, in a row, and before the end. -/
theorem reuseStart_returns (hpos : 0 < rbSize) : ∃ o,
    Returns (fun fuel => reuseStart used rbSize rbEnd fuel rb) o ∧ ∀ start, o = some start →
      rb ≤ start ∧ start + rbSize ≤ rbEnd ∧ ∀ j < rbSize, used (start + j) = false := by
  obtain ⟨d, hd⟩ : ∃ d, d = rbEnd - rb := ⟨_, rfl⟩
  induction d using Nat.strong_induction_on generalizing rb with
  | _ d ih =>
    obtain ⟨hle, hle', hfree⟩ := @skipUsed_mem used (rbEnd - 1 - rb) rb
    obtain ⟨start, hstart⟩ : ∃ start, start = skipUsed used (rbEnd - 1 - rb) rb := ⟨_, rfl⟩
    rw [← hstart] at hle hle' hfree
    by_cases hend : rbEnd ≤ start + 1
    · refine ⟨none, .of_succ (g := fun _ => some none) (fun n => ?_) (.pure fun _ => rfl),
        fun _ h => nomatch h⟩
      rw [reuseStart, ← hstart]
      exact if_pos hend
    obtain ⟨found, hfound⟩ : ∃ found,
      found = countFree used (min (rbEnd - start) rbSize) start := ⟨_, rfl⟩
    have hfound_le : found ≤ min (rbEnd - start) rbSize := hfound ▸ countFree_le
    have hfound_pos : 0 < found :=
      hfound ▸ countFree_pos (lt_min (by omega) hpos) (hfree (by omega))
    have hstep : ∀ n, reuseStart used rbSize rbEnd (n + 1) rb =
        if found < rbSize then reuseStart used rbSize rbEnd n (start + found)
        else some (some start) := fun n => by
      rw [reuseStart, ← hstart]
      dsimp only
      rw [if_neg hend, ← hfound]
    by_cases hmore : found < rbSize
    · obtain ⟨o, ho, hfrom⟩ := ih (rbEnd - (start + found)) (by omega) rfl
      refine ⟨o, .of_succ (fun n => (hstep n).trans (if_pos hmore)) ho, fun s hs => ?_⟩
      obtain ⟨hs₁, hs₂, hs₃⟩ := hfrom s hs
      exact ⟨by omega, hs₂, hs₃⟩
    · refine ⟨some start, .of_succ (fun n => (hstep n).trans (if_neg hmore)) (.pure fun _ => rfl),
        fun s hs => ?_⟩
      obtain rfl := Option.some.inj hs
      exact ⟨hle, by omega, fun j hj => countFree_free (n := min (rbEnd - start) rbSize) (by omega)⟩

/-- The blocks found for Msg4 are free if they are inside. -/
theorem msg4Start_returns {i : ℕ} (hi : i ≤ rbSize) (hfree : ∀ j < i, used (rb + j) = false) :
    ∃ start, Returns (fun fuel => msg4Start used bwpSize rbSize fuel rb i) start ∧
      (start + rbSize ≤ bwpSize → ∀ j < rbSize, used (start + j) = false) := by
  obtain ⟨d, hd⟩ : ∃ d, d = bwpSize + 1 - rb := ⟨_, rfl⟩
  induction d using Nat.strong_induction_on generalizing rb i with
  | _ d ih =>
    obtain ⟨e, he⟩ : ∃ e, e = rbSize - i := ⟨_, rfl⟩
    induction e generalizing i with
    | zero =>
      refine ⟨rb, .of_succ (g := fun _ => some rb) (fun n => ?_) (.pure fun _ => rfl),
        fun _ j hj => hfree j (by omega)⟩
      rw [msg4Start, if_neg (by omega)]
    | succ e ih' =>
      by_cases hin : i < rbSize ∧ rb + rbSize ≤ bwpSize
      · cases hused : used (rb + i) with
        | true =>
          obtain ⟨start, hstart, hfrom⟩ := ih (bwpSize + 1 - (rb + i + 1)) (by omega)
            (Nat.zero_le _) (fun j hj => absurd hj (Nat.not_lt_zero j)) rfl
          refine ⟨start, .of_succ (fun n => ?_) hstart, hfrom⟩
          rw [msg4Start, if_pos hin, if_pos hused]
        | false =>
          obtain ⟨start, hstart, hfrom⟩ := ih' (i := i + 1) hin.1 (fun j hj => by
            rcases Nat.lt_succ_iff_lt_or_eq.1 hj with hj | rfl
            · exact hfree j hj
            · exact hused) (by omega)
          refine ⟨start, .of_succ (fun n => ?_) hstart, hfrom⟩
          rw [msg4Start, if_pos hin, if_neg (by simp [hused])]
      · refine ⟨rb, .of_succ (g := fun _ => some rb) (fun n => ?_) (.pure fun _ => rfl),
          fun hroom j hj => absurd ⟨by omega, hroom⟩ hin⟩
        rw [msg4Start, if_neg hin]

/-- Free blocks are found where they are. -/
theorem msg4Start_free {i : ℕ} (hend : rb + rbSize ≤ bwpSize)
    (hfree : ∀ j < rbSize, used (rb + j) = false) :
    Returns (fun fuel => msg4Start used bwpSize rbSize fuel rb i) rb := by
  obtain ⟨d, hd⟩ : ∃ d, d = rbSize - i := ⟨_, rfl⟩
  induction d generalizing i with
  | zero =>
    refine .of_succ (g := fun _ => some rb) (fun n => ?_) (.pure fun _ => rfl)
    rw [msg4Start, if_neg (by omega)]
  | succ d ih =>
    refine .of_succ (fun n => ?_) (ih (i := i + 1) (by omega))
    rw [msg4Start, if_pos ⟨by omega, hend⟩, if_neg (by simp [hfree i (by omega)])]

end Loops

/-- The allocations for Msg4, in the order of the search, after `rbSize` blocks and an MCS. -/
def msg4Allocations (bwpSize rbSize mcsIndex : ℕ) : List (ℕ × ℕ) :=
  (List.range' (rbSize + 1) (bwpSize - rbSize)).map (fun rb => (rb, mcsIndex)) ++
    (List.range' (mcsIndex + 1) (29 - mcsIndex)).map fun mcs => (bwpSize, mcs)

/-- A turn of the loop tries the next one. -/
theorem msg4Allocations_eq {bwpSize rbSize mcsIndex : ℕ} (hrb : rbSize ≤ bwpSize)
    (hmcs : mcsIndex ≤ 28) : msg4Allocations bwpSize rbSize mcsIndex =
      (if rbSize < bwpSize then rbSize + 1 else rbSize,
        if rbSize < bwpSize then mcsIndex else mcsIndex + 1) ::
      msg4Allocations bwpSize (if rbSize < bwpSize then rbSize + 1 else rbSize)
        (if rbSize < bwpSize then mcsIndex else mcsIndex + 1) := by
  unfold msg4Allocations
  split_ifs with hlt
  · obtain ⟨n, hn⟩ : ∃ n, bwpSize - rbSize = n + 1 := ⟨bwpSize - rbSize - 1, by omega⟩
    rw [hn, show bwpSize - (rbSize + 1) = n by omega]
    rfl
  · obtain rfl : rbSize = bwpSize := by omega
    obtain ⟨n, hn⟩ : ∃ n, 29 - mcsIndex = n + 1 := ⟨28 - mcsIndex, by omega⟩
    rw [hn, show 29 - (mcsIndex + 1) = n by omega, Nat.sub_self]
    rfl

/-- The search ends at the first allocation that is large enough, if there is one. -/
theorem msg4Search_returns {bytes : ℕ → ℕ → ℕ} {bwpSize pduLength rbSize mcsIndex : ℕ}
    (hrb : rbSize ≤ bwpSize) (hmcs : mcsIndex ≤ 28) {pre post : List (ℕ × ℕ)} {c : ℕ × ℕ}
    (hsplit : msg4Allocations bwpSize rbSize mcsIndex = pre ++ c :: post)
    (hpre : ∀ d ∈ pre, bytes d.1 d.2 < pduLength) (hc : pduLength ≤ bytes c.1 c.2) :
    Returns (fun fuel => msg4Search bytes bwpSize pduLength fuel rbSize mcsIndex) c := by
  induction pre generalizing rbSize mcsIndex with
  | nil =>
    rw [msg4Allocations_eq hrb hmcs] at hsplit
    obtain ⟨rfl, -⟩ := List.cons.inj hsplit
    refine .of_succ (g := fun _ => some _) (fun n => ?_) (.pure fun _ => rfl)
    rw [msg4Search]
    exact if_neg fun h => absurd hc h.1.not_ge
  | cons d pre ih =>
    rw [msg4Allocations_eq hrb hmcs] at hsplit
    obtain ⟨rfl, hrest⟩ := List.cons.inj hsplit
    have hmore : (if rbSize < bwpSize then mcsIndex else mcsIndex + 1) ≤ 28 := by
      split_ifs at hrest ⊢ with hlt
      · exact hmcs
      · by_contra hge
        obtain rfl : rbSize = bwpSize := by omega
        obtain rfl : mcsIndex = 28 := by omega
        simp [msg4Allocations] at hrest
    refine .of_succ (fun n => ?_) (ih (by split_ifs <;> omega) hmore hrest
      fun d hd => hpre d (List.mem_cons_of_mem _ hd))
    rw [msg4Search]
    exact if_pos ⟨hpre _ List.mem_cons_self, hmore⟩

/-! ## What an attempt keeps -/

/-- The attempts that do not end before the search. -/
def Msg4Attempt.Searches (a : Msg4Attempt) : Prop :=
  (a.beam && a.cce && a.dlReqRoom && a.tdaInfo.validTda) = true

/-- Blocks that are free for Msg4. -/
def Msg4Attempt.Free (a : Msg4Attempt) (rbStart rbSize : ℕ) : Prop :=
  rbStart + rbSize ≤ a.bwpSize ∧ ∀ j < rbSize, a.used (rbStart + j) = false

/-- The first allocation of at least the size of the process has exactly this size, or is not sent
for want of free blocks or of a PUCCH occasion. -/
def Msg4Attempt.Fits (a : Msg4Attempt) (T : ℕ) : Prop :=
  a.Searches → ∃ pre c post, msg4Allocations a.bwpSize 0 0 = pre ++ c :: post ∧
    (∀ d ∈ pre, a.bytes d.1 d.2 < T % 2 ^ 16) ∧ T % 2 ^ 16 ≤ a.bytes c.1 c.2 ∧
      (a.bytes c.1 c.2 = T ∨ a.pucch = false ∨ ∀ start, ¬a.Free start c.1)

/-- What is sent has the size of the process and is on free blocks. If nothing is sent, the process
stays as it is. -/
structure Msg4Keeps (a : Msg4Attempt) (T : ℕ) (r : Msg4Result) : Prop where
  sent : ∀ m, r.sent = some m → m.tbSize = T ∧ a.bytes m.rbSize m.mcsIndex = T ∧
    a.Free m.rbStart m.rbSize
  tbSize : r.tbSize = T

/-- What follows the search. -/
theorem msg4_of_search {a : Msg4Attempt} {T start : ℕ} {c : ℕ × ℕ} {r : Msg4Result}
    (hsearch : a.Searches)
    (hret : Returns (fun fuel => msg4Search a.bytes a.bwpSize (T % 2 ^ 16) fuel 0 0) c)
    (hc : T % 2 ^ 16 ≤ a.bytes c.1 c.2)
    (hstart : Returns (fun fuel => msg4Start a.used a.bwpSize c.1 fuel 0 0) start)
    (hr : (if a.bwpSize < start + c.1 then some (Msg4Result.mk none T)
      else if a.pucch then
        some ⟨some ⟨c.1, start, c.2, a.bytes c.1 c.2⟩, a.bytes c.1 c.2⟩
      else some ⟨none, T⟩) = some r) : Returns (nrGenerateMsg4 a T) r := by
  have hgo := hret.bind (g := fun fuel d => if a.bytes d.1 d.2 < T % 2 ^ 16 then none
    else (msg4Start a.used a.bwpSize d.1 fuel 0 0).bind fun start =>
      if a.bwpSize < start + d.1 then some (Msg4Result.mk none T)
      else if a.pucch then
        some ⟨some ⟨d.1, start, d.2, a.bytes d.1 d.2⟩, a.bytes d.1 d.2⟩
      else some ⟨none, T⟩) (c := r) (by
        simp only [if_neg hc.not_gt]
        exact hstart.bind (.pure fun _ => hr))
  obtain ⟨n, hn⟩ := hgo
  refine ⟨n, fun k hk => ?_⟩
  rw [nrGenerateMsg4, if_neg (fun h => by rw [Msg4Attempt.Searches, h] at hsearch; cases hsearch)]
  exact hn k hk

theorem nrGenerateMsg4_keeps {a : Msg4Attempt} {T : ℕ} (h : a.Fits T) :
    ∃ r, Returns (nrGenerateMsg4 a T) r ∧ Msg4Keeps a T r := by
  have hnothing : Msg4Keeps a T ⟨none, T⟩ := ⟨fun _ h => (nomatch h), rfl⟩
  by_cases hsearch : a.Searches
  · obtain ⟨pre, c, post, hsplit, hpre, hc, hfits⟩ := h hsearch
    have hret := @msg4Search_returns a.bytes _ _ _ _ (Nat.zero_le _) (Nat.zero_le _) _ _ _ hsplit
      hpre hc
    obtain ⟨start, hstart, hfree⟩ := @msg4Start_returns a.used 0 c.1 a.bwpSize 0 (Nat.zero_le _)
      fun j hj => absurd hj (Nat.not_lt_zero j)
    have hreturns := fun r => msg4_of_search (r := r) hsearch hret hc hstart
    by_cases hroom : a.bwpSize < start + c.1
    · exact ⟨_, hreturns _ (if_pos hroom), hnothing⟩
    · have hblocks : a.Free start c.1 := ⟨by omega, hfree (by omega)⟩
      simp only [if_neg hroom] at hreturns
      cases hpucch : a.pucch with
      | false => exact ⟨_, hreturns _ (if_neg (by simp [hpucch])), hnothing⟩
      | true =>
        refine ⟨_, hreturns _ (if_pos hpucch), ?_⟩
        have hsize : a.bytes c.1 c.2 = T := by
          rcases hfits with hsize | hno | hno
          · exact hsize
          · rw [hpucch] at hno
            cases hno
          · exact absurd hblocks (hno start)
        refine ⟨fun m hm => ?_, hsize⟩
        obtain rfl := Option.some.inj hm
        exact ⟨hsize, hsize, hblocks⟩
  · refine ⟨⟨none, T⟩, .pure fun n => ?_, hnothing⟩
    rw [nrGenerateMsg4, if_pos (Bool.eq_false_of_not_eq_true hsearch)]

/-! ### Downlink and uplink -/

/-- What an attempt in the downlink or uplink keeps, where `free` are the allocations on free
blocks. What is sent, and the process, give a block of size `T`. If no free allocation with the MCS
of the process does, nothing is sent and the process stays as it is. -/
structure RetxResult.Keeps (T : ℕ) (free : SchedSch → Prop) (s : SchedSch) (r : RetxResult) :
    Prop where
  sent : ∀ t, r.sent = some t → t.Gives T ∧ free t
  retInfo : r.retInfo.Gives T
  unchanged : (∀ t, t.Qm = s.Qm → t.R = s.R → t.Gives T → ¬free t) →
    r.sent = none ∧ r.retInfo = s

/-- The allocations on free blocks. -/
def DlAttempt.Free (a : DlAttempt) (t : SchedSch) : Prop :=
  t.rbStart + t.rbSize ≤ a.bwpSize ∧
    ∀ j < t.rbSize, a.used t.tdaInfo (a.bwpStart + t.rbStart + j) = false

/-- The allocations on free blocks. -/
def UlAttempt.Free (a : UlAttempt) (t : SchedSch) : Prop :=
  t.rbStart + t.rbSize ≤ a.bwpSize ∧ ∀ j < t.rbSize, a.used t.tdaInfo (t.rbStart + j) = false

/-- For a new time domain allocation, a block is free, or the size is larger than that of no blocks.
-/
def DlAttempt.Fits (a : DlAttempt) (s : SchedSch) : Prop :=
  a.tdaInfo.validTda = true → ¬a.reuses s → a.newSize ≠ 0 ∨
    blockBytes s.Qm s.R (a.layers s) a.tdaInfo (a.dmrs (a.layers s)) 0 < s.tbSize

/-- To be reused, all blocks from the first free one on have to be free. For a new time domain
allocation, a block is free, or there is no precoding and the size is larger than that of no
blocks. -/
def UlAttempt.Fits (a : UlAttempt) (s : SchedSch) : Prop :=
  a.tdaInfo.validTda = true →
    (a.reuses s → a.cce = true → a.firstFree s.tdaInfo + s.rbSize ≤ a.bwpSize →
      ∀ j < s.rbSize, a.used s.tdaInfo (a.firstFree s.tdaInfo + j) = false) ∧
    (¬a.reuses s → a.newSize ≠ 0 ∨ a.transformPrecoding ≠ 0 ∧
      blockBytes s.Qm s.R s.nrOfLayers a.tdaInfo a.dmrs 0 < s.tbSize)

section Keeps

variable {T : ℕ} {s t : SchedSch} {free : SchedSch → Prop} {mask : VrbMap}

/-- Nothing is sent. -/
theorem RetxResult.keeps_none (hs : s.Gives T) : (RetxResult.mk none s mask).Keeps T free s :=
  ⟨fun _ h => (nomatch h), hs, fun _ => ⟨rfl, rfl⟩⟩

/-- The size does not depend on the first block. -/
theorem SchedSch.Gives.start (hs : s.Gives T) (rbStart : ℕ) :
    ({ s with rbStart := rbStart } : SchedSch).Gives T :=
  ⟨hs.tbSize_eq, hs.bytes_eq, hs.rbSize_pos⟩

/-- The last steps keep the size, with a process that may be new. -/
theorem DlAttempt.finish_keeps {a : DlAttempt} {rbStart : ℕ} (ht : t.Gives T)
    (hmcs : t.Qm = s.Qm ∧ t.R = s.R) (hstart : a.bwpStart ≤ rbStart)
    (hend : rbStart + t.rbSize ≤ a.bwpStart + a.bwpSize)
    (hfree : ∀ j < t.rbSize, a.used t.tdaInfo (rbStart + j) = false) :
    (a.finish t rbStart).Keeps T a.Free s := by
  have hall : a.Free { t with rbStart := rbStart - a.bwpStart } := by
    refine ⟨by dsimp only; omega, fun j hj => ?_⟩
    dsimp only
    rw [Nat.add_sub_cancel' hstart]
    exact hfree j hj
  have hno : ¬∀ t, t.Qm = s.Qm → t.R = s.R → t.Gives T → ¬a.Free t := fun h =>
    h { t with rbStart := rbStart - a.bwpStart } hmcs.1 hmcs.2 (ht.start _) hall
  unfold DlAttempt.finish
  split_ifs
  · refine ⟨fun t' h => ?_, ht, fun h => absurd h hno⟩
    obtain rfl := Option.some.inj h
    exact ⟨ht.start _, hall⟩
  · exact ⟨fun _ h => (nomatch h), ht, fun h => absurd h hno⟩

theorem UlAttempt.finish_keeps {a : UlAttempt} {rbStart : ℕ} (ht : t.Gives T)
    (hmcs : t.Qm = s.Qm ∧ t.R = s.R) (hend : rbStart + t.rbSize ≤ a.bwpSize)
    (hfree : ∀ j < t.rbSize, a.used t.tdaInfo (rbStart + j) = false) :
    (a.finish t rbStart).Keeps T a.Free s := by
  have hall : a.Free { t with rbStart := rbStart } := ⟨hend, hfree⟩
  have hno : ¬∀ t, t.Qm = s.Qm → t.R = s.R → t.Gives T → ¬a.Free t := fun h =>
    h { t with rbStart := rbStart } hmcs.1 hmcs.2 (ht.start _) hall
  unfold UlAttempt.finish
  split_ifs
  · refine ⟨fun t' h => ?_, ht, fun h => absurd h hno⟩
    obtain rfl := Option.some.inj h
    exact ⟨ht.start _, hall⟩
  · exact ⟨fun _ h => (nomatch h), ht, fun h => absurd h hno⟩

/-- The size that is searched for is only found with blocks that give it. -/
theorem nrFindNbRb_exact {Qm R : UInt16} {transformPrecoding : ℤ} {nrOfLayers : UInt8}
    {nbSymbSch nbDmrsPrb : UInt16} {bytes newSize : ℕ} (h : newSize ≠ 0 ∨ transformPrecoding ≠ 0 ∧
      tbsBytes Qm R nrOfLayers nbSymbSch nbDmrsPrb 0 < bytes) :
    ∃ r, Returns (nrFindNbRb Qm R transformPrecoding nrOfLayers nbSymbSch nbDmrsPrb bytes 1
        newSize) r ∧ (r.success = true →
          r.tbs = tbsBytes Qm R nrOfLayers nbSymbSch nbDmrsPrb r.nbRb ∧ 0 < r.nbRb ∧
            r.nbRb ≤ newSize) := by
  by_cases hsize : newSize = 0
  · subst hsize
    obtain ⟨htp, hbytes⟩ := h.resolve_left fun h => h rfl
    have hM : IsGreatest {m | m ∈ admissible transformPrecoding ∧ m ≤ 0} 0 :=
      ⟨⟨zero_mem_admissible_iff.2 htp, le_rfl⟩, fun m hm => hm.2⟩
    exact ⟨_, findNbRb_of_greatest hM (.pure fun _ => if_pos hbytes), fun h => (nomatch h)⟩
  · obtain ⟨r, hr, htbs, hpos, hle⟩ := findNbRb_ends (Nat.one_pos) (Nat.one_le_iff_ne_zero.2 hsize)
    exact ⟨r, hr, fun _ => ⟨htbs, hpos, hle⟩⟩

/-- The blocks from `newStart` on are free. -/
theorem DlAttempt.newSize_free (a : DlAttempt) : a.bwpStart ≤ a.newStart ∧
    (0 < a.newSize → a.newStart + a.newSize ≤ a.bwpStart + a.bwpSize) ∧
      ∀ j < a.newSize, a.used a.tdaInfo (a.newStart + j) = false := by
  have hcount : a.newSize ≤ a.bwpStart + a.bwpSize - a.newStart := countFree_le
  exact ⟨skipUsed_mem.1, fun hpos => by omega, fun j hj => countFree_free hj⟩

theorem UlAttempt.newSize_free (a : UlAttempt) :
    (0 < a.newSize → a.firstFree a.tdaInfo + a.newSize ≤ a.bwpSize) ∧
      ∀ j < a.newSize, a.used a.tdaInfo (a.firstFree a.tdaInfo + j) = false := by
  have hcount : a.newSize ≤ a.bwpSize - a.firstFree a.tdaInfo := countFree_le
  exact ⟨fun hpos => by omega, fun j hj => countFree_free hj⟩

theorem allocateDlRetransmission_keeps {a : DlAttempt} (hs : s.Gives T) (hfit : a.Fits s) :
    ∃ r, Returns (allocateDlRetransmission a s) r ∧ r.Keeps T a.Free s := by
  have hnone : (RetxResult.mk none s a.rballocMask).Keeps T a.Free s := RetxResult.keeps_none hs
  by_cases hvalid : a.tdaInfo.validTda = false
  · exact ⟨_, .pure fun n => if_pos hvalid, hnone⟩
  unfold allocateDlRetransmission
  simp only [if_neg hvalid]
  by_cases hreuse : a.reuses s
  · -- the old allocation, on other blocks
    simp only [if_pos hreuse, if_neg hs.rbSize_pos.ne']
    obtain ⟨o, ho, hfree⟩ := @reuseStart_returns (a.used s.tdaInfo) a.bwpStart s.rbSize
      (a.bwpStart + a.bwpSize) hs.rbSize_pos
    refine ⟨_, ho.map (a.reuse s), ?_⟩
    cases o with
    | none => exact hnone
    | some rbStart =>
      obtain ⟨hle, hend, hblocks⟩ := hfree rbStart rfl
      exact DlAttempt.finish_keeps hs ⟨rfl, rfl⟩ hle hend hblocks
  · -- a new allocation of the same size
    simp only [if_neg hreuse]
    have hfits := hfit (Bool.eq_true_of_not_eq_false hvalid) hreuse
    obtain ⟨r, hr, hexact⟩ := nrFindNbRb_exact (hfits.imp_right fun h => ⟨one_ne_zero, h⟩)
    refine ⟨_, hr.map (a.renew s), ?_⟩
    rw [DlAttempt.renew]
    by_cases hfound : r.success = false ∨ r.tbs ≠ s.tbSize
    · rw [if_pos hfound]
      exact hnone
    · rw [if_neg hfound]
      obtain ⟨hsuccess, htbs⟩ := not_or.1 hfound
      obtain ⟨hbytes, hpos, hle⟩ := hexact (Bool.eq_true_of_not_eq_false hsuccess)
      obtain ⟨hstart, hend, hblocks⟩ := a.newSize_free
      have htbs' : r.tbs = T := (not_not.1 htbs).trans hs.tbSize_eq
      exact DlAttempt.finish_keeps ⟨htbs', hbytes.symm.trans htbs', hpos⟩ ⟨rfl, rfl⟩ hstart
        ((Nat.add_le_add_left hle _).trans (hend (hpos.trans_le hle)))
        fun j hj => hblocks j (hj.trans_le hle)

theorem allocateUlRetransmission_keeps {a : UlAttempt} (hs : s.Gives T) (hfit : a.Fits s) :
    ∃ r, Returns (allocateUlRetransmission a s) r ∧ r.Keeps T a.Free s := by
  have hnone : (RetxResult.mk none s a.rballocMask).Keeps T a.Free s := RetxResult.keeps_none hs
  by_cases hvalid : a.tdaInfo.validTda = false
  · exact ⟨_, .pure fun n => if_pos hvalid, hnone⟩
  obtain ⟨hold, hnew⟩ := hfit (Bool.eq_true_of_not_eq_false hvalid)
  unfold allocateUlRetransmission
  simp only [if_neg hvalid]
  by_cases hreuse : a.reuses s
  · simp only [if_pos hreuse]
    by_cases hend : a.bwpSize < a.firstFree s.tdaInfo + s.rbSize
    · exact ⟨_, .pure fun n => if_pos hend, hnone⟩
    refine ⟨_, .pure fun n => if_neg hend, ?_⟩
    cases hcce : a.cce with
    | false =>
      rw [UlAttempt.finish, if_neg (by simp [hcce])]
      exact hnone
    | true =>
      exact UlAttempt.finish_keeps hs ⟨rfl, rfl⟩ (Nat.le_of_not_lt hend)
        (hold hreuse hcce (Nat.le_of_not_lt hend))
  · simp only [if_neg hreuse]
    obtain ⟨r, hr, hexact⟩ := nrFindNbRb_exact (hnew hreuse)
    refine ⟨_, hr.map (a.renew s), ?_⟩
    rw [UlAttempt.renew]
    by_cases hfound : r.success = false ∨ r.tbs ≠ s.tbSize
    · rw [if_pos hfound]
      exact hnone
    · rw [if_neg hfound]
      obtain ⟨hsuccess, htbs⟩ := not_or.1 hfound
      obtain ⟨hbytes, hpos, hle⟩ := hexact (Bool.eq_true_of_not_eq_false hsuccess)
      obtain ⟨hend, hblocks⟩ := a.newSize_free
      have htbs' : r.tbs = T := (not_not.1 htbs).trans hs.tbSize_eq
      exact UlAttempt.finish_keeps ⟨htbs', hbytes.symm.trans htbs', hpos⟩ ⟨rfl, rfl⟩
        ((Nat.add_le_add_left hle _).trans (hend (hpos.trans_le hle)))
        fun j hj => hblocks j (hj.trans_le hle)

end Keeps

/-! ## Runs -/

/-- What is stored of a process : the allocation of its block in the downlink or uplink, and only
the size for Msg4 or MsgB. -/
inductive HarqTb
  | dl (retInfo : SchedSch)
  | ul (retInfo : SchedSch)
  | msg4 (tbSize : ℕ)

/-- A first transmission of size `T`, and attempts of retransmissions that meet their conditions. -/
inductive HarqRun (T : ℕ) : HarqTb → Prop
  | dl {s : SchedSch} (hs : s.Gives T) : HarqRun T (.dl s)
  | ul {s : SchedSch} (hs : s.Gives T) : HarqRun T (.ul s)
  | msg4 : HarqRun T (.msg4 T)
  | dlRetx {s : SchedSch} {a : DlAttempt} {r : RetxResult} (h : HarqRun T (.dl s)) (hfit : a.Fits s)
      (hr : Returns (allocateDlRetransmission a s) r) : HarqRun T (.dl r.retInfo)
  | ulRetx {s : SchedSch} {a : UlAttempt} {r : RetxResult} (h : HarqRun T (.ul s)) (hfit : a.Fits s)
      (hr : Returns (allocateUlRetransmission a s) r) : HarqRun T (.ul r.retInfo)
  | msg4Retx {tbSize : ℕ} {a : Msg4Attempt} {r : Msg4Result} (h : HarqRun T (.msg4 tbSize))
      (hfit : a.Fits tbSize) (hr : Returns (nrGenerateMsg4 a tbSize) r) : HarqRun T (.msg4 r.tbSize)

/-- What is stored gives a block of size `T`. -/
def HarqTb.Gives (T : ℕ) : HarqTb → Prop
  | .dl s => s.Gives T
  | .ul s => s.Gives T
  | .msg4 tbSize => tbSize = T

/-- Every attempt that meets its condition keeps the size. -/
def HarqTb.Keeps (T : ℕ) : HarqTb → Prop
  | .dl s => ∀ a : DlAttempt, a.Fits s →
      ∃ r, Returns (allocateDlRetransmission a s) r ∧ r.Keeps T a.Free s
  | .ul s => ∀ a : UlAttempt, a.Fits s →
      ∃ r, Returns (allocateUlRetransmission a s) r ∧ r.Keeps T a.Free s
  | .msg4 tbSize => ∀ a : Msg4Attempt, a.Fits tbSize →
      ∃ r, Returns (nrGenerateMsg4 a tbSize) r ∧ Msg4Keeps a T r

theorem HarqTb.Gives.keeps {T : ℕ} {p : HarqTb} (h : p.Gives T) : p.Keeps T := by
  cases p with
  | dl s => exact fun a hfit => allocateDlRetransmission_keeps h hfit
  | ul s => exact fun a hfit => allocateUlRetransmission_keeps h hfit
  | msg4 tbSize =>
    obtain rfl : tbSize = T := h
    exact fun a hfit => nrGenerateMsg4_keeps hfit

theorem HarqRun.gives {T : ℕ} {p : HarqTb} (h : HarqRun T p) : p.Gives T := by
  induction h with
  | dl hs => exact hs
  | ul hs => exact hs
  | msg4 => exact rfl
  | dlRetx _ hfit hr ih =>
    obtain ⟨r, hr', hkeeps⟩ := ih.keeps _ hfit
    exact hr'.unique hr ▸ hkeeps.retInfo
  | ulRetx _ hfit hr ih =>
    obtain ⟨r, hr', hkeeps⟩ := ih.keeps _ hfit
    exact hr'.unique hr ▸ hkeeps.retInfo
  | msg4Retx _ hfit hr ih =>
    obtain ⟨r, hr', hkeeps⟩ := ih.keeps _ hfit
    exact hr'.unique hr ▸ hkeeps.tbSize

/-- An attempt of Msg4 for which nothing is in the way. -/
def Msg4Attempt.unhindered (nrOfSymbols : ℕ) : Msg4Attempt :=
  ⟨true, true, true, ⟨1, nrOfSymbols, true⟩, ⟨12, 1⟩, 0, 0, 48, fun _ => 0, true⟩

/-- 106 bytes are 25 blocks of 13 symbols. With 6 symbols, the first allocation that is large enough
has 111 bytes. -/
theorem msg4_unhindered_six : Returns (nrGenerateMsg4 (Msg4Attempt.unhindered 6) 106)
    ⟨some ⟨48, 0, 1, 111⟩, 111⟩ := by
  have hbytes : (Msg4Attempt.unhindered 6).bytes 48 1 = 111 := by decide +kernel
  have hsplit : msg4Allocations 48 0 0 = ((List.range' 1 48).map fun rb => (rb, 0)) ++
      (48, 1) :: (List.range' 2 28).map fun mcs => (48, mcs) := by decide +kernel
  have hless : ∀ d ∈ (List.range' 1 48).map fun rb => (rb, 0),
      (Msg4Attempt.unhindered 6).bytes d.1 d.2 < 106 % 2 ^ 16 := by decide +kernel
  have henough : 106 % 2 ^ 16 ≤ (Msg4Attempt.unhindered 6).bytes 48 1 := by decide +kernel
  have hsearch := @msg4Search_returns (Msg4Attempt.unhindered 6).bytes 48 (106 % 2 ^ 16) 0 0
    (Nat.zero_le _) (Nat.zero_le _) _ _ (48, 1) hsplit hless henough
  have hfree : ∀ j < 48, (Msg4Attempt.unhindered 6).used (0 + j) = false := fun j _ => by
    simp [Msg4Attempt.used, Msg4Attempt.unhindered]
  refine msg4_of_search rfl hsearch henough (msg4Start_free le_rfl hfree) ?_
  rw [if_neg (by decide)]
  exact (if_pos rfl).trans (by rw [hbytes])

end NrStack
