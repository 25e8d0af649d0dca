import NrStack.Library.Run
import NrStack.Rlc.AmEntity
import NrStack.Rlc.Um

/-!
# Reconfiguration of an RLC entity

`nr_rlc_reconfigure_entity` with the tables of `asn1_utils.c` that it decodes an
`NR_RLC_Config_t` with. A constructor derives the modulus of the SNs and the window from the
SN length, a reconfiguration writes the SN length alone. So the SN space is that of the SN
length as long as no reconfiguration changes the SN length (`rlcSnCoherent_iff`).
-/

namespace NrStack

/-! ## The configuration -/

/-- An ENUMERATED is an index of the table of its values; `none` is `exit`. -/
def decodeEnumerated {α : Type*} (tab : List α) (v : Int) : Option α :=
  if v < 0 then none else tab[v.toNat]?

/-- `decode_t_reassembly`. -/
def decodeTReassembly : Int → Option Int :=
  decodeEnumerated [0, 5, 10, 15, 20, 25, 30, 35, 40, 45, 50, 55, 60, 65, 70, 75, 80, 85, 90, 95,
    100, 110, 120, 130, 140, 150, 160, 170, 180, 190, 200]

/-- `decode_t_status_prohibit`. -/
def decodeTStatusProhibit : Int → Option Int :=
  decodeEnumerated [0, 5, 10, 15, 20, 25, 30, 35, 40, 45, 50, 55, 60, 65, 70, 75, 80, 85, 90, 95,
    100, 105, 110, 115, 120, 125, 130, 135, 140, 145, 150, 155, 160, 165, 170, 175, 180, 185, 190,
    195, 200, 205, 210, 215, 220, 225, 230, 235, 240, 245, 250, 300, 350, 400, 450, 500, 800, 1000,
    1200, 1600, 2000, 2400]

/-- `decode_t_poll_retransmit`. -/
def decodeTPollRetransmit : Int → Option Int :=
  decodeEnumerated [5, 10, 15, 20, 25, 30, 35, 40, 45, 50, 55, 60, 65, 70, 75, 80, 85, 90, 95, 100,
    105, 110, 115, 120, 125, 130, 135, 140, 145, 150, 155, 160, 165, 170, 175, 180, 185, 190, 195,
    200, 205, 210, 215, 220, 225, 230, 235, 240, 245, 250, 300, 350, 400, 450, 500, 800, 1000, 2000,
    4000]

/-- `decode_poll_pdu`. -/
def decodePollPdu : Int → Option Int :=
  decodeEnumerated [4, 8, 16, 32, 64, 128, 256, 512, 1024, 2048, 4096, 6144, 8192, 12288, 16384,
    20480, 24576, 28672, 32768, 40960, 49152, 57344, 65536, -1]

/-- `decode_poll_byte`. -/
def decodePollByte : Int → Option Int :=
  decodeEnumerated [1024 * 1, 1024 * 2, 1024 * 5, 1024 * 8, 1024 * 10, 1024 * 15, 1024 * 25,
    1024 * 50, 1024 * 75, 1024 * 100, 1024 * 125, 1024 * 250, 1024 * 375, 1024 * 500, 1024 * 750,
    1024 * 1000, 1024 * 1250, 1024 * 1500, 1024 * 2000, 1024 * 3000, 1024 * 4000, 1024 * 4500,
    1024 * 5000, 1024 * 5500, 1024 * 6000, 1024 * 6500, 1024 * 7000, 1024 * 7500,
    1024 * 1024 * 8, 1024 * 1024 * 9, 1024 * 1024 * 10, 1024 * 1024 * 11, 1024 * 1024 * 12,
    1024 * 1024 * 13, 1024 * 1024 * 14, 1024 * 1024 * 15, 1024 * 1024 * 16, 1024 * 1024 * 17,
    1024 * 1024 * 18, 1024 * 1024 * 20, 1024 * 1024 * 25, 1024 * 1024 * 30, 1024 * 1024 * 40, -1]

/-- `decode_max_retx_threshold`. -/
def decodeMaxRetxThreshold : Int → Option Int :=
  decodeEnumerated [1, 2, 3, 4, 6, 8, 16, 32]

/-- `decode_sn_field_length_um`. -/
def decodeSnFieldLengthUm : Int → Option Nat :=
  decodeEnumerated [6, 12]

/-- `decode_sn_field_length_am`. -/
def decodeSnFieldLengthAm : Int → Option Nat :=
  decodeEnumerated [12, 18]

/-- `NR_DL_AM_RLC_t`. -/
structure NrDlAmRlc where
  snFieldLength : Option Int
  tReassembly : Int
  tStatusProhibit : Int
deriving DecidableEq, Repr

/-- `NR_UL_AM_RLC_t`. -/
structure NrUlAmRlc where
  snFieldLength : Option Int
  tPollRetransmit : Int
  pollPdu : Int
  pollByte : Int
  maxRetxThreshold : Int
deriving DecidableEq, Repr

/-- `NR_DL_UM_RLC_t`. -/
structure NrDlUmRlc where
  snFieldLength : Option Int
  tReassembly : Int
deriving DecidableEq, Repr

/-- `NR_UL_UM_RLC_t`. -/
structure NrUlUmRlc where
  snFieldLength : Option Int
deriving DecidableEq, Repr

/-- `NR_RLC_Config_t`. -/
inductive NrRlcConfig
  | am (dl : NrDlAmRlc) (ul : NrUlAmRlc)
  | umBiDirectional (dl : NrDlUmRlc) (ul : NrUlUmRlc)
  | umUniDirectionalUl (ul : NrUlUmRlc)
  | umUniDirectionalDl (dl : NrDlUmRlc)
deriving DecidableEq, Repr

/-! ## The entities -/

/-- `nr_rlc_entity_t`, of one of the modes. Of a TM entity there is only the buffer size. -/
inductive NrRlcEntity
  | am (e : NrRlcEntityAm)
  | um (e : NrRlcEntityUm)
  | tm (txMaxsize : Int)

/-- The arguments of a constructor. -/
inductive RlcEntityConfig
  | am (c : AmConfig)
  | um (c : UmConfig)
  | tm (txMaxsize : Int)

/-- `new_nr_rlc_entity_am`, `new_nr_rlc_entity_um` or `new_nr_rlc_entity_tm`. -/
def newNrRlcEntity : RlcEntityConfig → NrRlcEntity
  | .am c => .am (newNrRlcEntityAm c)
  | .um c => .um (newNrRlcEntityUm c)
  | .tm txMaxsize => .tm txMaxsize

/-- `nr_rlc_entity_am_reconfigure`. -/
def NrRlcEntityAm.reconfigure (e : NrRlcEntityAm) (tPollRetransmit tReassembly tStatusProhibit
    pollPdu pollByte maxRetxThreshold : Int) (snFieldLength : Option Nat) : NrRlcEntityAm :=
  { e with
    tPollRetransmit := tPollRetransmit
    tReassembly := tReassembly
    tStatusProhibit := tStatusProhibit
    pollPdu := pollPdu
    pollByte := pollByte
    maxRetxThreshold := maxRetxThreshold
    snFieldLength := snFieldLength.getD e.snFieldLength }

/-- `nr_rlc_entity_um_reconfigure`. -/
def NrRlcEntityUm.reconfigure (e : NrRlcEntityUm) (tReassembly : Int)
    (snFieldLength : Option Nat) : NrRlcEntityUm :=
  { e with
    tReassembly := tReassembly
    snFieldLength := snFieldLength.getD e.snFieldLength }

/-- The SN length for both directions, if they give one; `none` is a failed assertion. -/
def decodeSnFieldLengths (decode : Int → Option Nat) : Option Int → Option Int →
    Option (Option Nat)
  | some dl, some ul => if dl = ul then (decode dl).map some else none
  | none, none => some none
  | _, _ => none

theorem decodeSnFieldLengths_eq {decode : Int → Option Nat} {dl ul : Option Int}
    {n : Option Nat} (h : decodeSnFieldLengths decode dl ul = some n) : n = dl.bind decode := by
  unfold decodeSnFieldLengths at h
  split at h
  · split_ifs at h
    obtain ⟨m, hm, rfl⟩ := Option.map_eq_some_iff.1 h
    exact hm.symm
  · cases h
    rfl
  · cases h

/-- `nr_rlc_reconfigure_entity` of an entity that exists, without configuration by the
default one of an SRB; `none` is a failed assertion or `exit`. -/
def nrRlcReconfigureEntity : NrRlcEntity → Option NrRlcConfig → Option NrRlcEntity
  | .am e, some (.am dl ul) => do
    let tReassembly ← decodeTReassembly dl.tReassembly
    let tStatusProhibit ← decodeTStatusProhibit dl.tStatusProhibit
    let tPollRetransmit ← decodeTPollRetransmit ul.tPollRetransmit
    let pollPdu ← decodePollPdu ul.pollPdu
    let pollByte ← decodePollByte ul.pollByte
    let maxRetxThreshold ← decodeMaxRetxThreshold ul.maxRetxThreshold
    let snFieldLength ← decodeSnFieldLengths decodeSnFieldLengthAm dl.snFieldLength
      ul.snFieldLength
    some (.am (e.reconfigure tPollRetransmit tReassembly tStatusProhibit pollPdu pollByte
      maxRetxThreshold snFieldLength))
  | .um e, some (.umBiDirectional dl ul) => do
    let tReassembly ← decodeTReassembly dl.tReassembly
    let snFieldLength ← decodeSnFieldLengths decodeSnFieldLengthUm dl.snFieldLength
      ul.snFieldLength
    some (.um (e.reconfigure tReassembly snFieldLength))
  | .am e, none => some (.am (e.reconfigure 45 35 0 (-1) (-1) 8 (some 12)))
  | _, _ => none

/-! ## The SN space -/

/-- The modulus and the window of SNs of `n` bits. -/
def IsSnSpace (n : Nat) (snModulus windowSize : Int) : Prop :=
  snModulus = 2 ^ n ∧ windowSize = snModulus / 2

/-- The SN space has one SN length. -/
theorem IsSnSpace.iff_eq {n n' : Nat} {m w : Int} (h : IsSnSpace n m w) :
    IsSnSpace n' m w ↔ n' = n := by
  refine ⟨fun h' => ?_, fun heq => heq ▸ h⟩
  have hpow : (2 : Int) ^ n' = 2 ^ n := h'.1.symm.trans h.1
  exact Nat.pow_right_injective (le_refl 2) (by exact_mod_cast hpow)

/-- A given SN length is coherent with the SN space of the old one exactly if it is the
old one. -/
theorem IsSnSpace.getD_iff {n : Nat} {m w : Int} (h : IsSnSpace n m w) (given : Option Nat) :
    IsSnSpace (given.getD n) m w ↔ ∀ k, given = some k → some n = some k := by
  rw [h.iff_eq]
  cases given with
  | none => exact iff_of_true rfl fun _ hk => by cases hk
  | some k =>
    refine ⟨fun hk k' hk' => ?_, fun hk => (Option.some.inj (hk k rfl)).symm⟩
    obtain rfl : k = k' := Option.some.inj hk'
    exact congrArg some hk.symm

namespace NrRlcEntity

/-- SN arithmetic uses the SN length of the headers. -/
def SnCoherent : NrRlcEntity → Prop
  | .am e => IsSnSpace e.snFieldLength e.snModulus e.windowSize
  | .um e => IsSnSpace e.snFieldLength e.snModulus e.windowSize
  | .tm _ => True

/-- The SN length that a reconfiguration gives. -/
def givenSnLength : NrRlcEntity → Option NrRlcConfig → Option Nat
  | .am _, none => some 12
  | .am _, some (.am dl _) => dl.snFieldLength.bind decodeSnFieldLengthAm
  | .um _, some (.umBiDirectional dl _) => dl.snFieldLength.bind decodeSnFieldLengthUm
  | _, _ => none

/-- The SN length it has. -/
def snLength : NrRlcEntity → Option Nat
  | .am e => some e.snFieldLength
  | .um e => some e.snFieldLength
  | .tm _ => none

/-- A reconfiguration that gives an SN length gives the current one. -/
def KeepsSnLength (e : NrRlcEntity) (c : Option NrRlcConfig) : Prop :=
  ∀ n, e.givenSnLength c = some n → e.snLength = some n

variable {e e' : NrRlcEntity} {c : Option NrRlcConfig}

theorem snCoherent_new (c : RlcEntityConfig) : (newNrRlcEntity c).SnCoherent := by
  cases c with
  | am c => exact ⟨rfl, rfl⟩
  | um c => exact ⟨rfl, rfl⟩
  | tm txMaxsize => trivial

/-- What a reconfiguration does to the SN space. -/
theorem snCoherent_reconfigure_iff (h : e.SnCoherent)
    (hs : nrRlcReconfigureEntity e c = some e') : e'.SnCoherent ↔ e.KeepsSnLength c := by
  unfold nrRlcReconfigureEntity at hs
  split at hs
  · rename_i e dl ul
    simp only [Option.bind_eq_bind, Option.bind_eq_some_iff] at hs
    obtain ⟨_, -, _, -, _, -, _, -, _, -, _, -, n, hn, hs⟩ := hs
    cases hs
    obtain rfl := decodeSnFieldLengths_eq hn
    exact IsSnSpace.getD_iff h _
  · rename_i e dl ul
    simp only [Option.bind_eq_bind, Option.bind_eq_some_iff] at hs
    obtain ⟨_, -, n, hn, hs⟩ := hs
    cases hs
    obtain rfl := decodeSnFieldLengths_eq hn
    exact IsSnSpace.getD_iff h _
  · cases hs
    exact IsSnSpace.getD_iff h (some 12)
  · cases hs

/-- In a sequence of reconfigurations the SN space is that of the SN length throughout exactly
when none of them changes the SN length. -/
theorem rlcSnCoherent_iff (c : RlcEntityConfig) (l : List (Option NrRlcConfig)) :
    AllStates nrRlcReconfigureEntity SnCoherent (newNrRlcEntity c) l ↔
      AllSteps nrRlcReconfigureEntity KeepsSnLength (newNrRlcEntity c) l :=
  allStates_iff_allSteps (fun _ h => h)
    (fun _ _ _ h hs hok => (snCoherent_reconfigure_iff h hs).2 hok)
    (fun _ _ _ h hs hok h' => hok ((snCoherent_reconfigure_iff h hs).1 h')) l _ (snCoherent_new c)

end NrRlcEntity

end NrStack
