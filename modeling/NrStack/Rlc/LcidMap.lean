import NrStack.Rlc.Reconfigure

/-!
# Logical channels and radio bearers

The RLC entities of a UE (`nr_rlc_ue_t`), one for each radio bearer, and the table from
LCIDs to radio bearers. A bearer is added on an LCID and released by it : the release
deletes the entity and leaves the table as it is.

`boundLcid` is history, never read by the code : the LCID each bearer was added on last, as
long as neither was released or bound anew.
-/

namespace NrStack

/-- `MAX_DRBS_PER_UE`. -/
def rlcMaxDrbsPerUe : Nat :=
  32

/-- `RLC_RX_MAXSIZE` and `RLC_TX_MAXSIZE`. -/
def rlcMaxsize : Int :=
  10000000

/-- The size of `lcid2rb`. -/
def maxLcid : Nat :=
  32

/-- `nr_rlc_rb_t`. -/
inductive NrRlcRb
  | srb (srbId : Nat)
  | drb (drbId : Nat)
deriving DecidableEq, Repr

/-- `nr_rlc_ue_t`. The arrays are indexed by ID; `none` in the table is `NR_RLC_NONE`. -/
structure NrRlcUe where
  srb0 : Option NrRlcEntity
  srb : Nat → Option NrRlcEntity
  drb : Nat → Option NrRlcEntity
  lcid2rb : Nat → Option NrRlcRb
  boundLcid : NrRlcRb → Option Nat

/-- `NR_RLC_BearerConfig_t`. -/
structure NrRlcBearerConfig where
  logicalChannelIdentity : Nat
  logicalChannelIdentity_valid : 0 < logicalChannelIdentity ∧ logicalChannelIdentity ≤ maxLcid
  servedRadioBearer : Option NrRlcRb
  rlcConfig : Option NrRlcConfig
deriving DecidableEq, Repr

/-! ## Entities from configurations -/

/-- The AM entity of a configuration; `none` is `exit`, or the missing SN length of a
direction. -/
def newAmOfConfig (dl : NrDlAmRlc) (ul : NrUlAmRlc) : Option NrRlcEntity := do
  let tReassembly ← decodeTReassembly dl.tReassembly
  let tStatusProhibit ← decodeTStatusProhibit dl.tStatusProhibit
  let tPollRetransmit ← decodeTPollRetransmit ul.tPollRetransmit
  let pollPdu ← decodePollPdu ul.pollPdu
  let pollByte ← decodePollByte ul.pollByte
  let maxRetxThreshold ← decodeMaxRetxThreshold ul.maxRetxThreshold
  let dlLength ← dl.snFieldLength
  let ulLength ← ul.snFieldLength
  if dlLength = ulLength then
    let snFieldLength ← decodeSnFieldLengthAm dlLength
    if h : snFieldLength = 12 ∨ snFieldLength = 18 then
      some (newNrRlcEntity (.am ⟨rlcMaxsize, rlcMaxsize, tPollRetransmit, tReassembly,
        tStatusProhibit, pollPdu, pollByte, maxRetxThreshold, snFieldLength, h⟩))
    else none
  else none

/-- The UM entity of a configuration; `none` as for `newAmOfConfig`. -/
def newUmOfConfig (dl : NrDlUmRlc) (ul : NrUlUmRlc) : Option NrRlcEntity := do
  let tReassembly ← decodeTReassembly dl.tReassembly
  let dlLength ← dl.snFieldLength
  let ulLength ← ul.snFieldLength
  if dlLength = ulLength then
    let snFieldLength ← decodeSnFieldLengthUm dlLength
    if h : snFieldLength = 6 ∨ snFieldLength = 12 then
      some (newNrRlcEntity (.um ⟨rlcMaxsize, rlcMaxsize, tReassembly, snFieldLength, h⟩))
    else none
  else none

theorem snFieldLength_srb : 12 = 12 ∨ 12 = 18 := .inl rfl

/-- The entity of an SRB, by default with the values of 9.2.1 of 38.331. -/
def newSrbOfConfig : Option NrRlcConfig → Option NrRlcEntity
  | some (.am dl ul) => newAmOfConfig dl ul
  | _ => some (newNrRlcEntity
      (.am ⟨rlcMaxsize, rlcMaxsize, 45, 35, 0, -1, -1, 8, 12, snFieldLength_srb⟩))

namespace NrRlcUe

variable (ue : NrRlcUe)

/-- The entity of a bearer. -/
def entity : NrRlcRb → Option NrRlcEntity
  | .srb srbId => ue.srb srbId
  | .drb drbId => ue.drb drbId

/-- Write the entity of a bearer. -/
def setEntity (rb : NrRlcRb) (e : Option NrRlcEntity) : NrRlcUe :=
  match rb with
  | .srb srbId => { ue with srb := Function.update ue.srb srbId e }
  | .drb drbId => { ue with drb := Function.update ue.drb drbId e }

/-! ## The functions -/

/-- `get_rlc_entity_from_lcid`. -/
def getRlcEntityFromLcid (channelId : Nat) : Option NrRlcEntity :=
  if channelId = 0 then ue.srb0
  else
    match ue.lcid2rb channelId with
    | none => none
    | some rb => ue.entity rb

/-- `nr_rlc_get_lcid_from_rb`; `0` if there is none. -/
def nrRlcGetLcidFromRb (rb : NrRlcRb) : Nat :=
  ((List.range' 1 maxLcid).find? fun id => ue.lcid2rb id = some rb).getD 0

/-- What is bound once the LCID is not. -/
def unbind (lcid : Nat) : NrRlcRb → Option Nat := fun rb =>
  if ue.boundLcid rb = some lcid then none else ue.boundLcid rb

/-- The bearer `rb` is added on an LCID as the bearer it serves, with the entity `e` unless
it has one. -/
def addRb (lcid : Nat) (served rb : NrRlcRb) (e : NrRlcEntity) : NrRlcUe :=
  let ue := { ue with
    lcid2rb := Function.update ue.lcid2rb lcid (some served)
    boundLcid := Function.update (ue.unbind lcid) served (some lcid) }
  if (ue.entity rb).isSome then ue else ue.setEntity rb (some e)

/-- `nr_rlc_add_srb`; `none` is a failed assertion or `exit`. -/
def nrRlcAddSrb (srbId : Nat) (c : NrRlcBearerConfig) : Option NrRlcUe :=
  if 0 < srbId ∧ srbId < 4 then do
    let e ← newSrbOfConfig c.rlcConfig
    match c.servedRadioBearer with
    | some (.srb served) => some (ue.addRb c.logicalChannelIdentity (.srb served) (.srb srbId) e)
    | _ => none
  else none

/-- `add_drb_am` and `add_drb_um`, with the entity of the configuration. -/
def addDrb (drbId : Nat) (c : NrRlcBearerConfig) (e : Option NrRlcEntity) : Option NrRlcUe :=
  if 0 < drbId ∧ drbId ≤ rlcMaxDrbsPerUe then do
    let e ← e
    match c.servedRadioBearer with
    | some (.drb served) => some (ue.addRb c.logicalChannelIdentity (.drb served) (.drb drbId) e)
    | _ => none
  else none

/-- `nr_rlc_add_drb`; `none` is a failed assertion or `exit`. -/
def nrRlcAddDrb (drbId : Nat) (c : NrRlcBearerConfig) : Option NrRlcUe :=
  match c.rlcConfig with
  | some (.am dl ul) => ue.addDrb drbId c (newAmOfConfig dl ul)
  | some (.umBiDirectional dl ul) => ue.addDrb drbId c (newUmOfConfig dl ul)
  | _ => none

/-- `release_rlc_entity_from_lcid`. -/
def releaseRlcEntityFromLcid (channelId : Nat) : NrRlcUe :=
  match ue.lcid2rb channelId with
  | none => ue
  | some rb => { ue.setEntity rb none with boundLcid := ue.unbind channelId }

/-- `nr_rlc_release_entity`; `none` is an access outside the table. -/
def nrRlcReleaseEntity (channelId : Nat) : Option NrRlcUe :=
  if channelId = 0 then some { ue with srb0 := none }
  else if channelId ≤ maxLcid then some (ue.releaseRlcEntityFromLcid channelId)
  else none

/-- `nr_rlc_activate_srb0`. -/
def nrRlcActivateSrb0 : NrRlcUe :=
  if ue.srb0.isSome then ue else { ue with srb0 := some (newNrRlcEntity (.tm 10000)) }

end NrRlcUe

/-- What is done to the bearers of a UE. A bearer is added with its own ID. -/
inductive NrRlcUeOp
  | addBearer (c : NrRlcBearerConfig)
  | releaseEntity (channelId : Nat)
  | activateSrb0

/-- One operation, as `nr_rrc_manage_rlc_bearers` calls it. -/
def nrRlcUeStep (ue : NrRlcUe) : NrRlcUeOp → Option NrRlcUe
  | .addBearer c =>
    match c.servedRadioBearer with
    | some (.srb srbId) => ue.nrRlcAddSrb srbId c
    | some (.drb drbId) => ue.nrRlcAddDrb drbId c
    | none => none
  | .releaseEntity channelId => ue.nrRlcReleaseEntity channelId
  | .activateSrb0 => some ue.nrRlcActivateSrb0

/-- A UE without bearers. -/
def newNrRlcUe : NrRlcUe where
  srb0 := none
  srb _ := none
  drb _ := none
  lcid2rb _ := none
  boundLcid _ := none

/-! ## The map -/

namespace NrRlcUe

/-- The table is an injective map onto the bearers that have an entity, and the functions
follow what is bound. -/
structure LcidMapSpec (ue : NrRlcUe) : Prop where
  entity_iff : ∀ lcid, 0 < lcid → lcid ≤ maxLcid →
    ((ue.getRlcEntityFromLcid lcid).isSome ↔ ∃ rb, ue.boundLcid rb = some lcid)
  lcid_eq : ∀ rb lcid, ue.boundLcid rb = some lcid → ue.nrRlcGetLcidFromRb rb = lcid
  injective : ∀ lcid lcid' rb, ue.lcid2rb lcid = some rb → ue.lcid2rb lcid' = some rb →
    lcid = lcid'
  onto : ∀ rb, (ue.entity rb).isSome → ∃ lcid, ue.lcid2rb lcid = some rb

/-- Of the table entries those whose bearer has an entity are bound. -/
structure LcidMapInv (ue : NrRlcUe) : Prop where
  range : ∀ lcid rb, ue.lcid2rb lcid = some rb → 0 < lcid ∧ lcid ≤ maxLcid
  injective : ∀ lcid lcid' rb, ue.lcid2rb lcid = some rb → ue.lcid2rb lcid' = some rb →
    lcid = lcid'
  bound_iff : ∀ rb lcid, ue.boundLcid rb = some lcid ↔
    ue.lcid2rb lcid = some rb ∧ (ue.entity rb).isSome
  onto : ∀ rb, (ue.entity rb).isSome → ∃ lcid, ue.lcid2rb lcid = some rb

/-- A bearer is added on an LCID only if the table does not have it under another one, from
before a release or not, and has not an existing other bearer under this one. -/
def BindsAnew (ue : NrRlcUe) : NrRlcUeOp → Prop
  | .addBearer c => ∀ rb, c.servedRadioBearer = some rb →
    (∀ lcid, ue.lcid2rb lcid = some rb → lcid = c.logicalChannelIdentity) ∧
      ∀ rb', ue.lcid2rb c.logicalChannelIdentity = some rb' → rb' ≠ rb → ue.entity rb' = none
  | _ => True

variable {ue ue' : NrRlcUe} {rb rb' : NrRlcRb} {lcid : Nat} {e : NrRlcEntity}

@[simp] theorem setEntity_lcid2rb {e : Option NrRlcEntity} :
    (ue.setEntity rb e).lcid2rb = ue.lcid2rb := by
  cases rb <;> rfl

@[simp] theorem setEntity_boundLcid {e : Option NrRlcEntity} :
    (ue.setEntity rb e).boundLcid = ue.boundLcid := by
  cases rb <;> rfl

theorem setEntity_entity {e : Option NrRlcEntity} :
    (ue.setEntity rb e).entity rb' = if rb' = rb then e else ue.entity rb' := by
  cases rb <;> cases rb' <;> simp [setEntity, entity, Function.update_apply]

theorem nrRlcGetLcidFromRb_eq (h : ue.LcidMapInv) (hrb : ue.lcid2rb lcid = some rb) :
    ue.nrRlcGetLcidFromRb rb = lcid := by
  obtain ⟨hpos, hle⟩ := h.range lcid rb hrb
  unfold nrRlcGetLcidFromRb
  cases hf : (List.range' 1 maxLcid).find? fun id => ue.lcid2rb id = some rb with
  | none =>
    rw [List.find?_eq_none] at hf
    exact absurd hrb (by simpa using hf lcid (by simp; omega))
  | some id =>
    have hid : ue.lcid2rb id = some rb := by simpa using List.find?_some hf
    exact h.injective id lcid rb hid hrb

theorem LcidMapInv.toSpec (h : ue.LcidMapInv) : ue.LcidMapSpec where
  entity_iff lcid hpos _ := by
    unfold getRlcEntityFromLcid
    rw [if_neg (by omega)]
    cases hl : ue.lcid2rb lcid with
    | none => simp [h.bound_iff, hl]
    | some rb => simp [h.bound_iff, hl]
  lcid_eq rb lcid hb := nrRlcGetLcidFromRb_eq h ((h.bound_iff rb lcid).1 hb).1
  injective := h.injective
  onto := h.onto

variable (ue lcid rb e) in
/-- What adding a bearer does. -/
theorem addRb_spec : (ue.addRb lcid rb rb e).lcid2rb = Function.update ue.lcid2rb lcid (some rb) ∧
    (ue.addRb lcid rb rb e).boundLcid = Function.update (ue.unbind lcid) rb (some lcid) ∧
      ∀ rb', ((ue.addRb lcid rb rb e).entity rb').isSome ↔ rb' = rb ∨ (ue.entity rb').isSome := by
  have hentity : ∀ t b rb', ({ ue with lcid2rb := t, boundLcid := b } : NrRlcUe).entity rb' =
      ue.entity rb' := by
    intro t b rb'
    cases rb' <;> rfl
  unfold addRb
  dsimp only
  rw [hentity]
  split_ifs with hsome
  · refine ⟨rfl, rfl, fun rb' => ?_⟩
    rw [hentity]
    exact ⟨.inr, fun h => h.elim (fun heq => heq ▸ hsome) id⟩
  · refine ⟨setEntity_lcid2rb, setEntity_boundLcid, fun rb' => ?_⟩
    rw [setEntity_entity, hentity]
    split_ifs with heq <;> simp [heq]

/-- What is bound after a bearer is added. -/
theorem addRb_boundLcid_iff (h : ue.LcidMapInv)
    (hrb : ∀ lcid', ue.lcid2rb lcid' = some rb → lcid' = lcid) {lcid' : Nat} :
    Function.update (ue.unbind lcid) rb (some lcid) rb' = some lcid' ↔
      Function.update ue.lcid2rb lcid (some rb) lcid' = some rb' ∧
        (rb' = rb ∨ (ue.entity rb').isSome) := by
  by_cases heq : rb' = rb
  · subst heq
    by_cases hl : lcid' = lcid
    · subst hl
      simp
    · simp [Function.update_of_ne hl, Ne.symm hl, mt (hrb lcid') hl]
  · by_cases hl : lcid' = lcid
    · subst hl
      simp [Function.update_of_ne heq, Ne.symm heq, unbind]
    · have hunbind : ue.unbind lcid rb' = some lcid' ↔ ue.boundLcid rb' = some lcid' := by
        unfold unbind
        split_ifs with hb
        · simp [hb, Ne.symm hl]
        · rfl
      simp [Function.update_of_ne hl, heq, hunbind, h.bound_iff]

theorem addRb_inv (h : ue.LcidMapInv) (hlcid : 0 < lcid ∧ lcid ≤ maxLcid)
    (hrb : ∀ lcid', ue.lcid2rb lcid' = some rb → lcid' = lcid)
    (hl : ∀ rb', ue.lcid2rb lcid = some rb' → rb' ≠ rb → ue.entity rb' = none) :
    (ue.addRb lcid rb rb e).LcidMapInv := by
  obtain ⟨ht, hb, he⟩ := addRb_spec ue rb lcid e
  have hentry : ∀ l r, (ue.addRb lcid rb rb e).lcid2rb l = some r →
      l = lcid ∧ r = rb ∨ l ≠ lcid ∧ ue.lcid2rb l = some r := by
    intro l r hlr
    rw [ht, Function.update_apply] at hlr
    split_ifs at hlr with heq
    · exact .inl ⟨heq, (Option.some.inj hlr).symm⟩
    · exact .inr ⟨heq, hlr⟩
  constructor
  case range =>
    intro l r hlr
    obtain ⟨rfl, -⟩ | ⟨-, hlr⟩ := hentry l r hlr
    · exact hlcid
    · exact h.range l r hlr
  case injective =>
    intro l l' r hlr hlr'
    obtain ⟨hl₁, hr⟩ | ⟨hl₁, hlr⟩ := hentry l r hlr <;>
      obtain ⟨hl₂, hr'⟩ | ⟨hl₂, hlr'⟩ := hentry l' r hlr'
    · rw [hl₁, hl₂]
    · exact absurd (hrb l' (hr ▸ hlr')) hl₂
    · exact absurd (hrb l (hr' ▸ hlr)) hl₁
    · exact h.injective l l' r hlr hlr'
  case bound_iff =>
    intro r l
    rw [hb, ht, he]
    exact addRb_boundLcid_iff h hrb
  case onto =>
    intro r hr
    by_cases heq : r = rb
    · exact ⟨lcid, by rw [ht, heq, Function.update_self]⟩
    · obtain ⟨l, hlr⟩ := h.onto r (((he r).1 hr).resolve_left heq)
      have hne : l ≠ lcid := by
        rintro rfl
        rw [he, hl r hlr heq] at hr
        simp [heq] at hr
      exact ⟨l, by rw [ht, Function.update_of_ne hne, hlr]⟩

/-- A second entry for a bearer stays, and a bearer whose entry is overwritten has none. -/
theorem addRb_breaks (h : ue.LcidMapInv)
    (hno : ¬((∀ lcid', ue.lcid2rb lcid' = some rb → lcid' = lcid) ∧
      ∀ rb', ue.lcid2rb lcid = some rb' → rb' ≠ rb → ue.entity rb' = none)) :
    ¬(ue.addRb lcid rb rb e).LcidMapSpec := by
  obtain ⟨ht, -, he⟩ := addRb_spec ue rb lcid e
  intro hspec
  refine hno ⟨fun l hl => ?_, fun r hr hne => ?_⟩
  · by_contra hl'
    refine hl' (hspec.injective l lcid rb ?_ ?_)
    · rw [ht, Function.update_of_ne hl', hl]
    · rw [ht, Function.update_self]
  · by_contra hentity
    have hsome := Option.isSome_iff_ne_none.2 hentity
    obtain ⟨l, hl⟩ := hspec.onto r ((he r).2 (.inr hsome))
    rw [ht, Function.update_apply] at hl
    split_ifs at hl with heq
    · exact hne (Option.some.inj hl).symm
    · exact heq (h.injective l lcid r hl hr)

/-- A release leaves the table, and takes the entity and what is bound. -/
theorem releaseRlcEntityFromLcid_inv (h : ue.LcidMapInv) :
    (ue.releaseRlcEntityFromLcid lcid).LcidMapInv := by
  unfold releaseRlcEntityFromLcid
  split
  · exact h
  · rename_i rb hrb
    have hentity : ∀ r, NrRlcUe.entity { ue.setEntity rb none with
        boundLcid := ue.unbind lcid } r = if r = rb then none else ue.entity r := by
      intro r
      rw [← setEntity_entity]
      cases r <;> rfl
    constructor
    case range =>
      simpa using h.range
    case injective =>
      simpa using h.injective
    case bound_iff =>
      intro r l
      have hunbind : ue.unbind lcid r = some l ↔ ue.boundLcid r = some l ∧ l ≠ lcid := by
        unfold unbind
        split_ifs with hb
        · simp [hb, eq_comm]
        · exact ⟨fun hl => ⟨hl, fun heq => hb (heq ▸ hl)⟩, And.left⟩
      rw [hentity, hunbind, h.bound_iff]
      simp only [setEntity_lcid2rb]
      by_cases hr : r = rb
      · simp only [hr, if_true, Option.isSome_none, Bool.false_eq_true, and_false, iff_false]
        exact fun ⟨⟨hl, _⟩, hne⟩ => hne (h.injective l lcid rb hl hrb)
      · rw [if_neg hr]
        refine ⟨And.left, fun hl => ⟨hl, ?_⟩⟩
        rintro rfl
        exact hr (Option.some.inj (hl.1.symm.trans hrb))
    case onto =>
      intro r hr
      rw [hentity] at hr
      split_ifs at hr
      · cases hr
      · simpa using h.onto r hr

/-- A bearer that is added is the served one of its configuration. -/
theorem addBearer_eq {c : NrRlcBearerConfig} (hs : nrRlcUeStep ue (.addBearer c) = some ue') :
    ∃ rb e, c.servedRadioBearer = some rb ∧ ue' = ue.addRb c.logicalChannelIdentity rb rb e := by
  have haddDrb : ∀ drbId e, c.servedRadioBearer = some (.drb drbId) →
      ue.addDrb drbId c e = some ue' →
        ∃ e, ue' = ue.addRb c.logicalChannelIdentity (.drb drbId) (.drb drbId) e := by
    intro drbId e hc hadd
    unfold addDrb at hadd
    split_ifs at hadd
    obtain ⟨e, -, hadd⟩ := Option.bind_eq_some_iff.1 hadd
    rw [hc] at hadd
    cases hadd
    exact ⟨e, rfl⟩
  unfold nrRlcUeStep at hs
  dsimp only at hs
  split at hs
  · rename_i srbId hc
    unfold nrRlcAddSrb at hs
    split_ifs at hs
    obtain ⟨e, -, hs⟩ := Option.bind_eq_some_iff.1 hs
    rw [hc] at hs
    cases hs
    exact ⟨_, e, hc, rfl⟩
  · rename_i drbId hc
    unfold nrRlcAddDrb at hs
    split at hs
    · obtain ⟨e, he⟩ := haddDrb drbId _ hc hs
      exact ⟨_, e, hc, he⟩
    · obtain ⟨e, he⟩ := haddDrb drbId _ hc hs
      exact ⟨_, e, hc, he⟩
    · cases hs
  · cases hs

theorem srb0_inv (h : ue.LcidMapInv) (e : Option NrRlcEntity) :
    ({ ue with srb0 := e } : NrRlcUe).LcidMapInv := by
  have hentity : ∀ rb, ({ ue with srb0 := e } : NrRlcUe).entity rb = ue.entity rb := by
    intro rb
    cases rb <;> rfl
  refine ⟨h.range, h.injective, fun rb lcid => ?_, fun rb hrb => ?_⟩
  · rw [hentity]
    exact h.bound_iff rb lcid
  · rw [hentity] at hrb
    exact h.onto rb hrb

theorem nrRlcUeStep_inv {op : NrRlcUeOp} (h : ue.LcidMapInv) (hs : nrRlcUeStep ue op = some ue')
    (hok : ue.BindsAnew op) : ue'.LcidMapInv := by
  cases op with
  | addBearer c =>
    obtain ⟨rb, e, hc, rfl⟩ := addBearer_eq hs
    obtain ⟨hrb, hl⟩ := hok rb hc
    exact addRb_inv h c.logicalChannelIdentity_valid hrb hl
  | releaseEntity channelId =>
    change ue.nrRlcReleaseEntity channelId = some ue' at hs
    unfold nrRlcReleaseEntity at hs
    split_ifs at hs <;> cases hs
    · exact srb0_inv h none
    · exact releaseRlcEntityFromLcid_inv h
  | activateSrb0 =>
    cases hs
    unfold nrRlcActivateSrb0
    split_ifs
    · exact h
    · exact srb0_inv h _

theorem nrRlcUeStep_breaks {op : NrRlcUeOp} (h : ue.LcidMapInv)
    (hs : nrRlcUeStep ue op = some ue') (hno : ¬ue.BindsAnew op) : ¬ue'.LcidMapSpec := by
  cases op with
  | addBearer c =>
    obtain ⟨rb, e, hc, rfl⟩ := addBearer_eq hs
    refine addRb_breaks h fun hok => hno fun rb' hc' => ?_
    obtain rfl : rb = rb' := Option.some.inj (hc.symm.trans hc')
    exact hok
  | releaseEntity => exact absurd trivial hno
  | activateSrb0 => exact absurd trivial hno

theorem newNrRlcUe_inv : newNrRlcUe.LcidMapInv := by
  constructor
  case onto =>
    intro rb hrb
    cases rb <;> cases hrb
  all_goals simp [newNrRlcUe]

end NrRlcUe

open NrRlcUe

/-- In a run of a UE the table is the map it should be throughout exactly when each bearer is
added on an LCID that the table does not need elsewhere. -/
theorem lcid_map_iff (ops : List NrRlcUeOp) :
    AllStates nrRlcUeStep LcidMapSpec newNrRlcUe ops ↔
      AllSteps nrRlcUeStep BindsAnew newNrRlcUe ops :=
  allStates_iff_allSteps (fun _ => LcidMapInv.toSpec) (fun _ _ _ => nrRlcUeStep_inv)
    (fun _ _ _ => nrRlcUeStep_breaks) ops _ newNrRlcUe_inv

/-- A configuration of DRB 1 in AM. -/
def drb1Config (lcid : Nat) (h : 0 < lcid ∧ lcid ≤ maxLcid) : NrRlcBearerConfig where
  logicalChannelIdentity := lcid
  logicalChannelIdentity_valid := h
  servedRadioBearer := some (.drb 1)
  rlcConfig := some (.am ⟨some 1, 7, 0⟩ ⟨some 1, 8, 23, 43, 5⟩)

/-- DRB 1 is added on LCID 4, released, and added again on LCID 5 : both designate it, and
LCID 4 gives the entity of LCID 5. -/
theorem lcid_map_fails :
    ¬AllStates nrRlcUeStep LcidMapSpec newNrRlcUe
      [.addBearer (drb1Config 4 (by decide)), .releaseEntity 4,
        .addBearer (drb1Config 5 (by decide))] := by
  intro h
  have hlast := (((h.2 _ rfl).2 _ rfl).2 _ rfl)
  exact absurd (hlast.injective 4 5 (.drb 1) rfl rfl) (by decide)

end NrStack
