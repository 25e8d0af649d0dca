import NrStack.Library.Run
import NrStack.Sdap.Entity

/-!
# SDAP headers and DRBs

The PDCP entities of the DRBs know whether their SDUs start with an SDAP header : they leave
it unciphered. The SDAP entities put the header in front, by the flag of the QFI's table
entry. The two agree as long as the flag of an entry is that of the DRB it maps to
(`RulesAgree`).

An explicit rule is stored with the flags of its DRB. But the rule of an unmapped QFI for
the default DRB, and a reflective rule, are stored with the flags that happen to be in the
entry : those of the last rule the QFI had, or none. A step where these differ from the
DRB's, or with which the DRB of a rule changes under it, is not a `FlagsKept` one.
-/

namespace NrStack

/-- `MAX_DRBS_PER_UE`. -/
def maxDrbsPerUe : Nat :=
  32

/-- The largest DRB ID that `nr_pdcp_ue_add_drb_pdcp_entity` takes. -/
def pdcpMaxDrbId : Nat :=
  5

/-- What SDAP depends on of the PDCP entity of a DRB. -/
structure PdcpDrb where
  isGnb : Bool
  pdusessionId : Int
  hasSdapRx : Bool
  hasSdapTx : Bool
deriving DecidableEq, Repr

/-- An SDU handed to a DRB, as it was submitted and as it was handed over, with the SDAP
header of its QFI and the flag of the DRB's PDCP entity. -/
structure HandedSdu where
  sdu : List UInt8
  pdu : List UInt8
  header : UInt8
  hasSdapTx : Bool
deriving DecidableEq, Repr

/-- The SDAP entities, and the DRBs of each UE. -/
structure SdapSystem where
  entities : List NrSdapEntity
  drb : Nat → Nat → Option PdcpDrb
  handed : List HandedSdu

/-- The configuration of a DRB to add : its ID, its PDU session and `sdap_Config`. -/
structure DrbToAdd where
  isGnb : Bool
  ueId : Nat
  drbId : Nat
  pdusessionId : Int
  hasSdapRx : Bool
  hasSdapTx : Bool
  defaultDrb : Bool
  mappedQfis : List Qfi
deriving DecidableEq, Repr

/-- `sdap_Config` of a DRB that was added before. -/
structure SdapReconfiguration where
  ueId : Nat
  drbId : Nat
  drbId_valid : 0 < drbId ∧ drbId ≤ pdcpMaxDrbId
  pdusessionId : Int
  hasSdapRx : Bool
  hasSdapTx : Bool
  mappedQfis : List Qfi
  releasedQfis : List Qfi
deriving DecidableEq, Repr

/-- `add_drb`, `nr_reconfigure_sdap_entity`, `nr_pdcp_release_drb`, `sdap_data_ind` of a DRB,
which in noS1 mode is always as at the UE, and `sdap_data_req`. -/
inductive SdapOp
  | addDrb (d : DrbToAdd)
  | reconfigure (c : SdapReconfiguration)
  | releaseDrb (ueId drbId : Nat)
  | dataInd (ueId drbId : Nat) (noS1 : Bool) (buf : List UInt8)
  | dataReq (enbFlag : Bool) (ueId rbId : Nat) (sdu : List UInt8) (qfi : Qfi) (rqi : Bool)
    (pdusessionId : Int)
deriving DecidableEq, Repr

namespace SdapSystem

/-- `nr_pdcp_get_rb`, for a DRB. -/
def getDrb (s : SdapSystem) (ueId rbId : Nat) : Option PdcpDrb :=
  if rbId < 1 ∨ rbId > maxDrbsPerUe then none else s.drb ueId rbId

/-- The end of `add_drb`; `none` is `exit`. -/
def addDrb (s : SdapSystem) (d : DrbToAdd) : Option SdapSystem :=
  if (s.getDrb d.ueId d.drbId).isSome then some s
  else if d.drbId < 1 ∨ d.drbId > pdcpMaxDrbId then none
  else
    some { s with
      drb := Function.update s.drb d.ueId (Function.update (s.drb d.ueId) d.drbId
        (some ⟨d.isGnb, d.pdusessionId, d.hasSdapRx, d.hasSdapTx⟩))
      entities := newNrSdapEntity s.entities d.isGnb d.hasSdapRx d.hasSdapTx d.ueId
        d.pdusessionId d.defaultDrb d.drbId d.mappedQfis }

/-- `nr_reconfigure_sdap_entity`. -/
def reconfigure (s : SdapSystem) (c : SdapReconfiguration) : SdapSystem :=
  { s with
    entities := updateEntity c.ueId c.pdusessionId
      (fun e => e.reconfigure c.mappedQfis c.releasedQfis c.drbId c.hasSdapRx c.hasSdapTx)
      s.entities }

/-- `nr_pdcp_release_drb`. -/
def releaseDrb (s : SdapSystem) (ueId drbId : Nat) : SdapSystem :=
  match s.getDrb ueId drbId with
  | none => s
  | some d =>
    { s with
      entities := updateEntity ueId d.pdusessionId (fun e => e.releaseDrb drbId) s.entities
      drb := Function.update s.drb ueId (Function.update (s.drb ueId) drbId none) }

/-- `sdap_data_ind` by `deliver_sdu_drb`. -/
def dataInd (s : SdapSystem) (ueId drbId : Nat) (noS1 : Bool) (buf : List UInt8) : SdapSystem :=
  match s.getDrb ueId drbId with
  | none => s
  | some d =>
    { s with
      entities := updateEntity ueId d.pdusessionId
        (fun e => (e.rxEntity drbId (!noS1 && d.isGnb) d.hasSdapRx buf).1) s.entities }

/-- `sdap_data_req`. PDCP refuses what is for a DRB that does not exist. -/
def dataReq (s : SdapSystem) (enbFlag : Bool) (ueId rbId : Nat) (sdu : List UInt8) (qfi : Qfi)
    (rqi : Bool) (pdusessionId : Int) : SdapSystem :=
  match nrSdapGetEntity s.entities ueId pdusessionId with
  | none => s
  | some e =>
    { s with
      entities := updateEntity ueId pdusessionId (fun e => (e.txEntity enbFlag rbId sdu qfi rqi).1)
        s.entities
      handed := s.handed ++ ((e.txEntity enbFlag rbId sdu qfi rqi).2.bind fun r =>
        (s.getDrb ueId r.1).map fun d =>
          ⟨sdu, r.2, sdapHdr enbFlag qfi rqi, d.hasSdapTx⟩).toList }

end SdapSystem

/-- One operation; `none` is `exit`. -/
def sdapStep (s : SdapSystem) : SdapOp → Option SdapSystem
  | .addDrb d => s.addDrb d
  | .reconfigure c => some (s.reconfigure c)
  | .releaseDrb ueId drbId => some (s.releaseDrb ueId drbId)
  | .dataInd ueId drbId noS1 buf => some (s.dataInd ueId drbId noS1 buf)
  | .dataReq enbFlag ueId rbId sdu qfi rqi pdusessionId =>
    some (s.dataReq enbFlag ueId rbId sdu qfi rqi pdusessionId)

/-! ## Flags -/

/-- The steps that let no QFI map to a DRB with the flag of another one. -/
def FlagsKept (s : SdapSystem) : SdapOp → Prop
  -- a DRB is not added under rules that were stored for an earlier one
  | .addDrb d => s.getDrb d.ueId d.drbId = none → ∀ e ∈ s.entities, e.ueId = d.ueId → ∀ qfi,
      (e.qfi2drbTable qfi).drbId = d.drbId → (e.qfi2drbTable qfi).hasSdapTx = d.hasSdapTx
  | .reconfigure c => ∀ d, s.getDrb c.ueId c.drbId = some d → c.hasSdapTx = d.hasSdapTx
  | .releaseDrb _ _ => True
  -- the flag in the entry of a QFI that is mapped reflectively
  | .dataInd ueId drbId noS1 buf => ∀ d e, s.getDrb ueId drbId = some d →
      nrSdapGetEntity s.entities ueId d.pdusessionId = some e → (!noS1 && d.isGnb) = false →
        d.hasSdapRx = true → hdrRdi (buf.getD 0 0) = true →
          (e.qfi2drbTable (hdrQfi (buf.getD 0 0))).hasSdapTx = d.hasSdapTx
  -- the flag in the entry of a QFI without rule, and the DRB of the caller if there is no
  -- default DRB
  | .dataReq _ ueId rbId _ qfi _ pdusessionId => ∀ e,
      nrSdapGetEntity s.entities ueId pdusessionId = some e → (e.qfi2drbTable qfi).drbId = 0 →
        (e.defaultDrb ≠ 0 → ∀ d, s.getDrb ueId e.defaultDrb = some d →
          (e.qfi2drbTable qfi).hasSdapTx = d.hasSdapTx) ∧
        (e.defaultDrb = 0 → ∀ d, s.getDrb ueId rbId = some d → d.hasSdapTx = false)

/-- An SDU was handed over with an SDAP header exactly if its DRB has them. -/
def HandedSdu.Right (h : HandedSdu) : Prop :=
  h.pdu = if h.hasSdapTx then h.header :: h.sdu else h.sdu

instance (h : HandedSdu) : Decidable h.Right :=
  inferInstanceAs (Decidable (_ = _))

/-- Every SDU was. -/
def HeadersRight (s : SdapSystem) : Prop :=
  ∀ h ∈ s.handed, h.Right

namespace NrSdapEntity

variable {look : Nat → Option PdcpDrb} {e e' : NrSdapEntity} {qfi q : Qfi} {drb : Nat}
  {rx tx : Bool} {l : List Qfi}

/-- The flags of the rules are those of the DRBs, which `look` gives. -/
def Agrees (look : Nat → Option PdcpDrb) (e : NrSdapEntity) : Prop :=
  ∀ q d, look (e.qfi2drbTable q).drbId = some d → (e.qfi2drbTable q).hasSdapTx = d.hasSdapTx

/-- What the entity is for, which no function changes. -/
def identity (e : NrSdapEntity) :=
  (e.ueId, e.pdusessionId, e.defaultDrb)

/-- At most the DRB of one rule is another one, and QFI `0` has no rule to change. -/
structure Retargets (qfi : Qfi) (e e' : NrSdapEntity) : Prop where
  identity : e'.identity = e.identity
  rule : ∃ drb, e'.qfi2drbTable =
    Function.update e.qfi2drbTable qfi { e.qfi2drbTable qfi with drbId := drb }
  zero : qfi.val = 0 → e'.qfi2drbTable = e.qfi2drbTable

theorem Retargets.refl (h : e'.identity = e.identity) (ht : e'.qfi2drbTable = e.qfi2drbTable) :
    Retargets qfi e e' :=
  ⟨h, ⟨(e.qfi2drbTable qfi).drbId, by rw [ht, Function.update_eq_self]⟩, fun _ => ht⟩

theorem Retargets.trans {e'' : NrSdapEntity} (h : Retargets qfi e e') (h' : Retargets qfi e' e'') :
    Retargets qfi e e'' := by
  obtain ⟨hid, ⟨drb, ht⟩, hz⟩ := h
  obtain ⟨hid', ⟨drb', ht'⟩, hz'⟩ := h'
  refine ⟨hid'.trans hid, ⟨drb', ?_⟩, fun h0 => (hz' h0).trans (hz h0)⟩
  rw [ht', ht, Function.update_self, Function.update_idem]

theorem retargets_qfi2drbMap (qfi : Qfi) (e : NrSdapEntity) :
    Retargets qfi e (e.qfi2drbMap qfi).1 := by
  unfold qfi2drbMap qfi2drbMapUpdate
  split_ifs with h1 h2 h3
  · exact .refl rfl rfl
  · exact ⟨rfl, ⟨e.defaultDrb, rfl⟩, fun h0 => absurd h3.2.1 (by omega)⟩
  · exact .refl rfl rfl
  · exact .refl rfl rfl

theorem retargets_sendEndMarker {mapType : SdapCtrlPduMap} :
    Retargets qfi e (e.sendEndMarker mapType qfi) := by
  have hmap : Retargets qfi e (e.sdapMapCtrlPdu mapType qfi).1 := by
    cases mapType with
    | defDrb => exact .refl rfl rfl
    | ruleDrb => exact retargets_qfi2drbMap qfi e
  refine hmap.trans ?_
  unfold sendEndMarker sdapSubmitCtrlPdu
  split_ifs <;> exact .refl rfl rfl

theorem retargets_endMarkerDefault : Retargets qfi e (e.endMarkerDefault qfi) := by
  unfold endMarkerDefault
  split_ifs
  · exact retargets_sendEndMarker
  · exact .refl rfl rfl

theorem retargets_configMarkers (qfi : Qfi) (e : NrSdapEntity) (drb : Nat) :
    Retargets qfi e (e.configMarkers drb qfi) := by
  refine (retargets_endMarkerDefault).trans ?_
  unfold configMarkers
  dsimp only
  split_ifs
  · exact retargets_sendEndMarker
  · exact .refl rfl rfl

theorem retargets_reflectiveMarkers (qfi : Qfi) (e : NrSdapEntity) (drb : Nat) :
    Retargets qfi e (e.reflectiveMarkers drb qfi) := by
  refine (retargets_endMarkerDefault).trans ?_
  unfold reflectiveMarkers
  dsimp only
  split_ifs
  · exact retargets_sendEndMarker
  · exact .refl rfl rfl

/-- A new rule with the flag of its DRB. -/
theorem Agrees.setRule (h : Agrees look e) (rule : Qfi2drb)
    (hrule : ∀ d, look rule.drbId = some d → rule.hasSdapTx = d.hasSdapTx) :
    Agrees look (e.setRule qfi rule) := by
  intro q d hd
  by_cases hq : q = qfi
  · subst hq
    have hself : (e.setRule q rule).qfi2drbTable q = rule := Function.update_self ..
    rw [hself] at hd ⊢
    exact hrule d hd
  · have hne : (e.setRule qfi rule).qfi2drbTable q = e.qfi2drbTable q :=
      Function.update_of_ne hq ..
    rw [hne] at hd ⊢
    exact h q d hd

/-- What is stored over a rule whose DRB was changed. -/
theorem Retargets.setRule (h : Retargets qfi e e') {rule : Qfi2drb} :
    (e'.setRule qfi rule).qfi2drbTable = (e.setRule qfi rule).qfi2drbTable := by
  obtain ⟨drb, ht⟩ := h.rule
  rw [NrSdapEntity.setRule, NrSdapEntity.setRule]
  dsimp only
  rw [ht, Function.update_idem]

theorem Agrees.congr (h : Agrees look e) (ht : e'.qfi2drbTable = e.qfi2drbTable) :
    Agrees look e' := by
  intro q d hd
  rw [ht] at hd ⊢
  exact h q d hd

theorem Agrees.qfi2drbMapUpdate (h : Agrees look e)
    (htx : ∀ d, look drb = some d → tx = d.hasSdapTx) :
    Agrees look (e.qfi2drbMapUpdate qfi drb rx tx) := by
  unfold NrSdapEntity.qfi2drbMapUpdate
  split_ifs
  · exact h.setRule _ htx
  · exact h

/-- The flag of the default DRB is in the entry of a QFI without rule. -/
def DefaultAgrees (look : Nat → Option PdcpDrb) (e : NrSdapEntity) (qfi : Qfi) : Prop :=
  (e.qfi2drbTable qfi).drbId = 0 → ∀ d, look e.defaultDrb = some d →
    (e.qfi2drbTable qfi).hasSdapTx = d.hasSdapTx

/-- The DRB that a QFI is mapped to has the flag of its entry. -/
theorem Agrees.qfi2drbMap (h : Agrees look e) (hd : DefaultAgrees look e qfi) :
    Agrees look (e.qfi2drbMap qfi).1 ∧ ∀ d, (e.qfi2drbMap qfi).2 ≠ 0 →
      look (e.qfi2drbMap qfi).2 = some d →
        ((e.qfi2drbMap qfi).1.qfi2drbTable qfi).hasSdapTx = d.hasSdapTx := by
  obtain ⟨-, ⟨drb, ht⟩, -⟩ := retargets_qfi2drbMap qfi e
  have hflag : ((e.qfi2drbMap qfi).1.qfi2drbTable qfi).hasSdapTx =
      (e.qfi2drbTable qfi).hasSdapTx := by
    rw [ht, Function.update_self]
  rw [hflag]
  unfold NrSdapEntity.qfi2drbMap
  split_ifs with h1 h2
  · exact ⟨h, fun d _ => h qfi d⟩
  · exact ⟨h.qfi2drbMapUpdate (hd (not_not.1 h1)), fun d _ => hd (not_not.1 h1) d⟩
  · exact ⟨h, fun d h0 => absurd rfl h0⟩

theorem identity_qfi2drbMapUpdate : (e.qfi2drbMapUpdate qfi drb rx tx).identity = e.identity := by
  unfold qfi2drbMapUpdate
  split_ifs <;> rfl

/-- The configuration of a QFI replaces what the end markers have left in its entry. -/
theorem Agrees.ueQfi2drbConfigOne (h : Agrees look e) (hdrb : 0 < drb ∧ drb ≤ avlblDrb)
    (htx : ∀ d, look drb = some d → tx = d.hasSdapTx) :
    Agrees look (e.ueQfi2drbConfigOne drb rx tx qfi) ∧
      (e.ueQfi2drbConfigOne drb rx tx qfi).identity = e.identity := by
  have hret := retargets_configMarkers qfi e drb
  refine ⟨?_, (identity_qfi2drbMapUpdate).trans hret.identity⟩
  unfold NrSdapEntity.ueQfi2drbConfigOne NrSdapEntity.qfi2drbMapUpdate
  split_ifs with hupd
  · exact (h.setRule ⟨drb, rx, tx⟩ htx).congr hret.setRule
  · refine h.congr (hret.zero ?_)
    by_contra h0
    exact hupd ⟨qfi.isLt, Nat.pos_of_ne_zero h0, hdrb⟩

theorem Agrees.ueQfi2drbConfig (rx : Bool) (hdrb : 0 < drb ∧ drb ≤ avlblDrb)
    (htx : ∀ d, look drb = some d → tx = d.hasSdapTx) : ∀ (l : List Qfi) {e : NrSdapEntity},
      Agrees look e → Agrees look (e.ueQfi2drbConfig l drb rx tx) ∧
        (e.ueQfi2drbConfig l drb rx tx).identity = e.identity
  | [], _, h => ⟨h, rfl⟩
  | _ :: l, _, h => by
    obtain ⟨h₁, hid₁⟩ := h.ueQfi2drbConfigOne hdrb htx
    obtain ⟨h₂, hid₂⟩ := ueQfi2drbConfig rx hdrb htx l h₁
    exact ⟨h₂, hid₂.trans hid₁⟩

theorem Agrees.mapDel (h0 : look 0 = none) : ∀ (l : List Qfi) {e : NrSdapEntity},
    Agrees look e → Agrees look (l.foldl qfi2drbMapDel e) ∧
      (l.foldl qfi2drbMapDel e).identity = e.identity
  | [], _, h => ⟨h, rfl⟩
  | q :: l, e, h => by
    have h₁ : Agrees look (e.qfi2drbMapDel q) := h.setRule _ fun d hd => by simp [h0] at hd
    obtain ⟨h₂, hid₂⟩ := mapDel h0 l h₁
    exact ⟨h₂, hid₂⟩

theorem Agrees.mapUpdates (rx : Bool) (htx : ∀ d, look e.defaultDrb = some d → tx = d.hasSdapTx) :
    ∀ (l : List Qfi) {e' : NrSdapEntity}, e'.identity = e.identity → Agrees look e' →
      Agrees look (l.foldl (fun e qfi => e.qfi2drbMapUpdate qfi e.defaultDrb rx tx) e') ∧
        (l.foldl (fun e qfi => e.qfi2drbMapUpdate qfi e.defaultDrb rx tx) e').identity = e.identity
  | [], _, hid, h => ⟨h, hid⟩
  | q :: l, e', hid, h => by
    have hdef : e'.defaultDrb = e.defaultDrb := by
      simp only [identity, Prod.mk.injEq] at hid
      exact hid.2.2
    exact mapUpdates rx htx l (identity_qfi2drbMapUpdate.trans hid)
      (h.qfi2drbMapUpdate (hdef ▸ htx))

/-- A new entity. -/
theorem agrees_create (isGnb rx isDefault : Bool) (ueId : Nat) (pdusessionId : Int) (l : List Qfi)
    (h0 : look 0 = none) (htx : ∀ d, look drb = some d → tx = d.hasSdapTx) :
    Agrees look (create isGnb rx tx ueId pdusessionId isDefault drb l) ∧
      (create isGnb rx tx ueId pdusessionId isDefault drb l).ueId = ueId := by
  unfold create
  dsimp only
  split_ifs
  · obtain ⟨h, hid⟩ := Agrees.mapUpdates rx
      (e := ⟨ueId, pdusessionId, isGnb, drb, fun _ => ⟨0, false, false⟩, []⟩) htx l rfl
      (fun q d hd => by simp [h0] at hd)
    refine ⟨h, ?_⟩
    simp only [identity, Prod.mk.injEq] at hid
    exact hid.1
  · exact ⟨fun q d hd => by simp [h0] at hd, rfl⟩

theorem Agrees.releaseDrb (h : Agrees look e) (h0 : look 0 = none) :
    Agrees look (e.releaseDrb drb) := by
  intro q d hd
  simp only [NrSdapEntity.releaseDrb] at hd ⊢
  split_ifs at hd ⊢
  · simp [h0] at hd
  · exact h q d hd

/-- A reflective rule keeps the flag of the entry. -/
theorem Agrees.reflectiveMapping (h : Agrees look e) (drb : Nat)
    (hflag : ∀ d, look drb = some d → (e.qfi2drbTable qfi).hasSdapTx = d.hasSdapTx) :
    Agrees look (e.reflectiveMapping drb qfi) ∧
      (e.reflectiveMapping drb qfi).identity = e.identity := by
  have hret := retargets_reflectiveMarkers qfi e drb
  obtain ⟨drb', ht⟩ := hret.rule
  have hentry : (e.reflectiveMarkers drb qfi).qfi2drbTable qfi =
      { e.qfi2drbTable qfi with drbId := drb' } := by
    rw [ht, Function.update_self]
  refine ⟨?_, hret.identity⟩
  unfold NrSdapEntity.reflectiveMapping
  dsimp only
  rw [hentry]
  exact (h.setRule { e.qfi2drbTable qfi with drbId := drb } hflag).congr hret.setRule

end NrSdapEntity

/-! ## The list of entities -/

section Entities

variable {l : List NrSdapEntity} {ueId : Nat} {pdusessionId : Int}
  {f : NrSdapEntity → NrSdapEntity} {e : NrSdapEntity}

theorem mem_updateEntity : ∀ {l : List NrSdapEntity}, e ∈ updateEntity ueId pdusessionId f l →
    e ∈ l ∨ ∃ e₀ ∈ l, nrSdapGetEntity l ueId pdusessionId = some e₀ ∧ e = f e₀
  | [], h => by simp [updateEntity] at h
  | e₁ :: l, h => by
    unfold updateEntity at h
    split_ifs at h with hfor
    · rcases List.mem_cons.1 h with rfl | h
      · exact .inr ⟨e₁, by simp, by simp [nrSdapGetEntity, hfor], rfl⟩
      · exact .inl (by simp [h])
    · rcases List.mem_cons.1 h with rfl | h
      · exact .inl (by simp)
      · rcases mem_updateEntity h with h | ⟨e₀, he₀, hget, rfl⟩
        · exact .inl (by simp [h])
        · exact .inr ⟨e₀, by simp [he₀], by simpa [nrSdapGetEntity, hfor] using hget, rfl⟩

theorem isFor_of_getEntity (h : nrSdapGetEntity l ueId pdusessionId = some e) :
    e.IsFor ueId pdusessionId := by
  simpa using List.find?_some h

end Entities

namespace NrSdapEntity

variable {look : Nat → Option PdcpDrb} {e : NrSdapEntity} {qfi : Qfi} {rbId : Nat}
  {enbFlag rqi : Bool} {sdu : List UInt8}

theorem txEntity_fst : (e.txEntity enbFlag rbId sdu qfi rqi).1 = (e.qfi2drbMap qfi).1 := by
  unfold txEntity
  dsimp only
  split_ifs <;> rfl

/-- What is handed to a DRB has a header exactly if the DRB has them. -/
theorem Agrees.txEntity (h : Agrees look e) (hd : DefaultAgrees look e qfi)
    (hrb : (e.qfi2drbTable qfi).drbId = 0 → e.defaultDrb = 0 → ∀ d, look rbId = some d →
      d.hasSdapTx = false) {r : Nat × List UInt8} {d : PdcpDrb}
    (hr : (e.txEntity enbFlag rbId sdu qfi rqi).2 = some r) (hlook : look r.1 = some d) :
    r.2 = if d.hasSdapTx then sdapHdr enbFlag qfi rqi :: sdu else sdu := by
  obtain ⟨-, hflag⟩ := h.qfi2drbMap hd
  have hzero : (e.qfi2drbMap qfi).2 = 0 → (e.qfi2drbTable qfi).drbId = 0 ∧ e.defaultDrb = 0 := by
    unfold NrSdapEntity.qfi2drbMap
    split_ifs with h1 h2
    · exact fun h0 => absurd h0 h1
    · exact fun h0 => absurd h0 h2
    · exact fun _ => ⟨not_not.1 h1, not_not.1 h2⟩
  unfold NrSdapEntity.txEntity at hr
  dsimp only at hr
  by_cases hmap : (e.qfi2drbMap qfi).2 = 0
  · obtain ⟨h0, hdef⟩ := hzero hmap
    simp only [hmap, ne_eq, not_true_eq_false, if_false, if_true] at hr
    obtain rfl : (rbId, sdu) = r := Option.some.inj hr
    simp [hrb h0 hdef d hlook]
  · simp only [ne_eq, hmap, not_false_eq_true, if_true] at hr
    cases htx : ((e.qfi2drbMap qfi).1.qfi2drbTable qfi).hasSdapTx with
    | false =>
      rw [htx, if_pos rfl] at hr
      obtain rfl : ((e.qfi2drbMap qfi).2, sdu) = r := Option.some.inj hr
      simp [← hflag d hmap hlook, htx]
    | true =>
      rw [htx, if_neg (by decide)] at hr
      split_ifs at hr
      obtain rfl : ((e.qfi2drbMap qfi).2, sdapHdr enbFlag qfi rqi :: sdu) = r :=
        Option.some.inj hr
      simp [← hflag d hmap hlook, htx]

end NrSdapEntity

/-! ## Runs -/

namespace SdapSystem

open NrSdapEntity

variable {s s' : SdapSystem}

/-- The flags of all rules are those of the DRBs. -/
def RulesAgree (s : SdapSystem) : Prop :=
  ∀ e ∈ s.entities, e.Agrees (s.getDrb e.ueId)

theorem getDrb_zero (ueId : Nat) : s.getDrb ueId 0 = none := by
  simp [getDrb]

theorem ueId_of_identity {e e' : NrSdapEntity} (h : e'.identity = e.identity) :
    e'.ueId = e.ueId :=
  congrArg Prod.fst h

/-- A change of one entity. -/
theorem RulesAgree.update (h : RulesAgree s) {ueId : Nat} {pdusessionId : Int}
    (f : NrSdapEntity → NrSdapEntity)
    (hf : ∀ e, nrSdapGetEntity s.entities ueId pdusessionId = some e →
      e.Agrees (s.getDrb ueId) → (f e).Agrees (s.getDrb ueId) ∧ (f e).ueId = e.ueId) :
    RulesAgree { s with entities := updateEntity ueId pdusessionId f s.entities } := by
  intro e he
  rcases mem_updateEntity he with he | ⟨e₀, he₀, hget, rfl⟩
  · exact h e he
  · have hue : e₀.ueId = ueId := (isFor_of_getEntity hget).1
    obtain ⟨hagrees, hid⟩ := hf e₀ hget (hue ▸ h e₀ he₀)
    have hlook : ∀ ue,
        getDrb { s with entities := updateEntity ueId pdusessionId f s.entities } ue =
          s.getDrb ue := fun _ => rfl
    rw [hlook, hid, hue]
    exact hagrees

/-- The DRBs after one was added or released. -/
theorem getDrb_update (ueId drbId : Nat) (d : Option PdcpDrb) (ue rb : Nat) :
    getDrb { s with drb := Function.update s.drb ueId (Function.update (s.drb ueId) drbId d) }
        ue rb =
      if ue = ueId ∧ rb = drbId then (if rb < 1 ∨ rb > maxDrbsPerUe then none else d)
      else s.getDrb ue rb := by
  unfold getDrb
  dsimp only
  by_cases hue : ue = ueId
  · subst hue
    by_cases hrb : rb = drbId
    · subst hrb
      simp
    · simp [hrb]
  · simp [hue]

theorem RulesAgree.releaseDrb (h : RulesAgree s) (ueId drbId : Nat) :
    RulesAgree (s.releaseDrb ueId drbId) := by
  unfold SdapSystem.releaseDrb
  split
  · exact h
  · rename_i d₀ _
    have h₁ := @RulesAgree.update _ h ueId d₀.pdusessionId (fun e => e.releaseDrb drbId)
      fun e _ he => ⟨he.releaseDrb (getDrb_zero ueId), rfl⟩
    intro e he q d hd
    refine h₁ e he q d ?_
    have hget := getDrb_update (s := s) ueId drbId none e.ueId (e.qfi2drbTable q).drbId
    have hd' := hget.symm.trans hd
    split_ifs at hd'
    exact hd'

theorem RulesAgree.dataInd (h : RulesAgree s) {ueId drbId : Nat} {noS1 : Bool}
    {buf : List UInt8} (hok : FlagsKept s (.dataInd ueId drbId noS1 buf)) :
    RulesAgree (s.dataInd ueId drbId noS1 buf) := by
  unfold SdapSystem.dataInd
  split
  · exact h
  · rename_i d hd
    refine h.update _ fun e hget he => ?_
    unfold rxEntity
    dsimp only
    split_ifs with hrefl
    · obtain ⟨hagrees, hid⟩ := he.reflectiveMapping drbId fun d' hd' => by
        obtain rfl : d = d' := Option.some.inj (hd.symm.trans hd')
        exact hok d e hd hget hrefl.1 hrefl.2.1 hrefl.2.2
      exact ⟨hagrees, ueId_of_identity hid⟩
    · exact ⟨he, rfl⟩

theorem RulesAgree.reconfigure (h : RulesAgree s) {c : SdapReconfiguration}
    (hok : FlagsKept s (.reconfigure c)) : RulesAgree (s.reconfigure c) := by
  refine h.update _ fun e _ he => ?_
  obtain ⟨h₁, hid₁⟩ := Agrees.ueQfi2drbConfig c.hasSdapRx c.drbId_valid hok c.mappedQfis he
  obtain ⟨h₂, hid₂⟩ := Agrees.mapDel (getDrb_zero c.ueId) c.releasedQfis h₁
  exact ⟨h₂, ueId_of_identity (hid₂.trans hid₁)⟩

theorem RulesAgree.addDrb (h : RulesAgree s) {d : DrbToAdd} (hok : FlagsKept s (.addDrb d))
    (hs : s.addDrb d = some s') : RulesAgree s' := by
  unfold SdapSystem.addDrb at hs
  split_ifs at hs with hsome hrange
  · cases hs
    exact h
  · cases hs
    rw [Option.not_isSome_iff_eq_none] at hsome
    have hid : 0 < d.drbId ∧ d.drbId ≤ pdcpMaxDrbId := by omega
    have hmax : pdcpMaxDrbId ≤ maxDrbsPerUe := by decide
    set cfg : PdcpDrb := ⟨d.isGnb, d.pdusessionId, d.hasSdapRx, d.hasSdapTx⟩
    set s₁ : SdapSystem := { s with
      drb := Function.update s.drb d.ueId (Function.update (s.drb d.ueId) d.drbId (some cfg)) }
    have hlook : ∀ ue rb, s₁.getDrb ue rb =
        if ue = d.ueId ∧ rb = d.drbId then some cfg else s.getDrb ue rb := by
      intro ue rb
      rw [getDrb_update]
      split_ifs <;> first | rfl | omega
    -- the old rules under the new DRB
    have h₁ : RulesAgree s₁ := by
      intro e he q d' hd'
      rw [hlook] at hd'
      split_ifs at hd' with hnew
      · obtain rfl : cfg = d' := Option.some.inj hd'
        exact hok hsome e he hnew.1 q hnew.2
      · exact h e he q d' hd'
    have htx : ∀ d', s₁.getDrb d.ueId d.drbId = some d' → d.hasSdapTx = d'.hasSdapTx := by
      intro d' hd'
      rw [hlook, if_pos ⟨rfl, rfl⟩] at hd'
      obtain rfl : cfg = d' := Option.some.inj hd'
      rfl
    show RulesAgree { s₁ with entities := newNrSdapEntity s.entities .. }
    unfold newNrSdapEntity
    split_ifs
    · exact h₁
    · refine h₁.update _ fun e _ he => ?_
      obtain ⟨h₂, hid₂⟩ := Agrees.ueQfi2drbConfig d.hasSdapRx hid htx d.mappedQfis he
      exact ⟨h₂, ueId_of_identity hid₂⟩
    · intro e he
      rcases List.mem_cons.1 he with rfl | he
      · obtain ⟨h₂, hue⟩ := agrees_create d.isGnb d.hasSdapRx d.defaultDrb d.ueId d.pdusessionId
          d.mappedQfis (getDrb_zero d.ueId) htx
        rw [hue]
        exact h₂
      · exact h₁ e he

/-- `sdap_data_req` keeps the rules right, and hands over what is right. -/
theorem dataReq_right (h : RulesAgree s) (hr : HeadersRight s) {enbFlag rqi : Bool}
    {ueId rbId : Nat} {sdu : List UInt8} {qfi : Qfi} {pdusessionId : Int}
    (hok : FlagsKept s (.dataReq enbFlag ueId rbId sdu qfi rqi pdusessionId)) :
    RulesAgree (s.dataReq enbFlag ueId rbId sdu qfi rqi pdusessionId) ∧
      HeadersRight (s.dataReq enbFlag ueId rbId sdu qfi rqi pdusessionId) := by
  unfold SdapSystem.dataReq
  split
  · exact ⟨h, hr⟩
  · rename_i e hget
    have hue : e.ueId = ueId := (isFor_of_getEntity hget).1
    have hagrees : e.Agrees (s.getDrb ueId) := hue ▸ h e (List.mem_of_find?_eq_some hget)
    have hdefault : DefaultAgrees (s.getDrb ueId) e qfi := by
      intro h0 d hd
      by_cases hdef : e.defaultDrb = 0
      · rw [hdef, getDrb_zero] at hd
        cases hd
      · exact (hok e hget h0).1 hdef d hd
    constructor
    · refine h.update _ fun e' hget' he' => ?_
      obtain rfl : e = e' := Option.some.inj (hget.symm.trans hget')
      rw [txEntity_fst]
      exact ⟨(hagrees.qfi2drbMap hdefault).1,
        ueId_of_identity (retargets_qfi2drbMap qfi e).identity⟩
    · intro x hx
      rcases List.mem_append.1 hx with hx | hx
      · exact hr x hx
      · obtain ⟨r, hr₁, hr₂⟩ := Option.bind_eq_some_iff.1 (Option.mem_toList.1 hx)
        obtain ⟨d, hd, rfl⟩ := Option.map_eq_some_iff.1 hr₂
        exact hagrees.txEntity hdefault (fun h0 hdef => (hok e hget h0).2 hdef) hr₁ hd

end SdapSystem

open SdapSystem

/-- Before any DRB is added. -/
def sdapInit : SdapSystem :=
  ⟨[], fun _ _ => none, []⟩

/-- A default DRB with SDAP headers, for QFI `1`, at the UE. -/
def sdapDefaultDrb : DrbToAdd where
  isGnb := false
  ueId := 0
  drbId := 1
  pdusessionId := 10
  hasSdapRx := true
  hasSdapTx := true
  defaultDrb := true
  mappedQfis := [1]

/-- The state after it was added. -/
def sdapDefaultDrbAdded : SdapSystem where
  entities := newNrSdapEntity [] false true true 0 10 true 1 [1]
  drb := Function.update (fun _ _ => none) 0 (Function.update (fun _ => none) 1
    (some ⟨false, 10, true, true⟩))
  handed := []

theorem sdapStep_addDefaultDrb :
    sdapStep sdapInit (.addDrb sdapDefaultDrb) = some sdapDefaultDrbAdded :=
  rfl

end NrStack
