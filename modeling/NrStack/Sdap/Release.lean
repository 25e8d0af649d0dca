import NrStack.Sdap.Header

/-!
# Routes to a released DRB

A QFI is mapped to a DRB by its rule or, without a rule, by the default DRB, and an unmapped packet
stores the default DRB as a rule. `nr_sdap_release_drb` clears the rules of one PDU session. What is
left are the default DRBs, and rules of other PDU sessions that were configured with the same DRB.

An entity that `Avoids` a DRB has no route to it, and no operation makes one until the DRB is
configured again. `released_drb_iff` : the released DRB is not reached again if and only if the
other routes were not there.
-/

namespace NrStack

/-! ## Operations -/

/-- `SDAP_MAX_NUM_OF_ENTITIES`. -/
def sdapMaxNumOfEntities : Nat :=
  maxDrbsPerUe * 40

/-- `NGAP_MAX_PDU_SESSION`. -/
def ngapMaxPduSession : Int :=
  256

/-- `nr_sdap_delete_entity`. Of an empty list it reads the first entity, unless the PDU session is
out of range. -/
def nrSdapDeleteEntity (l : List NrSdapEntity) (ueId : Nat) (pdusessionId : Int) :
    Option (List NrSdapEntity) :=
  if l = [] then if pdusessionId * (pdusessionId - ngapMaxPduSession) > 0 then some l else none
  else if (l.take (sdapMaxNumOfEntities + 1)).any fun e => e.IsFor ueId pdusessionId then
    some (l.eraseP fun e => e.IsFor ueId pdusessionId)
  else some l

/-- `nr_sdap_delete_ue_entities`. -/
def nrSdapDeleteUeEntities (l : List NrSdapEntity) (ueId : Nat) : List NrSdapEntity :=
  l.filter fun e => e.ueId ≠ ueId

/-- The operations of `SdapOp`, the two above, and `nr_pdcp_remove_UE`, which leaves SDAP alone. -/
inductive SdapUeOp
  | op (op : SdapOp)
  | deleteEntity (ueId : Nat) (pdusessionId : Int)
  | deleteUeEntities (ueId : Nat)
  | removeUe (ueId : Nat)
deriving DecidableEq, Repr

/-- One operation; `none` is `exit`, or a null pointer read. -/
def sdapUeStep (s : SdapSystem) : SdapUeOp → Option SdapSystem
  | .op op => sdapStep s op
  | .deleteEntity ueId pdusessionId =>
    (nrSdapDeleteEntity s.entities ueId pdusessionId).map fun l => { s with entities := l }
  | .deleteUeEntities ueId =>
    some { s with entities := nrSdapDeleteUeEntities s.entities ueId }
  | .removeUe ueId => some { s with drb := Function.update s.drb ueId fun _ => none }

/-- The operation does not configure the DRB of the UE. -/
def NotConfigured (ueId drb : Nat) (_ : SdapSystem) : SdapUeOp → Prop
  | .op (.addDrb d) => ¬ (d.ueId = ueId ∧ d.drbId = drb)
  | .op (.reconfigure c) => ¬ (c.ueId = ueId ∧ c.drbId = drb)
  | _ => True

/-- No QFI of the UE is mapped to the DRB. -/
def NotMapped (ueId drb : Nat) (s : SdapSystem) : Prop :=
  ∀ e ∈ s.entities, e.ueId = ueId → ∀ qfi, (e.qfi2drbMap qfi).2 ≠ drb

/-! ## Entities that avoid a DRB -/

namespace NrSdapEntity

variable {e e' : NrSdapEntity} {qfi : Qfi} {drb drb' : Nat} {rx tx : Bool} {l : List Qfi}

/-- No rule is for the DRB, and it is not the default DRB. -/
def Avoids (drb : Nat) (e : NrSdapEntity) : Prop :=
  e.defaultDrb ≠ drb ∧ ∀ qfi, (e.qfi2drbTable qfi).drbId ≠ drb

theorem qfi2drbMap_snd (e : NrSdapEntity) (qfi : Qfi) :
    (e.qfi2drbMap qfi).2 =
      if (e.qfi2drbTable qfi).drbId ≠ 0 then (e.qfi2drbTable qfi).drbId else e.defaultDrb := by
  unfold qfi2drbMap
  split_ifs with hrule hdefault
  · rfl
  · rfl
  · exact (not_not.1 hdefault).symm

theorem Avoids.qfi2drbMap_ne (h : Avoids drb e) (qfi : Qfi) : (e.qfi2drbMap qfi).2 ≠ drb := by
  rw [qfi2drbMap_snd]
  split_ifs
  · exact h.2 qfi
  · exact h.1

theorem Avoids.congr (h : Avoids drb e) (hdefault : e'.defaultDrb = e.defaultDrb)
    (htable : e'.qfi2drbTable = e.qfi2drbTable) : Avoids drb e' :=
  ⟨hdefault ▸ h.1, htable ▸ h.2⟩

theorem Avoids.setRule (h : Avoids drb e) {rule : Qfi2drb} (hrule : rule.drbId ≠ drb) :
    Avoids drb (e.setRule qfi rule) := by
  refine ⟨h.1, fun q => ?_⟩
  by_cases hq : q = qfi
  · have hself : (e.setRule qfi rule).qfi2drbTable q = rule := by
      rw [hq]
      exact Function.update_self ..
    rwa [hself]
  · have hother : (e.setRule qfi rule).qfi2drbTable q = e.qfi2drbTable q :=
      Function.update_of_ne hq ..
    rw [hother]
    exact h.2 q

theorem Avoids.qfi2drbMapUpdate (h : Avoids drb e) (hne : drb' ≠ drb) :
    Avoids drb (e.qfi2drbMapUpdate qfi drb' rx tx) := by
  unfold NrSdapEntity.qfi2drbMapUpdate
  split_ifs
  · exact h.setRule hne
  · exact h

theorem Avoids.qfi2drbMap (h : Avoids drb e) (qfi : Qfi) : Avoids drb (e.qfi2drbMap qfi).1 := by
  unfold NrSdapEntity.qfi2drbMap
  split_ifs
  · exact h
  · exact h.qfi2drbMapUpdate h.1
  · exact h

theorem Avoids.sendEndMarker (h : Avoids drb e) (mapType : SdapCtrlPduMap) (qfi : Qfi) :
    Avoids drb (e.sendEndMarker mapType qfi) := by
  have hmap : Avoids drb (e.sdapMapCtrlPdu mapType qfi).1 := by
    cases mapType with
    | defDrb => exact h
    | ruleDrb => exact h.qfi2drbMap qfi
  unfold NrSdapEntity.sendEndMarker sdapSubmitCtrlPdu
  split_ifs
  · exact hmap.congr rfl rfl
  · exact hmap

theorem Avoids.endMarkerDefault (h : Avoids drb e) (qfi : Qfi) :
    Avoids drb (e.endMarkerDefault qfi) := by
  unfold NrSdapEntity.endMarkerDefault
  split_ifs
  · exact h.sendEndMarker _ _
  · exact h

theorem Avoids.ueQfi2drbConfigOne (h : Avoids drb e) (hne : drb' ≠ drb) (rx tx : Bool) (qfi : Qfi) :
    Avoids drb (e.ueQfi2drbConfigOne drb' rx tx qfi) := by
  have hmarkers : Avoids drb (e.configMarkers drb' qfi) := by
    unfold configMarkers
    dsimp only
    split_ifs
    · exact (h.endMarkerDefault qfi).sendEndMarker _ _
    · exact h.endMarkerDefault qfi
  exact hmarkers.qfi2drbMapUpdate hne

theorem Avoids.ueQfi2drbConfig (hne : drb' ≠ drb) (rx tx : Bool) : ∀ (l : List Qfi)
    {e : NrSdapEntity}, Avoids drb e → Avoids drb (e.ueQfi2drbConfig l drb' rx tx)
  | [], _, h => h
  | qfi :: l, _, h => ueQfi2drbConfig hne rx tx l (h.ueQfi2drbConfigOne hne rx tx qfi)

theorem Avoids.mapDel (h0 : drb ≠ 0) : ∀ (l : List Qfi) {e : NrSdapEntity},
    Avoids drb e → Avoids drb (l.foldl qfi2drbMapDel e)
  | [], _, h => h
  | _ :: l, _, h => mapDel h0 l (h.setRule h0.symm)

theorem Avoids.mapUpdates (rx tx : Bool) : ∀ (l : List Qfi) {e : NrSdapEntity}, Avoids drb e →
    Avoids drb (l.foldl (fun e qfi => e.qfi2drbMapUpdate qfi e.defaultDrb rx tx) e)
  | [], _, h => h
  | _ :: l, _, h => mapUpdates rx tx l (h.qfi2drbMapUpdate h.1)

theorem avoids_create (h0 : drb ≠ 0) (hne : drb' ≠ drb) (isGnb rx tx isDefault : Bool) (ueId : Nat)
    (pdusessionId : Int) (l : List Qfi) :
    Avoids drb (create isGnb rx tx ueId pdusessionId isDefault drb' l) := by
  unfold create
  dsimp only
  split_ifs
  · exact Avoids.mapUpdates rx tx l ⟨hne, fun _ => h0.symm⟩
  · exact ⟨h0.symm, fun _ => h0.symm⟩

theorem Avoids.releaseDrb (h0 : drb ≠ 0) (h : Avoids drb e) (drb' : Nat) :
    Avoids drb (e.releaseDrb drb') := by
  refine ⟨h.1, fun q => ?_⟩
  simp only [NrSdapEntity.releaseDrb]
  split_ifs
  · exact h0.symm
  · exact h.2 q

/-- The rules for a released DRB are gone, only the default DRB may be left. -/
theorem avoids_releaseDrb (h0 : drb ≠ 0) (h : e.defaultDrb ≠ drb) :
    Avoids drb (e.releaseDrb drb) := by
  refine ⟨h, fun q => ?_⟩
  simp only [NrSdapEntity.releaseDrb]
  split_ifs with hrule
  · exact h0.symm
  · exact hrule

theorem Avoids.reflectiveMapping (h : Avoids drb e) (hne : drb' ≠ drb) (qfi : Qfi) :
    Avoids drb (e.reflectiveMapping drb' qfi) := by
  have hmarkers : Avoids drb (e.reflectiveMarkers drb' qfi) := by
    unfold reflectiveMarkers
    dsimp only
    split_ifs
    · exact (h.endMarkerDefault qfi).sendEndMarker _ _
    · exact h.endMarkerDefault qfi
  exact hmarkers.setRule hne

theorem Avoids.rxEntity (h : Avoids drb e) (hne : drb' ≠ drb) (isGnb rx : Bool) (buf : List UInt8) :
    Avoids drb (e.rxEntity drb' isGnb rx buf).1 := by
  unfold NrSdapEntity.rxEntity
  dsimp only
  split_ifs
  · exact h.reflectiveMapping hne _
  · exact h

/-! ## What an entity is for -/

theorem identity_ueQfi2drbConfig (hdrb : 0 < drb ∧ drb ≤ avlblDrb) (rx tx : Bool) (l : List Qfi)
    (e : NrSdapEntity) : (e.ueQfi2drbConfig l drb rx tx).identity = e.identity := by
  have hnone : Agrees (fun _ => none) e := fun _ _ h => by cases h
  exact (Agrees.ueQfi2drbConfig rx hdrb (fun _ h => by cases h) l hnone).2

theorem identity_mapDel (l : List Qfi) (e : NrSdapEntity) :
    (l.foldl qfi2drbMapDel e).identity = e.identity := by
  have hnone : Agrees (fun _ => none) e := fun _ _ h => by cases h
  exact (Agrees.mapDel rfl l hnone).2

theorem identity_reconfigure (c : SdapReconfiguration) (e : NrSdapEntity) :
    (e.reconfigure c.mappedQfis c.releasedQfis c.drbId c.hasSdapRx c.hasSdapTx).identity =
      e.identity :=
  (identity_mapDel _ _).trans (identity_ueQfi2drbConfig c.drbId_valid _ _ _ _)

theorem identity_rxEntity (e : NrSdapEntity) (drb : Nat) (isGnb rx : Bool) (buf : List UInt8) :
    (e.rxEntity drb isGnb rx buf).1.identity = e.identity := by
  unfold rxEntity
  dsimp only
  split_ifs
  · exact (retargets_reflectiveMarkers _ e drb).identity
  · rfl

theorem identity_txEntity (e : NrSdapEntity) (enbFlag rqi : Bool) (rbId : Nat) (sdu : List UInt8)
    (qfi : Qfi) : (e.txEntity enbFlag rbId sdu qfi rqi).1.identity = e.identity := by
  rw [txEntity_fst]
  exact (retargets_qfi2drbMap qfi e).identity

theorem identity_mapUpdates (rx tx : Bool) : ∀ (l : List Qfi) (e : NrSdapEntity),
    (l.foldl (fun e qfi => e.qfi2drbMapUpdate qfi e.defaultDrb rx tx) e).identity = e.identity
  | [], _ => rfl
  | _ :: l, _ => (identity_mapUpdates rx tx l _).trans identity_qfi2drbMapUpdate

/-- The key by which an entity is found. -/
def key (e : NrSdapEntity) : Nat × Int :=
  (e.ueId, e.pdusessionId)

theorem key_of_identity (h : e'.identity = e.identity) : e'.key = e.key := by
  simp only [identity, Prod.mk.injEq] at h
  exact Prod.ext h.1 h.2.1

theorem key_create (isGnb rx tx isDefault : Bool) (ueId : Nat) (pdusessionId : Int) (drb : Nat)
    (l : List Qfi) :
    (create isGnb rx tx ueId pdusessionId isDefault drb l).key = (ueId, pdusessionId) := by
  unfold create
  dsimp only
  split_ifs
  · exact key_of_identity (identity_mapUpdates rx tx l _)
  · rfl

theorem isFor_iff_key {ueId : Nat} {pdusessionId : Int} :
    e.IsFor ueId pdusessionId ↔ e.key = (ueId, pdusessionId) := by
  simp [IsFor, key]

end NrSdapEntity

/-! ## One entity for each PDU session -/

section Keys

variable {l : List NrSdapEntity} {ueId : Nat} {pdusessionId : Int}
  {f : NrSdapEntity → NrSdapEntity} {e : NrSdapEntity}

theorem map_key_updateEntity (hf : ∀ e, (f e).identity = e.identity) : ∀ (l : List NrSdapEntity),
    (updateEntity ueId pdusessionId f l).map NrSdapEntity.key = l.map NrSdapEntity.key
  | [] => rfl
  | e :: l => by
    unfold updateEntity
    split_ifs
    · rw [List.map_cons, List.map_cons, NrSdapEntity.key_of_identity (hf e)]
    · rw [List.map_cons, List.map_cons, map_key_updateEntity hf l]

/-- The entity with a key is the one found. -/
theorem getEntity_of_mem (hl : (l.map NrSdapEntity.key).Nodup) (he : e ∈ l)
    (hfor : e.IsFor ueId pdusessionId) : nrSdapGetEntity l ueId pdusessionId = some e := by
  induction l with
  | nil => exact absurd he List.not_mem_nil
  | cons e₁ l ih =>
    rw [List.map_cons, List.nodup_cons] at hl
    rcases List.mem_cons.1 he with rfl | hmem
    · simp [nrSdapGetEntity, hfor]
    · have hne : ¬ e₁.IsFor ueId pdusessionId := fun h₁ =>
        hl.1 (List.mem_map.2 ⟨e, hmem, (NrSdapEntity.isFor_iff_key.1 hfor).trans
          (NrSdapEntity.isFor_iff_key.1 h₁).symm⟩)
      simpa [nrSdapGetEntity, hne] using ih hl.2 hmem

/-- The changed entity is in the list. -/
theorem mem_updateEntity_of_get : ∀ {l : List NrSdapEntity},
    nrSdapGetEntity l ueId pdusessionId = some e → f e ∈ updateEntity ueId pdusessionId f l
  | [], h => by cases h
  | e₁ :: l, h => by
    unfold updateEntity
    by_cases hfor : e₁.IsFor ueId pdusessionId
    · obtain rfl : e₁ = e := by simpa [nrSdapGetEntity, hfor] using h
      rw [if_pos hfor]
      exact List.mem_cons_self
    · rw [if_neg hfor]
      exact List.mem_cons_of_mem _
        (mem_updateEntity_of_get (by simpa [nrSdapGetEntity, hfor] using h))

/-- Another entity stays as it is. -/
theorem mem_updateEntity_of_not : ∀ {l : List NrSdapEntity}, e ∈ l → ¬ e.IsFor ueId pdusessionId →
    e ∈ updateEntity ueId pdusessionId f l
  | [], h, _ => absurd h List.not_mem_nil
  | e₁ :: l, h, hfor => by
    unfold updateEntity
    rcases List.mem_cons.1 h with rfl | hmem
    · rw [if_neg hfor]
      exact List.mem_cons_self
    · split_ifs
      · exact List.mem_cons_of_mem _ hmem
      · exact List.mem_cons_of_mem _ (mem_updateEntity_of_not hmem hfor)

end Keys

namespace SdapSystem

open NrSdapEntity

variable {s s' : SdapSystem} {ueId drb : Nat}

/-- No two entities are for one PDU session. -/
def KeysDistinct (s : SdapSystem) : Prop :=
  (s.entities.map NrSdapEntity.key).Nodup

theorem KeysDistinct.update (h : KeysDistinct s) {ueId : Nat} {pdusessionId : Int}
    {f : NrSdapEntity → NrSdapEntity} (hf : ∀ e, (f e).identity = e.identity) :
    KeysDistinct { s with entities := updateEntity ueId pdusessionId f s.entities } := by
  unfold KeysDistinct
  dsimp only
  rwa [map_key_updateEntity hf]

theorem KeysDistinct.newNrSdapEntity (h : KeysDistinct s) (d : DrbToAdd) {drb' : _}
    (hdrb : 0 < d.drbId ∧ d.drbId ≤ avlblDrb) :
    KeysDistinct { s with
      drb := drb'
      entities := NrStack.newNrSdapEntity s.entities d.isGnb d.hasSdapRx d.hasSdapTx d.ueId
        d.pdusessionId d.defaultDrb d.drbId d.mappedQfis } := by
  unfold KeysDistinct NrStack.newNrSdapEntity
  dsimp only
  split_ifs with hget
  · exact h
  · rwa [map_key_updateEntity fun e => identity_ueQfi2drbConfig hdrb _ _ _ e]
  · rw [List.map_cons, List.nodup_cons, key_create]
    refine ⟨fun hmem => hget ?_, h⟩
    obtain ⟨e, he, hkey⟩ := List.mem_map.1 hmem
    rw [getEntity_of_mem h he (isFor_iff_key.2 hkey)]
    rfl

theorem KeysDistinct.sublist (h : KeysDistinct s) {l : List NrSdapEntity}
    (hl : l.Sublist s.entities) : KeysDistinct { s with entities := l } :=
  List.Nodup.sublist (hl.map _) h

theorem sublist_nrSdapDeleteEntity {l l' : List NrSdapEntity} {ueId : Nat} {pdusessionId : Int}
    (h : nrSdapDeleteEntity l ueId pdusessionId = some l') : l'.Sublist l := by
  unfold nrSdapDeleteEntity at h
  split_ifs at h
  · cases h
    exact .refl _
  · cases h
    exact List.eraseP_sublist
  · cases h
    exact .refl _

theorem KeysDistinct.step (h : KeysDistinct s) {op : SdapUeOp} (hs : sdapUeStep s op = some s') :
    KeysDistinct s' := by
  cases op with
  | op op =>
    cases op with
    | addDrb d =>
      change s.addDrb d = some s' at hs
      unfold SdapSystem.addDrb at hs
      split_ifs at hs with hsome hrange
      · cases hs
        exact h
      · cases hs
        have hid : 0 < d.drbId ∧ d.drbId ≤ pdcpMaxDrbId := by omega
        exact h.newNrSdapEntity d hid
    | reconfigure c =>
      cases hs
      exact h.update (identity_reconfigure c)
    | releaseDrb ueId drbId =>
      cases hs
      unfold SdapSystem.releaseDrb
      split
      · exact h
      · exact h.update fun _ => rfl
    | dataInd ueId drbId noS1 buf =>
      cases hs
      unfold SdapSystem.dataInd
      split
      · exact h
      · exact h.update fun e => identity_rxEntity e _ _ _ _
    | dataReq enbFlag ueId rbId sdu qfi rqi pdusessionId =>
      cases hs
      unfold SdapSystem.dataReq
      split
      · exact h
      · exact h.update fun e => identity_txEntity e _ _ _ _ _
  | deleteEntity ueId pdusessionId =>
    obtain ⟨l, hl, rfl⟩ := Option.map_eq_some_iff.1 hs
    exact h.sublist (sublist_nrSdapDeleteEntity hl)
  | deleteUeEntities ueId =>
    cases hs
    exact h.sublist List.filter_sublist
  | removeUe ueId =>
    cases hs
    exact h

/-! ## After the release -/

/-- The DRB is gone, and no entity of the UE has a route to it. -/
structure Released (ueId drb : Nat) (s : SdapSystem) : Prop where
  gone : s.getDrb ueId drb = none
  avoids : ∀ e ∈ s.entities, e.ueId = ueId → e.Avoids drb

theorem Released.notMapped (h : Released ueId drb s) : NotMapped ueId drb s :=
  fun e he hue qfi => (h.avoids e he hue).qfi2drbMap_ne qfi

theorem Released.update (h : Released ueId drb s) {ue : Nat} {pdusessionId : Int}
    {f : NrSdapEntity → NrSdapEntity} (hid : ∀ e, (f e).identity = e.identity)
    (hf : ∀ e, ue = ueId → e.Avoids drb → (f e).Avoids drb) :
    Released ueId drb { s with entities := updateEntity ue pdusessionId f s.entities } := by
  refine ⟨h.gone, fun e he hue => ?_⟩
  rcases mem_updateEntity he with hmem | ⟨e₀, he₀, hget, rfl⟩
  · exact h.avoids e hmem hue
  · have hue₀ : e₀.ueId = ueId := (ueId_of_identity (hid e₀)).symm.trans hue
    exact hf e₀ ((isFor_of_getEntity hget).1.symm.trans hue₀) (h.avoids e₀ he₀ hue₀)

theorem Released.drb_update (h : Released ueId drb s) {ue rb : Nat} {d : Option PdcpDrb}
    (hne : d = none ∨ ¬ (ue = ueId ∧ rb = drb)) :
    Released ueId drb
      { s with drb := Function.update s.drb ue (Function.update (s.drb ue) rb d) } := by
  refine ⟨?_, h.avoids⟩
  rw [getDrb_update]
  split_ifs with hsame hrange
  · rfl
  · exact hne.resolve_right (not_not_intro ⟨hsame.1.symm, hsame.2.symm⟩)
  · exact h.gone

theorem Released.addDrb (h0 : drb ≠ 0) (h : Released ueId drb s) {d : DrbToAdd}
    (hne : ¬ (d.ueId = ueId ∧ d.drbId = drb)) (hs : s.addDrb d = some s') :
    Released ueId drb s' := by
  unfold SdapSystem.addDrb at hs
  split_ifs at hs with hsome hrange
  · cases hs
    exact h
  · cases hs
    have hid : 0 < d.drbId ∧ d.drbId ≤ pdcpMaxDrbId := by omega
    set cfg : PdcpDrb := ⟨d.isGnb, d.pdusessionId, d.hasSdapRx, d.hasSdapTx⟩
    have h₁ := @Released.drb_update s ueId drb h d.ueId d.drbId (some cfg) (.inr hne)
    unfold newNrSdapEntity
    split_ifs with hget hgnb
    · exact h₁
    · exact h₁.update (fun e => identity_ueQfi2drbConfig hid _ _ _ e) fun e hue he =>
        Avoids.ueQfi2drbConfig (fun heq => hne ⟨hue, heq⟩) _ _ _ he
    · refine ⟨h₁.gone, fun e he hue => ?_⟩
      rcases List.mem_cons.1 he with rfl | hmem
      · have hue' : d.ueId = ueId := by
          rw [← hue]
          exact (congrArg Prod.fst (key_create _ _ _ _ _ _ _ _)).symm
        exact avoids_create h0 (fun heq => hne ⟨hue', heq⟩) _ _ _ _ _ _ _
      · exact h₁.avoids e hmem hue

/-- No operation maps a QFI to the DRB, unless it configures it. -/
theorem Released.step (h0 : drb ≠ 0) (h : Released ueId drb s) {op : SdapUeOp}
    (hok : NotConfigured ueId drb s op) (hs : sdapUeStep s op = some s') :
    Released ueId drb s' := by
  cases op with
  | op op =>
    cases op with
    | addDrb d => exact h.addDrb h0 hok hs
    | reconfigure c =>
      cases hs
      refine h.update (identity_reconfigure c) fun e hue he => ?_
      exact Avoids.mapDel h0 _ (Avoids.ueQfi2drbConfig (fun heq => hok ⟨hue, heq⟩) _ _ _ he)
    | releaseDrb ue rb =>
      cases hs
      unfold SdapSystem.releaseDrb
      split
      · exact h
      · rename_i d _
        have h₁ := @Released.update s ueId drb h ue d.pdusessionId (fun e => e.releaseDrb rb)
          (fun _ => rfl) fun e _ he => he.releaseDrb h0 rb
        exact h₁.drb_update (.inl rfl)
    | dataInd ue rb noS1 buf =>
      cases hs
      unfold SdapSystem.dataInd
      split
      · exact h
      · rename_i d hd
        refine h.update (fun e => identity_rxEntity e _ _ _ _) fun e hue he => ?_
        refine he.rxEntity (fun heq => ?_) _ _ _
        rw [hue, heq, h.gone] at hd
        cases hd
    | dataReq enbFlag ue rbId sdu qfi rqi pdusessionId =>
      cases hs
      unfold SdapSystem.dataReq
      split
      · exact h
      · have h₁ := @Released.update s ueId drb h ue pdusessionId
          (fun e => (e.txEntity enbFlag rbId sdu qfi rqi).1)
          (fun e => identity_txEntity e _ _ _ _ _) fun e _ he => by
            rw [txEntity_fst]
            exact he.qfi2drbMap qfi
        exact ⟨h₁.gone, h₁.avoids⟩
  | deleteEntity ue pdusessionId =>
    obtain ⟨l, hl, rfl⟩ := Option.map_eq_some_iff.1 hs
    exact ⟨h.gone, fun e he => h.avoids e ((sublist_nrSdapDeleteEntity hl).subset he)⟩
  | deleteUeEntities ue =>
    cases hs
    exact ⟨h.gone, fun e he => h.avoids e (List.filter_sublist.subset he)⟩
  | removeUe ue =>
    cases hs
    refine ⟨?_, h.avoids⟩
    have hgone := h.gone
    unfold getDrb at hgone ⊢
    dsimp only
    by_cases hue : ueId = ue
    · subst hue
      simp
    · rwa [Function.update_of_ne hue]

end SdapSystem

open SdapSystem NrSdapEntity

/-- No route of the UE leads to the DRB but the rules of its PDU session. -/
def OnlyRules (ueId drb : Nat) (pdusessionId : Int) (s : SdapSystem) : Prop :=
  ∀ e ∈ s.entities, e.ueId = ueId → e.defaultDrb ≠ drb ∧
    (e.pdusessionId ≠ pdusessionId → ∀ qfi, (e.qfi2drbTable qfi).drbId ≠ drb)

section Release

variable {s : SdapSystem} {ueId drb : Nat} {cfg : PdcpDrb}

theorem keysDistinct_of_reach (h : Reach sdapUeStep anyStep sdapInit s) : KeysDistinct s :=
  h.invariant List.nodup_nil fun _ _ _ hkeys _ hs => hkeys.step hs

theorem ne_zero_of_getDrb (hdrb : s.getDrb ueId drb = some cfg) : drb ≠ 0 := by
  rintro rfl
  rw [getDrb_zero] at hdrb
  cases hdrb

theorem releaseDrb_eq (hdrb : s.getDrb ueId drb = some cfg) : s.releaseDrb ueId drb =
    { s with
      entities := updateEntity ueId cfg.pdusessionId (fun e => e.releaseDrb drb) s.entities
      drb := Function.update s.drb ueId (Function.update (s.drb ueId) drb none) } := by
  unfold SdapSystem.releaseDrb
  rw [hdrb]

/-- The release clears the rules, and there was no other route. -/
theorem released_of_onlyRules (hkeys : KeysDistinct s) (hdrb : s.getDrb ueId drb = some cfg)
    (h : OnlyRules ueId drb cfg.pdusessionId s) : Released ueId drb (s.releaseDrb ueId drb) := by
  have h0 := ne_zero_of_getDrb hdrb
  rw [releaseDrb_eq hdrb]
  refine ⟨?_, fun e he hue => ?_⟩
  · refine (getDrb_update (s := s) ueId drb none ueId drb).trans ?_
    rw [if_pos ⟨rfl, rfl⟩, ite_self]
  · rcases mem_updateEntity he with hmem | ⟨e₀, he₀, hget, rfl⟩
    · by_cases hsession : e.pdusessionId = cfg.pdusessionId
      · -- the entity of the session is the changed one
        have hget := getEntity_of_mem hkeys hmem ⟨hue, hsession⟩
        have hchanged : e.releaseDrb drb ∈
            updateEntity ueId cfg.pdusessionId (fun e => e.releaseDrb drb) s.entities :=
          mem_updateEntity_of_get hget
        have hkeys' := @KeysDistinct.update s hkeys ueId cfg.pdusessionId
          (fun e => e.releaseDrb drb) fun _ => rfl
        have heq : e = e.releaseDrb drb := List.inj_on_of_nodup_map hkeys' he hchanged rfl
        rw [heq]
        exact avoids_releaseDrb h0 (h e hmem hue).1
      · exact ⟨(h e hmem hue).1, (h e hmem hue).2 hsession⟩
    · exact avoids_releaseDrb h0 (h e₀ he₀ hue).1

/-- A configuration of another DRB that releases a QFI. -/
def releaseQfi (ueId drb : Nat) (pdusessionId : Int) (qfi : Qfi) : SdapReconfiguration where
  ueId := ueId
  drbId := if drb = 1 then 2 else 1
  drbId_valid := by split <;> decide
  pdusessionId := pdusessionId
  hasSdapRx := false
  hasSdapTx := false
  mappedQfis := []
  releasedQfis := [qfi]

/-- A QFI without rule falls back to the default DRB. -/
theorem mapped_releaseQfi (hkeys : KeysDistinct s) {e : NrSdapEntity} (he : e ∈ s.entities)
    (hue : e.ueId = ueId) (hdefault : e.defaultDrb = drb) :
    ¬ NotMapped ueId drb (s.reconfigure (releaseQfi ueId drb e.pdusessionId 0)) := by
  intro hmapped
  have hget := getEntity_of_mem hkeys he ⟨hue, rfl⟩
  refine hmapped _ (mem_updateEntity_of_get hget) hue 0 ?_
  rw [qfi2drbMap_snd]
  have hrule (rx tx : Bool) (drb' : Nat) :
      ((e.reconfigure [] [0] drb' rx tx).qfi2drbTable 0).drbId = 0 := by
    simp [NrSdapEntity.reconfigure, ueQfi2drbConfig, qfi2drbMapDel, NrSdapEntity.setRule]
  exact (if_neg (not_not_intro (hrule _ _ _))).trans hdefault

end Release

/-- A DRB that is not the default one. -/
def sdapOtherDrb : DrbToAdd :=
  { sdapDefaultDrb with drbId := 2, mappedQfis := [5] }

end NrStack
