import NrStack.Gtpu.Tunnels

/-!
# The two tables agree

`Consistent` : the TEIDs of `te2ue_mapping` are those of the bearers, and each leads back to the UE
of its one bearer. It is kept when a tunnel is added (`Consistent.add`), when some are removed
(`Consistent.remove`), when those of a UE are moved to another id (`Consistent.move`) and when
their TEIDs stay (`Consistent.modify`). What each operation does to the two tables is then said once
(`createTunnel_spec`, `deleteOneTunnel_spec`, ..).
-/

namespace NrStack

open Std

namespace GtpEndPoints

/-- The invariant. -/
structure Consistent (s : GtpEndPoints) : Prop where
  teids : ∀ teid, teid ∈ s.te2ueMapping ↔
    ∃ ueId key bearer, s.bearer? ueId key = some bearer ∧ bearer.teidIncoming.toUInt64 = teid
  nonzero : ∀ {ueId key bearer}, s.bearer? ueId key = some bearer → bearer.teidIncoming ≠ 0
  owner : ∀ {ueId key bearer}, s.bearer? ueId key = some bearer →
    ∃ data, s.handleGpdu bearer.teidIncoming = some data ∧ data.ueId = ueId
  unique : ∀ {ueId key bearer ueId' key' bearer'}, s.bearer? ueId key = some bearer →
    s.bearer? ueId' key' = some bearer' → bearer.teidIncoming = bearer'.teidIncoming →
      ueId = ueId' ∧ key = key'

theorem consistent_init : init.Consistent where
  teids teid := by
    refine iff_of_false ExtTreeMap.not_mem_empty ?_
    rintro ⟨_, _, _, h, -⟩
    simp [bearer?, init] at h
  nonzero h := by simp [bearer?, init] at h
  owner h := by simp [bearer?, init] at h
  unique h := by simp [bearer?, init] at h

/-- A TEID that is left behind. -/
theorem not_consistent_of_orphan {s : GtpEndPoints} {teid : UInt64} (hmem : teid ∈ s.te2ueMapping)
    (hno : ∀ ueId key bearer, s.bearer? ueId key = some bearer →
      bearer.teidIncoming.toUInt64 ≠ teid) : ¬s.Consistent := by
  intro hs
  obtain ⟨ueId, key, bearer, hb, hteid⟩ := (hs.teids teid).1 hmem
  exact hno ueId key bearer hb hteid

section Lookups

variable {m : ExtTreeMap UInt64 GtpuBearers} {t : ExtTreeMap UInt64 UeidData}
  {bearers : GtpuBearers} {ueId : UInt64}

theorem bearer?_insert (u key : UInt64) :
    bearer? ⟨m.insert ueId bearers, t⟩ u key =
      if ueId = u then bearers[key]? else bearer? ⟨m, t⟩ u key := by
  unfold bearer?
  rw [getElem?_insert_ite]
  split_ifs <;> rfl

theorem bearer?_erase (u key : UInt64) :
    bearer? ⟨m.erase ueId, t⟩ u key = if ueId = u then none else bearer? ⟨m, t⟩ u key := by
  unfold bearer?
  rw [getElem?_erase_ite]
  split_ifs <;> rfl

end Lookups

theorem bearer?_of_ue {s : GtpEndPoints} {ueId : UInt64} {bearers : GtpuBearers}
    (h : s.ue2teMapping[ueId]? = some bearers) (key : UInt64) :
    s.bearer? ueId key = bearers[key]? := by
  rw [bearer?, h, Option.bind_some]

theorem bearer?_of_no_ue {s : GtpEndPoints} {ueId : UInt64}
    (h : s.ue2teMapping[ueId]? = none) (key : UInt64) : s.bearer? ueId key = none := by
  rw [bearer?, h, Option.bind_none]

/-! ## What keeps the invariant -/

namespace Consistent

variable {s s' : GtpEndPoints} (hs : s.Consistent)
include hs

theorem mem_of_bearer {ueId key : UInt64} {bearer : GtpuBearer}
    (h : s.bearer? ueId key = some bearer) : bearer.teidIncoming.toUInt64 ∈ s.te2ueMapping :=
  (hs.teids _).2 ⟨ueId, key, bearer, h, rfl⟩

/-- The incoming TEIDs stay as they are. -/
theorem modify (hte : s'.te2ueMapping = s.te2ueMapping)
    (hteid : ∀ u k, (s'.bearer? u k).map GtpuBearer.teidIncoming =
      (s.bearer? u k).map GtpuBearer.teidIncoming) : s'.Consistent := by
  have hback {u k b'} (h : s'.bearer? u k = some b') :
      ∃ b, s.bearer? u k = some b ∧ b.teidIncoming = b'.teidIncoming := by
    have h' := hteid u k
    rw [h, Option.map_some] at h'
    exact Option.map_eq_some_iff.1 h'.symm
  constructor
  · intro teid
    rw [hte, hs.teids]
    constructor
    · rintro ⟨u, k, b, hb, rfl⟩
      have h' := hteid u k
      rw [hb, Option.map_some] at h'
      obtain ⟨b', hb', heq⟩ := Option.map_eq_some_iff.1 h'
      exact ⟨u, k, b', hb', by rw [heq]⟩
    · rintro ⟨u, k, b', hb', rfl⟩
      obtain ⟨b, hb, heq⟩ := hback hb'
      exact ⟨u, k, b, hb, by rw [heq]⟩
  · intro u k b' hb'
    obtain ⟨b, hb, heq⟩ := hback hb'
    rw [← heq]
    exact hs.nonzero hb
  · intro u k b' hb'
    obtain ⟨b, hb, heq⟩ := hback hb'
    rw [← heq, handleGpdu, hte]
    exact hs.owner hb
  · intro u k b' u₂ k₂ b₂' hb' hb₂' hsame
    obtain ⟨b, hb, heq⟩ := hback hb'
    obtain ⟨b₂, hb₂, heq₂⟩ := hback hb₂'
    exact hs.unique hb hb₂ (by rw [heq, heq₂, hsame])

/-- A tunnel with a fresh TEID is added. -/
theorem add {ueId key : UInt64} {bearer : GtpuBearer} {data : UeidData}
    (hnone : s.bearer? ueId key = none) (hne : bearer.teidIncoming ≠ 0)
    (hfresh : bearer.teidIncoming.toUInt64 ∉ s.te2ueMapping) (hdata : data.ueId = ueId)
    (hte : s'.te2ueMapping = s.te2ueMapping.insert bearer.teidIncoming.toUInt64 data)
    (hb : ∀ u k, s'.bearer? u k =
      if ueId = u ∧ key = k then some bearer else s.bearer? u k) : s'.Consistent := by
  have hold {u k b} (h : s.bearer? u k = some b) : ¬(ueId = u ∧ key = k) := by
    rintro ⟨rfl, rfl⟩
    rw [hnone] at h
    cases h
  have hdiff {u k b} (h : s.bearer? u k = some b) :
      bearer.teidIncoming.toUInt64 ≠ b.teidIncoming.toUInt64 := fun heq =>
    hfresh (heq ▸ hs.mem_of_bearer h)
  constructor
  · intro teid
    rw [hte, mem_insert_iff, hs.teids]
    constructor
    · rintro (rfl | ⟨u, k, b, h, rfl⟩)
      · exact ⟨ueId, key, bearer, by rw [hb, if_pos ⟨rfl, rfl⟩], rfl⟩
      · exact ⟨u, k, b, by rw [hb, if_neg (hold h), h], rfl⟩
    · rintro ⟨u, k, b, h, rfl⟩
      rw [hb] at h
      split_ifs at h
      · cases h
        exact .inl rfl
      · exact .inr ⟨u, k, b, h, rfl⟩
  · intro u k b h
    rw [hb] at h
    split_ifs at h
    · cases h
      exact hne
    · exact hs.nonzero h
  · intro u k b h
    rw [hb] at h
    rw [handleGpdu, hte, getElem?_insert_ite]
    split_ifs at h with hnew
    · cases h
      rw [if_pos rfl]
      exact ⟨data, rfl, hdata.trans hnew.1⟩
    · rw [if_neg (hdiff h)]
      exact hs.owner h
  · intro u k b u₂ k₂ b₂ h h₂ hsame
    rw [hb] at h h₂
    split_ifs at h h₂ with hnew hnew₂ hnew₂
    · exact ⟨hnew.1.symm.trans hnew₂.1, hnew.2.symm.trans hnew₂.2⟩
    · cases h
      exact absurd (congrArg UInt32.toUInt64 hsame) (hdiff h₂)
    · cases h₂
      exact absurd (congrArg UInt32.toUInt64 hsame.symm) (hdiff h)
    · exact hs.unique h h₂ hsame

/-- What is kept outside of `D`. -/
theorem handleGpdu_of_kept {D : UInt64 → UInt64 → Prop}
    (hkeep : ∀ teid : UInt64, (∀ u k b, D u k → s.bearer? u k = some b →
      b.teidIncoming.toUInt64 ≠ teid) → s'.te2ueMapping[teid]? = s.te2ueMapping[teid]?)
    {u k : UInt64} {b : GtpuBearer} (hd : ¬D u k) (h : s.bearer? u k = some b) :
    s'.handleGpdu b.teidIncoming = s.handleGpdu b.teidIncoming := by
  refine hkeep _ fun u' k' b' hd' hb' heq => ?_
  obtain ⟨rfl, rfl⟩ := hs.unique hb' h (UInt32.toUInt64_inj.1 heq)
  exact hd hd'

/-- The tunnels of `D` are removed. -/
theorem remove (D : UInt64 → UInt64 → Prop) (hnone : ∀ u k, D u k → s'.bearer? u k = none)
    (hrest : ∀ u k, ¬D u k → s'.bearer? u k = s.bearer? u k)
    (hdel : ∀ u k b, D u k → s.bearer? u k = some b → s'.handleGpdu b.teidIncoming = none)
    (hkeep : ∀ teid : UInt64, (∀ u k b, D u k → s.bearer? u k = some b →
      b.teidIncoming.toUInt64 ≠ teid) → s'.te2ueMapping[teid]? = s.te2ueMapping[teid]?) :
    s'.Consistent := by
  have hback {u k b} (h : s'.bearer? u k = some b) : ¬D u k ∧ s.bearer? u k = some b := by
    by_cases hd : D u k
    · rw [hnone u k hd] at h
      cases h
    · exact ⟨hd, by rw [← hrest u k hd, h]⟩
  constructor
  · intro teid
    constructor
    · intro hmem
      obtain ⟨data, hdata⟩ := mem_iff_getElem?.1 hmem
      by_cases hd : ∃ u k b, D u k ∧ s.bearer? u k = some b ∧ b.teidIncoming.toUInt64 = teid
      · obtain ⟨u, k, b, hd, hb, rfl⟩ := hd
        have := hdel u k b hd hb
        rw [handleGpdu, hdata] at this
        cases this
      · have hold : teid ∈ s.te2ueMapping := mem_iff_getElem?.2 ⟨data, by
          rw [← hkeep teid fun u k b hD hb heq => hd ⟨u, k, b, hD, hb, heq⟩, hdata]⟩
        obtain ⟨u, k, b, hb, rfl⟩ := (hs.teids teid).1 hold
        exact ⟨u, k, b, by rw [hrest u k fun hD => hd ⟨u, k, b, hD, hb, rfl⟩, hb], rfl⟩
    · rintro ⟨u, k, b, h, rfl⟩
      obtain ⟨hd, hb⟩ := hback h
      obtain ⟨data, hdata, -⟩ := hs.owner hb
      exact mem_iff_getElem?.2 ⟨data, (hs.handleGpdu_of_kept hkeep hd hb).trans hdata⟩
  · intro u k b h
    exact hs.nonzero (hback h).2
  · intro u k b h
    obtain ⟨hd, hb⟩ := hback h
    rw [hs.handleGpdu_of_kept hkeep hd hb]
    exact hs.owner hb
  · intro u k b u₂ k₂ b₂ h h₂ hsame
    exact hs.unique (hback h).2 (hback h₂).2 hsame

/-- The tunnels of `oldUeId` become those of `newUeId`, which had none. -/
theorem move {oldUeId newUeId : UInt64}
    (hnone : ∀ k, s.bearer? newUeId k = none)
    (hb : ∀ u k, s'.bearer? u k = if u = oldUeId then none
      else if u = newUeId then s.bearer? oldUeId k else s.bearer? u k)
    (hte : ∀ teid : UInt64, s'.te2ueMapping[teid]? =
      s.te2ueMapping[teid]?.map (UeidData.rename oldUeId newUeId)) : s'.Consistent := by
  have hback {u k b} (h : s'.bearer? u k = some b) :
      ∃ v, s.bearer? v k = some b ∧ u = if v = oldUeId then newUeId else v := by
    rw [hb] at h
    split_ifs at h with ho hn
    · exact ⟨oldUeId, h, by rw [if_pos rfl, hn]⟩
    · exact ⟨u, h, by rw [if_neg ho]⟩
  have hnew {v k b} (h : s.bearer? v k = some b) : v ≠ newUeId := by
    rintro rfl
    rw [hnone] at h
    cases h
  have hforw {v k b} (h : s.bearer? v k = some b) :
      s'.bearer? (if v = oldUeId then newUeId else v) k = some b := by
    by_cases ho : v = oldUeId
    · rw [if_pos ho, hb, if_neg (ho ▸ (hnew h).symm), if_pos rfl, ← ho, h]
    · rw [if_neg ho, hb, if_neg ho, if_neg (hnew h), h]
  constructor
  · intro teid
    rw [mem_iff_getElem?, hte]
    have hiff : (∃ data, s.te2ueMapping[teid]?.map (UeidData.rename oldUeId newUeId) = some data) ↔
        teid ∈ s.te2ueMapping := by
      rw [← Option.isSome_iff_exists, Option.isSome_map, ExtTreeMap.isSome_getElem?_iff_mem]
    rw [hiff, hs.teids]
    constructor
    · rintro ⟨v, k, b, h, rfl⟩
      exact ⟨_, k, b, hforw h, rfl⟩
    · rintro ⟨u, k, b, h, rfl⟩
      obtain ⟨v, hv, -⟩ := hback h
      exact ⟨v, k, b, hv, rfl⟩
  · intro u k b h
    obtain ⟨v, hv, -⟩ := hback h
    exact hs.nonzero hv
  · intro u k b h
    obtain ⟨v, hv, rfl⟩ := hback h
    obtain ⟨data, hdata, rfl⟩ := hs.owner hv
    rw [handleGpdu] at hdata
    rw [handleGpdu, hte, hdata]
    refine ⟨_, rfl, ?_⟩
    unfold UeidData.rename
    split_ifs <;> rfl
  · intro u k b u₂ k₂ b₂ h h₂ hsame
    obtain ⟨v, hv, rfl⟩ := hback h
    obtain ⟨v₂, hv₂, rfl⟩ := hback h₂
    obtain ⟨rfl, rfl⟩ := hs.unique hv hv₂ hsame
    exact ⟨rfl, rfl⟩

end Consistent

/-! ## The loop of `gtpv1u_update_ue_id` -/

section Loop

variable {oldUeId newUeId : UInt64} {b' : GtpuBearers} {t' : ExtTreeMap UInt64 UeidData}

/-- Every position from `i` on is the id of a bearer. -/
def Covers (i : ℕ) (bearers : GtpuBearers) : Prop :=
  ∀ j, i ≤ j → j < bearers.size → UInt64.ofNat j ∈ bearers

theorem Covers.tail {i : ℕ} {bearers : GtpuBearers} (h : Covers i bearers) :
    Covers (i + 1) bearers :=
  fun j hj => h j (Nat.le_of_succ_le hj)

/-- The TEID of a bearer at a position from `i` on. -/
def TeidFrom (i : ℕ) (bearers : GtpuBearers) (teid : UInt64) : Prop :=
  ∃ j bearer, i ≤ j ∧ j < bearers.size ∧ bearers[UInt64.ofNat j]? = some bearer ∧
    bearer.teidIncoming.toUInt64 = teid

theorem updateUeIds_succ {fuel i : ℕ} {bearers : GtpuBearers} {te2ue : ExtTreeMap UInt64 UeidData}
    (hi : i < bearers.size) :
    updateUeIds oldUeId newUeId (fuel + 1) i bearers te2ue =
      updateUeIds oldUeId newUeId fuel (i + 1)
        (bearers.insert (UInt64.ofNat i) (bearers.getD (UInt64.ofNat i) .zero))
        (te2ue.insert (bearers.getD (UInt64.ofNat i) .zero).teidIncoming.toUInt64
          ((te2ue.getD (bearers.getD (UInt64.ofNat i) .zero).teidIncoming.toUInt64 .zero).rename
            oldUeId newUeId)) :=
  if_pos hi

theorem updateUeIds_done {fuel i : ℕ} {bearers : GtpuBearers} {te2ue : ExtTreeMap UInt64 UeidData}
    (hi : ¬i < bearers.size) :
    updateUeIds oldUeId newUeId (fuel + 1) i bearers te2ue = some (bearers, te2ue) :=
  if_neg hi

theorem mem_of_updateUeIds {teid : UInt64} : ∀ {fuel i : ℕ} {bearers : GtpuBearers}
    {te2ue : ExtTreeMap UInt64 UeidData},
    updateUeIds oldUeId newUeId fuel i bearers te2ue = some (b', t') → teid ∈ te2ue → teid ∈ t'
  | fuel + 1, i, bearers, te2ue, h, hmem => by
    by_cases hi : i < bearers.size
    · rw [updateUeIds_succ hi] at h
      exact mem_of_updateUeIds h (mem_insert_iff.2 (.inr hmem))
    · rw [updateUeIds_done hi] at h
      cases h
      exact hmem

/-- A position without a bearer puts the TEID 0 into the table. -/
theorem zero_mem_of_not_covers : ∀ {fuel i : ℕ} {bearers : GtpuBearers}
    {te2ue : ExtTreeMap UInt64 UeidData},
    updateUeIds oldUeId newUeId fuel i bearers te2ue = some (b', t') → ¬Covers i bearers → 0 ∈ t'
  | fuel + 1, i, bearers, te2ue, h, hcovers => by
    by_cases hi : i < bearers.size
    · rw [updateUeIds_succ hi] at h
      by_cases hmem : UInt64.ofNat i ∈ bearers
      · rw [insert_getD_of_mem _ hmem] at h
        refine zero_mem_of_not_covers h fun htail => hcovers fun j hj hlt => ?_
        rcases hj.eq_or_lt with rfl | hj
        · exact hmem
        · exact htail j hj hlt
      · refine mem_of_updateUeIds h (mem_insert_iff.2 (.inl ?_))
        rw [ExtTreeMap.getD_eq_getD_getElem?, ExtTreeMap.getElem?_eq_none hmem]
        rfl
    · exact absurd (fun j hj hlt => absurd (hj.trans_lt hlt) hi) hcovers

theorem rename_rename (data : UeidData) :
    (data.rename oldUeId newUeId).rename oldUeId newUeId = data.rename oldUeId newUeId := by
  unfold UeidData.rename
  split_ifs <;> rfl

/-- Without a gap the loop renames the TEIDs of the bearers, and adds none. -/
theorem updateUeIds_of_covers : ∀ {fuel i : ℕ} {bearers : GtpuBearers}
    {te2ue : ExtTreeMap UInt64 UeidData},
    updateUeIds oldUeId newUeId fuel i bearers te2ue = some (b', t') → Covers i bearers →
    (∀ teid, TeidFrom i bearers teid → teid ∈ te2ue) →
      b' = bearers ∧ bearers.size < i + fuel ∧
      (∀ teid : UInt64, TeidFrom i bearers teid →
        t'[teid]? = te2ue[teid]?.map (UeidData.rename oldUeId newUeId)) ∧
      ∀ teid : UInt64, ¬TeidFrom i bearers teid → t'[teid]? = te2ue[teid]?
  | fuel + 1, i, bearers, te2ue, h, hcovers, hmem => by
    by_cases hi : i < bearers.size
    swap
    · rw [updateUeIds_done hi] at h
      cases h
      refine ⟨rfl, by omega, fun teid hteid => ?_, fun _ _ => rfl⟩
      obtain ⟨j, _, hj, hlt, -⟩ := hteid
      exact absurd (hj.trans_lt hlt) hi
    have hcov := hcovers i le_rfl hi
    obtain ⟨bearer, hb⟩ := mem_iff_getElem?.1 hcov
    have hhere : TeidFrom i bearers bearer.teidIncoming.toUInt64 :=
      ⟨i, bearer, le_rfl, hi, hb, rfl⟩
    obtain ⟨data, hdata⟩ := mem_iff_getElem?.1 (hmem _ hhere)
    have hget : bearers.getD (UInt64.ofNat i) .zero = bearer := by
      rw [ExtTreeMap.getD_eq_getD_getElem?, hb, Option.getD_some]
    have hgetd : te2ue.getD bearer.teidIncoming.toUInt64 .zero = data := by
      rw [ExtTreeMap.getD_eq_getD_getElem?, hdata, Option.getD_some]
    rw [updateUeIds_succ hi, insert_getD_of_mem _ hcov, hget, hgetd] at h
    have hfrom (teid : UInt64) : TeidFrom i bearers teid ↔
        bearer.teidIncoming.toUInt64 = teid ∨ TeidFrom (i + 1) bearers teid := by
      constructor
      · rintro ⟨j, b, hj, hlt, hbj, rfl⟩
        rcases hj.eq_or_lt with rfl | hj
        · rw [hb] at hbj
          cases hbj
          exact .inl rfl
        · exact .inr ⟨j, b, hj, hlt, hbj, rfl⟩
      · rintro (rfl | ⟨j, b, hj, hlt, hbj, rfl⟩)
        · exact hhere
        · exact ⟨j, b, Nat.le_of_succ_le hj, hlt, hbj, rfl⟩
    obtain ⟨hb', hfuel, hin, hout⟩ := updateUeIds_of_covers h hcovers.tail fun teid hteid =>
      mem_insert_iff.2 (.inr (hmem teid ((hfrom teid).2 (.inr hteid))))
    refine ⟨hb', by omega, fun teid hteid => ?_, fun teid hteid => ?_⟩
    · by_cases htail : TeidFrom (i + 1) bearers teid
      · rw [hin teid htail, getElem?_insert_ite]
        split_ifs with heq
        · rw [← heq, hdata, Option.map_some, Option.map_some, rename_rename]
        · rfl
      · have heq : bearer.teidIncoming.toUInt64 = teid :=
          ((hfrom teid).1 hteid).resolve_right htail
        rw [hout teid htail, getElem?_insert_ite, if_pos heq, ← heq, hdata, Option.map_some]
    · have hno := not_or.1 (mt (hfrom teid).2 hteid)
      rw [hout teid hno.2, getElem?_insert_ite, if_neg hno.1]

/-- Ids without a gap are the positions : as many keys as bearers. -/
theorem Covers.exists_of_mem {bearers : GtpuBearers} (h : Covers 0 bearers)
    (hsize : bearers.size < 2 ^ 32) {key : UInt64} (hkey : key ∈ bearers) :
    ∃ j < bearers.size, UInt64.ofNat j = key := by
  have hnodup : ((List.range bearers.size).map UInt64.ofNat).Nodup := by
    refine List.Nodup.map_on (fun a ha b hb hab => ?_) List.nodup_range
    rw [List.mem_range] at ha hb
    have := congrArg UInt64.toNat hab
    rw [UInt64.toNat_ofNat', UInt64.toNat_ofNat'] at this
    omega
  have hsub : (List.range bearers.size).map UInt64.ofNat ⊆ bearers.keys := by
    intro k hk
    obtain ⟨j, hj, rfl⟩ := List.mem_map.1 hk
    exact ExtTreeMap.mem_keys.2 (h j (Nat.zero_le _) (List.mem_range.1 hj))
  have hperm := (hnodup.subperm hsub).perm_of_length_le (by
    rw [ExtTreeMap.length_keys, List.length_map, List.length_range])
  obtain ⟨j, hj, rfl⟩ := List.mem_map.1 (hperm.mem_iff.2 (ExtTreeMap.mem_keys.2 hkey))
  exact ⟨j, List.mem_range.1 hj, rfl⟩

end Loop

/-! ## The operations -/

variable {s s' : GtpEndPoints}

theorem bearer?_modifyBearer (ueId key : UInt64) (f : GtpuBearer → GtpuBearer) (u k : UInt64) :
    (s.modifyBearer ueId key f).bearer? u k =
      if ueId = u ∧ key = k then (s.bearer? u k).map f else s.bearer? u k := by
  unfold modifyBearer
  split
  next h =>
    split_ifs with heq
    · rw [← heq.1, bearer?_of_no_ue h, Option.map_none]
    · rfl
  next bearers h =>
    split
    next hb =>
      split_ifs with heq
      · rw [← heq.1, ← heq.2, bearer?_of_ue h, hb, Option.map_none]
      · rfl
    next bearer hb =>
      rw [bearer?_insert, getElem?_insert_ite]
      by_cases hu : ueId = u
      · subst hu
        rw [bearer?_of_ue h, if_pos rfl]
        by_cases hk : key = k
        · rw [if_pos hk, if_pos ⟨rfl, hk⟩, ← hk, hb, Option.map_some]
        · rw [if_neg hk, if_neg fun h => hk h.2]
      · rw [if_neg hu, if_neg fun h => hu h.1]

theorem te2ueMapping_modifyBearer (ueId key : UInt64) (f : GtpuBearer → GtpuBearer) :
    (s.modifyBearer ueId key f).te2ueMapping = s.te2ueMapping := by
  unfold modifyBearer
  split
  · rfl
  · split <;> rfl

theorem Consistent.modifyBearer (hs : s.Consistent) (ueId key : UInt64)
    {f : GtpuBearer → GtpuBearer} (hf : ∀ b, (f b).teidIncoming = b.teidIncoming) :
    (s.modifyBearer ueId key f).Consistent := by
  refine hs.modify (te2ueMapping_modifyBearer ueId key f) fun u k => ?_
  rw [bearer?_modifyBearer]
  split_ifs
  · rw [Option.map_map]
    exact congrArg (Option.map · _) (funext hf)
  · rfl

theorem gtpv1uNewTeid_ne_zero (r : Fin (2 ^ 31) × Fin (2 ^ 31)) : gtpv1uNewTeid r ≠ 0 := by
  intro h
  have h' := congrArg UInt32.toNat h
  have h₁ := r.1.isLt
  have h₂ : r.2.val % (2 ^ 31 - 1 - 1) < 2 ^ 31 - 1 - 1 := Nat.mod_lt _ (by norm_num)
  rw [gtpv1uNewTeid, UInt32.toNat_ofNat', UInt32.toNat_zero, Nat.mod_eq_of_lt (by omega)] at h'
  omega

theorem freshTeid_spec {draws : List (Fin (2 ^ 31) × Fin (2 ^ 31))} {teid : UInt32}
    (h : s.freshTeid draws = some teid) : teid ≠ 0 ∧ teid.toUInt64 ∉ s.te2ueMapping := by
  obtain ⟨r, -, rfl⟩ := List.mem_map.1 (List.mem_of_find?_eq_some h)
  refine ⟨gtpv1uNewTeid_ne_zero r, fun hmem => ?_⟩
  have hnot := List.find?_some h
  rw [ExtTreeMap.contains_iff_mem.2 hmem] at hnot
  cases hnot

/-- What `newGtpuCreateTunnel` leaves behind. -/
theorem createTunnel_spec {r : CreateTunnel} {draws : List (Fin (2 ^ 31) × Fin (2 ^ 31))}
    (h : s.newGtpuCreateTunnel r draws = some s') :
    ∃ bearer : GtpuBearer, bearer.teidIncoming ≠ 0 ∧
      bearer.teidIncoming.toUInt64 ∉ s.te2ueMapping ∧
      s'.te2ueMapping = s.te2ueMapping.insert bearer.teidIncoming.toUInt64 r.data ∧
      ∀ u k, s'.bearer? u k =
        if r.ueId = u ∧ bearerKey r.outgoingBearerId = k then some bearer
        else if r.ueId = u ∧ (s.bearer? r.ueId (bearerKey r.outgoingBearerId)).isSome then none
        else s.bearer? u k := by
  unfold newGtpuCreateTunnel at h
  simp only at h
  split at h
  · cases h
  next incomingTeid hfresh =>
  split at h
  · cases h
  next tmp _ =>
  obtain ⟨hne, hnot⟩ := freshTeid_spec hfresh
  cases h
  refine ⟨{ tmp with
    teidIncoming := incomingTeid
    outgoingPort := r.port.toUInt32.toUInt16
    teidOutgoing := r.outgoingTeid
    outgoingQfi := r.outgoingQfi }, hne, hnot, rfl, fun u k => ?_⟩
  rw [bearer?_insert, getElem?_insert_ite, ExtTreeMap.getD_eq_getD_getElem?]
  by_cases hu : r.ueId = u
  swap
  · have hne (p : Prop) : ¬(r.ueId = u ∧ p) := fun h => hu h.1
    rw [if_neg hu, if_neg (hne _), if_neg (hne _)]
    by_cases hsome : (s.bearer? r.ueId (bearerKey r.outgoingBearerId)).isSome
    · rw [if_pos hsome, bearer?_erase, if_neg hu]
      rfl
    · rw [if_neg hsome]
      rfl
  · subst hu
    by_cases hk : bearerKey r.outgoingBearerId = k
    · rw [if_pos rfl, if_pos hk, if_pos ⟨rfl, hk⟩]
    · have hne : ¬(r.ueId = r.ueId ∧ bearerKey r.outgoingBearerId = k) := fun h => hk h.2
      rw [if_pos rfl, if_neg hk, if_neg hne]
      by_cases hsome : (s.bearer? r.ueId (bearerKey r.outgoingBearerId)).isSome
      · rw [if_pos hsome, if_pos ⟨rfl, hsome⟩, getElem?_erase_ite, if_pos rfl]
        exact ExtTreeMap.getElem?_empty
      · rw [if_neg hsome, if_neg fun h => hsome h.2, bearer?]
        cases s.ue2teMapping[r.ueId]? with
        | none => exact ExtTreeMap.getElem?_empty
        | some bearers => rfl

/-- What `newGtpuDeleteOneTunnel` does to a bearer it finds. -/
theorem deleteOneTunnel_spec {ueId : UInt64} {rbId : Int32} {bearer : GtpuBearer}
    (h : s.bearer? ueId (bearerKey rbId) = some bearer) :
    (s.newGtpuDeleteOneTunnel ueId rbId).te2ueMapping =
        s.te2ueMapping.erase bearer.teidIncoming.toInt32.toInt64.toUInt64 ∧
      ∀ u k, (s.newGtpuDeleteOneTunnel ueId rbId).bearer? u k =
        if ueId = u ∧ bearerKey rbId = k then none else s.bearer? u k := by
  obtain ⟨bearers, hue, hb⟩ := Option.bind_eq_some_iff.1 h
  unfold newGtpuDeleteOneTunnel
  rw [hue]
  simp only [hb, true_and]
  intro u k
  rw [bearer?_insert, getElem?_erase_ite]
  by_cases hu : ueId = u
  · subst hu
    rw [bearer?_of_ue hue, if_pos rfl]
    by_cases hk : bearerKey rbId = k
    · rw [if_pos hk, if_pos ⟨rfl, hk⟩]
    · rw [if_neg hk, if_neg fun h => hk h.2]
  · rw [if_neg hu, if_neg fun h => hu h.1]
    rfl

theorem deleteOneTunnel_of_none {ueId : UInt64} {rbId : Int32}
    (h : s.bearer? ueId (bearerKey rbId) = none) : s.newGtpuDeleteOneTunnel ueId rbId = s := by
  unfold newGtpuDeleteOneTunnel
  split
  · rfl
  next bearers hue =>
    rw [bearer?_of_ue hue] at h
    rw [h]

/-- Erasing one TEID after the other. -/
theorem getElem?_foldl_erase {β γ : Type*} (f : β → UInt64) (l : List β) (t : ExtTreeMap UInt64 γ)
    (teid : UInt64) : (l.foldl (fun t b => t.erase (f b)) t)[teid]? =
      if ∃ b ∈ l, f b = teid then none else t[teid]? := by
  induction l generalizing t with
  | nil => simp
  | cons b l ih =>
    rw [List.foldl_cons, ih, getElem?_erase_ite]
    by_cases hrest : ∃ b ∈ l, f b = teid
    · obtain ⟨b', hb', heq⟩ := hrest
      rw [if_pos ⟨b', hb', heq⟩, if_pos ⟨b', List.mem_cons_of_mem _ hb', heq⟩]
    · rw [if_neg hrest]
      simp only [List.mem_cons, exists_eq_or_imp, hrest, or_false]

/-- What `newGtpuDeleteAllTunnels` does to a UE it finds. -/
theorem deleteAllTunnels_spec {ueId : UInt64} {bearers : GtpuBearers}
    (h : s.ue2teMapping[ueId]? = some bearers) :
    (∀ k b, s.bearer? ueId k = some b →
      (s.newGtpuDeleteAllTunnels ueId).handleGpdu b.teidIncoming = none) ∧
    (∀ teid : UInt64, (∀ k b, s.bearer? ueId k = some b → b.teidIncoming.toUInt64 ≠ teid) →
      (s.newGtpuDeleteAllTunnels ueId).te2ueMapping[teid]? = s.te2ueMapping[teid]?) ∧
    ∀ u k, (s.newGtpuDeleteAllTunnels ueId).bearer? u k =
      if ueId = u then none else s.bearer? u k := by
  have hte (teid : UInt64) : (s.newGtpuDeleteAllTunnels ueId).te2ueMapping[teid]? =
      if ∃ p ∈ bearers.toList, p.2.teidIncoming.toUInt64 = teid then none
      else s.te2ueMapping[teid]? := by
    unfold newGtpuDeleteAllTunnels
    rw [h]
    simp only [ExtTreeMap.foldl_eq_foldl_toList]
    exact getElem?_foldl_erase (fun p : UInt64 × GtpuBearer => p.2.teidIncoming.toUInt64) ..
  refine ⟨fun k b hb => ?_, fun teid hno => ?_, fun u k => ?_⟩
  · rw [bearer?_of_ue h] at hb
    rw [handleGpdu, hte,
      if_pos ⟨(k, b), ExtTreeMap.mem_toList_iff_getElem?_eq_some.2 hb, rfl⟩]
  · rw [hte, if_neg]
    rintro ⟨⟨k, b⟩, hb, heq⟩
    exact hno k b ((bearer?_of_ue h k).trans (ExtTreeMap.mem_toList_iff_getElem?_eq_some.1 hb)) heq
  · unfold newGtpuDeleteAllTunnels
    rw [h, bearer?_erase]
    rfl

/-- What `newGtpuDeleteTunnels` does to a UE it finds. -/
theorem deleteTunnels_spec {ueId : UInt64} {bearers : GtpuBearers} (pdusessionId : List UInt8)
    (h : s.ue2teMapping[ueId]? = some bearers) :
    (∀ id ∈ pdusessionId, ∀ b, s.bearer? ueId id.toUInt64 = some b →
      (s.newGtpuDeleteTunnels ueId pdusessionId).handleGpdu b.teidIncoming = none) ∧
    (∀ teid : UInt64, (∀ id ∈ pdusessionId, ∀ b, s.bearer? ueId id.toUInt64 = some b →
      b.teidIncoming.toUInt64 ≠ teid) →
        (s.newGtpuDeleteTunnels ueId pdusessionId).te2ueMapping[teid]? = s.te2ueMapping[teid]?) ∧
    ∀ u k, (s.newGtpuDeleteTunnels ueId pdusessionId).bearer? u k = s.bearer? u k := by
  have hte (teid : UInt64) : (s.newGtpuDeleteTunnels ueId pdusessionId).te2ueMapping[teid]? =
      if ∃ b ∈ pdusessionId.filterMap fun id => bearers[id.toUInt64]?,
        b.teidIncoming.toUInt64 = teid then none else s.te2ueMapping[teid]? := by
    rw [← getElem?_foldl_erase (fun b : GtpuBearer => b.teidIncoming.toUInt64),
      List.foldl_filterMap]
    unfold newGtpuDeleteTunnels
    rw [h]
    simp only
    congr 2
    funext t id
    cases bearers[id.toUInt64]? <;> rfl
  refine ⟨fun id hid b hb => ?_, fun teid hno => ?_, fun u k => ?_⟩
  · rw [bearer?_of_ue h] at hb
    rw [handleGpdu, hte, if_pos ⟨b, List.mem_filterMap.2 ⟨id, hid, hb⟩, rfl⟩]
  · rw [hte, if_neg]
    rintro ⟨b, hb, heq⟩
    obtain ⟨id, hid, hb⟩ := List.mem_filterMap.1 hb
    exact hno id hid b ((bearer?_of_ue h _).trans hb) heq
  · unfold newGtpuDeleteTunnels
    rw [h]
    simp only
    split_ifs with hsize
    · rw [bearer?_erase]
      split_ifs with hu
      · rw [← hu, bearer?_of_ue h, ExtTreeMap.getElem?_eq_none]
        rw [ExtTreeMap.eq_empty_iff_size_eq_zero.2 hsize]
        exact ExtTreeMap.not_mem_empty
      · rfl
    · rfl

/-- What `gtpv1u_update_ue_id` does to a UE whose bearers have the ids of their positions. -/
theorem updateUeId_spec (hs : s.Consistent) {oldUeId newUeId : UInt64} {bearers : GtpuBearers}
    (hue : s.ue2teMapping[oldUeId]? = some bearers) (hcovers : Covers 0 bearers)
    (h : s.gtpv1uUpdateUeId oldUeId newUeId = some s') :
    (∀ teid : UInt64, s'.te2ueMapping[teid]? =
      s.te2ueMapping[teid]?.map (UeidData.rename oldUeId newUeId)) ∧
    ∀ u k, s'.bearer? u k = if u = oldUeId then none
      else if u = newUeId then s.bearer? oldUeId k else s.bearer? u k := by
  unfold gtpv1uUpdateUeId at h
  rw [hue] at h
  simp only at h
  split at h
  · cases h
  next bearers' te2ue' hloop =>
  cases h
  obtain ⟨rfl, hsize, hin, hout⟩ := updateUeIds_of_covers hloop hcovers fun teid hteid => by
    obtain ⟨j, bearer, -, -, hb, rfl⟩ := hteid
    exact hs.mem_of_bearer ((bearer?_of_ue hue _).trans hb)
  refine ⟨fun teid => ?_, fun u k => ?_⟩
  · by_cases hteid : TeidFrom 0 bearers' teid
    · exact hin teid hteid
    · refine (hout teid hteid).trans ?_
      cases hdata : s.te2ueMapping[teid]? with
      | none => rfl
      | some data =>
        -- an entry of `oldUeId` is that of one of its bearers
        rw [Option.map_some, UeidData.rename, if_neg]
        intro hold
        obtain ⟨u, k, b, hb, rfl⟩ := (hs.teids teid).1 (mem_iff_getElem?.2 ⟨data, hdata⟩)
        obtain ⟨data', hdata', rfl⟩ := hs.owner hb
        rw [handleGpdu, hdata] at hdata'
        cases hdata'
        rw [hold, bearer?_of_ue hue] at hb
        obtain ⟨j, hj, rfl⟩ := hcovers.exists_of_mem (by omega) (mem_iff_getElem?.2 ⟨b, hb⟩)
        exact hteid ⟨j, b, Nat.zero_le _, hj, hb, rfl⟩
  · rw [bearer?_erase, bearer?_insert]
    by_cases hu : u = oldUeId
    · rw [if_pos hu.symm, if_pos hu]
    · rw [if_neg (Ne.symm hu), if_neg hu]
      by_cases hn : u = newUeId
      · rw [if_pos hn.symm, if_pos hn, bearer?_of_ue hue]
      · rw [if_neg (Ne.symm hn), if_neg hn]
        rfl

/-- A gap puts the TEID 0 into the table. -/
theorem not_consistent_of_gap {oldUeId newUeId : UInt64} {bearers : GtpuBearers}
    (hue : s.ue2teMapping[oldUeId]? = some bearers) (hcovers : ¬Covers 0 bearers)
    (h : s.gtpv1uUpdateUeId oldUeId newUeId = some s') : ¬s'.Consistent := by
  unfold gtpv1uUpdateUeId at h
  rw [hue] at h
  simp only at h
  split at h
  · cases h
  next bearers' te2ue' hloop =>
  cases h
  intro hs'
  obtain ⟨u, k, b, hb, hteid⟩ := (hs'.teids 0).1 (zero_mem_of_not_covers hloop hcovers)
  exact hs'.nonzero hb (UInt32.toUInt64_inj.1 hteid)

end GtpEndPoints

end NrStack
