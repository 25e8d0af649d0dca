import Mathlib
import NrStack.Mac.UeListOps

/-!
# Runs over the UE lists

`NrUes.Inv` : the two lists hold the live contexts, each once and without a gap, the uids of the
live contexts are distinct and just the bits that are set in the allocator, and no context was freed
twice. Since uids stay below 16 and a UE on its way to the connected list has one of them, that list
is never full when a UE is added (`Inv.length_le`).

A run goes through exactly if the UEs to be removed are there (`ue_lists_iff`).
-/

namespace NrStack

namespace NrUes

/-- What holds of the contexts, whatever the lists : their RNTIs and uids are distinct, the uids
are the bits of the allocator, and every context that was made is alive or was freed once. -/
structure Contexts (s : NrUes) : Prop where
  rnti : ∀ {ue ue' context context'}, s.heap ue = some context → s.heap ue' = some context' →
    context.rnti = context'.rnti → ue = ue'
  uid : ∀ {ue ue' context context'}, s.heap ue = some context → s.heap ue' = some context' →
    context.uid = context'.uid → ue = ue'
  uid_lt : ∀ {ue context}, s.heap ue = some context → context.uid < maxMobilesPerGnb
  bits : ∀ uid, uidBit s.uidAllocator uid = true ↔
    ∃ ue context, s.heap ue = some context ∧ context.uid = uid
  words : s.uidAllocator.length = uidBitmapSize
  freed : ∀ ue, ue ∈ s.freed ↔ ue < s.next ∧ s.heap ue = none
  freed_nodup : s.freed.Nodup
  fresh : ∀ ue, s.next ≤ ue → s.heap ue = none

/-- The invariant : `cs` is the connected list, `as` the access list. Both together hold the live
contexts, each once. -/
structure InvWith (s : NrUes) (cs as : List ℕ) : Prop where
  contexts : s.Contexts
  connected : s.connectedUeList = padded (maxMobilesPerGnb + 1) cs
  access : s.accessUeList = padded (nrNbRaProcMax + 1) as
  access_length : as.length ≤ nrNbRaProcMax
  nodup : (cs ++ as).Nodup
  live : ∀ ue, (s.heap ue).isSome ↔ ue ∈ cs ++ as
  ra : ∀ {ue context}, s.heap ue = some context → (context.ra = true ↔ ue ∈ as)

/-- The lists and the contexts are as they should be. -/
def Inv (s : NrUes) : Prop :=
  ∃ cs as, s.InvWith cs as

/-! ## The contexts -/

section Contexts

variable {s s' : NrUes} {ue : ℕ} {context : UeContext}

/-- The lists do not matter. -/
theorem Contexts.congr (h : s.Contexts) (hheap : s'.heap = s.heap) (hnext : s'.next = s.next)
    (hfreed : s'.freed = s.freed)
    (hbits : ∀ uid, uidBit s'.uidAllocator uid = uidBit s.uidAllocator uid)
    (hwords : s'.uidAllocator.length = s.uidAllocator.length) : s'.Contexts := by
  constructor <;> simp only [hheap, hnext, hfreed, hbits, hwords]
  exacts [h.rnti, h.uid, h.uid_lt, h.bits, h.words, h.freed, h.freed_nodup, h.fresh]

/-- A context is freed. -/
theorem Contexts.delete (h : s.Contexts) (hue : s.heap ue = some context)
    (hheap : s'.heap = Function.update s.heap ue none) (hnext : s'.next = s.next)
    (hfreed : s'.freed = ue :: s.freed)
    (halloc : s'.uidAllocator = uidLinearAllocatorFree s.uidAllocator context.uid) :
    s'.Contexts := by
  have hget (u) : s'.heap u = if u = ue then none else s.heap u := by
    rw [hheap, Function.update_apply]
  have hold {u c} (hu : s'.heap u = some c) : u ≠ ue ∧ s.heap u = some c := by
    rw [hget] at hu
    split_ifs at hu with heq
    exact ⟨heq, hu⟩
  constructor
  · intro u u' c c' hu hu'
    exact h.rnti (hold hu).2 (hold hu').2
  · intro u u' c c' hu hu'
    exact h.uid (hold hu).2 (hold hu').2
  · intro u c hu
    exact h.uid_lt (hold hu).2
  · intro v
    have hlt := h.uid_lt hue
    have hword : context.uid / 32 < s.uidAllocator.length := by
      rw [h.words, Nat.div_eq_of_lt (hlt.trans (by decide))]
      decide
    rw [halloc, uidBit_free hword, Bool.and_eq_true, decide_eq_true_eq, h.bits]
    constructor
    · rintro ⟨hne, u, c, hu, rfl⟩
      refine ⟨u, c, ?_, rfl⟩
      rw [hget, if_neg, hu]
      rintro rfl
      rw [hue] at hu
      cases hu
      exact hne rfl
    · rintro ⟨u, c, hu, rfl⟩
      exact ⟨fun heq => (hold hu).1 (h.uid (hold hu).2 hue heq), u, c, (hold hu).2, rfl⟩
  · rw [halloc, length_uidLinearAllocatorFree, h.words]
  · intro u
    rw [hfreed, hnext, hget, List.mem_cons, h.freed]
    split_ifs with heq
    · have hlt : ue < s.next := by
        by_contra hge
        rw [h.fresh ue (not_lt.1 hge)] at hue
        cases hue
      simp [heq, hlt]
    · simp [heq]
  · rw [hfreed]
    refine List.nodup_cons.2 ⟨fun hmem => ?_, h.freed_nodup⟩
    rw [h.freed, hue] at hmem
    cases hmem.2
  · intro u hu
    rw [hget]
    split_ifs
    · rfl
    · exact h.fresh u (hnext ▸ hu)

/-- A context is made, with an RNTI and a uid that are not in use. -/
theorem Contexts.new (h : s.Contexts)
    (hrnti : ∀ u c, s.heap u = some c → c.rnti ≠ context.rnti)
    (huid : context.uid < maxMobilesPerGnb) (hbit : uidBit s.uidAllocator context.uid = false)
    (hheap : s'.heap = Function.update s.heap s.next (some context)) (hnext : s'.next = s.next + 1)
    (hfreed : s'.freed = s.freed)
    (hbits : ∀ v, uidBit s'.uidAllocator v =
      (decide (v = context.uid) || uidBit s.uidAllocator v))
    (hwords : s'.uidAllocator.length = s.uidAllocator.length) : s'.Contexts := by
  have hget (u) : s'.heap u = if u = s.next then some context else s.heap u := by
    rw [hheap, Function.update_apply]
  have hcases {u c} (hu : s'.heap u = some c) :
      (u = s.next ∧ c = context) ∨ s.heap u = some c := by
    rw [hget] at hu
    split_ifs at hu with heq
    · exact .inl ⟨heq, (Option.some.inj hu).symm⟩
    · exact .inr hu
  have hnew {u c} (hu : s.heap u = some c) : c.uid ≠ context.uid := by
    intro heq
    rw [(h.bits _).2 ⟨u, c, hu, heq⟩] at hbit
    cases hbit
  have hlive {u c} (hu : s.heap u = some c) : u ≠ s.next := by
    rintro rfl
    rw [h.fresh _ le_rfl] at hu
    cases hu
  constructor
  · intro u u' c c' hu hu' heq
    rcases hcases hu with ⟨rfl, rfl⟩ | hu <;> rcases hcases hu' with ⟨rfl, rfl⟩ | hu'
    · rfl
    · exact absurd heq.symm (hrnti _ _ hu')
    · exact absurd heq (hrnti _ _ hu)
    · exact h.rnti hu hu' heq
  · intro u u' c c' hu hu' heq
    rcases hcases hu with ⟨rfl, rfl⟩ | hu <;> rcases hcases hu' with ⟨rfl, rfl⟩ | hu'
    · rfl
    · exact absurd heq.symm (hnew hu')
    · exact absurd heq (hnew hu)
    · exact h.uid hu hu' heq
  · intro u c hu
    rcases hcases hu with ⟨rfl, rfl⟩ | hu
    · exact huid
    · exact h.uid_lt hu
  · intro v
    rw [hbits, Bool.or_eq_true, decide_eq_true_eq, h.bits]
    constructor
    · rintro (rfl | ⟨u, c, hu, rfl⟩)
      · exact ⟨s.next, context, by rw [hget, if_pos rfl], rfl⟩
      · exact ⟨u, c, by rw [hget, if_neg (hlive hu), hu], rfl⟩
    · rintro ⟨u, c, hu, rfl⟩
      rcases hcases hu with ⟨rfl, rfl⟩ | hu
      · exact .inl rfl
      · exact .inr ⟨u, c, hu, rfl⟩
  · rw [hwords, h.words]
  · intro u
    rw [hfreed, hnext, hget, h.freed]
    split_ifs with heq
    · simp [heq]
    · constructor
      · exact fun hu => ⟨by omega, hu.2⟩
      · exact fun hu => ⟨by omega, hu.2⟩
  · rw [hfreed]
    exact h.freed_nodup
  · intro u hu
    rw [hget, if_neg (by omega)]
    exact h.fresh u (by omega)

/-- The RA process of a UE ends. -/
theorem Contexts.set_ra (h : s.Contexts) (hue : s.heap ue = some context)
    (hheap : s'.heap = Function.update s.heap ue (some { context with ra := false }))
    (hnext : s'.next = s.next) (hfreed : s'.freed = s.freed)
    (halloc : s'.uidAllocator = s.uidAllocator) : s'.Contexts := by
  have hget (u) : s'.heap u = if u = ue then some { context with ra := false } else s.heap u := by
    rw [hheap, Function.update_apply]
  have hold {u c} (hu : s'.heap u = some c) :
      ∃ c', s.heap u = some c' ∧ c'.rnti = c.rnti ∧ c'.uid = c.uid := by
    rw [hget] at hu
    split_ifs at hu with heq
    · cases hu
      exact ⟨context, heq ▸ hue, rfl, rfl⟩
    · exact ⟨c, hu, rfl, rfl⟩
  have hforw {u c} (hu : s.heap u = some c) : ∃ c', s'.heap u = some c' ∧ c'.uid = c.uid := by
    rw [hget]
    split_ifs with heq
    · rw [heq, hue] at hu
      cases hu
      exact ⟨_, rfl, rfl⟩
    · exact ⟨c, hu, rfl⟩
  constructor
  · intro u u' c c' hu hu' heq
    obtain ⟨d, hd, hr, -⟩ := hold hu
    obtain ⟨d', hd', hr', -⟩ := hold hu'
    exact h.rnti hd hd' (by rw [hr, hr', heq])
  · intro u u' c c' hu hu' heq
    obtain ⟨d, hd, -, hr⟩ := hold hu
    obtain ⟨d', hd', -, hr'⟩ := hold hu'
    exact h.uid hd hd' (by rw [hr, hr', heq])
  · intro u c hu
    obtain ⟨d, hd, -, hr⟩ := hold hu
    exact hr ▸ h.uid_lt hd
  · intro v
    rw [halloc, h.bits]
    constructor
    · rintro ⟨u, c, hu, rfl⟩
      obtain ⟨c', hc', huid⟩ := hforw hu
      exact ⟨u, c', hc', huid⟩
    · rintro ⟨u, c, hu, rfl⟩
      obtain ⟨d, hd, -, hr⟩ := hold hu
      exact ⟨u, d, hd, hr⟩
  · rw [halloc, h.words]
  · intro u
    rw [hfreed, hnext, h.freed, hget]
    split_ifs with heq
    · simp [heq, hue]
    · rfl
  · rw [hfreed]
    exact h.freed_nodup
  · intro u hu
    rw [hget, if_neg, h.fresh u (hnext ▸ hu)]
    rintro rfl
    rw [h.fresh u (hnext ▸ hu)] at hue
    cases hue

end Contexts

/-! ## The lists -/

theorem iterate_padded (s : NrUes) (rnti : UInt16) (n : ℕ) (es : List ℕ) :
    s.iterate rnti (padded n es) =
      es.find? fun ue => (s.heap ue).map UeContext.rnti = some rnti := by
  have htake : (padded n es).takeWhile Option.isSome = es.map some := by
    rw [padded, List.takeWhile_append_of_pos, List.takeWhile_replicate]
    · simp
    · simp
  rw [iterate, htake, List.filterMap_map]
  congr 1
  exact List.filterMap_some

theorem mem_append_iff_of_nodup {before after : List ℕ} {ue : ℕ}
    (h : (before ++ ue :: after).Nodup) (u : ℕ) :
    u ∈ before ++ after ↔ u ∈ before ++ ue :: after ∧ u ≠ ue := by
  have hno := (List.nodup_cons.1 (List.nodup_middle.1 h)).1
  constructor
  · intro hu
    refine ⟨?_, fun heq => hno (heq ▸ hu)⟩
    rw [List.mem_append] at hu ⊢
    exact hu.imp_right (List.mem_cons_of_mem _)
  · rintro ⟨hu, hne⟩
    rw [List.mem_append, List.mem_cons] at hu
    rw [List.mem_append]
    exact hu.imp_right fun h => h.resolve_left hne

/-- The place of a UE that is found. -/
theorem split_of_find {s : NrUes} {rnti : UInt16} {ue : ℕ} {l : List ℕ}
    (hfind : (l.find? fun ue => (s.heap ue).map UeContext.rnti = some rnti) = some ue) :
    ∃ before after, l = before ++ ue :: after ∧ (s.heap ue).map UeContext.rnti = some rnti ∧
      ∀ u ∈ before, (s.heap u).map UeContext.rnti ≠ some rnti := by
  obtain ⟨hue, before, after, heq, hno⟩ := List.find?_eq_some_iff_append.1 hfind
  exact ⟨before, after, heq, by simpa using hue, fun u hu => by simpa using hno u hu⟩

theorem heap_of_delete {s t : NrUes} {ue : ℕ} (hs : t.deleteNrUeData (some ue) = some s) :
    s.heap = Function.update t.heap ue none := by
  unfold deleteNrUeData at hs
  cases hue : t.heap ue with
  | none => simp [hue] at hs
  | some context =>
    simp only [hue, Option.some.injEq] at hs
    rw [← hs]

namespace InvWith

variable {s t : NrUes} {cs as : List ℕ} {rnti : UInt16} {ue : ℕ} (h : s.InvWith cs as)
include h

theorem findRaUe_eq : s.findRaUe rnti =
    as.find? fun ue => (s.heap ue).map UeContext.rnti = some rnti := by
  rw [findRaUe, h.access, iterate_padded]

theorem findNrUe_eq : s.findNrUe rnti =
    cs.find? fun ue => (s.heap ue).map UeContext.rnti = some rnti := by
  rw [findNrUe, h.connected, iterate_padded]

/-- There are not more live contexts than uids. -/
theorem length_le : cs.length + as.length ≤ maxMobilesPerGnb := by
  have hcontext {ue} (hue : ue ∈ cs ++ as) : ∃ c, s.heap ue = some c :=
    Option.isSome_iff_exists.1 ((h.live ue).2 hue)
  have hnodup : ((cs ++ as).map fun ue => (s.heap ue).elim 0 UeContext.uid).Nodup := by
    refine List.Nodup.map_on (fun u hu u' hu' heq => ?_) h.nodup
    obtain ⟨c, hc⟩ := hcontext hu
    obtain ⟨c', hc'⟩ := hcontext hu'
    rw [hc, hc'] at heq
    exact h.contexts.uid hc hc' heq
  have hsub : ((cs ++ as).map fun ue => (s.heap ue).elim 0 UeContext.uid) ⊆
      List.range maxMobilesPerGnb := by
    intro uid huid
    obtain ⟨u, hu, rfl⟩ := List.mem_map.1 huid
    obtain ⟨c, hc⟩ := hcontext hu
    rw [hc]
    exact List.mem_range.2 (h.contexts.uid_lt hc)
  have hle := (hnodup.subperm hsub).length_le
  rwa [List.length_map, List.length_append, List.length_range] at hle

/-- A UE is freed that was taken out of its list. -/
theorem delete {cs' as' : List ℕ} (hue : ue ∈ cs ++ as) (hcs : ∀ u, u ∈ cs' ↔ u ∈ cs ∧ u ≠ ue)
    (has : ∀ u, u ∈ as' ↔ u ∈ as ∧ u ≠ ue) (hnodup : (cs' ++ as').Nodup)
    (hlen : as'.length ≤ nrNbRaProcMax)
    (hheap : t.heap = s.heap) (hnext : t.next = s.next) (hfreed : t.freed = s.freed)
    (halloc : t.uidAllocator = s.uidAllocator)
    (hconnected : t.connectedUeList = padded (maxMobilesPerGnb + 1) cs')
    (haccess : t.accessUeList = padded (nrNbRaProcMax + 1) as') :
    ∃ s', t.deleteNrUeData (some ue) = some s' ∧ s'.InvWith cs' as' := by
  obtain ⟨c, hc⟩ := Option.isSome_iff_exists.1 ((h.live ue).2 hue)
  rw [deleteNrUeData, hheap, hc]
  refine ⟨_, rfl, h.contexts.delete hc rfl hnext (congrArg _ hfreed) (by rw [halloc]),
    hconnected, haccess, hlen, hnodup, fun u => ?_, fun {u c'} hu => ?_⟩
  · simp only [Function.update_apply, List.mem_append, hcs, has]
    have hlive := h.live u
    rw [List.mem_append] at hlive
    split_ifs with heq
    · simp [heq]
    · simp [heq, hlive]
  · simp only [Function.update_apply] at hu
    split_ifs at hu with heq
    rw [has, h.ra hu]
    exact (and_iff_left heq).symm

theorem isSome_of_mem_cs (hue : ue ∈ cs) : (s.heap ue).isSome :=
  (h.live ue).2 (List.mem_append_left _ hue)

theorem isSome_of_mem_as (hue : ue ∈ as) : (s.heap ue).isSome :=
  (h.live ue).2 (List.mem_append_right _ hue)

/-- `nr_release_ra_UE` for a UE of the access list. -/
theorem nrReleaseRaUe_of_some (hfind : s.findRaUe rnti = some ue) :
    ∃ s', s.nrReleaseRaUe rnti = some s' ∧ s'.Inv := by
  rw [h.findRaUe_eq] at hfind
  obtain ⟨before, after, rfl, hrnti, hno⟩ := split_of_find hfind
  rw [nrReleaseRaUe, h.access, removeUeFromList_of_mem h.access_length (by decide)
    (fun u hu => h.isSome_of_mem_as (List.mem_append_left _ hu)) hno hrnti]
  have hlen := h.access_length
  have hnodup := h.nodup
  rw [← List.append_assoc] at hnodup
  have hmem := mem_append_iff_of_nodup (List.Nodup.of_append_right h.nodup)
  have hcs (u : ℕ) (hu : u ∈ cs) : u ≠ ue := by
    rintro rfl
    exact List.disjoint_of_nodup_append h.nodup hu (by simp)
  rw [List.length_append, List.length_cons] at hlen
  obtain ⟨s', hs', hinv⟩ := h.delete (by simp) (fun u => ⟨fun hu => ⟨hu, hcs u hu⟩, And.left⟩) hmem
    (by
      rw [← List.append_assoc]
      exact (List.nodup_cons.1 (List.nodup_middle.1 hnodup)).2)
    (by rw [List.length_append]; omega) (t := { s with
      accessUeList := padded (nrNbRaProcMax + 1) (before ++ after) }) rfl rfl rfl rfl h.connected
    rfl
  exact ⟨s', hs', cs, before ++ after, hinv⟩

/-- `nr_release_ra_UE` for any other RNTI : it returns only if the list is full. -/
theorem nrReleaseRaUe_of_none (hfind : s.findRaUe rnti = none) :
    s.nrReleaseRaUe rnti = if as.length = nrNbRaProcMax then some s else none := by
  rw [h.findRaUe_eq, List.find?_eq_none] at hfind
  rw [nrReleaseRaUe, h.access, removeUeFromList_of_none h.access_length (by decide)
    (fun u hu => h.isSome_of_mem_as hu) fun u hu => by simpa using hfind u hu]
  split_ifs
  · rw [← h.access]
  · rfl

omit h in
/-- `mac_remove_nr_ue` takes the first UE with the RNTI out of the list, and frees it. -/
theorem macRemoveNrUe_of_split {before after : List ℕ} (h : s.InvWith (before ++ ue :: after) as)
    (hrnti : (s.heap ue).map UeContext.rnti = some rnti)
    (hno : ∀ u ∈ before, (s.heap u).map UeContext.rnti ≠ some rnti) :
    ∃ s', s.macRemoveNrUe rnti = some s' ∧ s'.InvWith (before ++ after) as ∧
      s'.heap = Function.update s.heap ue none := by
  have hlen := h.length_le
  rw [macRemoveNrUe, h.connected, removeUeFromList_of_mem (by omega) le_rfl
    (fun u hu => h.isSome_of_mem_cs (List.mem_append_left _ hu)) hno hrnti]
  have hnodup := h.nodup
  rw [List.append_assoc, List.cons_append] at hnodup
  have hmem := mem_append_iff_of_nodup (List.Nodup.of_append_left h.nodup)
  have has (u : ℕ) (hu : u ∈ as) : u ≠ ue := by
    rintro rfl
    exact List.disjoint_of_nodup_append h.nodup (by simp) hu
  obtain ⟨s', hs', hinv⟩ := h.delete (by simp) hmem
    (fun u => ⟨fun hu => ⟨hu, has u hu⟩, And.left⟩)
    (by
      rw [List.append_assoc]
      exact (List.nodup_cons.1 (List.nodup_middle.1 hnodup)).2)
    h.access_length (t := { s with
      connectedUeList := padded (maxMobilesPerGnb + 1) (before ++ after) }) rfl rfl rfl rfl rfl
    h.access
  exact ⟨s', hs', hinv, by rw [heap_of_delete hs']⟩

/-- `mac_remove_nr_ue` for a UE of the connected list. -/
theorem macRemoveNrUe_of_some (hfind : s.findNrUe rnti = some ue) :
    ∃ s', s.macRemoveNrUe rnti = some s' ∧ s'.Inv := by
  rw [h.findNrUe_eq] at hfind
  obtain ⟨before, after, rfl, hrnti, hno⟩ := split_of_find hfind
  obtain ⟨s', hs', hinv, -⟩ := macRemoveNrUe_of_split h hrnti hno
  exact ⟨s', hs', before ++ after, as, hinv⟩

/-- `mac_remove_nr_ue` for any other RNTI crashes. -/
theorem macRemoveNrUe_of_none (hfind : s.findNrUe rnti = none) : s.macRemoveNrUe rnti = none := by
  have hlen := h.length_le
  rw [h.findNrUe_eq, List.find?_eq_none] at hfind
  rw [macRemoveNrUe, h.connected, removeUeFromList_of_none (by omega) le_rfl
    (fun u hu => h.isSome_of_mem_cs hu) (fun u hu => by simpa using hfind u hu),
    if_neg (by omega)]

/-- A UE of the access list becomes connected : there is room, and it is the one that is taken out
of the access list. -/
theorem transition (hfind : s.findRaUe rnti = some ue) :
    ∃ s', s.transitionRaConnectedNrUe ue = some (true, s') ∧ s'.Inv := by
  rw [h.findRaUe_eq] at hfind
  obtain ⟨before, after, rfl, hrnti, hno⟩ := split_of_find hfind
  obtain ⟨c, hc, rfl⟩ := Option.map_eq_some_iff.1 hrnti
  have hlen := h.length_le
  have hlen' := h.access_length
  rw [List.length_append, List.length_cons] at hlen hlen'
  rw [transitionRaConnectedNrUe, hc]
  simp only
  rw [h.access, removeUeFromList_of_mem h.access_length (by decide)
    (fun u hu => h.isSome_of_mem_as (List.mem_append_left _ hu)) hno hrnti]
  simp only [if_true, addConnectedNrUe, Function.update_self, Bool.false_eq_true, if_false]
  rw [h.connected, addUeToList_padded _ (by decide), if_pos (by omega)]
  have hmem := mem_append_iff_of_nodup (List.Nodup.of_append_right h.nodup)
  refine ⟨_, rfl, cs ++ [ue], before ++ after, ?_⟩
  refine ⟨h.contexts.set_ra hc rfl rfl rfl rfl, rfl, rfl, ?_, ?_, fun u => ?_, fun {u c'} hu => ?_⟩
  · rw [List.length_append]
    omega
  · have hperm : (cs ++ (before ++ ue :: after)).Perm (cs ++ [ue] ++ (before ++ after)) := by
      rw [List.append_assoc]
      exact List.Perm.append_left cs List.perm_middle
    exact hperm.nodup_iff.1 h.nodup
  · have hlive := h.live u
    simp only [Function.update_apply, List.mem_append, List.mem_cons, List.not_mem_nil, or_false]
      at hlive ⊢
    split_ifs with heq
    · simp [heq]
    · rw [hlive]
      simp only [heq, false_or, or_false]
  · simp only [Function.update_apply] at hu
    rw [hmem]
    split_ifs at hu with heq
    · cases hu
      simp [heq]
    · rw [h.ra hu]
      simp [heq]

/-- A new RNTI is not in use. -/
theorem rnti_of_getNewRnti {draws : ℕ → UInt32} (hfind : s.getNewRnti draws = some rnti) (u : ℕ)
    (c : UeContext) (hu : s.heap u = some c) : c.rnti ≠ rnti := by
  have hnot := List.find?_some hfind
  rw [Bool.and_eq_true, Option.isNone_iff_eq_none, Option.isNone_iff_eq_none, h.findNrUe_eq,
    h.findRaUe_eq, List.find?_eq_none, List.find?_eq_none] at hnot
  have hmem := (h.live u).1 (hu ▸ rfl)
  rintro rfl
  rcases List.mem_append.1 hmem with hmem | hmem
  · simpa [hu] using hnot.1 u hmem
  · simpa [hu] using hnot.2 u hmem

/-- The context of a new UE, not yet in a list. -/
theorem contexts_new {draws : ℕ → UInt32} (hfind : s.getNewRnti draws = some rnti) :
    (∃ s', s.getNewNrUeInst rnti = (none, s') ∧ s'.InvWith cs as) ∨
    ∃ uid bitmap, s.getNewNrUeInst rnti = (some s.next, { s with
      heap := Function.update s.heap s.next (some ⟨rnti, uid, true⟩)
      next := s.next + 1
      uidAllocator := bitmap }) ∧ { s with
      heap := Function.update s.heap s.next (some ⟨rnti, uid, true⟩)
      next := s.next + 1
      uidAllocator := bitmap }.Contexts := by
  have hwords := h.contexts.words
  have hlength := length_uidLinearAllocatorNew s.uidAllocator 0
  have hsame (bitmap : List (BitVec 32)) (hlen : bitmap.length = s.uidAllocator.length)
      (hbits : ∀ uid, uidBit bitmap uid = uidBit s.uidAllocator uid) :
      { s with uidAllocator := bitmap }.InvWith cs as :=
    ⟨h.contexts.congr rfl rfl rfl hbits hlen, h.connected, h.access, h.access_length, h.nodup,
      h.live, h.ra⟩
  rcases uidLinearAllocatorNew_spec s.uidAllocator 0 with hall | ⟨uid, huid, hword, hbit, hset⟩
  · refine .inl ⟨_, ?_, h⟩
    rw [getNewNrUeInst, hall]
    simp only
    rw [if_pos (by decide), uidLinearAllocatorFree_of_ge (by rw [hwords]; decide)]
  · rw [Nat.zero_mul, Nat.add_zero] at huid
    rw [getNewNrUeInst]
    generalize uidLinearAllocatorNew 0 s.uidAllocator = r at huid hset hlength
    obtain ⟨uid', bitmap⟩ := r
    obtain rfl : uid' = uid := huid
    by_cases hfull : uid' ≥ maxMobilesPerGnb
    · refine .inl ⟨_, if_pos hfull, hsame _ ?_ fun v => ?_⟩
      · rw [length_uidLinearAllocatorFree]
        exact hlength
      · rw [uidBit_free (hlength ▸ hword), hset]
        by_cases hv : v = uid'
        · rw [hv, hbit]
          simp
        · simp [hv]
    · refine .inr ⟨uid', bitmap, if_neg hfull, ?_⟩
      have hrnti : ∀ u c, s.heap u = some c → c.rnti ≠ (⟨rnti, uid', true⟩ : UeContext).rnti :=
        h.rnti_of_getNewRnti hfind
      exact h.contexts.new hrnti (not_le.1 hfull) hbit rfl rfl rfl hset hlength

/-- A new UE enters the access list ; without room or a uid it is gone again. -/
theorem prach (draws : ℕ → UInt32) :
    ∃ s', s.nrInitiateRaProc draws = some s' ∧ s'.Inv := by
  rw [nrInitiateRaProc]
  cases hfind : s.getNewRnti draws with
  | none => exact ⟨s, rfl, cs, as, h⟩
  | some rnti =>
    rcases h.contexts_new hfind with ⟨s', hs', hinv⟩ | ⟨uid, bitmap, hs', hcontexts⟩
    · simp only [hs']
      exact ⟨s', rfl, cs, as, hinv⟩
    have hfresh := h.contexts.fresh s.next le_rfl
    have hlive {u} (hu : u ∈ cs ++ as) : u ≠ s.next := by
      rintro rfl
      have := (h.live _).2 hu
      rw [hfresh] at this
      cases this
    simp only [hs', addNewUeRa, Function.update_self, if_true]
    rw [h.access, addUeToList_padded _ (by decide)]
    by_cases hroom : as.length < nrNbRaProcMax
    · rw [if_pos hroom]
      refine ⟨_, rfl, cs, as ++ [s.next], hcontexts.congr rfl rfl rfl (fun _ => rfl) rfl,
        h.connected, rfl, ?_, ?_, fun u => ?_, fun {u c} hu => ?_⟩
      · rw [List.length_append, List.length_singleton]
        omega
      · rw [← List.append_assoc]
        refine List.nodup_append.2 ⟨h.nodup, List.nodup_singleton _, fun u hu v hv => ?_⟩
        rw [List.mem_singleton.1 hv]
        exact hlive hu
      · have hold := h.live u
        simp only [Function.update_apply, ← List.append_assoc, List.mem_append, List.mem_singleton]
          at hold ⊢
        split_ifs with heq
        · simp [heq]
        · simp [heq, hold]
      · simp only [Function.update_apply] at hu
        rw [List.mem_append, List.mem_singleton]
        split_ifs at hu with heq
        · cases hu
          simp [heq]
        · rw [h.ra hu]
          simp [heq]
    · rw [if_neg hroom]
      simp only [deleteNrUeData, Function.update_self]
      have hself : Function.update s.heap s.next (some ⟨rnti, uid, true⟩) s.next =
          some ⟨rnti, uid, true⟩ := Function.update_self ..
      refine ⟨_, rfl, cs, as, hcontexts.delete hself rfl rfl rfl rfl, h.connected, rfl,
        h.access_length, h.nodup, fun u => ?_, fun {u c} hu => ?_⟩
      · simp only [Function.update_idem]
        rw [Function.update_eq_self_iff.2 hfresh.symm]
        exact h.live u
      · simp only [Function.update_idem] at hu
        rw [Function.update_eq_self_iff.2 hfresh.symm] at hu
        exact h.ra hu

end InvWith

/-! ## Runs -/

theorem inv_init : init.Inv := by
  refine ⟨[], [], ⟨nofun, nofun, nofun, fun uid => ?_, rfl, fun ue => ?_, List.nodup_nil,
    fun _ _ => rfl⟩, rfl, rfl, by decide, List.nodup_nil, fun ue => ?_,
    fun h => absurd h (by simp [init])⟩
  · refine iff_of_false ?_ (by rintro ⟨_, _, h, -⟩; cases h)
    rw [uidBit, init, List.getD_eq_getElem?_getD, List.getElem?_replicate]
    split_ifs <;> simp
  · exact iff_of_false List.not_mem_nil fun h => absurd h.1 (Nat.not_lt_zero _)
  · exact iff_of_false (by rintro ⟨⟩) List.not_mem_nil

end NrUes

namespace UeListOp

open NrUes

/-- The UE that is to be removed, or to become connected, is not in the list. -/
def Fails (s : NrUes) : UeListOp → Prop
  | .prach _ _ => False
  | .msg4Ack rnti | .cfraMsg3 rnti | .crntiMsg3 rnti | .contentionTimeout rnti _
  | .releaseRa rnti => s.findRaUe rnti = none
  | .releaseCommand rnti _ | .releaseTimer rnti | .macRemove rnti => s.findNrUe rnti = none

/-- When the code goes on : a UE that is removed by its RNTI is in the list, or all places of the
access list are taken. -/
def Ok (s : NrUes) : UeListOp → Prop
  | .releaseRa rnti => (s.findRaUe rnti).isSome ∨ none ∉ s.accessUeList.take nrNbRaProcMax
  | .macRemove rnti => (s.findNrUe rnti).isSome
  | _ => True

end UeListOp

namespace NrUes

/-- The access list is full. -/
theorem InvWith.full_iff {s : NrUes} {cs as : List ℕ} (h : s.InvWith cs as) :
    none ∉ s.accessUeList.take nrNbRaProcMax ↔ as.length = nrNbRaProcMax := by
  rw [h.access, take_padded h.access_length (by decide), padded, List.mem_append,
    List.mem_replicate]
  have hlen := h.access_length
  simp only [List.mem_map, reduceCtorEq, and_false, exists_false, false_or, and_true, not_not]
  omega

/-- A step that meets `Ok` goes through, and changes nothing if it fails. -/
theorem step_of_ok {s : NrUes} {op : UeListOp} (h : s.Inv) (hok : op.Ok s) :
    ∃ s', s.step op = some s' ∧ s'.Inv ∧ (op.Fails s → s' = s) := by
  obtain ⟨cs, as, h⟩ := h
  have hinv : s.Inv := ⟨cs, as, h⟩
  cases op with
  | prach known draws =>
    rw [step]
    split_ifs
    · exact ⟨s, rfl, hinv, fun _ => rfl⟩
    · obtain ⟨s', hs', hinv'⟩ := h.prach draws
      exact ⟨s', hs', hinv', False.elim⟩
  | msg4Ack rnti =>
    rw [step, UeListOp.Fails]
    cases hfind : s.findRaUe rnti with
    | none => exact ⟨s, rfl, hinv, fun _ => rfl⟩
    | some ue =>
      obtain ⟨s', hs', hinv'⟩ := h.transition hfind
      exact ⟨s', by simp only [hs', Option.map_some], hinv', by simp⟩
  | cfraMsg3 rnti =>
    rw [step, UeListOp.Fails]
    cases hfind : s.findRaUe rnti with
    | none => exact ⟨s, rfl, hinv, fun _ => rfl⟩
    | some ue =>
      obtain ⟨s', hs', hinv'⟩ := h.transition hfind
      exact ⟨s', by simp only [hs'], hinv', by simp⟩
  | crntiMsg3 rnti =>
    rw [step, UeListOp.Fails]
    cases hfind : s.findRaUe rnti with
    | none => exact ⟨s, rfl, hinv, fun _ => rfl⟩
    | some ue =>
      obtain ⟨s', hs', hinv'⟩ := h.nrReleaseRaUe_of_some hfind
      exact ⟨s', hs', hinv', by simp⟩
  | contentionTimeout rnti requested =>
    rw [step, UeListOp.Fails]
    cases hfind : s.findRaUe rnti with
    | none => exact ⟨s, rfl, hinv, fun _ => rfl⟩
    | some ue =>
      simp only
      split_ifs
      · exact ⟨s, rfl, hinv, by simp⟩
      · obtain ⟨s', hs', hinv'⟩ := h.nrReleaseRaUe_of_some hfind
        exact ⟨s', hs', hinv', by simp⟩
  | releaseRa rnti =>
    rw [step, UeListOp.Fails]
    cases hfind : s.findRaUe rnti with
    | none =>
      have hfull : as.length = nrNbRaProcMax := by
        rcases hok with hsome | hfull
        · rw [hfind] at hsome
          cases hsome
        · exact h.full_iff.1 hfull
      exact ⟨s, by rw [h.nrReleaseRaUe_of_none hfind, if_pos hfull], hinv, fun _ => rfl⟩
    | some ue =>
      obtain ⟨s', hs', hinv'⟩ := h.nrReleaseRaUe_of_some hfind
      exact ⟨s', hs', hinv', by simp⟩
  | releaseCommand rnti now =>
    rw [step, UeListOp.Fails]
    cases hfind : s.findNrUe rnti with
    | none => exact ⟨s, rfl, hinv, fun _ => rfl⟩
    | some ue =>
      simp only
      split_ifs
      · obtain ⟨s', hs', hinv'⟩ := h.macRemoveNrUe_of_some hfind
        exact ⟨s', hs', hinv', by simp⟩
      · exact ⟨s, rfl, hinv, by simp⟩
  | releaseTimer rnti =>
    rw [step, UeListOp.Fails]
    cases hfind : s.findNrUe rnti with
    | none => exact ⟨s, rfl, hinv, fun _ => rfl⟩
    | some ue =>
      obtain ⟨s', hs', hinv'⟩ := h.macRemoveNrUe_of_some hfind
      exact ⟨s', hs', hinv', by simp⟩
  | macRemove rnti =>
    rw [step, UeListOp.Fails]
    obtain ⟨ue, hfind⟩ := Option.isSome_iff_exists.1 hok
    obtain ⟨s', hs', hinv'⟩ := h.macRemoveNrUe_of_some hfind
    exact ⟨s', hs', hinv', fun hno => by rw [hfind] at hno; cases hno⟩

/-- Every other step reads through a NULL pointer. -/
theorem step_of_not_ok {s : NrUes} {op : UeListOp} (h : s.Inv) (hok : ¬op.Ok s) :
    s.step op = none := by
  obtain ⟨cs, as, h⟩ := h
  cases op with
  | releaseRa rnti =>
    obtain ⟨hnone, hfull⟩ := not_or.1 hok
    rw [h.full_iff] at hfull
    exact (h.nrReleaseRaUe_of_none (Option.not_isSome_iff_eq_none.1 hnone)).trans (if_neg hfull)
  | macRemove rnti => exact h.macRemoveNrUe_of_none (Option.not_isSome_iff_eq_none.1 hok)
  | _ => exact absurd trivial hok

/-- What a run is to do : every state is as it should be, no step crashes, and one that fails
changes nothing. -/
def Sound : NrUes → List UeListOp → Prop
  | s, [] => s.Inv
  | s, op :: ops => s.Inv ∧ ∃ s', s.step op = some s' ∧ (op.Fails s → s' = s) ∧ Sound s' ops

/-- Every step of a run meets `Ok`. -/
def AllOk : NrUes → List UeListOp → Prop
  | _, [] => True
  | s, op :: ops => op.Ok s ∧ ∀ s', s.step op = some s' → AllOk s' ops

theorem sound_iff_allOk : ∀ (ops : List UeListOp) (s : NrUes), s.Inv →
    (s.Sound ops ↔ s.AllOk ops)
  | [], s, h => iff_of_true h trivial
  | op :: ops, s, h => by
    constructor
    · rintro ⟨-, s', hs', -, hrest⟩
      have hok : op.Ok s := by
        by_contra hno
        rw [step_of_not_ok h hno] at hs'
        cases hs'
      refine ⟨hok, fun s'' hs'' => ?_⟩
      rw [hs'] at hs''
      cases hs''
      obtain ⟨t, ht, hinv, -⟩ := step_of_ok h hok
      rw [hs'] at ht
      cases ht
      exact (sound_iff_allOk ops s' hinv).1 hrest
    · rintro ⟨hok, hrest⟩
      obtain ⟨s', hs', hinv, hfails⟩ := step_of_ok h hok
      exact ⟨h, s', hs', hfails, (sound_iff_allOk ops s' hinv).2 (hrest s' hs')⟩

end NrUes

end NrStack
