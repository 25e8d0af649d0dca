import NrStack.Flexric.BiMap
import Mathlib.Data.List.Induction
import Mathlib.Data.Nat.Find
import Mathlib.Order.Bounds.Basic

/-!
# The listeners of the RIC

`register_listeners_for_ran_func_id` of `near_ric.c` and `publish_ind_msg` of `msg_handler_ric.c`.
The listeners of a RAN function are an array, and a tree maps the id of the function to it. The
search of `publish_ind_msg` is for the function of the indication, but the array it goes through is
the one of the front of the tree : an indication reaches the listeners of the smallest id
(`publishIndMsg_eq`), which are the right ones exactly if both functions have the same listeners
(`publishIndMsg_iff`). So it is with the default listeners alone (`sameListeners_default`). -/

namespace NrStack

/-- `subs_ric_t` -/
structure SubsRic (φ : Type) where
  name : String
  fp : φ
deriving DecidableEq

/-- `pub_sub` of `near_ric_t` : the tree holds the addresses of the arrays. -/
structure PubSub (φ : Type) where
  tree : AssocRbTree Nat Nat
  arrays : List (List (SubsRic φ))

/-- `cmp_ran_func_id` -/
def cmpRanFuncId : Nat → Nat → Int :=
  cmpAsc

namespace PubSub

variable {φ : Type}

/-- `init_pub_sub_ds_ric` -/
def init : PubSub φ where
  tree := .init
  arrays := []

/-- `register_listeners_for_ran_func_id` -/
def registerListenersForRanFuncId (ric : PubSub φ) (ranFuncId : Nat) (subs : SubsRic φ) :
    Option (PubSub φ) := do
  match ← ric.tree.findKey (fun k => ranFuncId = k) with
  | none =>
    let tree ← ric.tree.insert cmpRanFuncId ranFuncId ric.arrays.length
    some ⟨tree, ric.arrays ++ [[subs]]⟩
  | some (_, arr) =>
    let listeners ← ric.arrays[arr]?
    some { ric with arrays := ric.arrays.set arr (listeners ++ [subs]) }

/-- `publish_ind_msg` : the listeners that are called, in order. -/
def publishIndMsg (ric : PubSub φ) (ranFuncId : Nat) : Option (List φ) := do
  let startIt ← ric.tree.front
  let smIt ← ric.tree.findIf fun _ n => n.key.any fun k => ranFuncId = k
  if smIt = ric.tree.endIt then none
  else do
    -- the array of `start_it`, not of `sm_it`
    let (_, arr) ← ric.tree.entryAt startIt
    let listeners ← ric.arrays[arr]?
    let _ ← ric.tree.next? startIt
    some (listeners.map SubsRic.fp)

/-- A sequence of registrations. -/
def registerAll (log : List (Nat × SubsRic φ)) : Option (PubSub φ) :=
  log.foldlM (fun ric e => ric.registerListenersForRanFuncId e.1 e.2) init

end PubSub

variable {φ : Type} {ric : PubSub φ} {log : List (Nat × SubsRic φ)} {f g : Nat} {s : SubsRic φ}
  {t : RbTree (Cell Nat Nat)}

/-- The listeners that were registered for a RAN function, in the order of the registrations. -/
def subscribers (log : List (Nat × SubsRic φ)) (f : Nat) : List (SubsRic φ) :=
  (log.filter fun e => e.1 = f).map Prod.snd

/-- What an indication with the RAN function is to call. -/
def listenersOf (log : List (Nat × SubsRic φ)) (f : Nat) : List φ :=
  (subscribers log f).map SubsRic.fp

theorem subscribers_append (log : List (Nat × SubsRic φ)) (f g : Nat) (s : SubsRic φ) :
    subscribers (log ++ [(g, s)]) f = subscribers log f ++ if g = f then [s] else [] := by
  rw [subscribers, List.filter_append, List.map_append]
  by_cases h : g = f <;> simp [subscribers, h]

theorem subscribers_eq_nil (h : f ∉ log.map Prod.fst) : subscribers log f = [] := by
  rw [subscribers, List.map_eq_nil_iff, List.filter_eq_nil_iff]
  rintro e he heq
  exact h (of_decide_eq_true heq ▸ List.mem_map_of_mem he)

/-! ## The invariant of the registrations -/

/-- One array for each RAN function with listeners. -/
structure PubSubInv (ric : PubSub φ) (log : List (Nat × SubsRic φ)) (t : RbTree (Cell Nat Nat)) :
    Prop where
  tree : RbInv cmpRanFuncId ric.tree t
  keys : ((entryList t).map Prod.fst).Nodup
  arrays : ((entryList t).map Prod.snd).Nodup
  registered : ∀ f, f ∈ (entryList t).map Prod.fst ↔ f ∈ log.map Prod.fst
  listeners : ∀ e ∈ entryList t, ric.arrays[e.2]? = some (subscribers log e.1)

theorem pubSubInv_init : PubSubInv (PubSub.init : PubSub φ) [] .leaf where
  tree := rbInv_init
  keys := List.nodup_nil
  arrays := List.nodup_nil
  registered _ := Iff.rfl
  listeners _ h := absurd h List.not_mem_nil

/-- The entry of a RAN function with listeners. -/
theorem PubSubInv.findKey_registered (h : PubSubInv ric log t) (hf : f ∈ log.map Prod.fst) :
    ∃ arr, ric.tree.findKey (fun k => f = k) = some (some (f, arr)) ∧ (f, arr) ∈ entryList t := by
  obtain ⟨e, hmem, hkey⟩ := List.mem_map.1 ((h.registered f).2 hf)
  have hsome : ((entryList t).find? fun e => f = e.1).isSome :=
    List.find?_isSome.2 ⟨e, hmem, decide_eq_true hkey.symm⟩
  obtain ⟨⟨k, arr⟩, hfind⟩ := Option.isSome_iff_exists.1 hsome
  obtain rfl : f = k := 
    of_decide_eq_true (List.find?_some (p := fun e : Nat × Nat => decide (f = e.1)) hfind)
  refine ⟨arr, ?_, List.mem_of_find?_eq_some hfind⟩
  rw [findKey_spec h.tree.toRbState, hfind]

theorem PubSubInv.findKey_unregistered (h : PubSubInv ric log t) (hf : f ∉ log.map Prod.fst) :
    ric.tree.findKey (fun k => f = k) = some none := by
  rw [findKey_spec h.tree.toRbState, Option.some_inj, List.find?_eq_none]
  rintro e he heq
  exact hf ((h.registered f).1 (of_decide_eq_true heq ▸ List.mem_map_of_mem he))

/-- The first listener of a RAN function. -/
theorem PubSubInv.register_new (h : PubSubInv ric log t) (hf : f ∉ log.map Prod.fst) :
    ∃ ric' t', ric.registerListenersForRanFuncId f s = some ric' ∧
      PubSubInv ric' (log ++ [(f, s)]) t' := by
  have hfind := h.findKey_unregistered hf
  obtain ⟨tree, t', hins, hinv, hentries⟩ :=
    insert_inv cmpAsc_isTotalCmp.toIsCmp h.tree f ric.arrays.length
  have hperm : (entryList t').Perm ((f, ric.arrays.length) :: entryList t) :=
    Multiset.coe_eq_coe.1 hentries
  have hnew : f ∉ (entryList t).map Prod.fst := fun hmem => hf ((h.registered f).1 hmem)
  have hlt : ∀ e ∈ entryList t, e.2 < ric.arrays.length := fun e he =>
    (List.getElem?_eq_some_iff.1 (h.listeners e he)).1
  refine ⟨⟨tree, ric.arrays ++ [[s]]⟩, t', ?_, hinv, ?_, ?_, fun k => ?_, fun e he => ?_⟩
  · have hins' : ric.tree.insert cmpRanFuncId f ric.arrays.length = some tree := hins
    simp [PubSub.registerListenersForRanFuncId, hfind, hins']
  · exact (hperm.map Prod.fst).nodup_iff.2 (List.nodup_cons.2 ⟨hnew, h.keys⟩)
  · refine (hperm.map Prod.snd).nodup_iff.2 (List.nodup_cons.2 ⟨fun hmem => ?_, h.arrays⟩)
    obtain ⟨e, he, heq⟩ := List.mem_map.1 hmem
    exact (hlt e he).ne heq
  · rw [(hperm.map Prod.fst).mem_iff, List.map_cons, List.mem_cons, h.registered k, List.map_append,
      List.mem_append]
    simp [or_comm]
  · rw [subscribers_append]
    rcases List.mem_cons.1 (hperm.mem_iff.1 he) with rfl | he
    · simp [subscribers_eq_nil hf]
    · have hne : f ≠ e.1 := fun heq => hnew (heq ▸ List.mem_map_of_mem he)
      rw [List.getElem?_append_left (hlt e he), h.listeners e he, if_neg hne, List.append_nil]

/-- Another listener goes to the end of the array of its RAN function, and to no other one. -/
theorem PubSubInv.register_old (h : PubSubInv ric log t) (hf : f ∈ log.map Prod.fst) :
    ∃ ric', ric.registerListenersForRanFuncId f s = some ric' ∧
      PubSubInv ric' (log ++ [(f, s)]) t := by
  obtain ⟨arr, hfind, hmem⟩ := h.findKey_registered hf
  have harr := h.listeners _ hmem
  have hlt : arr < ric.arrays.length := (List.getElem?_eq_some_iff.1 harr).1
  refine ⟨{ ric with arrays := ric.arrays.set arr (subscribers log f ++ [s]) }, ?_, h.tree, h.keys,
    h.arrays, fun k => ?_, fun e he => ?_⟩
  · simp only [PubSub.registerListenersForRanFuncId, hfind, Option.bind_eq_bind, Option.bind_some,
      harr]
  · rw [h.registered k, List.map_append, List.mem_append]
    refine ⟨Or.inl, Or.rec id fun hk => ?_⟩
    rwa [List.mem_singleton.1 hk]
  · rw [subscribers_append]
    by_cases heq : e.2 = arr
    · obtain rfl : e = (f, arr) := List.inj_on_of_nodup_map h.arrays he hmem heq
      rw [List.getElem?_set_self hlt, if_pos rfl]
    · have hne : f ≠ e.1 := fun hkey =>
        heq (congrArg Prod.snd (List.inj_on_of_nodup_map h.keys he hmem hkey.symm))
      rw [List.getElem?_set_ne (Ne.symm heq), h.listeners e he, if_neg hne, List.append_nil]

/-- No registration fails, and the listeners are those that were registered. -/
theorem registerAll_inv (log : List (Nat × SubsRic φ)) :
    ∃ ric t, PubSub.registerAll log = some ric ∧ PubSubInv ric log t := by
  induction log using List.reverseRecOn with
  | nil => exact ⟨.init, .leaf, rfl, pubSubInv_init⟩
  | append_singleton log e ih =>
    obtain ⟨ric, t, hric, hinv⟩ := ih
    have hstep : PubSub.registerAll (log ++ [e]) = ric.registerListenersForRanFuncId e.1 e.2 := by
      rw [PubSub.registerAll, List.foldlM_append, ← PubSub.registerAll, hric]
      simp
    by_cases hf : e.1 ∈ log.map Prod.fst
    · obtain ⟨ric', hric', hinv'⟩ := hinv.register_old (s := e.2) hf
      exact ⟨ric', t, hstep.trans hric', hinv'⟩
    · obtain ⟨ric', t', hric', hinv'⟩ := hinv.register_new (s := e.2) hf
      exact ⟨ric', t', hstep.trans hric', hinv'⟩

/-! ## Indications -/

/-- The smallest RAN function with listeners is at the front. -/
theorem PubSubInv.front (h : PubSubInv ric log t) (hg : IsLeast {f | f ∈ log.map Prod.fst} g) :
    ∃ it arr next, ric.tree.front = some it ∧ ric.tree.entryAt it = some (g, arr) ∧
      ric.tree.next? it = some next ∧ (g, arr) ∈ entryList t := by
  cases hl : t.toList with
  | nil =>
    have hempty := (h.registered g).2 hg.1
    simp [entryList, hl] at hempty
  | cons a l =>
    obtain ⟨-, hentry, hnext⟩ := iterator_at h.tree.toRbState
      (show t.toList = [] ++ a :: l from hl)
    have hmem : ∀ b ∈ a :: l, (b.key, b.value) ∈ entryList t := fun b hb =>
      List.mem_map_of_mem (hl ▸ hb)
    have hfirst : ∀ k ∈ (entryList t).map Prod.fst, a.key ≤ k := by
      intro k hk
      obtain ⟨e, he, rfl⟩ := List.mem_map.1 hk
      obtain ⟨b, hb, rfl⟩ := List.mem_map.1 he
      have hord := h.tree.ordered
      rw [InOrder, hl, List.pairwise_cons] at hord
      rw [hl] at hb
      rcases List.mem_cons.1 hb with rfl | hb
      · exact le_rfl
      · have hcmp := hord.1 b hb
        by_contra hlt
        exact hcmp (by simp only [cmpRanFuncId, cmpAsc]; grind)
    have hin := hmem a List.mem_cons_self
    have hag : a.key = g := by
      refine le_antisymm (hfirst g ((h.registered g).2 hg.1)) (hg.2 ?_)
      exact (h.registered _).1 (List.mem_map_of_mem (f := Prod.fst) hin)
    refine ⟨a.addr, a.value, _, ?_, hag ▸ hentry, hnext, hag ▸ hin⟩
    rw [front_spec h.tree.toRbState, hl, headAddr_cons]

/-- Whatever RAN function with listeners an indication is for, it reaches those of the smallest one.
-/
theorem publishIndMsg_eq (h : PubSubInv ric log t) (hg : IsLeast {f | f ∈ log.map Prod.fst} g)
    (hf : f ∈ log.map Prod.fst) : ric.publishIndMsg f = some (listenersOf log g) := by
  obtain ⟨it, arr, next, hfront, hentry, hnext, hmem⟩ := h.front hg
  obtain ⟨_, hfind, -⟩ := h.findKey_registered hf
  obtain ⟨smIt, hsm, hit⟩ := Option.bind_eq_some_iff.1 hfind
  have hne : smIt ≠ ric.tree.endIt := by
    rintro rfl
    simp at hit
  rw [PubSub.publishIndMsg, hfront, Option.bind_eq_bind, Option.bind_some, hsm, Option.bind_some,
    if_neg hne, hentry]
  simp [h.listeners _ hmem, hnext, listenersOf]

/-- An indication for another RAN function stops at the assertion. -/
theorem publishIndMsg_unregistered (h : PubSubInv ric log t) (hf : f ∉ log.map Prod.fst) :
    ric.publishIndMsg f = none := by
  have hfind := h.findKey_unregistered hf
  obtain ⟨smIt, hsm, hit⟩ := Option.bind_eq_some_iff.1 hfind
  have hend : smIt = ric.tree.endIt := by
    by_contra hne
    simp [hne] at hit
  rw [PubSub.publishIndMsg, front_spec h.tree.toRbState, Option.bind_eq_bind, Option.bind_some, hsm,
    Option.bind_some, if_pos hend]

theorem exists_isLeast_registered (hf : f ∈ log.map Prod.fst) :
    ∃ g, IsLeast {f | f ∈ log.map Prod.fst} g := by
  have hex : ∃ f, f ∈ log.map Prod.fst := ⟨f, hf⟩
  exact ⟨Nat.find hex, Nat.find_spec hex, fun _ hmem => Nat.find_min' hex hmem⟩

/-- The RAN function has listeners, and the smallest one that does has the same. -/
def SameListeners (log : List (Nat × SubsRic φ)) (f : Nat) : Prop :=
  ∃ g, IsLeast {f | f ∈ log.map Prod.fst} g ∧ f ∈ log.map Prod.fst ∧
    listenersOf log g = listenersOf log f

/-- Whatever was registered, an indication calls exactly the listeners of its RAN function if and
only if the smallest RAN function has the same ones. -/
theorem publishIndMsg_iff (log : List (Nat × SubsRic φ)) (f : Nat) :
    ∃ ric, PubSub.registerAll log = some ric ∧
      (ric.publishIndMsg f = some (listenersOf log f) ↔ SameListeners log f) := by
  obtain ⟨ric, t, hric, hinv⟩ := registerAll_inv log
  refine ⟨ric, hric, ?_⟩
  by_cases hf : f ∈ log.map Prod.fst
  · obtain ⟨g, hg⟩ := exists_isLeast_registered hf
    rw [publishIndMsg_eq hinv hg hf, Option.some_inj]
    refine ⟨fun h => ⟨g, hg, hf, h⟩, ?_⟩
    rintro ⟨g', hg', -, h⟩
    rwa [hg.unique hg']
  · rw [publishIndMsg_unregistered hinv hf]
    refine ⟨fun h => by simp at h, ?_⟩
    rintro ⟨-, -, hf', -⟩
    exact absurd hf' hf

/-- With a listener for each of two RAN functions, an indication of the second one goes to the
listener of the first. -/
theorem not_publishIndMsg_own :
    ¬∀ (log : List (Nat × SubsRic Nat)) (f : Nat), f ∈ log.map Prod.fst →
      ∃ ric, PubSub.registerAll log = some ric ∧
        ric.publishIndMsg f = some (listenersOf log f) := by
  intro hall
  obtain ⟨ric, hric, hpub⟩ := hall [(142, ⟨"mac", 0⟩), (143, ⟨"rlc", 1⟩)] 143 (by decide)
  have hrun : (PubSub.registerAll [(142, (⟨"mac", 0⟩ : SubsRic Nat)), (143, ⟨"rlc", 1⟩)]).bind
      (fun ric => ric.publishIndMsg 143) = some [0] := by
    decide
  rw [hric, Option.bind_some, hpub] at hrun
  exact absurd hrun (by decide)

/-! ## The default listeners -/

/-- `load_default_pub_sub_ric`, for the RAN functions of the plugins. -/
def loadDefaultPubSubRic (ranFuncIds : List Nat) (stdout redis influx : φ) :
    List (Nat × SubsRic φ) :=
  ranFuncIds.flatMap fun f =>
    [(f, ⟨"stdout listener", stdout⟩), (f, ⟨"redis listener", redis⟩),
      (f, ⟨"influx listener", influx⟩)]

variable {stdout redis influx : φ} {ranFuncIds : List Nat}

theorem mem_loadDefault : f ∈ (loadDefaultPubSubRic ranFuncIds stdout redis influx).map Prod.fst ↔
    f ∈ ranFuncIds := by
  simp only [loadDefaultPubSubRic, List.map_flatMap, List.mem_flatMap, List.map_cons, List.map_nil,
    List.mem_cons, List.not_mem_nil, or_false, or_self]
  exact exists_eq_right'

/-- Every RAN function has the three. -/
theorem listenersOf_default (hnodup : ranFuncIds.Nodup) (hf : f ∈ ranFuncIds) :
    listenersOf (loadDefaultPubSubRic ranFuncIds stdout redis influx) f =
      [stdout, redis, influx] := by
  induction ranFuncIds with
  | nil => exact absurd hf List.not_mem_nil
  | cons g ids ih =>
    obtain ⟨hg, hids⟩ := List.nodup_cons.1 hnodup
    have hcons : subscribers (loadDefaultPubSubRic (g :: ids) stdout redis influx) f =
        (if g = f then [⟨"stdout listener", stdout⟩, ⟨"redis listener", redis⟩,
          ⟨"influx listener", influx⟩] else []) ++
          subscribers (loadDefaultPubSubRic ids stdout redis influx) f := by
      by_cases h : g = f <;> simp [subscribers, loadDefaultPubSubRic, h]
    rw [listenersOf, hcons]
    by_cases h : g = f
    · have hin : f ∉ (loadDefaultPubSubRic ids stdout redis influx).map Prod.fst := fun hmem =>
        hg (h ▸ mem_loadDefault.1 hmem)
      rw [if_pos h, subscribers_eq_nil hin]
      rfl
    · rw [if_neg h]
      exact ih hids (Or.resolve_left (List.mem_cons.1 hf) (Ne.symm h))

/-- The array of the front makes no difference as long as nothing else is registered. -/
theorem sameListeners_default (hnodup : ranFuncIds.Nodup) (hf : f ∈ ranFuncIds) :
    SameListeners (loadDefaultPubSubRic ranFuncIds stdout redis influx) f := by
  have hin : ∀ g, g ∈ (loadDefaultPubSubRic ranFuncIds stdout redis influx).map Prod.fst ↔
      g ∈ ranFuncIds := fun _ => mem_loadDefault
  obtain ⟨g, hg⟩ := exists_isLeast_registered ((hin f).2 hf)
  refine ⟨g, hg, (hin f).2 hf, ?_⟩
  rw [listenersOf_default hnodup ((hin g).1 hg.1), listenersOf_default hnodup hf]

end NrStack
