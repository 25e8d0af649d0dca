import Mathlib.Data.List.TakeWhile
import NrStack.Library.Chain
import NrStack.Sdap.Release

/-!
# Deleting entities from the list in memory

`nr_sdap_delete_entity` and `nr_sdap_delete_ue_entities` on the nodes that `sdap_entity_llist`
points to, with the pointers as the code moves them; a null pointer that is read is `none`.

The second one always leaves the entities of the other UEs. The first one reads the head of an empty
list, unless the PDU session is out of range, and does not look at more than
`SDAP_MAX_NUM_OF_ENTITIES + 1` entities : `deletesEntities_iff` says when it is right. Where it does
not fail it does what `nrSdapDeleteEntity` says of the list of entities
(`SdapInfo.deleteEntity_refines`).
-/

namespace NrStack

/-! ## The code -/

/-- What of `nr_sdap_entity_t` a deletion reads. -/
structure SdapNode where
  entity : NrSdapEntity
  pdusessionSock : Int

/-- `sdap_info`, the memory it points to, and the calls of `remove_ip_if`. -/
structure SdapInfo where
  memory : Memory Nat SdapNode
  sdapEntityLlist : Option Nat
  removedIfs : List NrSdapEntity

namespace SdapInfo

/-- `remove_ip_if`, if there is a socket, and `free`. -/
def discardNode (s : SdapInfo) (a : Nat) (e : SdapNode) : SdapInfo where
  memory := s.memory.free a
  sdapEntityLlist := s.sdapEntityLlist
  removedIfs := if e.pdusessionSock ≠ -1 then s.removedIfs ++ [e.entity] else s.removedIfs

def discard (s : SdapInfo) (entityPtr : Option Nat) : Option SdapInfo :=
  entityPtr.bind fun a => (s.memory a).map fun n => s.discardNode a n.val

/-- `entityPrev->next_entity = entityPtr->next_entity`, and the entity is discarded. -/
def unlink (s : SdapInfo) (entityPrev entityPtr : Option Nat) : Option SdapInfo := do
  let e ← s.memory.read entityPtr
  let m ← s.memory.setNext entityPrev e.next
  { s with memory := m }.discard entityPtr

/-- The head is taken out of the list, and discarded. -/
def unlinkHead (s : SdapInfo) : Option SdapInfo := do
  let e ← s.memory.read s.sdapEntityLlist
  { s with sdapEntityLlist := e.next }.discard s.sdapEntityLlist

/-- `pdusession_id * (pdusession_id - NGAP_MAX_PDU_SESSION) > 0`; `none` is an overflow. -/
def pdusessionOutOfRange (pdusessionId : Int) : Option Bool :=
  let product := pdusessionId * (pdusessionId - ngapMaxPduSession)
  if -2 ^ 31 ≤ product ∧ product < 2 ^ 31 then some (product > 0) else none

/-- The loop of `nr_sdap_delete_entity`, with the steps that `upperBound` leaves. -/
def findEntity (m : Memory Nat SdapNode) (ueId : Nat) (pdusessionId : Int) :
    Nat → Option Nat → Option Nat → Option (Option Nat × Option Nat)
  | 0, entityPrev, entityPtr => (m.read entityPtr).map fun _ => (entityPrev, entityPtr)
  | n + 1, entityPrev, entityPtr => do
    let e ← m.read entityPtr
    if ¬ e.val.entity.IsFor ueId pdusessionId ∧ e.next ≠ none then
      findEntity m ueId pdusessionId n entityPtr e.next
    else some (entityPrev, entityPtr)

/-- `nr_sdap_delete_entity`, when the head is not the entity. -/
def deleteBehindHead (s : SdapInfo) (ueId : Nat) (pdusessionId : Int) :
    Option (SdapInfo × Bool) := do
  let found ← findEntity s.memory ueId pdusessionId sdapMaxNumOfEntities none s.sdapEntityLlist
  let e ← s.memory.read found.2
  if e.val.entity.IsFor ueId pdusessionId then (s.unlink found.1 found.2).map (·, true)
  else some (s, false)

/-- `nr_sdap_delete_entity`. -/
def deleteEntity (s : SdapInfo) (ueId : Nat) (pdusessionId : Int) : Option (SdapInfo × Bool) := do
  let refused ←
    if s.sdapEntityLlist = none then pdusessionOutOfRange pdusessionId else some false
  if refused then some (s, false)
  else
    let e ← s.memory.read s.sdapEntityLlist
    if e.val.entity.IsFor ueId pdusessionId then s.unlinkHead.map (·, true)
    else s.deleteBehindHead ueId pdusessionId

/-- The first loop of `nr_sdap_delete_ue_entities`. `upperBound` stays `0`. -/
def deleteHeads (ueId : Nat) : Nat → SdapInfo → Bool → Option (SdapInfo × Bool)
  | 0, _, _ => none
  | fuel + 1, s, ret =>
    match s.sdapEntityLlist with
    | none => some (s, ret)
    | some a => do
      let e ← s.memory a
      if e.val.entity.ueId = ueId then
        let s' ← s.unlinkHead
        deleteHeads ueId fuel s' true
      else some (s, ret)

/-- The second loop of `nr_sdap_delete_ue_entities`. -/
def deleteOthers (ueId : Nat) :
    Nat → SdapInfo → Option Nat → Option Nat → Bool → Option (SdapInfo × Bool)
  | 0, _, _, _, _ => none
  | fuel + 1, s, entityPrev, entityPtr, ret =>
    match entityPtr with
    | none => some (s, ret)
    | some a => do
      let e ← s.memory a
      if e.val.entity.ueId ≠ ueId then deleteOthers ueId fuel s (some a) e.next ret
      else
        let s' ← s.unlink entityPrev (some a)
        let prev ← s'.memory.read entityPrev
        deleteOthers ueId fuel s' entityPrev prev.next true

/-- `nr_sdap_delete_ue_entities`. `ue_id * (ue_id - SDAP_MAX_UE_ID)` is unsigned. -/
def deleteUeEntities (fuel : Nat) (s : SdapInfo) (ueId : Nat) : Option (SdapInfo × Bool) :=
  if s.sdapEntityLlist = none ∧ UInt64.ofNat ueId * (UInt64.ofNat ueId - 65536) > 0 then
    some (s, false)
  else do
    let r ← deleteHeads ueId fuel s false
    deleteOthers ueId fuel r.1 none r.1.sdapEntityLlist r.2

/-! ## What a deletion is for -/

/-- The entities in memory, with their addresses. -/
def IsList (s : SdapInfo) (l : List (Nat × SdapNode)) : Prop :=
  Chain s.memory s.sdapEntityLlist l none

/-- The call returns, with the list `l'` left of `l`, and says whether an entity was removed. -/
def Deletes (l l' : List (Nat × SdapNode)) (r : Option (SdapInfo × Bool)) : Prop :=
  ∃ s' ret, r = some (s', ret) ∧ s'.IsList l' ∧ (ret = true ↔ l' ≠ l)

/-! ## The steps of the loops -/

variable {s : SdapInfo} {a b ueId : Nat} {v w : SdapNode} {pdusessionId : Int}
  {l l₁ l₂ : List (Nat × SdapNode)}

theorem discard_spec {n : Node Nat SdapNode} (ha : s.memory a = some n)
    (hl : Chain (s.memory.free a) s.sdapEntityLlist l none) :
    ∃ s', s.discard (some a) = some s' ∧ s'.IsList l :=
  ⟨s.discardNode a n.val, by rw [discard, Option.bind_some, ha, Option.map_some], hl⟩

theorem IsList.unlinkHead (h : s.IsList ((a, v) :: l)) :
    ∃ s', s.unlinkHead = some s' ∧ s'.IsList l := by
  have hhead : s.sdapEntityLlist = some a := h.head
  rw [IsList, hhead] at h
  obtain ⟨r, hr, hl⟩ := h.unlink_head
  obtain ⟨s', hs', hlist⟩ := discard_spec (s := { s with sdapEntityLlist := r }) hr hl
  refine ⟨s', ?_, hlist⟩
  rw [SdapInfo.unlinkHead, hhead, Memory.read_some, hr]
  exact hs'

theorem IsList.unlink (h : s.IsList (l₁ ++ (b, w) :: (a, v) :: l₂)) :
    ∃ s', s.unlink (some b) (some a) = some s' ∧ s'.IsList (l₁ ++ (b, w) :: l₂) := by
  obtain ⟨r, m, hr, hset, ha, hl⟩ := Chain.unlink h
  obtain ⟨s', hs', hlist⟩ := discard_spec (s := { s with memory := m }) ha hl
  refine ⟨s', ?_, hlist⟩
  rw [SdapInfo.unlink, Memory.read_some, hr, Option.bind_eq_bind, Option.bind_some, hset]
  exact hs'

/-- The entity of a node is the one that is looked for. -/
def IsMatch (ueId : Nat) (pdusessionId : Int) (x : Nat × SdapNode) : Bool :=
  x.2.entity.IsFor ueId pdusessionId

variable (ueId pdusessionId) in
/-- The loop stops at the first match, at the end, or when `upperBound` is reached. -/
theorem findEntity_spec {m : Memory Nat SdapNode} : ∀ (n : Nat) {x : Nat × SdapNode}
    {l : List (Nat × SdapNode)} {entityPtr : Option Nat} (entityPrev : Option Nat),
    Chain m entityPtr (x :: l) none → ∃ l₁ y l₂, x :: l = l₁ ++ y :: l₂ ∧
      findEntity m ueId pdusessionId n entityPrev entityPtr =
        some ((l₁.getLast?.map Prod.fst).or entityPrev, some y.1) ∧
      (∀ z ∈ l₁, ¬IsMatch ueId pdusessionId z) ∧ l₁.length ≤ n ∧
      (IsMatch ueId pdusessionId y ∨ l₂ = [] ∨ l₁.length = n)
  | 0, x, l, entityPtr, entityPrev, ⟨hp, r, hr, _⟩ => by
    refine ⟨[], x, l, rfl, ?_, by simp, le_rfl, .inr (.inr rfl)⟩
    simp [findEntity, hp, hr]
  | n + 1, x, l, entityPtr, entityPrev, ⟨hp, r, hr, hl⟩ => by
    by_cases hmatch : x.2.entity.IsFor ueId pdusessionId
    · refine ⟨[], x, l, rfl, ?_, by simp, Nat.zero_le _, .inl (decide_eq_true hmatch)⟩
      simp [findEntity, hp, hr, hmatch]
    cases l with
    | nil =>
      refine ⟨[], x, [], rfl, ?_, by simp, Nat.zero_le _, .inr (.inl rfl)⟩
      have hend : r = none := hl
      simp [findEntity, hp, hr, hend]
    | cons x' l =>
      obtain ⟨l₁, y, l₂, hsplit, hfind, hbefore, hle, hstop⟩ :=
        findEntity_spec n entityPtr hl
      refine ⟨x :: l₁, y, l₂, by rw [hsplit]; rfl, ?_, ?_, by simpa using hle, ?_⟩
      · have hnext : r ≠ none := by
          rw [hl.head]
          exact Option.some_ne_none _
        have hlast : ((x :: l₁).getLast?.map Prod.fst).or entityPrev =
            (l₁.getLast?.map Prod.fst).or entityPtr := by
          rw [hp, List.getLast?_cons]
          cases l₁.getLast? <;> rfl
        rw [hlast, ← hfind, findEntity, hp, Memory.read_some, hr, Option.bind_eq_bind,
          Option.bind_some, if_pos ⟨hmatch, hnext⟩]
      · intro z hz
        rcases List.mem_cons.1 hz with rfl | hz
        · exact fun h => hmatch (of_decide_eq_true h)
        · exact hbefore z hz
      · simpa using hstop

/-! ## One PDU session -/

/-- What the first entities say is what the entity says where the loop stops. -/
theorem any_take_of_stop {α : Type*} {p : α → Bool} {l₁ l₂ : List α} {y : α} {n : Nat}
    (hbefore : ∀ z ∈ l₁, ¬p z) (hle : l₁.length ≤ n) (hstop : p y ∨ l₂ = [] ∨ l₁.length = n) :
    ((l₁ ++ y :: l₂).take (n + 1)).any p = p y := by
  have htake : (l₁ ++ y :: l₂).take (n + 1) = l₁ ++ y :: l₂.take (n - l₁.length) := by
    rw [List.take_append, List.take_of_length_le (by omega), Nat.succ_sub hle, List.take_succ_cons]
  have hnone : l₁.any p = false := by simpa using hbefore
  rw [htake, List.any_append, hnone, Bool.false_or, List.any_cons]
  rcases hstop with hy | rfl | rfl
  · rw [hy, Bool.true_or]
  · simp
  · simp

variable (ueId pdusessionId) in
/-- With a match among the first entities, it is deleted; else the list is as it was. -/
theorem deleteEntity_spec {x : Nat × SdapNode} (h : s.IsList (x :: l)) :
    if ((x :: l).take (sdapMaxNumOfEntities + 1)).any (IsMatch ueId pdusessionId) then
      ∃ s', s.deleteEntity ueId pdusessionId = some (s', true) ∧
        s'.IsList ((x :: l).eraseP (IsMatch ueId pdusessionId))
    else s.deleteEntity ueId pdusessionId = some (s, false) := by
  have hhead : s.sdapEntityLlist = some x.1 := h.head
  obtain ⟨r, hr, -⟩ := Chain.head_node h
  have hcall : s.deleteEntity ueId pdusessionId =
      if x.2.entity.IsFor ueId pdusessionId then s.unlinkHead.map (·, true)
      else s.deleteBehindHead ueId pdusessionId := by
    simp [deleteEntity, hhead, hr]
  rw [hcall]
  by_cases hx : x.2.entity.IsFor ueId pdusessionId
  · have hmatch : IsMatch ueId pdusessionId x = true := decide_eq_true hx
    obtain ⟨s', hs', hlist⟩ := h.unlinkHead
    rw [if_pos hx, List.take_succ_cons, List.any_cons, hmatch, Bool.true_or, if_pos rfl, hs',
      List.eraseP_cons_of_pos hmatch]
    exact ⟨s', rfl, hlist⟩
  rw [if_neg hx, deleteBehindHead]
  obtain ⟨l₁, y, l₂, hsplit, hfind, hbefore, hle, hstop⟩ :=
    findEntity_spec ueId pdusessionId sdapMaxNumOfEntities none h
  rw [hsplit] at h ⊢
  obtain ⟨t, ht, -⟩ := h.node
  rw [any_take_of_stop hbefore hle hstop, hfind]
  simp only [Option.bind_eq_bind, Option.bind_some, Memory.read_some, ht]
  by_cases hy : y.2.entity.IsFor ueId pdusessionId
  · have hmatch : IsMatch ueId pdusessionId y = true := decide_eq_true hy
    rw [if_pos hmatch, if_pos hy]
    -- the head is no match, so the match has an entity before it
    rcases List.eq_nil_or_concat' l₁ with rfl | ⟨l₀, b, rfl⟩
    · rw [List.nil_append, List.cons_eq_cons] at hsplit
      exact absurd (hsplit.1 ▸ hy) hx
    rw [List.append_assoc, List.singleton_append] at h
    obtain ⟨s', hs', hlist⟩ := h.unlink
    refine ⟨s', ?_, ?_⟩
    · simp only [List.getLast?_append, List.getLast?_singleton, Option.some_or, Option.map_some,
        hs']
    · rw [List.eraseP_append_right _ hbefore, List.eraseP_cons_of_pos hmatch, List.append_assoc]
      exact hlist
  · rw [if_neg hy, if_neg (by simpa [IsMatch] using hy)]

/-- `nr_sdap_delete_entity` on an empty list. -/
theorem deleteEntity_nil (h : s.IsList []) : s.deleteEntity ueId pdusessionId =
    if pdusessionOutOfRange pdusessionId = some true then some (s, false) else none := by
  have hhead : s.sdapEntityLlist = none := h
  cases hrange : pdusessionOutOfRange pdusessionId with
  | none => simp [deleteEntity, hhead, hrange]
  | some refused => cases refused <;> simp [deleteEntity, hhead, hrange, Memory.read]

/-- The empty list and the entities that are not looked at are left out. -/
def CanDelete (l : List (Nat × SdapNode)) (ueId : Nat) (pdusessionId : Int) : Prop :=
  (l = [] → pdusessionOutOfRange pdusessionId = some true) ∧
    (l.any (IsMatch ueId pdusessionId) →
      (l.take (sdapMaxNumOfEntities + 1)).any (IsMatch ueId pdusessionId))

theorem deletesEntity_iff (h : s.IsList l) :
    Deletes l (l.eraseP (IsMatch ueId pdusessionId)) (s.deleteEntity ueId pdusessionId) ↔
      CanDelete l ueId pdusessionId := by
  cases l with
  | nil =>
    rw [deleteEntity_nil h, CanDelete]
    constructor
    · rintro ⟨s', ret, hret, -⟩
      split_ifs at hret with hrange
      exact ⟨fun _ => hrange, by simp⟩
    · rintro ⟨hrange, -⟩
      rw [if_pos (hrange rfl)]
      exact ⟨s, false, rfl, h, by simp⟩
  | cons x l =>
    have hspec := deleteEntity_spec ueId pdusessionId h
    split_ifs at hspec with htake
    · obtain ⟨s', hs', hlist⟩ := hspec
      refine ⟨fun _ => ⟨fun hnil => (List.cons_ne_nil _ _ hnil).elim, fun _ => htake⟩, fun _ => ?_⟩
      refine ⟨s', true, hs', hlist, iff_of_true rfl fun heq => ?_⟩
      obtain ⟨y, hy, hmatch⟩ := List.any_eq_true.1 htake
      have hlength := List.length_eraseP_of_mem (List.mem_of_mem_take hy) hmatch
      rw [heq, List.length_cons] at hlength
      omega
    · rw [hspec]
      constructor
      · rintro ⟨s', ret, hret, hlist, -⟩
        cases hret
        refine ⟨fun hnil => (List.cons_ne_nil _ _ hnil).elim, fun hany => ?_⟩
        obtain ⟨y, hy, hmatch⟩ := List.any_eq_true.1 hany
        have hlength := List.length_eraseP_of_mem hy hmatch
        rw [Chain.unique hlist h, List.length_cons] at hlength
        omega
      · rintro ⟨-, hfirst⟩
        have hnone : ∀ y ∈ x :: l, ¬IsMatch ueId pdusessionId y := by
          simpa using mt hfirst htake
        rw [List.eraseP_of_forall_not hnone]
        exact ⟨s, false, rfl, h, by simp⟩

/-! ## All PDU sessions of a UE -/

/-- The node is an entity of the UE. -/
def IsOfUe (ueId : Nat) (x : Nat × SdapNode) : Bool :=
  x.2.entity.ueId = ueId

variable (ueId) in
theorem deleteHeads_spec : ∀ (fuel : Nat) {s : SdapInfo} {l : List (Nat × SdapNode)} (ret : Bool),
    s.IsList l → l.length < fuel → ∃ s',
      deleteHeads ueId fuel s ret =
          some (s', ret || (l.takeWhile (IsOfUe ueId)).any (IsOfUe ueId)) ∧
        s'.IsList (l.dropWhile (IsOfUe ueId))
  | 0, _, _, _, _, hfuel => absurd hfuel (Nat.not_lt_zero _)
  | fuel + 1, s, [], ret, h, _ => by
    have hhead : s.sdapEntityLlist = none := h
    exact ⟨s, by simp [deleteHeads, hhead], h⟩
  | fuel + 1, s, x :: l, ret, h, hfuel => by
    have hhead : s.sdapEntityLlist = some x.1 := h.head
    obtain ⟨r, hr, -⟩ := Chain.head_node h
    have hstep : deleteHeads ueId (fuel + 1) s ret =
        if x.2.entity.ueId = ueId then s.unlinkHead.bind fun s' => deleteHeads ueId fuel s' true
        else some (s, ret) := by
      rw [deleteHeads, hhead]
      dsimp only
      rw [hr]
      rfl
    rw [hstep]
    by_cases hx : x.2.entity.ueId = ueId
    · have hof : IsOfUe ueId x = true := decide_eq_true hx
      obtain ⟨s₁, hs₁, hl₁⟩ := h.unlinkHead
      obtain ⟨s', hs', hl'⟩ := deleteHeads_spec fuel true hl₁ (Nat.lt_of_succ_lt_succ hfuel)
      refine ⟨s', ?_, by rwa [List.dropWhile_cons_of_pos hof]⟩
      rw [if_pos hx, hs₁, Option.bind_some, hs', List.takeWhile_cons_of_pos hof, List.any_cons, hof,
        Bool.true_or, Bool.or_true]
    · have hof : ¬IsOfUe ueId x = true := by simpa [IsOfUe] using hx
      refine ⟨s, ?_, by rwa [List.dropWhile_cons_of_neg hof]⟩
      rw [if_neg hx, List.takeWhile_cons_of_neg hof, List.any_nil, Bool.or_false]

variable (ueId) in
/-- With `entityPrev` in the list, the entities of the UE behind it are deleted. -/
theorem deleteOthers_spec : ∀ (fuel : Nat) {s : SdapInfo} (pre : List (Nat × SdapNode))
    {post : List (Nat × SdapNode)} {b : Nat × SdapNode} {entityPtr : Option Nat} (ret : Bool),
    s.IsList (pre ++ b :: post) → s.memory b.1 = some ⟨b.2, entityPtr⟩ → post.length < fuel →
    ∃ s', deleteOthers ueId fuel s (some b.1) entityPtr ret =
        some (s', ret || post.any (IsOfUe ueId)) ∧
      s'.IsList (pre ++ b :: post.filter (!IsOfUe ueId ·))
  | 0, _, _, _, _, _, _, _, _, hfuel => absurd hfuel (Nat.not_lt_zero _)
  | fuel + 1, s, pre, [], b, entityPtr, ret, h, hb, _ => by
    obtain ⟨r, hr, hend⟩ := h.node
    cases hr.symm.trans hb
    have hnull : entityPtr = none := hend
    exact ⟨s, by simp [deleteOthers, hnull], h⟩
  | fuel + 1, s, pre, x :: post, b, entityPtr, ret, h, hb, hfuel => by
    have hfuel' : post.length < fuel := Nat.lt_of_succ_lt_succ hfuel
    obtain ⟨r, hr, hrest⟩ := h.node
    cases hr.symm.trans hb
    obtain ⟨hptr, t, ht, -⟩ := hrest
    have hstep : deleteOthers ueId (fuel + 1) s (some b.1) entityPtr ret =
        if x.2.entity.ueId ≠ ueId then deleteOthers ueId fuel s (some x.1) t ret
        else (s.unlink (some b.1) (some x.1)).bind fun s' =>
          (s'.memory b.1).bind fun prev => deleteOthers ueId fuel s' (some b.1) prev.next true := by
      rw [hptr, deleteOthers, ht]
      rfl
    rw [hstep]
    by_cases hx : x.2.entity.ueId = ueId
    · have hof : IsOfUe ueId x = true := decide_eq_true hx
      obtain ⟨s₁, hs₁, hl₁⟩ := h.unlink
      obtain ⟨r₁, hr₁, -⟩ := hl₁.node
      obtain ⟨s', hs', hl'⟩ := deleteOthers_spec fuel pre true hl₁ hr₁ hfuel'
      refine ⟨s', ?_, ?_⟩
      · rw [if_neg (not_not.2 hx), hs₁, Option.bind_some, hr₁, Option.bind_some, hs', List.any_cons,
          hof, Bool.true_or, Bool.or_true]
      · rwa [List.filter_cons_of_neg (by simp [hof])]
    · have hof : IsOfUe ueId x = false := decide_eq_false hx
      have h' : s.IsList ((pre ++ [b]) ++ x :: post) := by
        rwa [List.append_assoc]
      obtain ⟨s', hs', hl'⟩ := deleteOthers_spec fuel (pre ++ [b]) ret h' ht hfuel'
      refine ⟨s', ?_, ?_⟩
      · rw [if_pos hx, hs', List.any_cons, hof, Bool.false_or]
      · rw [List.filter_cons_of_pos (by simp [hof])]
        rwa [List.append_assoc] at hl'

variable (ueId) in
theorem deleteUeEntities_spec {fuel : Nat} (h : s.IsList l) (hfuel : l.length < fuel) :
    ∃ s', s.deleteUeEntities fuel ueId = some (s', l.any (IsOfUe ueId)) ∧
      s'.IsList (l.filter (!IsOfUe ueId ·)) := by
  have hsplit := List.takeWhile_append_dropWhile (p := IsOfUe ueId) (l := l)
  have hheads : ∀ x ∈ l.takeWhile (IsOfUe ueId), IsOfUe ueId x = true :=
    fun x hx => List.mem_takeWhile_imp hx
  have hfilter : l.filter (!IsOfUe ueId ·) =
      (l.dropWhile (IsOfUe ueId)).filter (!IsOfUe ueId ·) := by
    conv_lhs => rw [← hsplit, List.filter_append]
    rw [List.filter_eq_nil_iff.2 fun x hx => by simp [hheads x hx], List.nil_append]
  have hany : l.any (IsOfUe ueId) = ((l.takeWhile (IsOfUe ueId)).any (IsOfUe ueId) ||
      (l.dropWhile (IsOfUe ueId)).any (IsOfUe ueId)) := by
    rw [← List.any_append, hsplit]
  rw [deleteUeEntities, hfilter, hany]
  by_cases hnull : s.sdapEntityLlist = none ∧
      UInt64.ofNat ueId * (UInt64.ofNat ueId - 65536) > 0
  · obtain rfl : l = [] := Chain.unique h (by rw [hnull.1]; rfl)
    rw [if_pos hnull]
    exact ⟨s, rfl, h⟩
  rw [if_neg hnull]
  obtain ⟨s₁, hs₁, hl₁⟩ := deleteHeads_spec ueId fuel false h hfuel
  rw [hs₁, Option.bind_eq_bind, Option.bind_some, Bool.false_or]
  dsimp only
  obtain ⟨n, rfl⟩ : ∃ n, fuel = n + 1 := ⟨fuel - 1, by omega⟩
  have hle : (l.dropWhile (IsOfUe ueId)).length ≤ l.length := List.length_dropWhile_le ..
  cases hrest : l.dropWhile (IsOfUe ueId) with
  | nil =>
    rw [hrest] at hl₁
    have hend : s₁.sdapEntityLlist = none := hl₁
    exact ⟨s₁, by simp [deleteOthers, hend], hl₁⟩
  | cons x rest =>
    rw [hrest] at hl₁ hle
    have hx : IsOfUe ueId x = false := by
      have hne : l.dropWhile (IsOfUe ueId) ≠ [] := by
        rw [hrest]
        exact List.cons_ne_nil _ _
      have hhead := List.head_dropWhile_not (IsOfUe ueId) hne
      simpa [hrest] using hhead
    have hne : x.2.entity.ueId ≠ ueId := of_decide_eq_false hx
    have hptr : s₁.sdapEntityLlist = some x.1 := hl₁.head
    obtain ⟨t, ht, -⟩ := Chain.head_node hl₁
    obtain ⟨s', hs', hl'⟩ := deleteOthers_spec ueId n []
      ((l.takeWhile (IsOfUe ueId)).any (IsOfUe ueId)) hl₁ ht
      (by rw [List.length_cons] at hle; omega)
    refine ⟨s', ?_, ?_⟩
    · rw [hptr, deleteOthers, ht, Option.bind_eq_bind, Option.bind_some, if_pos hne, hs',
        List.any_cons, hx, Bool.false_or]
    · rw [List.filter_cons_of_pos (by simp [hx])]
      exact hl'

/-! ## Both -/

/-- The two deletions are right of a list if and only if it is not empty, or the PDU session is out
of range, and the entity is not behind those that `nr_sdap_delete_entity` looks at. -/
theorem deletesEntities_iff (s : SdapInfo) (l : List (Nat × SdapNode)) (h : s.IsList l)
    (ueId : Nat) (pdusessionId : Int) :
    (Deletes l (l.eraseP (IsMatch ueId pdusessionId)) (s.deleteEntity ueId pdusessionId) ∧
      ∀ fuel > l.length,
        Deletes l (l.filter (!IsOfUe ueId ·)) (s.deleteUeEntities fuel ueId)) ↔
      CanDelete l ueId pdusessionId := by
  rw [deletesEntity_iff h]
  refine and_iff_left fun fuel hfuel => ?_
  obtain ⟨s', hs', hl'⟩ := deleteUeEntities_spec ueId h hfuel
  refine ⟨s', _, hs', hl', ?_⟩
  rw [List.any_eq_true, ne_eq, List.filter_eq_self]
  simp

/-- On an empty list the call reads a null pointer. -/
theorem not_deletesEntities_empty :
    (SdapInfo.mk (fun _ => none) none []).IsList [] ∧
      ¬ Deletes [] ([].eraseP (IsMatch 1 10))
        ((SdapInfo.mk (fun _ => none) none []).deleteEntity 1 10) := by
  refine ⟨rfl, ?_⟩
  rintro ⟨s', ret, hret, -⟩
  have hfails : (SdapInfo.mk (fun _ => none) none []).deleteEntity 1 10 = none := rfl
  rw [hfails] at hret
  cases hret

/-- Entities of two UEs. -/
def threeNodes : List (Nat × SdapNode) :=
  [(1, ⟨.create true false false 7 10 false 0 [], -1⟩),
    (2, ⟨.create true false false 8 10 false 0 [], 5⟩),
    (3, ⟨.create true false false 7 11 false 0 [], 6⟩)]

/-- The entities of `threeNodes` in memory. -/
def threeEntities : SdapInfo where
  memory a := (threeNodes.lookup a).map fun e => ⟨e, if a < 3 then some (a + 1) else none⟩
  sdapEntityLlist := some 1
  removedIfs := []

/-- The last of the three is deleted, and both of the UE. -/
theorem deletesEntities_iff_three :
    Deletes threeNodes (threeNodes.eraseP (IsMatch 7 11)) (threeEntities.deleteEntity 7 11) ∧
      ∀ fuel > 3, Deletes threeNodes (threeNodes.filter (!IsOfUe 7 ·))
        (threeEntities.deleteUeEntities fuel 7) := by
  have hlist : threeEntities.IsList threeNodes :=
    ⟨rfl, _, rfl, rfl, _, rfl, rfl, _, rfl, rfl⟩
  exact (deletesEntities_iff threeEntities threeNodes hlist 7 11).2
    ⟨fun hnil => (List.cons_ne_nil _ _ hnil).elim, fun _ => by decide⟩

/-! ## The list without its memory -/

/-- What is in the list. -/
def entities (l : List (Nat × SdapNode)) : List NrSdapEntity :=
  l.map (·.2.entity)

theorem entities_eraseP (l : List (Nat × SdapNode)) :
    entities (l.eraseP (IsMatch ueId pdusessionId)) =
      (entities l).eraseP fun e => e.IsFor ueId pdusessionId := by
  rw [entities, entities, List.eraseP_map]
  rfl

theorem deleteEntity_refines {s' : SdapInfo} {ret : Bool} (h : s.IsList l)
    (hs : s.deleteEntity ueId pdusessionId = some (s', ret)) :
    ∃ l', s'.IsList l' ∧
      nrSdapDeleteEntity (entities l) ueId pdusessionId = some (entities l') := by
  cases l with
  | nil =>
    rw [deleteEntity_nil h] at hs
    split_ifs at hs with hrange
    cases hs
    refine ⟨[], h, ?_⟩
    rw [pdusessionOutOfRange] at hrange
    split_ifs at hrange
    have hrange' : pdusessionId * (pdusessionId - ngapMaxPduSession) > 0 :=
      of_decide_eq_true (Option.some.inj hrange)
    exact (if_pos rfl).trans (if_pos hrange')
  | cons x l =>
    have hspec := deleteEntity_spec ueId pdusessionId h
    have htake : ((entities (x :: l)).take (sdapMaxNumOfEntities + 1)).any
        (fun e => e.IsFor ueId pdusessionId) =
          ((x :: l).take (sdapMaxNumOfEntities + 1)).any (IsMatch ueId pdusessionId) := by
      rw [entities, ← List.map_take, List.any_map]
      rfl
    rw [nrSdapDeleteEntity, if_neg (by simp [entities]), htake, ← entities_eraseP]
    split_ifs at hspec ⊢ with hany
    · obtain ⟨s₁, hs₁, hlist⟩ := hspec
      cases hs₁.symm.trans hs
      exact ⟨_, hlist, rfl⟩
    · cases hspec.symm.trans hs
      exact ⟨_, h, rfl⟩

theorem deleteUeEntities_refines {fuel : Nat} (h : s.IsList l) (hfuel : l.length < fuel) :
    ∃ s' ret l', s.deleteUeEntities fuel ueId = some (s', ret) ∧ s'.IsList l' ∧
      entities l' = nrSdapDeleteUeEntities (entities l) ueId := by
  obtain ⟨s', hs', hl'⟩ := deleteUeEntities_spec ueId h hfuel
  refine ⟨s', _, _, hs', hl', ?_⟩
  rw [nrSdapDeleteUeEntities, entities, entities, List.filter_map]
  refine congrArg (List.map _) (List.filter_congr fun x _ => ?_)
  simp [IsOfUe]

end SdapInfo

end NrStack
