import NrStack.Flexric.AssocRbRun
import Mathlib.Data.List.TakeWhile
import Mathlib.Data.Multiset.MapFold

/-!
# The bidirectional map

`find_if` over a tree, and the map of `bimap.c` : two trees that hold each pair both ways.
`findKey_spec` : a search over the iterators finds the first key in order that passes the
test. `BiInv` is the invariant of the map, both trees with the same pairs. An insertion
keeps it (`BiMap.insert_spec`). An extraction takes one node out of each tree, the second
one by the value of the first, and an assertion compares the two
(`BiMap.extractRight_meet`).
-/

namespace NrStack

variable {κ ν : Type}

/-! ## Search over the iterators -/

namespace AssocRbTree

/-- The loop of `find_if_rb_tree`, for a test on the iterator and its node. -/
def findLoop (f : Nat → AssocNode κ ν → Bool) : Nat → AssocRbTree κ ν → Nat → Option Nat
  | 0, _, _ => none
  | fuel + 1, t, it =>
    if it = t.endIt then some it
    else do
      let n ← t.heap it
      if f it n then some it
      else do
        let next ← t.next? it
        findLoop f fuel t next

/-- `find_if` from the front to the end. -/
def findIf (f : Nat → AssocNode κ ν → Bool) (t : AssocRbTree κ ν) : Option Nat := do
  let it ← t.front
  findLoop f (t.size + 1) t it

/-- `find_if` with a test on the keys, and the entry it finds : `some none` at the end. -/
def findKey (f : κ → Bool) (t : AssocRbTree κ ν) : Option (Option (κ × ν)) := do
  let it ← t.findIf fun _ n => n.key.any f
  if it = t.endIt then some none else (t.entryAt it).map some

/-- The entries in the order of the iterators. -/
def toEntries (t : AssocRbTree κ ν) : Option (List (κ × ν)) := do
  let its ← t.iterators
  its.mapM t.entryAt

end AssocRbTree

variable {st : AssocRbTree κ ν} {t : RbTree (Cell κ ν)} {a : Cell κ ν} {z : RbSpot (Cell κ ν)}
  {l₁ l₂ : List (Cell κ ν)} {comp : κ → κ → Int} {key k : κ} {v : ν}

/-- The pairs of a tree in order. -/
def entryList (t : RbTree (Cell κ ν)) : List (κ × ν) :=
  t.toList.map fun a => (a.key, a.value)

theorem entries_eq_entryList : entries t = (entryList t : Multiset (κ × ν)) := rfl

theorem addr_ne_dummy (h : RbState st t) (ha : a ∈ t.toList) : a.addr ≠ st.dummy := by
  obtain ⟨par, hrep⟩ := h.represents
  exact fun heq => (List.nodup_cons.mp hrep.nodup).1 (heq ▸ List.mem_map_of_mem ha)

/-- The node and the next iterator at an element of the in-order list. -/
theorem iterator_at (h : RbState st t) (hl : t.toList = l₁ ++ a :: l₂) :
    (∃ n, st.heap a.addr = some n ∧ n.key = some a.key) ∧
      st.entryAt a.addr = some (a.key, a.value) ∧
      st.next? a.addr = some (headAddr st.dummy l₂) := by
  obtain ⟨z, hz, rfl, hza⟩ := exists_spot (p := []) hl
  rw [plug_nil] at hz
  subst hz
  have hnext := next?_spec h
  rw [hza, pathAfter, List.append_nil] at hnext
  obtain ⟨par, hrep⟩ := h.represents
  exact ⟨⟨_, Represents.node_at (s := .left) hrep, cellNode_key⟩, entryAt_spot h, hnext⟩

/-- The front is the first element in order. -/
theorem front_spec (h : RbState st t) : st.front = some (headAddr st.dummy t.toList) := by
  obtain ⟨par, hrep⟩ := h.represents
  have hmin := minimum_spec (p := []) hrep (Nat.le_of_eq h.size.symm)
  rwa [← hrep.root] at hmin

/-- `find_if` stops at the first element that passes the test. -/
theorem findIf_spec (h : RbState st t) {f : Nat → AssocNode κ ν → Bool} {g : Cell κ ν → Bool}
    (hf : ∀ a ∈ t.toList, ∀ n, st.heap a.addr = some n → f a.addr n = g a) :
    st.findIf f = some (headAddr st.dummy (t.toList.dropWhile fun a => !g a)) := by
  have hloop : ∀ (l₂ l₁ : List (Cell κ ν)), t.toList = l₁ ++ l₂ → ∀ {fuel}, l₂.length < fuel →
      AssocRbTree.findLoop f fuel st (headAddr st.dummy l₂) =
        some (headAddr st.dummy (l₂.dropWhile fun a => !g a)) := by
    intro l₂
    induction l₂ with
    | nil =>
      intro l₁ _ fuel hfuel
      obtain ⟨fuel, rfl⟩ : ∃ k, fuel = k + 1 := ⟨fuel - 1, by omega⟩
      simp [AssocRbTree.findLoop, AssocRbTree.endIt]
    | cons a l₂ ih =>
      intro l₁ hl fuel hfuel
      obtain ⟨fuel, rfl⟩ : ∃ k, fuel = k + 1 := ⟨fuel - 1, by omega⟩
      have ha : a ∈ t.toList := by simp [hl]
      obtain ⟨⟨n, hn, -⟩, -, hnext⟩ := iterator_at h hl
      have hrest := ih (l₁ ++ [a]) (by simpa using hl) (show l₂.length < fuel by
        simp only [List.length_cons] at hfuel
        omega)
      rw [AssocRbTree.findLoop, headAddr_cons, AssocRbTree.endIt, if_neg (addr_ne_dummy h ha), hn,
        Option.bind_eq_bind, Option.bind_some, hf a ha n hn]
      cases hg : g a with
      | true => simp [hg]
      | false => simp [hg, hnext, hrest]
  rw [AssocRbTree.findIf, front_spec h, Option.bind_eq_bind, Option.bind_some]
  exact hloop t.toList [] rfl (by rw [h.size]; exact Nat.lt_succ_self _)

/-- A test on the keys finds the first entry in order whose key passes. -/
theorem findKey_spec (h : RbState st t) (f : κ → Bool) :
    st.findKey f = some ((entryList t).find? fun e => f e.1) := by
  have hf : ∀ a ∈ t.toList, ∀ n, st.heap a.addr = some n → n.key.any f = f a.key := by
    intro a ha n hn
    obtain ⟨l₁, l₂, hl⟩ := List.append_of_mem ha
    obtain ⟨⟨n', hn', hk⟩, -⟩ := iterator_at h hl
    obtain rfl := Option.some.inj (hn.symm.trans hn')
    rw [hk, Option.any_some]
  rw [AssocRbTree.findKey, findIf_spec h hf, Option.bind_eq_bind, Option.bind_some]
  have hdrop : t.toList.takeWhile (fun a => !f a.key) ++ t.toList.dropWhile (fun a => !f a.key) =
    t.toList := List.takeWhile_append_dropWhile
  have hfind : (entryList t).find? (fun e => f e.1) =
      (t.toList.dropWhile fun a => !f a.key).head?.map fun a => (a.key, a.value) := by
    rw [entryList, List.find?_map, List.find?_eq_head?_dropWhile_not]
    rfl
  rw [hfind]
  cases hd : t.toList.dropWhile fun a => !f a.key with
  | nil => simp [AssocRbTree.endIt]
  | cons a l =>
    rw [hd] at hdrop
    have ha : a ∈ t.toList := hdrop ▸ List.mem_append_right _ List.mem_cons_self
    obtain ⟨-, hentry, -⟩ := iterator_at h hdrop.symm
    rw [headAddr_cons, AssocRbTree.endIt, if_neg (addr_ne_dummy h ha), hentry]
    rfl

theorem mem_entryList {e : κ × ν} : e ∈ entryList t ↔ e ∈ entries t := Iff.rfl

/-- The iteration yields the pairs of the tree in order. -/
theorem toEntries_spec (h : RbState st t) : st.toEntries = some (entryList t) := by
  have hmap : ∀ l₂ l₁ : List (Cell κ ν), t.toList = l₁ ++ l₂ →
      (l₂.map Cell.addr).mapM st.entryAt = some (l₂.map fun a => (a.key, a.value)) := by
    intro l₂
    induction l₂ with
    | nil => exact fun _ _ => rfl
    | cons a l₂ ih =>
      intro l₁ hl
      obtain ⟨-, hentry, -⟩ := iterator_at h hl
      rw [List.map_cons, List.mapM_cons, hentry, ih (l₁ ++ [a]) (by simpa using hl)]
      rfl
  rw [AssocRbTree.toEntries, iterators_spec h, Option.bind_eq_bind, Option.bind_some]
  exact hmap t.toList [] rfl

/-- A tree with the invariant and the pairs it holds. -/
def RbHolds (comp : κ → κ → Int) (st : AssocRbTree κ ν) (m : Multiset (κ × ν)) : Prop :=
  ∃ t, RbInv comp st t ∧ entries t = m

namespace RbHolds

variable {m : Multiset (κ × ν)}

theorem size (h : RbHolds comp st m) : st.size = m.card := by
  obtain ⟨t, hinv, rfl⟩ := h
  rw [hinv.size, entries, Multiset.coe_card, List.length_map]

/-- A search that finds an entry finds one of the tree that passes the test. -/
theorem findKey_some (h : RbHolds comp st m) {f : κ → Bool}
    (hf : st.findKey f = some (some (k, v))) : (k, v) ∈ m ∧ f k = true := by
  obtain ⟨t, hinv, rfl⟩ := h
  rw [findKey_spec hinv.toRbState f] at hf
  have hfind := Option.some.inj hf
  exact ⟨List.mem_of_find?_eq_some hfind, List.find?_some (p := fun e : κ × ν => f e.1) hfind⟩

/-- A search ends at the end when no key passes the test. -/
theorem findKey_none (h : RbHolds comp st m) {f : κ → Bool} :
    st.findKey f = some none ↔ ∀ e ∈ m, f e.1 = false := by
  obtain ⟨t, hinv, rfl⟩ := h
  rw [findKey_spec hinv.toRbState f, Option.some_inj, List.find?_eq_none]
  simp [entries_eq_entryList]

/-- A search ends. -/
theorem findKey_ends (h : RbHolds comp st m) (f : κ → Bool) : ∃ e, st.findKey f = some e := by
  obtain ⟨t, hinv, rfl⟩ := h
  exact ⟨_, findKey_spec hinv.toRbState f⟩

/-- The iteration yields every pair once. -/
theorem toEntries (h : RbHolds comp st m) :
    ∃ l : List (κ × ν), st.toEntries = some l ∧ (l : Multiset (κ × ν)) = m ∧
      ∀ f : κ → Bool, st.findKey f = some (l.find? fun e => f e.1) := by
  obtain ⟨t, hinv, rfl⟩ := h
  exact ⟨entryList t, toEntries_spec hinv.toRbState, rfl, findKey_spec hinv.toRbState⟩

theorem insert (h : RbHolds comp st m) (hc : IsCmp comp) (key : κ) (value : ν) :
    ∃ st', st.insert comp key value = some st' ∧ RbHolds comp st' ((key, value) ::ₘ m) := by
  obtain ⟨t, hinv, rfl⟩ := h
  obtain ⟨st', t', hst', hinv', hm⟩ := insert_inv hc hinv key value
  exact ⟨st', hst', t', hinv', hm⟩

theorem extract (h : RbHolds comp st m) (hc : IsCmp comp)
    (hk : ∃ e ∈ m, comp key e.1 = 0) :
    ∃ k v st' m', st.meet comp key = some (k, v) ∧ comp key k = 0 ∧
      st.extract comp key = some (v, st') ∧ RbHolds comp st' m' ∧ m = (k, v) ::ₘ m' := by
  obtain ⟨t, hinv, rfl⟩ := h
  obtain ⟨k, v, st', t', hmeet, hcmp, hst', hinv', hm⟩ := extract_meet hc hinv hk
  exact ⟨k, v, st', _, hmeet, hcmp, hst', ⟨t', hinv', rfl⟩, hm⟩

end RbHolds

/-! ## The map -/

variable {α β : Type}

/-- `bi_map_t` -/
structure BiMap (α β : Type) where
  left : AssocRbTree α β
  right : AssocRbTree β α

namespace BiMap

variable (comp₁ : α → α → Int) (comp₂ : β → β → Int)

/-- `bi_map_init` -/
def init : BiMap α β where
  left := .init
  right := .init

/-- `bi_map_insert` -/
def insert (m : BiMap α β) (key₁ : α) (key₂ : β) : Option (BiMap α β) :=
  if comp₂ key₂ key₂ ≠ 0 then none
  else do
    let left ← m.left.insert comp₁ key₁ key₂
    if comp₁ key₁ key₁ ≠ 0 then none
    else do
      let right ← m.right.insert comp₂ key₂ key₁
      some ⟨left, right⟩

/-- `bi_map_extract_left` -/
def extractLeft (m : BiMap α β) (key₁ : α) : Option (β × BiMap α β) := do
  let (key₂, left) ← m.left.extract comp₁ key₁
  let (key₃, right) ← m.right.extract comp₂ key₂
  if comp₁ key₁ key₃ ≠ 0 then none
  else if left.size ≠ right.size then none
  else some (key₂, ⟨left, right⟩)

/-- `bi_map_extract_right` -/
def extractRight (m : BiMap α β) (key₂ : β) : Option (α × BiMap α β) := do
  let (key₁, right) ← m.right.extract comp₂ key₂
  let (key₃, left) ← m.left.extract comp₁ key₁
  if comp₂ key₂ key₃ ≠ 0 then none
  else if left.size ≠ right.size then none
  else some (key₁, ⟨left, right⟩)

/-- `bi_map_size` -/
def size (m : BiMap α β) : Option Nat :=
  if m.left.size = m.right.size then some m.left.size else none

end BiMap

variable {comp₁ : α → α → Int} {comp₂ : β → β → Int} {m m' : BiMap α β}
  {pairs : Multiset (α × β)} {k₁ : α} {k₂ : β}

/-- Both trees are in order, and they hold the same pairs. -/
structure BiInv (comp₁ : α → α → Int) (comp₂ : β → β → Int) (m : BiMap α β)
    (pairs : Multiset (α × β)) : Prop where
  left : RbHolds comp₁ m.left pairs
  right : RbHolds comp₂ m.right (pairs.map Prod.swap)

theorem mem_map_swap : (k₂, k₁) ∈ pairs.map Prod.swap ↔ (k₁, k₂) ∈ pairs := by
  rw [Multiset.mem_map]
  constructor
  · rintro ⟨⟨a, b⟩, he, heq⟩
    obtain ⟨rfl, rfl⟩ := Prod.mk.inj heq
    exact he
  · exact fun h => ⟨(k₁, k₂), h, rfl⟩

theorem map_swap_swap (p : Multiset (α × β)) : (p.map Prod.swap).map Prod.swap = p := by
  rw [Multiset.map_map]
  simp

theorem biInv_init : BiInv comp₁ comp₂ .init 0 where
  left := ⟨.leaf, rbInv_init, rfl⟩
  right := ⟨.leaf, rbInv_init, rfl⟩

theorem BiInv.size (h : BiInv comp₁ comp₂ m pairs) : m.size = some pairs.card := by
  rw [BiMap.size, h.left.size, h.right.size, Multiset.card_map, if_pos rfl]

theorem BiMap.insert_spec (hc₁ : IsCmp comp₁) (hc₂ : IsCmp comp₂)
    (h : BiInv comp₁ comp₂ m pairs) (key₁ : α) (key₂ : β) :
    ∃ m', m.insert comp₁ comp₂ key₁ key₂ = some m' ∧
      BiInv comp₁ comp₂ m' ((key₁, key₂) ::ₘ pairs) := by
  obtain ⟨left, hleft, hl'⟩ := h.left.insert hc₁ key₁ key₂
  obtain ⟨right, hright, hr'⟩ := h.right.insert hc₂ key₂ key₁
  refine ⟨⟨left, right⟩, ?_, ⟨hl', ?_⟩⟩
  · simp [BiMap.insert, hc₁.self, hc₂.self, hleft, hright]
  · rw [Multiset.map_cons]
    exact hr'

/-- The extraction of a present key on the right : the search in the right tree meets the
pair of `k₁` and `k₂`, the search for `k₁` in the left tree the pair of `k₁'` and `k₃`, and
the assertion compares `k₃` with the key. -/
theorem BiMap.extractRight_meet (hc₁ : IsCmp comp₁) (hc₂ : IsCmp comp₂)
    (h : BiInv comp₁ comp₂ m pairs) (key₂ : β) (hk : ∃ e ∈ pairs, comp₂ key₂ e.2 = 0) :
    ∃ k₁ k₂ k₁' k₃ left right p p', m.right.meet comp₂ key₂ = some (k₂, k₁) ∧
      comp₂ key₂ k₂ = 0 ∧ m.left.meet comp₁ k₁ = some (k₁', k₃) ∧ comp₁ k₁ k₁' = 0 ∧
      m.extractRight comp₁ comp₂ key₂ =
        (if comp₂ key₂ k₃ ≠ 0 then none else some (k₁, ⟨left, right⟩)) ∧
      RbHolds comp₁ left p ∧ RbHolds comp₂ right (p'.map Prod.swap) ∧
      pairs = (k₁', k₃) ::ₘ p ∧ pairs = (k₁, k₂) ::ₘ p' := by
  obtain ⟨⟨e₁, e₂⟩, he, hek⟩ := hk
  obtain ⟨k₂, k₁, right, q, hmeet, hcmp, hright, hr', hmr⟩ :=
    h.right.extract hc₂ ⟨(e₂, e₁), mem_map_swap.2 he, hek⟩
  have hmem : (k₁, k₂) ∈ pairs := by
    rw [← mem_map_swap, hmr]
    exact Multiset.mem_cons_self _ _
  obtain ⟨p', rfl⟩ := Multiset.exists_cons_of_mem hmem
  rw [Multiset.map_cons] at hmr
  obtain rfl := (Multiset.cons_inj_right _).mp hmr
  obtain ⟨k₁', k₃, left, p, hmeet', hcmp', hleft, hl', hml⟩ :=
    h.left.extract hc₁ ⟨(k₁, k₂), hmem, hc₁.self k₁⟩
  refine ⟨k₁, k₂, k₁', k₃, left, right, p, p', hmeet, hcmp, hmeet', hcmp', ?_, hl', hr',
    hml, rfl⟩
  have hsize : left.size = right.size := by
    have hcard := congrArg Multiset.card hml
    rw [Multiset.card_cons, Multiset.card_cons] at hcard
    rw [hl'.size, hr'.size, Multiset.card_map]
    omega
  simp [BiMap.extractRight, hright, hleft, hsize]

/-- Where the keys on the left have different ranks, an extraction on the right takes out
the pair that the search meets. -/
theorem BiMap.extractRight_spec (hc₁ : IsCmp comp₁) (hc₂ : IsCmp comp₂)
    (h : BiInv comp₁ comp₂ m pairs) (key₂ : β) (hk : ∃ e ∈ pairs, comp₂ key₂ e.2 = 0)
    (hl : ∀ e ∈ pairs, ∀ e' ∈ pairs, comp₁ e.1 e'.1 = 0 → e = e') :
    ∃ k₁ k₂ m' p, m.right.meet comp₂ key₂ = some (k₂, k₁) ∧ comp₂ key₂ k₂ = 0 ∧
      m.extractRight comp₁ comp₂ key₂ = some (k₁, m') ∧ BiInv comp₁ comp₂ m' p ∧
      pairs = (k₁, k₂) ::ₘ p := by
  obtain ⟨k₁, k₂, k₁', k₃, left, right, p, p', hmeet, hcmp, -, hcmp', hext, hl', hr', hp, hp'⟩ :=
    BiMap.extractRight_meet hc₁ hc₂ h key₂ hk
  obtain ⟨rfl, rfl⟩ := Prod.mk.inj (hl (k₁, k₂) (hp' ▸ Multiset.mem_cons_self _ _) (k₁', k₃)
    (hp ▸ Multiset.mem_cons_self _ _) hcmp')
  obtain rfl := (Multiset.cons_inj_right _).mp (hp.symm.trans hp')
  exact ⟨k₁, k₂, ⟨left, right⟩, p, hmeet, hcmp, hext.trans (if_neg (not_not.mpr hcmp)),
    ⟨hl', hr'⟩, hp⟩

/-- The map with its sides exchanged. -/
def BiMap.swap (m : BiMap α β) : BiMap β α where
  left := m.right
  right := m.left

theorem BiInv.swap (h : BiInv comp₁ comp₂ m pairs) :
    BiInv comp₂ comp₁ m.swap (pairs.map Prod.swap) where
  left := h.right
  right := by
    rw [map_swap_swap]
    exact h.left

/-- An extraction on the left is one on the right of the exchanged map. -/
theorem BiMap.extractLeft_eq (m : BiMap α β) (key₁ : α) :
    m.extractLeft comp₁ comp₂ key₁ =
      (m.swap.extractRight comp₂ comp₁ key₁).map fun r => (r.1, r.2.swap) := by
  simp only [BiMap.extractLeft, BiMap.extractRight, BiMap.swap, Option.bind_eq_bind]
  cases m.left.extract comp₁ key₁ with
  | none => rfl
  | some e =>
    simp only [Option.bind_some]
    cases m.right.extract comp₂ e.1 with
    | none => rfl
    | some e' =>
      simp only [Option.bind_some]
      split
      · rfl
      · by_cases hs : e.2.size = e'.2.size
        · simp [hs]
        · simp [hs, Ne.symm hs]

/-- The extraction of a present key on the left. -/
theorem BiMap.extractLeft_meet (hc₁ : IsCmp comp₁) (hc₂ : IsCmp comp₂)
    (h : BiInv comp₁ comp₂ m pairs) (key₁ : α) (hk : ∃ e ∈ pairs, comp₁ key₁ e.1 = 0) :
    ∃ k₁ k₂ k₂' k₃ left right p p', m.left.meet comp₁ key₁ = some (k₁, k₂) ∧
      comp₁ key₁ k₁ = 0 ∧ m.right.meet comp₂ k₂ = some (k₂', k₃) ∧ comp₂ k₂ k₂' = 0 ∧
      m.extractLeft comp₁ comp₂ key₁ =
        (if comp₁ key₁ k₃ ≠ 0 then none else some (k₂, ⟨left, right⟩)) ∧
      RbHolds comp₁ left p ∧ RbHolds comp₂ right (p'.map Prod.swap) ∧
      pairs = (k₁, k₂) ::ₘ p ∧ pairs = (k₃, k₂') ::ₘ p' := by
  obtain ⟨⟨e₁, e₂⟩, he, hek⟩ := hk
  obtain ⟨k₂, k₁, k₂', k₃, right, left, p, p', hmeet, hcmp, hmeet', hcmp', hext, hr, hl, hp, hp'⟩ :=
    BiMap.extractRight_meet hc₂ hc₁ h.swap key₁ ⟨(e₂, e₁), mem_map_swap.2 he, hek⟩
  have hswap : ∀ {q : Multiset (β × α)} {e : β × α}, pairs.map Prod.swap = e ::ₘ q →
      pairs = e.swap ::ₘ q.map Prod.swap := by
    intro q e heq
    rw [← map_swap_swap pairs, heq, Multiset.map_cons]
  refine ⟨k₁, k₂, k₂', k₃, left, right, p'.map Prod.swap, p.map Prod.swap, hmeet, hcmp, hmeet',
    hcmp', ?_, hl, ?_, hswap hp', hswap hp⟩
  · rw [BiMap.extractLeft_eq, hext]
    split
    · rfl
    · rfl
  · rw [map_swap_swap]
    exact hr

end NrStack
