import NrStack.Flexric.AssocRbExtract

/-!
# Runs of the red-black tree

`next?_spec` : `assoc_rb_tree_next` is the next node in order, so the iteration visits the
nodes of the tree once each in order (`iterators_spec`). `insert_inv`, `extract_meet` and
`freeIt_inv` say what the operations do to a tree with the invariant `RbInv` (an extraction
takes out the node where the search stops), and `RbReach` are the runs : the tree with the
multimap its operations make.
-/

namespace NrStack

open RbTree

variable {κ ν : Type} {e st st' : AssocRbTree κ ν} {t X : RbTree (Cell κ ν)}
  {p : RbPath (Cell κ ν)} {z : RbSpot (Cell κ ν)} {c : RbColor} {a : Cell κ ν}
  {l r : RbTree (Cell κ ν)} {par : Nat} {comp : κ → κ → Int} {key : κ} {value : ν}

/-! ## Iteration -/

/-- The address of the first cell of a list, that of the sentinel when there is none. -/
def headAddr (d : Nat) : List (Cell κ ν) → Nat
  | [] => d
  | a :: _ => a.addr

@[simp] theorem headAddr_nil {d : Nat} : headAddr d ([] : List (Cell κ ν)) = d := rfl

@[simp] theorem headAddr_cons {d : Nat} {as : List (Cell κ ν)} :
    headAddr d (a :: as) = a.addr := rfl

theorem leftmost_elt : ∃ rest, (RbTree.node c l a r).toList = (leftmost c l a r []).elt :: rest := by
  obtain ⟨hy, hyl⟩ := leftmost_spec (c := c) (l := l) (a := a) (r := r) (p := [])
  have hb := pathBefore_leftmost (c := c) (l := l) (a := a) (r := r) (p := [])
  rw [plug_nil] at hy
  rw [← hy, RbSpot.tree, toList_plug, hb, RbSpot.subtree, hyl]
  exact ⟨_, rfl⟩

theorem leftmost_elt_append {p : RbPath (Cell κ ν)} :
    (leftmost c l a r p).elt = (leftmost c l a r []).elt := by
  have := leftmost_append (c := c) (l := l) (a := a) (r := r) (p := []) (q := p)
  rw [List.nil_append] at this
  rw [this]

/-- `minimum` is the first node of a subtree in order. -/
theorem minimum_spec (h : Represents e st (plug X p) par) (hlen : X.toList.length ≤ st.size) :
    st.minimum (rootAddr st.dummy X) = some (headAddr st.dummy X.toList) := by
  cases X with
  | leaf => exact if_pos rfl
  | node c l a r =>
    have hne : a.addr ≠ st.dummy := fun heq =>
      (List.nodup_cons.mp (Represents.nodup_node (s := .left) h)).1 (heq ▸ by simp)
    simp only [toList, List.length_append, List.length_cons] at hlen
    obtain ⟨rest, hrest⟩ := leftmost_elt (c := c) (l := l) (a := a) (r := r)
    rw [AssocRbTree.minimum, rootAddr, if_neg hne, minimumLoop_spec h (by omega),
      leftmost_elt_append, hrest, headAddr]

/-- The climb of `assoc_rb_tree_next` ends at the first node after the position. -/
theorem nextLoop_spec (h : Represents st st (plug X p) par) (hX : X ≠ .leaf) {fuel : Nat}
    (hfuel : p.length < fuel) :
    AssocRbTree.nextLoop fuel st (rootAddr st.dummy X) (upAddr st.dummy p) =
      some (headAddr st.dummy (pathAfter p)) := by
  induction p generalizing X fuel with
  | nil =>
    obtain ⟨fuel, rfl⟩ : ∃ k, fuel = k + 1 := ⟨fuel - 1, by omega⟩
    simp [AssocRbTree.nextLoop, headAddr, pathAfter]
  | cons f p ih =>
    obtain ⟨fuel, rfl⟩ : ∃ k, fuel = k + 1 := ⟨fuel - 1, by omega⟩
    obtain ⟨n, hn, -, hp, -, -, hside⟩ := side_test h (Or.inl hX)
    have hne : f.elt.addr ≠ st.dummy := by
      intro heq
      have hnd := h.nodup_plug
      refine (List.nodup_cons.mp hnd).1 (heq ▸ List.mem_append_right _ ?_)
      exact mem_pathAddrs_cons.2 (Or.inl rfl)
    simp only [AssocRbTree.nextLoop, upAddr_cons, if_neg hne, hn, Option.bind_eq_bind,
      Option.bind_some]
    by_cases hl : rootAddr st.dummy X = n.left
    · rw [if_pos hl] at hside
      rw [if_pos hl.symm, pathAfter, ← hside]
      rfl
    · rw [if_neg hl] at hside
      have hrec := ih (X := f.fill X) h fill_ne_leaf (show p.length < fuel by
        simp only [List.length_cons] at hfuel
        omega)
      rw [if_neg (Ne.symm hl), hp, pathAfter, ← hside]
      rw [rootAddr_fill] at hrec
      exact hrec

/-- `assoc_rb_tree_next` is the next node in order, and the sentinel after the last. -/
theorem next?_spec (h : RbState st z.tree) : st.next? z.elt.addr =
    some (headAddr st.dummy (z.right.toList ++ pathAfter z.path)) := by
  obtain ⟨par, hrep⟩ := h.represents
  have hsize := h.size
  obtain ⟨c, l, a, r, p⟩ := z
  simp only [RbSpot.tree, RbSpot.subtree] at hrep hsize
  have ha : st.heap a.addr = some ⟨some a.key, some a.value, upAddr st.dummy p,
      rootAddr st.dummy l, rootAddr st.dummy r, c⟩ := Represents.node_at (s := .left) hrep
  have hne : a.addr ≠ st.dummy := fun heq =>
    (List.nodup_cons.mp (Represents.nodup_node (s := .left) hrep)).1 (heq ▸ by simp)
  rw [toList_plug] at hsize
  simp only [toList, List.length_append, List.length_cons] at hsize
  rw [AssocRbTree.next?, if_neg hne, ha, Option.bind_eq_bind, Option.bind_some]
  cases hr : r with
  | leaf =>
    rw [rootAddr_leaf, if_neg (not_not.mpr rfl)]
    have hlen : p.length ≤ (plug (.node c l a r) p).toList.length := length_path_le
    rw [toList_plug] at hlen
    simp only [toList, List.length_append, List.length_cons] at hlen
    exact nextLoop_spec (X := .node c l a r) hrep (by simp) (by omega)
  | node cr lr ar rr =>
    have hrne : rootAddr st.dummy r ≠ st.dummy := by
      rcases rootAddr_mem (d := st.dummy) (t := r) with hl | hm
      · simp [hr] at hl
      · intro heq
        exact (List.nodup_cons.mp (Represents.nodup_node (s := .left) hrep)).1 (heq ▸ by simp [hm])
    have hmin := minimum_spec (X := r) (p := ⟨.right, c, a, l⟩ :: p) hrep (by omega)
    rw [← hr, if_pos hrne, hmin]
    rw [hr]
    obtain ⟨rest, hrest⟩ := leftmost_elt (c := cr) (l := lr) (a := ar) (r := rr)
    rw [hrest]
    rfl

/-- The addresses an iteration from `it` to the end visits. -/
def AssocRbTree.visit : Nat → AssocRbTree κ ν → Nat → Option (List Nat)
  | 0, _, _ => none
  | fuel + 1, t, it =>
    if it = t.endIt then some []
    else do
      let next ← t.next? it
      let rest ← visit fuel t next
      some (it :: rest)

/-- The iterators from `front` to `end`. -/
def AssocRbTree.iterators (t : AssocRbTree κ ν) : Option (List Nat) := do
  let it ← t.front
  visit (t.size + 1) t it

/-- Every element of the in-order list stands at a node. -/
theorem exists_spot {l₁ l₂ : List (Cell κ ν)} (h : t.toList = l₁ ++ a :: l₂) :
    ∃ z : RbSpot (Cell κ ν), z.tree = plug t p ∧ z.elt = a ∧
      z.right.toList ++ pathAfter z.path = l₂ ++ pathAfter p := by
  induction t generalizing p l₁ l₂ with
  | leaf => simp at h
  | node c l b r ihl ihr =>
    simp only [toList] at h
    obtain ⟨m, hl, hr⟩ | ⟨m, hl, hr⟩ := List.append_eq_append_iff.mp h
    · cases m with
      | nil =>
        simp only [List.append_nil, List.nil_append, List.cons.injEq] at hl hr
        obtain ⟨rfl, rfl⟩ := hr
        exact ⟨⟨c, l, b, r, p⟩, rfl, rfl, rfl⟩
      | cons m ms =>
        simp only [List.cons_append, List.cons.injEq] at hr
        obtain ⟨z, hz, hza, hzl⟩ := ihr (p := ⟨.right, c, b, l⟩ :: p) hr.2
        exact ⟨z, hz, hza, by simpa [pathAfter] using hzl⟩
    · cases m with
      | nil =>
        simp only [List.append_nil, List.nil_append, List.cons.injEq] at hl hr
        obtain ⟨rfl, rfl⟩ := hr
        exact ⟨⟨c, l, a, r, p⟩, rfl, rfl, rfl⟩
      | cons m ms =>
        simp only [List.cons_append, List.cons.injEq] at hr
        obtain ⟨rfl, hr⟩ := hr
        obtain ⟨z, hz, hza, hzl⟩ := ihl (p := ⟨.left, c, b, r⟩ :: p) hl
        refine ⟨z, hz, hza, ?_⟩
        rw [hzl, hr]
        simp [pathAfter]

/-- The iteration visits every node once, in order. -/
theorem iterators_spec (h : RbState st t) : st.iterators = some (addrs t) := by
  obtain ⟨par, hrep⟩ := h.represents
  have hfront : st.front = some (headAddr st.dummy t.toList) := by
    have := minimum_spec (p := []) hrep (Nat.le_of_eq h.size.symm)
    rw [← hrep.root] at this
    exact this
  have hvisit : ∀ (l₂ l₁ : List (Cell κ ν)), t.toList = l₁ ++ l₂ → ∀ {fuel}, l₂.length < fuel →
      AssocRbTree.visit fuel st (headAddr st.dummy l₂) = some (l₂.map Cell.addr) := by
    intro l₂
    induction l₂ with
    | nil =>
      intro l₁ _ fuel hfuel
      obtain ⟨fuel, rfl⟩ : ∃ k, fuel = k + 1 := ⟨fuel - 1, by omega⟩
      simp [AssocRbTree.visit, AssocRbTree.endIt]
    | cons a l₂ ih =>
      intro l₁ hl fuel hfuel
      obtain ⟨fuel, rfl⟩ : ∃ k, fuel = k + 1 := ⟨fuel - 1, by omega⟩
      obtain ⟨z, hz, rfl, hza⟩ := exists_spot (p := []) hl
      have hne : z.elt.addr ≠ st.dummy := by
        intro heq
        refine (List.nodup_cons.mp hrep.nodup).1 (heq ▸ ?_)
        simp [addrs, hl]
      rw [plug_nil] at hz
      have hnext := next?_spec (z := z) (hz.symm ▸ h)
      rw [hza, pathAfter, List.append_nil] at hnext
      have hrest := ih (l₁ ++ [z.elt]) (by simpa using hl) (show l₂.length < fuel by
        simp only [List.length_cons] at hfuel
        omega)
      simp [AssocRbTree.visit, AssocRbTree.endIt, hne, hnext, hrest]
  rw [AssocRbTree.iterators, hfront, Option.bind_eq_bind, Option.bind_some]
  exact hvisit t.toList [] rfl (by rw [h.size]; exact Nat.lt_succ_self _)

/-! ## Comparators -/

/-- A comparator as the tree uses it : 1 for a key that goes first, -1 for one that goes
last, 0 for keys of the same rank. -/
structure IsCmp (comp : κ → κ → Int) : Prop where
  range : ∀ a b, comp a b = 1 ∨ comp a b = -1 ∨ comp a b = 0
  symm : ∀ a b, comp a b = 1 ↔ comp b a = -1
  trans : ∀ a b c, comp a b ≠ -1 → comp b c ≠ -1 → comp a c ≠ -1

/-- A comparator for a total order : only equal keys have the same rank. -/
structure IsTotalCmp (comp : κ → κ → Int) : Prop extends IsCmp comp where
  eq : ∀ a b, comp a b = 0 → a = b

theorem IsCmp.self (hc : IsCmp comp) (k : κ) : comp k k = 0 := by
  rcases hc.range k k with h | h | h
  · exact absurd ((hc.symm k k).mp h) (by rw [h]; decide)
  · exact absurd ((hc.symm k k).mpr h) (by rw [h]; decide)
  · exact h

/-- The comparator that puts the smaller key first. -/
def cmpAsc [LinearOrder κ] (a b : κ) : Int :=
  if a < b then 1 else if a = b then 0 else -1

theorem cmpAsc_isTotalCmp [LinearOrder κ] : IsTotalCmp (cmpAsc (κ := κ)) where
  range a b := by
    unfold cmpAsc
    split
    · exact Or.inl rfl
    · split
      · exact Or.inr (Or.inr rfl)
      · exact Or.inr (Or.inl rfl)
  symm a b := by
    unfold cmpAsc
    rcases lt_trichotomy a b with h | rfl | h
    · simp [h, h.not_gt, h.ne']
    · simp
    · simp [h, h.not_gt, h.ne']
  trans a b c := by
    have hle : ∀ x y : κ, cmpAsc x y ≠ -1 ↔ x ≤ y := by
      intro x y
      unfold cmpAsc
      rcases lt_trichotomy x y with h | rfl | h
      · simp [h, h.le]
      · simp
      · simp [h.not_gt, h.ne', h.not_ge]
    rw [hle, hle, hle]
    exact le_trans
  eq a b := by
    unfold cmpAsc
    split
    · intro h
      simp at h
    · split
      · exact fun _ => ‹_›
      · intro h
        simp at h

/-- The keys are in comparator order, in the in-order list. -/
def InOrder (comp : κ → κ → Int) (l : List (Cell κ ν)) : Prop :=
  l.Pairwise fun a b => comp a.key b.key ≠ -1

/-- The search for a key goes one way along an ordered list. -/
theorem InOrder.dirSorted (hc : IsCmp comp) {l : List (Cell κ ν)} (h : InOrder comp l)
    (key : κ) : DirSorted (compDir comp key) l := by
  refine List.Pairwise.imp (fun {a b} hab => ⟨fun ha => ?_, fun hb => ?_⟩) h
  · rw [compDir_eq_lt] at ha ⊢
    by_contra hb
    have hbk : comp b.key key ≠ -1 := fun h => hb ((hc.symm _ _).mpr h)
    exact hc.trans _ _ _ hab hbk ((hc.symm _ _).mp ha)
  · have hgt : ∀ x : Cell κ ν, compDir comp key x = .gt ↔ comp key x.key = -1 := by
      intro x
      unfold compDir
      rcases hc.range key x.key with h | h | h <;> simp [h]
    rw [hgt] at hb ⊢
    by_contra ha
    exact hc.trans _ _ _ ha hab hb

/-! ## The operations on a tree with the invariant -/

/-- What the tree stores. -/
def entries (t : RbTree (Cell κ ν)) : Multiset (κ × ν) :=
  (t.toList.map fun a => (a.key, a.value) : List (κ × ν))

/-- A tree between two operations with its keys in order. -/
structure RbInv (comp : κ → κ → Int) (st : AssocRbTree κ ν) (t : RbTree (Cell κ ν)) : Prop
    extends RbState st t where
  ordered : InOrder comp t.toList

theorem entries_middle {l₁ l₂ : List (Cell κ ν)} {t' : RbTree (Cell κ ν)}
    (h : t.toList = l₁ ++ a :: l₂) (h' : t'.toList = l₁ ++ l₂) :
    entries t = (a.key, a.value) ::ₘ entries t' := by
  rw [entries, entries, h, h', Multiset.cons_coe, Multiset.coe_eq_coe, List.map_append,
    List.map_append, List.map_cons]
  exact List.perm_middle

/-- The empty tree. -/
theorem rbInv_init : RbInv comp (AssocRbTree.init : AssocRbTree κ ν) .leaf where
  represents := ⟨0, {
    tree := trivial
    root := rfl
    nodup := by simp
    sentinel := by simp [AssocRbTree.init]
    dummy := rfl
    size := rfl
    next := rfl
    elsewhere := fun _ _ => rfl }⟩
  isRb := ⟨rfl, trivial, 0, rfl⟩
  size := rfl
  fresh b hb := by
    simp only [addrs_leaf, List.mem_singleton] at hb
    subst hb
    exact Nat.one_lt_two
  ordered := List.Pairwise.nil

theorem insert_inv (hc : IsCmp comp) (h : RbInv comp st t) (key : κ) (value : ν) :
    ∃ st' t', st.insert comp key value = some st' ∧ RbInv comp st' t' ∧
      entries t' = (key, value) ::ₘ entries t := by
  obtain ⟨st', t', hst', hinv, ht', -⟩ := insert_refines h.toRbState comp key value
  obtain ⟨t'', ht'', -, htl, htl'⟩ :=
    RbTree.insert_spec h.isRb (compDir comp key) ⟨st.next, key, value⟩
  obtain rfl := Option.some.inj (ht'.symm.trans ht'')
  obtain ⟨hbefore, hafter⟩ := descend_before (p := []) (h.ordered.dirSorted hc key)
  refine ⟨st', t', hst', ⟨hinv, ?_⟩, entries_middle htl' htl⟩
  have hord := h.ordered
  rw [htl] at hord
  rw [htl']
  obtain ⟨h1, h2, h12⟩ := List.pairwise_append.mp hord
  refine List.pairwise_append.mpr ⟨h1, List.pairwise_cons.mpr ⟨fun b hb => ?_, h2⟩, ?_⟩
  · rcases hafter b hb with hb' | hb'
    · simp [pathAfter] at hb'
    · rw [compDir_eq_lt] at hb'
      show comp key b.key ≠ -1
      rw [hb']
      decide
  · intro x hx b hb
    rcases List.mem_cons.mp hb with rfl | hb
    · rcases hbefore x hx with hx' | hx'
      · simp [pathBefore] at hx'
      · rw [Ne, compDir_eq_lt, hc.symm] at hx'
        exact hx'
    · exact h12 x hx b hb

namespace AssocRbTree

/-- `assoc_key` and `assoc_value` -/
def entryAt (t : AssocRbTree κ ν) (it : Nat) : Option (κ × ν) := do
  let n ← t.heap it
  let key ← n.key
  let value ← n.value
  some (key, value)

/-- The entry at the node where `find_rb_tree` stops. -/
def meet (comp : κ → κ → Int) (t : AssocRbTree κ ν) (key : κ) : Option (κ × ν) := do
  let z ← findRbTree comp key (t.size + 1) t t.root
  t.entryAt z

end AssocRbTree

theorem entryAt_spot (h : RbState st z.tree) :
    st.entryAt z.elt.addr = some (z.elt.key, z.elt.value) := by
  obtain ⟨par, hrep⟩ := h.represents
  have hz : st.heap z.elt.addr = some _ := Represents.node_at (s := .left) hrep
  simp [AssocRbTree.entryAt, hz]

theorem compDir_eq_eq (hc : IsCmp comp) : compDir comp key a = .eq ↔ comp key a.key = 0 := by
  unfold compDir
  rcases hc.range key a.key with h | h | h <;> simp [h]

/-- The search from the root meets a node of the rank of a present key, and an extraction
takes out this node. -/
theorem extract_meet (hc : IsCmp comp) (h : RbInv comp st t)
    (hk : ∃ e ∈ entries t, comp key e.1 = 0) :
    ∃ (k : κ) (v : ν) (st' : AssocRbTree κ ν) (t' : RbTree (Cell κ ν)),
      st.meet comp key = some (k, v) ∧ comp key k = 0 ∧
      st.extract comp key = some (v, st') ∧ RbInv comp st' t' ∧
      entries t = (k, v) ::ₘ entries t' := by
  have hdir := h.ordered.dirSorted hc key
  obtain ⟨e, he, hek⟩ := hk
  obtain ⟨b, hb, rfl⟩ := List.mem_map.mp (Multiset.mem_coe.mp he)
  obtain ⟨z, hz⟩ := exists_search (p := []) hdir ⟨b, hb, (compDir_eq_eq hc).mpr hek⟩
  obtain ⟨st', T, hst', hT, hinv', -⟩ := extract_refines (hc.range key) h.toRbState hz
  obtain ⟨c, t'', l₁, l₂, ht'', -, hcd, htl, htl'⟩ :=
    RbTree.extract_spec h.isRb hdir ⟨b, hb, (compDir_eq_eq hc).mpr hek⟩
  obtain ⟨rfl, rfl⟩ := Prod.mk.inj (Option.some.inj (hT.symm.trans ht''))
  obtain ⟨hzt, hzd⟩ := plug_search hz
  rw [plug_nil] at hzt
  obtain ⟨par, hrep⟩ := h.represents
  have hfind := findRbTree_spec (p := []) (hc.range key) hrep
    (show _ < st.size + 1 from Nat.lt_succ_of_le (Nat.le_of_eq h.size.symm))
  rw [hz, ← hrep.root] at hfind
  refine ⟨z.elt.key, z.elt.value, st', T, ?_, (compDir_eq_eq hc).mp hzd, hst', ⟨hinv', ?_⟩,
    entries_middle htl htl'⟩
  · rw [AssocRbTree.meet, hfind, Option.bind_eq_bind, Option.bind_some]
    exact entryAt_spot (hzt.symm ▸ h.toRbState)
  · have hord := h.ordered
    rw [InOrder, htl] at hord
    rw [InOrder, htl']
    exact List.Pairwise.sublist (List.Sublist.append_left (List.sublist_cons_self _ _) _) hord

/-- The extraction of an absent key ends at the assertion on its node. -/
theorem extract_absent (hc : IsCmp comp) (h : RbInv comp st t)
    (hk : ∀ e ∈ entries t, comp key e.1 ≠ 0) : st.extract comp key = none := by
  have hz : search (compDir comp key) t [] = none := by
    by_contra hne
    obtain ⟨z, hz⟩ := Option.ne_none_iff_exists'.mp hne
    obtain ⟨hzt, hzd⟩ := plug_search hz
    refine hk (z.elt.key, z.elt.value) ?_ ((compDir_eq_eq hc).mp hzd)
    refine List.mem_map_of_mem (f := fun a : Cell κ ν => (a.key, a.value)) ?_
    rw [← plug_nil (t := t), ← hzt, RbSpot.tree, toList_plug, RbSpot.subtree]
    simp
  obtain ⟨par, hrep⟩ := h.represents
  have hfind := findRbTree_spec (p := []) (hc.range key) hrep
    (show _ < st.size + 1 from Nat.lt_succ_of_le (Nat.le_of_eq h.size.symm))
  rw [hz, ← hrep.root, Option.elim_none] at hfind
  rw [AssocRbTree.extract, hfind, Option.bind_eq_bind, Option.bind_some, if_pos rfl]

theorem freeIt_inv (h : RbInv comp st t) {it : Nat} (hit : it ∈ addrs t) :
    ∃ k v st' t', st.freeIt it = some ((k, v), st') ∧ RbInv comp st' t' ∧
      entries t = (k, v) ::ₘ entries t' := by
  obtain ⟨a, ha, rfl⟩ := List.mem_map.mp hit
  obtain ⟨l₁, l₂, htl⟩ := List.append_of_mem ha
  obtain ⟨z, hz, rfl, -⟩ := exists_spot (p := []) htl
  rw [plug_nil] at hz
  subst hz
  obtain ⟨st', t', hst', ht', hinv, -⟩ := freeIt_refines h.toRbState
  obtain ⟨t'', ht'', -, htl'⟩ := RbSpot.remove_spec h.isRb
  obtain rfl := Option.some.inj (ht'.symm.trans ht'')
  have hlist : z.tree.toList = (pathBefore z.path ++ z.left.toList) ++ z.elt ::
      (z.right.toList ++ pathAfter z.path) := by
    rw [RbSpot.tree, toList_plug, RbSpot.subtree]
    simp
  refine ⟨_, _, st', t', hst', ⟨hinv, ?_⟩, entries_middle hlist htl'⟩
  have hord := h.ordered
  rw [InOrder, hlist] at hord
  rw [htl']
  exact List.Pairwise.sublist (List.Sublist.append_left (List.sublist_cons_self _ _) _) hord

/-- A present key is extracted, with one of its values. -/
theorem extract_present (hc : IsTotalCmp comp) (h : RbInv comp st t)
    {k : κ}
    (hk : ∃ w, (k, w) ∈ entries t) :
    ∃ v st' t', st.extract comp k = some (v, st') ∧ RbInv comp st' t' ∧
      entries t = (k, v) ::ₘ entries t' := by
  obtain ⟨w, hw⟩ := hk
  obtain ⟨k', v, st', t', -, hak, hst', hinv', hm⟩ :=
    extract_meet hc.toIsCmp h ⟨(k, w), hw, hc.toIsCmp.self k⟩
  obtain rfl := hc.eq _ _ hak
  exact ⟨v, st', t', hst', hinv', hm⟩

/-! ## Runs -/

variable [DecidableEq κ] [DecidableEq ν] {m : Multiset (κ × ν)}

/-- The trees that insertions, extractions of present keys and `free_it` at an iterator lead
to, with the multimap these operations make : an insertion adds its pair, the other two take
out the pair they return. -/
inductive RbReach (comp : κ → κ → Int) : AssocRbTree κ ν → Multiset (κ × ν) → Prop
  | init : RbReach comp .init 0
  | insert {st st' : AssocRbTree κ ν} {m : Multiset (κ × ν)} {k : κ} {v : ν}
      (h : RbReach comp st m) (hop : st.insert comp k v = some st') :
      RbReach comp st' ((k, v) ::ₘ m)
  | extract {st st' : AssocRbTree κ ν} {m : Multiset (κ × ν)} {k : κ} {v : ν}
      (h : RbReach comp st m) (hk : ∃ w, (k, w) ∈ m) (hop : st.extract comp k = some (v, st')) :
      RbReach comp st' (m.erase (k, v))
  | freeIt {st st' : AssocRbTree κ ν} {m : Multiset (κ × ν)} {e : κ × ν} {it : Nat}
      {its : List Nat} (h : RbReach comp st m) (hits : st.iterators = some its)
      (hit : it ∈ its) (hop : st.freeIt it = some (e, st')) : RbReach comp st' (m.erase e)

/-- The invariant holds along every run, and the tree stores the multimap. -/
theorem RbReach.inv (hc : IsTotalCmp comp) (h : RbReach comp st m) :
    ∃ t, RbInv comp st t ∧ entries t = m := by
  induction h with
  | init => exact ⟨.leaf, rbInv_init, rfl⟩
  | @insert st st' m k v _ hop ih =>
    obtain ⟨t, hinv, rfl⟩ := ih
    obtain ⟨st'', t', hst', hinv', hm⟩ := insert_inv hc.toIsCmp hinv k v
    obtain rfl := Option.some.inj (hst'.symm.trans hop)
    exact ⟨t', hinv', hm⟩
  | @extract st st' m k v _ hk hop ih =>
    obtain ⟨t, hinv, rfl⟩ := ih
    obtain ⟨v', st'', t', hst', hinv', hm⟩ := extract_present hc hinv hk
    obtain ⟨rfl, rfl⟩ := Prod.mk.inj (Option.some.inj (hst'.symm.trans hop))
    exact ⟨t', hinv', by rw [hm, Multiset.erase_cons_head]⟩
  | @freeIt st st' m e it its _ hits hit hop ih =>
    obtain ⟨t, hinv, rfl⟩ := ih
    rw [iterators_spec hinv.toRbState] at hits
    obtain rfl := Option.some.inj hits
    obtain ⟨k, v, st'', t', hst', hinv', hm⟩ := freeIt_inv hinv hit
    obtain ⟨rfl, rfl⟩ := Prod.mk.inj (Option.some.inj (hst'.symm.trans hop))
    exact ⟨t', hinv', by rw [hm, Multiset.erase_cons_head]⟩

/-- After every operation of every run the memory holds a red-black tree in comparator
order, the nodes are those of the multimap, an iteration visits each of them once in order,
and the next operation returns a pair of the multimap with no assert in its way. -/
theorem assocRbTree_runs (hc : IsTotalCmp comp) (h : RbReach comp st m) :
    (∃ t, (∃ par, Represents st st t par) ∧ IsRb t ∧ InOrder comp t.toList ∧
      st.size = t.toList.length ∧ entries t = m ∧ st.iterators = some (addrs t) ∧
      (addrs t).Nodup) ∧
    (∀ k v, ∃ st', st.insert comp k v = some st') ∧
    (∀ k, (∃ w, (k, w) ∈ m) → ∃ v st', st.extract comp k = some (v, st') ∧ (k, v) ∈ m) ∧
    (∀ its it, st.iterators = some its → it ∈ its →
      ∃ e st', st.freeIt it = some (e, st') ∧ e ∈ m) := by
  obtain ⟨t, hinv, rfl⟩ := h.inv hc
  refine ⟨⟨t, hinv.represents, hinv.isRb, hinv.ordered, hinv.size, rfl,
    iterators_spec hinv.toRbState, ?_⟩, fun k v => ?_, fun k hk => ?_, fun its it hits hit => ?_⟩
  · obtain ⟨par, hrep⟩ := hinv.represents
    exact (List.nodup_cons.mp hrep.nodup).2
  · obtain ⟨st', -, hst', -⟩ := insert_inv hc.toIsCmp hinv k v
    exact ⟨st', hst'⟩
  · obtain ⟨v, st', t', hst', -, hm⟩ := extract_present hc hinv hk
    exact ⟨v, st', hst', hm ▸ Multiset.mem_cons_self _ _⟩
  · rw [iterators_spec hinv.toRbState] at hits
    obtain rfl := Option.some.inj hits
    obtain ⟨k, v, st', t', hst', -, hm⟩ := freeIt_inv hinv hit
    exact ⟨(k, v), st', hst', hm ▸ Multiset.mem_cons_self _ _⟩

/-- Three insertions with two equal keys, then an extraction. -/
theorem assocRbTree_runs_three : ∃ st : AssocRbTree Nat Nat,
    ((AssocRbTree.init.insert cmpAsc 2 5).bind fun t =>
      (t.insert cmpAsc 1 7).bind fun t => t.insert cmpAsc 2 6) = some st ∧
    ∃ v st', st.extract cmpAsc 2 = some (v, st') ∧
      (2, v) ∈ (2, 6) ::ₘ (1, 7) ::ₘ (2, 5) ::ₘ (0 : Multiset (Nat × Nat)) := by
  obtain ⟨st₁, h₁⟩ : ∃ st₁, AssocRbTree.init.insert cmpAsc 2 5 = some st₁ :=
    Option.isSome_iff_exists.mp (by decide)
  obtain ⟨-, hins, -⟩ := assocRbTree_runs cmpAsc_isTotalCmp (.insert .init h₁)
  obtain ⟨st₂, h₂⟩ := hins 1 7
  have hreach := RbReach.insert (.insert .init h₁) h₂
  obtain ⟨st₃, h₃⟩ := (assocRbTree_runs cmpAsc_isTotalCmp hreach).2.1 2 6
  obtain ⟨-, -, hext, -⟩ := assocRbTree_runs cmpAsc_isTotalCmp (.insert hreach h₃)
  exact ⟨st₃, by rw [h₁, Option.bind_some, h₂, Option.bind_some, h₃],
    hext 2 ⟨5, by simp⟩⟩

end NrStack
