import NrStack.Library.RedBlackFixup

/-!
# Searching, insertion and extraction in a red-black tree

A search follows a direction `dir` at each element : `.lt` goes to the left, `.gt` to
the right and `.eq` stops. Nothing is assumed of `dir` for the shape of the result
(`insert_spec`, `extract_spec`); where the element is put and whether one is found
needs `dir` to be monotone along the in-order list (`DirSorted`).

Equal elements may stand on either side of each other, so `extract` removes one of
the elements `dir` stops at, and which one depends on the shape of the tree.
-/

namespace NrStack

open RbTree

variable {α : Type*} {p q : RbPath α} {t l r : RbTree α} {c : RbColor} {a z : α}
  {dir : α → Ordering}

/-- A node of a tree with the path above it. -/
structure RbSpot (α : Type*) where
  color : RbColor
  left : RbTree α
  elt : α
  right : RbTree α
  path : RbPath α

def RbSpot.subtree (y : RbSpot α) : RbTree α :=
  .node y.color y.left y.elt y.right

/-- The whole tree. -/
def RbSpot.tree (y : RbSpot α) : RbTree α :=
  plug y.subtree y.path

/-- The leaf where a new element goes : equal elements are passed on the right. -/
def descend (dir : α → Ordering) : RbTree α → RbPath α → RbPath α
  | .leaf, p => p
  | .node c l a r, p =>
    if dir a = .lt then descend dir l (⟨.left, c, a, r⟩ :: p)
    else descend dir r (⟨.right, c, a, l⟩ :: p)

/-- The first node on the way down where `dir` stops. -/
def search (dir : α → Ordering) : RbTree α → RbPath α → Option (RbSpot α)
  | .leaf, _ => none
  | .node c l a r, p => match dir a with
    | .lt => search dir l (⟨.left, c, a, r⟩ :: p)
    | .gt => search dir r (⟨.right, c, a, l⟩ :: p)
    | .eq => some ⟨c, l, a, r, p⟩

/-- The leftmost node below a node. -/
def leftmost : RbColor → RbTree α → α → RbTree α → RbPath α → RbSpot α
  | c, .leaf, a, r, p => ⟨c, .leaf, a, r, p⟩
  | c, .node c' l' a' r', a, r, p => leftmost c' l' a' r' (⟨.left, c, a, r⟩ :: p)

/-- Repair what the removal of a node of colour `c` left at the position. -/
def removeFixup (c : RbColor) (x : RbTree α) (p : RbPath α) : Option (RbTree α) :=
  if c = .black then deleteFixup x p else some (plug x p)

/-- Remove a node : a node with two children gives its place to its successor. -/
def RbSpot.remove (z : RbSpot α) : Option (RbTree α) :=
  match z.left, z.right with
  | .leaf, r => removeFixup z.color r z.path
  | l, .leaf => removeFixup z.color l z.path
  | l, .node c' l' a' r' =>
    let y := leftmost c' l' a' r' []
    removeFixup y.color y.right (y.path ++ ⟨.right, z.color, y.elt, l⟩ :: z.path)

namespace RbTree

def insert (dir : α → Ordering) (z : α) (t : RbTree α) : Option (RbTree α) :=
  (insertFixup (.node .red .leaf z .leaf) (descend dir t [])).map blacken

def extract (dir : α → Ordering) (t : RbTree α) : Option (α × RbTree α) := do
  let z ← search dir t []
  let t' ← z.remove
  some (z.elt, t')

end RbTree

/-! ## What the ways down reach -/

theorem plug_descend : plug .leaf (descend dir t p) = plug t p := by
  induction t generalizing p with
  | leaf => rfl
  | node c l a r ihl ihr =>
    unfold descend
    split
    · exact ihl
    · exact ihr

theorem plug_search {y : RbSpot α} (h : search dir t p = some y) :
    y.tree = plug t p ∧ dir y.elt = .eq := by
  induction t generalizing p with
  | leaf => simp [search] at h
  | node c l a r ihl ihr =>
    unfold search at h
    cases hd : dir a with
    | lt => rw [hd] at h; exact ihl h
    | gt => rw [hd] at h; exact ihr h
    | eq =>
      rw [hd] at h
      obtain rfl := Option.some.inj h
      exact ⟨rfl, hd⟩

theorem leftmost_spec : (leftmost c l a r p).tree = plug (.node c l a r) p ∧
    (leftmost c l a r p).left = .leaf := by
  induction l generalizing c a r p with
  | leaf => exact ⟨rfl, rfl⟩
  | node c' l' a' r' ihl _ => exact ihl

theorem leftmost_append : leftmost c l a r (p ++ q) =
    { leftmost c l a r p with path := (leftmost c l a r p).path ++ q } := by
  induction l generalizing c a r p with
  | leaf => rfl
  | node c' l' a' r' ihl _ => exact ihl (p := ⟨.left, c, a, r⟩ :: p)

theorem pathBefore_leftmost : pathBefore (leftmost c l a r p).path = pathBefore p := by
  induction l generalizing c a r p with
  | leaf => rfl
  | node c' l' a' r' ihl _ =>
    rw [leftmost, ihl]
    simp [pathBefore]

theorem isRb_plug_congr {t' : RbTree α} (hc : t'.color = t.color) (ho : t.RedOk → t'.RedOk)
    (hh : ∀ n, t.Height n → t'.Height n) (h : (plug t p).IsRb) : (plug t' p).IsRb := by
  obtain ⟨hto, hp, hpc, hroot, n, hn, hpn⟩ := h.unplug
  refine ⟨?_, redOk_plug.2 ⟨ho hto, hp, fun hr => hc.trans (hpc hr)⟩,
    height_plug.2 ⟨n, hh n hn, hpn⟩⟩
  cases p with
  | nil => exact hc.trans h.root_black
  | cons f p => exact color_plug hroot (by simp)

/-! ## The operations keep the conditions -/

/-- Insertion puts the element somewhere into the in-order list. -/
theorem RbTree.insert_spec (ht : t.IsRb) (dir : α → Ordering) (z : α) :
    ∃ t', t.insert dir z = some t' ∧ t'.IsRb ∧
      t.toList = pathBefore (descend dir t []) ++ pathAfter (descend dir t []) ∧
      t'.toList = pathBefore (descend dir t []) ++ z :: pathAfter (descend dir t []) := by
  have hplug : plug .leaf (descend dir t []) = t := plug_descend
  have hrb : (plug .leaf (descend dir t [])).IsRb := hplug.symm ▸ ht
  obtain ⟨-, hp, -, hroot, n, hn, hpn⟩ := hrb.unplug
  obtain rfl : n = 0 := hn
  obtain ⟨t', ht', hto, hth, htl⟩ :=
    insertFixup_spec (z := .node .red .leaf z .leaf) rfl ⟨fun _ => ⟨rfl, rfl⟩, trivial, trivial⟩
      ⟨0, rfl, rfl, rfl⟩ hpn hp hroot
  refine ⟨t'.blacken, by simp [insert, ht'], isRb_blacken hto hth, ?_, ?_⟩
  · conv_lhs => rw [← hplug, toList_plug]
    simp
  · rw [toList_blacken, htl, toList_plug]
    simp

/-- A node with at most one child is removed. -/
theorem removeFixup_spec {s : Side} (h : (plug (mkNode s c .leaf a t) p).IsRb) :
    ∃ t', removeFixup c t p = some t' ∧ t'.IsRb ∧ t'.toList = (plug t p).toList := by
  obtain ⟨ho, hp, hpc, hroot, n, hn, hpn⟩ := h.unplug
  obtain ⟨hcol, -, hto⟩ := redOk_mkNode.1 ho
  obtain ⟨m, hm, hth, rfl⟩ := height_mkNode.1 hn
  cases c with
  | black =>
    rw [removeFixup, if_pos rfl]
    exact deleteFixup_spec hto.blacken hth hpn hp hroot
  | red =>
    have hpb : pathColor p = .black := by
      cases hp' : pathColor p with
      | black => rfl
      | red => exact absurd (hpc hp') (by simp)
    have hne : p ≠ [] := by
      rintro rfl
      exact absurd h.root_black (by simp)
    exact ⟨_, rfl, ⟨color_plug hroot hne, redOk_plug.2 ⟨hto, hp, fun h => by simp [hpb] at h⟩,
      height_plug.2 ⟨m, hth, hpn⟩⟩, rfl⟩

/-- Removing a node takes its element out of the in-order list, and nothing else. -/
theorem RbSpot.remove_spec {z : RbSpot α} (hz : z.tree.IsRb) :
    ∃ t, z.remove = some t ∧ t.IsRb ∧
      t.toList = pathBefore z.path ++ z.left.toList ++ (z.right.toList ++ pathAfter z.path) := by
  obtain ⟨c, l, a, r, p⟩ := z
  simp only [RbSpot.tree, RbSpot.subtree] at hz
  cases l with
  | leaf =>
    obtain ⟨t, ht, hrb, htl⟩ := removeFixup_spec (s := .left) hz
    refine ⟨t, ht, hrb, ?_⟩
    rw [htl, toList_plug]
    simp
  | node cl ll al rl =>
    cases r with
    | leaf =>
      obtain ⟨t, ht, hrb, htl⟩ := removeFixup_spec (s := .right) hz
      refine ⟨t, ht, hrb, ?_⟩
      rw [htl, toList_plug]
      simp
    | node cr lr ar rr =>
      obtain ⟨hy, hyl⟩ := leftmost_spec (c := cr) (l := lr) (a := ar) (r := rr) (p := [])
      have hbefore := pathBefore_leftmost (c := cr) (l := lr) (a := ar) (r := rr) (p := [])
      change ∃ t, removeFixup (leftmost cr lr ar rr []).color (leftmost cr lr ar rr []).right
        ((leftmost cr lr ar rr []).path ++ ⟨.right, c, (leftmost cr lr ar rr []).elt,
          .node cl ll al rl⟩ :: p) = some t ∧ _
      generalize leftmost cr lr ar rr [] = y at hy hyl hbefore ⊢
      obtain ⟨yc, yl, ya, yr, yp⟩ := y
      simp only [RbSpot.tree, RbSpot.subtree, plug_nil] at hy hyl
      subst hyl
      -- the successor stands in for the element : only the element of one frame changes
      have hz' : (plug (mkNode .left yc .leaf ya yr)
          (yp ++ ⟨.right, c, ya, .node cl ll al rl⟩ :: p)).IsRb := by
        rw [plug_append, plug_cons]
        rw [← hy] at hz
        exact isRb_plug_congr (t := .node c (.node cl ll al rl) a
          (plug (.node yc .leaf ya yr) yp)) rfl id (fun _ => id) hz
      obtain ⟨t, ht, hrb, htl⟩ := removeFixup_spec hz'
      refine ⟨t, ht, hrb, ?_⟩
      have hlist := congrArg toList hy
      rw [toList_plug] at hlist
      simp only [pathBefore] at hbefore
      simp only [← hlist, htl, plug_append, toList_plug]
      simp [pathBefore, pathAfter, hbefore]

/-! ## Monotone directions -/

/-- Along the list the direction goes from right over stop to left. -/
def DirSorted (dir : α → Ordering) (l : List α) : Prop :=
  l.Pairwise fun a b => (dir a = .lt → dir b = .lt) ∧ (dir b = .gt → dir a = .gt)

theorem dirSorted_node (h : DirSorted dir (RbTree.node c l a r).toList) :
    DirSorted dir l.toList ∧ DirSorted dir r.toList ∧
      (∀ b ∈ l.toList, (dir b = .lt → dir a = .lt) ∧ (dir a = .gt → dir b = .gt)) ∧
      ∀ b ∈ r.toList, (dir a = .lt → dir b = .lt) ∧ (dir b = .gt → dir a = .gt) := by
  obtain ⟨hl, har, hlr⟩ := List.pairwise_append.mp h
  obtain ⟨ha, hr⟩ := List.pairwise_cons.mp har
  exact ⟨hl, hr, fun b hb => hlr b hb a List.mem_cons_self, ha⟩

/-- A new element goes behind every element that is not above it. -/
theorem descend_before (h : DirSorted dir t.toList) :
    (∀ b ∈ pathBefore (descend dir t p), b ∈ pathBefore p ∨ dir b ≠ .lt) ∧
      ∀ b ∈ pathAfter (descend dir t p), b ∈ pathAfter p ∨ dir b = .lt := by
  induction t generalizing p with
  | leaf => exact ⟨fun b hb => Or.inl hb, fun b hb => Or.inl hb⟩
  | node c l a r ihl ihr =>
    obtain ⟨hl, hr, hla, hra⟩ := dirSorted_node h
    unfold descend
    split
    case isTrue ha =>
      obtain ⟨h1, h2⟩ := ihl (p := ⟨.left, c, a, r⟩ :: p) hl
      refine ⟨fun b hb => by simpa [pathBefore] using h1 b hb, fun b hb => ?_⟩
      rcases h2 b hb with hb | hb
      · simp only [pathAfter, List.cons_append, List.mem_cons, List.mem_append] at hb
        obtain rfl | hb | hb := hb
        · exact Or.inr ha
        · exact Or.inr ((hra b hb).1 ha)
        · exact Or.inl hb
      · exact Or.inr hb
    case isFalse ha =>
      obtain ⟨h1, h2⟩ := ihr (p := ⟨.right, c, a, l⟩ :: p) hr
      refine ⟨fun b hb => ?_, fun b hb => by simpa [pathAfter] using h2 b hb⟩
      rcases h1 b hb with hb | hb
      · simp only [pathBefore, List.mem_append, List.mem_singleton] at hb
        obtain hb | hb | rfl := hb
        · exact Or.inl hb
        · exact Or.inr fun hlt => ha ((hla b hb).1 hlt)
        · exact Or.inr ha
      · exact Or.inr hb

/-- A search stops when some element lets it. -/
theorem exists_search (h : DirSorted dir t.toList) (hex : ∃ b ∈ t.toList, dir b = .eq) :
    ∃ y, search dir t p = some y := by
  induction t generalizing p with
  | leaf => simp at hex
  | node c l a r ihl ihr =>
    obtain ⟨hl, hr, hla, hra⟩ := dirSorted_node h
    obtain ⟨b, hb, hbe⟩ := hex
    unfold search
    simp only [toList, List.mem_append, List.mem_cons] at hb
    cases hd : dir a with
    | eq => exact ⟨_, rfl⟩
    | lt =>
      refine ihl hl ⟨b, ?_, hbe⟩
      obtain hb | rfl | hb := hb
      · exact hb
      · simp [hd] at hbe
      · simp [(hra b hb).1 hd] at hbe
    | gt =>
      refine ihr hr ⟨b, ?_, hbe⟩
      obtain hb | rfl | hb := hb
      · simp [(hla b hb).2 hd] at hbe
      · simp [hd] at hbe
      · exact hb

/-- Extraction removes one element that `dir` stops at. -/
theorem RbTree.extract_spec (ht : t.IsRb) (h : DirSorted dir t.toList)
    (hex : ∃ b ∈ t.toList, dir b = .eq) :
    ∃ a t' l₁ l₂, t.extract dir = some (a, t') ∧ t'.IsRb ∧ dir a = .eq ∧
      t.toList = l₁ ++ a :: l₂ ∧ t'.toList = l₁ ++ l₂ := by
  obtain ⟨y, hy⟩ := exists_search (p := []) h hex
  obtain ⟨hyt, hyd⟩ := plug_search hy
  rw [plug_nil] at hyt
  obtain ⟨t', ht', hrb, htl⟩ := RbSpot.remove_spec (hyt.symm ▸ ht)
  refine ⟨y.elt, t', pathBefore y.path ++ y.left.toList, y.right.toList ++ pathAfter y.path,
    ?_, hrb, hyd, ?_, htl⟩
  · simp [extract, hy, ht']
  · rw [← hyt, RbSpot.tree, toList_plug]
    simp [RbSpot.subtree]

end NrStack
