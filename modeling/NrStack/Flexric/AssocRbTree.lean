import NrStack.Library.RedBlack
import Mathlib.Logic.Function.Basic

/-!
# The red-black tree on its nodes

The tree of `assoc_rb_tree.c` as the code has it : nodes at addresses, each with the
addresses of its parent and its two children, and one sentinel node `dummy` for every
missing child and for the parent of the root. The sentinel is a node like the others,
so a deletion writes its `parent`.

`none` is a failed assertion or a read through an address without a node : `NULL`, and
a node that was freed. The mirrored halves of the rotations and the fix-ups are one
definition for a side. A loop runs on a bound of iterations, and `none` is also the
end of the bound.
-/

namespace NrStack

variable {κ ν : Type}

/-- `assoc_node_t` -/
structure AssocNode (κ ν : Type) where
  key : Option κ
  value : Option ν
  parent : Nat
  left : Nat
  right : Nat
  color : RbColor
  deriving DecidableEq

namespace AssocNode

def child (s : Side) (n : AssocNode κ ν) : Nat :=
  match s with
  | .left => n.left
  | .right => n.right

def setChild (s : Side) (q : Nat) (n : AssocNode κ ν) : AssocNode κ ν :=
  match s with
  | .left => { n with left := q }
  | .right => { n with right := q }

def setParent (q : Nat) (n : AssocNode κ ν) : AssocNode κ ν :=
  { n with parent := q }

def setColor (c : RbColor) (n : AssocNode κ ν) : AssocNode κ ν :=
  { n with color := c }

end AssocNode

/-- `assoc_rb_tree_t` with the nodes in memory. Address 0 is `NULL`, and `next` is the
address of the next allocation. -/
structure AssocRbTree (κ ν : Type) where
  heap : Nat → Option (AssocNode κ ν)
  root : Nat
  dummy : Nat
  size : Nat
  next : Nat

namespace AssocRbTree

def modify (t : AssocRbTree κ ν) (p : Nat) (f : AssocNode κ ν → AssocNode κ ν) :
    Option (AssocRbTree κ ν) :=
  (t.heap p).map fun n => { t with heap := Function.update t.heap p (some (f n)) }

/-- `free` of a node. -/
def free (t : AssocRbTree κ ν) (p : Nat) : AssocRbTree κ ν :=
  { t with heap := Function.update t.heap p none }

/-- `init_node`, at a new address. -/
def initNode (t : AssocRbTree κ ν) (key : Option κ) (value : Option ν) :
    Nat × AssocRbTree κ ν :=
  (t.next, { t with
    heap := Function.update t.heap t.next (some ⟨key, value, 0, 0, 0, .red⟩)
    next := t.next + 1 })

/-- `assoc_rb_tree_init` : the sentinel is the first node. -/
def init : AssocRbTree κ ν where
  heap := Function.update (fun _ => none) 1 (some ⟨none, none, 0, 0, 0, .black⟩)
  root := 1
  dummy := 1
  size := 0
  next := 2

/-- The child of `par` that was `u` becomes `v`, or the root does. -/
def relink (t : AssocRbTree κ ν) (par u v : Nat) : Option (AssocRbTree κ ν) :=
  if par = t.dummy then some { t with root := v }
  else do
    let n ← t.heap par
    if u = n.left then t.modify par (·.setChild .left v) else t.modify par (·.setChild .right v)

/-- `left_rotate` for the left side, `right_rotate` for the right one : the child of `x`
on the other side takes its place. -/
def rotate (s : Side) (t : AssocRbTree κ ν) (x : Nat) : Option (AssocRbTree κ ν) := do
  let xn ← t.heap x
  let y := xn.child s.opp
  if y = t.dummy then none
  else do
    let yn ← t.heap y
    let b := yn.child s
    let t ← t.modify x (·.setChild s.opp b)
    let t ← (if b = t.dummy then some t else t.modify b (·.setParent x))
    let t ← t.modify y (·.setParent xn.parent)
    let t ← t.relink xn.parent x y
    let t ← t.modify y (·.setChild s x)
    t.modify x (·.setParent y)

def leftRotate : AssocRbTree κ ν → Nat → Option (AssocRbTree κ ν) := rotate .left

def rightRotate : AssocRbTree κ ν → Nat → Option (AssocRbTree κ ν) := rotate .right

/-! ## Insertion -/

/-- The body of the loop of `insert_fixup`, for a parent on the side `s` of the
grandparent : the tree and the next node `z`. -/
def insertFixupSide (s : Side) (t : AssocRbTree κ ν) (z parent grand : Nat) :
    Option (AssocRbTree κ ν × Nat) := do
  let gn ← t.heap grand
  let uncle := gn.child s.opp
  let un ← t.heap uncle
  if un.color = .red then do
    let t ← t.modify parent (·.setColor .black)
    let t ← t.modify uncle (·.setColor .black)
    let t ← t.modify grand (·.setColor .red)
    some (t, grand)
  else do
    let pn ← t.heap parent
    let (t, z, parent) ← (if z = pn.child s.opp then do
      let t ← t.rotate s parent
      let zn ← t.heap parent
      some (t, parent, zn.parent)
    else some (t, z, parent))
    let t ← t.modify parent (·.setColor .black)
    let t ← t.modify grand (·.setColor .red)
    let t ← t.rotate s.opp grand
    some (t, z)

/-- `insert_fixup` -/
def insertFixup : Nat → AssocRbTree κ ν → Nat → Option (AssocRbTree κ ν)
  | 0, _, _ => none
  | fuel + 1, t, z => do
    let zn ← t.heap z
    let pn ← t.heap zn.parent
    if pn.color = .red then do
      let gn ← t.heap pn.parent
      let (t, z) ← t.insertFixupSide (if zn.parent = gn.left then .left else .right) z
        zn.parent pn.parent
      insertFixup fuel t z
    else t.modify t.root (·.setColor .black)

/-- The loop of `assoc_rb_tree_insert` that looks for the leaf : `x` and its parent `y`. -/
def findLeaf (comp : κ → κ → Int) (key : κ) :
    Nat → AssocRbTree κ ν → Nat → Nat → Option Nat
  | 0, _, _, _ => none
  | fuel + 1, t, x, y =>
    if x = t.dummy then some y
    else do
      let xn ← t.heap x
      let k ← xn.key
      if comp key k = 1 then findLeaf comp key fuel t xn.left x
      else findLeaf comp key fuel t xn.right x

/-- `assoc_rb_tree_insert` -/
def insert (comp : κ → κ → Int) (t : AssocRbTree κ ν) (key : κ) (value : ν) :
    Option (AssocRbTree κ ν) := do
  let (z, t) := t.initNode (some key) (some value)
  let t ← t.modify z fun n => { n with parent := t.dummy, left := t.dummy, right := t.dummy }
  let y ← findLeaf comp key (t.size + 1) t t.root t.dummy
  let t ← t.modify z (·.setParent y)
  let t ← (if y = t.dummy then some { t with root := z }
  else do
    let yn ← t.heap y
    let k ← yn.key
    if comp key k = 1 then t.modify y (·.setChild .left z)
    else t.modify y (·.setChild .right z))
  let t ← insertFixup (t.size + 1) t z
  some { t with size := t.size + 1 }

/-! ## Deletion -/

/-- The body of the loop of `delete_fixup` below a black sibling `w`, for `x` on the side
`s` of `par` : the tree and the next node `x`. -/
def deleteFixupBlack (s : Side) (t : AssocRbTree κ ν) (par w : Nat) :
    Option (AssocRbTree κ ν × Nat) := do
  let wn ← t.heap w
  if wn.color = .red then none
  else do
    let ln ← t.heap wn.left
    let rn ← t.heap wn.right
    if ln.color = .black ∧ rn.color = .black then do
      let t ← t.modify w (·.setColor .red)
      some (t, par)
    else do
      let fn ← t.heap (wn.child s.opp)
      let (t, w) ← (if fn.color = .black then do
        let nn ← t.heap (wn.child s)
        if nn.color = .black then none
        else do
          let t ← t.modify (wn.child s) (·.setColor .black)
          let t ← t.modify w (·.setColor .red)
          let t ← t.rotate s.opp w
          let pn ← t.heap par
          some (t, pn.child s.opp)
      else some (t, w))
      let wn ← t.heap w
      let fn ← t.heap (wn.child s.opp)
      if wn.color = .red ∨ fn.color = .black then none
      else do
        let pn ← t.heap par
        let t ← t.modify w (·.setColor pn.color)
        let t ← t.modify par (·.setColor .black)
        let t ← t.modify (wn.child s.opp) (·.setColor .black)
        let t ← t.rotate s par
        some (t, t.root)

/-- The body of the loop of `delete_fixup`, for `x` on the side `s` of `par`. -/
def deleteFixupSide (s : Side) (t : AssocRbTree κ ν) (par : Nat) :
    Option (AssocRbTree κ ν × Nat) := do
  let pn ← t.heap par
  let w := pn.child s.opp
  let wn ← t.heap w
  if wn.color = .red then do
    let t ← t.modify w (·.setColor .black)
    let t ← t.modify par (·.setColor .red)
    let t ← t.rotate s par
    let pn ← t.heap par
    t.deleteFixupBlack s par (pn.child s.opp)
  else t.deleteFixupBlack s par w

/-- `delete_fixup` -/
def deleteFixup : Nat → AssocRbTree κ ν → Nat → Option (AssocRbTree κ ν)
  | 0, _, _ => none
  | fuel + 1, t, x => do
    let xn ← t.heap x
    if x ≠ t.root ∧ xn.color = .black then do
      let pn ← t.heap xn.parent
      let (t, x) ← t.deleteFixupSide (if x = pn.left then .left else .right) xn.parent
      deleteFixup fuel t x
    else t.modify x (·.setColor .black)

/-- `transplant` -/
def transplant (t : AssocRbTree κ ν) (u v : Nat) : Option (AssocRbTree κ ν) :=
  if u = t.dummy then none
  else do
    let un ← t.heap u
    let t ← t.relink un.parent u v
    t.modify v (·.setParent un.parent)

/-- The loop of `minimum`. -/
def minimumLoop : Nat → AssocRbTree κ ν → Nat → Option Nat
  | 0, _, _ => none
  | fuel + 1, t, x => do
    let xn ← t.heap x
    if xn.left = t.dummy then some x else minimumLoop fuel t xn.left

/-- `minimum` -/
def minimum (t : AssocRbTree κ ν) (x : Nat) : Option Nat :=
  if x = t.dummy then some t.dummy else minimumLoop (t.size + 1) t x

/-- `find_rb_tree` -/
def findRbTree (comp : κ → κ → Int) (key : κ) : Nat → AssocRbTree κ ν → Nat → Option Nat
  | 0, _, _ => none
  | fuel + 1, t, node =>
    if node = t.dummy then some node
    else do
      let n ← t.heap node
      let k ← n.key
      let rc := comp key k
      if rc = 1 then findRbTree comp key fuel t n.left
      else if rc = -1 then findRbTree comp key fuel t n.right
      else if rc = 0 then some node
      else none

/-- `assoc_rb_tree_extract_node` up to the repair : the tree without the node, the colour
that was taken out, and the node `x` in its place. -/
def unlinkNode (t : AssocRbTree κ ν) (z : Nat) : Option (AssocRbTree κ ν × RbColor × Nat) :=
  if z = t.dummy then none
  else do
    let zn ← t.heap z
    if zn.left = t.dummy then do
      let t ← t.transplant z zn.right
      some (t, zn.color, zn.right)
    else if zn.right = t.dummy then do
      let t ← t.transplant z zn.left
      some (t, zn.color, zn.left)
    else do
      let y ← t.minimum zn.right
      let yn ← t.heap y
      let t ← (if yn.parent = z then t.modify yn.right (·.setParent y)
      else do
        let t ← t.transplant y yn.right
        let t ← t.modify y (·.setChild .right zn.right)
        t.modify zn.right (·.setParent y))
      let t ← t.transplant z y
      let t ← t.modify y (·.setChild .left zn.left)
      let t ← t.modify zn.left (·.setParent y)
      let t ← t.modify y (·.setColor zn.color)
      some (t, yn.color, yn.right)

/-- `assoc_rb_tree_extract_node` -/
def extractNode (t : AssocRbTree κ ν) (z : Nat) : Option (AssocRbTree κ ν) := do
  let (t, color, x) ← t.unlinkNode z
  if color = .black then deleteFixup (t.size + 1) t x else some t

/-- `assoc_rb_tree_free_it`, with the key and the value that `free_func` is called on. -/
def freeIt (t : AssocRbTree κ ν) (it : Nat) : Option ((κ × ν) × AssocRbTree κ ν) :=
  if it = t.dummy then none
  else do
    let t ← t.extractNode it
    let zn ← t.heap it
    let key ← zn.key
    let value ← zn.value
    if t.size = 0 then none
    else some ((key, value), { t.free it with size := t.size - 1 })

/-- `assoc_rb_tree_extract` -/
def extract (comp : κ → κ → Int) (t : AssocRbTree κ ν) (key : κ) :
    Option (ν × AssocRbTree κ ν) := do
  let z ← findRbTree comp key (t.size + 1) t t.root
  if z = t.dummy then none
  else do
    let t ← t.extractNode z
    let zn ← t.heap z
    let value ← zn.value
    if t.size = 0 then none
    else some (value, { t.free z with size := t.size - 1 })

/-! ## Iteration -/

/-- `assoc_rb_tree_front` -/
def front (t : AssocRbTree κ ν) : Option Nat :=
  t.minimum t.root

/-- `assoc_rb_tree_end` -/
def endIt (t : AssocRbTree κ ν) : Nat :=
  t.dummy

/-- The loop of `assoc_rb_tree_next` that climbs from a right child. -/
def nextLoop : Nat → AssocRbTree κ ν → Nat → Nat → Option Nat
  | 0, _, _, _ => none
  | fuel + 1, t, node, p =>
    if p = t.dummy then some p
    else do
      let pn ← t.heap p
      if pn.left = node then some p
      else nextLoop fuel t p pn.parent

/-- `assoc_rb_tree_next` -/
def next? (t : AssocRbTree κ ν) (it : Nat) : Option Nat :=
  if it = t.dummy then none
  else do
    let n ← t.heap it
    if n.right ≠ t.dummy then t.minimum n.right
    else nextLoop (t.size + 1) t it n.parent

/-- `assoc_rb_tree_size` -/
def assocSize (t : AssocRbTree κ ν) : Nat :=
  t.size

end AssocRbTree

end NrStack
