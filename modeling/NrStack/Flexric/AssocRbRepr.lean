import NrStack.Flexric.AssocRbTree
import NrStack.Library.RedBlackOps

/-!
# The nodes represent a tree

`Represents e st t par` : from the root of `st` the addresses lead through the tree `t`,
whose elements are cells (an address with its key and value), every parent link leads
back, the sentinel is black with `par` as its parent, and outside of `t` the memory is
that of `e`. It is taken apart at a position (`represents_plug`), so a rotation, a
recolouring or a transplant is checked on the few nodes it writes.
-/

namespace NrStack

open RbTree

variable {κ ν : Type}

/-- An address with the key and the value of the node there. -/
structure Cell (κ ν : Type) where
  addr : Nat
  key : κ
  value : ν

variable {e st st' : AssocRbTree κ ν} {h h' : Nat → Option (AssocNode κ ν)}
  {t A B C : RbTree (Cell κ ν)} {p q : RbPath (Cell κ ν)} {f : Frame (Cell κ ν)}
  {s : Side} {c c' : RbColor} {a x y : Cell κ ν} {d par par' u v : Nat}

/-! ## Addresses -/

def addrs (t : RbTree (Cell κ ν)) : List Nat :=
  t.toList.map Cell.addr

def pathAddrs (p : RbPath (Cell κ ν)) : List Nat :=
  (pathBefore p ++ pathAfter p).map Cell.addr

/-- The address of the root, that of the sentinel `d` for the empty tree. -/
def rootAddr (d : Nat) : RbTree (Cell κ ν) → Nat
  | .leaf => d
  | .node _ _ a _ => a.addr

/-- The address of the nearest node above. -/
def upAddr (d : Nat) : RbPath (Cell κ ν) → Nat
  | [] => d
  | f :: _ => f.elt.addr

@[simp] theorem addrs_leaf : addrs (.leaf : RbTree (Cell κ ν)) = [] := rfl

@[simp] theorem rootAddr_leaf : rootAddr d (.leaf : RbTree (Cell κ ν)) = d := rfl

@[simp] theorem rootAddr_mkNode : rootAddr d (mkNode s c A a B) = a.addr := by
  cases s <;> rfl

@[simp] theorem upAddr_nil : upAddr d ([] : RbPath (Cell κ ν)) = d := rfl

@[simp] theorem upAddr_cons : upAddr d (f :: p) = f.elt.addr := rfl

@[simp] theorem pathAddrs_nil : pathAddrs ([] : RbPath (Cell κ ν)) = [] := rfl

theorem addrs_mkNode : (addrs (mkNode s c A a B)).Perm (a.addr :: (addrs A ++ addrs B)) := by
  cases s with
  | left =>
    simp only [addrs, mkNode, toList, List.map_append, List.map_cons]
    exact List.perm_middle
  | right =>
    simp only [addrs, mkNode, toList, List.map_append, List.map_cons]
    exact List.perm_middle.trans (List.perm_append_comm.cons _)

theorem addrs_plug : (addrs (plug t p)).Perm (addrs t ++ pathAddrs p) := by
  simp only [addrs, pathAddrs, toList_plug, ← List.map_append]
  refine List.Perm.map _ ?_
  rw [← List.append_assoc]
  exact List.perm_append_comm.append_right _

theorem pathAddrs_cons :
    (pathAddrs (f :: p)).Perm (f.elt.addr :: (addrs f.sibling ++ pathAddrs p)) := by
  simp only [addrs, pathAddrs]
  rw [← List.map_append, ← List.map_cons]
  refine List.Perm.map _ ?_
  cases hs : f.side with
  | left =>
    simp only [pathBefore, pathAfter, hs, List.append_nil, List.cons_append]
    refine List.perm_middle.trans (List.Perm.cons _ ?_)
    rw [← List.append_assoc, ← List.append_assoc]
    exact List.perm_append_comm.append_right _
  | right =>
    simp only [pathBefore, pathAfter, hs, List.nil_append, List.append_assoc]
    rw [← List.append_assoc, List.singleton_append]
    refine List.perm_middle.trans (List.Perm.cons _ ?_)
    rw [← List.append_assoc]
    exact List.perm_append_comm.append_right _

theorem mem_addrs_mkNode {b : Nat} : b ∈ addrs (mkNode s c A a B) ↔
    b = a.addr ∨ b ∈ addrs A ∨ b ∈ addrs B := by
  rw [(addrs_mkNode).mem_iff]
  simp

theorem mem_pathAddrs_cons {b : Nat} : b ∈ pathAddrs (f :: p) ↔
    b = f.elt.addr ∨ b ∈ addrs f.sibling ∨ b ∈ pathAddrs p := by
  rw [(pathAddrs_cons).mem_iff]
  simp

theorem rootAddr_mem : t = .leaf ∨ rootAddr d t ∈ addrs t := by
  cases t with
  | leaf => exact Or.inl rfl
  | node c l a r => exact Or.inr (by simp [addrs, rootAddr])

theorem upAddr_mem : p = [] ∨ upAddr d p ∈ pathAddrs p := by
  cases p with
  | nil => exact Or.inl rfl
  | cons f p => exact Or.inr (mem_pathAddrs_cons.mpr (Or.inl rfl))

/-! ## Trees and paths in memory -/

/-- The node of the cell `a`, with the child `u` on the side `s` and `v` on the other. -/
def cellNode (s : Side) (c : RbColor) (par u v : Nat) (a : Cell κ ν) : AssocNode κ ν :=
  match s with
  | .left => ⟨some a.key, some a.value, par, u, v, c⟩
  | .right => ⟨some a.key, some a.value, par, v, u, c⟩

section cellNode

@[simp] theorem cellNode_key : (cellNode s c par u v a).key = some a.key := by
  cases s <;> rfl

@[simp] theorem cellNode_value : (cellNode s c par u v a).value = some a.value := by
  cases s <;> rfl

@[simp] theorem cellNode_parent : (cellNode s c par u v a).parent = par := by
  cases s <;> rfl

@[simp] theorem cellNode_color : (cellNode s c par u v a).color = c := by
  cases s <;> rfl

@[simp] theorem cellNode_child : (cellNode s c par u v a).child s = u := by
  cases s <;> rfl

@[simp] theorem cellNode_child_opp : (cellNode s c par u v a).child s.opp = v := by
  cases s <;> rfl

@[simp] theorem cellNode_setChild : (cellNode s c par u v a).setChild s par' =
    cellNode s c par par' v a := by
  cases s <;> rfl

@[simp] theorem cellNode_setChild_opp : (cellNode s c par u v a).setChild s.opp par' =
    cellNode s c par u par' a := by
  cases s <;> rfl

@[simp] theorem cellNode_setParent : (cellNode s c par u v a).setParent par' =
    cellNode s c par' u v a := by
  cases s <;> rfl

@[simp] theorem cellNode_setColor : (cellNode s c par u v a).setColor c' =
    cellNode s c' par u v a := by
  cases s <;> rfl

theorem cellNode_opp : cellNode s.opp c par u v a = cellNode s c par v u a := by
  cases s <;> rfl

end cellNode

/-- The nodes of `t` are in memory, below `par`. -/
def RepTree (d : Nat) (h : Nat → Option (AssocNode κ ν)) : Nat → RbTree (Cell κ ν) → Prop
  | _, .leaf => True
  | par, .node c l a r =>
    h a.addr = some (cellNode .left c par (rootAddr d l) (rootAddr d r) a) ∧
      RepTree d h a.addr l ∧ RepTree d h a.addr r

/-- The nodes above and beside a position are in memory, with `q` at the position. -/
def RepPath (st : AssocRbTree κ ν) : RbPath (Cell κ ν) → Nat → Prop
  | [], q => st.root = q
  | f :: p, q =>
    st.heap f.elt.addr = some (cellNode f.side f.color (upAddr st.dummy p) q
      (rootAddr st.dummy f.sibling) f.elt) ∧
      RepTree st.dummy st.heap f.elt.addr f.sibling ∧ RepPath st p f.elt.addr

theorem repTree_mkNode : RepTree d h par (mkNode s c A a B) ↔
    h a.addr = some (cellNode s c par (rootAddr d A) (rootAddr d B) a) ∧
      RepTree d h a.addr A ∧ RepTree d h a.addr B := by
  cases s
  · exact Iff.rfl
  · exact ⟨fun ⟨ha, hB, hA⟩ => ⟨ha, hA, hB⟩, fun ⟨ha, hA, hB⟩ => ⟨ha, hB, hA⟩⟩

/-- Only the memory at the tree matters. -/
theorem RepTree.congr (ht : RepTree d h par t) (hh : ∀ b ∈ addrs t, h' b = h b) :
    RepTree d h' par t := by
  induction t generalizing par with
  | leaf => trivial
  | node c l a r ihl ihr =>
    obtain ⟨ha, hl, hr⟩ := ht
    refine ⟨(hh _ (by simp [addrs])).trans ha, ihl hl fun b hb => hh b ?_,
      ihr hr fun b hb => hh b ?_⟩
    · exact (mem_addrs_mkNode (s := .left)).mpr (Or.inr (Or.inl hb))
    · exact (mem_addrs_mkNode (s := .left)).mpr (Or.inr (Or.inr hb))

theorem RepPath.congr {q : Nat} (hp : RepPath st p q) (hroot : st'.root = st.root)
    (hd : st'.dummy = st.dummy) (hh : ∀ b ∈ pathAddrs p, st'.heap b = st.heap b) :
    RepPath st' p q := by
  induction p generalizing q with
  | nil => exact hroot.trans hp
  | cons f p ih =>
    obtain ⟨ha, hs, hp⟩ := hp
    simp only [mem_pathAddrs_cons] at hh
    refine ⟨?_, ?_, ih hp fun b hb => hh b (Or.inr (Or.inr hb))⟩
    · rw [hh _ (Or.inl rfl), hd, ha]
    · rw [hd]
      exact hs.congr fun b hb => hh b (Or.inr (Or.inl hb))

/-- A tree in memory, taken apart at a position. -/
theorem repTree_plug :
    (RepTree st.dummy st.heap st.dummy (plug t p) ∧ st.root = rootAddr st.dummy (plug t p)) ↔
      RepTree st.dummy st.heap (upAddr st.dummy p) t ∧ RepPath st p (rootAddr st.dummy t) := by
  induction p generalizing t with
  | nil => exact Iff.rfl
  | cons f p ih =>
    rw [plug_cons, ih, Frame.fill, repTree_mkNode, rootAddr_mkNode]
    simp only [upAddr_cons, RepPath]
    tauto

/-- The memory of `st` is the tree `t` with the sentinel below `par`, and that of `e`
elsewhere. -/
structure Represents (e st : AssocRbTree κ ν) (t : RbTree (Cell κ ν)) (par : Nat) : Prop where
  tree : RepTree st.dummy st.heap st.dummy t
  root : st.root = rootAddr st.dummy t
  nodup : (st.dummy :: addrs t).Nodup
  sentinel : st.heap st.dummy = some ⟨none, none, par, 0, 0, .black⟩
  dummy : st.dummy = e.dummy
  size : st.size = e.size
  next : st.next = e.next
  elsewhere : ∀ b, b ∉ st.dummy :: addrs t → st.heap b = e.heap b

theorem Represents.self (h : Represents e st t par) : Represents st st t par :=
  { h with dummy := rfl, size := rfl, next := rfl, elsewhere := fun _ _ => rfl }

theorem Represents.plug (h : Represents e st (plug t p) par) :
    RepTree st.dummy st.heap (upAddr st.dummy p) t ∧ RepPath st p (rootAddr st.dummy t) :=
  repTree_plug.1 ⟨h.tree, h.root⟩

theorem Represents.nodup_plug (h : Represents e st (NrStack.plug t p) par) :
    (st.dummy :: (addrs t ++ pathAddrs p)).Nodup :=
  (addrs_plug.cons _).nodup_iff.mp h.nodup

/-- The node at a position. -/
theorem Represents.node_at (h : Represents e st (NrStack.plug (mkNode s c A a B) p) par) :
    st.heap a.addr = some (cellNode s c (upAddr st.dummy p) (rootAddr st.dummy A)
      (rootAddr st.dummy B) a) :=
  (repTree_mkNode.mp h.plug.1).1

/-- A tree between two operations : its size is the number of its nodes, and the next
address is new. -/
structure RbState (st : AssocRbTree κ ν) (t : RbTree (Cell κ ν)) : Prop where
  represents : ∃ par, Represents st st t par
  isRb : t.IsRb
  size : st.size = t.toList.length
  fresh : ∀ b ∈ st.dummy :: addrs t, b < st.next

/-- The root of the tree at a position has its colour, the sentinel for the empty tree. -/
theorem Represents.color_at (h : Represents e st (NrStack.plug t p) par) :
    ∃ n, st.heap (rootAddr st.dummy t) = some n ∧ n.color = t.color := by
  cases t with
  | leaf => exact ⟨_, h.sentinel, rfl⟩
  | node c l a r => exact ⟨_, h.plug.1.1, rfl⟩

end NrStack
