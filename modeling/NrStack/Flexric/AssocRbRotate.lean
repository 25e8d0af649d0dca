import NrStack.Flexric.AssocRbRepr

/-!
# The pointer steps : recolouring, relinking, rotation

Each step writes a few nodes (`Touches`) and turns a represented tree into another one.
`rotate_spec` is the rotation at a position, `setColor_spec` a change of one colour.
-/

namespace NrStack

open RbTree

variable {κ ν : Type} {e st st' st₁ st₂ : AssocRbTree κ ν}
  {t A B C : RbTree (Cell κ ν)} {p : RbPath (Cell κ ν)} {f : Frame (Cell κ ν)}
  {s : Side} {c c' d : RbColor} {a x y : Cell κ ν} {par par' u v q : Nat}
  {n : AssocNode κ ν} {g : AssocNode κ ν → AssocNode κ ν} {l l' : List Nat}

/-- Everything but the root and the nodes at `l` stays. -/
structure Touches (l : List Nat) (st st' : AssocRbTree κ ν) : Prop where
  dummy : st'.dummy = st.dummy
  size : st'.size = st.size
  next : st'.next = st.next
  heap : ∀ b, b ∉ l → st'.heap b = st.heap b

theorem Touches.refl : Touches l st st :=
  ⟨rfl, rfl, rfl, fun _ _ => rfl⟩

theorem Touches.trans (h₁ : Touches l st st₁) (h₂ : Touches l' st₁ st₂) :
    Touches (l ++ l') st st₂ where
  dummy := h₂.dummy.trans h₁.dummy
  size := h₂.size.trans h₁.size
  next := h₂.next.trans h₁.next
  heap b hb := (h₂.heap b fun h => hb (List.mem_append_right _ h)).trans
    (h₁.heap b fun h => hb (List.mem_append_left _ h))

/-- A write to one node. -/
theorem modify_spec (hn : st.heap q = some n) : ∃ st', st.modify q g = some st' ∧
    st'.root = st.root ∧ Touches [q] st st' ∧ st'.heap q = some (g n) := by
  refine ⟨{ st with heap := Function.update st.heap q (some (g n)) }, ?_, rfl,
    ⟨rfl, rfl, rfl, fun b hb => ?_⟩, Function.update_self ..⟩
  · rw [AssocRbTree.modify, hn]
    rfl
  · exact Function.update_of_ne (by simpa using hb) ..

/-- The parent link of a subtree is redirected, unless the subtree is empty. -/
theorem reparent_spec (par' : Nat) (hB : RepTree st.dummy st.heap par B)
    (hnd : (st.dummy :: addrs B).Nodup) :
    ∃ st', (if rootAddr st.dummy B = st.dummy then some st
        else st.modify (rootAddr st.dummy B) (·.setParent par')) = some st' ∧
      st'.root = st.root ∧ Touches (addrs B) st st' ∧ RepTree st'.dummy st'.heap par' B := by
  cases B with
  | leaf => exact ⟨st, if_pos rfl, rfl, .refl, trivial⟩
  | node cb l b r =>
    obtain ⟨hb, hl, hr⟩ := hB
    have hperm := (addrs_mkNode (s := .left)).nodup_iff.mp hnd.of_cons
    have hmem : b.addr ∈ addrs (.node cb l b r) := (mem_addrs_mkNode (s := .left)).mpr (Or.inl rfl)
    obtain ⟨hbl, hlr⟩ := List.nodup_cons.mp hperm
    simp only [List.mem_append, not_or] at hbl
    obtain ⟨st', hst', hroot, htou, hw⟩ := modify_spec (g := (·.setParent par')) hb
    have hne : b.addr ≠ st.dummy := fun h => (List.nodup_cons.mp hnd).1 (h ▸ hmem)
    have hrest : ∀ r' : RbTree (Cell κ ν), RepTree st.dummy st.heap b.addr r' →
        b.addr ∉ addrs r' → RepTree st'.dummy st'.heap b.addr r' := by
      intro r' hr' hbr
      rw [htou.dummy]
      exact hr'.congr fun a' ha' => htou.heap a' (by rintro h; simp_all)
    refine ⟨st', (if_neg hne).trans hst', hroot, ⟨htou.dummy, htou.size, htou.next,
      fun a' ha' => htou.heap a' (by rintro h; simp_all)⟩, ?_, hrest l hl hbl.1, hrest r hr hbl.2⟩
    rw [hw, htou.dummy, cellNode_setParent]

/-- The node above a position gets a new child there. -/
theorem setChild_spec (hp : RepPath st (f :: p) u)
    (hnd : (st.dummy :: pathAddrs (f :: p)).Nodup) :
    ∃ st', st.modify f.elt.addr (·.setChild f.side v) = some st' ∧
      Touches (pathAddrs (f :: p)) st st' ∧ RepPath st' (f :: p) v := by
  obtain ⟨hf, hs, hp⟩ := hp
  have hperm := (pathAddrs_cons.cons st.dummy).nodup_iff.mp hnd
  simp only [List.nodup_cons, List.mem_append, not_or] at hperm
  obtain ⟨-, ⟨hfs, hfp⟩, -⟩ := hperm
  obtain ⟨st', hst', hroot, htou, hw⟩ := modify_spec (g := (·.setChild f.side v)) hf
  refine ⟨st', hst', ⟨htou.dummy, htou.size, htou.next, fun b hb => htou.heap b ?_⟩, ?_, ?_, ?_⟩
  · simp only [mem_pathAddrs_cons, not_or] at hb
    simpa using hb.1
  · rw [hw, htou.dummy, cellNode_setChild]
  · rw [htou.dummy]
    exact hs.congr fun b hb => htou.heap b (by rintro h; simp_all)
  · exact hp.congr hroot htou.dummy fun b hb => htou.heap b (by rintro h; simp_all)

/-- The node above a position gets a new child there, or the tree a new root. -/
theorem relink_spec (hp : RepPath st p u) (hnd : (st.dummy :: pathAddrs p).Nodup)
    (hu : u ∉ st.dummy :: pathAddrs p) :
    ∃ st', st.relink (upAddr st.dummy p) u v = some st' ∧ Touches (pathAddrs p) st st' ∧
      RepPath st' p v := by
  cases p with
  | nil => exact ⟨{ st with root := v }, if_pos rfl, ⟨rfl, rfl, rfl, fun _ _ => rfl⟩, rfl⟩
  | cons f p =>
    have hf := hp.1
    have hdf : f.elt.addr ≠ st.dummy := by
      intro h
      exact (List.nodup_cons.mp hnd).1 (h ▸ mem_pathAddrs_cons.2 (Or.inl rfl))
    simp only [List.mem_cons, mem_pathAddrs_cons, not_or] at hu
    obtain ⟨hud, -, hus, -⟩ := hu
    have hrel : st.relink f.elt.addr u v = st.modify f.elt.addr (·.setChild f.side v) := by
      rw [AssocRbTree.relink, if_neg hdf, hf, Option.bind_eq_bind, Option.bind_some]
      cases hside : f.side with
      | left => exact if_pos rfl
      | right =>
        refine if_neg fun h => ?_
        rcases rootAddr_mem (d := st.dummy) (t := f.sibling) with hleaf | hmem
        · rw [hleaf] at h
          exact hud h
        · exact hus (h.symm ▸ hmem)
    obtain ⟨st', hst', htou, hp'⟩ := setChild_spec (v := v) hp hnd
    exact ⟨st', hrel.trans hst', htou, hp'⟩

/-- The tree after a step that stays inside it. -/
theorem Represents.step {t₀ : RbTree (Cell κ ν)} (h : Represents e st t₀ par)
    (hperm : (addrs (NrStack.plug t p)).Perm (addrs t₀)) (htou : Touches (addrs t₀) st st')
    (ht : RepTree st'.dummy st'.heap (upAddr st'.dummy p) t)
    (hp : RepPath st' p (rootAddr st'.dummy t)) : Represents e st' (NrStack.plug t p) par := by
  obtain ⟨htree, hroot⟩ := repTree_plug.2 ⟨ht, hp⟩
  have hnd := List.nodup_cons.mp h.nodup
  exact {
    tree := htree
    root := hroot
    nodup := by
      rw [htou.dummy]
      exact (hperm.cons _).nodup_iff.mpr h.nodup
    sentinel := by rw [htou.dummy, htou.heap _ hnd.1, h.sentinel]
    dummy := htou.dummy.trans h.dummy
    size := htou.size.trans h.size
    next := htou.next.trans h.next
    elsewhere := fun b hb => by
      rw [htou.dummy, (hperm.cons _).mem_iff] at hb
      exact (htou.heap b fun hb' => hb (List.mem_cons_of_mem _ hb')).trans (h.elsewhere b hb) }

/-- Memory outside of the tree may change. -/
theorem Represents.congr (h : Represents e st t par) (hd : st'.dummy = st.dummy)
    (hr : st'.root = st.root) (hh : ∀ b ∈ st.dummy :: addrs t, st'.heap b = st.heap b) :
    Represents st' st' t par where
  tree := by
    rw [hd]
    exact h.tree.congr fun b hb => hh b (List.mem_cons_of_mem _ hb)
  root := by rw [hr, hd, h.root]
  nodup := hd ▸ h.nodup
  sentinel := by rw [hd, hh _ List.mem_cons_self, h.sentinel]
  dummy := rfl
  size := rfl
  next := rfl
  elsewhere _ _ := rfl

/-- One node changes its colour. -/
theorem setColor_spec (c' : RbColor) (h : Represents e st (plug (mkNode s c A a B) p) par) :
    ∃ st', st.modify a.addr (·.setColor c') = some st' ∧
      Represents e st' (plug (mkNode s c' A a B) p) par := by
  obtain ⟨htree, hpath⟩ := h.plug
  obtain ⟨ha, hA, hB⟩ := repTree_mkNode.1 htree
  have hnd := ((addrs_mkNode.append_right (pathAddrs p)).cons st.dummy).nodup_iff.mp h.nodup_plug
  simp only [List.cons_append, List.append_assoc, List.nodup_cons, List.mem_cons,
    List.mem_append, not_or] at hnd
  obtain ⟨-, ⟨haA, haB, hap⟩, -⟩ := hnd
  obtain ⟨st', hst', hroot, htou, hw⟩ := modify_spec (g := (·.setColor c')) ha
  have hfar : ∀ b, b ≠ a.addr → st'.heap b = st.heap b := fun b hb => htou.heap b (by simpa using hb)
  have hperm : (addrs (plug (mkNode s c' A a B) p)).Perm (addrs (plug (mkNode s c A a B) p)) :=
    (addrs_plug).trans (((addrs_mkNode.trans (addrs_mkNode).symm).append_right _).trans (addrs_plug).symm)
  refine ⟨st', hst', h.step hperm ⟨htou.dummy, htou.size, htou.next, fun b hb => hfar b ?_⟩ ?_ ?_⟩
  · rintro rfl
    exact hb (addrs_plug.mem_iff.mpr (by simp [mem_addrs_mkNode]))
  · rw [htou.dummy, repTree_mkNode, hw, cellNode_setColor]
    refine ⟨rfl, hA.congr fun b hb => hfar b ?_, hB.congr fun b hb => hfar b ?_⟩
    · rintro rfl; exact haA hb
    · rintro rfl; exact haB hb
  · rw [rootAddr_mkNode] at hpath ⊢
    exact hpath.congr hroot htou.dummy fun b hb => hfar b (by rintro rfl; exact hap hb)

/-- A rotation at a position : the child of `x` on the other side takes its place. -/
theorem rotate_spec (h : Represents e st (plug (mkNode s c A x (mkNode s d B y C)) p) par) :
    ∃ st', st.rotate s x.addr = some st' ∧
      Represents e st' (plug (mkNode s d (mkNode s c A x B) y C) p) par := by
  obtain ⟨htree, hpath⟩ := h.plug
  obtain ⟨hx, hA, hy⟩ := repTree_mkNode.1 htree
  obtain ⟨hy, hB, hC⟩ := repTree_mkNode.1 hy
  rw [rootAddr_mkNode] at hx hpath
  have hperm : (addrs (mkNode s c A x (mkNode s d B y C))).Perm
      (x.addr :: y.addr :: (addrs B ++ (addrs A ++ addrs C))) := by
    refine (addrs_mkNode).trans (List.Perm.cons _ ?_)
    refine (addrs_mkNode.append_left _).trans (List.perm_middle.trans (List.Perm.cons _ ?_))
    rw [← List.append_assoc, ← List.append_assoc]
    exact List.perm_append_comm.append_right _
  have hnd := ((hperm.append_right (pathAddrs p)).cons st.dummy).nodup_iff.mp h.nodup_plug
  simp only [List.cons_append, List.append_assoc, List.nodup_cons, List.mem_cons,
    List.mem_append, not_or] at hnd
  obtain ⟨⟨hdx, hdy, hdB, hdA, hdC, hdp⟩, ⟨hxy, hxB, hxA, hxC, hxp⟩, ⟨hyB, hyA, hyC, hyp⟩,
    hnd⟩ := hnd
  obtain ⟨hndB, hnd, hdisj⟩ := List.nodup_append.mp hnd
  have hndp := (List.nodup_append.mp (List.nodup_append.mp hnd).2.1).2.1
  -- the inner child changes sides
  obtain ⟨st₁, h₁, hr₁, ht₁, hw₁⟩ :=
    modify_spec (g := (·.setChild s.opp (rootAddr st.dummy B))) hx
  have hB₁ : RepTree st₁.dummy st₁.heap y.addr B := by
    rw [ht₁.dummy]
    exact hB.congr fun b hb => ht₁.heap b (by rintro h; simp_all)
  obtain ⟨st₂, h₂, hr₂, ht₂, hB₂⟩ := reparent_spec x.addr hB₁
    (by rw [ht₁.dummy]; exact List.nodup_cons.mpr ⟨hdB, hndB⟩)
  rw [ht₁.dummy] at h₂
  have hy₂ : st₂.heap y.addr = some (cellNode s d x.addr (rootAddr st.dummy B)
      (rootAddr st.dummy C) y) := by
    rw [ht₂.heap _ hyB, ht₁.heap _ (by simpa using Ne.symm hxy), hy]
  -- `y` goes below the parent of `x`
  obtain ⟨st₃, h₃, hr₃, ht₃, hw₃⟩ := modify_spec (g := (·.setParent (upAddr st.dummy p))) hy₂
  have hd₃ : st₃.dummy = st.dummy := ht₃.dummy.trans (ht₂.dummy.trans ht₁.dummy)
  have hheap₃ : ∀ b, b ≠ x.addr → b ∉ addrs B → b ≠ y.addr → st₃.heap b = st.heap b := by
    intro b hbx hbB hby
    rw [ht₃.heap b (by simpa using hby), ht₂.heap b hbB, ht₁.heap b (by simpa using hbx)]
  have hpath₃ : RepPath st₃ p x.addr := by
    refine hpath.congr (hr₃.trans (hr₂.trans hr₁)) hd₃ fun b hb => hheap₃ b ?_ ?_ ?_
    · rintro rfl; exact hxp hb
    · intro hbB; exact hdisj b hbB b (by simp [hb]) rfl
    · rintro rfl; exact hyp hb
  obtain ⟨st₄, h₄, ht₄, hpath₄⟩ := relink_spec (v := y.addr) hpath₃
    (by rw [hd₃]; exact List.nodup_cons.mpr ⟨hdp, hndp⟩)
    (by rw [hd₃]; simpa using ⟨Ne.symm hdx, hxp⟩)
  rw [hd₃] at h₄
  have hy₄ := (ht₄.heap y.addr hyp).trans hw₃
  obtain ⟨st₅, h₅, hr₅, ht₅, hw₅⟩ := modify_spec (g := (·.setChild s x.addr)) hy₄
  have hx₅ : st₅.heap x.addr = some (cellNode s c (upAddr st.dummy p) (rootAddr st.dummy A)
      (rootAddr st.dummy B) x) := by
    rw [ht₅.heap _ (by simpa using hxy), ht₄.heap _ hxp, ht₃.heap _ (by simpa using hxy),
      ht₂.heap _ hxB, hw₁, cellNode_setChild_opp]
  obtain ⟨st₆, h₆, hr₆, ht₆, hw₆⟩ := modify_spec (g := (·.setParent y.addr)) hx₅
  have hd₆ : st₆.dummy = st.dummy := ht₆.dummy.trans (ht₅.dummy.trans (ht₄.dummy.trans hd₃))
  have hheap₆ : ∀ b, b ≠ x.addr → b ∉ addrs B → b ≠ y.addr → b ∉ pathAddrs p →
      st₆.heap b = st.heap b := by
    intro b hbx hbB hby hbp
    rw [ht₆.heap b (by simpa using hbx), ht₅.heap b (by simpa using hby), ht₄.heap b hbp,
      hheap₃ b hbx hbB hby]
  refine ⟨st₆, ?_, ?_⟩
  · simp only [AssocRbTree.rotate, hx, Option.bind_eq_bind, Option.bind_some,
      cellNode_child_opp, if_neg (Ne.symm hdy), hy, cellNode_child, h₁, ht₁.dummy, h₂,
      cellNode_parent, h₃, h₄, h₅, h₆]
  have hperm' : (addrs (plug (mkNode s d (mkNode s c A x B) y C) p)).Perm
      (addrs (plug (mkNode s c A x (mkNode s d B y C)) p)) := by
    simp only [addrs]
    rw [toList_plug_congr (toList_rotate (e := d))]
  have hmem : ∀ b, b ∈ addrs (plug (mkNode s c A x (mkNode s d B y C)) p) ↔
      b = x.addr ∨ b = y.addr ∨ b ∈ addrs B ∨ b ∈ addrs A ∨ b ∈ addrs C ∨ b ∈ pathAddrs p := by
    intro b
    rw [(addrs_plug).mem_iff, List.mem_append, hperm.mem_iff]
    simp [or_assoc]
  refine h.step hperm' ⟨hd₆, ?_, ?_, fun b hb => ?_⟩ ?_ ?_
  · rw [ht₆.size, ht₅.size, ht₄.size, ht₃.size, ht₂.size, ht₁.size]
  · rw [ht₆.next, ht₅.next, ht₄.next, ht₃.next, ht₂.next, ht₁.next]
  · simp only [hmem, not_or] at hb
    exact hheap₆ b hb.1 hb.2.2.1 hb.2.1 hb.2.2.2.2.2
  · rw [hd₆, repTree_mkNode, rootAddr_mkNode]
    refine ⟨?_, repTree_mkNode.2 ⟨?_, ?_, ?_⟩, ?_⟩
    · rw [ht₆.heap _ (by simpa using Ne.symm hxy), hw₅]
      simp
    · rw [hw₆, cellNode_setParent]
    · refine hA.congr fun b hb => hheap₆ b ?_ ?_ ?_ ?_
      · rintro rfl; exact hxA hb
      · intro hbB; exact hdisj b hbB b (by simp [hb]) rfl
      · rintro rfl; exact hyA hb
      · intro hbp; exact (List.nodup_append.mp hnd).2.2 b hb b (by simp [hbp]) rfl
    · rw [ht₂.dummy, ht₁.dummy] at hB₂
      refine hB₂.congr fun b hb => ?_
      have hbx : b ≠ x.addr := by rintro rfl; exact hxB hb
      have hby : b ≠ y.addr := by rintro rfl; exact hyB hb
      rw [ht₆.heap b (by simpa using hbx), ht₅.heap b (by simpa using hby),
        ht₄.heap b fun hbp => hdisj b hb b (by simp [hbp]) rfl, ht₃.heap b (by simpa using hby)]
    · refine hC.congr fun b hb => hheap₆ b ?_ ?_ ?_ ?_
      · rintro rfl; exact hxC hb
      · intro hbB; exact hdisj b hbB b (by simp [hb]) rfl
      · rintro rfl; exact hyC hb
      · intro hbp
        exact (List.nodup_append.mp (List.nodup_append.mp hnd).2.1).2.2 b hb b hbp rfl
  · rw [rootAddr_mkNode]
    refine hpath₄.congr (hr₆.trans hr₅) (ht₆.dummy.trans ht₅.dummy) fun b hb => ?_
    rw [ht₆.heap b (by rintro h; simp_all), ht₅.heap b (by rintro h; simp_all)]

end NrStack
