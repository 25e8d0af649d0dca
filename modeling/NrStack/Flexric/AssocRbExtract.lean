import NrStack.Flexric.AssocRbDelete

/-!
# Extraction of a node

`unlinkNode_spec` : a node with at most one child is replaced by that child, a node with
two children by the leftmost node of its right subtree, whether that one is its right
child or further down. With the repair after it, this is the removal on trees
(`extractNode_refines`). `extract_refines` and `freeIt_refines` are the two operations.
-/

namespace NrStack

open RbTree

variable {κ ν : Type} {e st st₁ : AssocRbTree κ ν} {T X Y A B l r : RbTree (Cell κ ν)}
  {p q : RbPath (Cell κ ν)} {s : Side} {c d : RbColor} {y : Cell κ ν}
  {z : RbSpot (Cell κ ν)} {par par' u : Nat}

/-- The tree between the unlinking of `z` and the repair : `X` stands at the end of `q` in
place of what was taken out, and the node of `z` is still in memory. -/
structure Unlinked (st st₁ : AssocRbTree κ ν) (z : Cell κ ν) (X : RbTree (Cell κ ν))
    (q : RbPath (Cell κ ν)) (par : Nat) : Prop where
  rep : Represents st₁ st₁ (plug X q) par
  at_leaf : X = .leaf → par = upAddr st.dummy q
  dummy : st₁.dummy = st.dummy
  size : st₁.size = st.size
  next : st₁.next = st.next
  node : ∃ n, st₁.heap z.addr = some n ∧ n.key = some z.key ∧ n.value = some z.value

/-- The nodes and the sentinel are at different addresses, the root of a subtree in front. -/
theorem Represents.nodup_node (h : Represents e st (NrStack.plug (mkNode s c A y B) p) par) :
    (st.dummy :: y.addr :: (addrs A ++ (addrs B ++ pathAddrs p))).Nodup := by
  have hperm := ((addrs_mkNode (s := s) (c := c) (A := A) (a := y) (B := B)).append_right
    (pathAddrs p)).cons st.dummy
  have := hperm.nodup_iff.mp h.nodup_plug
  rwa [List.cons_append, List.append_assoc] at this

/-- A node with at most one child gives its place to it. -/
theorem transplant_child (h : Represents e st (plug (mkNode s c .leaf y X) p) par) :
    ∃ st₁ par', st.transplant y.addr (rootAddr st.dummy X) = some st₁ ∧
      Unlinked st st₁ y X p par' ∧ st₁.heap y.addr = st.heap y.addr := by
  have hy := h.node_at
  obtain ⟨hnd, hnd'⟩ := List.nodup_cons.mp h.nodup_node
  simp only [addrs_leaf, List.nil_append, List.mem_cons, not_or] at hnd hnd'
  obtain ⟨hyn, hnd'⟩ := List.nodup_cons.mp hnd'
  have hout : y.addr ∉ st.dummy :: (addrs X ++ pathAddrs p) := by
    rw [List.mem_cons, not_or]
    exact ⟨Ne.symm hnd.1, hyn⟩
  obtain ⟨htree, hpath⟩ := h.plug
  rw [rootAddr_mkNode] at hpath
  obtain ⟨st₁, par', h₁, hr₁, hd₁, hs₁, hn₁, hf₁, hl₁, -⟩ := transplant_spec hy (by simp) hpath
    (repTree_mkNode.mp htree).2.2 (List.nodup_cons.mpr ⟨hnd.2, hnd'⟩) hout h.sentinel
  refine ⟨st₁, par', h₁, ⟨hr₁, hl₁, hd₁, hs₁, hn₁, ⟨_, (hf₁ _ hout).trans hy, cellNode_key, cellNode_value⟩⟩,
    hf₁ _ hout⟩

/-- The parent link of a subtree is written again, or that of the sentinel for the first
time. -/
theorem setParent_spec (h : Represents e st (plug X p) par) :
    ∃ st' par', st.modify (rootAddr e.dummy X) (·.setParent (upAddr e.dummy p)) = some st' ∧
      Represents e st' (plug X p) par' ∧ (X = .leaf → par' = upAddr e.dummy p) := by
  have hd := h.dummy
  cases X with
  | leaf =>
    obtain ⟨st', h', hr', ht', hw'⟩ :=
      modify_spec (g := (·.setParent (upAddr e.dummy p))) h.sentinel
    have hnd := List.nodup_cons.mp h.nodup
    have hheap : ∀ b ∈ addrs (plug .leaf p), st'.heap b = st.heap b := fun b hb =>
      ht'.heap b (by simpa using fun heq : b = st.dummy => hnd.1 (heq ▸ hb))
    refine ⟨st', upAddr e.dummy p, by rw [rootAddr_leaf, ← hd]; exact hd ▸ h', ?_, fun _ => rfl⟩
    exact {
      tree := by
        rw [ht'.dummy]
        exact h.tree.congr hheap
      root := by rw [hr', ht'.dummy, h.root]
      nodup := ht'.dummy ▸ h.nodup
      sentinel := by rw [ht'.dummy, hw']; rfl
      dummy := ht'.dummy.trans hd
      size := ht'.size.trans h.size
      next := ht'.next.trans h.next
      elsewhere := fun b hb => by
        rw [ht'.dummy] at hb
        rw [ht'.heap b (by simpa using fun heq : b = st.dummy => hb (heq ▸ List.mem_cons_self)),
          h.elsewhere b hb] }
  | node c l a r =>
    have ha := Represents.node_at (s := .left) h
    rw [hd] at ha
    obtain ⟨st', h', hr', ht', hw'⟩ :=
      modify_spec (g := (·.setParent (upAddr e.dummy p))) ha
    have hheap : st'.heap = st.heap := by
      funext b
      by_cases hb : b = a.addr
      · rw [hb, hw', ha, cellNode_setParent]
      · exact ht'.heap b (by simpa using hb)
    refine ⟨st', par, h', ?_, fun h => by simp at h⟩
    exact {
      tree := by rw [ht'.dummy, hheap]; exact h.tree
      root := by rw [hr', ht'.dummy, h.root]
      nodup := ht'.dummy ▸ h.nodup
      sentinel := by rw [ht'.dummy, hheap, h.sentinel]
      dummy := ht'.dummy.trans hd
      size := ht'.size.trans h.size
      next := ht'.next.trans h.next
      elsewhere := fun b hb => by
        rw [ht'.dummy] at hb
        rw [hheap, h.elsewhere b hb] }

/-- The successor `y` takes the place, the left subtree and the colour of the node `z`. -/
theorem replace_spec {z : Cell κ ν} {zn : AssocNode κ ν} (hz : st.heap z.addr = some zn)
    (hzp : zn.parent = upAddr st.dummy p) (hpath : RepPath st p z.addr)
    (hy : RepTree st.dummy st.heap u (.node d .leaf y r)) (hl : RepTree st.dummy st.heap par' l)
    (hne : l ≠ .leaf) (hs : st.heap st.dummy = some ⟨none, none, par, 0, 0, .black⟩)
    (hnd : (st.dummy :: z.addr :: (addrs l ++ (addrs (.node d .leaf y r) ++ pathAddrs p))).Nodup) :
    ∃ st₁ st₂ st₃ st₄, st.transplant z.addr y.addr = some st₁ ∧
      st₁.modify y.addr (·.setChild .left (rootAddr st.dummy l)) = some st₂ ∧
      st₂.modify (rootAddr st.dummy l) (·.setParent y.addr) = some st₃ ∧
      st₃.modify y.addr (·.setColor c) = some st₄ ∧
      Represents st₄ st₄ (plug (.node c l y r) p) par ∧ st₄.dummy = st.dummy ∧
      st₄.size = st.size ∧ st₄.next = st.next ∧ st₄.heap z.addr = st.heap z.addr := by
  obtain ⟨hd, hnd'⟩ := List.nodup_cons.mp hnd
  simp only [List.mem_cons, List.mem_append, not_or] at hd
  obtain ⟨hzn, hnd'⟩ := List.nodup_cons.mp hnd'
  simp only [List.mem_append, not_or] at hzn
  obtain ⟨hndl, hndr, hdisj⟩ := List.nodup_append.mp hnd'
  have hzout : z.addr ∉ st.dummy :: (addrs (.node d .leaf y r) ++ pathAddrs p) := by
    simp only [List.mem_cons, List.mem_append, not_or]
    exact ⟨Ne.symm hd.1, hzn.2.1, hzn.2.2⟩
  obtain ⟨st₁, par₁, h₁, hr₁, hd₁, hs₁, hn₁, hf₁, -, hp₁⟩ := transplant_spec hz hzp hpath hy
    (List.nodup_cons.mpr ⟨by simpa using ⟨hd.2.2.1, hd.2.2.2⟩, hndr⟩) hzout hs
  rw [hp₁ (by simp)] at hr₁
  have hl₁ : RepTree st₁.dummy st₁.heap par' l := by
    rw [hd₁]
    refine hl.congr fun b hb => hf₁ b ?_
    rw [List.mem_cons, not_or]
    exact ⟨fun heq => hd.2.1 (heq ▸ hb), fun hm => hdisj b hb b hm rfl⟩
  obtain ⟨st₂, st₃, h₂, h₃, hr₃, hd₃, hs₃, hn₃, hf₃⟩ :=
    attach_spec (s := .left) (a := y) (A := r) hr₁ hl₁ hne (by
      rw [((addrs_plug.append_left _).cons _).nodup_iff, hd₁]
      refine List.nodup_cons.mpr ⟨?_, hnd'⟩
      simp only [List.mem_append, not_or]
      exact hd.2)
  obtain ⟨st₄, h₄, hr₄⟩ := setColor_spec c hr₃
  rw [hd₁] at h₂ h₃
  refine ⟨st₁, st₂, st₃, st₄, h₁, h₂, h₃, h₄, hr₄.self, ?_, ?_, ?_, ?_⟩
  · rw [hr₄.dummy, hd₃, hd₁]
  · rw [hr₄.size, hs₃, hs₁]
  · rw [hr₄.next, hn₃, hn₁]
  · have hzy : z.addr ≠ y.addr := fun heq => hzn.2.1 (heq ▸ by simp [addrs])
    rw [hr₄.elsewhere, hf₃, hf₁ _ hzout]
    · rw [List.mem_cons, not_or]
      exact ⟨hzy, hzn.1⟩
    · rw [hr₄.dummy, hd₃, hd₁, (addrs_plug.cons _).mem_iff]
      simp only [List.mem_cons, List.mem_append, not_or, mem_addrs_mkNode]
      refine ⟨Ne.symm hd.1, ⟨hzy, hzn.1, fun hm => hzn.2.1 ?_⟩, hzn.2.2⟩
      exact (mem_addrs_mkNode (s := .left)).mpr (Or.inr (Or.inr hm))

theorem plug_cons_ne_leaf {g : Frame (Cell κ ν)} : plug X (g :: p) ≠ .leaf := by
  induction p generalizing X g with
  | nil => exact fill_ne_leaf
  | cons f p ih => exact ih (X := g.fill X)

theorem rootAddr_plug_cons {g : Frame (Cell κ ν)} :
    rootAddr u (plug X (g :: p)) = rootAddr u (plug Y (g :: p)) := by
  induction p generalizing X Y g with
  | nil => exact (rootAddr_fill (f := g) (t := X)).trans (rootAddr_fill (f := g) (t := Y)).symm
  | cons f p ih => exact ih (X := g.fill X) (Y := g.fill Y)

/-- The successor is the right child of the node. -/
theorem unlink_child {a : Cell κ ν} (h : Represents st st
      (plug (.node c l a (.node d .leaf y r)) p) par) (hl : l ≠ .leaf) :
    ∃ st₀ st₁ st₂ st₃ st₄ par', st.modify (rootAddr st.dummy r) (·.setParent y.addr) = some st₀ ∧
      st₀.transplant a.addr y.addr = some st₁ ∧
      st₁.modify y.addr (·.setChild .left (rootAddr st.dummy l)) = some st₂ ∧
      st₂.modify (rootAddr st.dummy l) (·.setParent y.addr) = some st₃ ∧
      st₃.modify y.addr (·.setColor c) = some st₄ ∧
      Unlinked st st₄ a r (⟨.right, c, y, l⟩ :: p) par' := by
  have hpos : plug (.node c l a (.node d .leaf y r)) p =
      plug r (⟨.right, d, y, .leaf⟩ :: ⟨.right, c, a, l⟩ :: p) := rfl
  obtain ⟨st₀, par₀, h₀, hr₀, hl₀⟩ := setParent_spec (hpos ▸ h)
  have ha₀ := Represents.node_at (s := .left) (p := p) (A := l) (B := .node d .leaf y r) hr₀
  obtain ⟨htree, hpath⟩ := Represents.plug (t := .node c l a (.node d .leaf y r)) (p := p) hr₀
  obtain ⟨-, hlt, hyt⟩ := htree
  have hnd := Represents.nodup_node (s := .left) (p := p) (A := l) (B := .node d .leaf y r) hr₀
  obtain ⟨st₁, st₂, st₃, st₄, h₁, h₂, h₃, h₄, hr₄, hd₄, hs₄, hn₄, hz₄⟩ :=
    replace_spec (z := a) (c := c) ha₀ cellNode_parent hpath hyt hlt hl hr₀.sentinel hnd
  rw [hr₀.dummy] at h₂ h₃ hd₄
  refine ⟨st₀, st₁, st₂, st₃, st₄, par₀, h₀, h₁, h₂, h₃, h₄, hr₄, fun h => hl₀ h, hd₄,
    hs₄.trans hr₀.size, hn₄.trans hr₀.next, _, hz₄.trans ha₀, cellNode_key, cellNode_value⟩

/-- The successor is further down : it leaves its place first. -/
theorem unlink_deep {a : Cell κ ν} {g : Frame (Cell κ ν)} (h : Represents st st
      (plug (.node c l a (plug (.node d .leaf y r) (g :: q))) p) par) (hl : l ≠ .leaf) :
    ∃ st₀ st₀' st₀'' st₁ st₂ st₃ st₄ par', st.transplant y.addr (rootAddr st.dummy r) = some st₀ ∧
      st₀.modify y.addr (·.setChild .right
        (rootAddr st.dummy (plug (.node d .leaf y r) (g :: q)))) = some st₀' ∧
      st₀'.modify (rootAddr st.dummy (plug (.node d .leaf y r) (g :: q)))
        (·.setParent y.addr) = some st₀'' ∧
      st₀''.transplant a.addr y.addr = some st₁ ∧
      st₁.modify y.addr (·.setChild .left (rootAddr st.dummy l)) = some st₂ ∧
      st₂.modify (rootAddr st.dummy l) (·.setParent y.addr) = some st₃ ∧
      st₃.modify y.addr (·.setColor c) = some st₄ ∧
      Unlinked st st₄ a r (g :: q ++ ⟨.right, c, y, l⟩ :: p) par' := by
  have hpos : plug (.node c l a (plug (.node d .leaf y r) (g :: q))) p =
      plug (mkNode .left d .leaf y r) (g :: q ++ ⟨.right, c, a, l⟩ :: p) := by
    rw [plug_append]
    rfl
  have h' := h
  rw [hpos] at h'
  obtain ⟨st₀, par₀, h₀, hu₀, hy₀⟩ := transplant_child h'
  set R := plug r (g :: q) with hR
  have hRne : R ≠ .leaf := plug_cons_ne_leaf
  have hroot : rootAddr st.dummy (plug (.node d .leaf y r) (g :: q)) = rootAddr st.dummy R :=
    rootAddr_plug_cons
  -- all nodes are at different addresses, with `y` taken out of its place
  have hperm : (addrs (plug (.node d .leaf y r) (g :: q))).Perm (y.addr :: addrs R) := by
    refine (addrs_plug).trans (((addrs_mkNode (s := .left) (c := d) (A := .leaf)).append_right
      _).trans ?_)
    rw [addrs_leaf, List.nil_append, List.cons_append]
    exact List.Perm.cons _ (addrs_plug).symm
  have hnd := Represents.nodup_node (s := .left) (p := p) h
  have hnd' := ((((hperm.append_right (pathAddrs p)).append_left (addrs l)).cons a.addr).cons
    st.dummy).nodup_iff.mp hnd
  obtain ⟨hd, hnd''⟩ := List.nodup_cons.mp hnd'
  obtain ⟨ha, hnd''⟩ := List.nodup_cons.mp hnd''
  obtain ⟨-, hndR, hdisj⟩ := List.nodup_append.mp hnd''
  simp only [List.cons_append, List.mem_cons, List.mem_append, not_or] at hd ha hdisj
  rw [List.cons_append] at hndR
  obtain ⟨hyR, hndR⟩ := List.nodup_cons.mp hndR
  simp only [List.mem_append, not_or] at hyR
  obtain ⟨hndR, -, hRp⟩ := List.nodup_append.mp hndR
  have hy : st₀.heap y.addr = _ := hy₀.trans (Represents.node_at h')
  have hr₀ : Represents st₀ st₀ (plug (.node c l a R) p) par₀ := by
    have := hu₀.rep
    rw [plug_append] at this
    exact this
  obtain ⟨st₀', h₀', hr₀', ht₀', hw₀'⟩ :=
    modify_spec (g := (·.setChild .right (rootAddr st.dummy R))) hy
  have hy_out : y.addr ∉ st₀.dummy :: addrs (plug (.node c l a R) p) := by
    rw [(addrs_plug.cons _).mem_iff, hu₀.dummy]
    simp only [List.mem_cons, List.mem_append, not_or]
    refine ⟨Ne.symm hd.2.2.1, fun hm => ?_, hyR.2⟩
    rcases (mem_addrs_mkNode (s := .left)).mp hm with heq | hm | hm
    · exact ha.2.1 heq.symm
    · exact hdisj _ hm _ (Or.inl rfl) rfl
    · exact hyR.1 hm
  have hr₀₁ := hr₀.congr ht₀'.dummy hr₀' fun b hb =>
    ht₀'.heap b (by simpa using fun heq : b = y.addr => hy_out (heq ▸ hb))
  have hd₀' : st₀'.dummy = st.dummy := ht₀'.dummy.trans hu₀.dummy
  -- the rest of the right subtree goes below `y`
  obtain ⟨htree, hpath⟩ := Represents.plug (t := .node c l a R) (p := p) hr₀₁
  obtain ⟨ha₀, hlt, hRt⟩ := htree
  obtain ⟨st₀'', h₀'', hr₀'', ht₀'', hR''⟩ := reparent_spec y.addr hRt
    (by rw [hd₀']; exact List.nodup_cons.mpr ⟨hd.2.2.2.1, hndR⟩)
  have hRd : rootAddr st.dummy R ≠ st.dummy := by
    rcases rootAddr_mem (d := st.dummy) (t := R) with hl' | hm
    · exact absurd hl' hRne
    · exact fun heq => hd.2.2.2.1 (heq ▸ hm)
  rw [hd₀', if_neg hRd] at h₀''
  have hd₀'' : st₀''.dummy = st.dummy := ht₀''.dummy.trans hd₀'
  have ha'' : st₀''.heap a.addr = some (cellNode .left c (upAddr st.dummy p)
      (rootAddr st.dummy l) (rootAddr st.dummy R) a) := by
    rw [ht₀''.heap _ ha.2.2.1, ha₀, hd₀']
  have hy'' : RepTree st₀''.dummy st₀''.heap (upAddr st.dummy (g :: q ++ ⟨.right, c, a, l⟩ :: p))
      (.node d .leaf y R) := by
    refine ⟨?_, trivial, hR''⟩
    rw [ht₀''.heap _ hyR.1, hw₀', hd₀'']
    rfl
  obtain ⟨st₁, st₂, st₃, st₄, h₁, h₂, h₃, h₄, hr₄, hd₄, hs₄, hn₄, hz₄⟩ :=
    replace_spec (z := a) (c := c) (p := p) (l := l) ha'' (by rw [hd₀'']; exact cellNode_parent)
      (hpath.congr hr₀'' ht₀''.dummy fun b hb => ht₀''.heap b fun hm => hRp b hm b hb rfl) hy''
      (by
        rw [hd₀'']
        rw [hd₀'] at hlt
        exact hlt.congr fun b hb => ht₀''.heap b fun hm => hdisj b hb b (Or.inr (Or.inl hm)) rfl)
      hl (by rw [ht₀''.dummy, ht₀''.heap _ (by rw [hd₀']; exact hd.2.2.2.1), hr₀₁.sentinel])
      (by
        rw [hd₀'']
        refine ((((hperm.trans ?_).append_right (pathAddrs p)).append_left (addrs l)).cons
          a.addr |>.cons st.dummy).nodup_iff.mp hnd
        exact (addrs_mkNode (s := .left) (c := d) (A := .leaf)).symm)
  rw [hd₀''] at h₂ h₃ hd₄
  refine ⟨st₀, st₀', st₀'', st₁, st₂, st₃, st₄, par₀, h₀, ?_, ?_, h₁, h₂, h₃, h₄, ?_⟩
  · rw [hroot]
    exact h₀'
  · rw [hroot]
    exact h₀''
  · refine ⟨?_, hu₀.at_leaf, hd₄, ?_, ?_, _, hz₄.trans ha'', cellNode_key, cellNode_value⟩
    · rw [plug_append]
      exact hr₄
    · rw [hs₄, ht₀''.size, ht₀'.size, hu₀.size]
    · rw [hn₄, ht₀''.next, ht₀'.next, hu₀.next]

/-- A node is unlinked as the removal on trees does it. -/
theorem unlinkNode_spec (h : Represents st st z.tree par)
    (hsize : z.tree.toList.length ≤ st.size) :
    ∃ st₁ c X q par', st.unlinkNode z.elt.addr = some (st₁, c, rootAddr st.dummy X) ∧
      Unlinked st st₁ z.elt X q par' ∧ z.remove = removeFixup c X q ∧
      (plug X q).toList.length ≤ z.tree.toList.length := by
  obtain ⟨c, l, a, r, p⟩ := z
  simp only [RbSpot.tree, RbSpot.subtree] at h hsize
  have ha := Represents.node_at (s := .left) (p := p) h
  have hnd := Represents.nodup_node (s := .left) (p := p) h
  have had : a.addr ≠ st.dummy := fun heq => (List.nodup_cons.mp hnd).1 (heq ▸ by simp)
  have hroot : ∀ {t : RbTree (Cell κ ν)}, t ≠ .leaf → (∀ b ∈ addrs t, b ∈ addrs l ∨ b ∈ addrs r) →
      rootAddr st.dummy t ≠ st.dummy := by
    intro t ht hsub heq
    rcases rootAddr_mem (d := st.dummy) (t := t) with hl | hm
    · exact ht hl
    · rw [heq] at hm
      refine (List.nodup_cons.mp hnd).1 ?_
      simp only [List.mem_cons, List.mem_append]
      rcases hsub _ hm with hm | hm
      · exact Or.inr (Or.inl hm)
      · exact Or.inr (Or.inr (Or.inl hm))
  cases hl : l with
  | leaf =>
    subst hl
    obtain ⟨st₁, par', h₁, hu, -⟩ := transplant_child (s := .left) h
    refine ⟨st₁, c, r, p, par', ?_, hu, rfl, by simp [RbSpot.tree, RbSpot.subtree, toList_plug]⟩
    simp [AssocRbTree.unlinkNode, had, ha, cellNode, h₁]
  | node cl ll al rl =>
    rw [← hl]
    have hlne : l ≠ .leaf := by simp [hl]
    have hld := hroot hlne fun b hb => Or.inl hb
    cases hr : r with
    | leaf =>
      subst hr
      obtain ⟨st₁, par', h₁, hu, -⟩ := transplant_child (s := .right) h
      refine ⟨st₁, c, l, p, par', ?_, hu, by rw [hl]; rfl, ?_⟩
      swap
      · simp [RbSpot.tree, RbSpot.subtree, toList_plug]
      simp [AssocRbTree.unlinkNode, had, ha, cellNode, hld, h₁]
    | node cr lr ar rr =>
      have hrd := hroot (t := r) (by simp [hr]) fun b hb => Or.inr hb
      have hrem : (⟨c, l, a, r, p⟩ : RbSpot (Cell κ ν)).remove =
          removeFixup (leftmost cr lr ar rr []).color (leftmost cr lr ar rr []).right
            ((leftmost cr lr ar rr []).path ++
              ⟨.right, c, (leftmost cr lr ar rr []).elt, l⟩ :: p) := by
        rw [hl, hr]
        rfl
      -- the loop of `minimum` finds the successor
      have hmin : st.minimum (rootAddr st.dummy r) =
          some (leftmost cr lr ar rr []).elt.addr := by
        have hloop := minimumLoop_spec (c := cr) (l := lr) (a := ar) (r := rr)
          (p := ⟨.right, c, a, l⟩ :: p) (by rw [← hr]; exact h) (show _ < st.size + 1 by
            rw [toList_plug, hr] at hsize
            simp only [toList, List.length_append, List.length_cons] at hsize
            omega)
        rw [← List.nil_append (⟨.right, c, a, l⟩ :: p), leftmost_append] at hloop
        rw [AssocRbTree.minimum, if_neg hrd, hr]
        exact hloop
      obtain ⟨hy, hyl⟩ := leftmost_spec (c := cr) (l := lr) (a := ar) (r := rr) (p := [])
      rw [← hr]
      rw [plug_nil, ← hr] at hy
      generalize leftmost cr lr ar rr [] = y at hy hyl hmin hrem
      obtain ⟨yc, yl, ya, yr, yp⟩ := y
      dsimp only at hyl hmin hrem
      subst hyl
      simp only [RbSpot.tree, RbSpot.subtree] at hy
      have hpos : Represents st st (plug (mkNode .left yc .leaf ya yr)
          (yp ++ ⟨.right, c, a, l⟩ :: p)) par := by
        rw [plug_append]
        change Represents st st (plug (plug (.node yc .leaf ya yr) yp) (⟨.right, c, a, l⟩ :: p)) par
        rw [hy]
        exact h
      have hyn := hpos.node_at
      have hunlink : ∀ {t : AssocRbTree κ ν}, (if upAddr st.dummy (yp ++ ⟨.right, c, a, l⟩ :: p) =
            a.addr then st.modify (rootAddr st.dummy yr) (·.setParent ya.addr)
          else do
            let t ← st.transplant ya.addr (rootAddr st.dummy yr)
            let t ← t.modify ya.addr (·.setChild .right (rootAddr st.dummy r))
            t.modify (rootAddr st.dummy r) (·.setParent ya.addr)) = some t →
          st.unlinkNode a.addr = (do
            let t ← t.transplant a.addr ya.addr
            let t ← t.modify ya.addr (·.setChild .left (rootAddr st.dummy l))
            let t ← t.modify (rootAddr st.dummy l) (·.setParent ya.addr)
            let t ← t.modify ya.addr (·.setColor c)
            some (t, yc, rootAddr st.dummy yr)) := by
        intro t ht
        simp only [Option.bind_eq_bind] at ht
        simp only [AssocRbTree.unlinkNode, if_neg had, ha, Option.bind_eq_bind, Option.bind_some,
          cellNode, if_neg hld, if_neg hrd, hmin, hyn, ht]
      cases yp with
      | nil =>
        subst hy
        obtain ⟨st₀, st₁, st₂, st₃, st₄, par', h₀, h₁, h₂, h₃, h₄, hu⟩ := unlink_child h hlne
        refine ⟨st₄, yc, yr, _, par', ?_, hu, hrem, ?_⟩
        swap
        · simp [RbSpot.tree, RbSpot.subtree, toList_plug, Frame.fill, mkNode]
        rw [hunlink (t := st₀) (by rw [List.nil_append, upAddr_cons, if_pos rfl, h₀])]
        simp only [h₁, h₂, h₃, h₄, Option.bind_eq_bind, Option.bind_some]
      | cons g q =>
        have hga : g.elt.addr ≠ a.addr := by
          intro heq
          have hg : g.elt.addr ∈ addrs r := by
            rw [← hy, (addrs_plug).mem_iff]
            exact List.mem_append_right _ (mem_pathAddrs_cons.mpr (Or.inl rfl))
          exact (List.nodup_cons.mp (List.nodup_cons.mp hnd).2).1 (heq ▸ by simp [hg])
        rw [← hy] at h hunlink
        obtain ⟨st₀, st₀', st₀'', st₁, st₂, st₃, st₄, par', h₀, h₀', h₀'', h₁, h₂, h₃, h₄, hu⟩ :=
          unlink_deep h hlne
        refine ⟨st₄, yc, yr, _, par', ?_, hu, hrem, ?_⟩
        swap
        · have hlen : (plug yr (g :: q)).toList.length ≤ r.toList.length := by
            rw [← hy, toList_plug, toList_plug]
            simp only [toList, List.length_append, List.length_cons, List.length_nil]
            omega
          rw [plug_append]
          change (plug (.node c l ya (plug yr (g :: q))) p).toList.length ≤
            (plug (.node c l a r) p).toList.length
          rw [toList_plug, toList_plug]
          simp only [toList, List.length_append, List.length_cons]
          omega
        rw [hunlink (t := st₀'') (by
          rw [List.cons_append, upAddr_cons, if_neg hga]
          simp only [h₀, h₀', h₀'', Option.bind_eq_bind, Option.bind_some])]
        simp only [h₁, h₂, h₃, h₄, Option.bind_eq_bind, Option.bind_some]

/-! ## The operations -/

/-- The node is out of the tree, and still in memory. -/
theorem extractNode_refines (h : RbState st z.tree) :
    ∃ st₁ T par n, st.extractNode z.elt.addr = some st₁ ∧ z.remove = some T ∧ T.IsRb ∧
      Represents st₁ st₁ T par ∧ st₁.dummy = st.dummy ∧ st₁.size = st.size ∧
      st₁.next = st.next ∧ st₁.heap z.elt.addr = some n ∧ n.key = some z.elt.key ∧
      n.value = some z.elt.value ∧ (addrs z.tree).Perm (z.elt.addr :: addrs T) := by
  obtain ⟨par, hrep⟩ := h.represents
  obtain ⟨T, hT, hrb, hlist⟩ := RbSpot.remove_spec h.isRb
  have hperm : (addrs z.tree).Perm (z.elt.addr :: addrs T) := by
    simp only [addrs, hlist, RbSpot.tree, RbSpot.subtree, toList_plug, toList]
    rw [← List.map_cons]
    refine List.Perm.map _ ?_
    rw [← List.append_assoc, List.append_assoc (_ ++ _)]
    exact List.perm_middle
  have hnd : (st.dummy :: z.elt.addr :: addrs T).Nodup := (hperm.cons _).nodup_iff.mp hrep.nodup
  obtain ⟨st₁, c, X, q, par', h₁, hu, hrem, hlen⟩ := unlinkNode_spec hrep (Nat.le_of_eq h.size.symm)
  rw [hT] at hrem
  obtain ⟨n, hn, hk, hv⟩ := hu.node
  cases c with
  | red =>
    obtain rfl := Option.some.inj hrem
    refine ⟨st₁, plug X q, par', n, ?_, hT, hrb, hu.rep, hu.dummy, hu.size, hu.next, hn, hk, hv,
      hperm⟩
    simp [AssocRbTree.extractNode, h₁]
  | black =>
    have hq : q.length < st₁.size + 1 := by
      rw [hu.size, h.size]
      exact Nat.lt_succ_of_le (Nat.le_trans length_path_le hlen)
    rw [← hu.dummy] at h₁
    obtain ⟨st₂, h₂, hr₂⟩ := deleteFixup_refines hu.rep (hu.dummy.symm ▸ hu.at_leaf) hrem.symm hq
    have hout : z.elt.addr ∉ st₂.dummy :: addrs T := by
      rw [hr₂.dummy, hu.dummy, List.mem_cons, not_or]
      have hz := (List.nodup_cons.mp hnd)
      exact ⟨fun heq => hz.1 (heq ▸ List.mem_cons_self), (List.nodup_cons.mp hz.2).1⟩
    refine ⟨st₂, T, par', n, ?_, hT, hrb, hr₂.self, hr₂.dummy.trans hu.dummy,
      hr₂.size.trans hu.size, hr₂.next.trans hu.next, (hr₂.elsewhere _ hout).trans hn, hk, hv,
      hperm⟩
    simp [AssocRbTree.extractNode, h₁, h₂]

/-- The tree after a node was freed. -/
theorem rbState_free {n : Nat} (h : RbState st A) (hr : Represents st₁ st₁ T par) (hrb : T.IsRb)
    (hd : st₁.dummy = st.dummy) (hs : st₁.size = st.size) (hn : st₁.next = st.next)
    (hperm : (addrs A).Perm (n :: addrs T)) :
    RbState { st₁.free n with size := st₁.size - 1 } T := by
  obtain ⟨par', hA⟩ := h.represents
  have hnd : (st₁.dummy :: n :: addrs T).Nodup := by
    rw [hd]
    exact (hperm.cons _).nodup_iff.mp hA.nodup
  have hlen : A.toList.length = T.toList.length + 1 := by
    simpa [addrs] using hperm.length_eq
  refine ⟨⟨par, hr.congr rfl rfl fun b hb => Function.update_of_ne ?_ ..⟩, hrb, ?_, ?_⟩
  · rintro rfl
    obtain ⟨h1, h2⟩ := List.nodup_cons.mp hnd
    rcases List.mem_cons.mp hb with heq | hm
    · exact h1 (heq ▸ List.mem_cons_self)
    · exact (List.nodup_cons.mp h2).1 hm
  · show st₁.size - 1 = _
    rw [hs, h.size, hlen]
    rfl
  · intro b hb
    show b < st₁.next
    rw [hn]
    refine h.fresh b ?_
    rw [(hperm.cons _).mem_iff, ← hd]
    rcases List.mem_cons.mp hb with heq | hm
    · exact heq ▸ List.mem_cons_self
    · exact List.mem_cons_of_mem _ (List.mem_cons_of_mem _ hm)

/-- `assoc_rb_tree_free_it` at a node of the tree. -/
theorem freeIt_refines (h : RbState st z.tree) :
    ∃ st' T, st.freeIt z.elt.addr = some ((z.elt.key, z.elt.value), st') ∧
      z.remove = some T ∧ RbState st' T ∧ st'.dummy = st.dummy := by
  obtain ⟨st₁, T, par, n, h₁, hT, hrb, hr, hd, hs, hnx, hn, hk, hv, hperm⟩ :=
    extractNode_refines h
  have hzd : z.elt.addr ≠ st.dummy := by
    obtain ⟨par₀, hrep⟩ := h.represents
    intro heq
    exact (List.nodup_cons.mp hrep.nodup).1 (heq ▸ hperm.mem_iff.mpr List.mem_cons_self)
  have hpos : st₁.size ≠ 0 := by
    have hlen := hperm.length_eq
    simp only [addrs, List.length_map, List.length_cons] at hlen
    rw [hs, h.size, hlen]
    omega
  refine ⟨_, T, ?_, hT, rbState_free h hr hrb hd hs hnx hperm, hd⟩
  simp [AssocRbTree.freeIt, hzd, h₁, hn, hk, hv, hpos]

/-- The loop of `find_rb_tree` is the search on trees. -/
theorem findRbTree_spec {comp : κ → κ → Int} {key : κ}
    (hc : ∀ k, comp key k = 1 ∨ comp key k = -1 ∨ comp key k = 0) {t : RbTree (Cell κ ν)}
    (h : Represents st st (plug t p) par) {fuel : Nat} (hfuel : t.toList.length < fuel) :
    AssocRbTree.findRbTree comp key fuel st (rootAddr st.dummy t) =
      some ((search (compDir comp key) t p).elim st.dummy (·.elt.addr)) := by
  induction t generalizing p fuel with
  | leaf =>
    obtain ⟨fuel, rfl⟩ : ∃ k, fuel = k + 1 := ⟨fuel - 1, by omega⟩
    simp [AssocRbTree.findRbTree, search]
  | node c l a r ihl ihr =>
    obtain ⟨fuel, rfl⟩ : ∃ k, fuel = k + 1 := ⟨fuel - 1, by omega⟩
    simp only [toList, List.length_append, List.length_cons] at hfuel
    have hn := Represents.node_at (s := .left) h
    have hne : a.addr ≠ st.dummy := fun heq =>
      (List.nodup_cons.mp (Represents.nodup_node (s := .left) h)).1 (heq ▸ by simp)
    simp only [rootAddr, AssocRbTree.findRbTree, if_neg hne, hn, Option.bind_eq_bind,
      Option.bind_some, cellNode, search, compDir]
    rcases hc a.key with h1 | h1 | h1
    · simp only [h1, if_true]
      exact ihl (p := ⟨.left, c, a, r⟩ :: p) h (by omega)
    · simp only [h1, reduceCtorEq, if_true, Int.reduceNeg, if_false]
      exact ihr (p := ⟨.right, c, a, l⟩ :: p) h (by omega)
    · simp [h1]

/-- `assoc_rb_tree_extract` of a key that is found. -/
theorem extract_refines {comp : κ → κ → Int} {key : κ}
    (hc : ∀ k, comp key k = 1 ∨ comp key k = -1 ∨ comp key k = 0) {t : RbTree (Cell κ ν)}
    (h : RbState st t) (hz : search (compDir comp key) t [] = some z) :
    ∃ st' T, st.extract comp key = some (z.elt.value, st') ∧
      t.extract (compDir comp key) = some (z.elt, T) ∧ RbState st' T ∧ st'.dummy = st.dummy := by
  obtain ⟨hzt, -⟩ := plug_search hz
  rw [plug_nil] at hzt
  obtain ⟨par₀, hrep⟩ := h.represents
  have hfind := findRbTree_spec (p := []) hc hrep
    (show _ < st.size + 1 from Nat.lt_succ_of_le (Nat.le_of_eq h.size.symm))
  rw [hz, ← hrep.root] at hfind
  rw [← hzt] at h
  obtain ⟨st₁, T, par, n, h₁, hT, hrb, hr, hd, hs, hnx, hn, -, hv, hperm⟩ := extractNode_refines h
  have hpos : st₁.size ≠ 0 := by
    have hlen := hperm.length_eq
    simp only [addrs, List.length_map, List.length_cons] at hlen
    rw [hs, h.size, hlen]
    omega
  have hzd : z.elt.addr ≠ st.dummy := by
    intro heq
    rw [← hzt] at hrep
    exact (List.nodup_cons.mp hrep.nodup).1 (heq ▸ hperm.mem_iff.mpr List.mem_cons_self)
  refine ⟨_, T, ?_, by simp [RbTree.extract, hz, hT], rbState_free h hr hrb hd hs hnx hperm, hd⟩
  simp [AssocRbTree.extract, hfind, hzd, h₁, hn, hv, hpos]

end NrStack
