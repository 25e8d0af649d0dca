import NrStack.Flexric.AssocRbRotate

/-!
# Insertion on the nodes

`insert_refines` : `assoc_rb_tree_insert` on the nodes does what the insertion on trees
does. The loop of `insert_fixup` stands at a position whose subtree is red, and one pass
of its body is one step of the repair on trees.
-/

namespace NrStack

open RbTree

variable {κ ν : Type} {e st st' : AssocRbTree κ ν} {t z A B C T X Y : RbTree (Cell κ ν)}
  {p : RbPath (Cell κ ν)} {f g : Frame (Cell κ ν)} {s : Side} {c c' d : RbColor}
  {a b x y : Cell κ ν} {par u v q : Nat}

/-- A node seen from its child on the other side. -/
theorem plug_other : plug B (⟨s.opp, c, a, A⟩ :: p) = plug (mkNode s c A a B) p := by
  simp [Frame.fill, mkNode_opp]

theorem plug_sibling : plug f.sibling (⟨f.side.opp, f.color, f.elt, t⟩ :: p) =
    plug t (f :: p) :=
  plug_other

/-- Two children of a node are not at the same address. -/
theorem rootAddr_ne (h : Represents e st (plug t (f :: p)) par)
    (hne : t ≠ .leaf ∨ f.sibling ≠ .leaf) :
    rootAddr e.dummy t ≠ rootAddr e.dummy f.sibling := by
  have hnd := h.nodup_plug
  rw [h.dummy] at hnd
  have hnd' := ((pathAddrs_cons.append_left (addrs t)).cons e.dummy).nodup_iff.mp hnd
  obtain ⟨hd, hnd'⟩ := List.nodup_cons.mp hnd'
  simp only [List.mem_append, List.mem_cons, not_or] at hd
  have hdisj := (List.nodup_append.mp hnd').2.2
  intro heq
  rcases rootAddr_mem (d := e.dummy) (t := t) with htl | htm
  · rcases rootAddr_mem (d := e.dummy) (t := f.sibling) with hfl | hfm
    · exact hne.elim (fun h => h htl) fun h => h hfl
    · rw [htl, rootAddr_leaf] at heq
      exact hd.2.2.1 (heq ▸ hfm)
  · rcases rootAddr_mem (d := e.dummy) (t := f.sibling) with hfl | hfm
    · rw [hfl, rootAddr_leaf] at heq
      exact hd.1 (heq ▸ htm)
    · exact hdisj _ htm _ (by simp [hfm]) heq

/-- A root that is painted black, the sentinel for the empty tree. -/
theorem blacken_spec (h : Represents e st (plug t p) par) :
    ∃ st', st.modify (rootAddr e.dummy t) (·.setColor .black) = some st' ∧
      Represents e st' (plug t.blacken p) par := by
  cases t with
  | leaf =>
    rw [rootAddr_leaf, ← h.dummy]
    obtain ⟨st', hst', hroot, htou, hw⟩ := modify_spec (g := (·.setColor .black)) h.sentinel
    have hheap : ∀ b, st'.heap b = st.heap b := by
      intro b
      by_cases hb : b = st.dummy
      · rw [hb, hw, h.sentinel]
        rfl
      · exact htou.heap b (by simpa using hb)
    refine ⟨st', hst', h.step (.refl _) ⟨htou.dummy, htou.size, htou.next, fun b _ => hheap b⟩
      trivial ?_⟩
    rw [htou.dummy]
    exact h.plug.2.congr hroot htou.dummy fun b _ => hheap b
  | node c l a r => exact setColor_spec _ (s := .left) h

/-- Which child of its parent a subtree is, read off the address on the left. -/
theorem side_test (h : Represents e st (plug t (g :: p)) par)
    (hne : t ≠ .leaf ∨ g.sibling ≠ .leaf) : ∃ gn, st.heap g.elt.addr = some gn ∧
      gn.color = g.color ∧ gn.parent = upAddr e.dummy p ∧
      gn.child g.side = rootAddr e.dummy t ∧ gn.child g.side.opp = rootAddr e.dummy g.sibling ∧
      (if rootAddr e.dummy t = gn.left then Side.left else .right) = g.side := by
  have hg := Represents.node_at (p := p) h
  rw [h.dummy] at hg
  refine ⟨_, hg, by simp, by simp, by simp, by simp, ?_⟩
  cases hs : g.side with
  | left => exact if_pos rfl
  | right =>
    refine if_neg fun heq => ?_
    exact rootAddr_ne h hne (by simpa [cellNode] using heq)

/-! ## The repair of an insertion -/

theorem mkNode_ne_leaf : mkNode s c A a B ≠ .leaf := by
  unfold mkNode
  split <;> simp

theorem fill_ne_leaf : f.fill t ≠ .leaf :=
  mkNode_ne_leaf

theorem rootAddr_fill : rootAddr u (f.fill t) = f.elt.addr :=
  rootAddr_mkNode

/-- The node of a red subtree points up to the path. -/
theorem node_of_red (h : Represents e st (plug t p) par) (hc : t.color = .red) :
    ∃ n, st.heap (rootAddr e.dummy t) = some n ∧ n.parent = upAddr e.dummy p := by
  cases t with
  | leaf => simp at hc
  | node c l a r =>
    have hn := Represents.node_at (s := .left) (p := p) h
    rw [h.dummy] at hn
    exact ⟨_, hn, rfl⟩

/-- The last three lines of the loop body : the parent black, the grandparent red and
rotated away. -/
theorem recolorRotate_spec
    (h : Represents e st (plug (mkNode s c (mkNode s d X b Y) a A) p) par) :
    ∃ st', (do
      let t ← st.modify b.addr (·.setColor .black)
      let t ← t.modify a.addr (·.setColor .red)
      let t ← t.rotate s.opp a.addr
      some (t, q)) = some (st', q) ∧
      Represents e st' (plug (mkNode s .black X b (mkNode s .red Y a A)) p) par := by
  obtain ⟨st₁, h₁, hr₁⟩ := setColor_spec .black (p := ⟨s, c, a, A⟩ :: p) h
  obtain ⟨st₂, h₂, hr₂⟩ := setColor_spec .red (p := p) hr₁
  have hr₂' : Represents e st₂
      (plug (mkNode s.opp .red A a (mkNode s.opp .black Y b X)) p) par := by
    simpa only [mkNode_opp] using hr₂
  obtain ⟨st₃, h₃, hr₃⟩ := rotate_spec hr₂'
  refine ⟨st₃, ?_, by simpa only [mkNode_opp] using hr₃⟩
  simp only [h₁, h₂, h₃, Option.bind_eq_bind, Option.bind_some]

/-- One pass of the loop body below a red uncle. -/
theorem insertFixupSide_red (h : Represents e st (plug z (f :: g :: p)) par)
    (hu : g.sibling.color = .red) :
    ∃ st', st.insertFixupSide g.side (rootAddr e.dummy z) f.elt.addr g.elt.addr =
        some (st', g.elt.addr) ∧
      Represents e st' (plug (mkNode g.side .red (f.fill z).blacken g.elt
        g.sibling.blacken) p) par := by
  have hg := Represents.node_at (p := p) (B := g.sibling) h
  obtain ⟨un, hun, huc⟩ := (plug_sibling (t := f.fill z) ▸ h :
    Represents e st (plug g.sibling (⟨g.side.opp, g.color, g.elt, f.fill z⟩ :: p)) par).color_at
  rw [h.dummy] at hun hg
  obtain ⟨st₁, h₁, hr₁⟩ := setColor_spec .black (p := g :: p) h
  have hr₁' : Represents e st₁ (plug g.sibling
      (⟨g.side.opp, g.color, g.elt, mkNode f.side .black z f.elt f.sibling⟩ :: p)) par := by
    rwa [plug_other]
  obtain ⟨st₂, h₂, hr₂⟩ := blacken_spec hr₁'
  rw [plug_cons, Frame.fill, mkNode_opp] at hr₂
  obtain ⟨st₃, h₃, hr₃⟩ := setColor_spec .red hr₂
  refine ⟨st₃, ?_, by rwa [Frame.fill, blacken_mkNode]⟩
  simp only [AssocRbTree.insertFixupSide, hg, Option.bind_eq_bind, Option.bind_some,
    cellNode_child_opp, hun, huc, hu, if_true, h₁, h₂, h₃]

/-- One pass of the loop body below a black uncle : the next node has a black parent. -/
theorem insertFixupSide_black (h : Represents e st (plug z (f :: g :: p)) par)
    (hz : z.color = .red) (hu : g.sibling.color = .black) (hT : insertRotate z f g = some T) :
    ∃ st' z', st.insertFixupSide g.side (rootAddr e.dummy z) f.elt.addr g.elt.addr =
        some (st', z') ∧ Represents e st' (plug T p) par ∧
      ∃ zn pn, st'.heap z' = some zn ∧ st'.heap zn.parent = some pn ∧ pn.color = .black := by
  have hg := Represents.node_at (p := p) (B := g.sibling) h
  have hf := Represents.node_at (p := g :: p) (B := f.sibling) h
  obtain ⟨un, hun, huc⟩ := (plug_sibling (t := f.fill z) ▸ h :
    Represents e st (plug g.sibling (⟨g.side.opp, g.color, g.elt, f.fill z⟩ :: p)) par).color_at
  rw [h.dummy] at hun hg hf
  obtain ⟨near, za, far, rfl⟩ := exists_mkNode_of_red g.side hz
  simp only [AssocRbTree.insertFixupSide, hg, Option.bind_eq_bind, Option.bind_some,
    cellNode_child_opp, hun, huc, hu, hf, reduceCtorEq, if_false, rootAddr_mkNode]
  by_cases hs : f.side = g.side
  · rw [insertRotate, if_pos hs] at hT
    obtain rfl := Option.some.inj hT
    have hne : za.addr ≠ (cellNode f.side f.color (upAddr e.dummy (g :: p)) za.addr
        (rootAddr e.dummy f.sibling) f.elt).child g.side.opp := by
      rw [← hs, cellNode_child_opp]
      have := rootAddr_ne h (Or.inl fun h => by simp [h] at hz)
      rwa [rootAddr_mkNode] at this
    have h' : Represents e st (plug (mkNode g.side g.color (mkNode g.side f.color
        (mkNode g.side .red near za far) f.elt f.sibling) g.elt g.sibling) p) par := by
      rw [← hs]
      rw [← hs] at h
      simpa [Frame.fill, ← hs] using h
    obtain ⟨st', hst', hr⟩ := recolorRotate_spec (q := za.addr) h'
    simp only [Option.bind_eq_bind] at hst'
    refine ⟨st', za.addr, ?_, hr, ?_⟩
    · rw [if_neg hne]
      exact hst'
    · exact ⟨_, _, Represents.node_at (p := ⟨g.side, .black, f.elt, _⟩ :: p) hr,
        by simpa using Represents.node_at hr, by simp⟩
  · have hso : f.side = g.side.opp := Side.eq_opp_of_ne hs
    rw [insertRotate, if_neg hs, split_mkNode] at hT
    obtain rfl := Option.some.inj hT
    have h' : Represents e st (plug (mkNode g.side f.color f.sibling f.elt
        (mkNode g.side .red near za far)) (g :: p)) par := by
      rw [plug_cons, Frame.fill, hso, mkNode_opp] at h
      exact h
    obtain ⟨st₁, h₁, hr₁⟩ := rotate_spec h'
    have hf₁ := Represents.node_at (p := ⟨g.side, .red, za, far⟩ :: g :: p) hr₁
    obtain ⟨st', hst', hr⟩ := recolorRotate_spec (q := f.elt.addr) (p := p) hr₁
    simp only [Option.bind_eq_bind] at hst'
    refine ⟨st', f.elt.addr, ?_, hr, ?_⟩
    · simp only [hso, cellNode_child, if_true, h₁, Option.bind_some, hf₁, cellNode_parent, upAddr_cons]
      exact hst'
    · exact ⟨_, _, Represents.node_at (p := ⟨g.side, .black, za, _⟩ :: p) hr,
        by simpa using Represents.node_at hr, by simp⟩

/-- The loop ends below a black node, and the root is painted black. -/
theorem insertFixup_exit (h : Represents e st T par) {zn pn : AssocNode κ ν}
    (hz : st.heap q = some zn) (hp : st.heap zn.parent = some pn) (hc : pn.color = .black)
    (fuel : Nat) : ∃ st', AssocRbTree.insertFixup (fuel + 1) st q = some st' ∧
      Represents e st' T.blacken par := by
  obtain ⟨st', hst', hr⟩ := blacken_spec (p := []) h
  refine ⟨st', ?_, hr⟩
  rw [← h.dummy, ← h.root] at hst'
  simp [AssocRbTree.insertFixup, hz, hp, hc, hst']

/-- The loop of `insert_fixup` at a red subtree repairs the tree. -/
theorem insertFixup_refines (h : Represents e st (plug z p) par) (hz : z.color = .red)
    (hp : RedOkPath p) (hroot : RootBlack p) (hT : NrStack.insertFixup z p = some T)
    {fuel : Nat} (hfuel : p.length < fuel) :
    ∃ st', AssocRbTree.insertFixup fuel st (rootAddr e.dummy z) = some st' ∧
      Represents e st' T.blacken par := by
  induction z, p using NrStack.insertFixup.induct generalizing st fuel with
  | case1 z f g p hf hu ih =>
    obtain ⟨-, -, -, -, hp⟩ := hp
    rw [NrStack.insertFixup, if_pos hf, if_pos hu] at hT
    obtain ⟨fuel, rfl⟩ : ∃ k, fuel = k + 1 := ⟨fuel - 1, by omega⟩
    obtain ⟨zn, hzn, hzp⟩ := node_of_red h hz
    have hfn := Represents.node_at (p := g :: p) h
    obtain ⟨gn, hgn, -, -, -, -, hside⟩ := side_test (t := f.fill z) h (Or.inl fill_ne_leaf)
    obtain ⟨st', hst', hr⟩ := insertFixupSide_red h hu
    rw [rootAddr_fill] at hside
    obtain ⟨st'', hst'', hr'⟩ := ih hr color_mkNode hp hroot.tail.tail hT
      (show p.length < fuel by simp only [List.length_cons] at hfuel; omega)
    refine ⟨st'', ?_, hr'⟩
    rw [rootAddr_mkNode] at hst''
    simp [AssocRbTree.insertFixup, hzn, hzp, hfn, hf, hgn, hside, hst', hst'']
  | case2 z f g p hf hu =>
    rw [NrStack.insertFixup, if_pos hf, if_neg hu] at hT
    obtain ⟨T', hT', rfl⟩ := Option.map_eq_some_iff.mp hT
    obtain ⟨fuel, rfl⟩ : ∃ k, fuel = k + 1 + 1 :=
      ⟨fuel - 2, by simp only [List.length_cons] at hfuel; omega⟩
    have hub : g.sibling.color = .black := by
      cases h : g.sibling.color <;> simp_all
    obtain ⟨zn, hzn, hzp⟩ := node_of_red h hz
    have hfn := Represents.node_at (p := g :: p) h
    obtain ⟨gn, hgn, -, -, -, -, hside⟩ := side_test (t := f.fill z) h (Or.inl fill_ne_leaf)
    obtain ⟨st', z', hst', hr, zn', pn', hz', hp', hc'⟩ := insertFixupSide_black h hz hub hT'
    rw [rootAddr_fill] at hside
    obtain ⟨st'', hst'', hr'⟩ := insertFixup_exit hr hz' hp' hc' fuel
    refine ⟨st'', ?_, hr'⟩
    rw [AssocRbTree.insertFixup]
    simp [hzn, hzp, hfn, hf, hgn, hside, hst', hst'']
  | case3 z f g p hf =>
    rw [NrStack.insertFixup, if_neg hf] at hT
    obtain rfl := Option.some.inj hT
    obtain ⟨fuel, rfl⟩ : ∃ k, fuel = k + 1 := ⟨fuel - 1, by omega⟩
    obtain ⟨zn, hzn, hzp⟩ := node_of_red h hz
    have hfn := Represents.node_at (p := g :: p) h
    refine insertFixup_exit h hzn (by rw [hzp]; exact hfn) ?_ fuel
    cases hc : f.color <;> simp_all
  | case4 z p hnot =>
    rw [NrStack.insertFixup.eq_2 z p hnot] at hT
    obtain rfl := Option.some.inj hT
    obtain ⟨fuel, rfl⟩ : ∃ k, fuel = k + 1 := ⟨fuel - 1, by omega⟩
    obtain ⟨zn, hzn, hzp⟩ := node_of_red h hz
    cases p with
    | nil =>
      have hsen := h.sentinel
      rw [h.dummy] at hsen
      exact insertFixup_exit h hzn (by rw [hzp]; exact hsen) rfl fuel
    | cons f p =>
      cases p with
      | nil =>
        have hfn := Represents.node_at (p := []) h
        exact insertFixup_exit h hzn (by rw [hzp]; exact hfn) ((cellNode_color).trans hroot) fuel
      | cons g p => exact absurd rfl (hnot f g p)

/-! ## The place of a new node -/

/-- Which way the code goes at a node with the result of `comp` there. -/
def compDir (comp : κ → κ → Int) (key : κ) (a : Cell κ ν) : Ordering :=
  if comp key a.key = 1 then .lt else if comp key a.key = -1 then .gt else .eq

theorem compDir_eq_lt {comp : κ → κ → Int} {key : κ} :
    compDir comp key a = .lt ↔ comp key a.key = 1 := by
  unfold compDir
  split <;> rename_i h
  · simp [h]
  · split <;> simp [h]

theorem length_path_le : p.length ≤ (plug t p).toList.length := by
  induction p generalizing t with
  | nil => simp
  | cons f p ih =>
    have hlen : (plug t (f :: p)).toList.length = (plug .leaf p).toList.length +
        (f.fill t).toList.length := by
      rw [plug_cons, toList_plug, toList_plug]
      simp
      omega
    have hfill : 0 < (f.fill t).toList.length := by
      unfold Frame.fill mkNode
      split <;> simp <;> omega
    have := ih (t := .leaf)
    rw [hlen, List.length_cons]
    omega

/-- The node found is the one above the leaf where the new element goes. -/
theorem findLeaf_spec (comp : κ → κ → Int) (key : κ) (h : Represents e st (plug t p) par)
    {fuel : Nat} (hfuel : t.toList.length < fuel) :
    AssocRbTree.findLeaf comp key fuel st (rootAddr e.dummy t) (upAddr e.dummy p) =
      some (upAddr e.dummy (descend (compDir comp key) t p)) := by
  induction t generalizing p fuel with
  | leaf =>
    obtain ⟨fuel, rfl⟩ : ∃ k, fuel = k + 1 := ⟨fuel - 1, by omega⟩
    simp [AssocRbTree.findLeaf, h.dummy, descend]
  | node c l a r ihl ihr =>
    obtain ⟨fuel, rfl⟩ : ∃ k, fuel = k + 1 := ⟨fuel - 1, by omega⟩
    simp only [toList, List.length_append, List.length_cons] at hfuel
    have hn := Represents.node_at (s := .left) h
    have hne : a.addr ≠ st.dummy := by
      intro heq
      refine (List.nodup_cons.mp h.nodup_plug).1 (heq ▸ List.mem_append_left _ ?_)
      simp [addrs]
    rw [h.dummy] at hn
    simp only [rootAddr, AssocRbTree.findLeaf, if_neg hne, hn, Option.bind_eq_bind,
      Option.bind_some, cellNode, descend, compDir_eq_lt]
    split
    · exact ihl (p := ⟨.left, c, a, r⟩ :: p) h (by omega)
    · exact ihr (p := ⟨.right, c, a, l⟩ :: p) h (by omega)

/-- The new element is on the side of its parent that `dir` says. -/
theorem descend_head {dir : Cell κ ν → Ordering} {q : RbPath (Cell κ ν)}
    (h : descend dir t p = f :: q) : t = .leaf ∨ (f.side = .left ↔ dir f.elt = .lt) := by
  induction t generalizing p with
  | leaf => exact Or.inl rfl
  | node c l a r ihl ihr =>
    right
    unfold descend at h
    split at h
    case isTrue ha =>
      rcases ihl h with rfl | hl
      · obtain ⟨rfl, -⟩ := List.cons.inj h
        simpa using ha
      · exact hl
    case isFalse ha =>
      rcases ihr h with rfl | hr
      · obtain ⟨rfl, -⟩ := List.cons.inj h
        simpa using ha
      · exact hr

/-- The new red node hangs below the leaf that was found. -/
theorem linkLeaf_spec (comp : κ → κ → Int) (h : Represents e st (plug .leaf p) par)
    (hz : a.addr ∉ st.dummy :: pathAddrs p)
    (hn : st.heap a.addr = some (cellNode .left .red (upAddr e.dummy p) e.dummy e.dummy a))
    (hside : ∀ f q, p = f :: q → (f.side = .left ↔ comp a.key f.elt.key = 1)) :
    ∃ st', (if upAddr e.dummy p = st.dummy then some { st with root := a.addr }
      else do
        let yn ← st.heap (upAddr e.dummy p)
        let k ← yn.key
        if comp a.key k = 1 then st.modify (upAddr e.dummy p) (·.setChild .left a.addr)
        else st.modify (upAddr e.dummy p) (·.setChild .right a.addr)) = some st' ∧
      Represents st' st' (plug (.node .red .leaf a .leaf) p) par ∧ st'.dummy = st.dummy ∧
      st'.size = st.size ∧ st'.next = st.next := by
  have hd := h.dummy
  have hnd := h.nodup_plug
  rw [addrs_leaf, List.nil_append] at hnd
  -- the link is written, and nothing outside of the path
  obtain ⟨st', hst', htou, hp⟩ : ∃ st', (if upAddr e.dummy p = st.dummy then
        some { st with root := a.addr }
      else do
        let yn ← st.heap (upAddr e.dummy p)
        let k ← yn.key
        if comp a.key k = 1 then st.modify (upAddr e.dummy p) (·.setChild .left a.addr)
        else st.modify (upAddr e.dummy p) (·.setChild .right a.addr)) = some st' ∧
      Touches (pathAddrs p) st st' ∧ RepPath st' p a.addr := by
    cases p with
    | nil => exact ⟨_, if_pos h.dummy.symm, ⟨rfl, rfl, rfl, fun _ _ => rfl⟩, rfl⟩
    | cons f q =>
      have hne : f.elt.addr ≠ st.dummy := fun heq =>
        (List.nodup_cons.mp hnd).1 (heq ▸ mem_pathAddrs_cons.2 (Or.inl rfl))
      obtain ⟨st', hst', htou, hp'⟩ := setChild_spec (v := a.addr) h.plug.2 hnd
      refine ⟨st', ?_, htou, hp'⟩
      rw [upAddr_cons, if_neg hne, h.plug.2.1, Option.bind_eq_bind, Option.bind_some,
        cellNode_key, Option.bind_eq_bind, Option.bind_some, ← hst']
      have := hside f q rfl
      cases hs : f.side with
      | left => rw [if_pos (this.mp hs)]
      | right => rw [if_neg fun hc => by simp [hs] at this; exact this hc]
  refine ⟨st', hst', ?_, htou.dummy, htou.size, htou.next⟩
  have hd' : st'.dummy = e.dummy := htou.dummy.trans hd
  simp only [List.mem_cons, not_or] at hz
  obtain ⟨htree, hroot⟩ := repTree_plug (t := .node .red .leaf a .leaf) |>.mpr
    ⟨⟨by rw [htou.heap _ hz.2, hn, hd']; rfl, trivial, trivial⟩, hp⟩
  have hnd' : (st'.dummy :: addrs (plug (.node .red .leaf a .leaf) p)).Nodup := by
    rw [(addrs_plug.cons _).nodup_iff, htou.dummy]
    simp only [addrs, toList, List.nil_append, List.map_cons, List.map_nil,
      List.singleton_append, List.nodup_cons, List.mem_cons, not_or] at hnd ⊢
    exact ⟨⟨Ne.symm hz.1, hnd.1⟩, hz.2, hnd.2⟩
  exact {
    tree := htree
    root := hroot
    nodup := hnd'
    sentinel := by
      rw [htou.dummy, htou.heap _ (List.nodup_cons.mp hnd).1, h.sentinel]
    dummy := rfl
    size := rfl
    next := rfl
    elsewhere := fun _ _ => rfl }

/-- `assoc_rb_tree_insert` puts a new cell where the insertion on trees puts it. -/
theorem insert_refines (h : RbState st t) (comp : κ → κ → Int) (key : κ) (value : ν) :
    ∃ st' t', st.insert comp key value = some st' ∧ RbState st' t' ∧
      t.insert (compDir comp key) ⟨st.next, key, value⟩ = some t' ∧ st'.dummy = st.dummy := by
  obtain ⟨par, hrep⟩ := h.represents
  have hnew : ∀ b ∈ st.dummy :: addrs t, b ≠ st.next := fun b hb => Nat.ne_of_lt (h.fresh b hb)
  set a : Cell κ ν := ⟨st.next, key, value⟩ with ha
  set p := descend (compDir comp key) t [] with hp
  have hplug : plug .leaf p = t := plug_descend
  -- the new node, before and after its parent is known
  set st₁ := (st.initNode (some key) (some value)).2 with hst₁
  have hheap₁ : ∀ b, b ≠ st.next → st₁.heap b = st.heap b := fun b hb =>
    Function.update_of_ne hb ..
  have hz₁ : st₁.heap st.next = some ⟨some key, some value, 0, 0, 0, .red⟩ :=
    Function.update_self ..
  obtain ⟨st₂, h₂, hr₂, ht₂, hw₂⟩ := modify_spec (g := fun n => { n with
    parent := st₁.dummy, left := st₁.dummy, right := st₁.dummy }) hz₁
  have hheap₂ : ∀ b, b ≠ st.next → st₂.heap b = st.heap b := fun b hb =>
    (ht₂.heap b (by simpa using hb)).trans (hheap₁ b hb)
  have hrep₂ : Represents st₂ st₂ t par := hrep.congr ht₂.dummy hr₂ fun b hb => hheap₂ b (hnew b hb)
  have hd₂ : st₂.dummy = st.dummy := ht₂.dummy
  have hfind := findLeaf_spec comp key (p := []) hrep₂
    (show t.toList.length < st₂.size + 1 by rw [ht₂.size]; exact Nat.lt_succ_of_le (Nat.le_of_eq h.size.symm))
  rw [upAddr_nil, ← hrep₂.root, ← hp] at hfind
  obtain ⟨st₃, h₃, hr₃, ht₃, hw₃⟩ :=
    modify_spec (g := (·.setParent (upAddr st₂.dummy p))) hw₂
  have hrep₃ : Represents st₃ st₃ t par := hrep₂.congr ht₃.dummy hr₃ fun b hb =>
    ht₃.heap b (by simpa using hnew b (hd₂ ▸ hb))
  have hd₃ : st₃.dummy = st₂.dummy := ht₃.dummy
  rw [← hplug] at hrep₃
  -- the link from the parent
  have hza : a.addr ∉ st₃.dummy :: pathAddrs p := by
    intro hmem
    refine hnew a.addr ?_ rfl
    rw [hd₃, hd₂] at hmem
    refine (List.mem_cons.mp hmem).elim (fun h => h ▸ List.mem_cons_self) fun h => ?_
    refine List.mem_cons_of_mem _ ?_
    rw [← hplug, (addrs_plug).mem_iff]
    exact List.mem_append_right _ h
  obtain ⟨st₄, h₄, hrep₄, hd₄, hs₄, hn₄⟩ := linkLeaf_spec comp (a := a) hrep₃ hza
    (by rw [hd₃, hw₃, hd₂]; rfl) (fun f q hfq => by
      rcases descend_head (hp.symm.trans hfq) with hleaf | hside
      · subst hleaf
        simp [hp, descend] at hfq
      · rw [hside, compDir_eq_lt])
  -- the repair
  obtain ⟨t', ht', hrb, htl, htl'⟩ := RbTree.insert_spec h.isRb (compDir comp key) a
  obtain ⟨T, hT, rfl⟩ := Option.map_eq_some_iff.mp ht'
  obtain ⟨-, hok, -, hroot, -⟩ := RbTree.IsRb.unplug (t := .leaf) (p := p) (hplug ▸ h.isRb)
  have hlen : p.length ≤ t.toList.length := hplug ▸ length_path_le
  have hsize : st₄.size = t.toList.length := by
    rw [hs₄, ht₃.size, ht₂.size]
    exact h.size
  obtain ⟨st₅, h₅, hr₅⟩ := insertFixup_refines hrep₄ rfl hok hroot hT
    (show p.length < st₄.size + 1 by omega)
  refine ⟨{ st₅ with size := st₅.size + 1 }, T.blacken, ?_, ⟨⟨par, ?_⟩, hrb, ?_, ?_⟩, ht', ?_⟩
  · have hfind₃ : AssocRbTree.findLeaf comp key (st₂.size + 1) st₂ st₂.root st₂.dummy =
        some (upAddr st₃.dummy p) := hd₃.symm ▸ hfind
    rw [← hd₃] at h₃
    have hz : (st.initNode (some key) (some value)).1 = st.next := rfl
    simp only [Option.bind_eq_bind, ha] at h₄
    simp only [AssocRbTree.insert, ← hst₁, hz, Option.bind_eq_bind, h₂, Option.bind_some,
      hfind₃, h₃, h₄]
    rw [show AssocRbTree.insertFixup (st₄.size + 1) st₄ st.next = some st₅ from h₅,
      Option.bind_some]
  · exact (hr₅.self.congr rfl rfl fun _ _ => rfl)
  · show st₅.size + 1 = _
    rw [hr₅.size, hsize, htl', htl]
    simp
    omega
  · intro b hb
    show b < st₅.next
    have hnext : st₅.next = st.next + 1 := by
      rw [hr₅.next, hn₄, ht₃.next, ht₂.next]
      rfl
    rw [hnext]
    simp only [addrs, htl', List.map_append, List.map_cons, List.mem_cons, List.mem_append] at hb
    have hold : b ∈ st.dummy :: addrs t → b < st.next + 1 := fun h' =>
      Nat.lt_succ_of_lt (h.fresh b h')
    simp only [addrs, htl, List.map_append, List.mem_cons, List.mem_append] at hold
    obtain rfl | hb | rfl | hb := hb
    · exact hold (Or.inl (by rw [hr₅.dummy, hd₄, hd₃, hd₂]))
    · exact hold (Or.inr (Or.inl hb))
    · exact Nat.lt_succ_self _
    · exact hold (Or.inr (Or.inr hb))
  · show st₅.dummy = st.dummy
    rw [hr₅.dummy, hd₄, hd₃, hd₂]

end NrStack
