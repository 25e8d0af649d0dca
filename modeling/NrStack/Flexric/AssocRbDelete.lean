import NrStack.Flexric.AssocRbInsert

/-!
# Deletion on the nodes

`deleteFixup_refines` : the loop of `delete_fixup` on the nodes is the repair on trees.
Where the subtree that is one black node short is empty, the loop stands at the
sentinel, whose parent link then says where in the tree it stands.

`extract_refines` and `freeIt_refines` are the two operations that remove a node.
-/

namespace NrStack

open RbTree

variable {κ ν : Type} {e st st' : AssocRbTree κ ν} {t w A B T X near far : RbTree (Cell κ ν)}
  {p q : RbPath (Cell κ ν)} {f g : Frame (Cell κ ν)} {s : Side} {c c' d : RbColor}
  {a b : Cell κ ν} {par d' : Nat}

/-! ## The repair of a deletion -/

/-- The last case : the sibling takes the place and the colour of the parent. -/
theorem deleteRotate_spec
    (h : Represents e st (plug (mkNode s c X a (mkNode s d near b far)) p) par) :
    ∃ st', (do
      let t ← st.modify b.addr (·.setColor c)
      let t ← t.modify a.addr (·.setColor .black)
      let t ← t.modify (rootAddr e.dummy far) (·.setColor .black)
      let t ← t.rotate s a.addr
      some (t, t.root)) = some (st', st'.root) ∧
      Represents e st' (plug (mkNode s c (mkNode s .black X a near) b far.blacken) p) par := by
  rw [← plug_other] at h
  obtain ⟨st₁, h₁, hr₁⟩ := setColor_spec c h
  rw [plug_other] at hr₁
  obtain ⟨st₂, h₂, hr₂⟩ := setColor_spec .black hr₁
  rw [← plug_other, ← plug_other] at hr₂
  obtain ⟨st₃, h₃, hr₃⟩ := blacken_spec hr₂
  rw [plug_other, plug_other] at hr₃
  obtain ⟨st₄, h₄, hr₄⟩ := rotate_spec hr₃
  refine ⟨st₄, ?_, hr₄⟩
  simp only [h₁, h₂, h₃, h₄, Option.bind_eq_bind, Option.bind_some]

/-- The two children of a node in the order of the code, with their colours. -/
theorem children_colors (h : Represents e st (plug (mkNode s c near a far) p) par)
    (u : Nat) : ∃ ln rn, st.heap (cellNode s c u (rootAddr e.dummy near) (rootAddr e.dummy far)
        a).left = some ln ∧
      st.heap (cellNode s c u (rootAddr e.dummy near) (rootAddr e.dummy far) a).right = some rn ∧
      ((ln.color = .black ∧ rn.color = .black) ↔ near.color = .black ∧ far.color = .black) := by
  obtain ⟨nn, hnn, hnc⟩ := (show Represents e st (plug near (⟨s, c, a, far⟩ :: p)) par
    from h).color_at
  obtain ⟨fn, hfn, hfc⟩ := (plug_other.symm ▸ h :
    Represents e st (plug far (⟨s.opp, c, a, near⟩ :: p)) par).color_at
  rw [h.dummy] at hnn hfn
  cases s with
  | left => exact ⟨nn, fn, hnn, hfn, by rw [hnc, hfc]⟩
  | right => exact ⟨fn, nn, hfn, hnn, by rw [hnc, hfc]; exact and_comm⟩

/-- One pass below a black sibling. -/
theorem deleteFixupBlack_refines {up : Bool} (h : Represents e st (plug X (f :: p)) par)
    (hT : siblingFix X f = some (up, T)) :
    ∃ st', st.deleteFixupBlack f.side f.elt.addr (rootAddr e.dummy f.sibling) =
        some (st', if up then f.elt.addr else st'.root) ∧
      Represents e st' (plug T p) par ∧
      (up = true → ∃ Y, T = mkNode f.side f.color X f.elt Y) := by
  obtain ⟨s, c, x, w⟩ := f
  obtain ⟨⟨cw, near, a, far⟩, hsplit, hfix⟩ := Option.bind_eq_some_iff.mp hT
  clear hT
  dsimp only at hfix hsplit ⊢
  obtain rfl := eq_mkNode_of_split hsplit
  rw [plug_cons, Frame.fill] at h
  dsimp only at h
  have hx := Represents.node_at h
  have hw := Represents.node_at (p := ⟨s.opp, c, x, X⟩ :: p) (plug_other.symm ▸ h)
  obtain ⟨ln, rn, hln, hrn, hcol⟩ :=
    children_colors (p := ⟨s.opp, c, x, X⟩ :: p) (plug_other.symm ▸ h) x.addr
  obtain ⟨fn, hfn, hfc⟩ := (plug_other.symm ▸ (plug_other).symm ▸ h : Represents e st
    (plug far (⟨s.opp, cw, a, near⟩ :: ⟨s.opp, c, x, X⟩ :: p)) par).color_at
  rw [h.dummy] at hx hw hfn
  rw [upAddr_cons] at hw
  rw [rootAddr_mkNode] at hx ⊢
  cases cw with
  | red => simp at hfix
  | black =>
  simp only [reduceCtorEq, if_false] at hfix
  simp only [AssocRbTree.deleteFixupBlack, hw, Option.bind_eq_bind, Option.bind_some,
    cellNode_color, reduceCtorEq, if_false, hln, hrn, hcol]
  by_cases hboth : near.color = .black ∧ far.color = .black
  · rw [if_pos hboth] at hfix ⊢
    obtain ⟨rfl, rfl⟩ := Prod.mk.inj (Option.some.inj hfix)
    obtain ⟨st₁, h₁, hr₁⟩ := setColor_spec .red (p := ⟨s.opp, c, x, X⟩ :: p)
      (plug_other.symm ▸ h)
    refine ⟨st₁, by simp [h₁], ?_, fun _ => ⟨_, rfl⟩⟩
    rwa [plug_other] at hr₁
  rw [if_neg hboth] at hfix ⊢
  rw [cellNode_child_opp, hfn, Option.bind_some, hfc]
  by_cases hfar : far.color = .black
  · -- the near child is red : it is rotated above the sibling first
    rw [if_pos hfar] at hfix ⊢
    obtain ⟨⟨cn, u, b, v⟩, hsplit', hfin⟩ := Option.bind_eq_some_iff.mp hfix
    obtain rfl := eq_mkNode_of_split hsplit'
    obtain ⟨rfl, rfl⟩ := Prod.mk.inj (Option.some.inj hfin)
    have hcn : cn = .red := by
      cases cn
      · exact absurd ⟨color_mkNode, hfar⟩ hboth
      · rfl
    subst hcn
    have hn := Represents.node_at (p := ⟨s, .black, a, far⟩ :: ⟨s.opp, c, x, X⟩ :: p)
      (plug_other.symm ▸ h)
    obtain ⟨st₁, h₁, hr₁⟩ := setColor_spec .black
      (p := ⟨s, .black, a, far⟩ :: ⟨s.opp, c, x, X⟩ :: p) (plug_other.symm ▸ h)
    obtain ⟨st₂, h₂, hr₂⟩ := setColor_spec .red (p := ⟨s.opp, c, x, X⟩ :: p) hr₁
    have hr₂' : Represents e st₂ (plug (mkNode s.opp .red far a (mkNode s.opp .black v b u))
        (⟨s.opp, c, x, X⟩ :: p)) par := by
      simpa only [mkNode_opp] using hr₂
    obtain ⟨st₃, h₃, hr₃⟩ := rotate_spec hr₂'
    simp only [mkNode_opp] at hr₃
    have hb₃ := Represents.node_at hr₃
    have ha₃ := Represents.node_at (p := ⟨s.opp, .black, b, u⟩ :: ⟨s.opp, c, x, X⟩ :: p)
      (plug_other.symm ▸ hr₃)
    rw [plug_other] at hr₃
    have hx₃ := Represents.node_at hr₃
    obtain ⟨st₄, h₄, hr₄⟩ := deleteRotate_spec hr₃
    rw [hr₃.dummy] at hb₃ ha₃ hx₃
    simp only [rootAddr_mkNode, upAddr_cons, Option.bind_eq_bind] at hx₃ hb₃ ha₃ h₄
    refine ⟨st₄, ?_, by simpa using hr₄, by simp⟩
    simp only [cellNode_child, rootAddr_mkNode, hn, Option.bind_some, cellNode_color,
      reduceCtorEq, if_false, h₁, h₂, h₃, hx₃, cellNode_child_opp, hb₃, ha₃, or_self, h₄,
      Bool.false_eq_true]
  · rw [if_neg hfar] at hfix ⊢
    obtain ⟨rfl, rfl⟩ := Prod.mk.inj (Option.some.inj hfix)
    have hfr : far.color = .red := by
      cases h : far.color <;> simp_all
    obtain ⟨st₁, h₁, hr₁⟩ := deleteRotate_spec h
    simp only [Option.bind_eq_bind] at h₁
    refine ⟨st₁, ?_, hr₁, by simp⟩
    simp only [Option.bind_some, hw, cellNode_child_opp, hfn, cellNode_color, hfc, hfr,
      reduceCtorEq, or_self, if_false, hx, h₁, Bool.false_eq_true]

/-- The node at a position with its parent link, the sentinel for an empty subtree. -/
theorem node_up (h : Represents e st (plug X p) par) (hleaf : X = .leaf → par = upAddr e.dummy p) :
    ∃ n, st.heap (rootAddr e.dummy X) = some n ∧ n.parent = upAddr e.dummy p ∧
      n.color = X.color := by
  cases X with
  | leaf =>
    have hs := h.sentinel
    rw [h.dummy] at hs
    exact ⟨_, hs, hleaf rfl, rfl⟩
  | node c l a r =>
    have hn := Represents.node_at (s := .left) (p := p) h
    rw [h.dummy] at hn
    exact ⟨_, hn, rfl, rfl⟩

/-- A position below a node is not the root. -/
theorem rootAddr_ne_root (h : Represents e st (plug X (f :: p)) par) :
    rootAddr e.dummy X ≠ st.root := by
  have hnd := h.nodup_plug
  have hroot : ∀ {p : RbPath (Cell κ ν)} {u : Nat}, RepPath st p u →
      st.root = u ∨ st.root ∈ pathAddrs p := by
    intro p
    induction p with
    | nil => exact fun h => Or.inl h
    | cons f p ih =>
      intro u hp
      refine Or.inr (mem_pathAddrs_cons.mpr ?_)
      rcases ih hp.2.2 with h | h
      · exact Or.inl h
      · exact Or.inr (Or.inr h)
  have hmem : st.root ∈ pathAddrs (f :: p) := by
    rcases hroot h.plug.2.2.2 with h | h
    · exact mem_pathAddrs_cons.2 (Or.inl h)
    · exact mem_pathAddrs_cons.2 (Or.inr (Or.inr h))
  intro heq
  rcases rootAddr_mem (d := e.dummy) (t := X) with hl | hm
  · rw [hl, rootAddr_leaf, ← h.dummy] at heq
    exact (List.nodup_cons.mp hnd).1 (List.mem_append_right _ (heq ▸ hmem))
  · exact (List.nodup_append.mp (List.nodup_cons.mp hnd).2).2.2 _ hm _ hmem heq

/-- The loop ends at the root or at a red node, and paints it black. -/
theorem deleteFixup_exit (h : Represents e st (plug X p) par)
    (hx : rootAddr e.dummy X = st.root ∨ X.color = .red) (fuel : Nat) :
    ∃ st', AssocRbTree.deleteFixup (fuel + 1) st (rootAddr e.dummy X) = some st' ∧
      Represents e st' (plug X.blacken p) par := by
  obtain ⟨n, hn, hc⟩ := h.color_at
  rw [h.dummy] at hn
  obtain ⟨st', hst', hr⟩ := blacken_spec h
  refine ⟨st', ?_, hr⟩
  have hstop : ¬(rootAddr e.dummy X ≠ st.root ∧ n.color = .black) := by
    rintro ⟨hne, hb⟩
    rcases hx with hx | hx
    · exact hne hx
    · simp [hc, hx] at hb
  simp [AssocRbTree.deleteFixup, hn, hstop, hst']

/-- The loop ends at the root. -/
theorem deleteFixup_exit_root (h : Represents e st t par) (fuel : Nat) :
    ∃ st', AssocRbTree.deleteFixup (fuel + 1) st st.root = some st' ∧
      Represents e st' t.blacken par := by
  have hroot : rootAddr e.dummy t = st.root := by rw [h.root, h.dummy]
  obtain ⟨st', hst', hr⟩ := deleteFixup_exit (p := []) h (Or.inl hroot) fuel
  exact ⟨st', hroot ▸ hst', hr⟩

/-- One pass below a red sibling, which is rotated away first. -/
theorem deleteFixupSide_red {x : Cell κ ν} {up : Bool}
    (h : Represents e st (plug (mkNode s c X x (mkNode s .red near a far)) p) par)
    (hT : siblingFix X ⟨s, .red, x, near⟩ = some (up, T)) :
    ∃ st', st.deleteFixupSide s x.addr = some (st', if up then x.addr else st'.root) ∧
      Represents e st' (plug T (⟨s, .black, a, far⟩ :: p)) par ∧
      (up = true → ∃ Y, T = mkNode s .red X x Y) := by
  have hx := Represents.node_at h
  have ha := Represents.node_at (p := ⟨s.opp, c, x, X⟩ :: p) (plug_other.symm ▸ h)
  rw [← plug_other] at h
  obtain ⟨st₁, h₁, hr₁⟩ := setColor_spec .black h
  rw [plug_other] at hr₁
  obtain ⟨st₂, h₂, hr₂⟩ := setColor_spec .red hr₁
  obtain ⟨st₃, h₃, hr₃⟩ := rotate_spec hr₂
  have hx₃ := Represents.node_at (p := ⟨s, .black, a, far⟩ :: p) hr₃
  obtain ⟨st₄, h₄, hr₄, hY⟩ :=
    deleteFixupBlack_refines (f := ⟨s, .red, x, near⟩) (p := ⟨s, .black, a, far⟩ :: p) hr₃ hT
  rw [hr₃.dummy] at hx₃
  rw [rootAddr_mkNode] at hx
  refine ⟨st₄, ?_, hr₄, hY⟩
  simp only [AssocRbTree.deleteFixupSide, hx, Option.bind_eq_bind, Option.bind_some,
    cellNode_child_opp, ha, cellNode_color, if_true, h₁, h₂, h₃, hx₃, h₄]

/-- The loop of `delete_fixup` repairs the tree. -/
theorem deleteFixup_refines (h : Represents e st (plug X p) par)
    (hleaf : X = .leaf → par = upAddr e.dummy p) (hT : NrStack.deleteFixup X p = some T)
    {fuel : Nat} (hfuel : p.length < fuel) :
    ∃ st', AssocRbTree.deleteFixup fuel st (rootAddr e.dummy X) = some st' ∧
      Represents e st' T par := by
  induction p generalizing X st fuel with
  | nil =>
    obtain ⟨fuel, rfl⟩ : ∃ k, fuel = k + 1 := ⟨fuel - 1, by omega⟩
    obtain rfl := Option.some.inj hT
    have hroot : rootAddr e.dummy X = st.root := by rw [h.root, h.dummy, plug_nil]
    exact deleteFixup_exit h (Or.inl hroot) fuel
  | cons f p ih =>
    simp only [List.length_cons] at hfuel
    obtain ⟨fuel, rfl⟩ : ∃ k, fuel = k + 1 + 1 := ⟨fuel - 2, by omega⟩
    rw [NrStack.deleteFixup] at hT
    by_cases hX : X.color = .red
    · rw [if_pos hX] at hT
      obtain rfl := Option.some.inj hT
      exact deleteFixup_exit h (Or.inr hX) (fuel + 1)
    rw [if_neg hX] at hT
    have hXb : X.color = .black := by
      cases h : X.color <;> simp_all
    obtain ⟨xn, hxn, hxp, hxc⟩ := node_up h hleaf
    have hne := rootAddr_ne_root h
    have hbody : ∀ {st' : AssocRbTree κ ν} {q : Nat}, f.sibling ≠ .leaf →
        st.deleteFixupSide f.side f.elt.addr = some (st', q) →
        AssocRbTree.deleteFixup (fuel + 1 + 1) st (rootAddr e.dummy X) =
          AssocRbTree.deleteFixup (fuel + 1) st' q := by
      intro st' q hs hst'
      obtain ⟨pn, hpn, -, -, -, -, hside⟩ := side_test h (Or.inr hs)
      rw [AssocRbTree.deleteFixup]
      simp [hxn, hne, hxc, hXb, hxp, hpn, hside, hst']
    by_cases hs : f.sibling.color = .red
    · rw [if_pos hs] at hT
      obtain ⟨⟨cw, near, a, far⟩, hsplit, hfix⟩ := Option.bind_eq_some_iff.mp hT
      obtain ⟨⟨up, t⟩, ht, hres⟩ := Option.bind_eq_some_iff.mp hfix
      have hsib := eq_mkNode_of_split hsplit
      have hcw : cw = .red := by rw [hsib, color_mkNode] at hs; exact hs
      subst hcw
      have hsl : f.sibling ≠ .leaf := by
        rintro h
        simp [h] at hs
      rw [plug_cons, Frame.fill, hsib] at h
      obtain ⟨st', hst', hr, hY⟩ := deleteFixupSide_red h ht
      rw [hbody hsl hst']
      cases up with
      | true =>
        obtain ⟨Y, rfl⟩ := hY rfl
        obtain rfl := Option.some.inj hres
        have hexit := deleteFixup_exit hr (Or.inr color_mkNode) fuel
        rw [rootAddr_mkNode] at hexit
        exact hexit
      | false =>
        obtain rfl := Option.some.inj hres
        exact deleteFixup_exit_root hr fuel
    · rw [if_neg hs] at hT
      obtain ⟨⟨up, t⟩, ht, hres⟩ := Option.bind_eq_some_iff.mp hT
      obtain ⟨⟨cw, near, a, far⟩, hsplit, -⟩ := Option.bind_eq_some_iff.mp ht
      have hsib := eq_mkNode_of_split hsplit
      have hsl : f.sibling ≠ .leaf := by
        rintro h
        simp [h, split] at hsplit
      obtain ⟨st', hst', hr, hY⟩ := deleteFixupBlack_refines h ht
      obtain ⟨pn, hpn, -, -, -, hpo, -⟩ := side_test h (Or.inr hsl)
      obtain ⟨wn, hwn, hwc⟩ := (plug_sibling (t := X) ▸ h : Represents e st
        (plug f.sibling (⟨f.side.opp, f.color, f.elt, X⟩ :: p)) par).color_at
      rw [h.dummy] at hwn
      have hstep : st.deleteFixupSide f.side f.elt.addr =
          some (st', if up then f.elt.addr else st'.root) := by
        simp [AssocRbTree.deleteFixupSide, hpn, hpo, hwn, hwc, hs, hst']
      rw [hbody hsl hstep]
      cases up with
      | true =>
        obtain ⟨Y, rfl⟩ := hY rfl
        have hrec := ih hr (fun h => absurd h mkNode_ne_leaf) hres
          (show p.length < fuel + 1 by omega)
        rw [rootAddr_mkNode] at hrec
        exact hrec
      | false =>
        obtain rfl := Option.some.inj hres
        exact deleteFixup_exit_root hr fuel

/-! ## Taking a node out -/

/-- `minimum` is the leftmost node. -/
theorem minimumLoop_spec {l r : RbTree (Cell κ ν)} (h : Represents e st (plug (.node c l a r) p) par)
    {fuel : Nat} (hfuel : l.toList.length < fuel) :
    AssocRbTree.minimumLoop fuel st a.addr = some (leftmost c l a r p).elt.addr := by
  induction l generalizing c a r p fuel with
  | leaf =>
    obtain ⟨fuel, rfl⟩ : ∃ k, fuel = k + 1 := ⟨fuel - 1, by omega⟩
    have ha := Represents.node_at (s := .left) h
    simp [AssocRbTree.minimumLoop, ha, cellNode, leftmost]
  | node cl ll al rl ihl _ =>
    obtain ⟨fuel, rfl⟩ : ∃ k, fuel = k + 1 := ⟨fuel - 1, by omega⟩
    simp only [toList, List.length_append, List.length_cons] at hfuel
    have ha := Represents.node_at (s := .left) h
    have hne : al.addr ≠ st.dummy := by
      intro heq
      refine (List.nodup_cons.mp h.nodup).1 (heq ▸ (addrs_plug).mem_iff.mpr ?_)
      simp [addrs]
    have hrec := ihl (p := ⟨.left, c, a, r⟩ :: p) h (show ll.toList.length < fuel by omega)
    simp [AssocRbTree.minimumLoop, ha, cellNode, rootAddr, hne, hrec, leftmost]

/-- `transplant` puts the subtree `B` at the position of the node `u`. -/
theorem transplant_spec {u : Nat} {un : AssocNode κ ν} (hu : st.heap u = some un)
    (hup : un.parent = upAddr st.dummy p) (hpath : RepPath st p u)
    (hB : RepTree st.dummy st.heap d' B) (hnd : (st.dummy :: (addrs B ++ pathAddrs p)).Nodup)
    (hn : u ∉ st.dummy :: (addrs B ++ pathAddrs p))
    (hs : st.heap st.dummy = some ⟨none, none, par, 0, 0, .black⟩) :
    ∃ st' par', st.transplant u (rootAddr st.dummy B) = some st' ∧
      Represents st' st' (plug B p) par' ∧ st'.dummy = st.dummy ∧ st'.size = st.size ∧
      st'.next = st.next ∧ (∀ b, b ∉ st.dummy :: (addrs B ++ pathAddrs p) →
        st'.heap b = st.heap b) ∧ (B = .leaf → par' = upAddr st.dummy p) ∧
      (B ≠ .leaf → par' = par) := by
  simp only [List.mem_cons, List.mem_append, not_or] at hn
  obtain ⟨hud, huB, hup'⟩ := hn
  obtain ⟨hd, hnd'⟩ := List.nodup_cons.mp hnd
  simp only [List.mem_append, not_or] at hd
  obtain ⟨hndB, hndp, hdisj⟩ := List.nodup_append.mp hnd'
  obtain ⟨st₁, h₁, ht₁, hp₁⟩ := relink_spec (v := rootAddr st.dummy B) hpath
    (List.nodup_cons.mpr ⟨hd.2, hndp⟩) (by simpa using ⟨hud, hup'⟩)
  have hB₁ : RepTree st₁.dummy st₁.heap d' B := by
    rw [ht₁.dummy]
    exact hB.congr fun b hb => ht₁.heap b fun hbp => hdisj b hb b hbp rfl
  have hs₁ : st₁.heap st₁.dummy = some ⟨none, none, par, 0, 0, .black⟩ := by
    rw [ht₁.dummy, ht₁.heap _ hd.2, hs]
  -- the parent link of the subtree, or that of the sentinel
  obtain ⟨st₂, par', h₂, ht₂, hr₂, hB₂, hs₂, hl, hnl⟩ : ∃ st₂ par',
      st₁.modify (rootAddr st.dummy B) (·.setParent (upAddr st.dummy p)) = some st₂ ∧
      Touches (st.dummy :: addrs B) st₁ st₂ ∧ st₂.root = st₁.root ∧
      RepTree st₂.dummy st₂.heap (upAddr st.dummy p) B ∧
      st₂.heap st₂.dummy = some ⟨none, none, par', 0, 0, .black⟩ ∧
      (B = .leaf → par' = upAddr st.dummy p) ∧ (B ≠ .leaf → par' = par) := by
    cases B with
    | leaf =>
      obtain ⟨st₂, h₂, hr₂, ht₂, hw₂⟩ :=
        modify_spec (g := (·.setParent (upAddr st.dummy p))) hs₁
      rw [ht₁.dummy] at h₂ hw₂
      refine ⟨st₂, _, h₂, ⟨ht₂.dummy, ht₂.size, ht₂.next, fun b hb => ht₂.heap b ?_⟩, hr₂,
        trivial, ?_, fun _ => rfl, fun h => absurd rfl h⟩
      · simpa [ht₁.dummy] using hb
      · rw [ht₂.dummy, ht₁.dummy, hw₂]
        rfl
    | node cb lb b rb =>
      obtain ⟨st₂, h₂, hr₂, ht₂, hB₂⟩ := reparent_spec (upAddr st.dummy p) hB₁
        (by rw [ht₁.dummy]; exact List.nodup_cons.mpr ⟨hd.1, hndB⟩)
      have hne : b.addr ≠ st₁.dummy := by
        rw [ht₁.dummy]
        exact fun h => hd.1 (h ▸ by simp [addrs])
      rw [rootAddr, if_neg hne] at h₂
      refine ⟨st₂, par, h₂, ⟨ht₂.dummy, ht₂.size, ht₂.next, fun b hb => ht₂.heap b ?_⟩, hr₂, hB₂,
        ?_, fun h => by simp at h, fun _ => rfl⟩
      · exact fun h => hb (List.mem_cons_of_mem _ h)
      · rw [ht₂.dummy, ht₂.heap _ (by rw [ht₁.dummy]; exact hd.1), hs₁]
  have hd₂ : st₂.dummy = st.dummy := ht₂.dummy.trans ht₁.dummy
  refine ⟨st₂, par', ?_, ?_, hd₂, ht₂.size.trans ht₁.size, ht₂.next.trans ht₁.next,
    fun b hb => ?_, hl, hnl⟩
  · simp [AssocRbTree.transplant, hud, hu, hup, h₁, h₂]
  · have hp₂ : RepPath st₂ p (rootAddr st.dummy B) := by
      refine hp₁.congr hr₂ ht₂.dummy fun b hb => ht₂.heap b ?_
      rw [List.mem_cons]
      rintro (rfl | hbB)
      · exact hd.2 hb
      · exact hdisj b hbB b hb rfl
    obtain ⟨htree, hroot⟩ := repTree_plug.2 ⟨by rw [hd₂]; rwa [hd₂] at hB₂, by rwa [hd₂]⟩
    exact {
      tree := htree
      root := hroot
      nodup := by
        rw [(addrs_plug.cons _).nodup_iff, hd₂]
        exact hnd
      sentinel := hs₂
      dummy := rfl
      size := rfl
      next := rfl
      elsewhere := fun _ _ => rfl }
  · simp only [List.mem_cons, List.mem_append, not_or] at hb
    rw [ht₂.heap b (by simpa using ⟨hb.1, hb.2.1⟩), ht₁.heap b hb.2.2]

/-- The subtree `B` becomes the missing child of a node. -/
theorem attach_spec (h : Represents e st (plug (mkNode s c .leaf a A) p) par)
    (hB : RepTree st.dummy st.heap d' B) (hne : B ≠ .leaf)
    (hnd : (st.dummy :: (addrs B ++ addrs (plug (mkNode s c .leaf a A) p))).Nodup) :
    ∃ st₁ st', st.modify a.addr (·.setChild s (rootAddr st.dummy B)) = some st₁ ∧
      st₁.modify (rootAddr st.dummy B) (·.setParent a.addr) = some st' ∧
      Represents st' st' (plug (mkNode s c B a A) p) par ∧ st'.dummy = st.dummy ∧
      st'.size = st.size ∧ st'.next = st.next ∧
      ∀ b, b ∉ a.addr :: addrs B → st'.heap b = st.heap b := by
  obtain ⟨htree, hpath⟩ := h.plug
  obtain ⟨ha, -, hA⟩ := repTree_mkNode.1 htree
  rw [rootAddr_mkNode] at hpath
  have hperm : (addrs (plug (mkNode s c .leaf a A) p)).Perm
      (a.addr :: (addrs A ++ pathAddrs p)) :=
    (addrs_plug).trans ((addrs_mkNode (A := (.leaf : RbTree (Cell κ ν)))).append_right _)
  have hnd' := ((hperm.append_left (addrs B)).cons st.dummy).nodup_iff.mp hnd
  obtain ⟨hd, hnd''⟩ := List.nodup_cons.mp hnd'
  simp only [List.mem_append, List.mem_cons, not_or] at hd
  obtain ⟨hndB, hndr, hdisj⟩ := List.nodup_append.mp hnd''
  obtain ⟨har, hnAp⟩ := List.nodup_cons.mp hndr
  simp only [List.mem_append, not_or] at har
  have haB : a.addr ∉ addrs B := fun hm => hdisj _ hm _ List.mem_cons_self rfl
  obtain ⟨st₁, h₁, hr₁, ht₁, hw₁⟩ :=
    modify_spec (g := (·.setChild s (rootAddr st.dummy B))) ha
  have hheap₁ : ∀ b, b ≠ a.addr → st₁.heap b = st.heap b := fun b hb =>
    ht₁.heap b (by simpa using hb)
  have hB₁ : RepTree st₁.dummy st₁.heap d' B := by
    rw [ht₁.dummy]
    exact hB.congr fun b hb => hheap₁ b fun h => haB (h ▸ hb)
  obtain ⟨st', h', hr', ht', hB'⟩ := reparent_spec a.addr hB₁
    (by rw [ht₁.dummy]; exact List.nodup_cons.mpr ⟨hd.1, hndB⟩)
  have hroot : rootAddr st.dummy B ≠ st.dummy := by
    rcases rootAddr_mem (d := st.dummy) (t := B) with hl | hm
    · exact absurd hl hne
    · exact fun h => hd.1 (h ▸ hm)
  rw [ht₁.dummy, if_neg hroot] at h'
  have hd' : st'.dummy = st.dummy := ht'.dummy.trans ht₁.dummy
  have hheap : ∀ b, b ≠ a.addr → b ∉ addrs B → st'.heap b = st.heap b := fun b hb hbB =>
    (ht'.heap b hbB).trans (hheap₁ b hb)
  refine ⟨st₁, st', h₁, h', ?_, hd', ht'.size.trans ht₁.size, ht'.next.trans ht₁.next,
    fun b hb => ?_⟩
  · have hdisj' : ∀ b ∈ addrs A ++ pathAddrs p, b ≠ a.addr ∧ b ∉ addrs B := by
      intro b hb
      refine ⟨?_, fun hbB => hdisj b hbB b (List.mem_cons_of_mem _ hb) rfl⟩
      rintro rfl
      exact (List.mem_append.mp hb).elim har.1 har.2
    obtain ⟨htree', hroot'⟩ := (repTree_plug (t := mkNode s c B a A) (p := p)).mpr
      ⟨by
        rw [repTree_mkNode, ht'.heap _ haB, hw₁, hd', cellNode_setChild]
        rw [hd'] at hB'
        exact ⟨rfl, hB', hA.congr fun b hb => hheap b (hdisj' b (by simp [hb])).1
          (hdisj' b (by simp [hb])).2⟩,
      by
        rw [rootAddr_mkNode]
        exact hpath.congr (hr'.trans hr₁) hd' fun b hb => hheap b (hdisj' b (by simp [hb])).1
          (hdisj' b (by simp [hb])).2⟩
    have hsen : st.dummy ≠ a.addr := fun h => hd.2.1 h
    exact {
      tree := htree'
      root := hroot'
      nodup := by
        have hperm' : (addrs (plug (mkNode s c B a A) p)).Perm
            (addrs B ++ (a.addr :: (addrs A ++ pathAddrs p))) := by
          refine (addrs_plug).trans ((addrs_mkNode.append_right _).trans ?_)
          rw [List.cons_append, List.append_assoc]
          exact List.perm_middle.symm
        rw [(hperm'.cons _).nodup_iff, hd']
        exact hnd'
      sentinel := by rw [hd', hheap _ hsen hd.1, h.sentinel]
      dummy := rfl
      size := rfl
      next := rfl
      elsewhere := fun _ _ => rfl }
  · simp only [List.mem_cons, not_or] at hb
    exact hheap b hb.1 hb.2

end NrStack
