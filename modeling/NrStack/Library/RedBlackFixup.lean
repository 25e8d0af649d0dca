import Mathlib
import NrStack.Library.RedBlack

/-!
# The fix-ups of a red-black tree

`insertFixup` repairs a red node under a red parent, `deleteFixup` a subtree that is
one black node short. Each takes the subtree and the path above it and returns the
whole tree; `none` is a sibling that is missing or has the wrong colour, which
`insertFixup_spec` and `deleteFixup_spec` exclude. Both keep the in-order list.
-/

namespace NrStack

open RbTree

variable {α : Type*} {f g : Frame α} {p q : RbPath α} {x z t : RbTree α} {s : Side}
  {c : RbColor} {n : Nat}

/-- The colour, the two children and the element of a node, the side `s` first. -/
def RbTree.split (s : Side) : RbTree α → Option (RbColor × RbTree α × α × RbTree α)
  | leaf => none
  | node c l a r => some (c, (node c l a r).child s, a, (node c l a r).child s.opp)

@[simp] theorem split_mkNode {y : RbTree α} {a : α} :
    (mkNode s c x a y).split s = some (c, x, a, y) := by
  cases s <;> rfl

theorem eq_mkNode_of_split {y : RbTree α} {a : α} (h : t.split s = some (c, x, a, y)) :
    t = mkNode s c x a y := by
  cases t with
  | leaf => simp [split] at h
  | node c' l a' r =>
    simp only [split, Option.some.injEq, Prod.mk.injEq] at h
    obtain ⟨rfl, rfl, rfl, rfl⟩ := h
    exact node_eq_mkNode s

/-! ## Insertion -/

/-- The rotations below a black uncle : `z` is below `f`, `f` below `g`. -/
def insertRotate (z : RbTree α) (f g : Frame α) : Option (RbTree α) :=
  if f.side = g.side then
    some (mkNode g.side .black z f.elt (mkNode g.side .red f.sibling g.elt g.sibling))
  else do
    let (_, near, a, far) ← z.split g.side
    some (mkNode g.side .black (mkNode g.side f.color f.sibling f.elt near) a
      (mkNode g.side .red far g.elt g.sibling))

/-- Repair the red rule between `z` and the path. -/
def insertFixup : RbTree α → RbPath α → Option (RbTree α)
  | z, f :: g :: p =>
    if f.color = .red then
      if g.sibling.color = .red then
        insertFixup (mkNode g.side .red (f.fill z).blacken g.elt g.sibling.blacken) p
      else (insertRotate z f g).map (plug · p)
    else some (plug z (f :: g :: p))
  | z, p => some (plug z p)

/-- What the rotations leave : the same list under a black root. -/
theorem insertRotate_spec (hz : z.color = .red) (hok : z.RedOk) (hh : z.Height n)
    (hf : f.color = .red) (hfs : f.sibling.color = .black) (hfo : f.sibling.RedOk)
    (hfh : f.sibling.Height n) (hgs : g.sibling.color = .black) (hgo : g.sibling.RedOk)
    (hgh : g.sibling.Height n) :
    ∃ t, insertRotate z f g = some t ∧ t.color = .black ∧ t.RedOk ∧ t.Height (n + 1) ∧
      t.toList = (g.fill (f.fill z)).toList := by
  by_cases hs : f.side = g.side
  · refine ⟨_, if_pos hs, color_mkNode, ?_, ?_, ?_⟩
    · simp [redOk_mkNode, hok, hfs, hfo, hgs, hgo]
    · exact height_mkNode.2 ⟨n, hh, height_mkNode.2 ⟨n, hfh, hgh, rfl⟩, rfl⟩
    · rw [Frame.fill, Frame.fill, hs]
      exact (toList_rotate).symm
  · obtain ⟨near, a, far, rfl⟩ := exists_mkNode_of_red g.side hz
    obtain ⟨hcol, hno, hfo'⟩ := redOk_mkNode.1 hok
    obtain ⟨hnc, hfc⟩ := hcol rfl
    obtain ⟨m, hnh, hfh', hm⟩ := height_mkNode.1 hh
    obtain rfl : n = m := hm
    refine ⟨mkNode g.side .black (mkNode g.side f.color f.sibling f.elt near) a
      (mkNode g.side .red far g.elt g.sibling), ?_, color_mkNode, ?_, ?_, ?_⟩
    · simp [insertRotate, hs]
    · simp [redOk_mkNode, hfs, hfo, hgs, hgo, hnc, hfc, hno, hfo']
    · refine height_mkNode.2 ⟨n, height_mkNode.2 ⟨n, hfh, hnh, by simp [hf]⟩,
        height_mkNode.2 ⟨n, hfh', hgh, rfl⟩, rfl⟩
    · rw [Frame.fill, Frame.fill, Side.eq_opp_of_ne hs, mkNode_opp]
      cases g.side <;> simp [mkNode]

/-- The red rule and the black height hold after the fix-up of an insertion, up to the
colour of the root. -/
theorem insertFixup_spec (hz : z.color = .red) (hok : z.RedOk) (hh : z.Height n)
    (hp : HeightPath p n) (hr : RedOkPath p) (hroot : RootBlack p) :
    ∃ t, insertFixup z p = some t ∧ t.RedOk ∧ (∃ m, t.Height m) ∧
      t.toList = (plug z p).toList := by
  induction z, p using insertFixup.induct generalizing n with
  | case1 z f g p hf hu ih =>
    obtain ⟨hfs, hgs, hp⟩ := hp
    obtain ⟨hfc, hfo, hgc, hgo, hr⟩ := hr
    have hg : g.color = .black := (hfc hf).2
    have hfill : (f.fill z).blacken.Height (n + 1) := by
      rw [Frame.fill, blacken_mkNode]
      simp only [hf, weight_red, Nat.add_zero] at hgs
      exact height_mkNode.2 ⟨n, hh, hfs, rfl⟩
    simp only [hf, weight_red, Nat.add_zero, hg, weight_black] at hgs hp
    obtain ⟨t, ht, hto, hth, htl⟩ := ih color_mkNode
      (redOk_mkNode.mpr ⟨fun _ => ⟨color_blacken, color_blacken⟩,
        by simp [Frame.fill, redOk_mkNode, hok, hfo], hgo.blacken⟩)
      (height_mkNode.mpr ⟨n + 1, hfill, hgs.blacken_of_red hu, rfl⟩) hp hr hroot.tail.tail
    refine ⟨t, by rw [insertFixup, if_pos hf, if_pos hu, ht], hto, hth, ?_⟩
    rw [htl, plug_cons, plug_cons]
    exact toList_plug_congr (toList_mkNode_congr toList_blacken toList_blacken)
  | case2 z f g p hf hu =>
    obtain ⟨hfs, hgs, hp⟩ := hp
    obtain ⟨hfc, hfo, hgc, hgo, hr⟩ := hr
    have hg : g.color = .black := (hfc hf).2
    have hub : g.sibling.color = .black := by
      cases h : g.sibling.color <;> simp_all
    simp only [hf, weight_red, Nat.add_zero, hg, weight_black] at hgs hp
    obtain ⟨t, ht, htc, hto, hth, htl⟩ :=
      insertRotate_spec hz hok hh hf (hfc hf).1 hfo hfs hub hgo hgs
    refine ⟨plug t p, by rw [insertFixup, if_pos hf, if_neg hu, ht]; rfl,
      redOk_plug.2 ⟨hto, hr, fun _ => htc⟩, height_plug.2 ⟨n + 1, hth, hp⟩, ?_⟩
    exact toList_plug_congr htl
  | case3 z f g p hf =>
    refine ⟨_, by rw [insertFixup, if_neg hf], redOk_plug.2 ⟨hok, hr, fun h => absurd h hf⟩,
      height_plug.2 ⟨n, hh, hp⟩, rfl⟩
  | case4 z p hnot =>
    refine ⟨_, insertFixup.eq_2 z p hnot, redOk_plug.2 ⟨hok, hr, fun h => ?_⟩,
      height_plug.2 ⟨n, hh, hp⟩, rfl⟩
    -- the only frame is the root, which is black
    cases p with
    | nil => simp at h
    | cons f p =>
      cases p with
      | nil => exact absurd (h.symm.trans hroot) (by simp)
      | cons g p => exact absurd rfl (hnot f g p)

/-! ## Deletion -/

/-- One level of the repair below a black sibling : whether the missing black node moved
up, and the subtree that takes the place of the frame. -/
def siblingFix (x : RbTree α) (f : Frame α) : Option (Bool × RbTree α) := do
  let (w, near, a, far) ← f.sibling.split f.side
  if w = .red then none
  else if near.color = .black ∧ far.color = .black then
    some (true, mkNode f.side f.color x f.elt (mkNode f.side .red near a far))
  else if far.color = .black then do
    let (_, u, b, v) ← near.split f.side
    some (false, mkNode f.side f.color (mkNode f.side .black x f.elt u) b
      (mkNode f.side .black v a far))
  else
    some (false, mkNode f.side f.color (mkNode f.side .black x f.elt near) a far.blacken)

/-- Repair the black height, with `x` one black node short. -/
def deleteFixup : RbTree α → RbPath α → Option (RbTree α)
  | x, [] => some x.blacken
  | x, f :: p =>
    if x.color = .red then some (plug x.blacken (f :: p))
    else if f.sibling.color = .red then do
      -- a red sibling is rotated away first, and the frame is red after that
      let (_, near, a, far) ← f.sibling.split f.side
      let (up, t) ← siblingFix x ⟨f.side, .red, f.elt, near⟩
      if up then some (plug t.blacken (⟨f.side, .black, a, far⟩ :: p))
      else some (plug t (⟨f.side, .black, a, far⟩ :: p)).blacken
    else do
      let (up, t) ← siblingFix x f
      if up then deleteFixup t p else some (plug t p).blacken

theorem siblingFix_spec (hok : x.RedOk) (hh : x.Height n)
    (hs : f.sibling.Height (n + 1)) (hso : f.sibling.RedOk) (hsc : f.sibling.color = .black) :
    ∃ up t, siblingFix x f = some (up, t) ∧ t.color = f.color ∧ t.blacken.RedOk ∧
      t.toList = (f.fill x).toList ∧ (up = true → t.Height (n + weight f.color)) ∧
      (up = false → t.RedOk ∧ t.Height (n + 1 + weight f.color)) := by
  obtain ⟨s, d, e, w⟩ := f
  obtain ⟨cw, near, a, far, rfl⟩ := exists_mkNode_of_height_succ s hs
  simp only [color_mkNode] at hsc
  subst hsc
  obtain ⟨m, hnh, hfh, hm⟩ := height_mkNode.1 hs
  obtain rfl : n = m := by simpa using hm
  obtain ⟨-, hno, hfo⟩ := redOk_mkNode.1 hso
  simp only [Frame.fill]
  by_cases hboth : near.color = .black ∧ far.color = .black
  · refine ⟨true, mkNode s d x e (mkNode s .red near a far), ?_, color_mkNode, ?_, ?_, ?_, ?_⟩
    · simp [siblingFix, hboth]
    · simp [redOk_mkNode, hok, hno, hfo, hboth]
    · exact toList_mkNode_congr rfl (toList_mkNode_congr rfl rfl)
    · exact fun _ => height_mkNode.2 ⟨n, hh, height_mkNode.2 ⟨n, hnh, hfh, rfl⟩, rfl⟩
    · exact fun h => by simp at h
  by_cases hfar : far.color = .black
  · have hnear : near.color = .red := by
      cases h : near.color <;> simp_all
    obtain ⟨u, b, v, rfl⟩ := exists_mkNode_of_red s hnear
    obtain ⟨huv, huo, hvo⟩ := redOk_mkNode.1 hno
    obtain ⟨m, huh, hvh, hm⟩ := height_mkNode.1 hnh
    obtain rfl : n = m := hm
    have hred : (mkNode s d (mkNode s .black x e u) b (mkNode s .black v a far)).RedOk := by
      simp [redOk_mkNode, hok, huo, hvo, hfo]
    refine ⟨false, _, ?_, color_mkNode, hred.blacken, ?_, fun h => by simp at h,
      fun _ => ⟨hred, ?_⟩⟩
    · simp [siblingFix, hfar]
    · cases s <;> simp [mkNode]
    · exact height_mkNode.2 ⟨n + 1, height_mkNode.2 ⟨n, hh, huh, rfl⟩,
        height_mkNode.2 ⟨n, hvh, hfh, rfl⟩, rfl⟩
  · have hfarr : far.color = .red := by
      cases h : far.color <;> simp_all
    have hred : (mkNode s d (mkNode s .black x e near) a far.blacken).RedOk := by
      simp [redOk_mkNode, hok, hno, hfo.blacken]
    refine ⟨false, _, ?_, color_mkNode, hred.blacken, ?_, fun h => by simp at h,
      fun _ => ⟨hred, ?_⟩⟩
    · simp [siblingFix, hfar]
    · cases s <;> simp [mkNode]
    · exact height_mkNode.2 ⟨n + 1, height_mkNode.2 ⟨n, hh, hnh, rfl⟩,
        hfh.blacken_of_red hfarr, rfl⟩

theorem isRb_blacken (ho : t.RedOk) (hh : ∃ m, t.Height m) : t.blacken.IsRb :=
  ⟨color_blacken, ho.blacken, hh.elim fun _ h => h.blacken⟩

/-- The fix-up of a deletion ends in a red-black tree with the same in-order list. -/
theorem deleteFixup_spec (hok : x.blacken.RedOk) (hh : x.Height n) (hp : HeightPath p (n + 1))
    (hr : RedOkPath p) (hroot : RootBlack p) :
    ∃ t, deleteFixup x p = some t ∧ t.IsRb ∧ t.toList = (plug x p).toList := by
  induction p generalizing x n with
  | nil => exact ⟨x.blacken, rfl, ⟨color_blacken, hok, hh.blacken⟩, toList_blacken⟩
  | cons f p ih =>
    have hp' := hp
    have hr' := hr
    obtain ⟨hs, hp⟩ := hp
    obtain ⟨hfc, hso, hr⟩ := hr
    by_cases hx : x.color = .red
    · refine ⟨_, if_pos hx, ⟨color_plug hroot (by simp), redOk_plug.2
        ⟨hok, hr', fun _ => color_blacken⟩, height_plug.2 ⟨_, hh.blacken_of_red hx, hp'⟩⟩, ?_⟩
      exact toList_plug_congr toList_blacken
    have hxb : x.color = .black := by
      cases h : x.color <;> simp_all
    rw [blacken_eq hxb] at hok
    by_cases hsr : f.sibling.color = .red
    · have hfb : f.color = .black := by
        cases h : f.color with
        | black => rfl
        | red => exact absurd (hsr.symm.trans (hfc h).1) (by simp)
      obtain ⟨s, d, e, w⟩ := f
      obtain ⟨near, a, far, rfl⟩ := exists_mkNode_of_red s hsr
      simp only at hfb hs hso
      subst hfb
      obtain ⟨hnc, hno, hfo⟩ := redOk_mkNode.1 hso
      obtain ⟨m, hnh, hfh, hm⟩ := height_mkNode.1 hs
      obtain rfl : n + 1 = m := hm
      obtain ⟨up, t, ht, htc, hto, htl, hup, hdone⟩ :=
        siblingFix_spec (f := ⟨s, .red, e, near⟩) hok hh hnh hno (hnc rfl).1
      have hpath : HeightPath (⟨s, .black, a, far⟩ :: p) (n + 1) := ⟨hfh, hp⟩
      have hrpath : RedOkPath (⟨s, .black, a, far⟩ :: p) := ⟨fun h => by simp at h, hfo, hr⟩
      have hrb : RootBlack (⟨s, .black, a, far⟩ :: p) := by
        cases p with
        | nil => rfl
        | cons g p => exact hroot
      have hlist : (plug t (⟨s, .black, a, far⟩ :: p)).toList =
          (plug x (⟨s, .black, e, mkNode s .red near a far⟩ :: p)).toList := by
        rw [plug_cons, plug_cons]
        refine toList_plug_congr ?_
        simp only [Frame.fill] at htl ⊢
        exact (toList_mkNode_congr (d := .black) htl rfl).trans toList_rotate
      simp only [deleteFixup, if_neg hx, color_mkNode, if_true, split_mkNode, ht,
        Option.bind_eq_bind, Option.bind_some]
      cases up with
      | true =>
        refine ⟨_, rfl, ⟨color_plug hrb (by simp), redOk_plug.2
          ⟨hto, hrpath, fun _ => color_blacken⟩, height_plug.2
          ⟨n + 1, (hup rfl).blacken_of_red htc, hpath⟩⟩, ?_⟩
        rw [toList_plug_congr toList_blacken, hlist]
      | false =>
        obtain ⟨htr, hth⟩ := hdone rfl
        refine ⟨_, rfl, isRb_blacken (redOk_plug.mpr ⟨htr, hrpath, fun h => by simp at h⟩)
          (height_plug.mpr ⟨_, hth, hpath⟩), ?_⟩
        rw [toList_blacken, hlist]
    · have hsb : f.sibling.color = .black := by
        cases h : f.sibling.color <;> simp_all
      obtain ⟨up, t, ht, htc, hto, htl, hup, hdone⟩ := siblingFix_spec hok hh hs hso hsb
      have hlist : (plug t p).toList = (plug x (f :: p)).toList := toList_plug_congr htl
      simp only [deleteFixup, if_neg hx, if_neg hsr, ht, Option.bind_eq_bind, Option.bind_some]
      cases up with
      | true =>
        have hp2 : HeightPath p (n + weight f.color + 1) := by
          rwa [show n + weight f.color + 1 = n + 1 + weight f.color by omega]
        obtain ⟨t', ht', hrb, htl'⟩ := ih hto (hup rfl) hp2 hr hroot.tail
        exact ⟨t', ht', hrb, htl'.trans hlist⟩
      | false =>
        obtain ⟨htr, hth⟩ := hdone rfl
        refine ⟨_, rfl, isRb_blacken (redOk_plug.mpr ⟨htr, hr, fun hpc => ?_⟩)
          (height_plug.mpr ⟨_, hth, hp⟩), ?_⟩
        · cases hf : f.color with
          | black => exact htc.trans hf
          | red => exact absurd (hpc.symm.trans (hfc hf).2) (by simp)
        · rw [toList_blacken, hlist]

end NrStack
