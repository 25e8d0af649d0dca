import NrStack.Flexric.BiMap

/-!
# Comparators and RIC ids

The comparators of the maps compare one field after the other (`cmpField`), so each one is
a comparator for `IsCmp.field`. `RicGenId` is the id of a request to an E2 node.
-/

namespace NrStack

/-! ## Comparators -/

/-- The comparison of one field in the chains of the comparators : the smaller value goes
first, and equal values leave the decision to the rest. -/
def cmpField {α : Type} (f : α → Nat) (rest : α → α → Int) (m0 m1 : α) : Int :=
  if f m0 < f m1 then 1 else if f m0 > f m1 then -1 else rest m0 m1

section cmpField

variable {α : Type} {f : α → Nat} {rest : α → α → Int}

theorem isCmp_zero : IsCmp fun _ _ : α => 0 where
  range _ _ := Or.inr (Or.inr rfl)
  symm _ _ := by decide
  trans _ _ _ _ _ := by decide

theorem IsCmp.field (h : IsCmp rest) (f : α → Nat) : IsCmp (cmpField f rest) where
  range a b := by
    unfold cmpField
    split
    · exact Or.inl rfl
    · split
      · exact Or.inr (Or.inl rfl)
      · exact h.range a b
  symm a b := by
    unfold cmpField
    rcases lt_trichotomy (f a) (f b) with hab | hab | hab
    · simp [hab, hab.not_gt]
    · simp [hab, h.symm a b]
    · simp [hab, hab.not_gt]
  trans a b c := by
    have hne : ∀ x y : α, cmpField f rest x y ≠ -1 ↔
        f x < f y ∨ f x = f y ∧ rest x y ≠ -1 := by
      intro x y
      unfold cmpField
      rcases lt_trichotomy (f x) (f y) with hxy | hxy | hxy
      · simp [hxy]
      · simp [hxy]
      · simp [hxy, hxy.not_gt, hxy.ne']
    rw [hne, hne, hne]
    rintro (hab | ⟨hab, hr⟩) (hbc | ⟨hbc, hr'⟩)
    · exact Or.inl (hab.trans hbc)
    · exact Or.inl (hab.trans_eq hbc)
    · exact Or.inl (hab.trans_lt hbc)
    · exact Or.inr ⟨hab.trans hbc, h.trans _ _ _ hr hr'⟩

theorem cmpField_eq_zero {m0 m1 : α} : cmpField f rest m0 m1 = 0 ↔
    f m0 = f m1 ∧ rest m0 m1 = 0 := by
  unfold cmpField
  rcases lt_trichotomy (f m0) (f m1) with h | h | h
  · simp [h, h.ne]
  · simp [h]
  · simp [h, h.not_gt, h.ne']

theorem IsCmp.flip (h : IsCmp rest) : IsCmp fun a b => rest b a where
  range a b := h.range b a
  symm a b := h.symm b a
  trans a b c hab hbc := h.trans _ _ _ hbc hab

theorem IsCmp.comap {β : Type} (h : IsCmp rest) (g : β → α) :
    IsCmp fun a b => rest (g a) (g b) where
  range a b := h.range _ _
  symm a b := h.symm _ _
  trans a b c := h.trans _ _ _

end cmpField

/-! ## RIC ids -/

/-- `ric_gen_id_t` -/
structure RicGenId where
  ricReqId : Nat
  ricInstId : Nat
  ranFuncId : Nat
  deriving DecidableEq

def eqRicGenId (m0 m1 : RicGenId) : Bool :=
  m0.ricReqId = m1.ricReqId ∧ m0.ricInstId = m1.ricInstId ∧ m0.ranFuncId = m1.ranFuncId

def cmpRicGenId : RicGenId → RicGenId → Int :=
  cmpField RicGenId.ranFuncId (cmpField RicGenId.ricInstId (cmpField RicGenId.ricReqId
    fun _ _ => 0))

theorem isCmp_ricGenId : IsCmp cmpRicGenId :=
  ((isCmp_zero.field _).field _).field _

theorem eqRicGenId_iff {m0 m1 : RicGenId} : eqRicGenId m0 m1 = true ↔ m0 = m1 := by
  obtain ⟨r0, n0, f0⟩ := m0
  obtain ⟨r1, n1, f1⟩ := m1
  simp [eqRicGenId]

/-- Only equal ids have the same rank. -/
theorem cmpRicGenId_eq_zero {m0 m1 : RicGenId} : cmpRicGenId m0 m1 = 0 ↔ m0 = m1 := by
  obtain ⟨r0, n0, f0⟩ := m0
  obtain ⟨r1, n1, f1⟩ := m1
  simp only [cmpRicGenId, cmpField_eq_zero, RicGenId.mk.injEq, and_true]
  tauto

/-- `cmp_fd` -/
def cmpFd : Nat → Nat → Int :=
  cmpField id fun _ _ => 0

theorem isCmp_fd : IsCmp cmpFd :=
  (isCmp_zero).field _

theorem cmpFd_eq_zero {fd₁ fd₂ : Nat} : cmpFd fd₁ fd₂ = 0 ↔ fd₁ = fd₂ := by
  simp [cmpFd, cmpField_eq_zero]

end NrStack
