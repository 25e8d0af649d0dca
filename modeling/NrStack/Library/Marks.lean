import Mathlib.Data.BitVec
import Mathlib.Logic.Function.Basic

/-!
# Cells with marks

Every cell of a map holds a word of marks, a bit for each use of the cell. A grant takes some bits
of some cells. Whoever checks that the bits are free before marking them gets grants that are
disjoint from one another and from the marks there were (`Held.grant`).
-/

namespace NrStack

variable {ι : Type*} {w : Nat}

/-- The marks of the cells. -/
abbrev Marks (ι : Type*) (w : Nat) :=
  ι → BitVec w

/-- Bits of cells. -/
structure Grant (ι : Type*) (w : Nat) where
  cells : List ι
  bits : BitVec w

/-- Two grants share no bit of a cell. -/
def Grant.Apart (g h : Grant ι w) : Prop :=
  ∀ i ∈ g.cells, i ∈ h.cells → g.bits &&& h.bits = 0

theorem Grant.Apart.symm {g h : Grant ι w} (hgh : g.Apart h) : h.Apart g := fun i hi hig => by
  rw [BitVec.and_comm]
  exact hgh i hig hi

namespace Marks

/-- The bits of the grant are unmarked. -/
def Free (m : Marks ι w) (g : Grant ι w) : Prop :=
  ∀ i ∈ g.cells, m i &&& g.bits = 0

/-- Mark one cell. -/
def set [DecidableEq ι] (bits : BitVec w) (m : Marks ι w) (i : ι) : Marks ι w :=
  Function.update m i (m i ||| bits)

/-- Mark the cells of a grant, one after the other. -/
def mark [DecidableEq ι] (m : Marks ι w) (g : Grant ι w) : Marks ι w :=
  g.cells.foldl (set g.bits) m

theorem foldl_set [DecidableEq ι] (bits : BitVec w) :
    ∀ (cells : List ι) (m : Marks ι w) (i : ι),
      cells.foldl (set bits) m i = if i ∈ cells then m i ||| bits else m i
  | [], m, i => rfl
  | c :: cells, m, i => by
    rw [List.foldl_cons, foldl_set bits cells]
    by_cases hc : i = c
    · subst hc
      rw [set, Function.update_self, if_pos List.mem_cons_self, BitVec.or_assoc, BitVec.or_self,
        ite_self]
    · rw [set, Function.update_of_ne hc]
      simp only [List.mem_cons, hc, false_or]

theorem mark_apply [DecidableEq ι] (m : Marks ι w) (g : Grant ι w) (i : ι) :
    m.mark g i = if i ∈ g.cells then m i ||| g.bits else m i :=
  foldl_set g.bits g.cells m i

theorem mark_grows [DecidableEq ι] (m : Marks ι w) (g : Grant ι w) (i : ι) :
    ∃ x, m.mark g i = m i ||| x := by
  rw [mark_apply]
  split_ifs
  · exact ⟨g.bits, rfl⟩
  · exact ⟨0, BitVec.or_zero.symm⟩

end Marks

/-! ## Grants that hold their marks -/

/-- The grants given since the marks were `first` : apart from one another and from `first`, with
all their bits marked. -/
structure Held (first m : Marks ι w) (grants : List (Grant ι w)) : Prop where
  grows : ∀ i, first i &&& m i = first i
  marked : ∀ g ∈ grants, ∀ i ∈ g.cells, g.bits &&& m i = g.bits
  apart : grants.Pairwise Grant.Apart
  fresh : ∀ g ∈ grants, first.Free g

/-- A marked bit stays marked. -/
theorem and_or_of_and {a b c : BitVec w} (h : a &&& b = a) : a &&& (b ||| c) = a := by
  rw [BitVec.and_or_distrib_left, h]
  ext i hi
  simp only [BitVec.getElem_or, BitVec.getElem_and]
  cases a[i] <;> rfl

/-- What is within the marks is apart from what is free. -/
theorem and_eq_zero_of_and {a b c : BitVec w} (h : a &&& b = a) (hc : b &&& c = 0) :
    a &&& c = 0 := by
  rw [← h, BitVec.and_assoc, hc]
  exact BitVec.and_zero

namespace Held

variable {first m : Marks ι w} {grants : List (Grant ι w)}

theorem nil (first : Marks ι w) : Held first first [] :=
  ⟨fun _ => BitVec.and_self, fun _ h => absurd h List.not_mem_nil, .nil,
    fun _ h => absurd h List.not_mem_nil⟩

/-- More marks. -/
theorem of_grows {m' : Marks ι w} (h : Held first m grants) (hm : ∀ i, ∃ x, m' i = m i ||| x) :
    Held first m' grants := by
  refine ⟨fun i => ?_, fun g hg i hi => ?_, h.apart, h.fresh⟩
  · obtain ⟨x, hx⟩ := hm i
    rw [hx, and_or_of_and (h.grows i)]
  · obtain ⟨x, hx⟩ := hm i
    rw [hx, and_or_of_and (h.marked g hg i hi)]

/-- A grant of free bits. -/
theorem grant [DecidableEq ι] {g : Grant ι w} (h : Held first m grants) (hg : m.Free g) :
    Held first (m.mark g) (g :: grants) := by
  have hgrows := h.of_grows (m.mark_grows g)
  refine ⟨hgrows.grows, ?_, ?_, ?_⟩
  · intro k hk i hi
    obtain rfl | hk := List.mem_cons.1 hk
    · rw [Marks.mark_apply, if_pos hi, BitVec.or_comm]
      exact and_or_of_and BitVec.and_self
    · exact hgrows.marked k hk i hi
  · refine List.pairwise_cons.2 ⟨fun k hk i hi hik => ?_, h.apart⟩
    rw [BitVec.and_comm]
    exact and_eq_zero_of_and (h.marked k hk i hik) (hg i hi)
  · intro k hk
    obtain rfl | hk := List.mem_cons.1 hk
    · exact fun i hi => and_eq_zero_of_and (h.grows i) (hg i hi)
    · exact h.fresh k hk

/-- Marks that are nobody's grant. -/
theorem mark [DecidableEq ι] (h : Held first m grants) (g : Grant ι w) :
    Held first (m.mark g) grants :=
  h.of_grows (m.mark_grows g)

end Held

end NrStack
