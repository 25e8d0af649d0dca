import Mathlib.Data.List.Basic
import Mathlib.Data.List.Nodup

/-!
# Lists with keys

A list whose elements have different keys, as code keeps it that looks for the first element with a
key : `place` replaces that element or puts a new one in front, `List.eraseP` takes it out. With
different keys both are said by the elements there are afterwards (`mem_place`, `mem_erase`).
-/

namespace NrStack

namespace Keyed

variable {α κ : Type*} [DecidableEq κ] {key : α → κ} {x y : α} {k : κ} {l : List α}

/-- Replace the first element with the key of `x`, or put `x` in front. -/
def place (key : α → κ) (x : α) (l : List α) : List α :=
  if (l.find? (key · = key x)).isSome then
    l.replaceF fun y => if key y = key x then some x else none
  else x :: l

theorem key_of_find (h : l.find? (key · = k) = some x) : x ∈ l ∧ key x = k :=
  ⟨List.mem_of_find?_eq_some h, by simpa using List.find?_some h⟩

theorem find_eq_none_iff : l.find? (key · = k) = none ↔ ∀ y ∈ l, key y ≠ k := by
  simp

/-- With different keys, an element is the one that is found. -/
theorem find_of_mem (hl : (l.map key).Nodup) (hx : x ∈ l) : l.find? (key · = key x) = some x := by
  cases h : l.find? (key · = key x) with
  | none => exact absurd rfl (find_eq_none_iff.1 h x hx)
  | some y =>
    obtain ⟨hy, hkey⟩ := key_of_find h
    rw [List.inj_on_of_nodup_map hl hy hx hkey]

theorem replaceF_eq_map : ∀ {l : List α}, (l.map key).Nodup →
    (l.replaceF fun y => if key y = k then some x else none) =
      l.map fun y => if key y = k then x else y
  | [], _ => rfl
  | y :: l, hl => by
    rw [List.map_cons, List.nodup_cons] at hl
    by_cases hy : key y = k
    · simp only [List.replaceF_cons, List.map_cons, if_pos hy]
      refine congrArg (x :: ·) ((List.map_id l).symm.trans (List.map_congr_left fun z hz => ?_))
      rw [if_neg fun h => hl.1 (List.mem_map.2 ⟨z, hz, h.trans hy.symm⟩), id_eq]
    · simp only [List.replaceF_cons, List.map_cons, if_neg hy, replaceF_eq_map hl.2]

theorem mem_place (hl : (l.map key).Nodup) :
    y ∈ place key x l ↔ y = x ∨ y ∈ l ∧ key y ≠ key x := by
  rw [place]
  split_ifs with hsome
  · obtain ⟨z, hfind⟩ := Option.isSome_iff_exists.1 hsome
    obtain ⟨hz, hkey⟩ := key_of_find hfind
    rw [replaceF_eq_map hl, List.mem_map]
    constructor
    · rintro ⟨w, hw, rfl⟩
      split_ifs with h
      · exact .inl rfl
      · exact .inr ⟨hw, h⟩
    · rintro (rfl | ⟨hy, hne⟩)
      · exact ⟨z, hz, if_pos hkey⟩
      · exact ⟨y, hy, if_neg hne⟩
  · have hnone := find_eq_none_iff.1 (Option.not_isSome_iff_eq_none.1 hsome)
    rw [List.mem_cons]
    exact or_congr_right ⟨fun hy => ⟨hy, hnone y hy⟩, And.left⟩

theorem nodup_place (hl : (l.map key).Nodup) : ((place key x l).map key).Nodup := by
  rw [place]
  split_ifs with hsome
  · have hkeys : (l.map fun y => if key y = key x then x else y).map key = l.map key := by
      rw [List.map_map]
      refine List.map_congr_left fun y _ => ?_
      rw [Function.comp_apply]
      split_ifs with h
      · exact h.symm
      · rfl
    rw [replaceF_eq_map hl, hkeys]
    exact hl
  · have hnone := find_eq_none_iff.1 (Option.not_isSome_iff_eq_none.1 hsome)
    rw [List.map_cons, List.nodup_cons]
    refine ⟨fun h => ?_, hl⟩
    obtain ⟨y, hy, hkey⟩ := List.mem_map.1 h
    exact hnone y hy hkey

theorem mem_erase : ∀ {l : List α}, (l.map key).Nodup →
    (y ∈ l.eraseP (key · = k) ↔ y ∈ l ∧ key y ≠ k)
  | [], _ => by simp
  | z :: l, hl => by
    rw [List.map_cons, List.nodup_cons] at hl
    by_cases hz : key z = k
    · rw [List.eraseP_cons_of_pos (by simpa using hz), List.mem_cons]
      constructor
      · exact fun hy => ⟨.inr hy, fun h => hl.1 (List.mem_map.2 ⟨y, hy, h.trans hz.symm⟩)⟩
      · rintro ⟨rfl | hy, hne⟩
        · exact absurd hz hne
        · exact hy
    · rw [List.eraseP_cons_of_neg (by simpa using hz), List.mem_cons, List.mem_cons,
        mem_erase hl.2]
      constructor
      · rintro (rfl | ⟨hy, hne⟩)
        · exact ⟨.inl rfl, hz⟩
        · exact ⟨.inr hy, hne⟩
      · rintro ⟨rfl | hy, hne⟩
        · exact .inl rfl
        · exact .inr ⟨hy, hne⟩

end Keyed

end NrStack
