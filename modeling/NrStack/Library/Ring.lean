import Mathlib.Tactic

/-!
# Circular buffers

`n` slots, of which `length` from `start` on are used, with the indices modulo `n`. Its
contents are the list of the used slots : `push` appends to it, `pop` drops its head, and
neither overwrites a used slot.
-/

namespace NrStack

/-- A circular buffer. The number of slots is a parameter of its functions. -/
structure Ring (α : Type*) where
  slots : Nat → α
  start : Nat
  length : Nat

namespace Ring

variable {α : Type*} {n : Nat} {r : Ring α} {x : α} {i j : Nat}

/-- The index of the `j`-th used slot. -/
def slot (n : Nat) (r : Ring α) (j : Nat) : Nat :=
  (r.start + j) % n

/-- The used slots, in order. -/
def contents (n : Nat) (r : Ring α) : List α :=
  (List.range r.length).map fun j => r.slots (r.slot n j)

/-- Write the first free slot. -/
def push (n : Nat) (x : α) (r : Ring α) : Ring α :=
  { r with slots := Function.update r.slots (r.slot n r.length) x, length := r.length + 1 }

/-- Free the first used slot. -/
def pop (n : Nat) (r : Ring α) : Ring α :=
  { r with start := (r.start + 1) % n, length := r.length - 1 }

/-- Indices are in range, and there are not more used slots than slots. -/
structure Valid (n : Nat) (r : Ring α) : Prop where
  start_lt : r.start < n
  length_le : r.length ≤ n

theorem slot_zero (h : r.Valid n) : r.slot n 0 = r.start :=
  Nat.mod_eq_of_lt h.start_lt

/-- Different slots have different indices. -/
theorem slot_inj (hi : i < n) (hj : j < n) (h : r.slot n i = r.slot n j) : i = j := by
  have hmod : i % n = j % n := Nat.ModEq.add_left_cancel' r.start h
  rwa [Nat.mod_eq_of_lt hi, Nat.mod_eq_of_lt hj] at hmod

/-- A used slot is not overwritten. -/
theorem slots_push (hn : r.length < n) (hj : j < r.length) :
    (r.push n x).slots (r.slot n j) = r.slots (r.slot n j) := by
  refine Function.update_of_ne (fun h => ?_) _ _
  have := slot_inj (hj.trans hn) hn h
  omega

theorem contents_push (hn : r.length < n) : (r.push n x).contents n = r.contents n ++ [x] := by
  have hused : ∀ j ∈ List.range r.length,
      (r.push n x).slots (r.slot n j) = r.slots (r.slot n j) := fun j hj =>
    slots_push hn (List.mem_range.1 hj)
  have hnew : (r.push n x).slots (r.slot n r.length) = x := Function.update_self ..
  calc (r.push n x).contents n
      = (List.range (r.length + 1)).map fun j => (r.push n x).slots (r.slot n j) := rfl
    _ = (List.range r.length).map (fun j => (r.push n x).slots (r.slot n j)) ++ [x] := by
        rw [List.range_succ, List.map_append, List.map_singleton, hnew]
    _ = r.contents n ++ [x] := by rw [List.map_congr_left hused, contents]

/-- Slots move to the front. -/
theorem slot_pop : (r.pop n).slot n j = r.slot n (j + 1) := by
  rw [slot, pop]
  dsimp only
  rw [Nat.mod_add_mod, slot]
  congr 1
  omega

theorem contents_pop (h : r.Valid n) (hpos : 0 < r.length) :
    r.contents n = r.slots r.start :: (r.pop n).contents n := by
  obtain ⟨m, hm⟩ : ∃ m, r.length = m + 1 := ⟨r.length - 1, by omega⟩
  have hlen : (r.pop n).length = m := by
    rw [pop]
    dsimp only
    omega
  rw [contents, contents, hm, hlen, List.range_succ_eq_map, List.map_cons, slot_zero h,
    List.map_map]
  congr 1
  refine List.map_congr_left fun j _ => ?_
  rw [Function.comp_apply, slot_pop]
  rfl

theorem length_contents : (r.contents n).length = r.length := by
  rw [contents, List.length_map, List.length_range]

theorem getElem?_contents (hj : j < r.length) :
    (r.contents n)[j]? = some (r.slots (r.slot n j)) := by
  rw [contents, List.getElem?_map, List.getElem?_range hj, Option.map_some]

/-- Other slots with the same values hold the same contents. -/
theorem contents_congr {m : Nat} {r' : Ring α} (hlen : r'.length = r.length)
    (hslots : ∀ j < r.length, r'.slots (r'.slot m j) = r.slots (r.slot n j)) :
    r'.contents m = r.contents n := by
  rw [contents, contents, hlen]
  exact List.map_congr_left fun j hj => hslots j (List.mem_range.1 hj)

/-- A ring that has moved on by `k` slots, whatever became of them. -/
theorem contents_drop {k : Nat} {r' : Ring α} (hlen : r'.length = r.length - k)
    (hslots : ∀ j < r.length - k, r'.slots (r'.slot n j) = r.slots (r.slot n (k + j))) :
    r'.contents n = (r.contents n).drop k := by
  refine List.ext_getElem? fun j => ?_
  rw [List.getElem?_drop]
  rcases Nat.lt_or_ge j (r.length - k) with hj | hj
  · rw [getElem?_contents (hlen ▸ hj), getElem?_contents (by omega), hslots j hj]
  · rw [List.getElem?_eq_none (by rw [length_contents]; omega),
      List.getElem?_eq_none (by rw [length_contents]; omega)]

theorem slot_lt (hn : 0 < n) : r.slot n j < n :=
  Nat.mod_lt _ hn

/-- The slot after a slot. -/
theorem slot_succ (hn : 0 < n) :
    r.slot n (j + 1) = if r.slot n j + 1 = n then 0 else r.slot n j + 1 := by
  have hnext : r.slot n (j + 1) = (r.slot n j + 1) % n := by
    rw [slot, slot, Nat.mod_add_mod, Nat.add_assoc]
  have hlt : r.slot n j < n := slot_lt hn
  rw [hnext]
  split_ifs with hend
  · rw [hend, Nat.mod_self]
  · exact Nat.mod_eq_of_lt (by omega)

/-- A slot, before and after the end. -/
theorem slot_eq (hstart : r.start < n) (hj : j ≤ n) :
    r.slot n j = if r.start + j < n then r.start + j else r.start + j - n := by
  rw [slot]
  split_ifs with hlt
  · exact Nat.mod_eq_of_lt hlt
  · rw [Nat.mod_eq_sub_mod (by omega), Nat.mod_eq_of_lt (by omega)]

theorem Valid.push (h : r.Valid n) (hn : r.length < n) : (r.push n x).Valid n :=
  ⟨h.start_lt, hn⟩

theorem Valid.pop (h : r.Valid n) : (r.pop n).Valid n :=
  ⟨Nat.mod_lt _ (Nat.zero_lt_of_lt h.start_lt), (Nat.sub_le _ _).trans h.length_le⟩

end Ring

end NrStack
