import Mathlib.Tactic

/-!
# SDUs to transmit and their segments

The data structures of `nr_rlc_sdu.c`. An `nr_rlc_sdu_t` is shared by its segments. What
is fixed in it from the first transmission on (its content, its SN) is copied into each
segment; its counters are in one `NrRlcSduEntry`, found by `id`, the address of the SDU.
An SDU that is freed leaves the heap. A segment has an address too, for the `end`
pointers of the lists.
-/

namespace NrStack

/-- `NR_SDU_MAX`. -/
def nrSduMax : Int :=
  16000

/-- `nr_rlc_sdu_t`, less its counters. -/
structure NrRlcSdu where
  /-- The address of the SDU : the number of SDUs created before it. -/
  id : Nat
  /-- `-1` until the first transmission. -/
  sn : Int
  upperLayerId : Int
  data : List UInt8
  size : Int
deriving DecidableEq, Repr

/-- An SDU of the heap with its counters. -/
structure NrRlcSduEntry where
  sdu : NrRlcSdu
  retxCount : Int
  /-- Incremented each time the SDU is segmented. -/
  refCount : Int
  /-- Incremented each time a segment is freed. -/
  freeCount : Int
deriving DecidableEq, Repr

/-- `nr_rlc_sdu_segment_t`. -/
structure NrRlcSduSegment where
  addr : Nat
  sdu : NrRlcSdu
  size : Int
  so : Int
  isFirst : Bool
  isLast : Bool
deriving DecidableEq, Repr

/-- `nr_rlc_new_sdu` : the segment that is the whole SDU. -/
def nrRlcNewSdu (id addr : Nat) (buffer : List UInt8) (upperLayerId : Int) : NrRlcSduSegment :=
  { addr
    sdu := { id, sn := -1, upperLayerId, data := buffer, size := buffer.length }
    size := buffer.length
    so := 0
    isFirst := true
    isLast := true }

/-- The heap entry of a new SDU. -/
def nrRlcNewSduEntry (sdu : NrRlcSdu) : NrRlcSduEntry :=
  { sdu, retxCount := -1, refCount := 1, freeCount := 0 }

/-- Update the SDU `id` of the heap. -/
def updateSdu (id : Nat) (f : NrRlcSduEntry → NrRlcSduEntry) (heap : List NrRlcSduEntry) :
    List NrRlcSduEntry :=
  heap.map fun d => if d.sdu.id = id then f d else d

/-- `nr_rlc_free_sdu_segment` : whether the SDU has been freed too. -/
def nrRlcFreeSduSegment (heap : List NrRlcSduEntry) (sdu : NrRlcSduSegment) :
    List NrRlcSduEntry × Bool :=
  match heap.find? fun d => d.sdu.id = sdu.sdu.id with
  | none => (heap, false)
  | some d =>
    if d.freeCount + 1 = d.refCount then (heap.filter fun d => d.sdu.id ≠ sdu.sdu.id, true)
    else (updateSdu sdu.sdu.id (fun d => { d with freeCount := d.freeCount + 1 }) heap, false)

/-- `nr_rlc_free_sdu_segment_list`. -/
def nrRlcFreeSduSegmentList (heap : List NrRlcSduEntry) (l : List NrRlcSduSegment) :
    List NrRlcSduEntry :=
  l.foldl (fun heap sdu => (nrRlcFreeSduSegment heap sdu).1) heap

/-- The list up to the segment at address `a`, `none` if there is none. -/
def cutAfter (a : Nat) : List NrRlcSduSegment → Option (List NrRlcSduSegment)
  | [] => none
  | g :: l => if g.addr = a then some [g] else (cutAfter a l).map (g :: ·)

/-- `nr_rlc_sdu_segment_list_append`. The new segment is linked after the one `listEnd`
points at, whatever followed that one; `none` is the dereference of a bad `listEnd`. -/
def nrRlcSduSegmentListAppend (list : List NrRlcSduSegment) (listEnd : Option Nat)
    (sdu : NrRlcSduSegment) : Option (List NrRlcSduSegment × Option Nat) :=
  match list, listEnd with
  | [], _ => some ([sdu], some sdu.addr)
  | _ :: _, none => none
  | list, some a => (cutAfter a list).map fun l => (l ++ [sdu], some sdu.addr)

/-! ## Lists with an end pointer -/

variable {l : List NrRlcSduSegment} {listEnd : Option Nat} {n : Nat} {g : NrRlcSduSegment}

/-- A list whose end pointer points at its last segment. The addresses of its segments
are distinct and below `n`, the next one to be allocated. -/
structure SegmentQueue (n : Nat) (l : List NrRlcSduSegment) (listEnd : Option Nat) : Prop where
  addr_nodup : (l.map (·.addr)).Nodup
  addr_lt : ∀ g ∈ l, g.addr < n
  end_eq : listEnd = l.getLast?.map (·.addr)

theorem cutAfter_getLast : ∀ {l : List NrRlcSduSegment} {g : NrRlcSduSegment},
    (l.map (·.addr)).Nodup → l.getLast? = some g → cutAfter g.addr l = some l
  | [], _, _, h => by simp at h
  | [a], g, _, h => by
    obtain rfl : a = g := by simpa using h
    simp [cutAfter]
  | a :: b :: l, g, hn, h => by
    have hlast : (b :: l).getLast? = some g := by simpa using h
    obtain ⟨ha, hn'⟩ := List.nodup_cons.1 hn
    have hne : a.addr ≠ g.addr := fun heq =>
      ha (List.mem_map.2 ⟨g, List.mem_of_getLast? hlast, heq.symm⟩)
    rw [cutAfter, if_neg hne, cutAfter_getLast hn' hlast, Option.map_some]

/-- A segment is found by its address. -/
theorem find?_addr (hn : (l.map (·.addr)).Nodup) (hg : g ∈ l) :
    l.find? (fun a => a.addr = g.addr) = some g := by
  cases hf : l.find? fun a => decide (a.addr = g.addr) with
  | none => simpa using List.find?_eq_none.1 hf g hg
  | some a =>
    have ha := List.find?_some hf
    rw [decide_eq_true_iff] at ha
    rw [List.inj_on_of_nodup_map hn (List.mem_of_find?_eq_some hf) hg ha]

namespace SegmentQueue

theorem nil : SegmentQueue n [] none :=
  ⟨by simp, by simp, rfl⟩

/-- Appending to such a list. -/
theorem append_eq (h : SegmentQueue n l listEnd) (sdu : NrRlcSduSegment) :
    nrRlcSduSegmentListAppend l listEnd sdu = some (l ++ [sdu], some sdu.addr) := by
  cases hl : l with
  | nil => rfl
  | cons a as =>
    obtain ⟨g, hg⟩ : ∃ g, l.getLast? = some g := by
      rw [hl]
      exact ⟨_, List.getLast?_eq_some_getLast (List.cons_ne_nil a as)⟩
    have hcut := cutAfter_getLast h.addr_nodup hg
    rw [h.end_eq, hg, Option.map_some]
    simp [nrRlcSduSegmentListAppend, ← hl, hcut]

theorem push (h : SegmentQueue n l listEnd) (hg : g.addr = n) :
    SegmentQueue (n + 1) (l ++ [g]) (some g.addr) := by
  refine ⟨?_, fun a ha => ?_, by simp⟩
  · rw [List.map_append, List.nodup_append']
    refine ⟨h.addr_nodup, by simp, ?_⟩
    simp only [List.map_cons, List.map_nil, List.disjoint_singleton, List.mem_map, not_exists,
      not_and]
    intro a ha
    have := h.addr_lt a ha
    omega
  · rcases List.mem_append.1 ha with ha | ha
    · exact (h.addr_lt a ha).trans (Nat.lt_succ_self n)
    · rw [List.mem_singleton.1 ha, hg]
      exact Nat.lt_succ_self n

theorem pop (h : SegmentQueue n (g :: l) listEnd) :
    SegmentQueue n l (if l = [] then none else listEnd) := by
  refine ⟨(List.nodup_cons.1 h.addr_nodup).2, fun a ha => h.addr_lt a (by simp [ha]), ?_⟩
  split_ifs with hl
  · simp [hl]
  · obtain ⟨a, as, rfl⟩ := List.exists_cons_of_ne_nil hl
    rw [h.end_eq]
    simp

theorem putBack (h : SegmentQueue n l listEnd) (hg : g.addr = n) :
    SegmentQueue (n + 1) (g :: l) (if listEnd = none then some g.addr else listEnd) := by
  refine ⟨?_, fun a ha => ?_, ?_⟩
  · rw [List.map_cons, List.nodup_cons]
    refine ⟨fun hmem => ?_, h.addr_nodup⟩
    obtain ⟨a, ha, heq⟩ := List.mem_map.1 hmem
    have := h.addr_lt a ha
    omega
  · rcases List.mem_cons.1 ha with rfl | ha
    · omega
    · exact (h.addr_lt a ha).trans (Nat.lt_succ_self n)
  · rw [h.end_eq]
    cases l with
    | nil => simp
    | cons a as => simp

/-- Removing a segment : the end moves to the one before if it was the last. -/
theorem remove {before after : List NrRlcSduSegment}
    (h : SegmentQueue n (before ++ g :: after) listEnd) :
    SegmentQueue n (before ++ after)
      (if listEnd = some g.addr then before.getLast?.map (·.addr) else listEnd) := by
  have hsub : (before ++ after).Sublist (before ++ g :: after) :=
    (List.sublist_cons_self g after).append_left before
  refine ⟨h.addr_nodup.sublist (hsub.map _), fun a ha => h.addr_lt a (hsub.subset ha), ?_⟩
  rw [h.end_eq]
  cases after with
  | nil => simp
  | cons a as =>
    obtain ⟨b, hb⟩ : ∃ b, (a :: as).getLast? = some b :=
      ⟨_, List.getLast?_eq_some_getLast (List.cons_ne_nil a as)⟩
    have hnodup := h.addr_nodup
    rw [List.map_append, List.map_cons] at hnodup
    have hne : b.addr ≠ g.addr := fun heq =>
      (List.nodup_cons.1 (List.nodup_append'.1 hnodup).2.1).1
        (heq ▸ List.mem_map_of_mem (List.mem_of_getLast? hb))
    rw [List.getLast?_append, List.getLast?_append, List.getLast?_cons_cons, hb]
    simp [hne]

end SegmentQueue

/-- The list around the first segment that satisfies `p`. -/
theorem exists_of_find {p : NrRlcSduSegment → Bool} (h : l.find? p = some g) :
    ∃ after, l = l.takeWhile (fun a => !p a) ++ g :: after ∧
      l.drop ((l.takeWhile fun a => !p a).length + 1) = after := by
  obtain ⟨hp, before, after, rfl, hbefore⟩ := List.find?_eq_some_iff_append.1 h
  have htake : (before ++ g :: after).takeWhile (fun a => !p a) = before := by
    rw [List.takeWhile_append_of_pos (by simpa using hbefore)]
    simp [hp]
  exact ⟨after, by rw [htake], by rw [htake]; simp⟩

end NrStack
