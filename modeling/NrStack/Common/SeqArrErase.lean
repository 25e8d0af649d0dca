import NrStack.Flexric.SeqArr

/-!
# Erasing with a free function

`common/utils/ds/seq_arr.c` grows, shrinks and moves elements as `seq_arr.c` of FlexRIC does, so it
is the same `SeqArr`. Its `seq_arr_erase_it` also takes a function that is called with the elements
before they are erased. The loop declares `start_it` and `end_it` anew, from the front to the end, so
the function is called with all elements, and not with those of the range (`eraseIt_frees_iff`).

As long as only the whole array is erased with a free function, and no array shrinks into a block
that is too small, the array holds its list (`seqArrErase_runs`).
-/

namespace NrStack

/-! ## The code -/

namespace SeqArr

/-- The elements the loop calls `free_func` with, from `seq_arr_front` to `seq_arr_end`. -/
def freeElements (arr : SeqArr) : List Nat :=
  List.range arr.size

/-- `seq_arr_erase_it`, with the places of the elements that `free_func` is called with. What
follows the loop is `erase`, which makes the same checks. -/
def eraseIt (arr : SeqArr) (i j : Nat) (freeFunc : Bool) : Except SeqArrFault (SeqArr × List Nat) :=
  if j < i then .error .assertion
  else if i = j then return (arr, [])
  else do
    let freed := if freeFunc then arr.freeElements else []
    let arr ← arr.erase i j
    return (arr, freed)

/-- `seq_arr_erase_deep`, and `seq_arr_erase` without a function. -/
def eraseDeep (arr : SeqArr) (i : Nat) (freeFunc : Bool) : Except SeqArrFault (SeqArr × List Nat) :=
  arr.eraseIt i (i + 1) freeFunc

end SeqArr

/-- Pushes and erasures that `ok` admits, from an empty array, and the list they make. -/
inductive SeqArrItRun (ok : SeqArr → Nat → Nat → Bool → Prop) (eltSize : Nat) :
    SeqArr → List (List UInt8) → Prop
  | init {arr : SeqArr} (hop : SeqArr.init eltSize = .ok arr) : SeqArrItRun ok eltSize arr []
  | push {arr arr' : SeqArr} {l : List (List UInt8)} {elt : List UInt8}
      (h : SeqArrItRun ok eltSize arr l) (hop : arr.pushBack elt = .ok arr') :
      SeqArrItRun ok eltSize arr' (l ++ [elt])
  | erase {arr arr' : SeqArr} {l : List (List UInt8)} {i j : Nat} {freeFunc : Bool}
      {freed : List Nat} (h : SeqArrItRun ok eltSize arr l) (hij : i ≤ j) (hj : j ≤ l.length)
      (hok : i < j → ok arr i j freeFunc) (hop : arr.eraseIt i j freeFunc = .ok (arr', freed)) :
      SeqArrItRun ok eltSize arr' (l.take i ++ l.drop j)

/-- The erasure is one that `EraseFits`, and with a free function it is one of everything. -/
structure EraseItFits (arr : SeqArr) (i j : Nat) (freeFunc : Bool) : Prop where
  fits : EraseFits arr i j
  all : freeFunc → i = 0 ∧ j = arr.size

/-! ## What fails for want of memory only -/

theorem load_ends (off n : Nat) (b : List UInt8) :
    EndsIn (· = .outOfBlock) (fun _ => True) (load off n b) := by
  unfold load
  split_ifs
  · trivial
  · rfl

theorem store_ends (off : Nat) (xs b : List UInt8) :
    EndsIn (· = .outOfBlock) (fun _ => True) (store SeqArrFault.outOfBlock off xs b) := by
  unfold store
  split_ifs
  · trivial
  · rfl

theorem calloc_of_lt {n : Nat} (h : n < 2 ^ 63) : calloc n = .ok (List.replicate n 0) :=
  if_pos h

theorem realloc_of_lt {b : List UInt8} {n : Nat} (h : n < 2 ^ 63) :
    realloc b n = .ok (b.take n ++ List.replicate (n - b.length) 0) :=
  if_pos h

/-- A result that can neither fail in one way nor in the other. -/
theorem EndsIn.exists_ok {α : Type} {P Q : α → Prop} {r : Except SeqArrFault α}
    (h : EndsIn (· = .assertion) P r) (h' : EndsIn (· = .outOfBlock) Q r) :
    ∃ a, r = .ok a ∧ P a := by
  cases r with
  | ok a => exact ⟨a, rfl, h⟩
  | error fault =>
    cases (show fault = .assertion from h).symm.trans (show fault = .outOfBlock from h')

namespace SeqArrInv

variable {arr : SeqArr} {l : List (List UInt8)} {i j : Nat}

theorem maybeShrink_ends (hcap : ∃ k, arr.cap = 2 ^ (k + 3))
    (hroom : arr.cap / 2 * (arr.cap / 2) < 2 ^ 63) :
    EndsIn (· = .outOfBlock) (fun _ => True) arr.maybeShrink := by
  unfold SeqArr.maybeShrink
  split_ifs with hsparse h8
  · have hlt := lt_of_sparse_of_cap hcap hsparse
    omega
  · have hlt := lt_of_sparse_of_cap hcap hsparse
    dsimp only
    rw [calloc_of_lt hroom]
    refine EndsIn.bind (P := fun _ => True) trivial fun data _ => ?_
    rw [if_neg (by omega)]
    refine (load_ends ..).bind fun _ _ => ?_
    refine (store_ends ..).bind fun _ _ => ?_
    trivial
  · trivial

/-- A push of an element fails only when there is no memory for a larger block. -/
theorem pushBack_ok (h : SeqArrInv arr l) {elt : List UInt8} (helt : elt.length = arr.eltSize)
    (hroom : 2 * arr.cap * arr.eltSize < 2 ^ 63) : ∃ arr', arr.pushBack elt = .ok arr' := by
  have hends : EndsIn (· = .outOfBlock) (fun _ => True) (arr.pushBack elt) := by
    unfold SeqArr.pushBack
    rw [if_neg (not_not.2 helt)]
    refine EndsIn.bind (P := fun _ => True) ?_ fun _ _ => ?_
    · unfold SeqArr.maybeExpand
      rw [realloc_of_lt hroom]
      split_ifs
      · trivial
      · trivial
    · refine (store_ends ..).bind fun _ _ => ?_
      trivial
  obtain ⟨arr', harr', -⟩ := (h.pushBack elt).exists_ok hends
  exact ⟨arr', harr'⟩

/-- An erasure fails only when there is no memory for a smaller block. -/
theorem erase_ok (h : SeqArrInv arr l) (hij : i < j) (hj : j ≤ l.length)
    (hfits : EraseFits arr i j) (hroom : arr.cap / 2 * (arr.cap / 2) < 2 ^ 63) :
    ∃ arr', arr.erase i j = .ok arr' := by
  have hends : EndsIn (· = .outOfBlock) (fun _ => True) (arr.erase i j) := by
    rw [h.erase_eq hij hj hfits]
    refine (load_ends ..).bind fun _ _ => ?_
    refine (store_ends ..).bind fun _ _ => ?_
    refine (store_ends ..).bind fun _ _ => ?_
    exact maybeShrink_ends h.cap_eq hroom
  obtain ⟨arr', harr', -⟩ := (h.erase hij.le hj fun _ => hfits).exists_ok hends
  exact ⟨arr', harr'⟩

end SeqArrInv

/-! ## What is freed -/

section

variable {arr arr' : SeqArr} {l : List (List UInt8)} {i j : Nat} {freeFunc : Bool}
  {freed : List Nat}

/-- The elements of the array are those of the range only if it is all of it. -/
theorem range_perm_range' {n : Nat} (hij : i < j) (hj : j ≤ n) :
    (List.range n).Perm (List.range' i (j - i)) ↔ i = 0 ∧ j = n := by
  constructor
  · intro hperm
    have hlen := hperm.length_eq
    rw [List.length_range, List.length_range'] at hlen
    omega
  · rintro ⟨rfl, rfl⟩
    rw [List.range_eq_range', Nat.sub_zero]

/-- `seq_arr_erase_it` is `erase`, and frees all elements or none. -/
theorem SeqArr.eraseIt_eq (hij : i < j) (hop : arr.eraseIt i j freeFunc = .ok (arr', freed)) :
    arr.erase i j = .ok arr' ∧ freed = if freeFunc then List.range arr.size else [] := by
  unfold SeqArr.eraseIt at hop
  rw [if_neg hij.not_gt, if_neg hij.ne] at hop
  obtain ⟨arr₁, herase, hpure⟩ := exists_of_bind_ok hop
  cases hpure
  exact ⟨herase, rfl⟩

theorem SeqArr.eraseIt_self (hop : arr.eraseIt i i freeFunc = .ok (arr', freed)) :
    arr' = arr ∧ freed = [] := by
  unfold SeqArr.eraseIt at hop
  rw [if_neg (lt_irrefl i), if_pos rfl] at hop
  cases hop
  exact ⟨rfl, rfl⟩

/-- The free function is called once with each element of the range, and with no other, exactly when
everything is erased. -/
theorem eraseIt_frees_iff (hij : i < j) (hj : j ≤ arr.size)
    (hop : arr.eraseIt i j true = .ok (arr', freed)) :
    freed.Perm (List.range' i (j - i)) ↔ i = 0 ∧ j = arr.size := by
  obtain ⟨-, rfl⟩ := SeqArr.eraseIt_eq hij hop
  exact range_perm_range' hij hj

/-! ## Runs -/

theorem SeqArrItRun.toRun {ok : SeqArr → Nat → Nat → Bool → Prop}
    {ok' : SeqArr → Nat → Nat → Prop} (hok : ∀ arr i j freeFunc, ok arr i j freeFunc → ok' arr i j)
    {eltSize : Nat} (h : SeqArrItRun ok eltSize arr l) : SeqArrRun ok' eltSize arr l := by
  induction h with
  | init hop => exact .init hop
  | push _ hop ih => exact .push ih hop
  | @erase arr arr' l i j freeFunc freed _ hij hj hfits hop ih =>
    rcases Nat.eq_or_lt_of_le hij with rfl | hlt
    · obtain ⟨rfl, -⟩ := SeqArr.eraseIt_self hop
      rwa [List.take_append_drop]
    · obtain ⟨herase, -⟩ := SeqArr.eraseIt_eq hlt hop
      exact .erase ih hij hj (fun _ => hok _ _ _ _ (hfits hlt)) herase

/-- As long as all erasures meet the condition, the array holds its list with a place left, the block
has room for the capacity, no operation writes outside of it or fails while there is memory, and an
erasure frees the elements of its range, each once, or none. -/
theorem seqArrErase_runs {eltSize : Nat} (hpos : 1 ≤ eltSize)
    (h : SeqArrItRun EraseItFits eltSize arr l) :
    arr.contents = l ∧ arr.size = l.length ∧ arr.size < arr.cap ∧
      arr.cap * eltSize ≤ arr.data.length ∧
      (∀ elt, arr.pushBack elt ≠ .error .outOfBlock ∧ (elt.length = eltSize →
        2 * arr.cap * eltSize < 2 ^ 63 → ∃ arr', arr.pushBack elt = .ok arr')) ∧
      ∀ i j freeFunc, i ≤ j → j ≤ l.length → (i < j → EraseItFits arr i j freeFunc) →
        arr.eraseIt i j freeFunc ≠ .error .outOfBlock ∧
        (arr.cap / 2 * (arr.cap / 2) < 2 ^ 63 → ∃ r, arr.eraseIt i j freeFunc = .ok r) ∧
        ∀ arr' freed, arr.eraseIt i j freeFunc = .ok (arr', freed) →
          freed.Perm (if freeFunc then List.range' i (j - i) else []) := by
  have hrun : SeqArrRun EraseFits eltSize arr l := h.toRun fun _ _ _ _ hfits => hfits.fits
  obtain ⟨hinv, rfl⟩ := hrun.inv hpos
  refine ⟨hinv.contents, hinv.size_eq, hinv.size_lt, hinv.cap_le, fun elt => ⟨fun herr => ?_,
    fun helt hroom => hinv.pushBack_ok helt hroom⟩, fun i j freeFunc hij hj hfits => ?_⟩
  · exact absurd ((hinv.pushBack elt).of_error herr) (by decide)
  rcases Nat.eq_or_lt_of_le hij with rfl | hlt
  · -- the empty range
    have hnop : arr.eraseIt i i freeFunc = .ok (arr, []) := by
      unfold SeqArr.eraseIt
      rw [if_neg (lt_irrefl i), if_pos rfl]
      rfl
    refine ⟨by rw [hnop]; exact fun h => (nomatch h), fun _ => ⟨_, hnop⟩, fun arr' freed hop => ?_⟩
    obtain ⟨-, rfl⟩ := SeqArr.eraseIt_self hop
    simp
  have hbind : arr.eraseIt i j freeFunc = (do
      let arr' ← arr.erase i j
      return (arr', if freeFunc then arr.freeElements else [])) := by
    unfold SeqArr.eraseIt
    rw [if_neg hlt.not_gt, if_neg hlt.ne]
  refine ⟨fun herr => ?_, fun hroom => ?_, fun arr' freed hop => ?_⟩
  · have hends : EndsIn (· = .assertion) (fun _ => True) (arr.eraseIt i j freeFunc) := by
      rw [hbind]
      exact (hinv.erase hij hj fun _ => (hfits hlt).fits).bind fun _ _ => trivial
    exact absurd (hends.of_error herr) (by decide)
  · obtain ⟨arr', harr'⟩ := hinv.erase_ok hlt hj (hfits hlt).fits hroom
    rw [hbind, harr']
    exact ⟨_, rfl⟩
  · obtain ⟨-, rfl⟩ := SeqArr.eraseIt_eq hlt hop
    cases freeFunc with
    | false => exact List.Perm.refl []
    | true =>
      obtain ⟨hi, hall⟩ := (hfits hlt).all rfl
      exact (range_perm_range' hlt (hinv.size_eq ▸ hj)).2 ⟨hi, hall⟩

theorem SeqArrRun.toIt {ok : SeqArr → Nat → Nat → Bool → Prop} {eltSize : Nat}
    (h : SeqArrRun (fun _ _ _ => False) eltSize arr l) : SeqArrItRun ok eltSize arr l := by
  induction h with
  | init hop => exact .init hop
  | push _ hop ih => exact .push ih hop
  | @erase arr arr' l i j _ hij _ hfalse hop ih =>
    obtain rfl : i = j := (Nat.eq_or_lt_of_le hij).resolve_right hfalse
    unfold SeqArr.erase at hop
    rw [if_neg (lt_irrefl i), if_pos rfl] at hop
    cases hop
    rwa [List.take_append_drop]

end

/-- Two elements of two bytes. -/
def twoElements : SeqArr :=
  ⟨[1, 2, 1, 2] ++ List.replicate 12 0, 2, 2, 8⟩

theorem twoElements_run {ok : SeqArr → Nat → Nat → Bool → Prop} :
    SeqArrItRun ok 2 twoElements [[1, 2], [1, 2]] :=
  (@pushTimes_run twoElements _ [1, 2] 2 rfl).toIt

/-- Both are erased with a free function. -/
theorem seqArrErase_runs_two : twoElements.contents = [[1, 2], [1, 2]] ∧
    ∀ arr' freed, twoElements.eraseIt 0 2 true = .ok (arr', freed) → freed.Perm [0, 1] := by
  have hruns := seqArrErase_runs (by decide) twoElements_run
  have hfits : EraseItFits twoElements 0 2 true :=
    ⟨⟨by decide, by decide, by decide⟩, fun _ => ⟨rfl, rfl⟩⟩
  exact ⟨hruns.1, (hruns.2.2.2.2.2 0 2 true (by decide) (by decide) fun _ => hfits).2.2⟩

/-- The first one is erased with a free function, and both are freed. -/
theorem not_eraseIt_frees : ¬∀ eltSize arr l i j arr' freed, 1 ≤ eltSize →
    SeqArrItRun (fun _ _ _ _ => True) eltSize arr l → i ≤ j → j ≤ l.length →
      arr.eraseIt i j true = .ok (arr', freed) → freed.Perm (List.range' i (j - i)) := by
  intro h
  have hfreed : (twoElements.eraseIt 0 1 true).toOption.map (fun r => r.2) = some [0, 1] := by
    decide +kernel
  cases hop : twoElements.eraseIt 0 1 true with
  | error e => simp [hop, Except.toOption] at hfreed
  | ok r =>
    have hperm := h 2 twoElements [[1, 2], [1, 2]] 0 1 r.1 r.2 (by decide) twoElements_run
      (by decide) (by decide) hop
    simp only [hop, Except.toOption, Option.map_some, Option.some.injEq] at hfreed
    rw [hfreed] at hperm
    exact absurd hperm.length_eq (by decide)

end NrStack
