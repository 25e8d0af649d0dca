import Mathlib.Tactic

/-!
# Arrays that count themselves

An array of `n + 1` integers keeps a list of up to `n` in front, and in its last element the index
of the list's last entry, -1 for none. `Tally n a l` : the array `a` keeps `l`. As long as there is
room, pushing appends (`Tally.push`), and so does a loop that pushes what it does not skip
(`Tally.pushUnless`).
-/

namespace NrStack

/-- Access outside an array, or a failed assertion. -/
inductive ArrayFault
  | outOfBounds
  | assertion
deriving DecidableEq, Repr

/-- `a[i]`. -/
def fetch (a : List ℤ) (i : ℤ) : Except ArrayFault ℤ :=
  if 0 ≤ i ∧ i < a.length then .ok (a.getD i.toNat 0) else .error .outOfBounds

/-- `a[i] = v`. -/
def assign (a : List ℤ) (i v : ℤ) : Except ArrayFault (List ℤ) :=
  if 0 ≤ i ∧ i < a.length then .ok (a.set i.toNat v) else .error .outOfBounds

/-- Put a value behind the last one, and count it. -/
def tallyPush (n : ℕ) (a : List ℤ) (v : ℤ) : Except ArrayFault (List ℤ) := do
  let last ← fetch a n
  let a ← assign a (last + 1) v
  let last ← fetch a n
  assign a n (last + 1)

/-- Search the values that are counted. -/
def tallySearch (n : ℕ) (a : List ℤ) (v : ℤ) : Except ArrayFault Bool := do
  let last ← fetch a n
  (List.range (last + 1).toNat).anyM fun m =>
    if m < n + 1 then (· == v) <$> fetch a m else .error .assertion

/-- The array keeps the list. -/
structure Tally (n : ℕ) (a l : List ℤ) : Prop where
  length_eq : a.length = n + 1
  last_eq : a[n]? = some ((l.length : ℤ) - 1)
  keeps : ∀ i, i < l.length → a[i]? = l[i]?
  length_le : l.length ≤ n

theorem fetch_eq {a : List ℤ} {i : ℕ} {v : ℤ} (h : a[i]? = some v) : fetch a i = .ok v := by
  obtain ⟨hi, -⟩ := List.getElem?_eq_some_iff.1 h
  rw [fetch, if_pos ⟨Int.natCast_nonneg i, by exact_mod_cast hi⟩, Int.toNat_natCast,
    List.getD_eq_getElem?_getD, h, Option.getD_some]

theorem fetch_neg (a : List ℤ) {i : ℤ} (h : i < 0) : fetch a i = .error .outOfBounds := by
  rw [fetch, if_neg (by omega)]

theorem assign_eq {a : List ℤ} {i : ℕ} (v : ℤ) (h : i < a.length) :
    assign a i v = .ok (a.set i v) := by
  rw [assign, if_pos ⟨Int.natCast_nonneg i, by exact_mod_cast h⟩, Int.toNat_natCast]

/-- A search that does not fail. -/
theorem anyM_eq_any {ι ε : Type*} {p : ι → Except ε Bool} {q : ι → Bool} :
    ∀ {xs : List ι}, (∀ x ∈ xs, p x = .ok (q x)) → xs.anyM p = .ok (xs.any q)
  | [], _ => rfl
  | x :: xs, h => by
    rw [List.anyM_cons, h x List.mem_cons_self, List.any_cons]
    cases q x
    · exact anyM_eq_any fun y hy => h y (List.mem_cons_of_mem x hy)
    · rfl

/-- A loop that reads. -/
theorem mapM_eq_map {ι ε α : Type*} {p : ι → Except ε α} {q : ι → α} :
    ∀ {xs : List ι}, (∀ x ∈ xs, p x = .ok (q x)) → xs.mapM p = .ok (xs.map q)
  | [], _ => rfl
  | x :: xs, h => by
    rw [List.mapM_cons, h x List.mem_cons_self,
      mapM_eq_map fun y hy => h y (List.mem_cons_of_mem x hy)]
    rfl

namespace Tally

variable {n : ℕ} {a l : List ℤ}

/-- Nothing is kept yet. -/
theorem empty (n : ℕ) : Tally n (List.replicate (n + 1) (-1)) [] where
  length_eq := List.length_replicate
  last_eq := by
    rw [List.getElem?_replicate_of_lt n.lt_succ_self]
    rfl
  keeps i hi := absurd hi (Nat.not_lt_zero i)
  length_le := Nat.zero_le n

theorem fetch_last (h : Tally n a l) : fetch a n = .ok ((l.length : ℤ) - 1) :=
  fetch_eq h.last_eq

theorem fetch_of_lt (h : Tally n a l) {i : ℕ} (hi : i < l.length) : fetch a i = .ok l[i] :=
  fetch_eq (by rw [h.keeps i hi, List.getElem?_eq_getElem hi])

/-- With room left a value is appended. -/
theorem push (h : Tally n a l) (v : ℤ) (hroom : l.length < n) :
    ∃ a', tallyPush n a v = .ok a' ∧ Tally n a' (l ++ [v]) := by
  have hn : n < a.length := h.length_eq ▸ n.lt_succ_self
  have hlast : fetch (a.set l.length v) n = .ok ((l.length : ℤ) - 1) := by
    refine fetch_eq ?_
    rw [List.getElem?_set_ne hroom.ne, h.last_eq]
  refine ⟨(a.set l.length v).set n l.length, ?_, ?_⟩
  · unfold tallyPush
    simp only [h.fetch_last, bind, Except.bind, sub_add_cancel, hlast,
      assign_eq v (hroom.trans hn)]
    rw [assign_eq _ (by rwa [List.length_set])]
  · constructor
    · rw [List.length_set, List.length_set, h.length_eq]
    · rw [List.getElem?_set_self (by rwa [List.length_set]), List.length_append]
      simp
    · intro i hi
      rw [List.length_append, List.length_singleton] at hi
      rw [List.getElem?_set_ne (by omega)]
      rcases Nat.lt_succ_iff_lt_or_eq.1 hi with hlt | rfl
      · rw [List.getElem?_set_ne hlt.ne', h.keeps i hlt, List.getElem?_append_left hlt]
      · rw [List.getElem?_set_self (hroom.trans hn), List.getElem?_concat_length]
    · rw [List.length_append, List.length_singleton]
      exact hroom

/-- The search finds what is kept. -/
theorem search (h : Tally n a l) (v : ℤ) : tallySearch n a v = .ok (decide (v ∈ l)) := by
  have hstep : ∀ m ∈ List.range l.length, (if m < n + 1 then (· == v) <$> fetch a m
      else .error .assertion : Except ArrayFault Bool) = .ok (decide (l[m]? = some v)) := by
    intro m hm
    have hlt := List.mem_range.1 hm
    have hle := h.length_le
    have hvalue : (l[m] == v) = decide (l[m]? = some v) := by
      rw [Bool.eq_iff_iff, beq_iff_eq, decide_eq_true_iff, List.getElem?_eq_getElem hlt,
        Option.some_inj]
    rw [if_pos (by omega), h.fetch_of_lt hlt]
    exact congrArg Except.ok hvalue
  unfold tallySearch
  simp only [h.fetch_last, bind, Except.bind, sub_add_cancel, Int.toNat_natCast]
  rw [anyM_eq_any hstep, Except.ok.injEq, Bool.eq_iff_iff, List.any_eq_true, decide_eq_true_iff,
    List.mem_iff_getElem?]
  constructor
  · rintro ⟨m, -, hm⟩
    exact ⟨m, of_decide_eq_true hm⟩
  · rintro ⟨m, hm⟩
    exact ⟨m, List.mem_range.2 (List.getElem?_eq_some_iff.1 hm).1, decide_eq_true hm⟩

/-- A loop that pushes the values it does not skip. -/
theorem pushUnless {ι : Type*} {f : ι → ℤ} {skip : ι → Bool}
    {step : List ℤ → ι → Except ArrayFault (List ℤ)} (xs : List ι)
    (hstep : ∀ x ∈ xs, ∀ a, step a x = if skip x then .ok a else tallyPush n a (f x))
    (h : Tally n a l) (hroom : l.length + xs.length ≤ n) :
    ∃ a', xs.foldlM step a = .ok a' ∧ Tally n a' (l ++ (xs.filter fun x => !skip x).map f) := by
  induction xs generalizing a l with
  | nil => exact ⟨a, rfl, by simpa using h⟩
  | cons x xs ih =>
    have hrest : ∀ y ∈ xs, ∀ a, step a y = if skip y then .ok a else tallyPush n a (f y) :=
      fun y hy => hstep y (List.mem_cons_of_mem x hy)
    rw [List.length_cons] at hroom
    rw [List.foldlM_cons, hstep x List.mem_cons_self a]
    cases hskip : skip x
    · obtain ⟨a₁, hpush, h₁⟩ := h.push (f x) (by omega)
      obtain ⟨a', hloop, h'⟩ := ih hrest h₁ (by
        rw [List.length_append, List.length_singleton]
        omega)
      refine ⟨a', ?_, by simpa [hskip] using h'⟩
      rw [if_neg Bool.false_ne_true, hpush]
      exact hloop
    · obtain ⟨a', hloop, h'⟩ := ih hrest h (by omega)
      exact ⟨a', hloop, by simpa [hskip] using h'⟩

/-- A loop that pushes all values. -/
theorem pushAll {ι : Type*} {f : ι → ℤ} {step : List ℤ → ι → Except ArrayFault (List ℤ)}
    (xs : List ι) (hstep : ∀ x ∈ xs, ∀ a, step a x = tallyPush n a (f x)) (h : Tally n a l)
    (hroom : l.length + xs.length ≤ n) :
    ∃ a', xs.foldlM step a = .ok a' ∧ Tally n a' (l ++ xs.map f) := by
  have hnone : ∀ x ∈ xs, ∀ a, step a x =
      if (fun _ => false : ι → Bool) x then .ok a else tallyPush n a (f x) := by
    simpa using hstep
  obtain ⟨a', hloop, h'⟩ := h.pushUnless xs hnone hroom
  exact ⟨a', hloop, by simpa using h'⟩

end Tally

end NrStack
