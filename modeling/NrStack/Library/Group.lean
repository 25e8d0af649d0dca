import Mathlib.Data.List.TakeWhile
import NrStack.Library.Insert

/-!
# Groups of a list sorted by a key

In a list sorted by the key `k` the elements with key `c` are next to each other. A loop
that looks for the first of them and goes on to the last one visits
`group p l`, where `p` tests for the key : that is `l.filter p` (`group_eq_filter`).
-/

namespace NrStack

variable {α : Type*} {k : α → Int} {p : α → Bool} {c : Int}

/-- The first element that satisfies `p` and the elements that follow while they do. -/
def group (p : α → Bool) (l : List α) : List α :=
  (l.dropWhile fun a => !p a).takeWhile p

/-- What follows the group. -/
def afterGroup (p : α → Bool) (l : List α) : List α :=
  (l.dropWhile fun a => !p a).dropWhile p

/-- A list is cut in three by its group. -/
theorem takeWhile_append_group_append (l : List α) :
    (l.takeWhile fun a => !p a) ++ group p l ++ afterGroup p l = l := by
  rw [List.append_assoc, group, afterGroup, List.takeWhile_append_dropWhile,
    List.takeWhile_append_dropWhile]

theorem group_eq_nil {l : List α} (h : ∀ a ∈ l, p a = false) : group p l = [] := by
  rw [group, List.dropWhile_eq_nil_iff.2 fun a ha => by simp [h a ha], List.takeWhile_nil]

/-- If what satisfies `p` comes first, `takeWhile` finds all of it. -/
theorem takeWhile_eq_filter : ∀ {l : List α}, (l.Pairwise fun a b => p b = true → p a = true) →
    l.takeWhile p = l.filter p
  | [], _ => rfl
  | a :: l, h => by
    obtain ⟨ha, h'⟩ := List.pairwise_cons.1 h
    cases hpa : p a with
    | true => simp [hpa, takeWhile_eq_filter h']
    | false =>
      have hall : ∀ b ∈ l, ¬p b = true := fun b hb hpb => by simp [ha b hb hpb] at hpa
      simp [hpa, List.filter_eq_nil_iff.2 hall]

/-- And `dropWhile` leaves the others. -/
theorem dropWhile_eq_filter : ∀ {l : List α}, (l.Pairwise fun a b => p b = true → p a = true) →
    l.dropWhile p = l.filter fun a => !p a
  | [], _ => rfl
  | a :: l, h => by
    obtain ⟨ha, h'⟩ := List.pairwise_cons.1 h
    cases hpa : p a with
    | true => simp [hpa, dropWhile_eq_filter h']
    | false =>
      have hall : ∀ b ∈ l, (!p b) = true := fun b hb => by
        by_contra hpb
        simp [ha b hb (by simpa using hpb)] at hpa
      simp [hpa, List.filter_eq_self.2 hall]

/-- In a sorted list with no key below `c` the group of `c` comes first. -/
theorem pairwise_of_le {l : List α} (hs : l.Pairwise fun a b => k a ≤ k b)
    (hp : ∀ a ∈ l, p a = true ↔ k a = c) (hc : ∀ a ∈ l, c ≤ k a) :
    l.Pairwise fun a b => p b = true → p a = true := by
  refine hs.imp_of_mem fun {a b} ha hb hab hpb => ?_
  have := hc a ha
  rw [hp b hb] at hpb
  rw [hp a ha]
  omega

/-- The group of a sorted list is all of the elements with its key. -/
theorem group_eq_filter : ∀ {l : List α}, (l.Pairwise fun a b => k a ≤ k b) →
    (∀ a ∈ l, p a = true ↔ k a = c) → group p l = l.filter p
  | [], _, _ => rfl
  | a :: l, hs, hp => by
    obtain ⟨ha, hs'⟩ := List.pairwise_cons.1 hs
    have hp' : ∀ b ∈ l, p b = true ↔ k b = c := fun b hb => hp b (by simp [hb])
    cases hpa : p a with
    | true =>
      have hkey := (hp a (by simp)).1 hpa
      have hfirst := pairwise_of_le hs' hp' fun b hb => hkey ▸ ha b hb
      simp [group, hpa, takeWhile_eq_filter hfirst]
    | false =>
      have ih := group_eq_filter hs' hp'
      simpa [group, hpa] using ih

theorem map_filter_append_filter (f : α → α) : ∀ {l : List α},
    (l.Pairwise fun a b => p b = true → p a = true) →
      (l.filter p).map f ++ (l.filter fun a => !p a) = l.map fun a => if p a then f a else a
  | [], _ => rfl
  | a :: l, h => by
    obtain ⟨ha, h'⟩ := List.pairwise_cons.1 h
    have ih := map_filter_append_filter f h'
    cases hpa : p a with
    | true => simp [hpa, ih]
    | false =>
      have hall : ∀ b ∈ l, ¬p b = true := fun b hb hpb => by simp [ha b hb hpb] at hpa
      rw [List.filter_eq_nil_iff.2 hall, List.map_nil, List.nil_append] at ih
      simp [hpa, List.filter_eq_nil_iff.2 hall, ih]

/-- Rewriting the group of a sorted list rewrites every element with its key. -/
theorem append_map_group_append (f : α → α) : ∀ {l : List α},
    (l.Pairwise fun a b => k a ≤ k b) → (∀ a ∈ l, p a = true ↔ k a = c) →
      (l.takeWhile fun a => !p a) ++ (group p l).map f ++ afterGroup p l =
        l.map fun a => if p a then f a else a
  | [], _, _ => rfl
  | a :: l, hs, hp => by
    obtain ⟨ha, hs'⟩ := List.pairwise_cons.1 hs
    have hp' : ∀ b ∈ l, p b = true ↔ k b = c := fun b hb => hp b (by simp [hb])
    cases hpa : p a with
    | true =>
      have hkey := (hp a (by simp)).1 hpa
      have hfirst := pairwise_of_le hs' hp' fun b hb => hkey ▸ ha b hb
      have hrest := map_filter_append_filter f hfirst
      rw [← takeWhile_eq_filter hfirst, ← dropWhile_eq_filter hfirst] at hrest
      simp [group, afterGroup, hpa, hrest]
    | false =>
      have ih := append_map_group_append f hs' hp'
      simpa [group, afterGroup, hpa] using ih

/-! ## Sums -/

/-- A filter keeps the sum of a nonnegative weight exactly if it drops only zeros. -/
theorem sum_filter_eq_iff {w : α → Int} : ∀ {l : List α}, (∀ a ∈ l, 0 ≤ w a) →
    ((l.map w).sum = ((l.filter p).map w).sum ↔ ∀ a ∈ l, p a = false → w a = 0) ∧
      ((l.filter p).map w).sum ≤ (l.map w).sum
  | [], _ => by simp
  | a :: l, h => by
    obtain ⟨ih, hle⟩ := sum_filter_eq_iff fun b hb => h b (List.mem_cons_of_mem _ hb)
    have ha := h a (by simp)
    cases hpa : p a with
    | true => simp [hpa, ih, hle]
    | false =>
      simp only [List.map_cons, List.sum_cons, List.filter_cons, hpa, Bool.false_eq_true, if_false,
        List.mem_cons, forall_eq_or_imp, forall_true_left]
      refine ⟨⟨fun heq => ⟨by omega, ih.1 (by omega)⟩, fun hall => ?_⟩, by omega⟩
      rw [hall.1, zero_add]
      exact ih.2 hall.2

/-! ## Filters of an insertion -/

theorem filter_insertBefore_of_neg {q : α → Prop} [DecidablePred q] {x : α} (hx : p x = false) :
    ∀ l : List α, (insertBefore q x l).filter p = l.filter p
  | [] => by simp [insertBefore, hx]
  | a :: l => by
    unfold insertBefore
    split_ifs
    · simp [hx]
    · simp [List.filter_cons, filter_insertBefore_of_neg hx l]

/-- Insertion into the group. If the tests `q` and `q'` agree on it, and everything after
the first element that satisfies `q` satisfies it too, filtering and inserting commute. -/
theorem filter_insertBefore {q q' : α → Prop} [DecidablePred q] [DecidablePred q'] {x : α}
    (hx : p x = true) : ∀ {l : List α}, (∀ a ∈ l, p a = true → (q a ↔ q' a)) →
      (l.Pairwise fun a b => q a → q b) →
        (insertBefore q x l).filter p = insertBefore q' x (l.filter p)
  | [], _, _ => by simp [insertBefore, hx]
  | a :: l, hq, hs => by
    obtain ⟨ha, hs'⟩ := List.pairwise_cons.1 hs
    have ih := filter_insertBefore hx (fun b hb => hq b (by simp [hb])) hs'
    by_cases hqa : q a
    · rw [insertBefore, if_pos hqa, List.filter_cons_of_pos (by simpa using hx)]
      cases hf : (a :: l).filter p with
      | nil => rfl
      | cons b l' =>
        have hb : b ∈ (a :: l).filter p := by rw [hf]; simp
        obtain ⟨hbl, hpb⟩ := List.mem_filter.1 hb
        have hqb : q b := by
          rcases List.mem_cons.1 hbl with rfl | hbl
          · exact hqa
          · exact ha b hbl hqa
        rw [insertBefore, if_pos ((hq b hbl hpb).1 hqb)]
    · rw [insertBefore, if_neg hqa]
      cases hpa : p a with
      | true =>
        have hq'a : ¬q' a := fun h => hqa ((hq a (by simp) hpa).2 h)
        rw [List.filter_cons_of_pos hpa, List.filter_cons_of_pos hpa, insertBefore,
          if_neg hq'a, ih]
      | false =>
        rw [List.filter_cons_of_neg (by simp [hpa]), List.filter_cons_of_neg (by simp [hpa]), ih]

end NrStack
