import Mathlib.Tactic

/-!
# Insertion into a sorted linked list

`insertBefore p x l` puts `x` in front of the first element of `l` that satisfies `p`,
at the end if there is none : the loop with a trailing `prev` pointer. If `p` says which
elements `x` has to come before, a sorted list stays sorted.
-/

namespace NrStack

variable {α : Type*} {R : α → α → Prop} {p : α → Prop} [DecidablePred p] {x : α}

/-- Put `x` in front of the first element of the list that satisfies `p`. -/
def insertBefore (p : α → Prop) [DecidablePred p] (x : α) : List α → List α
  | [] => [x]
  | c :: l => if p c then x :: c :: l else c :: insertBefore p x l

theorem insertBefore_perm : ∀ l : List α, (insertBefore p x l).Perm (x :: l)
  | [] => .refl _
  | c :: l => by
    unfold insertBefore
    split_ifs
    · exact .refl _
    · exact ((insertBefore_perm l).cons c).trans (.swap x c l)

@[simp] theorem mem_insertBefore {l : List α} {a : α} :
    a ∈ insertBefore p x l ↔ a = x ∨ a ∈ l := by
  rw [(insertBefore_perm l).mem_iff, List.mem_cons]

theorem insertBefore_ne_nil (l : List α) : insertBefore p x l ≠ [] := by
  intro h
  have : x ∈ insertBefore p x l := by simp
  simp [h] at this

/-- A sorted list stays sorted if `p` marks the elements above `x` and the others are
below it. -/
theorem pairwise_insertBefore (htrans : ∀ a b c, R a b → R b c → R a c) :
    ∀ {l : List α}, l.Pairwise R → (∀ c ∈ l, p c → R x c) → (∀ c ∈ l, ¬p c → R c x) →
      (insertBefore p x l).Pairwise R
  | [], _, _, _ => by simp [insertBefore]
  | c :: l, hl, hp, hn => by
    obtain ⟨hc, hl'⟩ := List.pairwise_cons.1 hl
    unfold insertBefore
    split_ifs with h
    · refine List.pairwise_cons.2 ⟨fun d hd => ?_, hl⟩
      rcases List.mem_cons.1 hd with rfl | hd
      · exact hp _ (by simp) h
      · exact htrans _ c _ (hp c (by simp) h) (hc d hd)
    · refine List.pairwise_cons.2 ⟨fun d hd => ?_, pairwise_insertBefore htrans hl'
        (fun d hd => hp d (by simp [hd])) fun d hd => hn d (by simp [hd])⟩
      rcases mem_insertBefore.1 hd with rfl | hd
      · exact hn c (by simp) h
      · exact hc d hd

/-- With nothing above `x` it goes to the end. -/
theorem insertBefore_of_forall_not : ∀ {l : List α}, (∀ c ∈ l, ¬p c) →
    insertBefore p x l = l ++ [x]
  | [], _ => rfl
  | c :: l, h => by
    rw [insertBefore, if_neg (h c (by simp)), insertBefore_of_forall_not fun d hd =>
      h d (by simp [hd]), List.cons_append]

/-- With the last element above `x` it goes somewhere before it. -/
theorem getLast?_insertBefore : ∀ {l : List α} {c : α}, l.getLast? = some c → p c →
    (insertBefore p x l).getLast? = some c
  | [], _, h, _ => by simp at h
  | [d], c, h, hc => by
    obtain rfl : d = c := by simpa using h
    simp [insertBefore, hc]
  | d :: e :: l, c, h, hc => by
    unfold insertBefore
    split_ifs
    · simpa using h
    · have ih := getLast?_insertBefore (by simpa using h : (e :: l).getLast? = some c) hc
      rw [List.getLast?_cons, ih]
      rfl

end NrStack
