import Mathlib.Tactic

/-!
# Cutting a list into pieces

A packet is a list of elements, one behind the other, each of which says how long it is. `next` cuts
off the first; `pieces` cuts as long as it can, and keeps what is left. If `next` shortens the list
the pieces are those that `next` gives (`pieces_of_some`, `pieces_of_none`), and a fact about a list
follows from the one about what the first piece leaves (`Shortens.induction`).

A walk that reads as it goes may come across a piece it must not touch. `Extent` is what it finds at
the start of a list, `Inside` that it gets to its end, and `inside_iff` that a function with these
extents, on a list at a time, meets what it should for exactly the lists it is inside.
-/

namespace NrStack

variable {α ε : Type*}

/-- What is left is shorter than what was there. -/
def Shortens (next : List α → Option (ε × List α)) : Prop :=
  ∀ ⦃bytes e rest⦄, next bytes = some (e, rest) → rest.length < bytes.length

/-- At most `n` pieces, and what is left. -/
def piecesUpTo (next : List α → Option (ε × List α)) : ℕ → List α → List ε × List α
  | 0, bytes => ([], bytes)
  | n + 1, bytes =>
    match next bytes with
    | none => ([], bytes)
    | some (e, rest) => (e :: (piecesUpTo next n rest).1, (piecesUpTo next n rest).2)

/-- All pieces, and what is left. -/
def pieces (next : List α → Option (ε × List α)) (bytes : List α) : List ε × List α :=
  piecesUpTo next bytes.length bytes

variable {next : List α → Option (ε × List α)} {bytes rest : List α} {e : ε}

theorem Shortens.piecesUpTo_eq (h : Shortens next) :
    ∀ {n m : ℕ} {bytes : List α}, bytes.length ≤ n → bytes.length ≤ m →
      piecesUpTo next n bytes = piecesUpTo next m bytes := by
  have hnil : next [] = none := by
    rcases hn : next [] with - | ⟨e, rest⟩
    · rfl
    · exact absurd (h hn) (Nat.not_lt_zero _)
  have hempty : ∀ n, piecesUpTo next n [] = ([], []) := by
    intro n
    cases n with
    | zero => rfl
    | succ n => simp [piecesUpTo, hnil]
  intro n
  induction n with
  | zero =>
    intro m bytes hn _
    rw [List.length_eq_zero_iff.1 (Nat.le_zero.1 hn), hempty, hempty]
  | succ n ih =>
    intro m bytes hn hm
    cases m with
    | zero => rw [List.length_eq_zero_iff.1 (Nat.le_zero.1 hm), hempty, hempty]
    | succ m =>
      rcases hnext : next bytes with - | ⟨e, rest⟩
      · simp [piecesUpTo, hnext]
      · have hrest := h hnext
        simp only [piecesUpTo, hnext, ih (show rest.length ≤ n by omega)
          (show rest.length ≤ m by omega)]

theorem pieces_of_none (hnext : next bytes = none) : pieces next bytes = ([], bytes) := by
  unfold pieces
  cases bytes.length with
  | zero => rfl
  | succ n => simp [piecesUpTo, hnext]

theorem Shortens.pieces_of_some (h : Shortens next) (hnext : next bytes = some (e, rest)) :
    pieces next bytes = (e :: (pieces next rest).1, (pieces next rest).2) := by
  have hrest := h hnext
  obtain ⟨n, hn⟩ : ∃ n, bytes.length = n + 1 := Nat.exists_eq_succ_of_ne_zero (by omega)
  have heq := h.piecesUpTo_eq (show rest.length ≤ n by omega) le_rfl
  simp only [pieces, hn, piecesUpTo, hnext, heq]

/-- Induction over the pieces of a list. -/
theorem Shortens.induction (h : Shortens next) {motive : List α → Prop}
    (stop : ∀ bytes, next bytes = none → motive bytes)
    (piece : ∀ bytes e rest, next bytes = some (e, rest) → motive rest → motive bytes)
    (bytes : List α) : motive bytes := by
  induction hn : bytes.length using Nat.strong_induction_on generalizing bytes with
  | h n ih =>
    rcases hnext : next bytes with - | ⟨e, rest⟩
    · exact stop bytes hnext
    · exact piece bytes e rest hnext (ih rest.length (hn ▸ h hnext) rest rfl)

/-! ## Walks that may go wrong -/

variable {σ τ ρ : Type*}

/-- What a walk finds : something it must not touch, its end, or a piece and a new state. -/
inductive Extent (σ : Type*)
  | outside
  | stop
  | next (len : ℕ) (s : σ)
  deriving DecidableEq, Repr

/-- The walk gets to its end. -/
inductive Inside (extent : σ → List α → Extent σ) : σ → List α → Prop
  | stop {s : σ} {l : List α} (h : extent s l = .stop) : Inside extent s l
  | next {s s' : σ} {l : List α} {len : ℕ} (h : extent s l = .next len s')
    (hrest : Inside extent s' (l.drop len)) : Inside extent s l

variable {extent : σ → List α → Extent σ} {s s' : σ} {l : List α}

theorem not_inside_of_outside (h : extent s l = .outside) : ¬ Inside extent s l := by
  intro hinside
  cases hinside with
  | stop hstop => cases h.symm.trans hstop
  | next hnext => cases h.symm.trans hnext

theorem inside_iff_of_next {len : ℕ} (h : extent s l = .next len s') :
    Inside extent s l ↔ Inside extent s' (l.drop len) := by
  refine ⟨fun hinside => ?_, .next h⟩
  cases hinside with
  | stop hstop => cases h.symm.trans hstop
  | next hnext hrest =>
    cases h.symm.trans hnext
    exact hrest

/-- What a function does on a list, step by step : `run n` has fuel for `n` elements, and `abs` is
the state of the walk. -/
theorem inside_iff {run : ℕ → List α → τ → ρ} {good : ρ → Prop} {abs : τ → σ} {inv : τ → Prop}
    (hnil : ∀ n t, inv t → (good (run n [] t) ↔ Inside extent (abs t) []))
    (houtside : ∀ n l t, inv t → l ≠ [] → extent (abs t) l = .outside → ¬ good (run (n + 1) l t))
    (hstop : ∀ n l t, inv t → l ≠ [] → extent (abs t) l = .stop → good (run (n + 1) l t))
    (hnext : ∀ n l t len s, inv t → l ≠ [] → extent (abs t) l = .next len s → 0 < len ∧
      ∃ t', abs t' = s ∧ inv t' ∧ (good (run (n + 1) l t) ↔ good (run n (l.drop len) t'))) :
    ∀ {n : ℕ} {l : List α} {t : τ}, inv t → l.length ≤ n →
      (good (run n l t) ↔ Inside extent (abs t) l) := by
  intro n
  induction n with
  | zero =>
    intro l t ht hl
    rw [List.length_eq_zero_iff.1 (Nat.le_zero.1 hl)]
    exact hnil 0 t ht
  | succ n ih =>
    intro l t ht hl
    by_cases hne : l = []
    · subst hne
      exact hnil _ t ht
    · rcases hextent : extent (abs t) l with - | - | ⟨len, s⟩
      · exact iff_of_false (houtside n l t ht hne hextent) (not_inside_of_outside hextent)
      · exact iff_of_true (hstop n l t ht hne hextent) (.stop hextent)
      · obtain ⟨hpos, t', rfl, ht', hgood⟩ := hnext n l t len s ht hne hextent
        have hlen := List.length_pos_of_ne_nil hne
        rw [hgood, inside_iff_of_next hextent]
        exact ih ht' (by rw [List.length_drop]; omega)

end NrStack
