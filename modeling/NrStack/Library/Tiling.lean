import Mathlib.Tactic

/-!
# Lists of intervals that tile an interval

Every element of a list has a start `lo` and a length `len`. `Tiles lo len a l b` : the elements are
not empty, and each starts where the one before it ends, the first at `a`, and the last ends at `b`.
So they cover `[a, b)` in order, each point once (`Tiles.covers_iff`, `Tiles.pairwise`).
-/

namespace NrStack

variable {α : Type*} {lo len : α → ℤ}

/-- The elements of the list tile `[a, b)`. -/
def Tiles (lo len : α → ℤ) : ℤ → List α → ℤ → Prop
  | a, [], b => a = b
  | a, x :: l, b => lo x = a ∧ 0 < len x ∧ Tiles lo len (a + len x) l b

instance decidableTiles : ∀ (a : ℤ) (l : List α) (b : ℤ), Decidable (Tiles lo len a l b)
  | _, [], _ => inferInstanceAs (Decidable (_ = _))
  | a, x :: l, b =>
    have := decidableTiles (a + len x) l b
    inferInstanceAs (Decidable (_ ∧ _ ∧ _))

variable {l m : List α} {a b c : ℤ} {x y z : α}

theorem tiles_append : Tiles lo len a (l ++ m) c ↔
    ∃ b, Tiles lo len a l b ∧ Tiles lo len b m c := by
  induction l generalizing a with
  | nil => simp [Tiles]
  | cons x l ih =>
    simp only [List.cons_append, Tiles, ih]
    constructor
    · rintro ⟨hlo, hlen, b, hl, hm⟩
      exact ⟨b, ⟨hlo, hlen, hl⟩, hm⟩
    · rintro ⟨b, ⟨hlo, hlen, hl⟩, hm⟩
      exact ⟨hlo, hlen, b, hl, hm⟩

/-- The end is where the elements lead. -/
theorem Tiles.end_unique (h : Tiles lo len a l b) (h' : Tiles lo len a l c) : b = c := by
  induction l generalizing a with
  | nil => exact h.symm.trans h'
  | cons x l ih => exact ih h.2.2 h'.2.2

theorem Tiles.le (h : Tiles lo len a l b) : a ≤ b := by
  induction l generalizing a with
  | nil => exact le_of_eq h
  | cons x l ih =>
    have hlen := h.2.1
    have hle := ih h.2.2
    omega

/-- The elements cover `[a, b)`. -/
theorem Tiles.covers_iff (h : Tiles lo len a l b) (i : ℤ) :
    (∃ x ∈ l, lo x ≤ i ∧ i < lo x + len x) ↔ a ≤ i ∧ i < b := by
  induction l generalizing a with
  | nil =>
    obtain rfl : a = b := h
    simp only [List.not_mem_nil, false_and, exists_false, false_iff]
    omega
  | cons x l ih =>
    obtain ⟨hlo, hlen, hl⟩ := h
    have hle := hl.le
    rw [List.exists_mem_cons_iff, ih hl]
    omega

/-- No point is covered twice. -/
theorem Tiles.pairwise (h : Tiles lo len a l b) : l.Pairwise fun x y => lo x + len x ≤ lo y := by
  induction l generalizing a with
  | nil => exact .nil
  | cons x l ih =>
    obtain ⟨hlo, hlen, hl⟩ := h
    refine List.pairwise_cons.2 ⟨fun y hy => ?_, ih hl⟩
    obtain ⟨s, t, rfl⟩ := List.append_of_mem hy
    obtain ⟨c, hs, hy', -, -⟩ := tiles_append.1 hl
    have hle := hs.le
    omega

/-- An element may be replaced by another one for the same interval. -/
theorem tiles_cons_congr (hlo : lo y = lo x) (hlen : len y = len x) :
    Tiles lo len a (y :: l) b ↔ Tiles lo len a (x :: l) b := by
  simp only [Tiles, hlo, hlen]

/-- An element may be cut in two. -/
theorem tiles_cons_split (hlo : lo y = lo x) (hy : 0 < len y) (hz : 0 < len z)
    (hstart : lo z = lo y + len y) (hlen : len y + len z = len x) :
    Tiles lo len a (y :: z :: l) b ↔ Tiles lo len a (x :: l) b := by
  simp only [Tiles]
  constructor
  · rintro ⟨h1, -, -, -, h⟩
    exact ⟨by omega, by omega, by rwa [show a + len x = a + len y + len z by omega]⟩
  · rintro ⟨h1, -, h⟩
    exact ⟨by omega, hy, by omega, hz, by rwa [show a + len y + len z = a + len x by omega]⟩

end NrStack
