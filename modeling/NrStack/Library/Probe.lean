import Mathlib.Tactic

/-!
# Linear probing

A search over `n` slots in a circle, from a first slot on and at most once around. In a table
with open addressing the slots from the home of a key up to its slot are all dirty (`Reaches`),
so the search for the first slot that is clean or holds the key finds it (`probe_of_reaches`).
Otherwise it finds a clean slot that the key reaches (`probe_clean`), and putting the key there
keeps this.
-/

namespace NrStack

/-- `do … while (idx != start)` over `n` slots, until one stops the search. -/
def probe (stop : Nat → Bool) (n start : Nat) : Nat → Nat → Option Nat
  | 0, _ => none
  | fuel + 1, idx =>
    if stop idx then some idx
    else
      let idx := if idx + 1 = n then 0 else idx + 1
      if start = idx then none else probe stop n start fuel idx

variable {stop dirty dirty' : Nat → Bool} {n start i j d : Nat}

/-! ## The search -/

theorem probe_next (hn : 0 < n) :
    (if (start + d) % n + 1 = n then 0 else (start + d) % n + 1) = (start + (d + 1)) % n := by
  have hmod : ((start + d) % n + 1) % n = (start + (d + 1)) % n := Nat.mod_add_mod (start + d) n 1
  have hlt := Nat.mod_lt (start + d) hn
  rw [← hmod]
  split
  case isTrue h => rw [h, Nat.mod_self]
  case isFalse h => exact (Nat.mod_eq_of_lt (by omega)).symm

theorem probe_inj {e : Nat} (hd : d < n) (he : e < n)
    (h : (start + d) % n = (start + e) % n) : d = e := by
  have hmod : d % n = e % n := Nat.ModEq.add_left_cancel' start h
  rwa [Nat.mod_eq_of_lt hd, Nat.mod_eq_of_lt he] at hmod

/-- Every slot is on the way. -/
theorem exists_probe (hstart : start < n) (hi : i < n) : ∃ d < n, (start + d) % n = i := by
  rcases Nat.lt_or_ge i start with h | h
  · refine ⟨n - start + i, by omega, ?_⟩
    rw [show start + (n - start + i) = i + n by omega, Nat.add_mod_right, Nat.mod_eq_of_lt hi]
  · exact ⟨i - start, by omega, by rw [Nat.add_sub_cancel' h, Nat.mod_eq_of_lt hi]⟩

/-- The search ends at the first slot on the way that stops it. -/
theorem probe_eq_some (hstart : start < n) (hd : d < n) (hstop : stop ((start + d) % n) = true)
    (hpass : ∀ e < d, stop ((start + e) % n) = false) :
    probe stop n start n start = some ((start + d) % n) := by
  have hloop : ∀ k e, e + k = d → probe stop n start (n - e) ((start + e) % n) =
      some ((start + d) % n) := by
    intro k
    induction k with
    | zero =>
      rintro e rfl
      rw [Nat.add_zero] at hstop hd ⊢
      obtain ⟨f, hf⟩ := Nat.exists_eq_succ_of_ne_zero (Nat.sub_ne_zero_of_lt hd)
      rw [hf, probe, if_pos hstop]
    | succ k ih =>
      intro e he
      have hfuel : n - e = (n - (e + 1)) + 1 := by omega
      have hne : start ≠ (start + (e + 1)) % n := by
        intro h
        have h0 : (start + 0) % n = (start + (e + 1)) % n := by
          rw [Nat.add_zero, Nat.mod_eq_of_lt hstart]
          exact h
        have := probe_inj (by omega) (by omega) h0
        omega
      rw [hfuel, probe, if_neg (by rw [hpass e (by omega)]; decide)]
      simp only [probe_next (Nat.zero_lt_of_lt hstart), if_neg hne]
      exact ih (e + 1) (by omega)
  simpa [Nat.mod_eq_of_lt hstart] using hloop d 0 (Nat.zero_add d)

/-! ## Open addressing -/

/-- All slots from `start` up to `i` are dirty. -/
def Reaches (n : Nat) (dirty : Nat → Bool) (start i : Nat) : Prop :=
  ∃ d < n, (start + d) % n = i ∧ ∀ e < d, dirty ((start + e) % n) = true

theorem Reaches.mono (h : Reaches n dirty start i)
    (hdirty : ∀ j, dirty j = true → dirty' j = true) : Reaches n dirty' start i := by
  obtain ⟨d, hd, hi, hpath⟩ := h
  exact ⟨d, hd, hi, fun e he => hdirty _ (hpath e he)⟩

/-- The search finds the only slot that holds the key, tombstones on the way or not. -/
theorem probe_of_reaches {holds : Nat → Bool} (hstart : start < n)
    (h : Reaches n dirty start i) (hi : holds i = true)
    (hunique : ∀ j, holds j = true → j = i) :
    probe (fun j => !dirty j || holds j) n start n start = some i := by
  obtain ⟨d, hd, rfl, hpath⟩ := h
  refine probe_eq_some hstart hd (by simp [hi]) fun e he => ?_
  have hne : holds ((start + e) % n) = false := by
    rw [Bool.eq_false_iff]
    intro hhold
    exact he.ne (probe_inj (he.trans hd) hd (hunique _ hhold))
  simp [hpath e he, hne]

/-- When no slot holds the key, the search finds a clean slot that the key reaches. -/
theorem probe_clean {holds : Nat → Bool} (hstart : start < n)
    (hnone : ∀ j, holds j = false) (hj : j < n) (hclean : dirty j = false) :
    ∃ i < n, probe (fun j => !dirty j || holds j) n start n start = some i ∧ dirty i = false ∧
      Reaches n dirty start i := by
  have hex : ∃ d, d < n ∧ dirty ((start + d) % n) = false := by
    obtain ⟨d, hd, rfl⟩ := exists_probe hstart hj
    exact ⟨d, hd, hclean⟩
  classical
  obtain ⟨hd, hclean'⟩ := Nat.find_spec hex
  have hpath : ∀ e < Nat.find hex, dirty ((start + e) % n) = true := by
    intro e he
    have := Nat.find_min hex he
    rw [not_and, Bool.not_eq_false] at this
    exact this (he.trans hd)
  refine ⟨_, Nat.mod_lt _ (Nat.zero_lt_of_lt hstart), probe_eq_some hstart hd ?_ ?_, hclean',
    Nat.find hex, hd, rfl, hpath⟩
  · simp [hclean']
  · intro e he
    simp [hpath e he, hnone]

end NrStack
