import Mathlib.Algebra.BigOperators.Intervals
import Mathlib.Algebra.Order.BigOperators.Group.Finset
import Mathlib.Tactic

/-!
# The bits of a transport block in its code blocks

`nrGetE` is the number of coded bits of the code block `r`, of the `G` bits that a transport block
has in its grant. The units of `Nl * Qm` bits are shared out : each block gets the floor of their
mean, and the last ones a unit more, as many as the division leaves over.

`share` is that rule for any total and number of parts.
-/

namespace NrStack

/-! ## Shares of a total -/

/-- The share of the part `i` of `n`, when the last ones get what a division leaves over. -/
def share (total n i : ℕ) : ℕ :=
  if i < n - total % n then total / n else total / n + 1

theorem share_le (total n i : ℕ) :
    total / n ≤ share total n i ∧ share total n i ≤ total / n + 1 := by
  unfold share
  split_ifs <;> omega

/-- The shares make up the total. -/
theorem sum_share (total : ℕ) {n : ℕ} (hn : 0 < n) :
    ∑ i ∈ Finset.range n, share total n i = total := by
  have hrem := Nat.mod_lt total hn
  have hsplit : n = (n - total % n) + total % n := by omega
  have hlow : ∑ i ∈ Finset.range (n - total % n), share total n i =
      (n - total % n) * (total / n) := by
    have hpart : ∀ i ∈ Finset.range (n - total % n), share total n i = total / n :=
      fun i hi => if_pos (Finset.mem_range.1 hi)
    rw [Finset.sum_congr rfl hpart, Finset.sum_const, Finset.card_range, smul_eq_mul]
  have hhigh : ∑ i ∈ Finset.range (total % n), share total n (n - total % n + i) =
      total % n * (total / n + 1) := by
    have hpart : ∀ i ∈ Finset.range (total % n),
        share total n (n - total % n + i) = total / n + 1 := fun i _ => if_neg (by omega)
    rw [Finset.sum_congr rfl hpart, Finset.sum_const, Finset.card_range, smul_eq_mul]
  calc ∑ i ∈ Finset.range n, share total n i
      = ∑ i ∈ Finset.range ((n - total % n) + total % n), share total n i := by rw [← hsplit]
    _ = (n - total % n) * (total / n) + total % n * (total / n + 1) := by
        rw [Finset.sum_range_add, hlow, hhigh]
    _ = n * (total / n) + total % n := by
        rw [Nat.mul_succ, ← Nat.add_assoc, ← Nat.add_mul, ← hsplit]
    _ = total := Nat.div_add_mod total n

/-! ## The code -/

/-- `nr_get_E`; `none` is a failed assertion or a division by zero. -/
def nrGetE (g : UInt32) (c qm nl r : UInt8) : Option UInt32 :=
  if nl = 0 ∨ qm = 0 ∨ c = 0 then none
  else
    let unit := nl.toUInt32 * qm.toUInt32
    if r.toUInt32 ≤ c.toUInt32 - g / unit % c.toUInt32 - 1 then
      some (unit * (g / (unit * c.toUInt32)))
    else some (unit * (g / (unit * c.toUInt32) + 1))

section Shares

variable {g : UInt32} {c qm nl r : UInt8}

theorem toNat_unit (qm nl : UInt8) :
    (nl.toUInt32 * qm.toUInt32).toNat = nl.toNat * qm.toNat ∧
      nl.toNat * qm.toNat ≤ 255 * 255 := by
  have h : nl.toNat * qm.toNat ≤ 255 * 255 :=
    Nat.mul_le_mul (Nat.le_of_lt_succ nl.toNat_lt) (Nat.le_of_lt_succ qm.toNat_lt)
  refine ⟨?_, h⟩
  rw [UInt32.toNat_mul, UInt8.toNat_toUInt32, UInt8.toNat_toUInt32]
  exact Nat.mod_eq_of_lt (by omega)

theorem toNat_pos {x : UInt8} (h : x ≠ 0) : 0 < x.toNat :=
  Nat.pos_of_ne_zero fun hzero => h (UInt8.toNat_inj.1 hzero)

/-- The bits of a code block are its share of the units. -/
theorem nrGetE_eq (hc : c ≠ 0) (hqm : qm ≠ 0) (hnl : nl ≠ 0) (hr : r.toNat < c.toNat)
    (hdvd : nl.toNat * qm.toNat ∣ g.toNat) : ∃ e, nrGetE g c qm nl r = some e ∧
      e.toNat = nl.toNat * qm.toNat * share (g.toNat / (nl.toNat * qm.toNat)) c.toNat r.toNat := by
  obtain ⟨hunit, hle⟩ := toNat_unit qm nl
  have hpos : 0 < nl.toNat * qm.toNat := Nat.mul_pos (toNat_pos hnl) (toNat_pos hqm)
  have hcpos := toNat_pos hc
  have hg := g.toNat_lt
  have hclt : c.toNat < 256 := c.toNat_lt
  rw [nrGetE, if_neg (by simp [hc, hqm, hnl])]
  generalize nl.toUInt32 * qm.toUInt32 = unit at hunit ⊢
  generalize nl.toNat * qm.toNat = u at hunit hle hpos hdvd ⊢
  obtain ⟨n, hn⟩ := hdvd
  have hquot : g.toNat / u = n := by rw [hn, Nat.mul_div_cancel_left _ hpos]
  have hall : (unit * c.toUInt32).toNat = u * c.toNat := by
    rw [UInt32.toNat_mul, hunit, UInt8.toNat_toUInt32]
    exact Nat.mod_eq_of_lt ((Nat.mul_le_mul hle hclt.le).trans_lt (by norm_num))
  have hfloor : (g / (unit * c.toUInt32)).toNat = n / c.toNat := by
    rw [UInt32.toNat_div, hall, ← Nat.div_div_eq_div_mul, hquot]
  have hrem := Nat.mod_lt n hcpos
  have hdiv := Nat.div_add_mod n c.toNat
  have htest : (c.toUInt32 - g / unit % c.toUInt32 - 1).toNat = c.toNat - n % c.toNat - 1 := by
    have hmod : (g / unit % c.toUInt32).toNat = n % c.toNat := by
      rw [UInt32.toNat_mod, UInt32.toNat_div, hunit, UInt8.toNat_toUInt32, hquot]
    have hsub : (c.toUInt32 - g / unit % c.toUInt32).toNat = c.toNat - n % c.toNat := by
      rw [UInt32.toNat_sub_of_le _ _ (UInt32.le_iff_toNat_le.2 (by
        rw [hmod, UInt8.toNat_toUInt32]
        exact hrem.le)), hmod, UInt8.toNat_toUInt32]
    rw [UInt32.toNat_sub_of_le _ _ (UInt32.le_iff_toNat_le.2 (by
      rw [hsub]
      exact Nat.sub_pos_of_lt hrem)), hsub]
    rfl
  have hbranch : r.toUInt32 ≤ c.toUInt32 - g / unit % c.toUInt32 - 1 ↔
      r.toNat < c.toNat - n % c.toNat := by
    rw [UInt32.le_iff_toNat_le, htest, UInt8.toNat_toUInt32]
    omega
  rw [hquot, share]
  dsimp only
  split_ifs with h₁ h₂ h₂
  · refine ⟨_, rfl, ?_⟩
    rw [UInt32.toNat_mul, hunit, hfloor]
    refine Nat.mod_eq_of_lt ((Nat.mul_le_mul_left u (Nat.div_le_self n c.toNat)).trans_lt ?_)
    rw [← hn]
    exact hg
  · exact absurd (hbranch.1 h₁) h₂
  · exact absurd (hbranch.2 h₂) h₁
  · refine ⟨_, rfl, ?_⟩
    -- a part with a unit more is there only if the division leaves some over
    have hle' : n / c.toNat + 1 ≤ n := by
      have hover : 0 < n % c.toNat := by omega
      have hmul : n / c.toNat ≤ c.toNat * (n / c.toNat) := Nat.le_mul_of_pos_left _ hcpos
      omega
    have hlt : u * (n / c.toNat + 1) < 2 ^ 32 := by
      refine (Nat.mul_le_mul_left u hle').trans_lt ?_
      rw [← hn]
      exact hg
    have hone : (g / (unit * c.toUInt32) + 1).toNat = n / c.toNat + 1 := by
      rw [UInt32.toNat_add, hfloor]
      exact Nat.mod_eq_of_lt ((Nat.le_mul_of_pos_left _ hpos).trans_lt hlt)
    rw [UInt32.toNat_mul, hunit, hone]
    exact Nat.mod_eq_of_lt hlt

end Shares

/-- The code blocks use the bits of the grant exactly, in whole units, and no one has more than a
unit more than another. -/
theorem nrGetE_exact (g : UInt32) (c qm nl : UInt8) (hc : c ≠ 0) (hqm : qm ≠ 0) (hnl : nl ≠ 0)
    (hdvd : nl.toNat * qm.toNat ∣ g.toNat) :
    ∃ e : ℕ → UInt32, (∀ r < c.toNat, nrGetE g c qm nl (UInt8.ofNat r) = some (e r)) ∧
      ∑ r ∈ Finset.range c.toNat, (e r).toNat = g.toNat ∧
      (∀ r < c.toNat, nl.toNat * qm.toNat ∣ (e r).toNat) ∧
      ∀ r < c.toNat, ∀ r' < c.toNat, (e r).toNat ≤ (e r').toNat + nl.toNat * qm.toNat := by
  have hpart : ∀ r : ℕ, ∃ e, r < c.toNat → nrGetE g c qm nl (UInt8.ofNat r) = some e ∧
      e.toNat = nl.toNat * qm.toNat * share (g.toNat / (nl.toNat * qm.toNat)) c.toNat r := by
    intro r
    by_cases hr : r < c.toNat
    · have hr' : (UInt8.ofNat r).toNat = r := by
        rw [UInt8.toNat_ofNat']
        exact Nat.mod_eq_of_lt (hr.trans c.toNat_lt)
      obtain ⟨e, he, heq⟩ := nrGetE_eq hc hqm hnl (hr'.symm ▸ hr) hdvd
      exact ⟨e, fun _ => ⟨he, by rw [heq, hr']⟩⟩
    · exact ⟨0, fun h => absurd h hr⟩
  choose e he using hpart
  refine ⟨e, fun r hr => (he r hr).1, ?_, fun r hr => ?_, fun r hr r' hr' => ?_⟩
  · rw [Finset.sum_congr rfl fun r hr => (he r (Finset.mem_range.1 hr)).2, ← Finset.mul_sum,
      sum_share _ (toNat_pos hc), Nat.mul_div_cancel' hdvd]
  · rw [(he r hr).2]
    exact Nat.dvd_mul_right _ _
  · rw [(he r hr).2, (he r' hr').2, ← Nat.mul_succ]
    have h := share_le (g.toNat / (nl.toNat * qm.toNat)) c.toNat r
    have h' := share_le (g.toNat / (nl.toNat * qm.toNat)) c.toNat r'
    exact Nat.mul_le_mul_left _ (by omega)

/-- Three blocks of a grant of 44 bits in units of four. -/
theorem nrGetE_exact_three :
    ∃ e : ℕ → UInt32, (∀ r < 3, nrGetE 44 3 2 2 (UInt8.ofNat r) = some (e r)) ∧
      ∑ r ∈ Finset.range 3, (e r).toNat = 44 ∧ (∀ r < 3, 4 ∣ (e r).toNat) ∧
      ∀ r < 3, ∀ r' < 3, (e r).toNat ≤ (e r').toNat + 4 :=
  nrGetE_exact 44 3 2 2 (by decide) (by decide) (by decide) (by decide)

end NrStack
