import NrStack.Library.Serial
import NrStack.Pdcp.Entity

/-!
# COUNT from SN

A PDU carries the low bits of its COUNT. `rcvdCount` is the value with these bits that is
in the window of `2^sn_size` values around RX_DELIV, in `uint32_t` arithmetic
(`rcvdCount_spec`), and there is only one (`rcvdCount_eq`).
-/

namespace NrStack

/-- Two numbers with the same residue in one stretch of `m` are equal. -/
theorem eq_of_emod_eq_of_dist {M m b a c : Int} (hm : m ∣ M) (h : a % m = c % m)
    (ha : 0 ≤ a ∧ a < M) (hc : 0 ≤ c ∧ c < M) (hda : dist M b a < m) (hdc : dist M b c < m) :
    a = c := by
  have hM : 0 < M := by omega
  refine dist_inj (b := b) ha hc ?_
  have hmod : ∀ x, dist M b x % m = (x - b) % m := fun x => Int.emod_emod_of_dvd _ hm
  have hsub : (a - b) % m = (c - b) % m := by rw [Int.sub_emod, h, ← Int.sub_emod]
  have ha0 := dist_nonneg (b := b) (a := a) hM
  have hc0 := dist_nonneg (b := b) (a := c) hM
  rw [← Int.emod_eq_of_lt ha0 hda, ← Int.emod_eq_of_lt hc0 hdc, hmod, hmod, hsub]

namespace NrPdcpEntity

variable {e : NrPdcpEntity} {sn count : Nat}

/-- SN arithmetic uses the SN size of the headers. -/
structure SnCoherent (e : NrPdcpEntity) : Prop where
  snSize_valid : e.snSize = 12 ∨ e.snSize = 18
  snMax_eq : e.snMax = 2 ^ e.snSize - 1
  windowSize_eq : e.windowSize = 2 ^ (e.snSize - 1)

theorem SnCoherent.values (h : e.SnCoherent) :
    e.snSize = 12 ∧ e.windowSize = 2048 ∨ e.snSize = 18 ∧ e.windowSize = 131072 := by
  have hw := h.windowSize_eq
  rcases h.snSize_valid with hn | hn <;> rw [hn] at hw
  · exact .inl ⟨hn, hw⟩
  · exact .inr ⟨hn, hw⟩

/-- The shift and the disjunction as arithmetic. -/
theorem rcvdCount_eq_add (h : e.SnCoherent) (hsn : sn < 2 ^ e.snSize) :
    e.rcvdCount sn = e.rcvdHfn sn % 2 ^ (32 - e.snSize) * 2 ^ e.snSize + sn := by
  have hn : e.snSize ≤ 32 := by rcases h.snSize_valid with h | h <;> omega
  have hmod : e.rcvdHfn sn <<< e.snSize % uint32Modulus =
      (e.rcvdHfn sn % 2 ^ (32 - e.snSize)) <<< e.snSize := by
    rw [Nat.shiftLeft_eq, Nat.shiftLeft_eq, uint32Modulus,
      show (2 : Nat) ^ 32 = 2 ^ (32 - e.snSize) * 2 ^ e.snSize by rw [← pow_add]; congr 1; omega,
      Nat.mul_mod_mul_right]
  rw [rcvdCount, hmod, ← Nat.shiftLeft_add_eq_or_of_lt hsn, Nat.shiftLeft_eq]

theorem rcvdHfn_eq (h : e.SnCoherent) : e.rcvdHfn sn =
    if (sn : Int) < (e.rxDeliv % 2 ^ e.snSize : Nat) - e.windowSize then
      (e.rxDeliv / 2 ^ e.snSize + 1) % uint32Modulus
    else if (sn : Int) ≥ (e.rxDeliv % 2 ^ e.snSize : Nat) + e.windowSize then
      (e.rxDeliv / 2 ^ e.snSize + (uint32Modulus - 1)) % uint32Modulus
    else e.rxDeliv / 2 ^ e.snSize := by
  rw [rcvdHfn, h.snMax_eq, Nat.and_two_pow_sub_one_eq_mod, Nat.shiftRight_eq_div_pow]

/-- The COUNT of a received PDU has its SN, and is in the window around RX_DELIV. -/
theorem rcvdCount_spec (h : e.SnCoherent) (hsn : sn < 2 ^ e.snSize) :
    e.rcvdCount sn < uint32Modulus ∧ e.rcvdCount sn % 2 ^ e.snSize = sn ∧
      dist uint32Modulus (e.rxDeliv - e.windowSize) (e.rcvdCount sn) < 2 ^ e.snSize := by
  rw [rcvdCount_eq_add h hsn, rcvdHfn_eq h, dist]
  have hm : uint32Modulus = 4294967296 := rfl
  rw [hm]
  obtain ⟨hn, hw⟩ | ⟨hn, hw⟩ := h.values
  all_goals
    rw [hn] at hsn ⊢
    rw [hw]
    simp only [Nat.reducePow, Nat.reduceSub, Int.reducePow] at hsn ⊢
    split_ifs <;> omega

/-- In the window of the receiver, the COUNT of the sender is found again. -/
theorem rcvdCount_eq (h : e.SnCoherent) (hc : count < uint32Modulus)
    (hw : dist uint32Modulus (e.rxDeliv - e.windowSize) count < 2 ^ e.snSize) :
    e.rcvdCount (count % 2 ^ e.snSize) = count := by
  obtain ⟨hlt, hmod, hdist⟩ := rcvdCount_spec h (Nat.mod_lt count (Nat.two_pow_pos e.snSize))
  have hdvd : ((2 : Int) ^ e.snSize) ∣ (uint32Modulus : Int) := by
    rcases h.snSize_valid with hn | hn <;> rw [hn] <;> decide
  refine Int.ofNat_inj.1 (eq_of_emod_eq_of_dist hdvd ?_
    ⟨Int.natCast_nonneg _, by exact_mod_cast hlt⟩ ⟨Int.natCast_nonneg _, by exact_mod_cast hc⟩
    hdist hw)
  exact_mod_cast hmod

/-- In terms of plain differences. -/
theorem dist_window (h : e.SnCoherent) (hlo : e.rxDeliv ≤ count + e.windowSize)
    (hhi : count < e.rxDeliv + e.windowSize) :
    dist uint32Modulus (e.rxDeliv - e.windowSize) count < 2 ^ e.snSize := by
  have hm : uint32Modulus = 4294967296 := rfl
  rw [hm, dist]
  obtain ⟨hn, hw⟩ | ⟨hn, hw⟩ := h.values
  all_goals
    rw [hw] at hlo hhi ⊢
    rw [hn]
    simp only [Int.reducePow]
    omega

end NrPdcpEntity

end NrStack
