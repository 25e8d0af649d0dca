import NrStack.Nas.MobileIdentity

/-!
# What octets read back as

The words and half octets that the NAS encoders write, as the decoders put them together again.
-/

namespace NrStack

/-- `ntohs` of two bytes in memory. -/
def ntohs (high low : UInt8) : BitVec 16 :=
  high.toBitVec ++ low.toBitVec

/-- `ntohl` of four bytes in memory. -/
def ntohl (b₀ b₁ b₂ b₃ : UInt8) : BitVec 32 :=
  b₀.toBitVec ++ b₁.toBitVec ++ b₂.toBitVec ++ b₃.toBitVec

@[simp] theorem ntohs_htons (v : BitVec 16) :
    ntohs ⟨v.extractLsb' 8 8⟩ ⟨v.extractLsb' 0 8⟩ = v :=
  BitVec.extractLsb'_append_extractLsb'

theorem htonl_eq (v : BitVec 32) : htonl v =
    [⟨v.extractLsb' 24 8⟩, ⟨v.extractLsb' 16 8⟩, ⟨v.extractLsb' 8 8⟩, ⟨v.extractLsb' 0 8⟩] := by
  have hextract : ∀ start len k, k + len ≤ 16 →
      (v.extractLsb' start 16).extractLsb' k len = v.extractLsb' (start + k) len := by
    intro start len k h
    apply BitVec.eq_of_getLsbD_eq
    intro i hi
    rw [BitVec.getLsbD_extractLsb', BitVec.getLsbD_extractLsb', BitVec.getLsbD_extractLsb',
      Nat.add_assoc, decide_eq_true (show k + i < 16 by omega), Bool.true_and]
  rw [htonl, htons, htons, hextract 16 8 8 (by decide), hextract 16 8 0 (by decide),
    hextract 0 8 8 (by decide), hextract 0 8 0 (by decide)]
  rfl

@[simp] theorem ntohl_htonl (v : BitVec 32) :
    ntohl ⟨v.extractLsb' 24 8⟩ ⟨v.extractLsb' 16 8⟩ ⟨v.extractLsb' 8 8⟩ ⟨v.extractLsb' 0 8⟩ =
      v := by
  have h₁ : v.extractLsb' 24 8 ++ v.extractLsb' 16 8 = v.extractLsb' 16 16 :=
    BitVec.extractLsb'_append_extractLsb'_eq_extractLsb' rfl
  have h₂ : v.extractLsb' 16 16 ++ v.extractLsb' 8 8 = v.extractLsb' 8 24 :=
    BitVec.extractLsb'_append_extractLsb'_eq_extractLsb' rfl
  have h₃ : v.extractLsb' 8 24 ++ v.extractLsb' 0 8 = v :=
    BitVec.extractLsb'_append_extractLsb'
  calc v.extractLsb' 24 8 ++ v.extractLsb' 16 8 ++ v.extractLsb' 8 8 ++ v.extractLsb' 0 8
      = v.extractLsb' 16 16 ++ v.extractLsb' 8 8 ++ v.extractLsb' 0 8 := by rw [h₁]
    _ = v.extractLsb' 8 24 ++ v.extractLsb' 0 8 := by rw [h₂]
    _ = v := h₃

@[simp] theorem nibbles_high (high low : BitVec 4) :
    ((nibbles high low) >>> 4).toBitVec.setWidth 4 = high := by
  revert high low
  decide

@[simp] theorem nibbles_low (high low : BitVec 4) :
    (nibbles high low).toBitVec.setWidth 4 = low := by
  revert high low
  decide

theorem and_low_nibble {x : UInt8} (h : x < 16) : x &&& 0xf = x := by
  rw [← UInt8.toNat_inj, UInt8.toNat_and]
  exact (Nat.and_two_pow_sub_one_eq_mod x.toNat 4).trans (Nat.mod_eq_of_lt h)

end NrStack
