import Mathlib.Tactic

/-!
# Bit-fields

An octet of a packed C structure holds its bit-fields from the low bit on, in the order of their
declaration. A field that is read at the place it was written to is what was written
(`readField_zero` and `readField_of_le`, from the front of the list of fields). Fields that are
put together with shifts and a bitwise or are added (`or_shiftLeft_of_lt`).
-/

namespace NrStack

/-- A bit-field : its width and its value. -/
abbrev BitField := Σ w : ℕ, BitVec w

/-- Bit-fields from the low bit on. -/
def packFields : List BitField → ℕ
  | [] => 0
  | ⟨w, v⟩ :: fields => v.toNat + 2 ^ w * packFields fields

/-- The bits that the fields take. -/
def fieldsWidth (fields : List BitField) : ℕ :=
  (fields.map Sigma.fst).sum

/-- An octet of bit-fields. -/
def fieldsOctet (fields : List BitField) : UInt8 :=
  UInt8.ofNat (packFields fields)

/-- The field of a width from a bit on. -/
def readField (offset w n : ℕ) : BitVec w :=
  BitVec.ofNat w (n >>> offset)

theorem packFields_lt : ∀ fields, packFields fields < 2 ^ fieldsWidth fields
  | [] => by simp [packFields, fieldsWidth]
  | ⟨w, v⟩ :: fields => by
    have hv := v.isLt
    have hrest : packFields fields + 1 ≤ 2 ^ fieldsWidth fields := packFields_lt fields
    calc v.toNat + 2 ^ w * packFields fields < 2 ^ w * (packFields fields + 1) := by
          rw [Nat.mul_succ]
          omega
      _ ≤ 2 ^ w * 2 ^ fieldsWidth fields := Nat.mul_le_mul_left _ hrest
      _ = 2 ^ fieldsWidth (⟨w, v⟩ :: fields) := by
          rw [← pow_add, fieldsWidth, fieldsWidth, List.map_cons, List.sum_cons]

theorem toNat_fieldsOctet {fields : List BitField} (h : fieldsWidth fields ≤ 8) :
    (fieldsOctet fields).toNat = packFields fields := by
  rw [fieldsOctet, UInt8.toNat_ofNat']
  exact Nat.mod_eq_of_lt ((packFields_lt fields).trans_le (Nat.pow_le_pow_right (by omega) h))

@[simp] theorem readField_zero {w : ℕ} (v : BitVec w) (fields : List BitField) :
    readField 0 w (packFields (⟨w, v⟩ :: fields)) = v := by
  apply BitVec.eq_of_toNat_eq
  rw [readField, BitVec.toNat_ofNat, Nat.shiftRight_zero, packFields, Nat.add_mul_mod_self_left,
    Nat.mod_eq_of_lt v.isLt]

theorem readField_of_le {w offset w' : ℕ} (v : BitVec w) (fields : List BitField)
    (h : w ≤ offset) : readField offset w' (packFields (⟨w, v⟩ :: fields)) =
      readField (offset - w) w' (packFields fields) := by
  have hsplit : 2 ^ offset = 2 ^ w * 2 ^ (offset - w) := by
    rw [← pow_add, Nat.add_sub_cancel' h]
  rw [readField, readField, packFields, Nat.shiftRight_eq_div_pow, Nat.shiftRight_eq_div_pow,
    hsplit, ← Nat.div_div_eq_div_mul, Nat.add_mul_div_left _ _ (Nat.two_pow_pos w),
    Nat.div_eq_of_lt v.isLt, Nat.zero_add]

/-- A shifted field is added to the ones below it. -/
theorem or_shiftLeft_of_lt {a i : ℕ} (b : ℕ) (h : a < 2 ^ i) : a ||| b <<< i = a + b * 2 ^ i := by
  rw [Nat.or_comm, ← Nat.shiftLeft_add_eq_or_of_lt h, Nat.shiftLeft_eq, Nat.add_comm]

end NrStack
