import NrStack.Library.Block
import NrStack.Nas.Security

/-!
# 5GS mobile identities

The identities of `FGSMobileIdentity.c` and their encoders, which write from `buffer` on into
the block that holds the message and return the number of bytes, or a negative error code.

The members of the union overlap in `typeofidentity`, by which the code tells them apart : here
they are the constructors of `FGSMobileIdentity`. Lengths are natural numbers, as none comes
near the range of the `int` and `uint32_t` of the code.
-/

namespace NrStack

/-- What stops a NAS function : it leaves an object of the memory, it reads what was never
written, it follows a null pointer, or an assertion fails. -/
inductive NasFault
  | outOfBounds
  | uninitialized
  | nullPointer
  | assertFatal
deriving DecidableEq, Repr

/-- A NAS encoder. -/
abbrev NasEncoder (α : Type) : Type :=
  BlockM UInt8 NasFault α

/-- Write bytes into the message. -/
def encodeBytes (buffer : Nat) (bytes : List UInt8) : NasEncoder Unit :=
  store .outOfBounds buffer bytes

/-- `htons`, as the bytes in memory. -/
def htons (v : BitVec 16) : List UInt8 :=
  [⟨v.extractLsb' 8 8⟩, ⟨v.extractLsb' 0 8⟩]

/-- `htonl`, as the bytes in memory. -/
def htonl (v : BitVec 32) : List UInt8 :=
  htons (v.extractLsb' 16 16) ++ htons (v.extractLsb' 0 16)

/-- Two bit fields of four bits in a byte. -/
def nibbles (high low : BitVec 4) : UInt8 :=
  ⟨high ++ low⟩

def tlvEncodeBufferTooShort : Int :=
  -13

/-! ## The identities -/

/-- `Suci5GSMobileIdentity_t`. -/
structure Suci5GSMobileIdentity where
  supiformat : BitVec 3
  mccdigit1 : BitVec 4
  mccdigit2 : BitVec 4
  mccdigit3 : BitVec 4
  mncdigit1 : BitVec 4
  mncdigit2 : BitVec 4
  mncdigit3 : BitVec 4
  routingindicatordigit1 : BitVec 4
  routingindicatordigit2 : BitVec 4
  routingindicatordigit3 : BitVec 4
  routingindicatordigit4 : BitVec 4
  protectionschemeId : BitVec 4
  homenetworkpki : UInt8
  schemeoutput : List UInt8
deriving DecidableEq, Repr

/-- `sizeof(Suci5GSMobileIdentity_t)`. -/
def sizeofSuci : Nat :=
  40

/-- The size of `schemeoutput`. -/
def schemeoutputSize : Nat :=
  32

/-- `Guti5GSMobileIdentity_t`. -/
structure Guti5GSMobileIdentity where
  spare : BitVec 4
  oddeven : BitVec 1
  mccdigit1 : BitVec 4
  mccdigit2 : BitVec 4
  mccdigit3 : BitVec 4
  mncdigit1 : BitVec 4
  mncdigit2 : BitVec 4
  mncdigit3 : BitVec 4
  amfregionid : UInt8
  amfsetid : BitVec 10
  amfpointer : BitVec 6
  tmsi : BitVec 32
deriving DecidableEq, Repr

/-- `Imeisv5GSMobileIdentity_t`. -/
structure Imeisv5GSMobileIdentity where
  oddeven : BitVec 1
  digittac01 : BitVec 4
  digittac02 : BitVec 4
  digittac03 : BitVec 4
  digittac04 : BitVec 4
  digittac05 : BitVec 4
  digittac06 : BitVec 4
  digittac07 : BitVec 4
  digittac08 : BitVec 4
  digit09 : BitVec 4
  digit10 : BitVec 4
  digit11 : BitVec 4
  digit12 : BitVec 4
  digit13 : BitVec 4
  digit14 : BitVec 4
  digitsv1 : BitVec 4
  digitsv2 : BitVec 4
  spare : BitVec 4
deriving DecidableEq, Repr

/-- `Stmsi5GSMobileIdentity_t`. -/
structure Stmsi5GSMobileIdentity where
  spare : BitVec 1
  amfsetid : BitVec 10
  amfpointer : BitVec 6
  tmsi : BitVec 32
deriving DecidableEq, Repr

/-- `FGSMobileIdentity`. -/
inductive FGSMobileIdentity
  | suci (suci : Suci5GSMobileIdentity)
  | guti (guti : Guti5GSMobileIdentity)
  | stmsi (stmsi : Stmsi5GSMobileIdentity)
  | imeisv (imeisv : Imeisv5GSMobileIdentity)
deriving DecidableEq, Repr

/-! ## The encoders -/

/-- `encode_stmsi_5gs_mobile_identity`. -/
def encodeStmsi5gsMobileIdentity (buffer : Nat) (stmsi : Stmsi5GSMobileIdentity) (len : Nat) :
    NasEncoder Int := do
  if len < 9 then
    return -1
  encodeBytes buffer
    ([⟨0xf#4 ++ stmsi.spare ++ 0b100#3⟩] ++ htons (stmsi.amfsetid ++ stmsi.amfpointer) ++
      htonl stmsi.tmsi)
  return 7

/-- `encode_guti_5gs_mobile_identity`. -/
def encodeGuti5gsMobileIdentity (guti : Guti5GSMobileIdentity) (buffer : Nat) :
    NasEncoder Int := do
  encodeBytes buffer
    ([⟨0xf#4 ++ guti.oddeven ++ 0b010#3⟩,
      nibbles guti.mccdigit2 guti.mccdigit1,
      nibbles guti.mncdigit3 guti.mccdigit3,
      nibbles guti.mncdigit2 guti.mncdigit1,
      guti.amfregionid] ++ htons (guti.amfsetid ++ guti.amfpointer) ++ htonl guti.tmsi)
  return 11

/-- `strlen` of a character array : the index of the first NUL. -/
def strlen (chars : List UInt8) : Except NasFault Nat :=
  match chars.findIdx? (· = 0) with
  | some n => .ok n
  | none => .error .outOfBounds

/-- `c - '0'`. -/
def digit (c : UInt8) : UInt8 :=
  c - 48

/-- The scheme output, two digits a byte. An odd number of digits has the last one with the NUL
behind it, and a further byte for that NUL. -/
def schemeBytes : List UInt8 → List UInt8
  | [] => []
  | [c] => [digit 0 <<< 4 ||| digit c, digit 0 ||| 0xf0]
  | c₀ :: c₁ :: cs => (digit c₁ <<< 4 ||| digit c₀) :: schemeBytes cs

/-- `encode_suci_5gs_mobile_identity`. -/
def encodeSuci5gsMobileIdentity (suci : Suci5GSMobileIdentity) (buffer : Nat) :
    NasEncoder Int := do
  let n ← StateT.lift (strlen suci.schemeoutput)
  let bytes :=
    [⟨0#1 ++ suci.supiformat ++ 0b0001#4⟩,
      nibbles suci.mccdigit2 suci.mccdigit1,
      nibbles suci.mncdigit3 suci.mccdigit3,
      nibbles suci.mncdigit2 suci.mncdigit1,
      nibbles suci.routingindicatordigit2 suci.routingindicatordigit1,
      nibbles suci.routingindicatordigit4 suci.routingindicatordigit3,
      nibbles 0 suci.protectionschemeId,
      suci.homenetworkpki] ++ schemeBytes (suci.schemeoutput.take n)
  encodeBytes buffer bytes
  return bytes.length

/-- `encode_imeisv_5gs_mobile_identity`. -/
def encodeImeisv5gsMobileIdentity (imeisv : Imeisv5GSMobileIdentity) (buffer : Nat) :
    NasEncoder Int := do
  encodeBytes buffer
    [⟨imeisv.digittac01 ++ imeisv.oddeven ++ 0b101#3⟩,
      nibbles imeisv.digittac03 imeisv.digittac02,
      nibbles imeisv.digittac05 imeisv.digittac04,
      nibbles imeisv.digittac07 imeisv.digittac06,
      nibbles imeisv.digit09 imeisv.digittac08,
      nibbles imeisv.digit11 imeisv.digit10,
      nibbles imeisv.digit13 imeisv.digit12,
      nibbles imeisv.digitsv1 imeisv.digit14,
      nibbles imeisv.spare imeisv.digitsv2]
  return 9

/-- The branch of `encode_5gs_mobile_identity` for the type of identity. -/
def FGSMobileIdentity.encode (mi : FGSMobileIdentity) (buffer len : Nat) : NasEncoder Int :=
  match mi with
  | .guti g => encodeGuti5gsMobileIdentity g buffer
  | .suci s => encodeSuci5gsMobileIdentity s buffer
  | .imeisv i => encodeImeisv5gsMobileIdentity i buffer
  | .stmsi s => encodeStmsi5gsMobileIdentity buffer s len

/-- `encode_5gs_mobile_identity`. -/
def encode5gsMobileIdentity (mi : FGSMobileIdentity) (iei : UInt8) (buffer len : Nat) :
    NasEncoder Int := do
  if len < 3 then
    return -1
  if iei > 0 then
    encodeBytes buffer [iei]
  let start := if iei > 0 then 1 else 0
  let encoded := start + 2
  let encodedRc ← mi.encode (buffer + encoded) (len - encoded)
  if encodedRc < 0 then
    return encodedRc
  encodeBytes (buffer + start) (htons (BitVec.ofInt 16 encodedRc))
  return encoded + encodedRc

/-! ## What they write -/

section Stores

variable {lo hi : Nat} (buffer len : Nat)

theorem stores_encodeBytes {buffer : Nat} {bytes : List UInt8} {α : Type} {a : α}
    {f : Unit → NasEncoder α} (hlo : lo ≤ buffer) (hhi : buffer + bytes.length ≤ hi)
    (hf : Stores (f ()) lo hi a) :
    Stores (encodeBytes buffer bytes >>= f) lo hi a :=
  Stores.store_bind hlo hhi hf

@[simp] theorem length_htons (v : BitVec 16) : (htons v).length = 2 :=
  rfl

@[simp] theorem length_htonl (v : BitVec 32) : (htonl v).length = 4 :=
  rfl

theorem stores_encodeStmsi {len : Nat} (stmsi : Stmsi5GSMobileIdentity) (hlen : len < 9) :
    Stores (encodeStmsi5gsMobileIdentity buffer stmsi len) lo hi (-1) := by
  unfold encodeStmsi5gsMobileIdentity
  rw [if_pos hlen]
  exact .pure _ _ _

theorem stores_encodeGuti (guti : Guti5GSMobileIdentity) :
    Stores (encodeGuti5gsMobileIdentity guti buffer) buffer (buffer + 11) 11 :=
  stores_encodeBytes le_rfl (by simp) (.pure _ _ _)

theorem stores_encodeImeisv (imeisv : Imeisv5GSMobileIdentity) :
    Stores (encodeImeisv5gsMobileIdentity imeisv buffer) buffer (buffer + 9) 9 :=
  stores_encodeBytes le_rfl (by simp) (.pure _ _ _)

/-- A byte for two digits, and for an odd number two more. -/
theorem length_schemeBytes : ∀ cs : List UInt8,
    (schemeBytes cs).length = cs.length / 2 + 2 * (cs.length % 2)
  | [] => rfl
  | [_] => by simp [schemeBytes]
  | _ :: _ :: cs => by
    simp only [schemeBytes, List.length_cons, length_schemeBytes cs]
    omega

theorem strlen_lt {chars : List UInt8} {n : Nat} (h : strlen chars = .ok n) :
    n < chars.length := by
  unfold strlen at h
  split at h
  · rename_i m hm
    cases h
    exact (List.findIdx?_eq_some_iff_findIdx_eq.1 hm).1
  · cases h

theorem stores_encodeSuci {suci : Suci5GSMobileIdentity} {n : Nat}
    (h : strlen suci.schemeoutput = .ok n) :
    Stores (encodeSuci5gsMobileIdentity suci buffer) buffer (buffer + (8 + (n / 2 + 2 * (n % 2))))
      ((8 + (n / 2 + 2 * (n % 2)) : Nat) : Int) := by
  have hn : (suci.schemeoutput.take n).length = n :=
    List.length_take_of_le (strlen_lt h).le
  unfold encodeSuci5gsMobileIdentity
  rw [h]
  refine Stores.bind (a := n) (fun b _ => ⟨b, rfl, rfl, fun _ _ => rfl⟩) ?_
  refine stores_encodeBytes le_rfl ?_ ?_
  · simp only [List.length_append, List.length_cons, List.length_nil, length_schemeBytes, hn]
    omega
  · simp only [List.length_append, List.length_cons, List.length_nil, length_schemeBytes, hn]
    exact .pure _ _ _

/-- The identities that have an encoding, each with the number of bytes. -/
inductive FGSMobileIdentity.Encodes : FGSMobileIdentity → Nat → Prop
  | guti (guti : Guti5GSMobileIdentity) : Encodes (.guti guti) 11
  | imeisv (imeisv : Imeisv5GSMobileIdentity) : Encodes (.imeisv imeisv) 9
  | suci {suci : Suci5GSMobileIdentity} {n : Nat} : strlen suci.schemeoutput = .ok n →
      Encodes (.suci suci) (8 + (n / 2 + 2 * (n % 2)))

theorem stores_encode {mi : FGSMobileIdentity} {n : Nat} (h : mi.Encodes n) :
    Stores (mi.encode buffer len) buffer (buffer + n) n := by
  cases h with
  | guti guti => exact stores_encodeGuti buffer guti
  | imeisv imeisv => exact stores_encodeImeisv buffer imeisv
  | suci h => exact stores_encodeSuci buffer h

/-- The bytes of the IE before the identity. -/
def mobileIdentityHeader (iei : UInt8) : Nat :=
  (if iei > 0 then 1 else 0) + 2

@[simp] theorem mobileIdentityHeader_zero : mobileIdentityHeader 0 = 2 :=
  rfl

@[simp] theorem mobileIdentityHeader_guti : mobileIdentityHeader 0x77 = 3 :=
  rfl

theorem stores_encode5gsMobileIdentity {len : Nat} {mi : FGSMobileIdentity} {n : Nat} (iei : UInt8)
    (h : mi.Encodes n) (hlen : 3 ≤ len) :
    Stores (encode5gsMobileIdentity mi iei buffer len) buffer
      (buffer + (mobileIdentityHeader iei + n)) ((mobileIdentityHeader iei + n : Nat) : Int) := by
  have hrest (start : Nat) (hstart : mobileIdentityHeader iei = start + 2) :
      Stores (do
        let encodedRc ← mi.encode (buffer + (start + 2)) (len - (start + 2))
        if encodedRc < 0 then
          return encodedRc
        encodeBytes (buffer + start) (htons (BitVec.ofInt 16 encodedRc))
        return ((start + 2 : Nat) : Int) + encodedRc) buffer
          (buffer + (mobileIdentityHeader iei + n))
          ((mobileIdentityHeader iei + n : Nat) : Int) := by
    refine ((stores_encode _ _ h).mono (by omega) (by omega)).bind ?_
    rw [if_neg (by omega)]
    refine stores_encodeBytes (by omega) (by simp; omega) ?_
    rw [hstart, Nat.cast_add (start + 2) n]
    exact .pure _ _ _
  unfold encode5gsMobileIdentity
  rw [if_neg (by omega)]
  unfold mobileIdentityHeader at hrest ⊢
  by_cases hiei : iei > 0
  · simp only [hiei, if_true] at hrest ⊢
    exact stores_encodeBytes le_rfl (by simp; omega) (hrest 1 rfl)
  · simp only [hiei, if_false] at hrest ⊢
    exact hrest 0 rfl

end Stores

end NrStack
