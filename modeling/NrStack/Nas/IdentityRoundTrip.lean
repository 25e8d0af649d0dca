import NrStack.Nas.Octets
import NrStack.Nas.RegistrationAccept
import NrStack.Nas.ServiceRoundTrip

/-!
# Round trips of 5GS mobile identities

A 5G-GUTI is read back from the bytes it is encoded to. The scheme output of a SUCI is the MSIN with
two digits an octet; for an odd number of digits the loop of `encode_suci_5gs_mobile_identity` puts
the last one beside the NUL that ends the string, and another octet for that NUL follows
(`mobileIdentity_iff`).
-/

namespace NrStack

/-! ## What is written -/

section Writes

variable {mi : FGSMobileIdentity} {iei : UInt8} {body : List UInt8} {len : Nat}

/-- The octets of a mobile identity IE. -/
def identityBytes (iei : UInt8) (body : List UInt8) : List UInt8 :=
  optionalBytes (iei > 0) [iei] ++ (htons (BitVec.ofInt 16 body.length) ++ body)

theorem length_identityBytes (iei : UInt8) (body : List UInt8) :
    (identityBytes iei body).length = mobileIdentityHeader iei + body.length := by
  unfold identityBytes optionalBytes mobileIdentityHeader
  split_ifs
  · simp only [List.length_append, List.length_singleton, length_htons]
    omega
  · simp only [List.length_append, List.length_nil, length_htons]
    omega

theorem drop_identityBytes (iei : UInt8) (body : List UInt8) (k : Nat) :
    (identityBytes iei body).drop (mobileIdentityHeader iei + k) = body.drop k := by
  have hlength : (optionalBytes (iei > 0) [iei] ++ htons (BitVec.ofInt 16 body.length)).length =
      mobileIdentityHeader iei := by
    unfold optionalBytes mobileIdentityHeader
    split_ifs <;> rfl
  rw [identityBytes, ← List.append_assoc, ← hlength, ← List.drop_drop, List.drop_left' rfl]

/-- The length field is in front of the identity. -/
theorem lengthField_identityBytes (iei : UInt8) (body : List UInt8) :
    ((identityBytes iei body).drop (mobileIdentityHeader iei - 2)).take 2 =
      htons (BitVec.ofInt 16 body.length) := by
  have hlength : (optionalBytes (iei > 0) [iei]).length = mobileIdentityHeader iei - 2 := by
    unfold optionalBytes mobileIdentityHeader
    split_ifs <;> rfl
  rw [identityBytes, ← hlength, List.drop_left' rfl]
  exact List.take_left' rfl

/-- The identity is written behind its length. -/
theorem writes_encode5gsMobileIdentity (hlen : 3 ≤ len)
    (hbody : ∀ off len, Writes (mi.encode off len) off body (body.length : Int)) :
    Writes (encode5gsMobileIdentity mi iei 0 len) 0 (identityBytes iei body)
      ((identityBytes iei body).length : Int) := by
  have hrest (start : Nat) (hstart : mobileIdentityHeader iei = start + 2) :
      Writes (do
        let encodedRc ← mi.encode (0 + (start + 2)) (len - (start + 2))
        if encodedRc < 0 then
          return encodedRc
        encodeBytes (0 + start) (htons (BitVec.ofInt 16 encodedRc))
        return ((start + 2 : Nat) : Int) + encodedRc) start
          (htons (BitVec.ofInt 16 body.length) ++ body)
          ((identityBytes iei body).length : Int) := by
    refine Writes.bind_front (a := (body.length : Int)) ?_ ?_
    · rw [Nat.zero_add]
      exact hbody _ _
    · rw [if_neg (by omega), Nat.zero_add, length_identityBytes, hstart, Nat.cast_add (start + 2)]
      exact writes_encodeBytes_pure _ _ _
  unfold encode5gsMobileIdentity identityBytes
  rw [if_neg (by omega)]
  unfold mobileIdentityHeader identityBytes optionalBytes at hrest
  unfold optionalBytes
  by_cases hiei : iei > 0
  · simp only [hiei, if_true] at hrest ⊢
    exact writes_encodeBytes 0 [iei] (hrest 1 rfl)
  · simp only [hiei, if_false] at hrest ⊢
    exact hrest 0 rfl

end Writes

/-! ## 5G-GUTI -/

/-- The bits that a 5G-GUTI always has : `1111`, and even. -/
def Guti5GSMobileIdentity.IsCoded (guti : Guti5GSMobileIdentity) : Prop :=
  guti.spare = 0xf ∧ guti.oddeven = 0

/-- The octets of a 5G-GUTI. -/
def gutiBytes (guti : Guti5GSMobileIdentity) : List UInt8 :=
  [⟨0xf#4 ++ guti.oddeven ++ 0b010#3⟩,
    nibbles guti.mccdigit2 guti.mccdigit1,
    nibbles guti.mncdigit3 guti.mccdigit3,
    nibbles guti.mncdigit2 guti.mncdigit1,
    guti.amfregionid] ++ htons (guti.amfsetid ++ guti.amfpointer) ++ htonl guti.tmsi

theorem writes_encodeGuti (guti : Guti5GSMobileIdentity) (buffer : Nat) :
    Writes (encodeGuti5gsMobileIdentity guti buffer) buffer (gutiBytes guti) 11 :=
  writes_encodeBytes_pure buffer (gutiBytes guti) 11

theorem amf_fields (setid : BitVec 10) (pointer : BitVec 6) :
    (setid ++ pointer : BitVec 16).extractLsb' 6 10 = setid ∧
      (setid ++ pointer : BitVec 16).extractLsb' 0 6 = pointer := by
  constructor
  · exact BitVec.extractLsb'_append_eq_left
  · exact BitVec.extractLsb'_append_eq_right

/-- The decoder overwrites all that was there. -/
theorem decode_gutiBytes (old guti : Guti5GSMobileIdentity) (h : guti.IsCoded) :
    decodeGuti5gsMobileIdentity old (gutiBytes guti) = .ok (11, guti) := by
  obtain ⟨spare, oddeven, mcc1, mcc2, mcc3, mnc1, mnc2, mnc3, region, setid, pointer, tmsi⟩ := guti
  obtain ⟨hspare, hodd⟩ := h
  dsimp only at hspare hodd
  subst hspare hodd
  obtain ⟨hset, hpointer⟩ := amf_fields setid pointer
  have hword := ntohs_htons (setid ++ pointer : BitVec 16)
  have htmsi := ntohl_htonl tmsi
  rw [ntohs] at hword
  rw [ntohl] at htmsi
  have hspare :
      ((⟨0xf#4 ++ (0 : BitVec 1) ++ 0b010#3⟩ : UInt8) >>> 4).toBitVec.setWidth 4 = 0xf := by
    decide
  have hodd : ((⟨0xf#4 ++ (0 : BitVec 1) ++ 0b010#3⟩ : UInt8) >>> 3).toBitVec.setWidth 1 = 0 := by
    decide
  have htype : (⟨0xf#4 ++ (0 : BitVec 1) ++ 0b010#3⟩ : UInt8) &&& 0x7 = 2 := by decide
  rw [gutiBytes, htonl_eq, htons]
  simp only [List.cons_append, List.nil_append, decodeGuti5gsMobileIdentity, readByte,
    List.getElem?_cons_zero, List.getElem?_cons_succ]
  simp only [bind, Except.bind, pure, Except.pure, hspare, hodd, htype, nibbles_high, nibbles_low,
    hword, htmsi, hset, hpointer, ne_eq, not_true_eq_false, if_false]

theorem readByte_append (pre l : List UInt8) (k : Nat) :
    readByte (pre ++ l) (pre.length + k) = readByte l k := by
  rw [readByte, List.getElem?_append_right (Nat.le_add_right _ _), Nat.add_sub_cancel_left]
  rfl

theorem decodeMobileIdentityFrom_gutiBytes (old guti : Guti5GSMobileIdentity) (h : guti.IsCoded)
    (pre : List UInt8) (len : Nat) :
    decodeMobileIdentityFrom old pre.length (pre ++ ([0, 11] ++ gutiBytes guti)) len =
      .ok (((pre.length + 2 : Nat) : Int) + 11, guti) := by
  have htype : (⟨0xf#4 ++ guti.oddeven ++ 0b010#3⟩ : UInt8) &&& 0x7 = 2 := by
    rw [h.2]
    decide
  have hlength : readByte (pre ++ ([0, 11] ++ gutiBytes guti)) pre.length = .ok 0 :=
    readByte_append pre _ 0
  have hlow : readByte (pre ++ ([0, 11] ++ gutiBytes guti)) (pre.length + 1) = .ok 11 :=
    readByte_append pre _ 1
  have hoctet3 : readByte (pre ++ ([0, 11] ++ gutiBytes guti)) (pre.length + 2) =
      .ok ⟨0xf#4 ++ guti.oddeven ++ 0b010#3⟩ :=
    readByte_append pre _ 2
  have hdrop : (pre ++ ([0, 11] ++ gutiBytes guti)).drop (pre.length + 2) = gutiBytes guti := by
    rw [List.drop_append]
    simp
  unfold decodeMobileIdentityFrom
  simp only [hlength, hlow, hoctet3, hdrop, htype, decode_gutiBytes old guti h, bind, Except.bind,
    pure, Except.pure, ne_eq, not_true_eq_false, if_false]
  rfl

theorem decode_identityBytes (old guti : Guti5GSMobileIdentity) (h : guti.IsCoded) (iei : UInt8)
    (len : Nat) : decode5gsMobileIdentity old iei (identityBytes iei (gutiBytes guti)) len =
      .ok (((identityBytes iei (gutiBytes guti)).length : Int), guti) := by
  have hlength : (gutiBytes guti).length = 11 := rfl
  have hhtons : htons (BitVec.ofInt 16 ((11 : Nat) : Int)) = [0, 11] := by decide
  rw [length_identityBytes, identityBytes, decode5gsMobileIdentity, hlength, hhtons]
  unfold optionalBytes mobileIdentityHeader
  by_cases hiei : iei > 0
  · have hrest := decodeMobileIdentityFrom_gutiBytes old guti h [iei] len
    simp only [hiei, if_true]
    rw [show readByte ([iei] ++ ([0, 11] ++ gutiBytes guti)) 0 = .ok iei from rfl]
    simp only [bind, Except.bind, ne_eq, not_true_eq_false, if_false]
    exact hrest
  · simp only [hiei, if_false]
    exact decodeMobileIdentityFrom_gutiBytes old guti h [] len

/-! ## SUCI -/

/-- The digits of an MSIN, as a string. -/
def digitChars (digits : List (Fin 10)) : List UInt8 :=
  digits.map fun d : Fin 10 => 48 + UInt8.ofNat d

/-- The scheme output is the string of the digits. -/
def Suci5GSMobileIdentity.HasMsin (suci : Suci5GSMobileIdentity) (digits : List (Fin 10)) : Prop :=
  ∃ rest, suci.schemeoutput = digitChars digits ++ 0 :: rest

/-- Two digits an octet, the first one low; an odd one has `1111` beside it. -/
def bcdOctets : List (Fin 10) → List UInt8
  | [] => []
  | [d] => [nibbles 0xf (.ofNat 4 d)]
  | d₀ :: d₁ :: ds => nibbles (.ofNat 4 d₁) (.ofNat 4 d₀) :: bcdOctets ds

theorem length_bcdOctets : ∀ digits : List (Fin 10),
    (bcdOctets digits).length = digits.length / 2 + digits.length % 2
  | [] => rfl
  | [_] => by simp [bcdOctets]
  | _ :: _ :: ds => by
    simp only [bcdOctets, List.length_cons, length_bcdOctets ds]
    omega

theorem strlen_digitChars (digits : List (Fin 10)) (rest : List UInt8) :
    strlen (digitChars digits ++ 0 :: rest) = .ok digits.length := by
  have hdigit : ∀ d : Fin 10, 48 + UInt8.ofNat d ≠ 0 := by decide
  have hfind : (digitChars digits ++ 0 :: rest).findIdx? (· = 0) = some digits.length := by
    induction digits with
    | nil => rfl
    | cons d ds ih =>
      rw [digitChars] at ih ⊢
      rw [List.map_cons, List.cons_append, List.findIdx?_cons, if_neg (by simpa using hdigit d), ih]
      rfl
  rw [strlen, hfind]

/-- Two digits make an octet of BCD, and an odd one two octets that are not. -/
theorem schemeBytes_eq_iff : ∀ digits : List (Fin 10),
    schemeBytes (digitChars digits) = bcdOctets digits ↔ digits.length % 2 = 0
  | [] => by simp [digitChars, schemeBytes, bcdOctets]
  | [d] => by
    refine iff_of_false (fun h => ?_) (by simp)
    have hlength := congrArg List.length h
    simp [digitChars, schemeBytes, bcdOctets] at hlength
  | d₀ :: d₁ :: ds => by
    have hpair : ∀ d₀ d₁ : Fin 10, digit (48 + UInt8.ofNat d₁) <<< 4 |||
        digit (48 + UInt8.ofNat d₀) = nibbles (.ofNat 4 d₁) (.ofNat 4 d₀) := by
      decide
    have ih := schemeBytes_eq_iff ds
    rw [digitChars] at ih ⊢
    rw [List.map_cons, List.map_cons, schemeBytes, bcdOctets, hpair, List.cons_eq_cons, ih,
      List.length_cons, List.length_cons, and_iff_right rfl]
    omega

/-- The octets of a SUCI before its scheme output. -/
def suciHeaderBytes (suci : Suci5GSMobileIdentity) : List UInt8 :=
  [⟨0#1 ++ suci.supiformat ++ 0b0001#4⟩,
    nibbles suci.mccdigit2 suci.mccdigit1,
    nibbles suci.mncdigit3 suci.mccdigit3,
    nibbles suci.mncdigit2 suci.mncdigit1,
    nibbles suci.routingindicatordigit2 suci.routingindicatordigit1,
    nibbles suci.routingindicatordigit4 suci.routingindicatordigit3,
    nibbles 0 suci.protectionschemeId,
    suci.homenetworkpki]

theorem writes_encodeSuci {suci : Suci5GSMobileIdentity} {digits : List (Fin 10)}
    (h : suci.HasMsin digits) (buffer : Nat) :
    Writes (encodeSuci5gsMobileIdentity suci buffer) buffer
      (suciHeaderBytes suci ++ schemeBytes (digitChars digits))
      ((suciHeaderBytes suci ++ schemeBytes (digitChars digits)).length : Int) := by
  obtain ⟨rest, hrest⟩ := h
  have hlength : (digitChars digits).length = digits.length := List.length_map _
  have htake : suci.schemeoutput.take digits.length = digitChars digits := by
    rw [hrest, ← hlength]
    exact List.take_left' rfl
  have hstrlen : Writes (StateT.lift (strlen suci.schemeoutput) : NasEncoder Nat) buffer []
      digits.length := by
    rw [hrest, strlen_digitChars]
    exact .pure _ _
  unfold encodeSuci5gsMobileIdentity
  have hbind := hstrlen.bind (f := fun n => do
    let bytes := suciHeaderBytes suci ++ schemeBytes (suci.schemeoutput.take n)
    encodeBytes buffer bytes
    return (bytes.length : Int)) (by
      rw [htake]
      exact writes_encodeBytes_pure buffer _ _)
  exact hbind

/-! ## The round trips -/

/-- Decoding exactly the octets that a 5G-GUTI is encoded to gives it back, and consumes them. -/
def GutiRoundTrip (guti : Guti5GSMobileIdentity) (iei : UInt8) (b : List UInt8) : Prop :=
  ∃ n b', encode5gsMobileIdentity (.guti guti) iei 0 b.length b = .ok ((n : Nat), b') ∧
    ∀ old, decode5gsMobileIdentity old iei (b'.take n) n = .ok ((n : Int), guti)

/-- The length field is the number of octets behind it, and the scheme output is the BCD of the
digits. -/
def SuciEncoded (suci : Suci5GSMobileIdentity) (digits : List (Fin 10)) (iei : UInt8)
    (b : List UInt8) : Prop :=
  ∃ n b', encode5gsMobileIdentity (.suci suci) iei 0 b.length b = .ok ((n : Nat), b') ∧
    ((b'.take n).drop (mobileIdentityHeader iei - 2)).take 2 =
      htons (BitVec.ofNat 16 (n - mobileIdentityHeader iei)) ∧
    (b'.take n).drop (mobileIdentityHeader iei + 8) = bcdOctets digits

theorem gutiRoundTrip (guti : Guti5GSMobileIdentity) (h : guti.IsCoded) (iei : UInt8)
    {b : List UInt8} (hb : mobileIdentityHeader iei + 11 ≤ b.length) :
    GutiRoundTrip guti iei b := by
  have hlength := length_identityBytes iei (gutiBytes guti)
  have hguti : (gutiBytes guti).length = 11 := rfl
  rw [hguti] at hlength
  have hheader : 3 ≤ mobileIdentityHeader iei + 11 := by omega
  have hwrites : Writes (encode5gsMobileIdentity (.guti guti) iei 0 b.length) 0
      (identityBytes iei (gutiBytes guti)) ((identityBytes iei (gutiBytes guti)).length : Int) :=
    writes_encode5gsMobileIdentity (by omega) fun off _ => writes_encodeGuti guti off
  refine (hwrites.exists_take_iff (by omega)
    (P := fun n bytes => ∀ old, decode5gsMobileIdentity old iei bytes n =
      .ok ((n : Int), guti))).2 fun old => ?_
  exact decode_identityBytes old guti h iei _

theorem suciEncoded_iff {suci : Suci5GSMobileIdentity} {digits : List (Fin 10)}
    (h : suci.HasMsin digits) (iei : UInt8) {b : List UInt8}
    (hb : mobileIdentityHeader iei + (9 + digits.length) ≤ b.length) :
    SuciEncoded suci digits iei b ↔ digits.length % 2 = 0 := by
  have hlength := length_identityBytes iei (suciHeaderBytes suci ++ schemeBytes (digitChars digits))
  have hscheme : (schemeBytes (digitChars digits)).length ≤ digits.length + 1 := by
    rw [length_schemeBytes, digitChars, List.length_map]
    omega
  have hbody : (suciHeaderBytes suci ++ schemeBytes (digitChars digits)).length =
      8 + (schemeBytes (digitChars digits)).length := List.length_append
  have hwrites : Writes (encode5gsMobileIdentity (.suci suci) iei 0 b.length) 0
      (identityBytes iei (suciHeaderBytes suci ++ schemeBytes (digitChars digits)))
      ((identityBytes iei (suciHeaderBytes suci ++
        schemeBytes (digitChars digits))).length : Int) :=
    writes_encode5gsMobileIdentity (by omega) fun off _ => writes_encodeSuci h off
  refine (hwrites.exists_take_iff (by omega)
    (P := fun n bytes => (bytes.drop (mobileIdentityHeader iei - 2)).take 2 =
      htons (BitVec.ofNat 16 (n - mobileIdentityHeader iei)) ∧
      bytes.drop (mobileIdentityHeader iei + 8) = bcdOctets digits)).trans ?_
  have hoctets : BitVec.ofNat 16 ((identityBytes iei (suciHeaderBytes suci ++
      schemeBytes (digitChars digits))).length - mobileIdentityHeader iei) =
      BitVec.ofInt 16 ((suciHeaderBytes suci ++ schemeBytes (digitChars digits)).length : Int) := by
    rw [hlength, Nat.add_sub_cancel_left]
    exact (BitVec.ofInt_natCast _ _).symm
  have hdrop : (suciHeaderBytes suci ++ schemeBytes (digitChars digits)).drop 8 =
      schemeBytes (digitChars digits) := List.drop_left' rfl
  rw [lengthField_identityBytes, drop_identityBytes, hoctets, hdrop, schemeBytes_eq_iff]
  exact and_iff_right rfl

/-- Every 5G-GUTI survives, and the MSIN of a SUCI is encoded if and only if it has an even number
of digits. -/
theorem mobileIdentity_iff (guti : Guti5GSMobileIdentity) (suci : Suci5GSMobileIdentity)
    (digits : List (Fin 10)) (iei : UInt8) (b : List UInt8) (hguti : guti.IsCoded)
    (hsuci : suci.HasMsin digits)
    (hb : mobileIdentityHeader iei + (11 + digits.length) ≤ b.length) :
    GutiRoundTrip guti iei b ∧ SuciEncoded suci digits iei b ↔ digits.length % 2 = 0 := by
  rw [suciEncoded_iff hsuci iei (by omega)]
  exact and_iff_right (gutiRoundTrip guti hguti iei (by omega))

/-- A 5G-GUTI with a two digit MNC. -/
def gutiOf01 : Guti5GSMobileIdentity :=
  ⟨0xf, 0, 2, 0, 8, 9, 5, 0xf, 1, 2, 3, 0xdeadbeef⟩

/-- A SUCI of the null scheme, with the digits as MSIN. -/
def suciOf (digits : List (Fin 10)) : Suci5GSMobileIdentity :=
  ⟨0, 2, 0, 8, 9, 5, 0xf, 0, 0, 0, 0, 0, 0, digitChars digits ++ [0]⟩

/-- An MSIN of four digits. -/
theorem mobileIdentity_four_digits :
    GutiRoundTrip gutiOf01 0x77 (List.replicate 64 0) ∧
      SuciEncoded (suciOf [0, 1, 2, 3]) [0, 1, 2, 3] 0x77 (List.replicate 64 0) :=
  (mobileIdentity_iff gutiOf01 (suciOf [0, 1, 2, 3]) [0, 1, 2, 3] 0x77 (List.replicate 64 0)
    ⟨rfl, rfl⟩ ⟨[], rfl⟩ (by decide)).2 rfl

/-- An MSIN of three digits : the third one is in an octet of its own with a zero. -/
theorem suciEncoded_three_digits :
    ¬SuciEncoded (suciOf [1, 2, 3]) [1, 2, 3] 0 (List.replicate 64 0) := by
  rintro ⟨n, b', hencode, -, hscheme⟩
  have hcall : encode5gsMobileIdentity (.suci (suciOf [1, 2, 3])) 0 0 64 (List.replicate 64 0) =
      .ok (13, [0, 11, 1, 0x02, 0xf8, 0x59, 0, 0, 0, 0, 0x21, 0x03, 0xf0] ++
        List.replicate 51 0) := by
    decide
  cases hcall.symm.trans hencode
  exact absurd hscheme (by decide)

end NrStack
