import NrStack.Nas.IdentityRoundTrip

/-!
# Service Request

`encode_fgs_service_request` and `decode_fgs_service_request` ask for nine octets for a 5G-S-TMSI,
as many as it has with its length, where they have the length behind them. The encoder counts the
`-1` of an identity that finds no room, and the decoder turns down every message that ends with its
identity : nothing but a buffer that is too short for the encoder is handled right
(`serviceRequest_iff`). With two octets behind the message it is read back
(`decode_serviceRequestBytes`).
-/

namespace NrStack

/-! ## The decoders -/

/-- `decode_nas_key_set_identifier`, without an IEI. -/
def decodeNasKeySetIdentifier (value : UInt8) : NasKeySetIdentifier :=
  ⟨(value >>> 3).toBitVec.setWidth 1, value.toBitVec.setWidth 3⟩

/-- `decode_stmsi_5gs_mobile_identity`. -/
def decodeStmsi5gsMobileIdentity (stmsi : Stmsi5GSMobileIdentity) (buffer : List UInt8)
    (len : UInt32) : Except NasFault (Int × Stmsi5GSMobileIdentity) := do
  if len < 9 then
    return (-1, stmsi)
  let octet4 ← readByte buffer 0
  let stmsi := { stmsi with spare := (octet4 >>> 3).toBitVec.setWidth 1 }
  if octet4 &&& 0x7 ≠ 4 then
    return (-1, stmsi)
  let octet5 ← readByte buffer 1
  let octet6 ← readByte buffer 2
  let temp := ntohs octet5 octet6
  let octet7 ← readByte buffer 3
  let octet8 ← readByte buffer 4
  let octet9 ← readByte buffer 5
  let octet10 ← readByte buffer 6
  return (7, { stmsi with
    amfsetid := temp.extractLsb' 6 10
    amfpointer := temp.extractLsb' 0 6
    tmsi := ntohl octet7 octet8 octet9 octet10 })

/-- `decode_fgs_service_request`. The length of the identity is skipped. -/
def decodeFgsServiceRequest (sr : FgsServiceRequestMsg) (buffer : List UInt8) (len : UInt32) :
    Except NasFault (Int × FgsServiceRequestMsg) := do
  let octet1 ← readByte buffer 0
  let sr := { sr with
    serviceType := octet1.toBitVec.setWidth 4
    naskeysetidentifier := decodeNasKeySetIdentifier (octet1 >>> 4) }
  let (decodedRc, stmsi) ← decodeStmsi5gsMobileIdentity sr.fivegSTmsi (buffer.drop 3) (len - 3)
  let sr := { sr with fivegSTmsi := stmsi }
  if decodedRc < 0 then
    return (decodedRc, sr)
  return (3 + decodedRc, sr)

/-! ## The octets -/

/-- The octets of a 5G-S-TMSI. -/
def stmsiBytes (stmsi : Stmsi5GSMobileIdentity) : List UInt8 :=
  [⟨0xf#4 ++ stmsi.spare ++ 0b100#3⟩] ++ htons (stmsi.amfsetid ++ stmsi.amfpointer) ++
    htonl stmsi.tmsi

/-- The octets of a Service Request. -/
def serviceRequestBytes (msg : FgsServiceRequestMsg) : List UInt8 :=
  [nibbles (encodeNasKeySetIdentifier msg.naskeysetidentifier) msg.serviceType, 0, 7] ++
    stmsiBytes msg.fivegSTmsi

/-- With three octets to spare the message is encoded. -/
theorem writes_encodeFgsServiceRequest (msg : FgsServiceRequestMsg) {len : Nat} (hlen : 13 ≤ len) :
    Writes (encodeFgsServiceRequest 0 msg len) 0 (serviceRequestBytes msg) 10 := by
  have hstmsi : Writes (encodeStmsi5gsMobileIdentity 3 msg.fivegSTmsi (len - 1 - 3)) 3
      (stmsiBytes msg.fivegSTmsi) 7 := by
    unfold encodeStmsi5gsMobileIdentity
    rw [if_neg (by omega)]
    exact writes_encodeBytes_pure 3 (stmsiBytes msg.fivegSTmsi) 7
  have hlength : htons (BitVec.ofInt 16 ((3 : Nat) + 7 - 2 - 1)) = [0, 7] := by decide
  unfold encodeFgsServiceRequest
  rw [if_neg (by omega)]
  refine writes_encodeBytes 0 [nibbles (encodeNasKeySetIdentifier msg.naskeysetidentifier)
    msg.serviceType] ?_
  change Writes _ _ ([0, 7] ++ stmsiBytes msg.fivegSTmsi) _
  refine Writes.bind_front hstmsi ?_
  have hfront := writes_encodeBytes_pure 1 (htons (BitVec.ofInt 16 ((3 : Nat) + 7 - 2 - 1)))
    (((3 : Nat) : Int) + 7)
  rwa [hlength] at hfront

theorem decodeNasKeySetIdentifier_encode (ksi : NasKeySetIdentifier) (serviceType : BitVec 4) :
    decodeNasKeySetIdentifier ((nibbles (encodeNasKeySetIdentifier ksi) serviceType) >>> 4) =
      ksi := by
  have hall : ∀ (tsc : BitVec 1) (k : BitVec 3) (serviceType : BitVec 4),
      decodeNasKeySetIdentifier ((nibbles (encodeNasKeySetIdentifier ⟨tsc, k⟩) serviceType) >>> 4) =
        ⟨tsc, k⟩ := by
    decide
  exact hall ksi.tsc ksi.naskeysetidentifier serviceType

/-- The identity is read back, if nine octets are left. -/
theorem decode_stmsiBytes (old stmsi : Stmsi5GSMobileIdentity) (rest : List UInt8) {len : UInt32}
    (hlen : ¬len < 9) :
    decodeStmsi5gsMobileIdentity old (stmsiBytes stmsi ++ rest) len = .ok (7, stmsi) := by
  obtain ⟨spare, setid, pointer, tmsi⟩ := stmsi
  obtain ⟨hset, hpointer⟩ := amf_fields setid pointer
  have hword := ntohs_htons (setid ++ pointer : BitVec 16)
  have htmsi := ntohl_htonl tmsi
  have hspare : ∀ spare : BitVec 1,
      ((⟨0xf#4 ++ spare ++ 0b100#3⟩ : UInt8) >>> 3).toBitVec.setWidth 1 = spare := by decide
  have htype : ∀ spare : BitVec 1, (⟨0xf#4 ++ spare ++ 0b100#3⟩ : UInt8) &&& 0x7 = 4 := by decide
  rw [stmsiBytes, htonl_eq, htons]
  simp only [List.cons_append, List.nil_append, decodeStmsi5gsMobileIdentity, readByte,
    List.getElem?_cons_zero, List.getElem?_cons_succ, if_neg hlen]
  simp only [bind, Except.bind, pure, Except.pure, hspare, htype, hword, htmsi, hset, hpointer,
    ne_eq, not_true_eq_false, if_false]

/-- The message is read back, if two octets follow it. -/
theorem decode_serviceRequestBytes (old msg : FgsServiceRequestMsg) (rest : List UInt8)
    {len : UInt32} (hlen : 12 ≤ len) :
    decodeFgsServiceRequest old (serviceRequestBytes msg ++ rest) len = .ok (10, msg) := by
  have hleft : ¬len - 3 < 9 := by
    rw [UInt32.le_iff_toNat_le] at hlen
    have htwelve : (12 : UInt32).toNat = 12 := rfl
    have hsub := UInt32.toNat_sub_of_le len 3 (UInt32.le_iff_toNat_le.2 (by
      have hthree : (3 : UInt32).toNat = 3 := rfl
      omega))
    rw [UInt32.lt_iff_toNat_lt, hsub]
    have hthree : (3 : UInt32).toNat = 3 := rfl
    have hnine : (9 : UInt32).toNat = 9 := rfl
    omega
  have hdrop : (serviceRequestBytes msg ++ rest).drop 3 = stmsiBytes msg.fivegSTmsi ++ rest := rfl
  have hoctet1 : readByte (serviceRequestBytes msg ++ rest) 0 =
      .ok (nibbles (encodeNasKeySetIdentifier msg.naskeysetidentifier) msg.serviceType) := rfl
  unfold decodeFgsServiceRequest
  rw [hdrop, hoctet1]
  simp only [bind, Except.bind, decode_stmsiBytes _ _ _ hleft, nibbles_low,
    decodeNasKeySetIdentifier_encode]
  rfl

/-- A message that ends with its identity is turned down. -/
theorem decode_serviceRequestBytes_exact (old msg : FgsServiceRequestMsg) :
    ∃ sr, decodeFgsServiceRequest old (serviceRequestBytes msg) 10 = .ok (-1, sr) :=
  ⟨_, rfl⟩

/-! ## Failures -/

theorem encodeFgsServiceRequest_short (msg : FgsServiceRequestMsg) {len : Nat} (hlen : len < 10)
    (b : List UInt8) : encodeFgsServiceRequest 0 msg len b = .ok (-1, b) := by
  unfold encodeFgsServiceRequest
  rw [if_pos hlen]
  rfl

/-- An identity without room counts as an octet less. -/
theorem encodeFgsServiceRequest_no_room (msg : FgsServiceRequestMsg) {len : Nat} (hlen : 10 ≤ len)
    (hroom : len < 13) {b : List UInt8} (hb : 3 ≤ b.length) :
    ∃ b', encodeFgsServiceRequest 0 msg len b = .ok (2, b') := by
  have hstmsi : encodeStmsi5gsMobileIdentity 3 msg.fivegSTmsi (len - 1 - 3) =
      (pure (-1) : NasEncoder Int) := by
    unfold encodeStmsi5gsMobileIdentity
    rw [if_pos (by omega)]
  have hret : ((3 : Nat) : Int) + -1 = 2 := rfl
  have hwrites : Writes (encodeFgsServiceRequest 0 msg len) 0
      ([nibbles (encodeNasKeySetIdentifier msg.naskeysetidentifier) msg.serviceType] ++
        htons (BitVec.ofInt 16 ((3 : Nat) + -1 - 2 - 1))) (((3 : Nat) : Int) + -1) := by
    unfold encodeFgsServiceRequest
    rw [if_neg (by omega)]
    refine writes_encodeBytes 0 _ ?_
    have hfront := writes_encodeBytes_pure 1 (htons (BitVec.ofInt 16 ((3 : Nat) + -1 - 2 - 1)))
      (((3 : Nat) : Int) + -1)
    rw [← List.nil_append (htons _)]
    refine Writes.bind (a := (-1 : Int)) ?_ hfront
    have hpure : Writes (pure (-1) : NasEncoder Int) 1 [] (-1) := .pure 1 (-1)
    rwa [← hstmsi] at hpure
  rw [hret] at hwrites
  exact ⟨_, hwrites b hb⟩

/-! ## The message -/

/-- Encoding into `b` fails, or it writes the octets of the message and returns their number, and
these are read back. -/
def ServiceRequestHandled (msg : FgsServiceRequestMsg) (b : List UInt8) : Prop :=
  ∃ ret b', encodeFgsServiceRequest 0 msg b.length b = .ok (ret, b') ∧
    (ret < 0 ∨ ret = (serviceRequestBytes msg).length ∧
      b' = overwrite b 0 (serviceRequestBytes msg) ∧
      ∀ old, decodeFgsServiceRequest old (serviceRequestBytes msg)
        (.ofNat (serviceRequestBytes msg).length) = .ok (ret, msg))

/-- Only a buffer that is too short at once is handled right. -/
theorem serviceRequest_iff (msg : FgsServiceRequestMsg) (b : List UInt8) :
    ServiceRequestHandled msg b ↔ b.length < 10 := by
  have hlength : (serviceRequestBytes msg).length = 10 := rfl
  constructor
  · rintro ⟨ret, b', hencode, hhandled⟩
    by_contra hlen
    rw [not_lt] at hlen
    by_cases hroom : b.length < 13
    · obtain ⟨b₂, hcall⟩ := encodeFgsServiceRequest_no_room msg hlen hroom (b := b) (by omega)
      cases hcall.symm.trans hencode
      rcases hhandled with hneg | ⟨hret, -, -⟩
      · omega
      · rw [hlength] at hret
        omega
    · have hcall := writes_encodeFgsServiceRequest msg (not_lt.1 hroom) b (by
        rw [hlength]
        omega)
      cases hcall.symm.trans hencode
      rcases hhandled with hneg | ⟨-, -, hdecode⟩
      · omega
      · obtain ⟨sr, hsr⟩ := decode_serviceRequestBytes_exact msg msg
        cases hsr.symm.trans (hdecode msg)
  · intro hlen
    exact ⟨-1, b, encodeFgsServiceRequest_short msg hlen b, .inl (by decide)⟩

/-- A Service Request for data, with a 5G-S-TMSI. -/
def dataRequest : FgsServiceRequestMsg :=
  ⟨⟨0, 7⟩, 1, ⟨0, 0x48, 0x34, 0x56789abc⟩⟩

/-- In a buffer of ten octets two are counted, and the message from a large buffer is not read
back. -/
theorem dataRequest_not_handled :
    ¬ServiceRequestHandled dataRequest (List.replicate 10 0) ∧
      ¬ServiceRequestHandled dataRequest (List.replicate 64 0) := by
  constructor
  · rintro ⟨ret, b', hencode, hhandled⟩
    have hcall : encodeFgsServiceRequest 0 dataRequest 10 (List.replicate 10 0) =
        .ok (2, [0x71, 0xff, 0xff, 0, 0, 0, 0, 0, 0, 0]) := by
      decide
    cases hcall.symm.trans hencode
    rcases hhandled with hneg | ⟨hret, -, -⟩
    · exact absurd hneg (by decide)
    · exact absurd hret (by decide)
  · rintro ⟨ret, b', hencode, hhandled⟩
    have hcall : encodeFgsServiceRequest 0 dataRequest 64 (List.replicate 64 0) =
        .ok (10, serviceRequestBytes dataRequest ++ List.replicate 54 0) := by
      decide
    cases hcall.symm.trans hencode
    rcases hhandled with hneg | ⟨-, -, hdecode⟩
    · exact absurd hneg (by decide)
    · exact absurd (hdecode dataRequest) (by decide)

end NrStack
