import NrStack.Nas.MobileIdentity

/-!
# Uplink 5GMM messages

The messages a UE sends in a protected NAS message and their encoders : `mm_msg_encode` with
the encoders it calls, the security header, and the PDU Session Establishment Request that an
Uplink NAS Transport carries.
-/

namespace NrStack

/-! ## Headers -/

/-- The message types of `fgs_nas_msg_t` that are encoded here. -/
inductive FgsNasMsg
  | registrationRequest
  | registrationComplete
  | deregistrationRequestUeOriginating
  | serviceRequest
  | securityModeComplete
  | uplinkNasTransport
deriving DecidableEq, Repr

def FgsNasMsg.toByte : FgsNasMsg → UInt8
  | registrationRequest => 0x41
  | registrationComplete => 0x43
  | deregistrationRequestUeOriginating => 0x45
  | serviceRequest => 0x4c
  | securityModeComplete => 0x5e
  | uplinkNasTransport => 0x67

def SecurityHeader.toByte : SecurityHeader → UInt8
  | plain5gsMsg => 0
  | integrityProtected => 1
  | integrityProtectedAndCiphered => 2
  | integrityProtectedWithNewSecuCtx => 3
  | integrityProtectedAndCipheredWithNewSecuCtx => 4

/-- `FGS_MOBILITY_MANAGEMENT_MESSAGE`. -/
def fgsMobilityManagementMessage : UInt8 :=
  0x7e

/-- `FGS_SESSION_MANAGEMENT_MESSAGE`. -/
def fgsSessionManagementMessage : UInt8 :=
  0x2e

/-- `fgmm_msg_header_t`. -/
structure FgmmMsgHeader where
  exProtocolDiscriminator : UInt8
  securityHeaderType : UInt8
  messageType : UInt8
deriving DecidableEq, Repr

/-- `sizeof(fgmm_msg_header_t)`. -/
def sizeofFgmmMsgHeader : Nat :=
  3

/-- `set_mm_header`. -/
def setMmHeader (type : FgsNasMsg) (security : SecurityHeader) : FgmmMsgHeader :=
  ⟨fgsMobilityManagementMessage, security.toByte, type.toByte⟩

/-- `_nas_mm_msg_encode_header`. -/
def nasMmMsgEncodeHeader (header : FgmmMsgHeader) (buffer len : Nat) : NasEncoder Int := do
  if len < sizeofFgmmMsgHeader then
    return tlvEncodeBufferTooShort
  if header.exProtocolDiscriminator ≠ fgsMobilityManagementMessage then
    -- `TLV_ENCODE_PROTOCOL_NOT_SUPPORTED`
    return -12
  encodeBytes buffer
    [header.exProtocolDiscriminator, header.securityHeaderType &&& 0xf, header.messageType]
  return 3

/-- `fgs_nas_message_security_header_t`. -/
structure FgsNasMessageSecurityHeader where
  protocolDiscriminator : UInt8
  securityHeaderType : UInt8
  messageAuthenticationCode : BitVec 32
  sequenceNumber : UInt8
deriving DecidableEq, Repr

/-- `nas_protected_security_header_encode`. -/
def nasProtectedSecurityHeaderEncode (buffer : Nat) (header : FgsNasMessageSecurityHeader)
    (length : Int) : NasEncoder Int := do
  if length < securityProtected5gsNasMessageHeaderLength then
    return -1
  encodeBytes buffer
    ([header.protocolDiscriminator, header.securityHeaderType &&& 0xf] ++
      htonl header.messageAuthenticationCode ++ [header.sequenceNumber])
  return 7

/-! ## Information elements -/

/-- `NasKeySetIdentifier`. -/
structure NasKeySetIdentifier where
  tsc : BitVec 1
  naskeysetidentifier : BitVec 3
deriving DecidableEq, Repr

/-- `encode_nas_key_set_identifier`, called with the IEI `0`. -/
def encodeNasKeySetIdentifier (ksi : NasKeySetIdentifier) : BitVec 4 :=
  ksi.tsc ++ ksi.naskeysetidentifier

/-- `FOLLOW_ON_REQUEST`. -/
def followOnRequest : UInt8 :=
  0x08

/-- `encode_5gs_registration_type`. -/
def encode5gsRegistrationType (type : UInt8) (followOn : Bool) : UInt8 :=
  (if followOn then followOnRequest else 0) ||| type &&& 0x7

/-- Flags in a byte, the first one highest. -/
def octetOfFlags (flags : List Bool) : UInt8 :=
  flags.foldl (fun octet flag => octet <<< 1 ||| flag.toUInt8) 0

/-- `FGMMCapability`. -/
structure FGMMCapability where
  iei : UInt8
  length : UInt8
  sgc : Bool
  iphcCpCIoT : Bool
  n3Data : Bool
  cpCIoT : Bool
  restrictEc : Bool
  lpp : Bool
  hoAttach : Bool
  s1Mode : Bool
  racs : Bool
  nssaa : Bool
  lcs : Bool
  v2xCnpc5 : Bool
  v2xCepc5 : Bool
  v2x : Bool
  upCIoT : Bool
  srvcc : Bool
  ehcCpCiot : Bool
  multipleEUP : Bool
  wusa : Bool
  cag : Bool
deriving DecidableEq, Repr

/-- `encode_5gmm_capability`. The octets from the sixth on are written but not counted. -/
def encode5gmmCapability (buffer : Nat) (cap : FGMMCapability) (len : Nat) : NasEncoder Int := do
  if len < 3 then
    return -1
  let bytes := (if cap.iei = 0 then [] else [cap.iei]) ++ [cap.length,
      octetOfFlags [cap.sgc, cap.iphcCpCIoT, cap.n3Data, cap.cpCIoT, cap.restrictEc, cap.lpp,
        cap.hoAttach, cap.s1Mode]] ++
    (if cap.length ≥ 2 then [octetOfFlags [cap.racs, cap.nssaa, cap.lcs, cap.v2xCnpc5,
      cap.v2xCepc5, cap.v2x, cap.upCIoT, cap.srvcc]] else []) ++
    (if cap.length ≥ 3 then [octetOfFlags [cap.ehcCpCiot, cap.multipleEUP, cap.wusa, cap.cag]]
      else [])
  encodeBytes buffer
    (bytes ++ if cap.length ≥ 4 then List.replicate (cap.length.toNat - 3) 0 else [])
  return bytes.length

/-- `NrUESecurityCapability`. -/
structure NrUESecurityCapability where
  iei : UInt8
  length : UInt8
  fgEA : UInt8
  fgIA : UInt8
  eea : UInt8
  eia : UInt8
deriving DecidableEq, Repr

/-- `encode_nrue_security_capability`. The octets from the seventh on are counted but not
written. -/
def encodeNrueSecurityCapability (cap : NrUESecurityCapability) (iei : UInt8) (buffer : Nat) :
    NasEncoder Int := do
  if iei = 0 then
    return 0
  encodeBytes buffer [cap.iei, cap.length, cap.fgEA, cap.fgIA, cap.eea, cap.eia]
  return 6 + (if cap.length.toNat > 4 then (cap.length.toNat : Int) - 4 else 0)

/-- `encode_octet_string`. -/
def encodeOctetString (octetstring : List UInt8) (buffer buflen : Nat) : NasEncoder Int := do
  if octetstring = [] then
    return 0
  if buflen < octetstring.length then
    return tlvEncodeBufferTooShort
  encodeBytes buffer octetstring
  return octetstring.length

/-- `encode_fgc_nas_message_container`. -/
def encodeFgcNasMessageContainer (contents : List UInt8) (iei : UInt8) (buffer len : Nat) :
    NasEncoder Int := do
  if len < 4 then
    return tlvEncodeBufferTooShort
  if iei > 0 then
    encodeBytes buffer [iei]
  let encoded := (if iei > 0 then 1 else 0) + 2
  let encodeResult ← encodeOctetString contents (buffer + encoded) (len - encoded)
  if encodeResult < 0 then
    return encodeResult
  encodeBytes (buffer + 1) (htons (BitVec.ofInt 16 (encoded + encodeResult - 3)))
  return encoded + encodeResult

/-- `encode_sor_transparent_container`. -/
def encodeSorTransparentContainer (contents : List UInt8) (iei : UInt8) (buffer len : Nat) :
    NasEncoder Int := do
  if len < 2 then
    return tlvEncodeBufferTooShort
  if iei > 0 then
    encodeBytes buffer [iei]
  let encoded := if iei > 0 then 1 else 0
  let lenPtr := buffer + encoded
  let encodeResult ← encodeOctetString contents (lenPtr + 2) (len - 2)
  if encodeResult < 0 then
    return encodeResult
  encodeBytes lenPtr (htons (BitVec.ofInt 16 encodeResult))
  return encoded + encodeResult + 2

/-! ## Messages -/

/-- `registration_request_msg`. -/
structure RegistrationRequestMsg where
  fgsregistrationtype : UInt8
  naskeysetidentifier : NasKeySetIdentifier
  fgsmobileidentity : FGSMobileIdentity
  fgsnasmessagecontainer : List UInt8
  presencemask : UInt32
  fgmmcapability : FGMMCapability
  nruesecuritycapability : NrUESecurityCapability
deriving DecidableEq, Repr

/-- `REGISTRATION_REQUEST_5GMM_CAPABILITY_PRESENT`. -/
def registrationRequest5gmmCapabilityPresent : UInt32 :=
  (1 : UInt32) <<< 1

/-- `REGISTRATION_REQUEST_UE_SECURITY_CAPABILITY_PRESENT`. -/
def registrationRequestUeSecurityCapabilityPresent : UInt32 :=
  (1 : UInt32) <<< 2

/-- `REGISTRATION_REQUEST_NAS_MESSAGE_CONTAINER_PRESENT`. -/
def registrationRequestNasMessageContainerPresent : UInt32 :=
  (1 : UInt32) <<< 20

/-- The flags of `presencemask` for an IE are set. -/
def RegistrationRequestMsg.Has (rr : RegistrationRequestMsg) (flag : UInt32) : Prop :=
  rr.presencemask &&& flag = flag

instance (rr : RegistrationRequestMsg) (flag : UInt32) : Decidable (rr.Has flag) :=
  inferInstanceAs (Decidable (_ = _))

/-- Encode an IE if it is present. -/
def encodeIf (present : Prop) [Decidable present] (ie : NasEncoder Int) : NasEncoder Int :=
  if present then ie else return 0

/-- `encode_registration_request`. The NAS message container is not encoded. -/
def encodeRegistrationRequest (rr : RegistrationRequestMsg) (buffer len : Nat) :
    NasEncoder Int := do
  encodeBytes buffer [nibbles (encodeNasKeySetIdentifier rr.naskeysetidentifier)
    ((encode5gsRegistrationType rr.fgsregistrationtype true).toBitVec.setWidth 4)]
  let encoded := 1
  let encodeResult ← encode5gsMobileIdentity rr.fgsmobileidentity 0 (buffer + encoded)
    (len - encoded)
  if encodeResult < 0 then
    return encodeResult
  let encoded := encoded + encodeResult.toNat
  let encodeResult ← encodeIf (rr.Has registrationRequest5gmmCapabilityPresent)
    (encode5gmmCapability (buffer + encoded) rr.fgmmcapability (len - encoded))
  if encodeResult < 0 then
    return encodeResult
  let encoded := encoded + encodeResult.toNat
  let encodeResult ← encodeIf (rr.Has registrationRequestUeSecurityCapabilityPresent)
    (encodeNrueSecurityCapability rr.nruesecuritycapability 0x2e (buffer + encoded))
  if encodeResult < 0 then
    return encodeResult
  return encoded + encodeResult

/-- `fgs_security_mode_complete_msg`. -/
structure FgsSecurityModeCompleteMsg where
  fgsmobileidentity : FGSMobileIdentity
  fgsnasmessagecontainer : List UInt8
deriving DecidableEq, Repr

/-- `encode_fgs_security_mode_complete`. -/
def encodeFgsSecurityModeComplete (msg : FgsSecurityModeCompleteMsg) (buffer len : Nat) :
    NasEncoder Int := do
  let encoded ← encode5gsMobileIdentity msg.fgsmobileidentity 0x77 buffer len
  if encoded < 0 then
    return encoded
  let encodeResult ← encodeFgcNasMessageContainer msg.fgsnasmessagecontainer 0x71
    (buffer + encoded.toNat) (len - encoded.toNat)
  if encodeResult < 0 then
    return encodeResult
  return encoded + encodeResult

/-- `fgs_uplink_nas_transport_msg`. -/
structure FgsUplinkNasTransportMsg where
  payloadcontainerIei : BitVec 4
  payloadcontainerType : BitVec 4
  fgspayloadcontainer : List UInt8
  pdusessionid : UInt16
  requesttype : UInt8
  snssai : List UInt8
  dnn : List UInt8
deriving DecidableEq, Repr

/-- `encode_fgs_payload_container`, called with the IEI `0`. -/
def encodeFgsPayloadContainer (contents : List UInt8) (buffer len : Nat) : NasEncoder Int := do
  let encodeResult ← encodeOctetString contents (buffer + 2) (len - 2)
  if encodeResult < 0 then
    return encodeResult
  encodeBytes buffer (htons (BitVec.ofInt 16 encodeResult))
  return 2 + encodeResult

/-- `encode_nssai` and `encode_dnn`, which are one text. Both are called with an IEI. -/
def encodeLv (contents : List UInt8) (iei : UInt8) (buffer : Nat) : NasEncoder Int := do
  encodeBytes buffer [iei, UInt8.ofNat contents.length]
  let encodeResult ← encodeOctetString contents (buffer + 2) contents.length
  if encodeResult < 0 then
    return encodeResult
  return 2 + encodeResult

/-- `encode_fgs_uplink_nas_transport`. -/
def encodeFgsUplinkNasTransport (msg : FgsUplinkNasTransportMsg) (buffer len : Nat) :
    NasEncoder Int := do
  encodeBytes buffer [nibbles msg.payloadcontainerIei msg.payloadcontainerType]
  let encoded := 1
  let encodeResult ← encodeFgsPayloadContainer msg.fgspayloadcontainer (buffer + encoded)
    (len - encoded)
  if encodeResult < 0 then
    return encodeResult
  let encoded := encoded + encodeResult.toNat
  encodeBytes (buffer + encoded)
    [0x12, msg.pdusessionid.toUInt8, (0x8 : UInt8) <<< 4 ||| msg.requesttype &&& 0x7]
  let encoded := encoded + 3
  let encodeResult ← encodeLv msg.snssai 0x22 (buffer + encoded)
  if encodeResult < 0 then
    return encodeResult
  let encoded := encoded + encodeResult.toNat
  let encodeResult ← encodeLv msg.dnn 0x25 (buffer + encoded)
  if encodeResult < 0 then
    return encodeResult
  return encoded + encodeResult

/-- `fgs_deregistration_request_ue_originating_msg`. -/
structure FgsDeregistrationRequestMsg where
  switchoff : BitVec 1
  reregistrationRequired : BitVec 1
  accessType : BitVec 2
  naskeysetidentifier : NasKeySetIdentifier
  fgsmobileidentity : FGSMobileIdentity
deriving DecidableEq, Repr

/-- `encode_fgs_deregistration_request_ue_originating`. The key set identifier is encoded, but
not into the message. -/
def encodeFgsDeregistrationRequest (drr : FgsDeregistrationRequestMsg) (buffer len : Nat) :
    NasEncoder Int := do
  encodeBytes buffer [nibbles (drr.switchoff ++ drr.reregistrationRequired ++ drr.accessType) 0]
  let encodeResult ← encode5gsMobileIdentity drr.fgsmobileidentity 0 (buffer + 1) (len - 1)
  if encodeResult < 0 then
    return encodeResult
  return 1 + encodeResult

/-- `fgs_service_request_msg_t`. -/
structure FgsServiceRequestMsg where
  naskeysetidentifier : NasKeySetIdentifier
  serviceType : BitVec 4
  fivegSTmsi : Stmsi5GSMobileIdentity
deriving DecidableEq, Repr

/-- `encode_fgs_service_request`. The remaining length loses the first byte twice, and an
identity that does not fit counts as `-1` byte. -/
def encodeFgsServiceRequest (buffer : Nat) (msg : FgsServiceRequestMsg) (len : Nat) :
    NasEncoder Int := do
  if len < 10 then
    return -1
  encodeBytes buffer [nibbles (encodeNasKeySetIdentifier msg.naskeysetidentifier) msg.serviceType]
  let encoded := 1
  let len := len - encoded
  let encoded := encoded + 2
  let len := len - encoded
  let encodedRc ← encodeStmsi5gsMobileIdentity (buffer + encoded) msg.fivegSTmsi len
  let encoded := encoded + encodedRc
  encodeBytes (buffer + 1) (htons (BitVec.ofInt 16 (encoded - 2 - 1)))
  return encoded

/-- `registration_complete_msg`. -/
structure RegistrationCompleteMsg where
  sortransparentcontainer : Option (List UInt8)
deriving DecidableEq, Repr

/-- `encode_registration_complete`. -/
def encodeRegistrationComplete (msg : RegistrationCompleteMsg) (buffer len : Nat) :
    NasEncoder Int :=
  match msg.sortransparentcontainer with
  | none => return 0
  | some contents => encodeSorTransparentContainer contents 0 buffer len

/-- The union of `fgmm_nas_message_plain_t`, without the messages that are never protected. -/
inductive MmMsg
  | registrationRequest (msg : RegistrationRequestMsg)
  | securityModeComplete (msg : FgsSecurityModeCompleteMsg)
  | uplinkNasTransport (msg : FgsUplinkNasTransportMsg)
  | deregistrationRequest (msg : FgsDeregistrationRequestMsg)
  | serviceRequest (msg : FgsServiceRequestMsg)
deriving DecidableEq, Repr

/-- The message type, by which the code tells the members of the union apart. -/
def MmMsg.type : MmMsg → FgsNasMsg
  | registrationRequest _ => .registrationRequest
  | securityModeComplete _ => .securityModeComplete
  | uplinkNasTransport _ => .uplinkNasTransport
  | deregistrationRequest _ => .deregistrationRequestUeOriginating
  | serviceRequest _ => .serviceRequest

/-- The encoder `mm_msg_encode` calls for a message. -/
def MmMsg.encode (msg : MmMsg) (buffer len : Nat) : NasEncoder Int :=
  match msg with
  | registrationRequest msg => encodeRegistrationRequest msg buffer len
  | securityModeComplete msg => encodeFgsSecurityModeComplete msg buffer len
  | uplinkNasTransport msg => encodeFgsUplinkNasTransport msg buffer len
  | deregistrationRequest msg => encodeFgsDeregistrationRequest msg buffer len
  | serviceRequest msg => encodeFgsServiceRequest buffer msg len

/-- `fgmm_nas_message_plain_t`, with the message type of its message in the header. -/
structure FgmmNasMessagePlain where
  security : SecurityHeader
  mmMsg : MmMsg
deriving DecidableEq, Repr

def FgmmNasMessagePlain.header (p : FgmmNasMessagePlain) : FgmmMsgHeader :=
  setMmHeader p.mmMsg.type p.security

/-- `mm_msg_encode`. -/
def mmMsgEncode (p : FgmmNasMessagePlain) (buffer len : Nat) : NasEncoder Int := do
  let encHeader ← nasMmMsgEncodeHeader p.header buffer len
  if encHeader < 0 then
    return encHeader
  let encMsg ← p.mmMsg.encode (buffer + encHeader.toNat) (len - encHeader.toNat)
  if encMsg < 0 then
    return encMsg
  return encHeader + encMsg

/-- `pdu_session_establishment_request_msg`. -/
structure PduSessionEstablishmentRequestMsg where
  protocoldiscriminator : UInt8
  pdusessionid : UInt8
  pti : UInt8
  pdusessionestblishmsgtype : UInt8
  maxdatarate : BitVec 16
  pdusessiontype : UInt8
deriving DecidableEq, Repr

/-- `encode_pdu_session_establishment_request` : the bytes it writes. -/
def encodePduSessionEstablishmentRequest (msg : PduSessionEstablishmentRequestMsg) : List UInt8 :=
  [msg.protocoldiscriminator, msg.pdusessionid, msg.pti, msg.pdusessionestblishmsgtype] ++
    htons msg.maxdatarate ++ [msg.pdusessiontype]

theorem length_encodePduSessionEstablishmentRequest (msg : PduSessionEstablishmentRequestMsg) :
    (encodePduSessionEstablishmentRequest msg).length = 7 :=
  rfl

/-! ## What they write -/

section Stores

variable {lo hi n : Nat} (buffer : Nat) {len : Nat} {α : Type} {c : α}

/-- The check for an error code, passed. -/
theorem stores_ok {a : Nat} {m m' : NasEncoder α} (h : Stores m lo hi c) :
    Stores (if (a : Int) < 0 then m' else m) lo hi c := by
  rwa [if_neg (by omega)]

theorem stores_nasMmMsgEncodeHeader {header : FgmmMsgHeader} (hlen : 3 ≤ len)
    (h : header.exProtocolDiscriminator = fgsMobilityManagementMessage) :
    Stores (nasMmMsgEncodeHeader header buffer len) buffer (buffer + 3) 3 := by
  unfold nasMmMsgEncodeHeader sizeofFgmmMsgHeader
  rw [if_neg (by omega), if_neg (not_not.2 h)]
  exact stores_encodeBytes le_rfl (by simp) (.pure _ _ _)

theorem stores_encodeOctetString {octetstring : List UInt8} (h : octetstring.length ≤ len) :
    Stores (encodeOctetString octetstring buffer len) buffer (buffer + octetstring.length)
      (octetstring.length : Int) := by
  unfold encodeOctetString
  split_ifs with hnil
  · subst hnil
    exact .pure _ _ _
  · exact absurd h (by omega)
  · exact stores_encodeBytes le_rfl le_rfl (.pure _ _ _)

/-- A capability of one octet. -/
theorem stores_encode5gmmCapability {cap : FGMMCapability} (hlen : 3 ≤ len) (hiei : cap.iei ≠ 0)
    (h : cap.length = 1) :
    Stores (encode5gmmCapability buffer cap len) buffer (buffer + 3) 3 := by
  unfold encode5gmmCapability
  rw [if_neg (by omega), if_neg hiei, h]
  exact stores_encodeBytes le_rfl (by simp) (.pure _ _ _)

/-- A capability of eight octets. -/
theorem stores_encodeNrueSecurityCapability {cap : NrUESecurityCapability} {iei : UInt8}
    (hiei : iei ≠ 0) (h : cap.length = 8) :
    Stores (encodeNrueSecurityCapability cap iei buffer) buffer (buffer + 10) 10 := by
  unfold encodeNrueSecurityCapability
  rw [if_neg hiei, h]
  exact stores_encodeBytes le_rfl (by simp) (.pure _ _ _)

theorem encodeIf_pos {p : Prop} [Decidable p] {ie : NasEncoder Int} (h : p) :
    encodeIf p ie = ie :=
  if_pos h

theorem stores_encodeIf {buffer : Nat} {p : Prop} [Decidable p] {ie : NasEncoder Int}
    (h : p → Stores ie buffer (buffer + n) n) :
    Stores (encodeIf p ie) buffer (buffer + if p then n else 0)
      ((if p then n else 0 : Nat) : Int) := by
  unfold encodeIf
  split_ifs with hp
  · exact h hp
  · exact .pure _ _ _

/-- The registration requests the UE builds, with an identity of `n` bytes. -/
structure RegistrationRequestMsg.Standard (rr : RegistrationRequestMsg) (n : Nat) : Prop where
  identity : rr.fgsmobileidentity.Encodes n
  capability : rr.Has registrationRequest5gmmCapabilityPresent →
    rr.fgmmcapability.iei ≠ 0 ∧ rr.fgmmcapability.length = 1
  security_present : rr.Has registrationRequestUeSecurityCapabilityPresent
  security_length : rr.nruesecuritycapability.length = 8

/-- The size of such a request. -/
def RegistrationRequestMsg.size (rr : RegistrationRequestMsg) (n : Nat) : Nat :=
  1 + (2 + n) + (if rr.Has registrationRequest5gmmCapabilityPresent then 3 else 0) + 10

theorem stores_encodeRegistrationRequest {rr : RegistrationRequestMsg} (h : rr.Standard n)
    (hlen : rr.size n ≤ len) :
    Stores (encodeRegistrationRequest rr buffer len) buffer (buffer + rr.size n)
      (rr.size n : Int) := by
  unfold RegistrationRequestMsg.size at hlen ⊢
  unfold encodeRegistrationRequest
  refine stores_encodeBytes le_rfl (by rw [List.length_singleton]; omega) ?_
  have hid := stores_encode5gsMobileIdentity (buffer + 1) 0 h.identity
    (by split_ifs at hlen <;> omega : 3 ≤ len - 1)
  rw [mobileIdentityHeader_zero] at hid
  refine (hid.mono (by omega) (by omega)).bind (stores_ok ?_)
  rw [Int.toNat_natCast]
  have hcap := stores_encodeIf fun hp : rr.Has registrationRequest5gmmCapabilityPresent =>
    stores_encode5gmmCapability (buffer + (1 + (2 + n)))
      (by rw [if_pos hp] at hlen; omega : 3 ≤ len - (1 + (2 + n))) (h.capability hp).1
      (h.capability hp).2
  refine (hcap.mono (by omega) (by omega)).bind (stores_ok ?_)
  simp only [Int.toNat_natCast, encodeIf_pos h.security_present]
  have hsec := stores_encodeNrueSecurityCapability
    (buffer + (1 + (2 + n) + if rr.Has registrationRequest5gmmCapabilityPresent then 3 else 0))
    (by decide : (0x2e : UInt8) ≠ 0) h.security_length
  refine (hsec.mono (by omega) (by omega)).bind ?_
  rw [if_neg (by decide)]
  exact .pure _ _ _

theorem stores_encodeSorTransparentContainer {contents : List UInt8}
    (h : 2 + contents.length ≤ len) :
    Stores (encodeSorTransparentContainer contents 0 buffer len) buffer
      (buffer + (2 + contents.length)) ((contents.length + 2 : Nat) : Int) := by
  unfold encodeSorTransparentContainer
  rw [if_neg (by omega)]
  simp only [if_neg (by decide : ¬(0 : UInt8) > 0), add_zero, Nat.cast_zero, zero_add]
  have hstring := stores_encodeOctetString (buffer + 2) (by omega : contents.length ≤ len - 2)
  refine (hstring.mono (by omega) (by omega)).bind (stores_ok ?_)
  refine stores_encodeBytes le_rfl (by rw [length_htons]; omega) ?_
  rw [Nat.cast_add contents.length]
  exact .pure _ _ _

theorem stores_encodeFgcNasMessageContainer {contents : List UInt8} {iei : UInt8} (hiei : iei > 0)
    (h : 3 + contents.length ≤ len) (hlen : 4 ≤ len) :
    Stores (encodeFgcNasMessageContainer contents iei buffer len) buffer
      (buffer + (3 + contents.length)) ((3 + contents.length : Nat) : Int) := by
  unfold encodeFgcNasMessageContainer
  rw [if_neg (by omega)]
  simp only [hiei, if_true]
  refine stores_encodeBytes le_rfl (by rw [List.length_singleton]; omega) ?_
  have hstring := stores_encodeOctetString (buffer + (1 + 2))
    (by omega : contents.length ≤ len - (1 + 2))
  refine (hstring.mono (by omega) (by omega)).bind (stores_ok ?_)
  refine stores_encodeBytes (by omega) (by rw [length_htons]; omega) ?_
  rw [Nat.cast_add 3 contents.length]
  exact .pure _ _ _

theorem stores_encodeFgsSecurityModeComplete {msg : FgsSecurityModeCompleteMsg}
    (h : msg.fgsmobileidentity.Encodes n)
    (hlen : 3 + n + (4 + msg.fgsnasmessagecontainer.length) ≤ len) :
    Stores (encodeFgsSecurityModeComplete msg buffer len) buffer
      (buffer + (3 + n + (3 + msg.fgsnasmessagecontainer.length)))
      ((3 + n + (3 + msg.fgsnasmessagecontainer.length) : Nat) : Int) := by
  unfold encodeFgsSecurityModeComplete
  have hid := stores_encode5gsMobileIdentity buffer 0x77 h (by omega : 3 ≤ len)
  rw [mobileIdentityHeader_guti] at hid
  refine (hid.mono le_rfl (by omega)).bind (stores_ok ?_)
  rw [Int.toNat_natCast]
  have hcontainer := stores_encodeFgcNasMessageContainer (buffer + (3 + n))
    (by decide : (0x71 : UInt8) > 0)
    (by omega : 3 + msg.fgsnasmessagecontainer.length ≤ len - (3 + n)) (by omega)
  refine (hcontainer.mono (by omega) (by omega)).bind (stores_ok ?_)
  rw [Nat.cast_add (3 + n)]
  exact .pure _ _ _

theorem stores_encodeFgsPayloadContainer {contents : List UInt8}
    (h : 2 + contents.length ≤ len) :
    Stores (encodeFgsPayloadContainer contents buffer len) buffer
      (buffer + (2 + contents.length)) ((2 + contents.length : Nat) : Int) := by
  unfold encodeFgsPayloadContainer
  have hstring := stores_encodeOctetString (buffer + 2) (by omega : contents.length ≤ len - 2)
  refine (hstring.mono (by omega) (by omega)).bind (stores_ok ?_)
  refine stores_encodeBytes le_rfl (by rw [length_htons]; omega) ?_
  rw [Nat.cast_add 2 contents.length]
  exact .pure _ _ _

theorem stores_encodeLv (contents : List UInt8) (iei : UInt8) :
    Stores (encodeLv contents iei buffer) buffer (buffer + (2 + contents.length))
      ((2 + contents.length : Nat) : Int) := by
  unfold encodeLv
  refine stores_encodeBytes le_rfl (by simp) ?_
  have hstring := stores_encodeOctetString (buffer + 2) (le_refl contents.length)
  refine (hstring.mono (by omega) (by omega)).bind (stores_ok ?_)
  rw [Nat.cast_add 2 contents.length]
  exact .pure _ _ _

/-- The size of an Uplink NAS Transport. -/
def FgsUplinkNasTransportMsg.size (msg : FgsUplinkNasTransportMsg) : Nat :=
  1 + (2 + msg.fgspayloadcontainer.length) + 3 + (2 + msg.snssai.length) + (2 + msg.dnn.length)

theorem stores_encodeFgsUplinkNasTransport {msg : FgsUplinkNasTransportMsg}
    (hlen : msg.size ≤ len) :
    Stores (encodeFgsUplinkNasTransport msg buffer len) buffer (buffer + msg.size)
      (msg.size : Int) := by
  unfold FgsUplinkNasTransportMsg.size at hlen ⊢
  unfold encodeFgsUplinkNasTransport
  refine stores_encodeBytes le_rfl (by rw [List.length_singleton]; omega) ?_
  have hpayload := stores_encodeFgsPayloadContainer (buffer + 1)
    (by omega : 2 + msg.fgspayloadcontainer.length ≤ len - 1)
  refine (hpayload.mono (by omega) (by omega)).bind (stores_ok ?_)
  simp only [Int.toNat_natCast]
  refine stores_encodeBytes (by omega) (by simp only [List.length_cons, List.length_nil]; omega) ?_
  have hsnssai := stores_encodeLv (buffer + (1 + (2 + msg.fgspayloadcontainer.length) + 3))
    msg.snssai 0x22
  refine (hsnssai.mono (by omega) (by omega)).bind (stores_ok ?_)
  simp only [Int.toNat_natCast]
  have hdnn := stores_encodeLv
    (buffer + (1 + (2 + msg.fgspayloadcontainer.length) + 3 + (2 + msg.snssai.length)))
    msg.dnn 0x25
  refine (hdnn.mono (by omega) (by omega)).bind (stores_ok ?_)
  rw [← Nat.cast_add]
  exact .pure _ _ _

theorem stores_encodeFgsDeregistrationRequest {drr : FgsDeregistrationRequestMsg}
    (h : drr.fgsmobileidentity.Encodes n) (hlen : 4 ≤ len) :
    Stores (encodeFgsDeregistrationRequest drr buffer len) buffer (buffer + (1 + (2 + n)))
      ((1 + (2 + n) : Nat) : Int) := by
  unfold encodeFgsDeregistrationRequest
  refine stores_encodeBytes le_rfl (by rw [List.length_singleton]; omega) ?_
  have hid := stores_encode5gsMobileIdentity (buffer + 1) 0 h (by omega : 3 ≤ len - 1)
  rw [mobileIdentityHeader_zero] at hid
  refine (hid.mono (by omega) (by omega)).bind (stores_ok ?_)
  rw [Nat.cast_add 1]
  exact .pure _ _ _

/-- In a message this short no identity is written. -/
theorem stores_encodeFgsServiceRequest {msg : FgsServiceRequestMsg} (hlen : 10 ≤ len)
    (hlen' : len < 13) :
    Stores (encodeFgsServiceRequest buffer msg len) buffer (buffer + 3) 2 := by
  unfold encodeFgsServiceRequest
  rw [if_neg (by omega)]
  refine stores_encodeBytes le_rfl (by rw [List.length_singleton]; omega) ?_
  refine Stores.bind (stores_encodeStmsi _ msg.fivegSTmsi (by omega)) ?_
  exact stores_encodeBytes (by omega) (by rw [length_htons]) (.pure _ _ _)

/-- The header and a message of `n` bytes, of which it counts `k`. -/
theorem stores_mmMsgEncode {p : FgmmNasMessagePlain} {k : Nat} (hlen : 3 ≤ len)
    (h : Stores (p.mmMsg.encode (buffer + 3) (len - 3)) (buffer + 3) (buffer + 3 + n) k) :
    Stores (mmMsgEncode p buffer len) buffer (buffer + (3 + n)) ((3 + k : Nat) : Int) := by
  have hheader :=
    stores_nasMmMsgEncodeHeader buffer hlen (rfl : p.header.exProtocolDiscriminator = _)
  refine (hheader.mono le_rfl (by omega)).bind (stores_ok (a := 3) ?_)
  refine (h.mono (by omega) (by omega)).bind (stores_ok ?_)
  rw [Nat.cast_add 3]
  exact .pure _ _ _

end Stores

end NrStack
