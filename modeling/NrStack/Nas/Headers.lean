import NrStack.Nas.Octets
import NrStack.Nas.ServiceRoundTrip
import NrStack.Nas.UplinkOutcome

/-!
# Headers of NAS messages

The decoders of the headers, and what the encoders of `Messages.lean` make of them. The decoder of a
security protected header does not move behind the MAC : it takes the first octet of the MAC for the
sequence number. The decoders of the plain headers return a `uint8_t`, so a buffer that is too short
gives `255`, which no caller rejects. `header_iff` : apart from that, headers survive.
-/

namespace NrStack

/-! ## The decoders -/

/-- `decode_5gmm_msg_header`. -/
def decode5gmmMsgHeader (mmHeader : FgmmMsgHeader) (buffer : List UInt8) :
    UInt8 × FgmmMsgHeader :=
  match buffer with
  | discriminator :: securityHeaderType :: messageType :: _ =>
    (3, ⟨discriminator, securityHeaderType, messageType⟩)
  | _ => (-1, mmHeader)

/-- `fgsm_msg_header_t`. -/
structure FgsmMsgHeader where
  exProtocolDiscriminator : UInt8
  pduSessionId : UInt8
  pti : UInt8
  messageType : UInt8
deriving DecidableEq, Repr

/-- `decode_5gsm_msg_header`. -/
def decode5gsmMsgHeader (smHeader : FgsmMsgHeader) (buffer : List UInt8) :
    UInt8 × FgsmMsgHeader :=
  match buffer with
  | discriminator :: pduSessionId :: pti :: messageType :: _ =>
    (4, ⟨discriminator, pduSessionId, pti, messageType⟩)
  | _ => (-1, smHeader)

/-- `decode_5gs_security_protected_header`. The MAC is copied without a move of `buf`. -/
def decode5gsSecurityProtectedHeader (header : FgsNasMessageSecurityHeader) (buf : List UInt8) :
    Int × FgsNasMessageSecurityHeader :=
  match buf with
  | discriminator :: securityHeaderType :: mac₀ :: mac₁ :: mac₂ :: mac₃ :: _ :: _ =>
    (7, ⟨discriminator, securityHeaderType,
      ntohl mac₀ mac₁ mac₂ mac₃, mac₀⟩)
  | _ => (-1, header)

/-- `if ((decoded = …) < 0)`, by which the callers reject a message. -/
def IsRejected (decoded : Int) : Prop :=
  decoded < 0

/-! ## Headers to encode, buffers to decode -/

/-- A header to encode into a buffer and decode, or a buffer to decode. A 5GSM header is the
beginning of a message. -/
inductive HeaderCase
  | securityProtected (header : FgsNasMessageSecurityHeader) (buffer : List UInt8)
  | plain5gmm (header : FgmmMsgHeader) (buffer : List UInt8)
  | plain5gsm (msg : PduSessionEstablishmentRequestMsg)
  | shortSecurityProtected (buffer : List UInt8)
  | short5gmm (buffer : List UInt8)
  | short5gsm (buffer : List UInt8)

namespace HeaderCase

/-- The security header type is half an octet, a 5GMM header has its discriminator, and the buffer
has room for the header, or is shorter than it. -/
def WellFormed : HeaderCase → Prop
  | securityProtected header buffer => header.securityHeaderType < 16 ∧ 7 ≤ buffer.length
  | plain5gmm header buffer =>
    header.exProtocolDiscriminator = fgsMobilityManagementMessage ∧
      header.securityHeaderType < 16 ∧ 3 ≤ buffer.length
  | plain5gsm _ => True
  | shortSecurityProtected buffer => buffer.length < 7
  | short5gmm buffer => buffer.length < 3
  | short5gsm buffer => buffer.length < 4

/-- The decoder gives the header back and its length, whatever it overwrites; a short buffer is
rejected. -/
def Survives : HeaderCase → Prop
  | securityProtected header buffer => ∃ n b,
    nasProtectedSecurityHeaderEncode 0 header buffer.length buffer = .ok ((n : Nat), b) ∧
      ∀ old, decode5gsSecurityProtectedHeader old (b.take n) = (7, header)
  | plain5gmm header buffer => ∃ n b,
    nasMmMsgEncodeHeader header 0 buffer.length buffer = .ok ((n : Nat), b) ∧
      ∀ old, decode5gmmMsgHeader old (b.take n) = (3, header)
  | plain5gsm msg =>
    ∀ old, decode5gsmMsgHeader old (encodePduSessionEstablishmentRequest msg) =
      (4, ⟨msg.protocoldiscriminator, msg.pdusessionid, msg.pti, msg.pdusessionestblishmsgtype⟩)
  | shortSecurityProtected buffer =>
    ∀ old, IsRejected (decode5gsSecurityProtectedHeader old buffer).1
  | short5gmm buffer => ∀ old, IsRejected (decode5gmmMsgHeader old buffer).1.toNat
  | short5gsm buffer => ∀ old, IsRejected (decode5gsmMsgHeader old buffer).1.toNat

/-- The sequence number is the first octet of the MAC, and a short buffer is for the decoder that
returns an `int`. -/
def SequenceInMac : HeaderCase → Prop
  | securityProtected header _ =>
    header.sequenceNumber = ⟨header.messageAuthenticationCode.extractLsb' 24 8⟩
  | plain5gmm _ _ | plain5gsm _ | shortSecurityProtected _ => True
  | short5gmm _ | short5gsm _ => False

end HeaderCase

/-! ## The headers -/

theorem writes_nasProtectedSecurityHeaderEncode (header : FgsNasMessageSecurityHeader)
    {length : Int} (hlength : 7 ≤ length) :
    Writes (nasProtectedSecurityHeaderEncode 0 header length) 0 (securityHeaderBytes header) 7 :=
  fun _ hb => nasProtectedSecurityHeaderEncode_eq header hlength
    (by simpa [securityHeaderBytes] using hb)

/-- The decoder takes the first octet of the MAC for the sequence number. -/
theorem decode_securityHeaderBytes (old header : FgsNasMessageSecurityHeader)
    (htype : header.securityHeaderType < 16) :
    decode5gsSecurityProtectedHeader old (securityHeaderBytes header) =
      (7, { header with
        sequenceNumber := ⟨header.messageAuthenticationCode.extractLsb' 24 8⟩ }) := by
  rw [securityHeaderBytes, htonl_eq, and_low_nibble htype]
  simp [decode5gsSecurityProtectedHeader]

theorem writes_nasMmMsgEncodeHeader {header : FgmmMsgHeader} {len : Nat} (hlen : 3 ≤ len)
    (hdiscriminator : header.exProtocolDiscriminator = fgsMobilityManagementMessage) :
    Writes (nasMmMsgEncodeHeader header 0 len) 0 (mmHeaderBytes header) 3 :=
  fun _ hb => nasMmMsgEncodeHeader_eq header hlen hdiscriminator hb

/-- The `-1` of a short buffer is `255`. -/
theorem not_isRejected_toNat (n : UInt8) : ¬IsRejected n.toNat :=
  not_lt.2 (Int.natCast_nonneg _)

theorem decode5gsSecurityProtectedHeader_short {buffer : List UInt8} (h : buffer.length < 7)
    (old : FgsNasMessageSecurityHeader) :
    decode5gsSecurityProtectedHeader old buffer = (-1, old) := by
  unfold decode5gsSecurityProtectedHeader
  split
  · simp only [List.length_cons] at h
    omega
  · rfl

/-- Headers survive, except a sequence number other than the first octet of the MAC, and short
buffers for the plain headers are not rejected. -/
theorem header_iff (c : HeaderCase) (h : c.WellFormed) : c.Survives ↔ c.SequenceInMac := by
  cases c with
  | securityProtected header buffer =>
    obtain ⟨htype, hroom⟩ := h
    have hwrites := writes_nasProtectedSecurityHeaderEncode header
      (show (7 : Int) ≤ buffer.length by omega)
    refine (hwrites.exists_take_iff hroom
      (P := fun _ bytes => ∀ old,
        decode5gsSecurityProtectedHeader old bytes = (7, header))).trans ?_
    constructor
    · intro hdecode
      have hheader := hdecode header
      rw [decode_securityHeaderBytes header header htype] at hheader
      have hsequence := congrArg (·.2.sequenceNumber) hheader
      exact hsequence.symm
    · intro hsequence old
      rw [decode_securityHeaderBytes old header htype, ← hsequence]
  | plain5gmm header buffer =>
    obtain ⟨hdiscriminator, htype, hroom⟩ := h
    have hwrites := writes_nasMmMsgEncodeHeader hroom hdiscriminator
    refine iff_of_true ((hwrites.exists_take_iff hroom
      (P := fun _ bytes => ∀ old,
        decode5gmmMsgHeader old bytes = (3, header))).2 fun old => ?_) trivial
    rw [mmHeaderBytes, and_low_nibble htype]
    rfl
  | plain5gsm msg => exact iff_of_true (fun old => rfl) trivial
  | shortSecurityProtected buffer =>
    refine iff_of_true (fun old => ?_) trivial
    rw [decode5gsSecurityProtectedHeader_short h old]
    exact (by decide : (-1 : Int) < 0)
  | short5gmm buffer =>
    exact iff_of_false (fun hrejected => not_isRejected_toNat _ (hrejected ⟨0, 0, 0⟩)) not_false
  | short5gsm buffer =>
    exact iff_of_false (fun hrejected => not_isRejected_toNat _ (hrejected ⟨0, 0, 0, 0⟩)) not_false

/-- A header with sequence number 1 and a MAC that begins with 1. -/
theorem header_iff_one :
    (HeaderCase.securityProtected ⟨0x7e, 2, 0x01020304, 1⟩ (List.replicate 7 0)).Survives :=
  (header_iff (.securityProtected ⟨0x7e, 2, 0x01020304, 1⟩ (List.replicate 7 0))
    ⟨by decide, by decide⟩).2 rfl

/-- Another sequence number is read back as 1, and a short plain header is not rejected. -/
theorem not_survives_sequence :
    ¬(HeaderCase.securityProtected ⟨0x7e, 2, 0x01020304, 9⟩ (List.replicate 7 0)).Survives ∧
      ¬(HeaderCase.short5gmm [0x7e]).Survives := by
  constructor
  · rintro ⟨n, b, hencode, hdecode⟩
    have hcall : nasProtectedSecurityHeaderEncode 0 ⟨0x7e, 2, 0x01020304, 9⟩ 7
        (List.replicate 7 0) = .ok (7, [0x7e, 2, 1, 2, 3, 4, 9]) := by
      decide
    have heq := hcall.symm.trans hencode
    cases heq
    have hsequence := congrArg (·.2.sequenceNumber) (hdecode ⟨0, 0, 0, 0⟩)
    exact absurd hsequence (by decide)
  · exact fun h => not_isRejected_toNat _ (h ⟨0, 0, 0⟩)

end NrStack
