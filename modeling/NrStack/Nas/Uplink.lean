import NrStack.Nas.Messages

/-!
# The uplink message generators of the UE

`generateRegistrationRequest` and its siblings of `nr_nas_msg.c`. Each computes a size, allocates
a buffer of that size, encodes the security header and the message into it, and protects the
message under the uplink NAS COUNT. The ciphering and the integrity blocks are one text in every
generator that has them; they are `cipherNas` and `integrityNas`.
-/

namespace NrStack

/-! ## The state of the UE -/

/-- A C string. -/
structure CString where
  chars : List UInt8
  no_nul : 0 ∉ chars
deriving DecidableEq

/-- A character of the string or the NUL behind it. -/
def CString.get (s : CString) (i : Nat) : Except NasFault UInt8 :=
  if i ≤ s.chars.length then .ok (s.chars.getD i 0) else .error .outOfBounds

/-- The part of `uicc_t` that goes into messages. -/
structure Uicc where
  imsiStr : CString
  imeisvStr : CString
  dnnStr : CString
  nmcSize : Int
deriving DecidableEq

/-- `fgs_mm_state_t`. -/
inductive FgsMmState
  | deregistered
  | deregisteredInitiated
  | registeredInitiated
  | registered
  | serviceRequestInitiated
deriving DecidableEq, Repr

/-- `fgs_mm_mode_t`. -/
inductive FgsMmMode
  | notConnected
  | idle
  | connected
deriving DecidableEq, Repr

/-- The mobility part of `nr_ue_nas_t`. -/
structure FgsMm where
  fiveGMMState : FgsMmState
  fiveGMMMode : FgsMmMode
  uicc : Uicc
  guti : Option Guti5GSMobileIdentity
  isRrcInactive : Bool
  t3512 : Int
deriving DecidableEq

/-- `nr_ue_nas_t`. -/
structure NrUeNasState extends NrUeNas where
  mm : FgsMm
deriving DecidableEq

/-- `as_nas_info_t` : the allocated buffer, and how much of it is the message. -/
structure AsNasInfo where
  nasData : List UInt8
  length : Int
deriving DecidableEq, Repr

/-- What the generators call : the algorithms, the key derivation and the allocator, whose
memory holds anything. -/
structure NasEnv where
  crypto : PdcpCrypto
  kdf : List UInt8 → List UInt8 → Vector UInt8 32
  malloc : Nat → List UInt8
  malloc_length : ∀ size, (malloc size).length = size

/-- The null algorithms, and zeroed memory. -/
def NasEnv.null : NasEnv where
  crypto := .null
  kdf _ _ := .replicate 32 0
  malloc size := List.replicate size 0
  malloc_length := by simp

/-- The algorithms have a context : `EEA0` and `EIA0` have none. -/
def StreamSecurityContext.present (c : StreamSecurityContext) : Bool :=
  c.algorithm ≠ 0

/-! ## Identities -/

/-- A digit of the IMSI as a bit field. -/
def imsiDigit (c : UInt8) : BitVec 4 :=
  (digit c).toBitVec.setWidth 4

/-- `fill_suci`, with what it adds to the size. -/
def fillSuci (uicc : Uicc) : Except NasFault (FGSMobileIdentity × Nat) := do
  let mnc1 ← if uicc.nmcSize = 2 then uicc.imsiStr.get 3 else uicc.imsiStr.get 4
  let mnc2 ← if uicc.nmcSize = 2 then uicc.imsiStr.get 4 else uicc.imsiStr.get 5
  let mnc3 ← uicc.imsiStr.get 3
  let mcc1 ← uicc.imsiStr.get 0
  let mcc2 ← uicc.imsiStr.get 1
  let mcc3 ← uicc.imsiStr.get 2
  let start := 3 + uicc.nmcSize
  -- the number of bytes to copy is a `size_t`, far too large if `start` is behind the end
  if start < 0 ∨ (uicc.imsiStr.chars.length : Int) < start then
    throw .outOfBounds
  let scheme := uicc.imsiStr.chars.drop start.toNat
  if scheme.length > schemeoutputSize then
    throw .outOfBounds
  return (.suci {
    supiformat := 0
    mccdigit1 := imsiDigit mcc1
    mccdigit2 := imsiDigit mcc2
    mccdigit3 := imsiDigit mcc3
    mncdigit1 := imsiDigit mnc1
    mncdigit2 := imsiDigit mnc2
    mncdigit3 := if uicc.nmcSize = 2 then 0xf else imsiDigit mnc3
    routingindicatordigit1 := 0
    routingindicatordigit2 := 0
    routingindicatordigit3 := 0
    routingindicatordigit4 := 0
    protectionschemeId := 0
    homenetworkpki := 0
    schemeoutput := scheme ++ List.replicate (schemeoutputSize - scheme.length) 0 }, sizeofSuci)

/-- `fill_guti`. -/
def fillGuti (guti : Option Guti5GSMobileIdentity) : Except NasFault (FGSMobileIdentity × Nat) :=
  match guti with
  | none => .error .assertFatal
  | some guti => .ok (.guti guti, 13)

/-- `fill_fgstmsi`. -/
def fillFgstmsi (guti : Option Guti5GSMobileIdentity) :
    Except NasFault (Stmsi5GSMobileIdentity × Nat) :=
  match guti with
  | none => .error .assertFatal
  | some guti => .ok (⟨0, guti.amfsetid, guti.amfpointer, guti.tmsi⟩, 10)

/-- `getImeisvDigit`, with the length of the string in a `uint8_t`. -/
def getImeisvDigit (uicc : Uicc) (i : Nat) : BitVec 4 :=
  let l := min (uicc.imeisvStr.chars.length % 256) 16
  let c := uicc.imeisvStr.chars.getD i 0
  if i < l ∧ 48 ≤ c ∧ c ≤ 57 then imsiDigit c else 0

/-- `fill_imeisv`. -/
def fillImeisv (uicc : Uicc) : FGSMobileIdentity × Nat :=
  let d := getImeisvDigit uicc
  (.imeisv ⟨0, d 0, d 1, d 2, d 3, d 4, d 5, d 6, d 7, d 8, d 9, d 10, d 11, d 12, d 13, d 14,
    d 15, 0xf⟩, 19)

/-! ## Protection -/

/-- `AssertFatal(nas->security.nas_count_ul <= 0xffffff)`. -/
def assertNasCountUl (nas : NrUeNasState) : Except NasFault Unit :=
  if nas.security.nasCountUl ≤ 0xffffff then .ok () else .error .assertFatal

/-- `nas->security_container->`. -/
def NrUeNasState.container (nas : NrUeNasState) : Except NasFault StreamSecurityContainer :=
  match nas.securityContainer with
  | none => .error .nullPointer
  | some container => .ok container

/-- The bytes of the message from `off` on. -/
def AsNasInfo.from (msg : AsNasInfo) (off : Nat) : List UInt8 :=
  (msg.nasData.drop off).take (msg.length.toNat - off)

/-- Overwrite bytes of the buffer. -/
def AsNasInfo.put (msg : AsNasInfo) (off : Nat) (bytes : List UInt8) : AsNasInfo :=
  { msg with nasData := overwrite msg.nasData off bytes }

/-- The ciphering block of a generator : what follows the security header is ciphered in place,
by way of an array of that length. -/
def cipherNas (env : NasEnv) (nas : NrUeNasState) (msg : AsNasInfo) :
    Except NasFault AsNasInfo := do
  if msg.length < 7 ∨ (msg.nasData.length : Int) < msg.length then
    throw .outOfBounds
  let container ← nas.container
  assertNasCountUl nas
  let buf := env.crypto.cipher container.cipheringContext 1 nas.security.nasCountUl.toNat 0
    (msg.from 7)
  return msg.put 7 buf

/-- The integrity block of a generator : the MAC over the sequence number and what follows it,
and the next COUNT. -/
def integrityNas (env : NasEnv) (nas : NrUeNasState) (msg : AsNasInfo) :
    Except NasFault (AsNasInfo × NrUeNasState) := do
  if msg.length < 6 ∨ (msg.nasData.length : Int) < msg.length then
    throw .outOfBounds
  let container ← nas.container
  let mac := env.crypto.mac container.integrityContext 1 nas.security.nasCountUl.toNat 0
    (msg.from 6)
  return (msg.put 2 mac,
    { nas with security := { nas.security with nasCountUl := nas.security.nasCountUl + 1 } })

/-- The header of a protected message. -/
def securityHeader (nas : NrUeNasState) (type : SecurityHeader) : FgsNasMessageSecurityHeader where
  protocolDiscriminator := fgsMobilityManagementMessage
  securityHeaderType := type.toByte
  messageAuthenticationCode := 0
  sequenceNumber := (nas.security.nasCountUl &&& 0xff).toUInt8

/-- Encode the security header and the message behind it. -/
def encodeProtected (header : FgsNasMessageSecurityHeader) (p : FgmmNasMessagePlain)
    (size : Nat) : NasEncoder Int := do
  let securityHeaderLen ← nasProtectedSecurityHeaderEncode 0 header size
  let n ← mmMsgEncode p securityHeaderLen.toNat (size - securityHeaderLen.toNat)
  return securityHeaderLen + n

/-- Allocate `size` bytes and encode into them. -/
def allocEncode (env : NasEnv) (size : Nat) (encode : NasEncoder Int) :
    Except NasFault AsNasInfo := do
  let (length, nasData) ← encode (env.malloc size)
  return ⟨nasData, length⟩

/-! ## Registration Request -/

/-- `REG_TYPE_RESERVED`. -/
def regTypeReserved : UInt8 :=
  0b111

/-- `MOBILITY_REGISTRATION_UPDATING`. -/
def mobilityRegistrationUpdating : UInt8 :=
  0b010

/-- `PERIODIC_REGISTRATION_UPDATING`. -/
def periodicRegistrationUpdating : UInt8 :=
  0b011

/-- `INITIAL_REGISTRATION`. -/
def initialRegistration : UInt8 :=
  0b001

/-- `set_fgs_registration_type`. -/
def setFgsRegistrationType (mm : FgsMm) : UInt8 :=
  if mm.fiveGMMState = .registered ∧ mm.fiveGMMMode = .idle ∧ mm.t3512 ≠ 0 then regTypeReserved
  else if mm.fiveGMMState = .registered then mobilityRegistrationUpdating
  else if mm.fiveGMMMode = .connected ∧ mm.isRrcInactive then regTypeReserved
  else initialRegistration

/-- `NAS_KEY_SET_IDENTIFIER_NOT_AVAILABLE`. -/
def nasKeySetIdentifierNotAvailable : BitVec 3 :=
  0b111

/-- `set_fgs_ksi`. -/
def setFgsKsi (mm : FgsMm) : BitVec 3 :=
  if mm.fiveGMMMode = .idle then nasKeySetIdentifierNotAvailable else 0

/-- `set_fgmm_capability`. -/
def setFgmmCapability : FGMMCapability where
  iei := 0x10
  length := 1
  sgc := false
  iphcCpCIoT := false
  n3Data := false
  cpCIoT := false
  restrictEc := false
  lpp := true
  hoAttach := true
  s1Mode := false
  racs := false
  nssaa := false
  lcs := false
  v2xCnpc5 := false
  v2xCepc5 := false
  v2x := false
  upCIoT := false
  srvcc := false
  ehcCpCiot := false
  multipleEUP := false
  wusa := false
  cag := false

/-- A capability that is not there. -/
def noCapability : FGMMCapability :=
  ⟨0, 0, false, false, false, false, false, false, false, false, false, false, false, false,
    false, false, false, false, false, false, false, false⟩

/-- The input of `derive_kgnb`. -/
def kgnbInput (count : UInt32) : List UInt8 :=
  [0x6e] ++ htonl count.toBitVec ++ [0, 4, 1, 0, 1]

/-- `derive_kgnb`, into the keys of the UE. -/
def deriveKgnb (env : NasEnv) (nas : NrUeNasState) : NrUeNasState :=
  { nas with security := { nas.security with
      kgnb := env.kdf nas.security.kamf.toList (kgnbInput nas.security.nasCountUl) } }

/-- The message with its cleartext IEs. -/
def cleartextRegistrationRequest (mm : FgsMm) (identity : FGSMobileIdentity) :
    RegistrationRequestMsg where
  fgsregistrationtype := setFgsRegistrationType mm
  naskeysetidentifier := ⟨0, setFgsKsi mm⟩
  fgsmobileidentity := identity
  fgsnasmessagecontainer := []
  presencemask := registrationRequestUeSecurityCapabilityPresent
  fgmmcapability := noCapability
  nruesecuritycapability := ⟨0x2e, 8, 0xe0, 0x60, 0, 0⟩

/-- The IEs that are not sent in cleartext are added. -/
def addNonCleartext (rr : RegistrationRequestMsg) : RegistrationRequestMsg :=
  if rr.fgsregistrationtype ≠ periodicRegistrationUpdating then
    { rr with
      presencemask := rr.presencemask ||| registrationRequest5gmmCapabilityPresent
      fgmmcapability := setFgmmCapability }
  else rr

/-- A security context for the initial messages : `EIA0` does not count. -/
def NrUeNasState.hasSecurityContext (nas : NrUeNasState) : Bool :=
  match nas.securityContainer with
  | none => false
  | some container => container.integrityContext.present

/-- The identity of the UE, with what it adds to the size. -/
def registrationIdentity (mm : FgsMm) : Except NasFault (FGSMobileIdentity × Nat) :=
  if mm.guti.isSome then fillGuti mm.guti else fillSuci mm.uicc

/-- `generateRegistrationRequest`. It leaves `initialNasMsg` alone for a registration type it
does not handle. -/
def generateRegistrationRequest (env : NasEnv) (nas : NrUeNasState) (isSecurityMode : Bool) :
    Except NasFault (Option AsNasInfo × NrUeNasState) := do
  let size := sizeofFgmmMsgHeader
  let size := if nas.hasSecurityContext then size + 7 else size
  let size := size + sizeofFgmmMsgHeader + 1
  if setFgsRegistrationType nas.mm = regTypeReserved then
    return (none, nas)
  let size := size + 1
  let (identity, identitySize) ← registrationIdentity nas.mm
  let size := size + identitySize + 10
  let rr := cleartextRegistrationRequest nas.mm identity
  let fullRr := addNonCleartext rr
  let cleartextOnly := rr.fgsregistrationtype = periodicRegistrationUpdating
  let sizeNct := if cleartextOnly then size else size + 3
  let plain : FgmmNasMessagePlain := ⟨.plain5gsMsg, .registrationRequest rr⟩
  let fullMm : FgmmNasMessagePlain := ⟨.plain5gsMsg, .registrationRequest fullRr⟩
  if isSecurityMode then
    let msg ← allocEncode env sizeNct (mmMsgEncode fullMm 0 sizeNct)
    return (some msg, nas)
  else if !nas.hasSecurityContext then
    let msg ← allocEncode env size (mmMsgEncode plain 0 size)
    return (some msg, nas)
  else
    -- the container makes the message larger, but no encoder writes it
    let containerLength ←
      if cleartextOnly then pure (0 : Int)
      else do
        let (length, _) ← mmMsgEncode fullMm 0 sizeNct (List.replicate sizeNct 0)
        pure length
    let size := if cleartextOnly then size else size + (containerLength.toNat + 2)
    let nas := if cleartextOnly then nas else deriveKgnb env nas
    let header := securityHeader nas .integrityProtected
    let msg ← allocEncode env size (encodeProtected header plain size)
    assertNasCountUl nas
    let (msg, nas) ← integrityNas env nas msg
    return (some msg, nas)

/-! ## The other messages -/

/-- `generateServiceRequest`. The buffer is allocated before the security header is counted. -/
def generateServiceRequest (env : NasEnv) (nas : NrUeNasState) :
    Except NasFault (Option AsNasInfo × NrUeNasState) := do
  let container ← nas.container
  let securityProtected := container.cipheringContext.present && container.integrityContext.present
  let size := sizeofFgmmMsgHeader + 1
  let (stmsi, stmsiSize) ← fillFgstmsi nas.mm.guti
  let size := size + stmsiSize
  let plain : FgmmNasMessagePlain :=
    ⟨.plain5gsMsg, .serviceRequest ⟨⟨0, nasKeySetIdentifierNotAvailable⟩, 0x1, stmsi⟩⟩
  let allocated := size
  if securityProtected then
    let size := size + securityProtected5gsNasMessageHeaderLength
    let msg ← allocEncode env allocated
      (encodeProtected (securityHeader nas .integrityProtected) plain size)
    let msg ← cipherNas env nas msg
    let (msg, nas) ← integrityNas env nas msg
    return (some msg, nas)
  else
    let msg ← allocEncode env allocated (mmMsgEncode plain 0 size)
    return (some msg, nas)

/-- `generateSecurityModeComplete`, with the whole Registration Request in a container. -/
def generateSecurityModeComplete (env : NasEnv) (nas : NrUeNasState) :
    Except NasFault (Option AsNasInfo × NrUeNasState) := do
  let header := securityHeader nas .integrityProtectedAndCipheredWithNewSecuCtx
  let size := sizeofFgmmMsgHeader + 7 + sizeofFgmmMsgHeader
  let (identity, identitySize) := fillImeisv nas.mm.uicc
  let size := size + identitySize
  let (rr, nas) ← generateRegistrationRequest env nas true
  match rr with
  | none => throw .uninitialized
  | some rr =>
    let size := size + (rr.length.toNat + 2)
    let plain : FgmmNasMessagePlain :=
      ⟨.plain5gsMsg, .securityModeComplete ⟨identity, rr.from 0⟩⟩
    let msg ← allocEncode env size (encodeProtected header plain size)
    let msg ← cipherNas env nas msg
    let (msg, nas) ← integrityNas env nas msg
    return (some msg, nas)

/-- `generateRegistrationComplete`. The length of the plain header is taken for the place behind
it, so a SOR container is written over the security header. -/
def generateRegistrationComplete (env : NasEnv) (nas : NrUeNasState)
    (sortransparentcontainer : Option (List UInt8)) :
    Except NasFault (Option AsNasInfo × NrUeNasState) := do
  let header := securityHeader nas .integrityProtectedAndCiphered
  let length := 7 + sizeofFgmmMsgHeader + (sortransparentcontainer.getD []).length
  let (encoded, nasData) ← nasProtectedSecurityHeaderEncode 0 header length (env.malloc length)
  if encoded < 0 then
    return (some ⟨nasData, length⟩, nas)
  let (encoded, nasData) ← nasMmMsgEncodeHeader (setMmHeader .registrationComplete .plain5gsMsg)
    encoded.toNat (length - encoded.toNat) nasData
  if encoded < 0 then
    return (some ⟨nasData, length⟩, nas)
  let (_, nasData) ← encodeRegistrationComplete ⟨sortransparentcontainer⟩ encoded.toNat
    (length - encoded.toNat) nasData
  let msg ← cipherNas env nas ⟨nasData, length⟩
  let (msg, nas) ← integrityNas env nas msg
  return (some msg, { nas with mm := { nas.mm with fiveGMMState := .registered } })

/-- `generateDeregistrationRequest`, into zeroed memory. -/
def generateDeregistrationRequest (env : NasEnv) (nas : NrUeNasState) :
    Except NasFault (Option AsNasInfo × NrUeNasState) := do
  let header := securityHeader nas .integrityProtectedAndCiphered
  let size := securityProtected5gsNasMessageHeaderLength + sizeofFgmmMsgHeader + 1
  let (identity, identitySize) ← fillGuti nas.mm.guti
  let size := size + identitySize
  let plain : FgmmNasMessagePlain := ⟨.integrityProtectedAndCipheredWithNewSecuCtx,
    .deregistrationRequest ⟨0, 0, 1, ⟨0, 1⟩, identity⟩⟩
  let (length, nasData) ← encodeProtected header plain size (List.replicate size 0)
  let msg ← cipherNas env nas ⟨nasData, length⟩
  let (msg, nas) ← integrityNas env nas msg
  return (some msg, { nas with mm := { nas.mm with fiveGMMState := .deregisteredInitiated } })

/-- `nas_pdu_session_req_t`. -/
structure NasPduSessionReq where
  pdusessionId : Int
  pdusessionType : Int
  sst : Int
  sd : BitVec 32
deriving DecidableEq, Repr

/-- The S-NSSAI of a session, without an SD if this is `0xffffff`. -/
def NasPduSessionReq.snssai (pduReq : NasPduSessionReq) : List UInt8 :=
  if pduReq.sd = 0xffffff then [UInt8.ofInt pduReq.sst]
  else UInt8.ofInt pduReq.sst :: (htonl pduReq.sd).drop 1

/-- `generatePduSessionEstablishRequest`. -/
def generatePduSessionEstablishRequest (env : NasEnv) (nas : NrUeNasState)
    (pduReq : NasPduSessionReq) : Except NasFault (Option AsNasInfo × NrUeNasState) := do
  let reqBuffer := encodePduSessionEstablishmentRequest
    ⟨fgsSessionManagementMessage, UInt8.ofInt pduReq.pdusessionId, 1, 0xc1, 0xffff,
      UInt8.ofInt pduReq.pdusessionType⟩
  let reqLength := 7
  let header := securityHeader nas .integrityProtectedAndCiphered
  let size := 7 + sizeofFgmmMsgHeader + 1 + (2 + reqLength) + 3
  let size := size + (1 + 1 + pduReq.snssai.length)
  let dnnStr := nas.mm.uicc.dnnStr.chars
  let size := size + (1 + 1 + dnnStr.length + 1)
  let plain : FgmmNasMessagePlain := ⟨.plain5gsMsg, .uplinkNasTransport {
    payloadcontainerIei := 0
    payloadcontainerType := 1
    fgspayloadcontainer := reqBuffer
    pdusessionid := UInt16.ofInt pduReq.pdusessionId
    requesttype := 1
    snssai := pduReq.snssai
    dnn := UInt8.ofNat dnnStr.length :: dnnStr }⟩
  let msg ← allocEncode env size (encodeProtected header plain size)
  let msg ← cipherNas env nas msg
  let (msg, nas) ← integrityNas env nas msg
  return (some msg, nas)

end NrStack
