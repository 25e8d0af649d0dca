import NrStack.Nas.Decipher
import NrStack.Nas.ServiceRoundTrip

/-!
# Service Accept and Service Reject at the UE

`nas_nrue` takes the message type out of the PDU before it is deciphered, and hands the whole PDU,
with the security header and the plain header in front, to `handle_service_accept` and
`handle_service_reject`, which decode it as the message. The first octet is then no IE that the
decoder knows : nothing is decoded of a Service Accept, and the cause of a Service Reject is the
protocol discriminator (`serviceDownlink_iff`).
-/

namespace NrStack

/-! ## The dispatcher -/

/-- `FGS_SERVICE_REJECT`. -/
def fgsServiceReject : UInt8 :=
  0x4d

/-- `FGS_SERVICE_ACCEPT`. -/
def fgsServiceAccept : UInt8 :=
  0x4e

/-- `FGS_DOWNLINK_NAS_TRANSPORT`. -/
def fgsDownlinkNasTransport : UInt8 :=
  0x68

/-- `FGS_DEREGISTRATION_ACCEPT_UE_ORIGINATING`. -/
def fgsDeregistrationAcceptUeOriginating : UInt8 :=
  0x46

/-- `get_msg_type`. -/
def getMsgType (pduBuffer : List UInt8) : UInt8 :=
  if pduBuffer.length < 2 then 0
  else if pduBuffer.getD 1 0 = 0 then
    if pduBuffer.length < 3 then 0 else pduBuffer.getD 2 0
  else if pduBuffer.length < 10 then 0
  else if pduBuffer.getD 9 0 = fgsDownlinkNasTransport then
    if pduBuffer.length < 17 then 0 else pduBuffer.getD 16 0
  else pduBuffer.getD 9 0

/-- `nr_ue_nas_t`, with its timers in seconds. -/
structure NasUe where
  nas : NrUeNas
  t3448 : Int
  t3446 : Int

/-- `process_gprs_timer`. -/
def processGprsTimer : Option GprsTimer → Int
  | none => -1
  | some timer =>
    if timer.unit = 0 then timer.value.toNat * 2
    else if timer.unit = 1 then timer.value.toNat * 60
    else if timer.unit = 2 then timer.value.toNat * 360
    else if timer.unit = 7 then -1
    else timer.value.toNat * 60

/-- `handle_service_accept`, and the message it decodes. -/
def handleServiceAccept (ue : NasUe) (buffer : List UInt8) :
    Except NasFault (NasUe × FgsServiceAcceptMsg) := do
  let (_, msg) ← decodeFgsServiceAccept .zero buffer
  return ({ ue with t3448 := processGprsTimer msg.t3448 }, msg)

/-- The entries of `fgmm_cause_s`. -/
def fgmmCauses : Nat :=
  42

/-- `fgmm_cause_s[cause].text`. -/
def fgmmCauseText (cause : UInt8) : Except NasFault Unit :=
  if cause.toNat < fgmmCauses then .ok () else .error .outOfBounds

/-- `handle_service_reject`, and the message it decodes. -/
def handleServiceReject (ue : NasUe) (buffer : List UInt8) :
    Except NasFault (NasUe × FgsServiceRejectMsg) := do
  let (_, msg) ← decodeFgsServiceReject .zero buffer
  fgmmCauseText msg.cause
  return ({ ue with
    t3448 := processGprsTimer msg.t3448
    t3446 := processGprsTimer msg.t3446 }, msg)

/-- What becomes of a downlink PDU. -/
inductive DownlinkOutcome
  | serviceAccept (msg : FgsServiceAcceptMsg)
  | serviceReject (msg : FgsServiceRejectMsg)
  | other (msgType : UInt8) (pduBuffer : List UInt8)
  | discarded
  | exit

/-- The case `NAS_DOWNLINK_DATA_IND` of `nas_nrue`. -/
def nasDownlinkDataInd (k : PdcpCrypto) (ue : NasUe) (pduBuffer : List UInt8) :
    Except NasFault (NasUe × DownlinkOutcome) :=
  let msgType := getMsgType pduBuffer
  match nasSecurityRxProcess k ue.nas pduBuffer with
  | none => .ok (ue, .exit)
  | some (state, nas, pduBuffer) =>
    let ue := { ue with nas := nas }
    let state :=
      if state = .unprotected ∧ msgType = fgsDeregistrationAcceptUeOriginating then
        .integrityPassed
      else state
    if state ≠ .integrityPassed ∧ state ≠ .noSecurityContext then .ok (ue, .discarded)
    else if msgType = fgsServiceAccept then
      (handleServiceAccept ue pduBuffer).map fun r => (r.1, .serviceAccept r.2)
    else if msgType = fgsServiceReject then
      (handleServiceReject ue pduBuffer).map fun r => (r.1, .serviceReject r.2)
    else .ok (ue, .other msgType pduBuffer)

/-! ## What the network sends -/

/-- A ciphered PDU, as the network builds it of a plain message. -/
def protectDownlink (k : PdcpCrypto) (c : StreamSecurityContainer) (count : UInt32)
    (plain : List UInt8) : List UInt8 :=
  let sqn := count.toUInt8
  let ciphered := k.cipher c.cipheringContext 1 count.toNat 1 plain
  [fgsMobilityManagementMessage, 2] ++
    (k.mac c.integrityContext 1 count.toNat 1 (sqn :: ciphered) ++ (sqn :: ciphered))

/-- A message of the network, with the octets of the IEs that the UE does not keep. -/
inductive ServiceDlMsg
  | accept (msg : FgsServiceAcceptMsg) (eap : List UInt8)
  | reject (msg : FgsServiceRejectMsg) (eap cag : List UInt8)

namespace ServiceDlMsg

/-- The plain header and the body. -/
def plain : ServiceDlMsg → List UInt8
  | accept msg eap =>
    [fgsMobilityManagementMessage, 0, fgsServiceAccept] ++
      (optionalBytes msg.hasPsiStatus (psiBytes ieiPduSessionStatus msg.psiStatus) ++
        (optionalBytes msg.hasPsiRes (psiBytes ieiPduSessionReactResult msg.psiRes) ++
          (optionalBytes (msg.cause ≠ []) (errorBytes msg.cause) ++
            (eap ++ optionalTimerBytes ieiT3448Value msg.t3448))))
  | reject msg eap cag =>
    [fgsMobilityManagementMessage, 0, fgsServiceReject] ++ (serviceRejectBytes msg ++ (eap ++ cag))

/-- The UE has decoded the message, and its timers are those of the message. -/
def Handled (m : ServiceDlMsg) (r : Except NasFault (NasUe × DownlinkOutcome)) : Prop :=
  match m with
  | accept msg _ => ∃ ue dec, r = .ok (ue, .serviceAccept dec) ∧ eqServiceAccept msg dec = true ∧
      ue.t3448 = processGprsTimer msg.t3448
  | reject msg _ _ => ∃ ue dec, r = .ok (ue, .serviceReject dec) ∧ eqServiceReject msg dec = true ∧
      ue.t3448 = processGprsTimer msg.t3448 ∧ ue.t3446 = processGprsTimer msg.t3446

/-- A Service Accept without IEs to keep, in a PDU that shows its message type. -/
def Survives (m : ServiceDlMsg) (pduBuffer : List UInt8) : Prop :=
  match m with
  | accept msg _ => getMsgType pduBuffer = fgsServiceAccept ∧ msg.hasPsiStatus = false ∧
      msg.hasPsiRes = false ∧ msg.cause = [] ∧ msg.t3448 = none
  | reject _ _ _ => False

end ServiceDlMsg

/-! ## What the UE makes of it -/

/-- A PDU of the network is accepted, and handed on with its security header. -/
theorem nasRx_protectDownlink (k : PdcpCrypto) {nas : NrUeNas} {c : StreamSecurityContainer}
    {count : UInt32} {plain : List UInt8} (hctx : nas.securityContainer = some c)
    (hsync : syncNasSqn nas.security.nasCountDl count.toUInt8 = count)
    (hmax : count ≤ 0x00ffffff) (hplain : plain ≠ []) :
    ∃ nas' tail, nasSecurityRxProcess k nas (protectDownlink k c count plain) =
      some (.integrityPassed, nas', fgsMobilityManagementMessage :: 2 :: tail) := by
  have hsize : 1 ≤ plain.length := List.length_pos_iff.2 hplain
  have hmac : (k.mac c.integrityContext 1 count.toNat 1 (count.toUInt8 ::
      k.cipher c.cipheringContext 1 count.toNat 1 plain)).length = 4 := k.mac_length ..
  have hcipher : (k.cipher c.cipheringContext 1 count.toNat 1 plain).length = plain.length :=
    k.length_cipher ..
  unfold protectDownlink
  generalize k.cipher c.cipheringContext 1 count.toNat 1 plain = ciphered at hmac hcipher
  generalize hm : k.mac c.integrityContext 1 count.toNat 1 (count.toUInt8 :: ciphered) = mac
    at hmac
  match mac, hmac with
  | [m0, m1, m2, m3], _ =>
    have hlen : ¬([fgsMobilityManagementMessage, 2] ++
        ([m0, m1, m2, m3] ++ count.toUInt8 :: ciphered)).length < 8 := by
      simp only [List.length_append, List.length_cons, List.length_nil, hcipher]
      omega
    have htype : SecurityHeader.ofByte (([fgsMobilityManagementMessage, 2] ++
        ([m0, m1, m2, m3] ++ count.toUInt8 :: ciphered)).getD 1 0) =
        some .integrityProtectedAndCiphered := rfl
    have hsqn : ([fgsMobilityManagementMessage, 2] ++
        ([m0, m1, m2, m3] ++ count.toUInt8 :: ciphered)).getD 6 0 = count.toUInt8 := rfl
    have hinput : ([fgsMobilityManagementMessage, 2] ++
        ([m0, m1, m2, m3] ++ count.toUInt8 :: ciphered)).drop
          (securityProtected5gsNasMessageHeaderLength - 1) = count.toUInt8 :: ciphered := rfl
    have hreceived : (([fgsMobilityManagementMessage, 2] ++
        ([m0, m1, m2, m3] ++ count.toUInt8 :: ciphered)).drop 2).take nasIntegritySize =
        [m0, m1, m2, m3] := rfl
    have hcount : ¬count > 0x00ffffff := UInt32.not_lt.2 hmax
    unfold nasSecurityRxProcess
    simp only [hctx, if_neg hlen, htype, hsqn, hsync, if_neg hcount, hinput, hreceived, hm,
      ne_eq, not_true_eq_false, if_false]
    exact ⟨_, _, rfl⟩

/-- Nothing is decoded of a Service Accept with its headers. -/
theorem decodeFgsServiceAccept_header (rest : List UInt8) :
    decodeFgsServiceAccept .zero (fgsMobilityManagementMessage :: rest) = .ok (-1, .zero) := by
  unfold decodeFgsServiceAccept
  rw [if_neg (by simp)]
  unfold decodeServiceAcceptIes
  rfl

/-- Of a Service Reject with its headers the protocol discriminator is the cause. -/
theorem decodeFgsServiceReject_header (rest : List UInt8) :
    decodeFgsServiceReject .zero (fgsMobilityManagementMessage :: 2 :: rest) =
      .ok (-1, { FgsServiceRejectMsg.zero with cause := fgsMobilityManagementMessage }) := by
  unfold decodeFgsServiceReject decodeServiceRejectIes
  rfl

/-- The cause has no text. -/
theorem handleServiceReject_header (ue : NasUe) (rest : List UInt8) :
    handleServiceReject ue (fgsMobilityManagementMessage :: 2 :: rest) = .error .outOfBounds := by
  unfold handleServiceReject
  rw [decodeFgsServiceReject_header]
  rfl

/-- A PDU of the network leaves the dispatcher in one of three ways. -/
theorem nasDownlinkDataInd_protectDownlink (k : PdcpCrypto) {ue : NasUe}
    {c : StreamSecurityContainer} {count : UInt32} {plain : List UInt8}
    (hctx : ue.nas.securityContainer = some c)
    (hsync : syncNasSqn ue.nas.security.nasCountDl count.toUInt8 = count)
    (hmax : count ≤ 0x00ffffff) (hplain : plain ≠ []) :
    ∃ nas' tail, nasDownlinkDataInd k ue (protectDownlink k c count plain) =
      if getMsgType (protectDownlink k c count plain) = fgsServiceAccept then
        .ok ({ ue with nas := nas', t3448 := -1 }, .serviceAccept .zero)
      else if getMsgType (protectDownlink k c count plain) = fgsServiceReject then
        .error .outOfBounds
      else .ok ({ ue with nas := nas' }, .other (getMsgType (protectDownlink k c count plain))
        (fgsMobilityManagementMessage :: 2 :: tail)) := by
  obtain ⟨nas', tail, hrx⟩ := nasRx_protectDownlink k hctx hsync hmax hplain
  refine ⟨nas', tail, ?_⟩
  have haccept : handleServiceAccept { ue with nas := nas' }
      (fgsMobilityManagementMessage :: 2 :: tail) =
      .ok ({ ue with nas := nas', t3448 := -1 }, .zero) := by
    unfold handleServiceAccept
    rw [decodeFgsServiceAccept_header]
    rfl
  unfold nasDownlinkDataInd
  simp only [hrx, haccept, handleServiceReject_header]
  rfl

theorem eqServiceAccept_zero_iff (msg : FgsServiceAcceptMsg) :
    eqServiceAccept msg .zero = true ↔ msg.hasPsiStatus = false ∧ msg.hasPsiRes = false ∧
      msg.cause = [] ∧ msg.t3448 = none := by
  have htimer : eqGprsTimer msg.t3448 none = true ↔ msg.t3448 = none := by
    cases msg.t3448 <;> simp [eqGprsTimer]
  have hzero : FgsServiceAcceptMsg.zero.t3448 = none := rfl
  have hcause : FgsServiceAcceptMsg.zero.cause = [] := rfl
  have hstatus : FgsServiceAcceptMsg.zero.hasPsiStatus = false := rfl
  have hres : FgsServiceAcceptMsg.zero.hasPsiRes = false := rfl
  rw [eqServiceAccept, hzero, hcause, hstatus, hres]
  simp only [Bool.and_eq_true, htimer, beq_iff_eq, Bool.or_eq_true, Bool.not_eq_true']
  tauto

/-- A Service Accept with a T3448 of one minute, under null ciphering. -/
def timerAccept : ServiceDlMsg :=
  .accept { FgsServiceAcceptMsg.zero with t3448 := some ⟨1, 1⟩ } []

end NrStack
