import NrStack.Nas.Generators
import NrStack.Nas.Replay

/-!
# The uplink NAS COUNT over a whole run

The UE sends messages in any order, receives others, and a Security Mode Command gives it a new
security context. Nothing but a protected message moves the uplink COUNT, so every protected
message has a COUNT of its own, across contexts too (`nas_uplink_count`).
-/

namespace NrStack

variable {env : NasEnv} {nas nas' : NrUeNasState}

/-! ## The run -/

/-- The last 16 of the 32 bytes `derive_knas` derives. -/
def deriveKnas (env : NasEnv) (nasAlgType nasAlgId : UInt8) (kamf : Vector UInt8 32) :
    Vector UInt8 16 :=
  ((env.kdf kamf.toList [0x69, nasAlgType, 0, 1, nasAlgId, 0, 1]).drop 16).cast rfl

/-- `stream_security_container_init`. -/
def streamSecurityContainerInit (cipheringAlgorithm integrityAlgorithm : UInt8)
    (cipheringKey integrityKey : Vector UInt8 16) : Except NasFault StreamSecurityContainer :=
  if cipheringAlgorithm ≤ 2 ∧ integrityAlgorithm ≤ 2 then
    .ok ⟨⟨cipheringAlgorithm.toNat, cipheringKey.toList⟩,
      ⟨integrityAlgorithm.toNat, integrityKey.toList⟩⟩
  else .error .assertFatal

/-- `handle_security_mode_command`. -/
def handleSecurityModeCommand (env : NasEnv) (nas : NrUeNasState) (pdu : List UInt8) :
    Except NasFault (Option AsNasInfo × NrUeNasState) := do
  if pdu.length ≤ 10 then
    throw .assertFatal
  let cipheringAlgorithm := pdu.getD 10 0 >>> 4 &&& 0x0f
  let integrityAlgorithm := pdu.getD 10 0 &&& 0x0f
  let knasEnc := deriveKnas env 1 cipheringAlgorithm nas.security.kamf
  let knasInt := deriveKnas env 2 integrityAlgorithm nas.security.kamf
  let nas := { nas with security := { nas.security with knasEnc := knasEnc, knasInt := knasInt } }
  let container ← streamSecurityContainerInit cipheringAlgorithm integrityAlgorithm knasEnc knasInt
  generateSecurityModeComplete env { nas with securityContainer := some container }

/-- The uplink generators. No caller has a SOR container for the Registration Complete. -/
inductive UplinkGenerator
  | registrationRequest (isSecurityMode : Bool)
  | serviceRequest
  | securityModeComplete
  | registrationComplete
  | deregistrationRequest
  | pduSessionEstablishRequest (pduReq : NasPduSessionReq)
deriving DecidableEq, Repr

def UplinkGenerator.generate (env : NasEnv) (nas : NrUeNasState) :
    UplinkGenerator → Except NasFault (Option AsNasInfo × NrUeNasState)
  | registrationRequest isSecurityMode => generateRegistrationRequest env nas isSecurityMode
  | serviceRequest => generateServiceRequest env nas
  | securityModeComplete => generateSecurityModeComplete env nas
  | registrationComplete => generateRegistrationComplete env nas none
  | deregistrationRequest => generateDeregistrationRequest env nas
  | pduSessionEstablishRequest pduReq => generatePduSessionEstablishRequest env nas pduReq

/-- What the UE does. -/
inductive NasOp
  | generate (generator : UplinkGenerator)
  | securityModeCommand (pdu : List UInt8)
  | receive (pdu : List UInt8)
  /-- Anything else may change any part of the state but the uplink COUNT. -/
  | other (nas : NrUeNasState)

/-- One operation. -/
def NasOp.step (env : NasEnv) (nas : NrUeNasState) :
    NasOp → Except NasFault (Option AsNasInfo × NrUeNasState)
  | generate generator => generator.generate env nas
  | securityModeCommand pdu => handleSecurityModeCommand env nas pdu
  | receive pdu =>
    match nasSecurityRxProcess env.crypto nas.toNrUeNas pdu with
    | none => .error .assertFatal
    | some (_, nrUeNas, _) => .ok (none, { nas with toNrUeNas := nrUeNas })
  | other nas' =>
    .ok (none, { nas' with security :=
      { nas'.security with nasCountUl := nas.security.nasCountUl } })

/-- A message, with the security context it was sent in. -/
structure SentNas where
  msg : AsNasInfo
  container : Option StreamSecurityContainer

/-- The message has a security header. -/
def SentNas.IsProtected (sent : SentNas) : Prop :=
  sent.msg.nasData[1]? ≠ some SecurityHeader.plain5gsMsg.toByte

instance (sent : SentNas) : Decidable sent.IsProtected :=
  inferInstanceAs (Decidable (_ ≠ _))

/-- The messages of a run. A fault ends it. -/
def nasSent (env : NasEnv) : NrUeNasState → List NasOp → List SentNas
  | _, [] => []
  | nas, op :: ops =>
    match op.step env nas with
    | .error _ => []
    | .ok (none, nas) => nasSent env nas ops
    | .ok (some msg, nas) => ⟨msg, nas.securityContainer⟩ :: nasSent env nas ops

/-! ## One operation -/

/-- A generator that returns has one of the outcomes. -/
theorem UplinkGenerator.outcome_of_ok {g : UplinkGenerator}
    {r : Option AsNasInfo × NrUeNasState} (h : g.generate env nas = .ok r) :
    GeneratorOutcome env nas (.ok r) := by
  rw [← h]
  cases g with
  | registrationRequest isSecurityMode =>
    by_cases hfits : IdentityFits nas.mm
    · exact generateRegistrationRequest_outcome env hfits isSecurityMode
    by_cases htype : setFgsRegistrationType nas.mm = regTypeReserved
    · rw [generate, generateRegistrationRequest_of_reserved env htype]
      exact .silent
    · rw [generate, generateRegistrationRequest_of_not_fits env hfits htype] at h
      cases h
  | serviceRequest => exact generateServiceRequest_outcome env nas
  | securityModeComplete =>
    by_cases htype : setFgsRegistrationType nas.mm = regTypeReserved
    · rw [generate, generateSecurityModeComplete_of_reserved env htype] at h
      cases h
    by_cases hfits : IdentityFits nas.mm
    · exact generateSecurityModeComplete_outcome env hfits htype
    · rw [generate, generateSecurityModeComplete_of_not_fits env hfits htype] at h
      cases h
  | registrationComplete => exact generateRegistrationComplete_outcome env nas
  | deregistrationRequest => exact generateDeregistrationRequest_outcome env nas
  | pduSessionEstablishRequest pduReq =>
    exact generatePduSessionEstablishRequest_outcome env nas pduReq

/-- The security context of a Security Mode Command, before the answer. -/
theorem handleSecurityModeCommand_ok {pdu : List UInt8} {r : Option AsNasInfo × NrUeNasState}
    (h : handleSecurityModeCommand env nas pdu = .ok r) :
    ∃ nas', nas'.security.nasCountUl = nas.security.nasCountUl ∧
      generateSecurityModeComplete env nas' = .ok r := by
  unfold handleSecurityModeCommand at h
  split at h
  · cases h
  dsimp only at h
  unfold streamSecurityContainerInit at h
  split at h
  · refine ⟨_, ?_, h⟩
    rfl
  · cases h

/-- Reception moves the downlink COUNT only. -/
theorem nasSecurityRxProcess_nasCountUl {k : PdcpCrypto} {nas nas' : NrUeNas}
    {pdu pdu' : List UInt8} {state : SecurityState}
    (h : nasSecurityRxProcess k nas pdu = some (state, nas', pdu')) :
    nas'.security.nasCountUl = nas.security.nasCountUl := by
  obtain ⟨-, rfl⟩ | ⟨-, ⟨-, rfl⟩ | ⟨-, -, rfl⟩⟩ := nasRx_cases h <;> rfl

/-- What an operation does to COUNT : it sends nothing protected and leaves COUNT, or it uses
COUNT and moves it on. -/
inductive CountStep (env : NasEnv) (nas : NrUeNasState) : Option AsNasInfo × NrUeNasState → Prop
  | kept {sent : Option AsNasInfo} {nas' : NrUeNasState} :
      nas'.security.nasCountUl = nas.security.nasCountUl →
      (∀ msg, sent = some msg → msg.nasData[1]? = some SecurityHeader.plain5gsMsg.toByte) →
      CountStep env nas (sent, nas')
  | used {msg : AsNasInfo} {nas' : NrUeNasState} {container : StreamSecurityContainer} :
      nas.security.nasCountUl ≤ 0xffffff →
      nas'.security.nasCountUl = nas.security.nasCountUl + 1 →
      nas'.securityContainer = some container →
      ProtectedUnder env container nas.security.nasCountUl msg →
      CountStep env nas (some msg, nas')

theorem GeneratorOutcome.countStep {r : Option AsNasInfo × NrUeNasState}
    (h : GeneratorOutcome env nas (.ok r)) : CountStep env nas r := by
  cases h with
  | silent => exact .kept rfl nofun
  | plain _ htype => exact .kept rfl fun msg hmsg => Option.some.inj hmsg ▸ htype
  | secured _ hmax hprotected hcontainer hcount => exact .used hmax hcount hcontainer hprotected

theorem NasOp.countStep {op : NasOp} {r : Option AsNasInfo × NrUeNasState}
    (h : op.step env nas = .ok r) : CountStep env nas r := by
  cases op with
  | generate generator => exact (UplinkGenerator.outcome_of_ok h).countStep
  | securityModeCommand pdu =>
    obtain ⟨nas₁, hcount, hok⟩ := handleSecurityModeCommand_ok h
    have hstep := (UplinkGenerator.outcome_of_ok (g := .securityModeComplete) hok).countStep
    cases hstep with
    | kept hkept htype => exact .kept (hkept.trans hcount) htype
    | used hmax hmoved hcontainer hprotected =>
      rw [hcount] at hmax hmoved hprotected
      exact .used hmax hmoved hcontainer hprotected
  | receive pdu =>
    rw [step] at h
    split at h
    · cases h
    · rename_i state nrUeNas pdu' hrx
      cases h
      exact .kept (nasSecurityRxProcess_nasCountUl hrx) nofun
  | other nas' =>
    cases h
    exact .kept rfl nofun

/-! ## Whole runs -/

/-- The sent message is protected under `count`, in the context it was sent in. -/
def SentNas.UsesCount (env : NasEnv) (sent : SentNas) (count : UInt32) : Prop :=
  ∃ container, sent.container = some container ∧ ProtectedUnder env container count sent.msg

/-- A byte of a protected message tells it from a plain one. -/
theorem ProtectedUnder.isProtected {container : StreamSecurityContainer} {count : UInt32}
    {msg : AsNasInfo} (h : ProtectedUnder env container count msg)
    (c : Option StreamSecurityContainer) : SentNas.IsProtected ⟨msg, c⟩ := by
  obtain ⟨header, hheader, hbyte⟩ := h.type
  unfold SentNas.IsProtected
  rw [hbyte]
  revert hheader
  cases header <;> decide

/-- The COUNTs of a run, from the stored one on. -/
theorem counts_nasSent (env : NasEnv) : ∀ (ops : List NasOp) (nas : NrUeNasState),
    ∃ counts : List UInt32, counts.Pairwise (· < ·) ∧
      (∀ count ∈ counts, nas.security.nasCountUl ≤ count) ∧
      List.Forall₂ (SentNas.UsesCount env)
        ((nasSent env nas ops).filter fun sent => sent.IsProtected) counts
  | [], _ => ⟨[], .nil, nofun, .nil⟩
  | op :: ops, nas => by
    unfold nasSent
    cases h : op.step env nas with
    | error fault => exact ⟨[], .nil, nofun, .nil⟩
    | ok r =>
    obtain ⟨counts, hsorted, hge, hforall⟩ := counts_nasSent env ops r.2
    cases NasOp.countStep h with
    | kept hkept htype =>
      refine ⟨counts, hsorted, fun count hcount => hkept ▸ hge count hcount, ?_⟩
      rename_i sent nas'
      cases sent with
      | none => exact hforall
      | some msg =>
        have hplain : ¬(SentNas.mk msg nas'.securityContainer).IsProtected :=
          not_not.2 (htype msg rfl)
        change List.Forall₂ _ (List.filter _ (_ :: _)) _
        rwa [List.filter_cons_of_neg (by simpa using hplain)]
    | used hmax hmoved hcontainer hprotected =>
      rename_i msg nas' container
      have hlt : ∀ count ∈ counts, nas.security.nasCountUl < count := fun count hcount => by
        have hle := hge count hcount
        rw [hmoved, UInt32.le_iff_toNat_le,
          toNat_add_one (UInt32.le_iff_toNat_le.1 hmax)] at hle
        exact UInt32.lt_iff_toNat_lt.2 hle
      refine ⟨nas.security.nasCountUl :: counts, .cons hlt hsorted, ?_, ?_⟩
      · intro count hcount
        rcases List.mem_cons.1 hcount with rfl | hcount
        · exact UInt32.le_refl _
        · exact UInt32.le_of_lt (hlt count hcount)
      · change List.Forall₂ _ (List.filter _ (_ :: _)) _
        rw [List.filter_cons_of_pos (by simpa using hprotected.isProtected _)]
        exact .cons ⟨container, hcontainer, hprotected⟩ hforall

end NrStack
