import NrStack.Nas.UplinkCount

/-!
# The buffers of the generators

Each generator adds up a size and allocates it before it encodes. The sizes are large enough for
every message, but the SUCI in it has a fixed array for the digits behind MCC and MNC, and
`fill_suci` copies as many digits as the configured IMSI has (`nas_uplink_size_iff`).
-/

namespace NrStack

variable {env : NasEnv} {nas : NrUeNasState}

/-- No access beyond an object, and a returned message that lies in its buffer. An assertion or
a null pointer stops the UE before that. -/
def KeepsToBuffer : Except NasFault (Option AsNasInfo × NrUeNasState) → Prop
  | .ok (none, _) => True
  | .ok (some msg, _) => msg.Inside
  | .error fault => fault = .nullPointer ∨ fault = .assertFatal

theorem GeneratorOutcome.keepsToBuffer {r : Except NasFault (Option AsNasInfo × NrUeNasState)}
    (h : GeneratorOutcome env nas r) : KeepsToBuffer r := by
  cases h with
  | stopped hfault => exact hfault
  | silent => trivial
  | plain hinside _ => exact hinside
  | secured _ _ hprotected _ _ => exact hprotected.inside

/-- The state lets the generator keep to its buffer. -/
def UplinkGenerator.Fits (mm : FgsMm) : UplinkGenerator → Prop
  | registrationRequest _ => setFgsRegistrationType mm = regTypeReserved ∨ IdentityFits mm
  | securityModeComplete => setFgsRegistrationType mm ≠ regTypeReserved ∧ IdentityFits mm
  | _ => True

/-- A SOR container is inside the buffer too. -/
theorem generateRegistrationComplete_keepsToBuffer (env : NasEnv) (nas : NrUeNasState)
    (sor : Option (List UInt8)) : KeepsToBuffer (generateRegistrationComplete env nas sor) := by
  obtain ⟨msg, hlong, hinside, -, heq⟩ := generateRegistrationComplete_eq env nas sor
  rw [heq]
  obtain ⟨fault, hfault, herr⟩ | ⟨container, -, -, hok⟩ :=
    cipherNas_cases env nas (by omega : 7 ≤ msg.length) hinside
  · rw [herr]
    exact hfault
  rw [hok]
  have hcipher := length_cipher_from env.crypto container.cipheringContext
    nas.security.nasCountUl.toNat (by omega) hinside
  set buf := env.crypto.cipher container.cipheringContext 1 nas.security.nasCountUl.toNat 0
    (msg.from 7)
  have hin : (msg.put 7 buf).Inside := hinside.put (by have := hinside.2; omega)
  change KeepsToBuffer (Except.bind (integrityNas env nas (msg.put 7 buf)) _)
  obtain herr | ⟨container', -, hok'⟩ :=
    integrityNas_cases env nas (by change 6 ≤ msg.length; omega : 6 ≤ (msg.put 7 buf).length) hin
  · rw [herr]
    exact .inl rfl
  rw [hok']
  refine hin.put ?_
  have hmac := env.crypto.mac_length container'.integrityContext 1 nas.security.nasCountUl.toNat 0
    ((msg.put 7 buf).from 6)
  have := hin.2
  change (msg.length : Int) ≤ _ at this
  unfold pdcpIntegritySize at hmac
  omega

/-- **The buffers of the generators** : a Registration Request keeps to its buffer exactly if the
identity fits or the message is not sent, a Security Mode Complete exactly if both the identity fits
and the request in it is made, and the others always. -/
theorem nas_uplink_size_iff (env : NasEnv) (nas : NrUeNasState) :
    (∀ g : UplinkGenerator, KeepsToBuffer (g.generate env nas) ↔ g.Fits nas.mm) ∧
    ∀ sor, KeepsToBuffer (generateRegistrationComplete env nas sor) := by
  refine ⟨fun g => ?_, generateRegistrationComplete_keepsToBuffer env nas⟩
  cases g with
  | registrationRequest isSecurityMode =>
    by_cases htype : setFgsRegistrationType nas.mm = regTypeReserved
    · rw [UplinkGenerator.generate, generateRegistrationRequest_of_reserved env htype]
      exact iff_of_true trivial (.inl htype)
    by_cases hfits : IdentityFits nas.mm
    · exact iff_of_true (generateRegistrationRequest_outcome env hfits _).keepsToBuffer (.inr hfits)
    · rw [UplinkGenerator.generate, generateRegistrationRequest_of_not_fits env hfits htype]
      exact iff_of_false (by simp [KeepsToBuffer]) (not_or.2 ⟨htype, hfits⟩)
  | serviceRequest =>
    exact iff_of_true (generateServiceRequest_outcome env nas).keepsToBuffer trivial
  | securityModeComplete =>
    by_cases htype : setFgsRegistrationType nas.mm = regTypeReserved
    · rw [UplinkGenerator.generate, generateSecurityModeComplete_of_reserved env htype]
      exact iff_of_false (by simp [KeepsToBuffer]) fun h => h.1 htype
    by_cases hfits : IdentityFits nas.mm
    · exact iff_of_true (generateSecurityModeComplete_outcome env hfits htype).keepsToBuffer
        ⟨htype, hfits⟩
    · rw [UplinkGenerator.generate, generateSecurityModeComplete_of_not_fits env hfits htype]
      exact iff_of_false (by simp [KeepsToBuffer]) fun h => hfits h.2
  | registrationComplete =>
    exact iff_of_true (generateRegistrationComplete_outcome env nas).keepsToBuffer trivial
  | deregistrationRequest =>
    exact iff_of_true (generateDeregistrationRequest_outcome env nas).keepsToBuffer trivial
  | pduSessionEstablishRequest pduReq =>
    exact iff_of_true (generatePduSessionEstablishRequest_outcome env nas pduReq).keepsToBuffer
      trivial

/-- A UE without GUTI or security context, with 100 digits for an IMSI. -/
def longImsiUe : NrUeNasState where
  security := nasUe.security
  securityContainer := none
  mm :=
    { fiveGMMState := .deregistered
      fiveGMMMode := .notConnected
      uicc := ⟨⟨List.replicate 100 48, by decide⟩, ⟨[], by decide⟩, ⟨[], by decide⟩, 2⟩
      guti := none
      isRrcInactive := false
      t3512 := 0 }

/-- Its Registration Request copies 95 digits into 32 bytes. -/
theorem registrationRequest_long_imsi :
    ¬KeepsToBuffer (generateRegistrationRequest .null longImsiUe false) := by
  have hfits : ¬IdentityFits longImsiUe.mm := by
    rintro (h | h)
    · cases h
    · have := h.lt_size
      simp [longImsiUe, schemeoutputSize] at this
  rw [generateRegistrationRequest_of_not_fits .null hfits (by decide)]
  simp [KeepsToBuffer]

end NrStack
