import NrStack.Pdcp.Entity

/-!
# Reception of protected NAS messages

`nas_security_rx_process` of the UE. The header of a protected message is the protocol
discriminator, the security header type, four bytes of MAC and the low byte of the NAS
COUNT. The code rebuilds COUNT in the stored state before it checks the MAC, and a message
that fails the check leaves it there (`nas_rx_atomic_iff`).

The algorithms are those of PDCP. `EIA0` computes no MAC at all : the code compares with what
it finds in memory, here with any `mac`.
-/

namespace NrStack

/-- `SECURITY_PROTECTED_5GS_NAS_MESSAGE_HEADER_LENGTH`. -/
def securityProtected5gsNasMessageHeaderLength : Nat :=
  7

/-- `NAS_INTEGRITY_SIZE`. -/
def nasIntegritySize : Nat :=
  4

/-- `Security_header_t`. -/
inductive SecurityHeader
  | plain5gsMsg
  | integrityProtected
  | integrityProtectedAndCiphered
  | integrityProtectedWithNewSecuCtx
  | integrityProtectedAndCipheredWithNewSecuCtx
deriving DecidableEq, Repr

/-- The security header types of a byte; other values have none. -/
def SecurityHeader.ofByte (b : UInt8) : Option SecurityHeader :=
  [.plain5gsMsg, .integrityProtected, .integrityProtectedAndCiphered,
    .integrityProtectedWithNewSecuCtx, .integrityProtectedAndCipheredWithNewSecuCtx][b.toNat]?

/-- `security_state_t`. -/
inductive SecurityState
  | noSecurityContext
  | newSecurityContext
  | unprotected
  | integrityFailed
  | integrityPassed
  | badInput
deriving DecidableEq, Repr

/-- `ue_sa_security_key_t`. -/
structure UeSaSecurityKey where
  kausf : Vector UInt8 32
  kseaf : Vector UInt8 32
  kamf : Vector UInt8 32
  knasInt : Vector UInt8 16
  knasEnc : Vector UInt8 16
  res : Vector UInt8 16
  rand : Vector UInt8 16
  kgnb : Vector UInt8 32
  nasCountUl : UInt32
  nasCountDl : UInt32
deriving DecidableEq

/-- `stream_security_container_t` : the contexts, each with its algorithm. -/
structure StreamSecurityContainer where
  cipheringContext : StreamSecurityContext
  integrityContext : StreamSecurityContext
deriving DecidableEq, Repr

/-- The security part of `nr_ue_nas_t`. -/
structure NrUeNas where
  security : UeSaSecurityKey
  securityContainer : Option StreamSecurityContainer
deriving DecidableEq

/-- Write `nas_count_dl`. -/
def NrUeNas.setNasCountDl (nas : NrUeNas) (count : UInt32) : NrUeNas :=
  { nas with security := { nas.security with nasCountDl := count } }

/-- The NAS COUNT with the received sequence number, from 24.501 4.4.3.1. -/
def syncNasSqn (nasCountDl : UInt32) (nasSqn : UInt8) : UInt32 :=
  let targetSqn := nasCountDl &&& 0xff
  if nasSqn.toUInt32 = targetSqn then nasCountDl
  else
    let nasCountDl := if nasSqn.toUInt32 < targetSqn then nasCountDl + 256 else nasCountDl
    nasCountDl &&& ~~~0xff ||| nasSqn.toUInt32

/-- `nas_security_rx_process`, with the PDU deciphered in place; `none` is `exit`. -/
def nasSecurityRxProcess (k : PdcpCrypto) (nas : NrUeNas) (pduBuffer : List UInt8) :
    Option (SecurityState × NrUeNas × List UInt8) :=
  match nas.securityContainer with
  | none => some (.noSecurityContext, nas, pduBuffer)
  | some container =>
    if pduBuffer.length < 8 then some (.badInput, nas, pduBuffer)
    else
      match SecurityHeader.ofByte (pduBuffer.getD 1 0) with
      | some .plain5gsMsg => some (.unprotected, nas, pduBuffer)
      | some .integrityProtected
      | some .integrityProtectedWithNewSecuCtx
      | some .integrityProtectedAndCipheredWithNewSecuCtx => some (.badInput, nas, pduBuffer)
      | some .integrityProtectedAndCiphered
      | none =>
        let count := syncNasSqn nas.security.nasCountDl (pduBuffer.getD 6 0)
        let nas := nas.setNasCountDl count
        if count > 0x00ffffff then none
        else
          let header := securityProtected5gsNasMessageHeaderLength
          let computedMac := k.mac container.integrityContext 1 count.toNat 1
            (pduBuffer.drop (header - 1))
          let receivedMac := (pduBuffer.drop 2).take nasIntegritySize
          if receivedMac ≠ computedMac then some (.integrityFailed, nas, pduBuffer)
          else
            -- a `uint8_t`
            let payloadLen := (pduBuffer.length - header) % 256
            let buf := k.cipher container.cipheringContext 1 count.toNat 1
              ((pduBuffer.drop header).take payloadLen)
            some (.integrityPassed, nas.setNasCountDl (count + 1),
              pduBuffer.take header ++ buf ++ pduBuffer.drop (header + payloadLen))

/-! ## Rejected messages -/

/-- A message that gets as far as the MAC, with another sequence number than the low byte of
the stored COUNT. -/
def MovesNasCount (nas : NrUeNas) (pduBuffer : List UInt8) : Prop :=
  nas.securityContainer.isSome ∧ 8 ≤ pduBuffer.length ∧
    (SecurityHeader.ofByte (pduBuffer.getD 1 0) = none ∨
      SecurityHeader.ofByte (pduBuffer.getD 1 0) = some .integrityProtectedAndCiphered) ∧
    (pduBuffer.getD 6 0).toUInt32 ≠ nas.security.nasCountDl &&& 0xff

/-- Replacing the low byte. -/
theorem or_toUInt32_and (x : UInt32) (b : UInt8) :
    (x &&& ~~~0xff ||| b.toUInt32) &&& 0xff = b.toUInt32 := by
  apply UInt32.toBitVec_inj.1
  apply BitVec.eq_of_getLsbD_eq
  intro i hi
  have hlow : (255#32).getLsbD i = decide (i < 8) := by
    revert i; decide
  have hhigh : (4294967040#32).getLsbD i = !decide (i < 8) := by
    revert i; decide
  by_cases h8 : i < 8
  · simp [hlow, hhigh, h8]
  · have hb : b.toBitVec.getLsbD i = false := BitVec.getLsbD_of_ge _ _ (not_lt.1 h8)
    simp [hlow, hhigh, h8, hb]

/-- The new COUNT has the received sequence number. -/
theorem syncNasSqn_and (c : UInt32) (sqn : UInt8) : syncNasSqn c sqn &&& 0xff = sqn.toUInt32 := by
  unfold syncNasSqn
  dsimp only
  split_ifs with heq
  · exact heq.symm
  · exact or_toUInt32_and _ _
  · exact or_toUInt32_and _ _

/-- So it is the old one exactly if this has it already. -/
theorem syncNasSqn_eq_iff {c : UInt32} {sqn : UInt8} :
    syncNasSqn c sqn = c ↔ sqn.toUInt32 = c &&& 0xff := by
  constructor
  · intro h
    rw [← syncNasSqn_and c sqn, h]
  · intro h
    rw [syncNasSqn, if_pos h]

theorem setNasCountDl_eq_iff {nas : NrUeNas} {count : UInt32} :
    nas.setNasCountDl count = nas ↔ count = nas.security.nasCountDl := by
  constructor
  · intro h
    rw [← h]
    rfl
  · rintro rfl
    rfl

/-- A message that is not accepted leaves the security state as it was exactly if it fails
before its sequence number is taken over, or has the one expected. -/
theorem nas_rx_atomic_iff (k : PdcpCrypto) {nas nas' : NrUeNas} {pduBuffer pduBuffer' : List UInt8}
    {state : SecurityState}
    (h : nasSecurityRxProcess k nas pduBuffer = some (state, nas', pduBuffer'))
    (hrejected : state ≠ .integrityPassed) : nas' = nas ↔ ¬MovesNasCount nas pduBuffer := by
  unfold nasSecurityRxProcess at h
  unfold MovesNasCount
  split at h
  · rename_i hnone
    cases h
    simp [hnone]
  rename_i container hsome
  split_ifs at h with hshort
  · cases h
    refine iff_of_true rfl fun hm => ?_
    omega
  have hlen : 8 ≤ pduBuffer.length := not_lt.1 hshort
  split at h
  case h_1 htype | h_2 htype | h_3 htype | h_4 htype =>
    cases h
    refine iff_of_true rfl fun hm => ?_
    obtain ⟨-, -, hprotected, -⟩ := hm
    rw [htype] at hprotected
    simp at hprotected
  all_goals
    rename_i htype
    dsimp only at h
    split_ifs at h with hmax hmac
    · cases h
      rw [setNasCountDl_eq_iff, syncNasSqn_eq_iff, hsome, htype]
      simp [hlen]
    · cases h
      exact absurd rfl hrejected

/-- A UE with a security context and COUNT `0`. -/
def nasUe : NrUeNas where
  security := ⟨.replicate 32 0, .replicate 32 0, .replicate 32 0, .replicate 16 0, .replicate 16 0,
    .replicate 16 0, .replicate 16 0, .replicate 32 0, 0, 0⟩
  securityContainer := some ⟨⟨2, []⟩, ⟨2, []⟩⟩

theorem nas_rx_atomic_iff_nasUe : nasUe = nasUe ↔
    ¬MovesNasCount nasUe [0x7e, 2, 1, 1, 1, 1, 0, 7] := by
  have h : nasSecurityRxProcess .null nasUe [0x7e, 2, 1, 1, 1, 1, 0, 7] =
      some (.integrityFailed, nasUe, [0x7e, 2, 1, 1, 1, 1, 0, 7]) := by
    decide
  exact nas_rx_atomic_iff .null h (by decide)

/-- A message with sequence number 200 fails the MAC, and COUNT stays at 200. -/
theorem nas_rx_not_atomic :
    nasSecurityRxProcess .null nasUe [0x7e, 2, 1, 1, 1, 1, 200, 7] =
      some (.integrityFailed, nasUe.setNasCountDl 200, [0x7e, 2, 1, 1, 1, 1, 200, 7]) ∧
    nasUe.setNasCountDl 200 ≠ nasUe := by
  decide

end NrStack
