import Mathlib
import NrStack.Library.ByteBits
import NrStack.Nas.Messages

/-!
# Service Accept and Service Reject

The encoders and decoders of `fgmm_service_accept.c` and `fgmm_service_reject.c`, with the IEs of
`fgmm_lib.c`. A decoder reads the list of bytes it is given; reading past its end faults. The
local copy `ba` of the buffer is what is left of that list : where the code moves it past the end,
nothing is left, and the number of decoded bytes shows it.
-/

namespace NrStack

/-! ## Information elements -/

/-- `MIN_PDU_SESSION_CONTENTS_LEN`. -/
def minPduSessionContentsLen : Nat :=
  2

/-- `MAX_PDU_SESSION_CONTENTS_LEN`. -/
def maxPduSessionContentsLen : UInt8 :=
  32

/-- `MAX_NUM_PDU_ERRORS`. -/
def maxNumPduErrors : Nat :=
  256

/-- An array of `MAX_NUM_PSI` entries. -/
abbrev PsiArray : Type :=
  Vector UInt8 16

/-- `IEI_PDU_SESSION_STATUS`. -/
def ieiPduSessionStatus : UInt8 :=
  0x50

/-- `IEI_PDU_SESSION_REACT_RESULT`. -/
def ieiPduSessionReactResult : UInt8 :=
  0x26

/-- `IEI_PDU_SESSION_REACT_RESULT_ERROR_CAUSE`. -/
def ieiPduSessionReactResultErrorCause : UInt8 :=
  0x72

/-- `IEI_EAPMSG`. -/
def ieiEapmsg : UInt8 :=
  0x78

/-- `IEI_CAG_INFO_LIST`. -/
def ieiCagInfoList : UInt8 :=
  0x75

/-- `IEI_T3448_VALUE`. -/
def ieiT3448Value : UInt8 :=
  0x6b

/-- `IEI_T3446_VALUE`. -/
def ieiT3446Value : UInt8 :=
  0x5f

/-- `buffer->buf[i]`. -/
def readByte (buffer : List UInt8) (i : Nat) : Except NasFault UInt8 :=
  match buffer[i]? with
  | some b => .ok b
  | none => .error .outOfBounds

/-- Two bytes of a length, the high one first. -/
def readLength (buffer : List UInt8) : Except NasFault Nat := do
  let high ← readByte buffer 0
  let low ← readByte buffer 1
  return high.toNat * 256 + low.toNat

/-- The PSI bits of one octet : PSI `i` is bit `i % 8`. -/
def psiOctet (psi : PsiArray) (indices : List (Fin 16)) : UInt8 :=
  indices.foldl (fun octet (i : Fin 16) => octet ||| psi[i] <<< UInt8.ofNat (i % 8)) 0

/-- `encode_pdu_session_ie`. PSI 0 is spare. -/
def encodePduSessionIe (iei : UInt8) (psi : PsiArray) (buffer len : Nat) : NasEncoder Int := do
  if len < minPduSessionContentsLen + 2 then
    return -1
  encodeBytes buffer [iei, UInt8.ofNat minPduSessionContentsLen,
    psiOctet psi [1, 2, 3, 4, 5, 6, 7], psiOctet psi [8, 9, 10, 11, 12, 13, 14, 15]]
  return 4

/-- `decode_pdu_session_ie`, called behind the IEI : it asks for one byte more than it reads. -/
def decodePduSessionIe (psi : PsiArray) (ba : List UInt8) : Except NasFault (Int × PsiArray) := do
  if ba.length < minPduSessionContentsLen + 2 then
    return (-1, psi)
  let pduSessionStatusLen ← readByte ba 0
  if pduSessionStatusLen > maxPduSessionContentsLen then
    return (-1, psi)
  let octet3 ← readByte ba 1
  let octet4 ← readByte ba 2
  return (3, .ofFn fun i =>
    if i = 0 then psi[0]
    else (if i < 8 then octet3 else octet4) >>> UInt8.ofNat (i % 8) &&& 1)

/-- `gprs_timer_t`. -/
structure GprsTimer where
  value : UInt8
  unit : UInt8
deriving DecidableEq, Repr

/-- `encode_gprs_timer_ie`. -/
def encodeGprsTimerIe (iei : UInt8) (timer : GprsTimer) (buffer len : Nat) : NasEncoder Int := do
  if len < 3 then
    return -1
  encodeBytes buffer [iei, 1, (timer.unit &&& 0x07) <<< 5 ||| timer.value &&& 0x1f]
  return 3

/-- `decode_gprs_timer_ie`. -/
def decodeGprsTimerIe (ba : List UInt8) : Except NasFault (Int × GprsTimer) := do
  let octet ← readByte ba 1
  return (2, ⟨octet &&& 0x1f, octet >>> 5 &&& 0x07⟩)

/-- `decode_eap_msg_ie`. -/
def decodeEapMsgIe (ba : List UInt8) : Except NasFault Int := do
  let eapMsgLen ← readLength ba
  return eapMsgLen + 2

/-- `ENCODE_NAS_IE`, if the IE is present : `encoded` bytes are written before it. -/
def encodeNasIe (present : Prop) [Decidable present] (ie : NasEncoder Int) (encoded : Int)
    (rest : Int → NasEncoder Int) : NasEncoder Int := do
  let ret ← encodeIf present ie
  if ret < 0 then
    return -1
  rest (encoded + ret)

/-- `encode_gprs_timer_ie`, if there is a timer. -/
def encodeTimer (iei : UInt8) (timer : Option GprsTimer) (encoded : Int) (len : Nat)
    (rest : Int → NasEncoder Int) : NasEncoder Int :=
  match timer with
  | none => rest encoded
  | some timer =>
    encodeNasIe True (encodeGprsTimerIe iei timer encoded.toNat (len - encoded.toNat)) encoded rest

/-- `eq_gprs_timer`, of pointers that may be null. -/
def eqGprsTimer (a b : Option GprsTimer) : Bool :=
  match a, b with
  | none, none => true
  | some a, some b => a.value = b.value ∧ a.unit = b.unit
  | _, _ => false

/-! ## Service Accept -/

/-- `pdu_error_cause_t`. -/
structure PduErrorCause where
  pduSessionId : UInt8
  cause : UInt8
deriving DecidableEq, Repr

/-- `fgs_service_accept_msg_t`, with the first `num_errors` entries of `cause`. -/
structure FgsServiceAcceptMsg where
  psiStatus : PsiArray
  hasPsiStatus : Bool
  psiRes : PsiArray
  hasPsiRes : Bool
  cause : List PduErrorCause
  cause_length : cause.length ≤ maxNumPduErrors
  t3448 : Option GprsTimer
deriving DecidableEq

/-- `fgs_service_accept_msg_t msg = {0}`. -/
def FgsServiceAcceptMsg.zero : FgsServiceAcceptMsg :=
  ⟨.replicate 16 0, false, .replicate 16 0, false, [], Nat.zero_le _, none⟩

/-- The bytes of the causes. -/
def causeBytes (cause : List PduErrorCause) : List UInt8 :=
  cause.flatMap fun c => [c.pduSessionId, c.cause]

/-- The error causes of a Service Accept : the limit on their number is checked against the number
of bytes. -/
def encodeErrorCauses (cause : List PduErrorCause) (buffer : Nat) : NasEncoder Int := do
  encodeBytes buffer [ieiPduSessionReactResultErrorCause]
  let errorLen := cause.length * 2
  if errorLen > maxNumPduErrors then
    return -1
  encodeBytes (buffer + 1) (htons (BitVec.ofNat 16 errorLen) ++ causeBytes cause)
  return 3 + errorLen

/-- `encode_fgs_service_accept`. -/
def encodeFgsServiceAccept (msg : FgsServiceAcceptMsg) (len : Nat) : NasEncoder Int :=
  if len < 1 then return -1
  else
    encodeNasIe msg.hasPsiStatus (encodePduSessionIe ieiPduSessionStatus msg.psiStatus 0 len) 0
      fun encoded =>
    encodeNasIe msg.hasPsiRes (encodePduSessionIe ieiPduSessionReactResult msg.psiRes
      encoded.toNat (len - encoded.toNat)) encoded fun encoded =>
    encodeNasIe (msg.cause ≠ []) (encodeErrorCauses msg.cause encoded.toNat) encoded fun encoded =>
    encodeTimer ieiT3448Value msg.t3448 encoded len fun encoded => return encoded

/-- Append a cause. -/
def FgsServiceAcceptMsg.addCause (msg : FgsServiceAcceptMsg) (c : PduErrorCause) :
    Except NasFault FgsServiceAcceptMsg :=
  if h : msg.cause.length < maxNumPduErrors then
    .ok { msg with
      cause := msg.cause ++ [c]
      cause_length := by rw [List.length_append]; exact h }
  else .error .outOfBounds

/-- `n` turns of the loop over the error causes, two bytes each. -/
def decodeErrorCauses (msg : FgsServiceAcceptMsg) : Nat → List UInt8 →
    Except NasFault FgsServiceAcceptMsg
  | 0, _ => return msg
  | n + 1, ba => do
    let pduSessionId ← readByte ba 0
    let cause ← readByte ba 1
    let msg ← msg.addCause ⟨pduSessionId, cause⟩
    decodeErrorCauses msg n (ba.drop 2)

/-- The loop over the IEs, behind `decoded` bytes. -/
def decodeServiceAcceptIes (msg : FgsServiceAcceptMsg) (decoded : Nat) (ba : List UInt8) :
    Except NasFault (Int × FgsServiceAcceptMsg) :=
  match ba with
  | [] => return (decoded, msg)
  | iei :: ba =>
    if iei = ieiPduSessionStatus then do
      let (ret, psiStatus) ← decodePduSessionIe msg.psiStatus ba
      let msg := { msg with hasPsiStatus := true, psiStatus := psiStatus }
      if ret < 0 then return (-1, msg)
      decodeServiceAcceptIes msg (decoded + 1 + ret.toNat) (ba.drop ret.toNat)
    else if iei = ieiPduSessionReactResult then do
      let (ret, psiRes) ← decodePduSessionIe msg.psiRes ba
      let msg := { msg with hasPsiRes := true, psiRes := psiRes }
      if ret < 0 then return (-1, msg)
      decodeServiceAcceptIes msg (decoded + 1 + ret.toNat) (ba.drop ret.toNat)
    else if iei = ieiPduSessionReactResultErrorCause then do
      let errorLen ← readLength ba
      if errorLen > maxNumPduErrors * 2 then return (-1, msg)
      let n := (errorLen + 1) / 2
      let msg ← decodeErrorCauses msg n (ba.drop 2)
      decodeServiceAcceptIes msg (decoded + 1 + (2 + 2 * n)) (ba.drop (2 + 2 * n))
    else if iei = ieiT3448Value then do
      let (ret, t3448) ← decodeGprsTimerIe ba
      let msg := { msg with t3448 := some t3448 }
      decodeServiceAcceptIes msg (decoded + 1 + ret.toNat) (ba.drop ret.toNat)
    else if iei = ieiEapmsg then do
      let ret ← decodeEapMsgIe ba
      decodeServiceAcceptIes msg (decoded + 1 + ret.toNat) (ba.drop ret.toNat)
    else return (-1, msg)
termination_by ba.length
decreasing_by all_goals simp

/-- `decode_fgs_service_accept`. -/
def decodeFgsServiceAccept (msg : FgsServiceAcceptMsg) (buffer : List UInt8) :
    Except NasFault (Int × FgsServiceAcceptMsg) :=
  if buffer.length < 1 then return (-1, msg)
  else
    decodeServiceAcceptIes { msg with
      hasPsiRes := false
      hasPsiStatus := false
      cause := []
      cause_length := Nat.zero_le _
      t3448 := none } 0 buffer

/-- `eq_service_accept`. -/
def eqServiceAccept (a b : FgsServiceAcceptMsg) : Bool :=
  (a.hasPsiStatus == b.hasPsiStatus) && (!a.hasPsiStatus || a.psiStatus == b.psiStatus) &&
  (a.hasPsiRes == b.hasPsiRes) && (!a.hasPsiRes || a.psiRes == b.psiRes) &&
  a.cause == b.cause && eqGprsTimer a.t3448 b.t3448

/-! ## Service Reject -/

/-- `fgs_service_reject_msg_t`. The causes fit a byte. -/
structure FgsServiceRejectMsg where
  cause : UInt8
  t3446 : Option GprsTimer
  psiStatus : PsiArray
  hasPsiStatus : Bool
  t3448 : Option GprsTimer
deriving DecidableEq

/-- `fgs_service_reject_msg_t msg = {0}`. -/
def FgsServiceRejectMsg.zero : FgsServiceRejectMsg :=
  ⟨0, none, .replicate 16 0, false, none⟩

/-- `encode_fgs_service_reject`. -/
def encodeFgsServiceReject (msg : FgsServiceRejectMsg) (len : Nat) : NasEncoder Int :=
  if len < 1 then return -1
  else do
    encodeBytes 0 [msg.cause]
    encodeNasIe msg.hasPsiStatus (encodePduSessionIe ieiPduSessionStatus msg.psiStatus 1 (len - 1))
      1 fun encoded =>
    encodeTimer ieiT3446Value msg.t3446 encoded len fun encoded =>
    encodeTimer ieiT3448Value msg.t3448 encoded len fun encoded => return encoded

/-- The loop over the IEs, behind `decoded` bytes. -/
def decodeServiceRejectIes (msg : FgsServiceRejectMsg) (decoded : Nat) (ba : List UInt8) :
    Except NasFault (Int × FgsServiceRejectMsg) :=
  match ba with
  | [] => return (decoded, msg)
  | iei :: ba =>
    if iei = ieiPduSessionStatus then do
      let (ret, psiStatus) ← decodePduSessionIe msg.psiStatus ba
      let msg := { msg with hasPsiStatus := true, psiStatus := psiStatus }
      if ret < 0 then return (-1, msg)
      decodeServiceRejectIes msg (decoded + 1 + ret.toNat) (ba.drop ret.toNat)
    else if iei = ieiT3448Value then do
      let (ret, t3448) ← decodeGprsTimerIe ba
      let msg := { msg with t3448 := some t3448 }
      decodeServiceRejectIes msg (decoded + 1 + ret.toNat) (ba.drop ret.toNat)
    else if iei = ieiT3446Value then do
      let (ret, t3446) ← decodeGprsTimerIe ba
      let msg := { msg with t3446 := some t3446 }
      decodeServiceRejectIes msg (decoded + 1 + ret.toNat) (ba.drop ret.toNat)
    else if iei = ieiEapmsg then do
      let ret ← decodeEapMsgIe ba
      decodeServiceRejectIes msg (decoded + 1 + ret.toNat) (ba.drop ret.toNat)
    else if iei = ieiCagInfoList then do
      let cagListLen ← readLength ba
      let cagLen := cagListLen + 2
      decodeServiceRejectIes msg (decoded + 1 + cagLen) (ba.drop cagLen)
    else return (-1, msg)
termination_by ba.length
decreasing_by all_goals simp

/-- `decode_fgs_service_reject`. -/
def decodeFgsServiceReject (msg : FgsServiceRejectMsg) (buffer : List UInt8) :
    Except NasFault (Int × FgsServiceRejectMsg) :=
  match buffer with
  | [] => return (-1, msg)
  | cause :: ba => decodeServiceRejectIes { msg with cause := cause } 1 ba

/-- `eq_service_reject`. -/
def eqServiceReject (a b : FgsServiceRejectMsg) : Bool :=
  a.cause == b.cause && (a.hasPsiStatus == b.hasPsiStatus) &&
  (!a.hasPsiStatus || a.psiStatus == b.psiStatus) &&
  eqGprsTimer a.t3448 b.t3448 && eqGprsTimer a.t3446 b.t3446

/-! ## PDU session bitmaps -/

/-- What an octet of PSI bits reads back as. -/
def roundPsi (old psi : PsiArray) : PsiArray :=
  .ofFn fun i =>
    if i = 0 then old[0]
    else (if i < 8 then psiOctet psi [1, 2, 3, 4, 5, 6, 7]
      else psiOctet psi [8, 9, 10, 11, 12, 13, 14, 15]) >>> UInt8.ofNat (i % 8) &&& 1

/-- The array is a bitmap, with the spare entry zero. -/
structure IsBitmap (psi : PsiArray) : Prop where
  spare : psi[0] = 0
  entry : ∀ i : Fin 16, psi[i] ≤ 1

instance (psi : PsiArray) : Decidable (IsBitmap psi) :=
  decidable_of_iff (psi[0] = 0 ∧ ∀ i : Fin 16, psi[i] ≤ 1)
    ⟨fun h => ⟨h.1, h.2⟩, fun h => ⟨h.1, h.2⟩⟩

/-- Bit `k` of an octet is set by the entries with that place. -/
theorem byteBit_psiOctet {psi : PsiArray} (h : ∀ i : Fin 16, psi[i] ≤ 1) {k : Nat} (hk : k < 8)
    (indices : List (Fin 16)) :
    byteBit (psiOctet psi indices) k =
      indices.any fun i => decide ((i : Nat) % 8 = k) && decide (psi[i] = 1) := by
  have hfold (octet : UInt8) : byteBit (indices.foldl
      (fun octet (i : Fin 16) => octet ||| psi[i] <<< UInt8.ofNat (i % 8)) octet) k =
        (byteBit octet k ||
          indices.any fun i => decide ((i : Nat) % 8 = k) && decide (psi[i] = 1)) := by
    induction indices generalizing octet with
    | nil => simp
    | cons i indices ih =>
      have hplace : (decide ((i : Nat) % 8 ≤ k) && decide (k - (i : Nat) % 8 = 0)) =
          decide ((i : Nat) % 8 = k) := by
        rw [← Bool.decide_and]
        exact decide_eq_decide.2 (by omega)
      rw [List.foldl_cons, ih, byteBit_or, byteBit_shiftLeft _ (by omega) hk,
        byteBit_of_le_one (h i), ← Bool.and_assoc, hplace, List.any_cons, Bool.or_assoc]
  unfold psiOctet
  rw [hfold, byteBit_zero, Bool.false_or]

theorem psiBit_le_one (octet : UInt8) (s : Nat) : octet >>> UInt8.ofNat s &&& 1 ≤ 1 := by
  rw [UInt8.le_iff_toNat_le, UInt8.toNat_and]
  exact Nat.and_le_right

theorem getElem_roundPsi (old psi : PsiArray) (i : Fin 16) :
    (roundPsi old psi)[i] = if i = 0 then old[0]
      else (if i < 8 then psiOctet psi [1, 2, 3, 4, 5, 6, 7]
        else psiOctet psi [8, 9, 10, 11, 12, 13, 14, 15]) >>> UInt8.ofNat (i % 8) &&& 1 :=
  Vector.getElem_ofFn i.isLt

/-- The octet of an entry has it in its place. -/
theorem psiOctet_entry {psi : PsiArray} (h : ∀ i : Fin 16, psi[i] ≤ 1) {i : Fin 16} (hi : i ≠ 0) :
    byteBit (if i < 8 then psiOctet psi [1, 2, 3, 4, 5, 6, 7]
      else psiOctet psi [8, 9, 10, 11, 12, 13, 14, 15]) (i % 8) = decide (psi[i] = 1) := by
  have hk : (i : Nat) % 8 < 8 := by omega
  -- no other entry of the octet has this place
  split
  · rename_i hlow
    have hplace : ∀ i : Fin 16, i ≠ 0 → i < 8 →
        ([1, 2, 3, 4, 5, 6, 7] : List (Fin 16)).filter
          (fun j : Fin 16 => decide ((j : Nat) % 8 = (i : Nat) % 8)) = [i] := by decide
    rw [byteBit_psiOctet h hk, ← List.any_filter, hplace i hi hlow]
    simp
  · rename_i hhigh
    have hplace : ∀ i : Fin 16, ¬i < 8 →
        ([8, 9, 10, 11, 12, 13, 14, 15] : List (Fin 16)).filter
          (fun j : Fin 16 => decide ((j : Nat) % 8 = (i : Nat) % 8)) = [i] := by decide
    rw [byteBit_psiOctet h hk, ← List.any_filter, hplace i hhigh]
    simp

theorem roundPsi_eq_iff {psi : PsiArray} :
    roundPsi (.replicate 16 0) psi = psi ↔ IsBitmap psi := by
  constructor
  · intro h
    refine ⟨?_, fun i => ?_⟩
    · rw [← h]
      rfl
    · rw [← h, getElem_roundPsi]
      split
      · exact (by decide : (0 : UInt8) ≤ 1)
      · exact psiBit_le_one _ _
  · intro h
    have hentry (i : Fin 16) : (roundPsi (.replicate 16 0) psi)[i] = psi[i] := ?_
    · exact Vector.ext fun i hi => hentry ⟨i, hi⟩
    rw [getElem_roundPsi]
    split
    · rename_i h0
      rw [h0]
      exact h.spare.symm
    · rename_i h0
      refine byte_ext fun k hk => ?_
      rw [byteBit_and, byteBit_shiftRight _ (by omega), byteBit_one, byteBit_of_le_one (h.entry i)]
      cases k with
      | zero => rw [Nat.zero_add, psiOctet_entry h.entry h0, Bool.and_comm]
      | succ k => simp

/-- The bytes of a PDU session IE. -/
def psiBytes (iei : UInt8) (psi : PsiArray) : List UInt8 :=
  [iei, 2, psiOctet psi [1, 2, 3, 4, 5, 6, 7], psiOctet psi [8, 9, 10, 11, 12, 13, 14, 15]]

end NrStack
