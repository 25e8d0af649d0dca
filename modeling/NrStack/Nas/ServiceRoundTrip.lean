import Mathlib
import NrStack.Nas.ServiceMessages

/-!
# Round trips of Service Accept and Service Reject

The decoders read every message back that the encoders write, unless a PDU session IE comes last :
`decode_pdu_session_ie` runs behind the IEI and still asks for four bytes, with three left. The
encoder also counts bytes against the number of error causes a message may have, and both lose the
bits of a bitmap entry or of a timer that have no place in the IE.
-/

namespace NrStack

/-! ## Timers -/

/-- What a timer reads back as. -/
def roundTimer (timer : GprsTimer) : GprsTimer :=
  let octet := (timer.unit &&& 0x07) <<< 5 ||| timer.value &&& 0x1f
  ⟨octet &&& 0x1f, octet >>> 5 &&& 0x07⟩

/-- The value has five bits, the unit three. -/
def GprsTimer.Fits (timer : GprsTimer) : Prop :=
  timer.value < 32 ∧ timer.unit < 8

instance (timer : GprsTimer) : Decidable timer.Fits :=
  inferInstanceAs (Decidable (_ ∧ _))

theorem byteBit_0x1f : ∀ k < 8, byteBit 0x1f k = decide (k < 5) := by
  decide

theorem byteBit_0x07 : ∀ k < 8, byteBit 0x07 k = decide (k < 3) := by
  decide

/-- The unit is behind the five bits of the value. -/
theorem byteBit_timerOctet (timer : GprsTimer) {k : Nat} (hk : k < 8) :
    byteBit ((timer.unit &&& 0x07) <<< UInt8.ofNat 5 ||| timer.value &&& 0x1f) k =
      if k < 5 then byteBit timer.value k else byteBit timer.unit (k - 5) := by
  rw [byteBit_or, byteBit_shiftLeft _ (by omega) hk, byteBit_and, byteBit_and,
    byteBit_0x1f k hk, byteBit_0x07 (k - 5) (by omega)]
  split
  · rename_i h
    simp [h, not_le.2 h]
  · rename_i h
    simp [h, not_lt.1 h]
    omega

theorem roundTimer_eq (timer : GprsTimer) :
    roundTimer timer = ⟨timer.value &&& 0x1f, timer.unit &&& 0x07⟩ := by
  unfold roundTimer
  rw [GprsTimer.mk.injEq]
  refine ⟨byte_ext fun k hk => ?_, byte_ext fun k hk => ?_⟩
  · rw [byteBit_and, byteBit_0x1f k hk, byteBit_and, byteBit_0x1f k hk]
    by_cases h : k < 5
    · rw [show (5 : UInt8) = UInt8.ofNat 5 from rfl, byteBit_timerOctet timer hk, if_pos h]
    · simp [h]
  · rw [byteBit_and, byteBit_0x07 k hk, byteBit_and, byteBit_0x07 k hk]
    by_cases h : k < 3
    · rw [show (5 : UInt8) = UInt8.ofNat 5 from rfl, byteBit_shiftRight _ (by omega),
        byteBit_timerOctet timer (by omega), if_neg (by omega), Nat.add_sub_cancel]
    · simp [h]

theorem and_mask_eq_iff (x : UInt8) (n : Nat) :
    x.toNat &&& 2 ^ n - 1 = x.toNat ↔ x.toNat < 2 ^ n := by
  rw [Nat.and_two_pow_sub_one_eq_mod]
  exact Nat.mod_eq_iff_lt (by positivity)

theorem roundTimer_eq_iff {timer : GprsTimer} : roundTimer timer = timer ↔ timer.Fits := by
  rw [roundTimer_eq, GprsTimer.mk.injEq, ← UInt8.toNat_inj, ← UInt8.toNat_inj, UInt8.toNat_and,
    UInt8.toNat_and]
  exact and_congr (and_mask_eq_iff timer.value 5) (and_mask_eq_iff timer.unit 3)

/-! ## The encoders -/

section Writes

variable {α : Type} {c : α} {buffer len : Nat}

/-- The bytes of an optional IE. -/
def optionalBytes (present : Prop) [Decidable present] (bytes : List UInt8) : List UInt8 :=
  if present then bytes else []

/-- The bytes of a timer IE. -/
def timerBytes (iei : UInt8) (timer : GprsTimer) : List UInt8 :=
  [iei, 1, (timer.unit &&& 0x07) <<< 5 ||| timer.value &&& 0x1f]

/-- The bytes of the IE with the error causes. -/
def errorBytes (cause : List PduErrorCause) : List UInt8 :=
  [ieiPduSessionReactResultErrorCause] ++
    (htons (BitVec.ofNat 16 (cause.length * 2)) ++ causeBytes cause)

theorem length_causeBytes (cause : List PduErrorCause) :
    (causeBytes cause).length = cause.length * 2 := by
  simp [causeBytes, List.length_flatMap]

theorem length_errorBytes (cause : List PduErrorCause) :
    (errorBytes cause).length = 3 + cause.length * 2 := by
  simp only [errorBytes, List.length_append, length_htons, length_causeBytes, List.length_singleton]
  omega

theorem writes_encodeBytes (buffer : Nat) (bytes : List UInt8) {f : Unit → NasEncoder α}
    {rest : List UInt8} (hf : Writes (f ()) (buffer + bytes.length) rest c) :
    Writes (encodeBytes buffer bytes >>= f) buffer (bytes ++ rest) c :=
  (Writes.store NasFault.outOfBounds buffer bytes : Writes (encodeBytes buffer bytes) _ _ _).bind hf

theorem writes_encodeBytes_pure (buffer : Nat) (bytes : List UInt8) (c : α) :
    Writes (encodeBytes buffer bytes >>= fun _ => pure c) buffer bytes c := by
  have h : Writes (encodeBytes buffer bytes >>= fun _ => pure c) buffer (bytes ++ []) c :=
    writes_encodeBytes buffer bytes (.pure _ _)
  rwa [List.append_nil] at h

theorem writes_encodePduSessionIe (iei : UInt8) (psi : PsiArray) (hlen : 4 ≤ len) :
    Writes (encodePduSessionIe iei psi buffer len) buffer (psiBytes iei psi) 4 := by
  unfold encodePduSessionIe minPduSessionContentsLen
  rw [if_neg (by omega)]
  exact writes_encodeBytes_pure buffer (psiBytes iei psi) 4

theorem writes_encodeGprsTimerIe (iei : UInt8) (timer : GprsTimer) (hlen : 3 ≤ len) :
    Writes (encodeGprsTimerIe iei timer buffer len) buffer (timerBytes iei timer) 3 := by
  unfold encodeGprsTimerIe
  rw [if_neg (by omega)]
  exact writes_encodeBytes_pure buffer (timerBytes iei timer) 3

theorem writes_encodeErrorCauses {cause : List PduErrorCause} (h : cause.length ≤ 128) :
    Writes (encodeErrorCauses cause buffer) buffer (errorBytes cause)
      ((errorBytes cause).length : Int) := by
  unfold encodeErrorCauses maxNumPduErrors
  refine writes_encodeBytes _ _ ?_
  rw [if_neg (by omega), length_errorBytes, Nat.cast_add 3]
  exact writes_encodeBytes_pure _ _ _

/-- Too many bytes of causes : the IEI is written, and the encoder gives up. -/
theorem writes_encodeErrorCauses_of_gt {cause : List PduErrorCause} (h : 128 < cause.length) :
    Writes (encodeErrorCauses cause buffer) buffer [ieiPduSessionReactResultErrorCause] (-1) := by
  unfold encodeErrorCauses maxNumPduErrors
  rw [← List.append_nil [ieiPduSessionReactResultErrorCause]]
  refine writes_encodeBytes _ _ ?_
  rw [if_pos (by omega)]
  exact .pure _ _

/-- An IE that is encoded, or not there. -/
theorem writes_encodeNasIe (buffer : Nat) {p : Prop} [Decidable p] {ie : NasEncoder Int}
    {rest : Int → NasEncoder Int} {c : Int} {bytes ys : List UInt8}
    (h : p → Writes ie buffer bytes (bytes.length : Int))
    (hrest : Writes (rest ((buffer + (optionalBytes p bytes).length : Nat) : Int))
      (buffer + (optionalBytes p bytes).length) ys c) :
    Writes (encodeNasIe p ie buffer rest) buffer (optionalBytes p bytes ++ ys) c := by
  have hie : Writes (encodeIf p ie) buffer (optionalBytes p bytes)
      ((optionalBytes p bytes).length : Int) := by
    unfold encodeIf optionalBytes
    split_ifs with hp
    · exact h hp
    · exact .pure _ _
  refine hie.bind ?_
  rw [if_neg (by omega), ← Nat.cast_add]
  exact hrest

/-- An IE that fails. -/
theorem writes_encodeNasIe_of_neg {p : Prop} [Decidable p] {ie : NasEncoder Int} {encoded : Int}
    {bytes : List UInt8} {rest : Int → NasEncoder Int} (hp : p) (h : Writes ie buffer bytes (-1)) :
    Writes (encodeNasIe p ie encoded rest) buffer bytes (-1) := by
  unfold encodeNasIe
  rw [encodeIf_pos hp, ← List.append_nil bytes]
  refine h.bind ?_
  rw [if_pos (by decide)]
  exact .pure _ _

/-- The bytes of an optional timer. -/
def optionalTimerBytes (iei : UInt8) : Option GprsTimer → List UInt8
  | none => []
  | some timer => timerBytes iei timer

theorem writes_encodeTimer (iei : UInt8) (timer : Option GprsTimer) {rest : Int → NasEncoder Int}
    {c : Int} {ys : List UInt8} (hlen : buffer + (optionalTimerBytes iei timer).length ≤ len)
    (hrest : Writes (rest ((buffer + (optionalTimerBytes iei timer).length : Nat) : Int))
      (buffer + (optionalTimerBytes iei timer).length) ys c) :
    Writes (encodeTimer iei timer buffer len rest) buffer
      (optionalTimerBytes iei timer ++ ys) c := by
  cases timer with
  | none => exact hrest
  | some timer =>
    have hie : Writes
        (encodeGprsTimerIe iei timer (buffer : Int).toNat (len - (buffer : Int).toNat))
        buffer (timerBytes iei timer) 3 := by
      change buffer + 3 ≤ len at hlen
      rw [Int.toNat_natCast]
      exact writes_encodeGprsTimerIe iei timer (by omega)
    exact writes_encodeNasIe _ (fun _ => hie) hrest

/-- The timer that comes last. -/
theorem writes_encodeTimer_last (iei : UInt8) (timer : Option GprsTimer)
    (hlen : buffer + (optionalTimerBytes iei timer).length ≤ len) :
    Writes (encodeTimer iei timer buffer len fun encoded => return encoded) buffer
      (optionalTimerBytes iei timer)
      ((buffer + (optionalTimerBytes iei timer).length : Nat) : Int) := by
  rw [← List.append_nil (optionalTimerBytes iei timer)]
  refine writes_encodeTimer iei timer hlen ?_
  rw [List.append_nil]
  exact .pure _ _

/-- The bytes of a Service Accept. -/
def serviceAcceptBytes (msg : FgsServiceAcceptMsg) : List UInt8 :=
  optionalBytes msg.hasPsiStatus (psiBytes ieiPduSessionStatus msg.psiStatus) ++
    (optionalBytes msg.hasPsiRes (psiBytes ieiPduSessionReactResult msg.psiRes) ++
      (optionalBytes (msg.cause ≠ []) (errorBytes msg.cause) ++
        optionalTimerBytes ieiT3448Value msg.t3448))

theorem length_optionalPsiBytes {p : Prop} [Decidable p] (hp : p) (iei : UInt8) (psi : PsiArray) :
    (optionalBytes p (psiBytes iei psi)).length = 4 := by
  rw [optionalBytes, if_pos hp]
  rfl

theorem writes_encodeFgsServiceAccept {msg : FgsServiceAcceptMsg} (hcause : msg.cause.length ≤ 128)
    (hlen : (serviceAcceptBytes msg).length ≤ len) (hpos : 1 ≤ len) :
    Writes (encodeFgsServiceAccept msg len) 0 (serviceAcceptBytes msg)
      ((serviceAcceptBytes msg).length : Int) := by
  unfold encodeFgsServiceAccept serviceAcceptBytes at *
  simp only [List.length_append] at hlen ⊢
  rw [if_neg (by omega)]
  have hstatus (hp : msg.hasPsiStatus) :=
    length_optionalPsiBytes hp ieiPduSessionStatus msg.psiStatus
  have hres (hp : msg.hasPsiRes) := length_optionalPsiBytes hp ieiPduSessionReactResult msg.psiRes
  refine writes_encodeNasIe 0 (fun hp => writes_encodePduSessionIe _ _ ?_) ?_
  · have := hstatus hp
    omega
  refine writes_encodeNasIe _ (fun hp => ?_) ?_
  · rw [Int.toNat_natCast, Nat.zero_add]
    refine writes_encodePduSessionIe _ _ ?_
    have := hres hp
    omega
  refine writes_encodeNasIe _ (fun _ => ?_) ?_
  · rw [Int.toNat_natCast]
    exact writes_encodeErrorCauses hcause
  have hsum (a b c d : Nat) : a + (b + (c + d)) = 0 + a + b + c + d := by omega
  rw [hsum]
  exact writes_encodeTimer_last _ _ (by omega)

/-- With too many causes the encoder gives up behind the PSI bitmaps. -/
theorem writes_encodeFgsServiceAccept_of_gt {msg : FgsServiceAcceptMsg}
    (hcause : 128 < msg.cause.length) (hlen : (serviceAcceptBytes msg).length ≤ len)
    (hpos : 1 ≤ len) :
    ∃ xs, xs.length ≤ (serviceAcceptBytes msg).length ∧
      Writes (encodeFgsServiceAccept msg len) 0 xs (-1) := by
  have hne : msg.cause ≠ [] := List.ne_nil_of_length_pos (by omega)
  unfold encodeFgsServiceAccept serviceAcceptBytes at *
  simp only [List.length_append] at hlen ⊢
  have herror : (optionalBytes (msg.cause ≠ []) (errorBytes msg.cause)).length =
      3 + msg.cause.length * 2 := by
    rw [optionalBytes, if_pos hne, length_errorBytes]
  have hstatus (hp : msg.hasPsiStatus) :=
    length_optionalPsiBytes hp ieiPduSessionStatus msg.psiStatus
  have hres (hp : msg.hasPsiRes) := length_optionalPsiBytes hp ieiPduSessionReactResult msg.psiRes
  refine ⟨optionalBytes msg.hasPsiStatus (psiBytes ieiPduSessionStatus msg.psiStatus) ++
    (optionalBytes msg.hasPsiRes (psiBytes ieiPduSessionReactResult msg.psiRes) ++
      [ieiPduSessionReactResultErrorCause]), ?_, ?_⟩
  · simp only [List.length_append, List.length_singleton]
    omega
  rw [if_neg (by omega)]
  refine writes_encodeNasIe 0 (fun hp => writes_encodePduSessionIe _ _ ?_) ?_
  · have := hstatus hp
    omega
  refine writes_encodeNasIe _ (fun hp => ?_) ?_
  · rw [Int.toNat_natCast, Nat.zero_add]
    refine writes_encodePduSessionIe _ _ ?_
    have := hres hp
    omega
  refine writes_encodeNasIe_of_neg hne ?_
  rw [Int.toNat_natCast]
  exact writes_encodeErrorCauses_of_gt hcause

/-- The bytes of a Service Reject. -/
def serviceRejectBytes (msg : FgsServiceRejectMsg) : List UInt8 :=
  [msg.cause] ++ (optionalBytes msg.hasPsiStatus (psiBytes ieiPduSessionStatus msg.psiStatus) ++
    (optionalTimerBytes ieiT3446Value msg.t3446 ++ optionalTimerBytes ieiT3448Value msg.t3448))

theorem writes_encodeFgsServiceReject {msg : FgsServiceRejectMsg}
    (hlen : (serviceRejectBytes msg).length ≤ len) :
    Writes (encodeFgsServiceReject msg len) 0 (serviceRejectBytes msg)
      ((serviceRejectBytes msg).length : Int) := by
  unfold encodeFgsServiceReject serviceRejectBytes at *
  simp only [List.length_append, List.length_singleton] at hlen ⊢
  rw [if_neg (by omega)]
  have hstatus (hp : msg.hasPsiStatus) :=
    length_optionalPsiBytes hp ieiPduSessionStatus msg.psiStatus
  refine writes_encodeBytes 0 [msg.cause] ?_
  refine writes_encodeNasIe 1 (fun hp => writes_encodePduSessionIe _ _ ?_) ?_
  · have := hstatus hp
    omega
  refine writes_encodeTimer _ _ (by omega) ?_
  have hsum (a b c d : Nat) : a + (b + (c + d)) = a + b + c + d := by omega
  rw [hsum]
  exact writes_encodeTimer_last _ _ (by omega)

end Writes

/-! ## The decoders -/

theorem readLength_htons (v : BitVec 16) (rest : List UInt8) :
    readLength (htons v ++ rest) = .ok v.toNat := by
  have hv := v.isLt
  have hbytes : (v.extractLsb' 8 8).toNat * 256 + (v.extractLsb' 0 8).toNat = v.toNat := by
    rw [BitVec.extractLsb'_toNat, BitVec.extractLsb'_toNat, Nat.shiftRight_eq_div_pow]
    omega
  exact congrArg Except.ok hbytes

/-- The IE is read back if another byte follows it. -/
theorem decodePduSessionIe_psiBytes (old psi : PsiArray) {rest : List UInt8} (hrest : rest ≠ []) :
    decodePduSessionIe old (2 :: psiOctet psi [1, 2, 3, 4, 5, 6, 7] ::
      psiOctet psi [8, 9, 10, 11, 12, 13, 14, 15] :: rest) = .ok (3, roundPsi old psi) := by
  have hlen := List.length_pos_iff.2 hrest
  unfold decodePduSessionIe minPduSessionContentsLen
  rw [if_neg (by simp only [List.length_cons]; omega)]
  rfl

theorem decodePduSessionIe_last (old : PsiArray) (a b c : UInt8) :
    decodePduSessionIe old [a, b, c] = .ok (-1, old) :=
  rfl

/-- `eq_gprs_timer` accepts what a timer reads back as exactly if nothing was cut off. -/
theorem eqGprsTimer_round (timer : Option GprsTimer) :
    eqGprsTimer timer (timer.map roundTimer) = true ↔ ∀ t, timer = some t → t.Fits := by
  cases timer with
  | none => exact iff_of_true rfl nofun
  | some timer =>
    have heq : eqGprsTimer (some timer) (some (roundTimer timer)) = true ↔
        roundTimer timer = timer := by
      unfold eqGprsTimer
      rw [decide_eq_true_iff]
      constructor
      · intro ⟨hvalue, hunit⟩
        cases timer
        exact congrArg₂ GprsTimer.mk hvalue.symm hunit.symm
      · intro h
        rw [h]
        exact ⟨rfl, rfl⟩
    rw [Option.map_some, heq, roundTimer_eq_iff]
    exact ⟨fun h t ht => Option.some.inj ht ▸ h, fun h => h timer rfl⟩

/-- The same for an optional bitmap. -/
theorem eqPsi_round (has : Bool) (psi old : PsiArray)
    (hold : has → old = roundPsi (.replicate 16 0) psi) :
    (!has || psi == old) = true ↔ (has = true → IsBitmap psi) := by
  cases has with
  | false => simp
  | true =>
    rw [hold rfl]
    simp only [Bool.not_true, Bool.false_or, beq_iff_eq, forall_const]
    rw [eq_comm]
    exact roundPsi_eq_iff

namespace FgsServiceAcceptMsg

variable {msg : FgsServiceAcceptMsg} {decoded : Nat} {rest : List UInt8}

/-- The message after an optional PDU Session Status. -/
def withStatus (msg : FgsServiceAcceptMsg) (has : Bool) (psi : PsiArray) : FgsServiceAcceptMsg :=
  if has then { msg with hasPsiStatus := true, psiStatus := roundPsi msg.psiStatus psi } else msg

/-- The message after an optional PDU Session Reactivation Result. -/
def withRes (msg : FgsServiceAcceptMsg) (has : Bool) (psi : PsiArray) : FgsServiceAcceptMsg :=
  if has then { msg with hasPsiRes := true, psiRes := roundPsi msg.psiRes psi } else msg

/-- The message after an optional timer. -/
def withTimer (msg : FgsServiceAcceptMsg) (t3448 : Option GprsTimer) : FgsServiceAcceptMsg :=
  match t3448 with
  | none => msg
  | some timer => { msg with t3448 := some (roundTimer timer) }

theorem decode_status (has : Bool) (psi : PsiArray) (hrest : rest ≠ []) :
    decodeServiceAcceptIes msg decoded
        (optionalBytes has (psiBytes ieiPduSessionStatus psi) ++ rest) =
      decodeServiceAcceptIes (msg.withStatus has psi)
        (decoded + (optionalBytes has (psiBytes ieiPduSessionStatus psi)).length) rest := by
  cases has with
  | false => rfl
  | true =>
    change decodeServiceAcceptIes msg decoded (ieiPduSessionStatus :: 2 :: _ :: _ :: rest) = _
    rw [decodeServiceAcceptIes, if_pos rfl, decodePduSessionIe_psiBytes _ _ hrest]
    rfl

theorem decode_res (has : Bool) (psi : PsiArray) (hrest : rest ≠ []) :
    decodeServiceAcceptIes msg decoded
        (optionalBytes has (psiBytes ieiPduSessionReactResult psi) ++ rest) =
      decodeServiceAcceptIes (msg.withRes has psi)
        (decoded + (optionalBytes has (psiBytes ieiPduSessionReactResult psi)).length) rest := by
  cases has with
  | false => rfl
  | true =>
    change decodeServiceAcceptIes msg decoded (ieiPduSessionReactResult :: 2 :: _ :: _ :: rest) = _
    rw [decodeServiceAcceptIes, if_neg (by decide), if_pos rfl,
      decodePduSessionIe_psiBytes _ _ hrest]
    rfl

theorem decode_timer (t3448 : Option GprsTimer) :
    decodeServiceAcceptIes msg decoded (optionalTimerBytes ieiT3448Value t3448) =
      .ok (((decoded + (optionalTimerBytes ieiT3448Value t3448).length : Nat) : Int),
        msg.withTimer t3448) := by
  cases t3448 with
  | none => rw [optionalTimerBytes, decodeServiceAcceptIes]; rfl
  | some timer =>
    change decodeServiceAcceptIes msg decoded [ieiT3448Value, 1, _] = _
    rw [decodeServiceAcceptIes, if_neg (by decide), if_neg (by decide), if_neg (by decide),
      if_pos rfl]
    change decodeServiceAcceptIes _ _ [] = _
    rw [decodeServiceAcceptIes]
    rfl

/-- The message with further causes. -/
def withCauses (msg : FgsServiceAcceptMsg) (cause : List PduErrorCause)
    (h : (msg.cause ++ cause).length ≤ maxNumPduErrors) : FgsServiceAcceptMsg :=
  { msg with
    cause := msg.cause ++ cause
    cause_length := h }

theorem decodeErrorCauses_causeBytes : ∀ (cause : List PduErrorCause) (msg : FgsServiceAcceptMsg)
    (h : (msg.cause ++ cause).length ≤ maxNumPduErrors),
    decodeErrorCauses msg cause.length (causeBytes cause ++ rest) = .ok (msg.withCauses cause h)
  | [], msg, h => by
    change Except.ok msg = _
    simp only [withCauses, List.append_nil]
  | c :: cause, msg, h => by
    have hlt : msg.cause.length < maxNumPduErrors := by
      rw [List.length_append, List.length_cons] at h
      omega
    have hsplit : msg.cause ++ c :: cause = (msg.cause ++ [c]) ++ cause := by simp
    change Except.bind (msg.addCause ⟨c.pduSessionId, c.cause⟩)
      (fun msg => decodeErrorCauses msg cause.length (causeBytes cause ++ rest)) = _
    unfold addCause
    rw [dif_pos hlt]
    refine (decodeErrorCauses_causeBytes cause _ (hsplit ▸ h)).trans ?_
    simp only [withCauses, hsplit]

theorem decode_errors {cause : List PduErrorCause} (hcause : cause.length ≤ 128)
    (h : (msg.cause ++ cause).length ≤ maxNumPduErrors) :
    decodeServiceAcceptIes msg decoded (errorBytes cause ++ rest) =
      decodeServiceAcceptIes (msg.withCauses cause h)
        (decoded + (errorBytes cause).length) rest := by
  have hlen : (BitVec.ofNat 16 (cause.length * 2)).toNat = cause.length * 2 := by
    rw [BitVec.toNat_ofNat]
    omega
  have hn : (cause.length * 2 + 1) / 2 = cause.length := by omega
  unfold errorBytes
  rw [List.append_assoc, List.singleton_append, List.append_assoc, decodeServiceAcceptIes,
    if_neg (by decide), if_neg (by decide), if_pos rfl, readLength_htons, hlen]
  change (if cause.length * 2 > maxNumPduErrors * 2 then _ else _) = _
  have hdrop : (htons (BitVec.ofNat 16 (cause.length * 2)) ++ (causeBytes cause ++ rest)).drop
      (2 + 2 * cause.length) = rest := by
    rw [← List.append_assoc]
    refine List.drop_left' ?_
    rw [List.length_append, length_htons, length_causeBytes]
    omega
  rw [if_neg (by unfold maxNumPduErrors; omega)]
  simp only [hn, hdrop]
  change Except.bind (decodeErrorCauses msg cause.length (causeBytes cause ++ rest)) _ = _
  rw [decodeErrorCauses_causeBytes cause msg h]
  change decodeServiceAcceptIes _ _ rest = _
  congr 1
  rw [List.length_append, List.length_append, length_htons, length_causeBytes,
    List.length_singleton]
  omega

theorem decode_optionalErrors {cause : List PduErrorCause} (hcause : cause.length ≤ 128)
    (h : (msg.cause ++ cause).length ≤ maxNumPduErrors) :
    decodeServiceAcceptIes msg decoded (optionalBytes (cause ≠ []) (errorBytes cause) ++ rest) =
      decodeServiceAcceptIes (msg.withCauses cause h)
        (decoded + (optionalBytes (cause ≠ []) (errorBytes cause)).length) rest := by
  unfold optionalBytes
  split_ifs with hne
  · exact decode_errors hcause h
  · obtain rfl := not_not.1 hne
    have hsame : msg.withCauses [] h = msg := by simp only [withCauses, List.append_nil]
    rw [hsame]
    rfl

/-- What a Service Accept reads back as. -/
def readBack (msg : FgsServiceAcceptMsg) : FgsServiceAcceptMsg where
  psiStatus := (zero.withStatus msg.hasPsiStatus msg.psiStatus).psiStatus
  hasPsiStatus := msg.hasPsiStatus
  psiRes := (zero.withRes msg.hasPsiRes msg.psiRes).psiRes
  hasPsiRes := msg.hasPsiRes
  cause := msg.cause
  cause_length := msg.cause_length
  t3448 := msg.t3448.map roundTimer

theorem decode_bytes (msg : FgsServiceAcceptMsg) (hcause : msg.cause.length ≤ 128)
    (hlast : msg.cause ≠ [] ∨ msg.t3448.isSome) :
    decodeFgsServiceAccept zero (serviceAcceptBytes msg) =
      .ok (((serviceAcceptBytes msg).length : Int), msg.readBack) := by
  have hrest : optionalBytes (msg.cause ≠ []) (errorBytes msg.cause) ++
      optionalTimerBytes ieiT3448Value msg.t3448 ≠ [] := by
    rcases hlast with hne | hsome
    · rw [optionalBytes, if_pos hne]
      exact List.cons_ne_nil _ _
    · obtain ⟨timer, ht⟩ := Option.isSome_iff_exists.1 hsome
      rw [ht]
      exact List.append_ne_nil_of_right_ne_nil _ (List.cons_ne_nil _ _)
  have hrest' := List.append_ne_nil_of_right_ne_nil
    (optionalBytes msg.hasPsiRes (psiBytes ieiPduSessionReactResult msg.psiRes)) hrest
  have hbytes : serviceAcceptBytes msg ≠ [] := List.append_ne_nil_of_right_ne_nil _ hrest'
  have hlen := List.length_pos_iff.2 hbytes
  unfold decodeFgsServiceAccept
  rw [if_neg (by omega)]
  unfold serviceAcceptBytes
  have hcauses : (((zero.withStatus msg.hasPsiStatus msg.psiStatus).withRes msg.hasPsiRes
      msg.psiRes).cause ++ msg.cause).length ≤ maxNumPduErrors := by
    have hnil : ((zero.withStatus msg.hasPsiStatus msg.psiStatus).withRes msg.hasPsiRes
      msg.psiRes).cause = [] := by
      cases msg.hasPsiStatus <;> cases msg.hasPsiRes <;> rfl
    rw [hnil]
    exact msg.cause_length
  change decodeServiceAcceptIes zero 0 _ = _
  rw [decode_status _ _ hrest', decode_res _ _ hrest, decode_optionalErrors hcause hcauses,
    decode_timer]
  have hmsg : ((((zero.withStatus msg.hasPsiStatus msg.psiStatus).withRes msg.hasPsiRes
      msg.psiRes).withCauses msg.cause hcauses).withTimer msg.t3448) = msg.readBack := by
    obtain ⟨psiStatus, hasPsiStatus, psiRes, hasPsiRes, cause, cause_length, t3448⟩ := msg
    cases hasPsiStatus <;> cases hasPsiRes <;> cases t3448 <;> rfl
  rw [hmsg]
  simp only [List.length_append, Nat.zero_add, Nat.add_assoc]

/-- Without causes or timer a bitmap is last, or there is nothing to decode. -/
theorem decode_bytes_of_last (msg : FgsServiceAcceptMsg)
    (hlast : ¬(msg.cause ≠ [] ∨ msg.t3448.isSome)) :
    ∃ dec, decodeFgsServiceAccept zero (serviceAcceptBytes msg) = .ok (-1, dec) := by
  obtain ⟨hcause, htimer⟩ := not_or.1 hlast
  have hbytes : serviceAcceptBytes msg =
      optionalBytes msg.hasPsiStatus (psiBytes ieiPduSessionStatus msg.psiStatus) ++
        optionalBytes msg.hasPsiRes (psiBytes ieiPduSessionReactResult msg.psiRes) := by
    have ht : msg.t3448 = none := by simpa using htimer
    unfold serviceAcceptBytes
    rw [ht]
    simp [optionalBytes, hcause, optionalTimerBytes]
  rw [hbytes]
  cases msg.hasPsiRes with
  | true =>
    have hne : psiBytes ieiPduSessionReactResult msg.psiRes ≠ [] := List.cons_ne_nil _ _
    have hpos := List.length_pos_iff.2 (List.append_ne_nil_of_right_ne_nil
      (optionalBytes msg.hasPsiStatus (psiBytes ieiPduSessionStatus msg.psiStatus)) hne)
    unfold decodeFgsServiceAccept
    change ∃ dec, (if (_ ++ psiBytes ieiPduSessionReactResult msg.psiRes).length < 1 then _
      else _) = _
    rw [if_neg (by omega)]
    change ∃ dec, decodeServiceAcceptIes zero 0 (_ ++ psiBytes ieiPduSessionReactResult _) = _
    rw [decode_status _ _ hne]
    change ∃ dec, decodeServiceAcceptIes _ _ [ieiPduSessionReactResult, 2, _, _] = _
    rw [decodeServiceAcceptIes, if_neg (by decide), if_pos rfl, decodePduSessionIe_last]
    exact ⟨_, rfl⟩
  | false =>
    change ∃ dec, decodeFgsServiceAccept zero (_ ++ []) = _
    rw [List.append_nil]
    cases msg.hasPsiStatus with
    | true =>
      change ∃ dec, decodeServiceAcceptIes zero 0 [ieiPduSessionStatus, 2, _, _] = _
      rw [decodeServiceAcceptIes, if_pos rfl, decodePduSessionIe_last]
      exact ⟨_, rfl⟩
    | false => exact ⟨_, rfl⟩

theorem eq_readBack_iff (msg : FgsServiceAcceptMsg) : eqServiceAccept msg msg.readBack = true ↔
    (msg.hasPsiStatus → IsBitmap msg.psiStatus) ∧ (msg.hasPsiRes → IsBitmap msg.psiRes) ∧
      ∀ t, msg.t3448 = some t → t.Fits := by
  have hstatus := eqPsi_round msg.hasPsiStatus msg.psiStatus msg.readBack.psiStatus fun h => by
    unfold readBack withStatus
    rw [if_pos h]
    rfl
  have hres := eqPsi_round msg.hasPsiRes msg.psiRes msg.readBack.psiRes fun h => by
    unfold readBack withRes
    rw [if_pos h]
    rfl
  unfold eqServiceAccept
  simp only [Bool.and_eq_true, hstatus, hres]
  have htimer : eqGprsTimer msg.t3448 msg.readBack.t3448 = true ↔ _ := eqGprsTimer_round msg.t3448
  rw [htimer]
  constructor
  · rintro ⟨⟨⟨⟨⟨-, hs⟩, -⟩, hr⟩, -⟩, ht⟩
    exact ⟨hs, hr, ht⟩
  · rintro ⟨hs, hr, ht⟩
    exact ⟨⟨⟨⟨⟨by simp [readBack], hs⟩, by simp [readBack]⟩, hr⟩, by simp [readBack]⟩, ht⟩

end FgsServiceAcceptMsg

namespace FgsServiceRejectMsg

variable {msg : FgsServiceRejectMsg} {decoded : Nat} {rest : List UInt8}

/-- The message after an optional PDU Session Status. -/
def withStatus (msg : FgsServiceRejectMsg) (has : Bool) (psi : PsiArray) : FgsServiceRejectMsg :=
  if has then { msg with hasPsiStatus := true, psiStatus := roundPsi msg.psiStatus psi } else msg

/-- The message after an optional T3446. -/
def withT3446 (msg : FgsServiceRejectMsg) (t3446 : Option GprsTimer) : FgsServiceRejectMsg :=
  match t3446 with
  | none => msg
  | some timer => { msg with t3446 := some (roundTimer timer) }

/-- The message after an optional T3448. -/
def withT3448 (msg : FgsServiceRejectMsg) (t3448 : Option GprsTimer) : FgsServiceRejectMsg :=
  match t3448 with
  | none => msg
  | some timer => { msg with t3448 := some (roundTimer timer) }

theorem decode_status (has : Bool) (psi : PsiArray) (hrest : rest ≠ []) :
    decodeServiceRejectIes msg decoded
        (optionalBytes has (psiBytes ieiPduSessionStatus psi) ++ rest) =
      decodeServiceRejectIes (msg.withStatus has psi)
        (decoded + (optionalBytes has (psiBytes ieiPduSessionStatus psi)).length) rest := by
  cases has with
  | false => rfl
  | true =>
    change decodeServiceRejectIes msg decoded (ieiPduSessionStatus :: 2 :: _ :: _ :: rest) = _
    rw [decodeServiceRejectIes, if_pos rfl, decodePduSessionIe_psiBytes _ _ hrest]
    rfl

theorem decode_t3446 (t3446 : Option GprsTimer) :
    decodeServiceRejectIes msg decoded (optionalTimerBytes ieiT3446Value t3446 ++ rest) =
      decodeServiceRejectIes (msg.withT3446 t3446)
        (decoded + (optionalTimerBytes ieiT3446Value t3446).length) rest := by
  cases t3446 with
  | none => rfl
  | some timer =>
    change decodeServiceRejectIes msg decoded (ieiT3446Value :: 1 :: _ :: rest) = _
    rw [decodeServiceRejectIes, if_neg (by decide), if_neg (by decide), if_pos rfl]
    rfl

theorem decode_t3448 (t3448 : Option GprsTimer) :
    decodeServiceRejectIes msg decoded (optionalTimerBytes ieiT3448Value t3448) =
      .ok (((decoded + (optionalTimerBytes ieiT3448Value t3448).length : Nat) : Int),
        msg.withT3448 t3448) := by
  cases t3448 with
  | none => rw [optionalTimerBytes, decodeServiceRejectIes]; rfl
  | some timer =>
    change decodeServiceRejectIes msg decoded [ieiT3448Value, 1, _] = _
    rw [decodeServiceRejectIes, if_neg (by decide), if_pos rfl]
    change decodeServiceRejectIes _ _ [] = _
    rw [decodeServiceRejectIes]
    rfl

/-- What a Service Reject reads back as. -/
def readBack (msg : FgsServiceRejectMsg) : FgsServiceRejectMsg where
  cause := msg.cause
  t3446 := msg.t3446.map roundTimer
  psiStatus := (zero.withStatus msg.hasPsiStatus msg.psiStatus).psiStatus
  hasPsiStatus := msg.hasPsiStatus
  t3448 := msg.t3448.map roundTimer

theorem decode_bytes (msg : FgsServiceRejectMsg)
    (hlast : msg.hasPsiStatus → msg.t3446.isSome ∨ msg.t3448.isSome) :
    decodeFgsServiceReject zero (serviceRejectBytes msg) =
      .ok (((serviceRejectBytes msg).length : Int), msg.readBack) := by
  have hstatus : decodeServiceRejectIes { zero with cause := msg.cause } 1
      (optionalBytes msg.hasPsiStatus (psiBytes ieiPduSessionStatus msg.psiStatus) ++
        (optionalTimerBytes ieiT3446Value msg.t3446 ++
          optionalTimerBytes ieiT3448Value msg.t3448)) =
      decodeServiceRejectIes
        (FgsServiceRejectMsg.withStatus { zero with cause := msg.cause } msg.hasPsiStatus
          msg.psiStatus)
        (1 + (optionalBytes msg.hasPsiStatus (psiBytes ieiPduSessionStatus msg.psiStatus)).length)
        (optionalTimerBytes ieiT3446Value msg.t3446 ++
          optionalTimerBytes ieiT3448Value msg.t3448) := by
    cases hhas : msg.hasPsiStatus with
    | false => rfl
    | true =>
      refine decode_status true _ ?_
      rcases hlast hhas with hsome | hsome
      · obtain ⟨timer, ht⟩ := Option.isSome_iff_exists.1 hsome
        rw [ht]
        exact List.cons_ne_nil _ _
      · obtain ⟨timer, ht⟩ := Option.isSome_iff_exists.1 hsome
        rw [ht]
        exact List.append_ne_nil_of_right_ne_nil _ (List.cons_ne_nil _ _)
  refine (hstatus : decodeFgsServiceReject zero (serviceRejectBytes msg) = _).trans ?_
  rw [decode_t3446, decode_t3448]
  have hmsg : ((FgsServiceRejectMsg.withStatus { zero with cause := msg.cause } msg.hasPsiStatus
      msg.psiStatus).withT3446 msg.t3446).withT3448 msg.t3448 = msg.readBack := by
    obtain ⟨cause, t3446, psiStatus, hasPsiStatus, t3448⟩ := msg
    cases hasPsiStatus <;> cases t3446 <;> cases t3448 <;> rfl
  rw [hmsg]
  simp only [serviceRejectBytes, List.length_append, List.length_singleton, Nat.add_assoc]

/-- Without a timer the bitmap is last. -/
theorem decode_bytes_of_last (msg : FgsServiceRejectMsg)
    (hlast : ¬(msg.hasPsiStatus → msg.t3446.isSome ∨ msg.t3448.isSome)) :
    ∃ dec, decodeFgsServiceReject zero (serviceRejectBytes msg) = .ok (-1, dec) := by
  obtain ⟨hhas, htimers⟩ := Classical.not_imp.1 hlast
  obtain ⟨h3446, h3448⟩ := not_or.1 htimers
  have h3446' : msg.t3446 = none := by simpa using h3446
  have h3448' : msg.t3448 = none := by simpa using h3448
  have hbytes : serviceRejectBytes msg = msg.cause :: ieiPduSessionStatus :: 2 ::
      psiOctet msg.psiStatus [1, 2, 3, 4, 5, 6, 7] ::
      [psiOctet msg.psiStatus [8, 9, 10, 11, 12, 13, 14, 15]] := by
    unfold serviceRejectBytes optionalBytes
    rw [if_pos hhas, h3446', h3448']
    rfl
  rw [hbytes]
  change ∃ dec, decodeServiceRejectIes _ 1 _ = _
  rw [decodeServiceRejectIes, if_pos rfl, decodePduSessionIe_last]
  exact ⟨_, rfl⟩

theorem eq_readBack_iff (msg : FgsServiceRejectMsg) : eqServiceReject msg msg.readBack = true ↔
    (msg.hasPsiStatus → IsBitmap msg.psiStatus) ∧ (∀ t, msg.t3446 = some t → t.Fits) ∧
      ∀ t, msg.t3448 = some t → t.Fits := by
  have hstatus := eqPsi_round msg.hasPsiStatus msg.psiStatus msg.readBack.psiStatus fun h => by
    unfold readBack withStatus
    rw [if_pos h]
    rfl
  have h3446 : eqGprsTimer msg.t3446 msg.readBack.t3446 = true ↔ _ := eqGprsTimer_round msg.t3446
  have h3448 : eqGprsTimer msg.t3448 msg.readBack.t3448 = true ↔ _ := eqGprsTimer_round msg.t3448
  unfold eqServiceReject
  simp only [Bool.and_eq_true, hstatus, h3446, h3448]
  constructor
  · rintro ⟨⟨⟨-, hs⟩, h48⟩, h46⟩
    exact ⟨hs, h46, h48⟩
  · rintro ⟨hs, h46, h48⟩
    exact ⟨⟨⟨⟨by simp [readBack], by simp [readBack]⟩, hs⟩, h48⟩, h46⟩

end FgsServiceRejectMsg

/-! ## The round trips -/

/-- Encoding `msg` into `b` and decoding what was written gives an equal message and consumes what
was written. -/
def ServiceAcceptRoundTrip (msg : FgsServiceAcceptMsg) (b : List UInt8) : Prop :=
  ∃ (n : Nat) (b' : List UInt8) (dec : FgsServiceAcceptMsg),
    encodeFgsServiceAccept msg b.length b = .ok ((n : Int), b') ∧
    decodeFgsServiceAccept .zero (b'.take n) = .ok ((n : Int), dec) ∧
    eqServiceAccept msg dec = true

/-- The same for a Service Reject. -/
def ServiceRejectRoundTrip (msg : FgsServiceRejectMsg) (b : List UInt8) : Prop :=
  ∃ (n : Nat) (b' : List UInt8) (dec : FgsServiceRejectMsg),
    encodeFgsServiceReject msg b.length b = .ok ((n : Int), b') ∧
    decodeFgsServiceReject .zero (b'.take n) = .ok ((n : Int), dec) ∧
    eqServiceReject msg dec = true

/-- The Service Accepts that survive : the last IE is not a bitmap, there are at most 128 causes,
and every value has its place. -/
structure FgsServiceAcceptMsg.Survives (msg : FgsServiceAcceptMsg) : Prop where
  last : msg.cause ≠ [] ∨ msg.t3448.isSome
  causes : msg.cause.length ≤ 128
  status : msg.hasPsiStatus → IsBitmap msg.psiStatus
  res : msg.hasPsiRes → IsBitmap msg.psiRes
  timer : ∀ t, msg.t3448 = some t → t.Fits

/-- The Service Rejects that survive. -/
structure FgsServiceRejectMsg.Survives (msg : FgsServiceRejectMsg) : Prop where
  last : msg.hasPsiStatus → msg.t3446.isSome ∨ msg.t3448.isSome
  status : msg.hasPsiStatus → IsBitmap msg.psiStatus
  t3446 : ∀ t, msg.t3446 = some t → t.Fits
  t3448 : ∀ t, msg.t3448 = some t → t.Fits

/-- What an encoder writes is what the decoder gets. -/
theorem round_trip_of_writes {M : Type} {m : NasEncoder Int} {bytes b : List UInt8}
    {decode : List UInt8 → Except NasFault (Int × M)} {eq : M → Bool}
    (h : Writes m 0 bytes (bytes.length : Int)) (hb : bytes.length ≤ b.length) :
    (∃ (n : Nat) (b' : List UInt8) (dec : M), m b = .ok ((n : Int), b') ∧
      decode (b'.take n) = .ok ((n : Int), dec) ∧ eq dec = true) ↔
    ∃ dec, decode bytes = .ok ((bytes.length : Int), dec) ∧ eq dec = true := by
  rw [← h.exists_take_iff hb (P := fun n bytes => ∃ dec, decode bytes = .ok ((n : Int), dec) ∧
    eq dec = true)]
  simp only [exists_and_left]

theorem serviceAccept_round_trip_iff {msg : FgsServiceAcceptMsg} {b : List UInt8}
    (hb : (serviceAcceptBytes msg).length ≤ b.length) (hpos : 1 ≤ b.length) :
    ServiceAcceptRoundTrip msg b ↔ msg.Survives := by
  by_cases hcause : msg.cause.length ≤ 128
  swap
  · obtain ⟨xs, hxs, hwrites⟩ := writes_encodeFgsServiceAccept_of_gt (not_le.1 hcause) hb hpos
    refine iff_of_false ?_ fun h => hcause h.causes
    rintro ⟨n, b', dec, hencode, -, -⟩
    rw [hwrites b (by omega)] at hencode
    simp at hencode
  refine (round_trip_of_writes (writes_encodeFgsServiceAccept hcause hb hpos) hb).trans ?_
  by_cases hlast : msg.cause ≠ [] ∨ msg.t3448.isSome
  · rw [msg.decode_bytes hcause hlast]
    constructor
    · rintro ⟨dec, hdec, heq⟩
      cases hdec
      obtain ⟨hstatus, hres, htimer⟩ := msg.eq_readBack_iff.1 heq
      exact ⟨hlast, hcause, hstatus, hres, htimer⟩
    · intro h
      exact ⟨_, rfl, msg.eq_readBack_iff.2 ⟨h.status, h.res, h.timer⟩⟩
  · obtain ⟨dec, hdec⟩ := msg.decode_bytes_of_last hlast
    refine iff_of_false ?_ fun h => hlast h.last
    rintro ⟨dec', hdec', -⟩
    rw [hdec] at hdec'
    simp at hdec'

theorem serviceReject_round_trip_iff {msg : FgsServiceRejectMsg} {b : List UInt8}
    (hb : (serviceRejectBytes msg).length ≤ b.length) :
    ServiceRejectRoundTrip msg b ↔ msg.Survives := by
  refine (round_trip_of_writes (writes_encodeFgsServiceReject hb) hb).trans ?_
  by_cases hlast : msg.hasPsiStatus → msg.t3446.isSome ∨ msg.t3448.isSome
  · rw [msg.decode_bytes hlast]
    constructor
    · rintro ⟨dec, hdec, heq⟩
      cases hdec
      obtain ⟨hstatus, h3446, h3448⟩ := msg.eq_readBack_iff.1 heq
      exact ⟨hlast, hstatus, h3446, h3448⟩
    · intro h
      exact ⟨_, rfl, msg.eq_readBack_iff.2 ⟨h.status, h.t3446, h.t3448⟩⟩
  · obtain ⟨dec, hdec⟩ := msg.decode_bytes_of_last hlast
    refine iff_of_false ?_ fun h => hlast h.last
    rintro ⟨dec', hdec', -⟩
    rw [hdec] at hdec'
    simp at hdec'

/-- **The round trips** : into a sufficient buffer a Service Accept and a Service Reject survive
exactly if no bitmap comes last, at most 128 causes are to be encoded and every value has its
place. -/
theorem service_round_trip_iff (accept : FgsServiceAcceptMsg) (reject : FgsServiceRejectMsg)
    (b : List UInt8) :
    ((serviceAcceptBytes accept).length ≤ b.length → 1 ≤ b.length →
      (ServiceAcceptRoundTrip accept b ↔ accept.Survives)) ∧
    ((serviceRejectBytes reject).length ≤ b.length →
      (ServiceRejectRoundTrip reject b ↔ reject.Survives)) :=
  ⟨serviceAccept_round_trip_iff, serviceReject_round_trip_iff⟩

/-- PDU session 1 is active, and nothing else is to be said. -/
def statusOnlyAccept : FgsServiceAcceptMsg :=
  { FgsServiceAcceptMsg.zero with
    hasPsiStatus := true
    psiStatus := #v[0, 1, 0, 0, 0, 0, 0, 0, 0, 0, 0, 0, 0, 0, 0, 0] }

/-- The same with a timer, and a reject with both. -/
theorem service_round_trip_timer :
    ServiceAcceptRoundTrip { statusOnlyAccept with t3448 := some ⟨16, 0⟩ } (List.replicate 64 0) ∧
    ServiceRejectRoundTrip { FgsServiceRejectMsg.zero with
      cause := 3
      t3446 := some ⟨10, 0⟩ } (List.replicate 64 0) := by
  refine ⟨((service_round_trip_iff _ .zero _).1 (by decide) (by decide)).2 ?_,
    ((service_round_trip_iff .zero _ _).2 (by decide)).2 ?_⟩
  · refine ⟨.inr rfl, by decide, fun _ => ⟨by decide, by decide⟩, nofun, ?_⟩
    intro t ht
    cases ht
    decide
  · refine ⟨nofun, nofun, ?_, nofun⟩
    intro t ht
    cases ht
    decide

/-- A Service Accept that ends with its bitmap is not read back. -/
theorem serviceAccept_status_only :
    ¬ServiceAcceptRoundTrip statusOnlyAccept (List.replicate 64 0) := by
  rw [serviceAccept_round_trip_iff (by decide) (by decide)]
  rintro ⟨hne | hsome, -, -, -, -⟩
  · exact hne rfl
  · simp [statusOnlyAccept, FgsServiceAcceptMsg.zero] at hsome

end NrStack
