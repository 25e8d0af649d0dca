import NrStack.Pdcp.Reordering

/-!
# The size of the reordering buffer

`rx_size` is meant to be the number of bytes in `rx_list`, and `rxExcess` is the
difference. Delivery, in order, at expiry of the timer or all at once, takes off the size
of each SDU, and keeps it. Storing an SDU adds the size of the PDU after its header, with
the MAC-I that is not part of the SDU : 4 bytes too many for each SDU of an SRB or of an
entity with integrity. Only the re-establishment of an SRB starts again from 0.
-/

namespace NrStack

@[simp] theorem sduBytes_nil : sduBytes [] = 0 :=
  rfl

theorem sduBytes_cons (sdu : NrPdcpSdu) (l : List NrPdcpSdu) :
    sduBytes (sdu :: l) = sdu.buffer.length + sduBytes l := by
  simp [sduBytes]

theorem sduBytes_append (l l' : List NrPdcpSdu) :
    sduBytes (l ++ l') = sduBytes l + sduBytes l' := by
  simp [sduBytes]

theorem sduBytes_perm {l l' : List NrPdcpSdu} (h : l.Perm l') : sduBytes l = sduBytes l' :=
  (h.map _).sum_eq

namespace NrPdcpEntity

variable {e e' : NrPdcpEntity} {k : PdcpCrypto} {buffer : List UInt8}

/-- What `rx_size` has more than the SDUs of the list. -/
def rxExcess (e : NrPdcpEntity) : Int :=
  e.rxSize - sduBytes e.rxList

/-- `rx_size` is the sum of the sizes of the SDUs in the list, so `0` when it is empty. -/
structure RxSizeExact (e : NrPdcpEntity) : Prop where
  rxSize_eq : e.rxSize = sduBytes e.rxList
  rxSize_empty : e.rxList = [] → e.rxSize = 0

theorem rxSizeExact_iff : e.RxSizeExact ↔ e.rxExcess = 0 := by
  unfold rxExcess
  constructor
  · intro h
    rw [h.rxSize_eq, sub_self]
  · intro h
    refine ⟨by omega, fun hnil => ?_⟩
    rw [hnil, sduBytes_nil] at h
    omega

/-- A PDU with a MAC-I passes the checks of the entity, and its SDU is stored. -/
def StoresMacI (k : PdcpCrypto) (e : NrPdcpEntity) : PdcpOp → Prop
  | .recvPdu buffer =>
    e.entitySuspended = false ∧ e.acceptsPdu k (e.setDcBit buffer) ∧
      (e.hasIntegrity ∨ e.type = .srb)
  | _ => False

instance (k : PdcpCrypto) (e : NrPdcpEntity) : (op : PdcpOp) → Decidable (StoresMacI k e op)
  | .recvPdu _ => inferInstanceAs (Decidable (_ ∧ _ ∧ _))
  | .processSdu .. | .setTime _ | .setSecurity _ | .suspend | .reestablish _ | .release =>
    inferInstanceAs (Decidable False)

/-! ## Delivery keeps the excess -/

theorem rxExcess_of_split {l : List NrPdcpSdu} (hl : l ++ e'.rxList = e.rxList)
    (hs : e'.rxSize = e.rxSize - sduBytes l) : e'.rxExcess = e.rxExcess := by
  unfold rxExcess
  rw [hs, ← hl, sduBytes_append]
  ring

@[simp] theorem rxExcess_deliverFrom (count : Nat) : (e.deliverFrom count).rxExcess = e.rxExcess :=
  rxExcess_of_split (takeInOrder_append e.rxList count) rfl

@[simp] theorem rxExcess_deliverBeforeReord : e.deliverBeforeReord.rxExcess = e.rxExcess :=
  rxExcess_of_split List.takeWhile_append_dropWhile rfl

@[simp] theorem rxExcess_deliverAllSdus : e.deliverAllSdus.rxExcess = e.rxExcess :=
  rxExcess_of_split (List.append_nil _) rfl

@[simp] theorem rxExcess_stopReordering : e.stopReordering.rxExcess = e.rxExcess := by
  unfold stopReordering
  split_ifs <;> rfl

@[simp] theorem rxExcess_startReordering : e.startReordering.rxExcess = e.rxExcess := by
  unfold startReordering
  split_ifs <;> rfl

@[simp] theorem rxExcess_deliverIfNext (count : Nat) :
    (e.deliverIfNext count).rxExcess = e.rxExcess := by
  unfold deliverIfNext
  split_ifs <;> simp

theorem rxExcess_expireReordering : e.expireReordering.rxExcess = e.rxExcess := by
  rw [expireReordering, rxExcess_startReordering, rxExcess_deliverFrom,
    rxExcess_deliverBeforeReord]
  rfl

theorem rxExcess_setTime (now : UInt64) : (e.setTime now).rxExcess = e.rxExcess := by
  unfold setTime checkTReordering
  split_ifs
  · rfl
  · rfl
  · exact rxExcess_expireReordering

theorem rxExcess_flushReordering : e.flushReordering.rxExcess = e.rxExcess := by
  unfold flushReordering
  split_ifs
  · exact rxExcess_deliverAllSdus
  · rfl

/-! ## Reception -/

/-- A stored SDU adds the size of its MAC-I. -/
theorem rxExcess_storeSdu (sdu : NrPdcpSdu) :
    (e.storeSdu sdu).rxExcess = e.rxExcess + e.integritySize := by
  have hbytes : sduBytes (nrPdcpSduListAdd e.rxList sdu) =
      sdu.buffer.length + sduBytes e.rxList := by
    rw [nrPdcpSduListAdd, sduBytes_perm (insertBefore_perm _), sduBytes_cons]
  unfold rxExcess storeSdu
  rw [hbytes]
  ring

theorem rxExcess_recvPdu : (e.recvPdu k buffer).rxExcess =
    if e.entitySuspended = false ∧ e.acceptsPdu k (e.setDcBit buffer) then
      e.rxExcess + e.integritySize
    else e.rxExcess := by
  rw [recvPdu_eq]
  split_ifs
  · rw [receptionActions, rxExcess_startReordering, rxExcess_stopReordering,
      rxExcess_deliverIfNext, rxExcess_storeSdu]
  · rfl

/-- The size is right after a PDU exactly if no MAC-I has been counted. -/
theorem rxExcess_recvPdu_iff (h : e.rxExcess = 0) :
    (e.recvPdu k buffer).rxExcess = 0 ↔ ¬StoresMacI k e (.recvPdu buffer) := by
  have hsize : e.integritySize = 0 ↔ ¬(e.hasIntegrity ∨ e.type = .srb) := by
    unfold integritySize
    split_ifs with hmac
    · exact iff_of_false (by decide) (not_not.2 hmac)
    · exact iff_of_true rfl hmac
  rw [rxExcess_recvPdu, h, StoresMacI, ← and_assoc, not_and, ← hsize]
  split_ifs with hacc
  · rw [zero_add, Int.natCast_eq_zero]
    exact (imp_iff_right hacc).symm
  · exact iff_of_true rfl fun hstore => absurd hstore hacc

/-! ## The other calls -/

theorem rxExcess_setSecurity {p : NrPdcpSecurityKeysAndAlgos} (h : e.setSecurity p = some e') :
    e'.rxExcess = e.rxExcess := by
  obtain ⟨e₁, h₁, h₂⟩ := Option.bind_eq_some_iff.1 h
  have hi : e₁.rxExcess = e.rxExcess := by
    unfold setIntegrity at h₁
    split_ifs at h₁ <;> cases h₁ <;> rfl
  rw [← hi]
  unfold setCiphering at h₂
  split_ifs at h₂ <;> cases h₂ <;> rfl

theorem rxExcess_resume {p : NrPdcpSecurityKeysAndAlgos} (h : e.resume p = some e') :
    e'.rxExcess = e.rxExcess := by
  obtain ⟨e₁, h₁, rfl⟩ := Option.map_eq_some_iff.1 h
  exact (rfl : _ = e₁.rxExcess).trans (rxExcess_setSecurity h₁)

theorem rxExcess_reestablish {p : NrPdcpSecurityKeysAndAlgos} (h : e.rxExcess = 0)
    (hs : e.reestablish p = some e') : e'.rxExcess = 0 := by
  unfold reestablish at hs
  cases htype : e.type with
  | drbAm =>
    rw [htype] at hs
    exact (rxExcess_resume hs).trans h
  | drbUm =>
    rw [htype] at hs
    have hreset : e.flushReordering.resetCounters.rxExcess = e.flushReordering.rxExcess := rfl
    exact (rxExcess_resume hs).trans (hreset.trans (rxExcess_flushReordering.trans h))
  | srb =>
    rw [htype] at hs
    exact rxExcess_resume hs

theorem rxExcess_processSdu {pduMaxSize : Int} {r : NrPdcpEntity × Option (List UInt8)}
    (h : e.processSdu k buffer pduMaxSize = some r) : r.1.rxExcess = e.rxExcess := by
  unfold processSdu at h
  split_ifs at h <;> cases h <;> rfl

end NrPdcpEntity

/-! ## Runs -/

open NrPdcpEntity

/-- One call, from an exact size. -/
theorem pdcpStep_rxSizeExact_iff {k : PdcpCrypto} {e e' : NrPdcpEntity} {op : PdcpOp}
    (h : e.RxSizeExact) (hs : pdcpStep k e op = some e') :
    e'.RxSizeExact ↔ ¬StoresMacI k e op := by
  rw [rxSizeExact_iff] at h ⊢
  cases op with
  | processSdu buffer pduMaxSize =>
    obtain ⟨r, hr, rfl⟩ := Option.map_eq_some_iff.1 hs
    exact iff_of_true ((rxExcess_processSdu hr).trans h) id
  | recvPdu buffer =>
    cases hs
    exact rxExcess_recvPdu_iff h
  | setTime now =>
    cases hs
    exact iff_of_true ((rxExcess_setTime now).trans h) id
  | setSecurity parameters => exact iff_of_true ((rxExcess_setSecurity hs).trans h) id
  | suspend =>
    cases hs
    have hsuspend : e.suspend.rxExcess = e.flushReordering.rxExcess := rfl
    exact iff_of_true (hsuspend.trans (rxExcess_flushReordering.trans h)) id
  | reestablish parameters => exact iff_of_true (rxExcess_reestablish h hs) id
  | release =>
    cases hs
    exact iff_of_true (rxExcess_deliverAllSdus.trans h) id

theorem newNrPdcpEntity_rxSizeExact {c : PdcpConfig} {e : NrPdcpEntity}
    (h : newNrPdcpEntity c = some e) : e.RxSizeExact :=
  rxSizeExact_iff.2 (rxExcess_setSecurity h)

/-- The size of the buffer is exact throughout a run if and only if no step of it stores the
SDU of a PDU with a MAC-I. -/
theorem rx_size_exact_iff (k : PdcpCrypto) {c : PdcpConfig} {e : NrPdcpEntity}
    (h : newNrPdcpEntity c = some e) (ops : List PdcpOp) :
    AllStates (pdcpStep k) RxSizeExact e ops ↔
      AllSteps (pdcpStep k) (fun e op => ¬StoresMacI k e op) e ops :=
  allStates_iff_allSteps (fun _ => id) (fun _ _ _ hQ hs => (pdcpStep_rxSizeExact_iff hQ hs).2)
    (fun _ _ _ hQ hs hno => mt (pdcpStep_rxSizeExact_iff hQ hs).1 hno) ops e
    (newNrPdcpEntity_rxSizeExact h)

/-- Two SDUs, the second one first. -/
theorem rx_size_exact_plainDrb :
    AllStates (pdcpStep .null) RxSizeExact plainDrbEntity
      [.recvPdu [0x80, 1, 7], .recvPdu [0x80, 0, 7]] :=
  (rx_size_exact_iff .null newNrPdcpEntity_plainDrb _).2
    (allSteps_of_checked (by decide +kernel))

/-- An SRB has a MAC-I without integrity too. -/
def plainSrb : PdcpConfig :=
  { plainDrb with type := .srb }

/-- The first SDU of an SRB is delivered at once, and 4 bytes stay in `rx_size`. -/
theorem rx_size_drifts : ¬∀ (k : PdcpCrypto) (c : PdcpConfig) (e : NrPdcpEntity)
    (ops : List PdcpOp), newNrPdcpEntity c = some e →
      AllStates (pdcpStep k) RxSizeExact e ops := by
  intro h
  have hnew : newNrPdcpEntity plainSrb = some { plainDrbEntity with type := .srb } := by decide
  have hall := h .null plainSrb _ [.recvPdu [0, 0, 7, 0, 0, 0, 0]] hnew
  have hlast := (hall.2 _ rfl).rxSize_empty (by decide +kernel)
  exact absurd hlast (by decide +kernel)

end NrStack
