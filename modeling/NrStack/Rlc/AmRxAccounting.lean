import NrStack.Rlc.AmRxRun

/-!
# AM byte accounting at reception

`RxSizeEq` : `rx_size` is the size of the data held in the reception list. Reassembly
takes the bytes of an SDU off `rx_size`, and the segments it leaves are freed later, when
RX_Next passes them, without a change of `rx_size`. A segment that is stored after the
delivery of its SDU still holds its data at that moment : `RxAccountingOk` excludes
exactly these deliveries.
-/

namespace NrStack

/-- The bytes a stored segment holds. -/
def NrRlcPdu.held (pdu : NrRlcPdu) : Int :=
  if pdu.data.isSome then pdu.size else 0

theorem RxSegment.held_nonneg {M : Int} {pdu : NrRlcPdu} (h : RxSegment M pdu) : 0 ≤ pdu.held := by
  unfold NrRlcPdu.held
  split_ifs
  · exact h.size_nonneg
  · exact le_rfl

theorem RxSegment.held_eq_zero_iff {M : Int} {pdu : NrRlcPdu} (h : RxSegment M pdu) :
    pdu.held = 0 ↔ pdu.data = none := by
  unfold NrRlcPdu.held
  cases hdata : pdu.data with
  | none => simp
  | some data =>
    have := (h.data_length data hdata).2
    simp only [Option.isSome_some, if_true, reduceCtorEq, iff_false]
    omega

namespace NrRlcEntityAm

variable {e e' : NrRlcEntityAm} {x : Int} {pdu : NrRlcPdu}

/-- `rx_size` is the sum of the sizes of the segments that hold data. -/
def RxSizeEq (e : NrRlcEntityAm) : Prop :=
  e.rxSize = (e.rxList.map (·.held)).sum

instance (e : NrRlcEntityAm) : Decidable e.RxSizeEq :=
  inferInstanceAs (Decidable (_ = _))

/-- With an empty list nothing is held, and a PDU that fits in the buffer at all does not
find it full. -/
def RxEmptyOk (e : NrRlcEntityAm) : Prop :=
  e.rxList = [] → e.rxSize = 0 ∧ ∀ size, size ≤ e.rxMaxsize → e.rxSize + size ≤ e.rxMaxsize

theorem RxSizeEq.rxEmptyOk (h : e.RxSizeEq) : e.RxEmptyOk := by
  intro hl
  have h0 : e.rxSize = 0 := by
    rw [show e.rxSize = (e.rxList.map (·.held)).sum from h, hl]
    rfl
  exact ⟨h0, fun size hsize => by omega⟩

/-- A stored segment that the delivery of RX_Next frees : everything after RX_Next up to
its SDU has been delivered. -/
def FreedAtDelivery (e : NrRlcEntityAm) (q : NrRlcPdu) : Prop :=
  ∀ a, IsSn e.snModulus a → 0 < e.rxDist a → e.rxDist a ≤ e.rxDist q.sn → sduDelivered e.rxList a

/-- The calls that keep `rx_size` : if a PDU completes the SDU RX_Next, no segment that is
freed with it still holds data. -/
def RxAccountingOk (e : NrRlcEntityAm) : AmOp → Prop
  | .recvPdu buffer => ∀ pdu, e.receivedPdu buffer = some pdu → e.acceptsDataPdu pdu →
      pdu.sn = e.rxNext → sduFull (nrRlcPduListAdd e.snCompareRx e.rxList pdu) e.rxNext →
        ∀ q ∈ e.rxList, q.sn ≠ e.rxNext → e.FreedAtDelivery q → q.data = none
  | _ => True

/-! ## Reception actions -/

theorem rxSizeEq_storePdu (h : e.RxSizeEq) (hdata : pdu.data.isSome) :
    ((e.storePdu pdu).updateRxNextHighest x).RxSizeEq := by
  have h' : e.rxSize = (e.rxList.map (·.held)).sum := h
  have hstore : (e.storePdu pdu).RxSizeEq := by
    show e.rxSize + pdu.size = ((nrRlcPduListAdd e.snCompareRx e.rxList pdu).map (·.held)).sum
    rw [sum_nrRlcPduListAdd, h', NrRlcPdu.held, if_pos hdata, add_comm]
  unfold updateRxNextHighest
  split_ifs <;> exact hstore

theorem rxSizeEq_reassembleAndDeliver (hcore : e.RxCore) (h : e.RxSizeEq)
    (hx : sduFull e.rxList x) : (e.reassembleAndDeliver x).RxSizeEq := by
  have h' : e.rxSize = (e.rxList.map (·.held)).sum := h
  have hsegments : (segmentsOf e.rxList x).map (·.size) = (segmentsOf e.rxList x).map (·.held) := by
    refine List.map_congr_left fun p hp => ?_
    obtain ⟨hp, hsn⟩ := hcore.list.mem_segmentsOf.1 hp
    have hdata := hcore.list.data_isSome (fun hd => not_sduFull_of_sduDelivered hd hx) hp hsn
    rw [NrRlcPdu.held, if_pos hdata]
  show e.rxSize - ((segmentsOf e.rxList x).map (·.size)).sum =
    ((mapSegments dropData e.rxList x).map (·.held)).sum
  rw [sum_mapSegments (f := dropData) (fun _ => rfl), h', hsegments]

/-- What RX_Next passes : the segments with everything up to them delivered. -/
theorem RxAdvance.passes_iff {j : Int} (ha : RxAdvance e e' j) (h : e.RxCore)
    (hnot : ¬sduDelivered e'.rxList e'.rxNext) {q : NrRlcPdu} :
    e.rxDist q.sn < j ↔ ∀ a, IsSn e.snModulus a → e.rxDist a ≤ e.rxDist q.sn →
      sduDelivered e.rxList a := by
  have hj := ha.le
  have hwin := h.space.two_mul_window
  have hnh := h.rxNextHighest_le
  constructor
  · intro hlt a hsn hle
    have hdel := ha.delivered (e.rxDist a) (h.rxDist_nonneg a) (by omega)
    rwa [rxDist, base_add_dist hsn] at hdel
  · intro hall
    by_contra hge
    have hd : e.rxDist ((e.rxNext + j) % e.snModulus) = j :=
      dist_base_add ha.nonneg (by omega)
    have hseg := ha.segmentsOf_eq h e'.rxNext
    rw [ha.rxNext_eq, hd, if_pos le_rfl] at hseg
    rw [ha.rxNext_eq, sduDelivered_congr hseg] at hnot
    exact hnot (hall _ (h.space.isSn_emod _) (by omega))

/-- Delivery keeps `rx_size` unless RX_Next passes a segment that holds data. -/
theorem rxSizeEq_updateRxNext_iff (h : e.RxCore) (hs : e.RxSizeEq)
    (hhs : ¬sduDelivered e.rxList e.rxHighestStatus)
    (hx : e.rxNext = x ∨ ¬sduDelivered e.rxList e.rxNext) :
    (e.updateRxNext x).RxSizeEq ↔ (x = e.rxNext → ∀ q ∈ e.rxList,
      (∀ a, IsSn e.snModulus a → e.rxDist a ≤ e.rxDist q.sn → sduDelivered e.rxList a) →
        q.data = none) := by
  by_cases hxn : x = e.rxNext
  · obtain ⟨-, ⟨j, hj⟩, hnot, -⟩ := rxCore_updateRxNext h hhs hx
    have hsize : (e.updateRxNext x).rxSize = e.rxSize := by
      rw [updateRxNext, if_pos hxn]
    have hiff := (sum_filter_eq_iff (p := fun p : NrRlcPdu => decide (j ≤ e.rxDist p.sn))
      fun p hp => (h.list.segment p hp).held_nonneg).1
    rw [← hj.rxList_eq] at hiff
    rw [RxSizeEq, hsize, show e.rxSize = (e.rxList.map (·.held)).sum from hs, hiff]
    simp only [hxn, forall_true_left]
    refine forall_congr' fun q => forall_congr' fun hq => ?_
    rw [decide_eq_false_iff_not, not_le, hj.passes_iff h hnot,
      (h.list.segment q hq).held_eq_zero_iff]
  · refine iff_of_true ?_ fun h => absurd h hxn
    unfold updateRxNext
    rwa [if_neg hxn]

@[simp] theorem rxSizeEq_updateReassemblyTimer : e.updateReassemblyTimer.RxSizeEq ↔ e.RxSizeEq := by
  unfold updateReassemblyTimer startReassembly stopReassembly
  split_ifs <;> rfl

/-- Delivery of the SDU `x`, full with the segment `pdu` just stored. -/
theorem rxSizeEq_deliverIfFull_iff (h : e.RxInv) (hs : e.RxSizeEq) (hp : e.RxAccepted pdu)
    (he₁ : e' = (e.storePdu pdu).updateRxNextHighest pdu.sn) (hfull : sduFull e'.rxList pdu.sn) :
    (((e'.reassembleAndDeliver pdu.sn).updateRxHighestStatus pdu.sn).updateRxNext pdu.sn).RxSizeEq ↔
      (pdu.sn = e.rxNext →
        ∀ q ∈ e.rxList, q.sn ≠ e.rxNext → e.FreedAtDelivery q → q.data = none) := by
  obtain ⟨h₁, hlist₁, hnext₁, hM₁, hhs₁, -⟩ := rxCore_store h.core hp
  have hs₁ := rxSizeEq_storePdu (x := pdu.sn) hs hp.data
  rw [← he₁] at h₁ hlist₁ hnext₁ hM₁ hhs₁ hs₁
  obtain ⟨-, -, hdel₁⟩ := h.core.list.add hp.segment hp.data
    (h.core.snCompareRx_pos_iff hp.segment.sn_range)
  rw [← hlist₁] at hdel₁
  obtain ⟨h₂, hlist₂, hdel₂, -⟩ := rxCore_reassembleAndDeliver h₁ hfull
  have hs₂ := rxSizeEq_reassembleAndDeliver h₁ hs₁ hfull
  obtain ⟨h₃, hhs₃, hlist₃, hnext₃⟩ := rxCore_updateRxHighestStatus (x := pdu.sn) h₂ (by
    rw [hdel₂, hdel₁, not_or, show (e'.reassembleAndDeliver pdu.sn).rxHighestStatus =
      e.rxHighestStatus from hhs₁]
    exact or_iff_not_imp_left.2 fun hne => ⟨hne, h.settled.rxHighestStatus_undelivered⟩)
  set e₃ := (e'.reassembleAndDeliver pdu.sn).updateRxHighestStatus pdu.sn with he₃
  have hM₃ : e₃.snModulus = e.snModulus := by
    rw [he₃, updateRxHighestStatus]
    split_ifs <;> exact hM₁
  have hs₃ : e₃.RxSizeEq := by
    rw [he₃, updateRxHighestStatus]
    split_ifs <;> exact hs₂
  have hnext : e₃.rxNext = e.rxNext := hnext₃.trans hnext₁
  have hdist : ∀ a, e₃.rxDist a = e.rxDist a := fun a => by rw [rxDist, rxDist, hM₃, hnext]
  have hdel : ∀ a, sduDelivered e₃.rxList a ↔ a = pdu.sn ∨ sduDelivered e.rxList a := by
    intro a
    rw [hlist₃, hdel₂, hdel₁]
  have hx : e₃.rxNext = pdu.sn ∨ ¬sduDelivered e₃.rxList e₃.rxNext := by
    rw [hdel, not_or, hnext]
    exact or_iff_not_imp_left.2 fun hne => ⟨hne, h.settled.rxNext_undelivered⟩
  rw [rxSizeEq_updateRxNext_iff h₃ hs₃ (hlist₃ ▸ hhs₃) hx, hnext, hM₃]
  simp only [hdist, hdel]
  refine forall_congr' fun hxn => ⟨fun hall q hq hne hfreed => ?_, fun hall q hq hpass => ?_⟩
  · refine hall q ?_ fun a hsn hle => ?_
    · rw [hlist₃, hlist₂, List.mem_map]
      exact ⟨q, hlist₁ ▸ mem_insertBefore.2 (.inr hq), if_neg (hxn ▸ hne)⟩
    · rw [or_iff_not_imp_left, hxn]
      intro hane
      have hpos := mt (dist_eq_zero_iff hsn h.core.rxNext_sn).1 hane
      have hnn := h.core.rxDist_nonneg a
      exact hfreed a hsn (lt_of_le_of_ne hnn fun h0 => hpos h0.symm) hle
  · rw [hlist₃, hlist₂, List.mem_map] at hq
    obtain ⟨q, hq, rfl⟩ := hq
    split_ifs with hqx
    · rfl
    · simp only [hqx, if_false] at hpass
      rw [hlist₁] at hq
      have hq' := (mem_insertBefore.1 hq).resolve_left fun heq => hqx (heq ▸ rfl)
      refine hall q hq' (hxn ▸ hqx) fun a hsn hpos hle => ?_
      refine (hpass a hsn hle).resolve_left fun hax => ?_
      rw [hax, hxn, rxDist, dist_self] at hpos
      exact lt_irrefl 0 hpos

/-- `reception_actions` for a stored segment. -/
theorem rxSizeEq_receptionActions_iff (h : e.RxInv) (hs : e.RxSizeEq) (hp : e.RxAccepted pdu) :
    ((e.storePdu pdu).receptionActions pdu.sn).RxSizeEq ↔
      (pdu.sn = e.rxNext → sduFull (nrRlcPduListAdd e.snCompareRx e.rxList pdu) e.rxNext →
        ∀ q ∈ e.rxList, q.sn ≠ e.rxNext → e.FreedAtDelivery q → q.data = none) := by
  obtain ⟨-, hlist₁, -⟩ := rxCore_store h.core hp
  rw [receptionActions, rxSizeEq_updateReassemblyTimer, deliverIfFull, ← hlist₁]
  split_ifs with hfull
  · rw [rxSizeEq_deliverIfFull_iff h hs hp rfl hfull]
    refine forall_congr' fun hxn => ?_
    rw [← hxn]
    exact ⟨fun h _ => h, fun h => h hfull⟩
  · exact iff_of_true (rxSizeEq_storePdu hs hp.data) fun heq hfull' => absurd (heq ▸ hfull') hfull

/-! ## Runs -/

theorem RxSizeEq.congr (heq : e'.rxView = e.rxView) : e'.RxSizeEq ↔ e.RxSizeEq := by
  simp only [rxView, RxView.mk.injEq] at heq
  obtain ⟨-, -, -, -, -, -, -, -, -, h1, h2, -⟩ := heq
  rw [RxSizeEq, RxSizeEq, h1, h2]

theorem rxSizeEq_checkTReassembly : e.checkTReassembly.RxSizeEq ↔ e.RxSizeEq := by
  unfold checkTReassembly startReassembly
  split_ifs <;> rfl

theorem rxSizeEq_recvPdu_iff (h : e.RxInv) (hs : e.RxSizeEq) (buffer : List UInt8) :
    (e.recvPdu buffer).RxSizeEq ↔ e.RxAccountingOk (.recvPdu buffer) := by
  rcases e.recvPdu_cases buffer with ⟨hno, hview⟩ | ⟨pdu, p, hpdu, ha, heq⟩
  · exact iff_of_true ((RxSizeEq.congr hview).2 hs) fun pdu hpdu ha => absurd ha (hno pdu hpdu)
  · have hp := rxAccepted_of_accepts h (rxSegment_receivedPdu h.core.space.modulus_eq hpdu) ha
    rw [heq, RxSizeEq.congr (rxView_triggerStatus p), rxSizeEq_receptionActions_iff h hs hp]
    simp [RxAccountingOk, hpdu, ha]

/-- A call keeps `rx_size` exactly if it is one of those `RxAccountingOk` admits. -/
theorem rxSizeEq_step {op : AmOp} (h : e.RxInv) (hs : e.RxSizeEq) (hstep : amStep e op = some e') :
    e'.RxSizeEq ↔ e.RxAccountingOk op := by
  cases op with
  | recvSdu buffer sduId =>
    exact iff_of_true ((RxSizeEq.congr (rxView_recvSdu hstep)).2 hs) trivial
  | recvPdu buffer => exact Option.some.inj hstep ▸ rxSizeEq_recvPdu_iff h hs buffer
  | generatePdu size =>
    obtain ⟨r, hr, rfl⟩ := Option.map_eq_some_iff.1 hstep
    exact iff_of_true ((RxSizeEq.congr (rxView_generatePdu hr)).2 hs) trivial
  | setTime now =>
    obtain ⟨e₁, he₁, rfl⟩ := Option.map_eq_some_iff.1 hstep
    have hs₁ : e₁.RxSizeEq := (RxSizeEq.congr (rxView_checkTPollRetransmit he₁)).2 hs
    exact iff_of_true (rxSizeEq_checkTReassembly.2 hs₁) trivial
  | discardSdu sduId =>
    exact iff_of_true (Option.some.inj hstep ▸ (RxSizeEq.congr (rxView_discardSdu sduId)).2 hs)
      trivial
  | reestablishment => exact iff_of_true (Option.some.inj hstep ▸ rfl) trivial

/-- `rx_size` is exact throughout a run if and only if each of its calls is one of those
`RxAccountingOk` admits. -/
theorem rxSizeEq_allStates_iff (c : AmConfig) (ops : List AmOp) :
    AllStates amStep (fun e => e.RxSizeEq ∧ e.RxEmptyOk) (newNrRlcEntityAm c) ops ↔
      AllSteps amStep RxAccountingOk (newNrRlcEntityAm c) ops := by
  refine allStates_iff_allSteps (Q := fun e => e.RxInv ∧ e.RxSizeEq)
    (fun e h => ⟨h.2, h.2.rxEmptyOk⟩) (fun e op e' h hs hok => ?_)
    (fun e op e' h hs hno hP => ?_) ops _ ⟨rxInv_new c, rfl⟩
  · exact ⟨rxInv_step h.1 hs, (rxSizeEq_step h.1 h.2 hs).2 hok⟩
  · exact hno ((rxSizeEq_step h.1 h.2 hs).1 hP.1)

/-- SN 1 is delivered, then comes again with one byte more, which is stored. SN 0 frees
both : the list is empty, and the two bytes of the second segment are still counted. -/
theorem rxSizeEq_not_invariant : ¬∀ (c : AmConfig) (e : NrRlcEntityAm), AmReach c e →
    e.RxSizeEq ∧ e.RxEmptyOk := by
  intro h
  let c : AmConfig := ⟨100, 100, 45, 35, 0, -1, -1, 8, 12, .inl rfl⟩
  let e₁ := (newNrRlcEntityAm c).recvPdu [0x80, 1, 7]
  let e₂ := e₁.recvPdu [0x80, 1, 7, 8]
  have hreach : AmReach c (e₂.recvPdu [0x80, 0, 9]) :=
    .next (a := .recvPdu _) (.next (a := .recvPdu _) (.next (a := .recvPdu _) .refl trivial rfl)
      trivial rfl) trivial rfl
  have hsize : ¬(e₂.recvPdu [0x80, 0, 9]).RxSizeEq := by decide
  exact hsize (h c _ hreach).1

end NrRlcEntityAm

end NrStack
