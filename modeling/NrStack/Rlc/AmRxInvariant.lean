import NrStack.Rlc.AmReceive
import NrStack.Rlc.RxList

/-!
# The invariant of the AM receiver

`RxInv` : the five SN variables and the reception list agree at any time. All positions
are distances from RX_Next, so that the order of the variables is an order of numbers;
`dist_rebase` follows a move of RX_Next.

`reception_actions` goes through states in which only `RxCore` holds. Its blocks have one
lemma each : `rxCore_store` (the list and RX_Next_Highest), `rxCore_deliver` (delivery,
RX_Highest_Status, RX_Next), `trigger_updateReassemblyTimer` (t-Reassembly).
-/

namespace NrStack

/-! ## Freeing the head of the list -/

/-- What `freeDeliveredHead` frees : the delivered SDUs from `sn` on. -/
theorem freeDeliveredHead_spec {M : Int} (hM : 1 < M) : ∀ (n : Nat) {l : List NrRlcPdu} {sn : Int}
    {w : Int}, l.length ≤ n → RxList M sn l → 0 ≤ sn ∧ sn < M →
      (∀ p ∈ l, dist M sn p.sn < w) → 0 ≤ w → w < M →
        ∃ j : Nat, (j : Int) ≤ w ∧
          freeDeliveredHead M n l sn = (l.filter fun p => j ≤ dist M sn p.sn, (sn + j) % M) ∧
          (∀ i : Nat, i < j → sduDelivered l ((sn + i) % M)) ∧ ¬sduDelivered l ((sn + j) % M)
  | n, [], sn, w, _, _, hsn, _, hw, _ =>
    ⟨0, by simpa using hw, by cases n <;> simp [freeDeliveredHead, Int.emod_eq_of_lt hsn.1 hsn.2],
      by simp, by simp [sduDelivered]⟩
  | n + 1, l :: rest, sn, w, hn, hl, hsn, hlt, _, hwM => by
    have hmod : (sn + (0 : Nat)) % M = sn := by simpa using Int.emod_eq_of_lt hsn.1 hsn.2
    have hnn : ∀ p : NrRlcPdu, 0 ≤ dist M sn p.sn := fun p => dist_nonneg (by omega)
    by_cases hhead : l.data = none ∧ l.sn = sn
    · have hzero : ∀ p ∈ l :: rest, p.sn = sn ↔ dist M sn p.sn = 0 := fun p hp =>
        (dist_eq_zero_iff (hl.segment p hp).sn_range hsn).symm
      have hdrop : (rest.dropWhile fun p => p.sn = sn) =
          (l :: rest).filter fun p => !decide (p.sn = sn) := by
        rw [List.filter_cons_of_neg (by simp [hhead.2])]
        exact dropWhile_eq_filter (pairwise_of_le (c := 0)
          (hl.sorted.of_cons.imp RxOrder.dist_le)
          (fun p hp => by simp [hzero p (by simp [hp])]) fun p _ => hnn p)
      obtain ⟨hrest, hof⟩ := hl.filter (q := fun s => !decide (s = sn))
      rw [← hdrop] at hrest hof
      have hnext : dist M sn ((sn + 1) % M) = 1 := by
        rw [dist_succ (by rw [dist_self]; omega) (by omega), dist_self, zero_add]
      have hstep : ∀ p ∈ l :: rest, p.sn ≠ sn →
          dist M ((sn + 1) % M) p.sn = dist M sn p.sn - 1 := by
        intro p hp hne
        have := hnn p
        have := mt (hzero p hp).2 hne
        have hle : dist M sn ((sn + 1) % M) ≤ dist M sn p.sn := by omega
        rw [dist_rebase (by omega) hle, hnext]
      have hmem : ∀ p ∈ rest.dropWhile (fun p => decide (p.sn = sn)),
          p ∈ l :: rest ∧ p.sn ≠ sn := by
        intro p hp
        rw [hdrop, List.mem_filter] at hp
        simpa using hp
      have hpos : ∀ p ∈ rest.dropWhile (fun p => decide (p.sn = sn)), 1 ≤ dist M sn p.sn := by
        intro p hp
        have := hnn p
        have := mt (hzero p (hmem p hp).1).2 (hmem p hp).2
        omega
      have hw : 0 < w := lt_of_le_of_lt (hnn l) (hlt l (by simp))
      obtain ⟨j, hj, heq, hdel, hnot⟩ := freeDeliveredHead_spec hM n (w := w - 1)
        (by have := (rest.dropWhile_sublist fun p => p.sn = sn).length_le
            simp only [List.length_cons] at hn; omega)
        (hrest.rebase (by omega) fun p hp => hnext.symm ▸ hpos p hp)
        ⟨Int.emod_nonneg _ (by omega), Int.emod_lt_of_pos _ (by omega)⟩
        (fun p hp => by
          rw [hstep p (hmem p hp).1 (hmem p hp).2]
          have := hlt p (hmem p hp).1
          omega) (by omega) (by omega)
      -- the SNs skipped further on keep their segments
      have hdelivered : ∀ i : Nat, ((i : Int) + 1 < M) →
          sduDelivered (rest.dropWhile fun p => p.sn = sn) (((sn + 1) % M + i) % M) =
            sduDelivered (l :: rest) ((sn + (i + 1 : Nat)) % M) := by
        intro i hi
        rw [emod_add_one_add]
        have hne : (sn + (i + 1)) % M ≠ sn := by
          intro h
          have hd : dist M sn ((sn + (i + 1)) % M) = i + 1 := dist_base_add (by omega) hi
          rw [h, dist_self] at hd
          omega
        push_cast
        exact sduDelivered_congr (by rw [hof, if_pos (by simpa using hne)])
      refine ⟨j + 1, by push_cast; omega, ?_, fun i hi => ?_, ?_⟩
      · rw [freeDeliveredHead, if_pos hhead, heq, emod_add_one_add, hdrop, List.filter_filter]
        push_cast
        congr 1
        refine List.filter_congr fun p hp => ?_
        by_cases hpsn : p.sn = sn
        · simp [hpsn]
        · simp only [hstep p hp hpsn, hpsn, decide_false, Bool.not_false, Bool.and_true]
          exact decide_eq_decide.2 (by omega)
      · cases i with
        | zero => rw [hmod]; exact sduDelivered_iff.2 (by
            rw [segmentsOf]
            simp [hhead.1, hhead.2])
        | succ i => rw [← hdelivered i (by omega)]; exact hdel i (by omega)
      · rw [← hdelivered j (by omega)]
        exact hnot
    · have hfilter : (l :: rest).filter (fun p => decide ((0 : Nat) ≤ dist M sn p.sn)) =
          l :: rest := List.filter_eq_self.2 fun p _ => by simpa using hnn p
      refine ⟨0, by simp only [Nat.cast_zero]; omega, ?_, by simp, ?_⟩
      · rw [freeDeliveredHead, if_neg hhead, hfilter, hmod]
      · rw [hmod, sduDelivered_iff]
        rintro ⟨p, rest', hg, hp⟩
        -- a segment of `sn` is at distance 0, so the head of the list is one
        have hpm := hl.mem_segmentsOf.1 (hg ▸ List.mem_cons_self .. :
          p ∈ segmentsOf (l :: rest) sn)
        have hlsn : l.sn = sn := by
          rcases List.mem_cons.1 hpm.1 with rfl | hmem
          · exact hpm.2
          · have hle := (List.rel_of_pairwise_cons hl.sorted hmem).dist_le
            rw [hpm.2, dist_self] at hle
            exact (dist_eq_zero_iff (hl.segment l (by simp)).sn_range hsn).1
              (le_antisymm hle (hnn l))
        have hl0 : p = l := by
          simp only [segmentsOf, hlsn, ne_eq, not_true_eq_false, decide_false, Bool.false_eq_true,
            not_false_eq_true, List.dropWhile_cons_of_neg, decide_true,
            List.takeWhile_cons_of_pos, List.cons.injEq] at hg
          exact hg.1.symm
        exact hhead ⟨hl0 ▸ hp, hlsn⟩

namespace NrRlcEntityAm

variable {e : NrRlcEntityAm} {x : Int} {pdu : NrRlcPdu}

/-- How far the SN `a` is after RX_Next. -/
def rxDist (e : NrRlcEntityAm) (a : Int) : Int :=
  dist e.snModulus e.rxNext a

theorem modulusRx_eq {a : Int} (hn : IsSn e.snModulus e.rxNext) (ha : IsSn e.snModulus a) :
    e.modulusRx a = e.rxDist a := by
  obtain ⟨hn0, hnM⟩ := hn
  obtain ⟨ha0, haM⟩ := ha
  simp only [modulusRx, rxDist]
  split_ifs with h
  · rw [dist_of_lt (by omega) (by omega)]
  · rw [dist_of_le (by omega) (by omega)]

theorem snCompareRx_eq {a b : Int} (hn : IsSn e.snModulus e.rxNext) (ha : IsSn e.snModulus a)
    (hb : IsSn e.snModulus b) :
    e.snCompareRx a b = e.rxDist a - e.rxDist b := by
  rw [snCompareRx, modulusRx_eq hn ha, modulusRx_eq hn hb]

theorem snInRecvWindow_iff (hn : IsSn e.snModulus e.rxNext) (hx : IsSn e.snModulus x) :
    e.snInRecvWindow x ↔ e.rxDist x < e.windowSize := by
  rw [snInRecvWindow, modulusRx_eq hn hx]

/-! ## The invariant -/

/-- What holds throughout `reception_actions`. -/
structure RxCore (e : NrRlcEntityAm) : Prop where
  space : SnSpace e.snFieldLength e.snModulus e.windowSize
  rxNext_sn : IsSn e.snModulus e.rxNext
  rxNextStatusTrigger_sn : IsSn e.snModulus e.rxNextStatusTrigger
  rxHighestStatus_sn : IsSn e.snModulus e.rxHighestStatus
  rxNextHighest_sn : IsSn e.snModulus e.rxNextHighest
  rxHighestStatus_le : e.rxDist e.rxHighestStatus ≤ e.rxDist e.rxNextHighest
  rxNextHighest_le : e.rxDist e.rxNextHighest ≤ e.windowSize
  list : RxList e.snModulus e.rxNext e.rxList
  stored_lt : ∀ p ∈ e.rxList, e.rxDist p.sn < e.rxDist e.rxNextHighest

/-- No SDU waits for its delivery, and neither RX_Next nor RX_Highest_Status is delivered. -/
structure RxSettled (e : NrRlcEntityAm) : Prop where
  not_full : ∀ sn, ¬sduFull e.rxList sn
  rxNext_undelivered : ¬sduDelivered e.rxList e.rxNext
  rxHighestStatus_undelivered : ¬sduDelivered e.rxList e.rxHighestStatus

/-- While t-Reassembly runs, RX_Next_Status_Trigger is above RX_Next and at most
RX_Next_Highest. -/
def RxTriggerInRange (e : NrRlcEntityAm) : Prop :=
  e.tReassemblyStart ≠ 0 → 0 < e.rxDist e.rxNextStatusTrigger ∧
    e.rxDist e.rxNextStatusTrigger ≤ e.rxDist e.rxNextHighest

/-- The invariant of the receiver. -/
structure RxInv (e : NrRlcEntityAm) : Prop where
  core : e.RxCore
  settled : e.RxSettled
  trigger : e.RxTriggerInRange

theorem RxCore.rxDist_nonneg (h : e.RxCore) (a : Int) : 0 ≤ e.rxDist a :=
  dist_nonneg h.space.modulus_pos

/-- RX_Next_Highest is above all that is stored. -/
theorem RxCore.rxNextHighest_undelivered (h : e.RxCore) :
    ¬sduDelivered e.rxList e.rxNextHighest := by
  intro hd
  obtain ⟨p, hp, hsn⟩ := h.list.exists_of_sduDelivered hd
  have := h.stored_lt p hp
  rw [hsn] at this
  omega

/-- The distances of what comes after `RX_Next + j`, seen from there. -/
theorem RxCore.dist_advance (h : e.RxCore) {j a : Int} (h0 : 0 ≤ j) (hM : j < e.snModulus)
    (hj : j ≤ e.rxDist a) :
    dist e.snModulus ((e.rxNext + j) % e.snModulus) a = e.rxDist a - j := by
  have hd : dist e.snModulus e.rxNext ((e.rxNext + j) % e.snModulus) = j := dist_base_add h0 hM
  rw [dist_rebase h.space.modulus_pos (by rw [hd]; exact hj), hd, rxDist]

/-! ## Storing a segment -/

/-- The comparison of the list is that of the distances. -/
theorem RxCore.snCompareRx_pos_iff (h : e.RxCore) (hx : IsSn e.snModulus x) :
    ∀ p ∈ e.rxList, e.snCompareRx p.sn x > 0 ↔
      dist e.snModulus e.rxNext x < dist e.snModulus e.rxNext p.sn := by
  intro p hp
  rw [snCompareRx_eq h.rxNext_sn (h.list.segment p hp).sn_range hx, rxDist, rxDist]
  omega

@[simp] theorem updateRxNextHighest_rxList : (e.updateRxNextHighest x).rxList = e.rxList := by
  unfold updateRxNextHighest
  split_ifs <;> rfl

/-- A decoded segment of the window. -/
structure RxAccepted (e : NrRlcEntityAm) (pdu : NrRlcPdu) : Prop where
  segment : RxSegment e.snModulus pdu
  data : pdu.data.isSome
  window : e.rxDist pdu.sn < e.windowSize

/-- Storing a segment keeps RX_Next and what is delivered, and makes room for its SN
below RX_Next_Highest. -/
theorem rxCore_store (h : e.RxCore) (hp : e.RxAccepted pdu) :
    let e' := (e.storePdu pdu).updateRxNextHighest pdu.sn
    e'.RxCore ∧ e'.rxList = nrRlcPduListAdd e.snCompareRx e.rxList pdu ∧
      e'.rxNext = e.rxNext ∧ e'.snModulus = e.snModulus ∧
      e'.rxHighestStatus = e.rxHighestStatus ∧
      e'.rxNextStatusTrigger = e.rxNextStatusTrigger ∧
      e'.tReassemblyStart = e.tReassemblyStart ∧
      e.rxDist e.rxNextHighest ≤ e.rxDist e'.rxNextHighest := by
  obtain ⟨hlist, -, -⟩ := h.list.add hp.segment hp.data
    (h.snCompareRx_pos_iff hp.segment.sn_range)
  have hwin := h.space.two_mul_window
  have hx := hp.window
  have hxn := h.rxDist_nonneg pdu.sn
  have hcompare : (e.storePdu pdu).snCompareRx pdu.sn (e.storePdu pdu).rxNextHighest =
      e.rxDist pdu.sn - e.rxDist e.rxNextHighest :=
    snCompareRx_eq (e := e) h.rxNext_sn hp.segment.sn_range h.rxNextHighest_sn
  have hlt : ∀ d, e.rxDist pdu.sn < d → e.rxDist e.rxNextHighest ≤ d →
      ∀ p ∈ nrRlcPduListAdd e.snCompareRx e.rxList pdu, e.rxDist p.sn < d := by
    intro d hd hle p hpl
    rcases mem_insertBefore.1 hpl with rfl | hpl
    · exact hd
    · exact (h.stored_lt p hpl).trans_le hle
  intro e'
  by_cases hc : e.rxDist pdu.sn < e.rxDist e.rxNextHighest
  · have he' : e' = e.storePdu pdu := by
      simp only [e', updateRxNextHighest, hcompare]
      rw [if_neg (by omega)]
    rw [he']
    exact ⟨⟨h.space, h.rxNext_sn, h.rxNextStatusTrigger_sn, h.rxHighestStatus_sn,
      h.rxNextHighest_sn, h.rxHighestStatus_le, h.rxNextHighest_le, hlist, hlt _ hc le_rfl⟩,
      rfl, rfl, rfl, rfl, rfl, rfl, le_rfl⟩
  · have he' : e' = { e.storePdu pdu with rxNextHighest := (pdu.sn + 1) % e.snModulus } := by
      simp only [e', updateRxNextHighest, hcompare]
      rw [if_pos (by omega)]
      rfl
    have hnh : e.rxDist ((pdu.sn + 1) % e.snModulus) = e.rxDist pdu.sn + 1 := by
      simp only [rxDist] at hx hwin ⊢
      exact dist_succ (by omega) (by omega)
    rw [he']
    exact ⟨⟨h.space, h.rxNext_sn, h.rxNextStatusTrigger_sn, h.rxHighestStatus_sn,
      h.space.isSn_emod _, by
        have := h.rxHighestStatus_le
        show e.rxDist e.rxHighestStatus ≤ e.rxDist ((pdu.sn + 1) % e.snModulus)
        omega, by
        show e.rxDist ((pdu.sn + 1) % e.snModulus) ≤ e.windowSize
        omega, hlist,
      hlt (e.rxDist ((pdu.sn + 1) % e.snModulus)) (by omega) (by omega)⟩,
      rfl, rfl, rfl, rfl, rfl, rfl, by
        show e.rxDist e.rxNextHighest ≤ e.rxDist ((pdu.sn + 1) % e.snModulus)
        omega⟩

/-! ## Delivery -/

/-- What `reassemble_and_deliver` does to a segment. -/
def dropData (pdu : NrRlcPdu) : NrRlcPdu :=
  { pdu with data := none }

theorem processes_dropData : Processes dropData :=
  ⟨fun _ => rfl, fun _ => rfl, fun _ h => h, fun _ => rfl⟩

/-- Reassembly keeps the window, and `x` is now delivered. -/
theorem rxCore_reassembleAndDeliver (h : e.RxCore) (hx : sduFull e.rxList x) :
    (e.reassembleAndDeliver x).RxCore ∧
      ((e.reassembleAndDeliver x).rxList =
        e.rxList.map fun p => if p.sn = x then dropData p else p) ∧
      (∀ sn, sduDelivered (e.reassembleAndDeliver x).rxList sn ↔
        sn = x ∨ sduDelivered e.rxList sn) ∧
      ∀ sn, sduFull (e.reassembleAndDeliver x).rxList sn → sn ≠ x ∧ sduFull e.rxList sn := by
  obtain ⟨hlist, heq, hof, hdel⟩ := h.list.process processes_dropData hx
  have hlt : ∀ p ∈ mapSegments dropData e.rxList x, e.rxDist p.sn < e.rxDist e.rxNextHighest := by
    intro p hp
    rw [heq, List.mem_map] at hp
    obtain ⟨q, hq, rfl⟩ := hp
    have := h.stored_lt q hq
    split_ifs <;> exact this
  refine ⟨⟨h.space, h.rxNext_sn, h.rxNextStatusTrigger_sn, h.rxHighestStatus_sn,
    h.rxNextHighest_sn, h.rxHighestStatus_le, h.rxNextHighest_le, hlist, hlt⟩, heq,
    fun sn => ?_, fun sn hf => ?_⟩
  · by_cases hsn : sn = x
    · exact iff_of_true (hsn ▸ hdel) (.inl hsn)
    · rw [or_iff_right hsn]
      exact Bool.eq_iff_iff.1 (sduDelivered_congr ((hof sn).trans (if_neg hsn)))
  · by_cases hsn : sn = x
    · exact absurd (hsn ▸ hf) (not_sduFull_of_sduDelivered hdel)
    · exact ⟨hsn, (sduFull_congr ((hof sn).trans (if_neg hsn))) ▸ hf⟩

/-- `skipDelivered` goes from an SN below RX_Next_Highest to one not above it. -/
theorem RxCore.skipDelivered_spec (h : e.RxCore) {sn : Int} (hsn : IsSn e.snModulus sn)
    (hle : e.rxDist sn ≤ e.rxDist e.rxNextHighest) :
    IsSn e.snModulus (e.skipDelivered sn) ∧ ¬sduDelivered e.rxList (e.skipDelivered sn) ∧
      e.rxDist sn ≤ e.rxDist (e.skipDelivered sn) ∧
      e.rxDist (e.skipDelivered sn) ≤ e.rxDist e.rxNextHighest := by
  have hM := h.space.modulus_pos
  obtain ⟨j, hj, hjle, heq, -, hnot⟩ := skipDelivered_le hsn h.rxNextHighest_sn
    h.rxNextHighest_undelivered
  rw [dist_rebase hM hle] at hjle
  have hnhM : e.rxDist e.rxNextHighest < e.snModulus := dist_lt hM
  have hnn := h.rxDist_nonneg sn
  have hd : e.rxDist (e.skipDelivered sn) = e.rxDist sn + j := by
    rw [skipDelivered, heq]
    simp only [rxDist] at *
    rw [dist_emod_right, dist_add (by omega) (by omega)]
  refine ⟨?_, hnot, by omega, by simp only [rxDist] at *; omega⟩
  rw [skipDelivered, heq]
  exact h.space.isSn_emod _

/-- RX_Highest_Status ends on an SDU that is not delivered. -/
theorem rxCore_updateRxHighestStatus (h : e.RxCore)
    (hhs : e.rxHighestStatus = x ∨ ¬sduDelivered e.rxList e.rxHighestStatus) :
    (e.updateRxHighestStatus x).RxCore ∧
      ¬sduDelivered e.rxList (e.updateRxHighestStatus x).rxHighestStatus ∧
      (e.updateRxHighestStatus x).rxList = e.rxList ∧
      (e.updateRxHighestStatus x).rxNext = e.rxNext := by
  unfold updateRxHighestStatus
  split_ifs with hx
  · obtain ⟨hsn, hnot, -, hle⟩ := h.skipDelivered_spec h.rxHighestStatus_sn h.rxHighestStatus_le
    exact ⟨⟨h.space, h.rxNext_sn, h.rxNextStatusTrigger_sn, hsn, h.rxNextHighest_sn, hle,
      h.rxNextHighest_le, h.list, h.stored_lt⟩, hnot, rfl, rfl⟩
  · exact ⟨h, hhs.resolve_left fun hhs => hx hhs.symm, rfl, rfl⟩

/-- How RX_Next advances : past `j` delivered SDUs, which leave the list. -/
structure RxAdvance (e e' : NrRlcEntityAm) (j : Int) : Prop where
  nonneg : 0 ≤ j
  le : j ≤ e.rxDist e.rxNextHighest
  rxNext_eq : e'.rxNext = (e.rxNext + j) % e.snModulus
  rxList_eq : e'.rxList = e.rxList.filter fun p => j ≤ e.rxDist p.sn
  delivered : ∀ i, 0 ≤ i → i < j → sduDelivered e.rxList ((e.rxNext + i) % e.snModulus)

/-- What is left in the list after an advance is as it was. -/
theorem RxAdvance.segmentsOf_eq {e' : NrRlcEntityAm} {j : Int} (ha : RxAdvance e e' j)
    (h : e.RxCore) (sn : Int) :
    segmentsOf e'.rxList sn = if j ≤ e.rxDist sn then segmentsOf e.rxList sn else [] := by
  rw [ha.rxList_eq, (h.list.filter (q := fun s => decide (j ≤ e.rxDist s))).2 sn]
  simp

theorem rxCore_updateRxNext (h : e.RxCore)
    (hhs : ¬sduDelivered e.rxList e.rxHighestStatus)
    (hx : e.rxNext = x ∨ ¬sduDelivered e.rxList e.rxNext) :
    (e.updateRxNext x).RxCore ∧ (∃ j, RxAdvance e (e.updateRxNext x) j) ∧
      ¬sduDelivered (e.updateRxNext x).rxList (e.updateRxNext x).rxNext ∧
      ¬sduDelivered (e.updateRxNext x).rxList (e.updateRxNext x).rxHighestStatus := by
  have hwin := h.space.two_mul_window
  have hnh := h.rxNextHighest_le
  have hmod : (e.rxNext + 0) % e.snModulus = e.rxNext := by
    simpa using Int.emod_eq_of_lt h.rxNext_sn.1 h.rxNext_sn.2
  unfold updateRxNext
  split_ifs with hxn
  · obtain ⟨j, hj, heq, hdel, hnot⟩ := freeDeliveredHead_spec (by omega) e.rxList.length
      le_rfl h.list h.rxNext_sn h.stored_lt (h.rxDist_nonneg _) (by omega)
    simp only [heq]
    have hadv : ∀ a, (j : Int) ≤ e.rxDist a →
        dist e.snModulus ((e.rxNext + j) % e.snModulus) a = e.rxDist a - j := fun a ha =>
      h.dist_advance (by omega) (by omega) ha
    have hself : dist e.snModulus e.rxNext ((e.rxNext + j) % e.snModulus) = j :=
      dist_base_add (by omega) (by omega)
    -- RX_Highest_Status is not delivered, so the advance has not passed it
    have hhsj : (j : Int) ≤ e.rxDist e.rxHighestStatus := by
      by_contra hlt
      have hnn := h.rxDist_nonneg e.rxHighestStatus
      have hd := hdel (e.rxDist e.rxHighestStatus).toNat (by omega)
      rw [Int.toNat_of_nonneg hnn, rxDist, base_add_dist h.rxHighestStatus_sn] at hd
      exact hhs hd
    obtain ⟨hfl, hof⟩ := h.list.filter (q := fun s => decide (j ≤ e.rxDist s))
    have hkeep : ∀ sn, ¬sduDelivered e.rxList sn →
        ¬sduDelivered (e.rxList.filter fun p => decide (j ≤ e.rxDist p.sn)) sn := by
      intro sn hsn
      by_cases hle : (j : Int) ≤ e.rxDist sn
      · rwa [sduDelivered_congr ((hof sn).trans (if_pos (by simpa using hle)))]
      · exact not_sduDelivered_of_nil ((hof sn).trans (if_neg (by simpa using hle)))
    refine ⟨⟨h.space, h.space.isSn_emod _, h.rxNextStatusTrigger_sn, h.rxHighestStatus_sn,
      h.rxNextHighest_sn, ?_, ?_, ?_, ?_⟩, ⟨j, by omega, hj, rfl, rfl, fun i h0 hi => ?_⟩,
      hkeep _ hnot, hkeep _ hhs⟩
    · have hle := h.rxHighestStatus_le
      simp only [rxDist] at *
      rw [hadv _ hhsj, hadv _ hj]
      omega
    · simp only [rxDist] at *
      rw [hadv _ hj]
      omega
    · refine hfl.rebase h.space.modulus_pos fun p hp => ?_
      rw [hself]
      simpa using (List.mem_filter.1 hp).2
    · intro p hp
      obtain ⟨hpl, hpj⟩ := List.mem_filter.1 hp
      have hlt := h.stored_lt p hpl
      rw [decide_eq_true_iff] at hpj
      simp only [rxDist] at *
      rw [hadv _ hpj, hadv _ hj]
      omega
    · have := hdel i.toNat (by omega)
      rwa [Int.toNat_of_nonneg h0] at this
  · refine ⟨h, ⟨0, le_rfl, h.rxDist_nonneg _, hmod.symm, ?_, fun i h0 hi => by omega⟩,
      hx.resolve_left fun hx => hxn hx.symm, hhs⟩
    exact (List.filter_eq_self.2 fun p _ => by simpa using h.rxDist_nonneg p.sn).symm

/-- The delivery part of `reception_actions` settles the list. -/
theorem rxCore_deliverIfFull (h : e.RxCore) (hfull : ∀ sn, sn ≠ x → ¬sduFull e.rxList sn)
    (hn : ¬sduDelivered e.rxList e.rxNext) (hh : ¬sduDelivered e.rxList e.rxHighestStatus) :
    (e.deliverIfFull x).RxCore ∧ (e.deliverIfFull x).RxSettled ∧
      ∃ j, 0 ≤ j ∧ j ≤ e.rxDist e.rxNextHighest ∧
        (e.deliverIfFull x).rxNext = (e.rxNext + j) % e.snModulus := by
  unfold deliverIfFull
  split_ifs with hx
  · obtain ⟨h₁, -, hdel₁, hfull₁⟩ := rxCore_reassembleAndDeliver h hx
    have hhs : (e.reassembleAndDeliver x).rxHighestStatus = x ∨
        ¬sduDelivered (e.reassembleAndDeliver x).rxList e.rxHighestStatus := by
      rw [hdel₁, not_or]
      exact or_iff_not_imp_left.2 fun hne => ⟨hne, hh⟩
    obtain ⟨h₂, hhs₂, hlist₂, hnext₂⟩ := rxCore_updateRxHighestStatus h₁ hhs
    set e₂ := (e.reassembleAndDeliver x).updateRxHighestStatus x with he₂
    have hkeep : e₂.snModulus = e.snModulus ∧ e₂.rxNextHighest = e.rxNextHighest := by
      rw [he₂, updateRxHighestStatus]
      split_ifs <;> exact ⟨rfl, rfl⟩
    have hn₂ : e₂.rxNext = x ∨ ¬sduDelivered e₂.rxList e₂.rxNext := by
      rw [hlist₂, hnext₂, hdel₁, not_or]
      exact or_iff_not_imp_left.2 fun hne => ⟨hne, hn⟩
    obtain ⟨h₃, ⟨j, hj⟩, hn₃, hhs₃⟩ := rxCore_updateRxNext h₂ (hlist₂ ▸ hhs₂) hn₂
    refine ⟨h₃, ⟨fun sn hf => ?_, hn₃, hhs₃⟩, j, hj.nonneg, ?_, ?_⟩
    · have hseg := hj.segmentsOf_eq h₂ sn
      split_ifs at hseg with hle
      · rw [sduFull_congr hseg, hlist₂] at hf
        obtain ⟨hne, hf⟩ := hfull₁ sn hf
        exact hfull sn hne hf
      · exact not_sduFull_of_nil hseg hf
    · have hle := hj.le
      rw [rxDist, hkeep.1, hnext₂, hkeep.2] at hle
      exact hle
    · rw [hj.rxNext_eq, hkeep.1, hnext₂]
      rfl
  · refine ⟨h, ⟨fun sn => ?_, hn, hh⟩, 0, le_rfl, h.rxDist_nonneg _, ?_⟩
    · by_cases hsn : sn = x
      · exact hsn ▸ hx
      · exact hfull sn hsn
    · simpa using (Int.emod_eq_of_lt h.rxNext_sn.1 h.rxNext_sn.2).symm

/-- What the delivery part leaves alone. -/
theorem deliverIfFull_frame (e : NrRlcEntityAm) (x : Int) :
    (e.deliverIfFull x).snModulus = e.snModulus ∧ (e.deliverIfFull x).windowSize = e.windowSize ∧
      (e.deliverIfFull x).rxNextHighest = e.rxNextHighest ∧
      (e.deliverIfFull x).rxNextStatusTrigger = e.rxNextStatusTrigger ∧
      (e.deliverIfFull x).tReassemblyStart = e.tReassemblyStart ∧
      (e.deliverIfFull x).tCurrent = e.tCurrent := by
  unfold deliverIfFull updateRxNext updateRxHighestStatus
  split_ifs <;> exact ⟨rfl, rfl, rfl, rfl, rfl, rfl⟩

/-! ## t-Reassembly -/

/-- The gap condition for t-Reassembly : RX_Next_Highest is above RX_Next + 1, or equal
to it with a byte of the SDU RX_Next missing before a received one. -/
def HasGap (e : NrRlcEntityAm) : Prop :=
  1 < e.rxDist e.rxNextHighest ∨ (e.rxDist e.rxNextHighest = 1 ∧
    ∃ p ∈ e.rxList, p.sn = e.rxNext ∧ ∃ b, 0 ≤ b ∧ b < p.so ∧
      ¬Covered (e.rxList.filter fun q => q.sn = e.rxNext) b)

/-- The start condition of the code, for an SN below the end of the SN space. -/
theorem RxCore.hasGapFrom_iff (h : e.RxCore) {sn : Int}
    (hle : e.rxDist sn ≤ e.rxDist e.rxNextHighest) :
    e.hasGapFrom sn ↔ e.rxDist sn + 1 < e.rxDist e.rxNextHighest ∨
      (e.rxDist e.rxNextHighest = e.rxDist sn + 1 ∧ sduHasMissingBytes e.rxList sn) := by
  have hwin := h.space.two_mul_window
  have hnh := h.rxNextHighest_le
  have hs : e.rxDist ((sn + 1) % e.snModulus) = e.rxDist sn + 1 := by
    simp only [rxDist] at *
    exact dist_succ (by omega) (by omega)
  have heq : e.rxNextHighest = (sn + 1) % e.snModulus ↔
      e.rxDist e.rxNextHighest = e.rxDist sn + 1 :=
    ⟨fun heq => heq ▸ hs, fun hd =>
      dist_inj h.rxNextHighest_sn (h.space.isSn_emod _) (hd.trans hs.symm)⟩
  rw [hasGapFrom, snCompareRx_eq h.rxNext_sn h.rxNextHighest_sn (h.space.isSn_emod _), hs, heq]
  refine or_congr ?_ Iff.rfl
  omega

theorem RxCore.hasGapFrom_rxNext_iff (h : e.RxCore) (hn : ¬sduDelivered e.rxList e.rxNext) :
    e.hasGapFrom e.rxNext ↔ e.HasGap := by
  have h0 : e.rxDist e.rxNext = 0 := dist_self
  rw [h.hasGapFrom_iff (by rw [h0]; exact h.rxDist_nonneg _), h0, HasGap,
    h.list.sduHasMissingBytes_iff hn]
  simp

/-- What is stored while t-Reassembly runs and RX_Next moves : a trigger that RX_Next has
passed is more than a window ahead. -/
def RxTriggerBehind (e : NrRlcEntityAm) : Prop :=
  e.tReassemblyStart ≠ 0 → e.rxDist e.rxNextStatusTrigger ≤ e.rxDist e.rxNextHighest ∨
    e.windowSize < e.rxDist e.rxNextStatusTrigger

/-- The stop conditions are met when there is no gap, or the trigger is behind RX_Next. -/
theorem stopsReassembly_of_not (h : e.RxCore) (hb : e.RxTriggerBehind)
    (hrun : e.tReassemblyStart ≠ 0) (hn : ¬sduDelivered e.rxList e.rxNext)
    (hs : ¬e.stopsReassembly) :
    (0 < e.rxDist e.rxNextStatusTrigger ∧
      e.rxDist e.rxNextStatusTrigger ≤ e.rxDist e.rxNextHighest) ∧ e.HasGap := by
  have hwin := h.space.two_mul_window
  have hnh := h.rxNextHighest_le
  obtain ⟨h1, h2, h3⟩ : e.rxNextStatusTrigger ≠ e.rxNext ∧
      ¬(e.rxNextStatusTrigger = (e.rxNext + 1) % e.snModulus ∧
        ¬sduHasMissingBytes e.rxList e.rxNext) ∧
      ¬(¬e.snInRecvWindow e.rxNextStatusTrigger ∧
        e.rxNextStatusTrigger ≠ (e.rxNext + e.windowSize) % e.snModulus) := by
    unfold stopsReassembly at hs
    tauto
  have hpos : 0 < e.rxDist e.rxNextStatusTrigger :=
    lt_of_le_of_ne (h.rxDist_nonneg _) fun h0 =>
      h1 ((dist_eq_zero_iff h.rxNextStatusTrigger_sn h.rxNext_sn).1 h0.symm)
  have hle : e.rxDist e.rxNextStatusTrigger ≤ e.rxDist e.rxNextHighest := by
    refine (hb hrun).resolve_right fun hgt => h3 ⟨?_, fun heq => ?_⟩
    · rw [snInRecvWindow_iff h.rxNext_sn h.rxNextStatusTrigger_sn]
      omega
    · rw [heq, rxDist, dist_base_add (by omega) (by omega)] at hgt
      omega
  refine ⟨⟨hpos, hle⟩, (h.hasGapFrom_rxNext_iff hn).1 ?_⟩
  have h0 : e.rxDist e.rxNext = 0 := dist_self
  rw [h.hasGapFrom_iff (by rw [h0]; exact h.rxDist_nonneg _), h0]
  by_cases h1' : e.rxDist e.rxNextStatusTrigger = 1
  · have hat := base_add_dist (b := e.rxNext) h.rxNextStatusTrigger_sn
    rw [← rxDist, h1'] at hat
    have hmiss : sduHasMissingBytes e.rxList e.rxNext := by
      by_contra hno
      exact h2 ⟨hat.symm, hno⟩
    by_cases hnh1 : e.rxDist e.rxNextHighest = 1
    · exact .inr ⟨by omega, hmiss⟩
    · exact .inl (by omega)
  · exact .inl (by omega)

/-- The timer part of `reception_actions` : t-Reassembly runs exactly if there is a gap,
unless the clock is 0. -/
theorem updateReassemblyTimer_spec (h : e.RxCore) (hs : e.RxSettled) (hb : e.RxTriggerBehind) :
    e.updateReassemblyTimer.RxInv ∧
      (e.tCurrent ≠ 0 → (e.updateReassemblyTimer.tReassemblyStart ≠ 0 ↔ e.HasGap)) := by
  by_cases hrun : e.tReassemblyStart ≠ 0 ∧ ¬e.stopsReassembly
  · obtain ⟨htrig, hgap⟩ := stopsReassembly_of_not h hb hrun.1 hs.rxNext_undelivered hrun.2
    have heq : e.updateReassemblyTimer = e := by
      simp [updateReassemblyTimer, stopReassembly, hrun.1, hrun.2]
    rw [heq]
    exact ⟨⟨h, hs, fun _ => htrig⟩, fun _ => iff_of_true hrun.1 hgap⟩
  · have heq : e.updateReassemblyTimer =
        { e with tReassemblyStart := 0 }.startReassembly e.rxNext := by
      unfold updateReassemblyTimer stopReassembly
      by_cases h0 : e.tReassemblyStart = 0
      · have hsame : { e with tReassemblyStart := 0 } = e := by rw [← h0]
        rw [hsame]
        simp [h0]
      · have hst : e.stopsReassembly := by
          by_contra hno
          exact hrun ⟨h0, hno⟩
        simp [h0, hst]
    have hgap : { e with tReassemblyStart := 0 }.hasGapFrom e.rxNext ↔ e.HasGap :=
      h.hasGapFrom_rxNext_iff hs.rxNext_undelivered
    rw [heq, startReassembly]
    split_ifs with hg
    · have hnh : 0 < e.rxDist e.rxNextHighest := by
        rcases hgap.1 hg with hlt | ⟨heq, -⟩ <;> omega
      exact ⟨⟨⟨h.space, h.rxNext_sn, h.rxNextHighest_sn, h.rxHighestStatus_sn,
        h.rxNextHighest_sn, h.rxHighestStatus_le, h.rxNextHighest_le, h.list, h.stored_lt⟩,
        ⟨hs.not_full, hs.rxNext_undelivered, hs.rxHighestStatus_undelivered⟩,
        fun _ => ⟨hnh, le_rfl⟩⟩, fun hc => iff_of_true hc (hgap.1 hg)⟩
    · exact ⟨⟨⟨h.space, h.rxNext_sn, h.rxNextStatusTrigger_sn, h.rxHighestStatus_sn,
        h.rxNextHighest_sn, h.rxHighestStatus_le, h.rxNextHighest_le, h.list, h.stored_lt⟩,
        ⟨hs.not_full, hs.rxNext_undelivered, hs.rxHighestStatus_undelivered⟩,
        fun h0 => absurd rfl h0⟩, fun _ => iff_of_false (by simp) fun hg' => hg (hgap.2 hg')⟩

theorem hasGap_updateReassemblyTimer (e : NrRlcEntityAm) :
    e.updateReassemblyTimer.HasGap ↔ e.HasGap := by
  unfold updateReassemblyTimer startReassembly stopReassembly
  split_ifs <;> rfl

/-- Delivery moves RX_Next by less than a window and a trigger it passes is behind. -/
theorem rxTriggerBehind_deliverIfFull (h : e.RxCore) (ht : e.RxTriggerInRange) {j : Int}
    (h0 : 0 ≤ j) (hj : j ≤ e.rxDist e.rxNextHighest)
    (hnext : (e.deliverIfFull x).rxNext = (e.rxNext + j) % e.snModulus) :
    (e.deliverIfFull x).RxTriggerBehind := by
  obtain ⟨hM, hW, hnh, htr, hstart, -⟩ := deliverIfFull_frame e x
  have hwin := h.space.two_mul_window
  have hle := h.rxNextHighest_le
  have hself : dist e.snModulus e.rxNext ((e.rxNext + j) % e.snModulus) = j :=
    dist_base_add h0 (by omega)
  intro hrun
  rw [hstart] at hrun
  obtain ⟨hpos, htle⟩ := ht hrun
  rw [rxDist, rxDist, hM, hnext, htr, hnh, hW, h.dist_advance h0 (by omega) hj]
  by_cases hjt : j ≤ e.rxDist e.rxNextStatusTrigger
  · rw [h.dist_advance h0 (by omega) hjt]
    exact .inl (by omega)
  · rw [dist_rebase_lt h.space.modulus_pos (by rw [hself]; exact not_le.1 hjt), hself]
    simp only [rxDist] at *
    exact .inr (by omega)

/-- `reception_actions` after storing a segment. -/
theorem rxInv_receptionActions (h : e.RxInv) (hp : e.RxAccepted pdu) :
    ((e.storePdu pdu).receptionActions pdu.sn).RxInv ∧
      (e.tCurrent ≠ 0 → (((e.storePdu pdu).receptionActions pdu.sn).tReassemblyStart ≠ 0 ↔
        ((e.storePdu pdu).receptionActions pdu.sn).HasGap)) := by
  obtain ⟨h₁, hlist₁, hnext₁, hM₁, hhs₁, htr₁, hst₁, hnh₁⟩ := rxCore_store h.core hp
  have hcur₁ : ((e.storePdu pdu).updateRxNextHighest pdu.sn).tCurrent = e.tCurrent := by
    unfold updateRxNextHighest
    split_ifs <;> rfl
  rw [receptionActions]
  set e₁ := (e.storePdu pdu).updateRxNextHighest pdu.sn
  obtain ⟨-, hof, hdel⟩ := h.core.list.add hp.segment hp.data
    (h.core.snCompareRx_pos_iff hp.segment.sn_range)
  have hfull₁ : ∀ sn, sn ≠ pdu.sn → ¬sduFull e₁.rxList sn := by
    intro sn hsn
    rw [hlist₁, sduFull_congr ((hof sn).trans (if_neg hsn))]
    exact h.settled.not_full sn
  obtain ⟨h₂, hs₂, j, h0, hj, hnext₂⟩ := rxCore_deliverIfFull h₁ hfull₁
    (by rw [hlist₁, hnext₁, hdel]; exact h.settled.rxNext_undelivered)
    (by rw [hlist₁, hhs₁, hdel]; exact h.settled.rxHighestStatus_undelivered)
  have ht₁ : e₁.RxTriggerInRange := by
    intro hrun
    have ht := h.trigger (hst₁ ▸ hrun)
    simp only [rxDist, hnext₁, hM₁, htr₁] at *
    omega
  have hb₂ := rxTriggerBehind_deliverIfFull h₁ ht₁ h0 hj hnext₂
  obtain ⟨hinv, hiff⟩ := updateReassemblyTimer_spec h₂ hs₂ hb₂
  obtain ⟨-, -, -, -, -, hcur₂⟩ := deliverIfFull_frame e₁ pdu.sn
  refine ⟨hinv, fun hc => ?_⟩
  rw [hasGap_updateReassemblyTimer]
  exact hiff (by rwa [hcur₂, hcur₁])

/-- Expiry of t-Reassembly. -/
theorem rxInv_checkTReassembly (h : e.RxInv) : e.checkTReassembly.RxInv := by
  unfold checkTReassembly
  split_ifs with hexp
  · exact h
  · rw [not_or] at hexp
    obtain ⟨hpos, hle⟩ := h.trigger hexp.1
    obtain ⟨hsn, hnot, -, hle'⟩ := h.core.skipDelivered_spec h.core.rxNextStatusTrigger_sn hle
    have hcore := h.core
    unfold startReassembly
    split_ifs
    · exact ⟨⟨hcore.space, hcore.rxNext_sn, hcore.rxNextHighest_sn, hsn, hcore.rxNextHighest_sn,
        hle', hcore.rxNextHighest_le, hcore.list, hcore.stored_lt⟩,
        ⟨h.settled.not_full, h.settled.rxNext_undelivered, hnot⟩,
        fun _ => ⟨lt_of_lt_of_le hpos hle, le_rfl⟩⟩
    · exact ⟨⟨hcore.space, hcore.rxNext_sn, hcore.rxNextStatusTrigger_sn, hsn,
        hcore.rxNextHighest_sn, hle', hcore.rxNextHighest_le, hcore.list, hcore.stored_lt⟩,
        ⟨h.settled.not_full, h.settled.rxNext_undelivered, hnot⟩, fun h0 => absurd rfl h0⟩

/-! ## Data PDUs -/

/-- A decoded data PDU is a segment of the SN space. -/
theorem rxSegment_decodeDataPdu (hM : e.snModulus = 2 ^ e.snFieldLength) {d : NrRlcPduDecoder}
    {buffer : List UInt8} {bs : List Bool} (hd : d.Reads buffer bs)
    (hp : e.decodeDataPdu d = some pdu) : RxSegment e.snModulus pdu ∧ pdu.data.isSome := by
  simp only [decodeDataPdu, Option.bind_eq_bind, Option.bind_eq_some_iff, Prod.exists] at hp
  obtain ⟨si, d₁, hsi, r, d₂, hr, sn, d₃, hsn, so, d₄, hso, hp⟩ := hp
  obtain ⟨-, -, hd₁⟩ := NrRlcPduDecoder.getBits_eq_some hd hsi
  obtain ⟨-, bs₂, hd₂⟩ := NrRlcPduDecoder.getBitsIf_eq_some hd₁ hr
  have hsnlt := NrRlcPduDecoder.getBits_lt hd₂ hsn
  split_ifs at hp with h1 h2
  obtain rfl := Option.some.inj hp
  have hsnM : (sn : Int) < e.snModulus := by
    rw [hM]
    exact_mod_cast hsnlt
  refine ⟨⟨⟨Int.natCast_nonneg _, hsnM⟩, Int.natCast_nonneg _, Int.natCast_nonneg _, ?_⟩, rfl⟩
  intro data hdata
  obtain rfl := Option.some.inj hdata
  simp only [nrRlcNewPdu, List.length_drop, true_and]
  omega

end NrRlcEntityAm

end NrStack
