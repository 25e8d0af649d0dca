import NrStack.Rlc.RxList
import NrStack.Rlc.Um

/-!
# The invariant of the UM receiver

The reassembly window is below RX_Next_Highest, and so is the base of the comparisons :
`rxDist` is the distance from RX_Next_Highest - window, and RX_Next_Highest itself is at
distance `windowSize`. `RxInv` is kept by every call; the two moves of the window are
`rxCore_slideWindow` (a segment beyond it arrives) and `rxInv_checkTReassembly`.
-/

namespace NrStack

namespace NrRlcEntityUm

variable {e : NrRlcEntityUm} {x : Int} {pdu : NrRlcPdu}

/-- The base of the SN comparisons. -/
def rxBase (e : NrRlcEntityUm) : Int :=
  e.rxNextHighest - e.windowSize

/-- How far the SN `a` is after the base. -/
def rxDist (e : NrRlcEntityUm) (a : Int) : Int :=
  dist e.snModulus e.rxBase a

/-- What holds throughout `reception_actions`. -/
structure RxCore (e : NrRlcEntityUm) : Prop where
  space : SnSpace e.snFieldLength e.snModulus e.windowSize
  rxNextHighest_sn : IsSn e.snModulus e.rxNextHighest
  rxNextReassembly_sn : IsSn e.snModulus e.rxNextReassembly
  rxTimerTrigger_sn : IsSn e.snModulus e.rxTimerTrigger
  rxNextReassembly_le : e.rxDist e.rxNextReassembly ≤ e.windowSize
  list : RxList e.snModulus e.rxBase e.rxList

/-- The stored SNs are in the reassembly window, and no SDU waits for its delivery. -/
structure RxSettled (e : NrRlcEntityUm) : Prop where
  stored_lt : ∀ p ∈ e.rxList, e.rxDist p.sn < e.windowSize
  not_full : ∀ sn, ¬sduFull e.rxList sn

/-- While t-Reassembly runs, RX_Timer_Trigger is above RX_Next_Reassembly and at most
RX_Next_Highest. -/
def RxTriggerInRange (e : NrRlcEntityUm) : Prop :=
  e.tReassemblyStart ≠ 0 → e.rxDist e.rxNextReassembly < e.rxDist e.rxTimerTrigger ∧
    e.rxDist e.rxTimerTrigger ≤ e.windowSize

/-- The invariant of the receiver. -/
structure RxInv (e : NrRlcEntityUm) : Prop where
  core : e.RxCore
  settled : e.RxSettled
  trigger : e.RxTriggerInRange

theorem modulusRx_eq (hs : SnSpace e.snFieldLength e.snModulus e.windowSize)
    (hn : IsSn e.snModulus e.rxNextHighest) {a : Int} (ha : IsSn e.snModulus a) :
    e.modulusRx a = e.rxDist a := by
  obtain ⟨hn0, hnM⟩ := hn
  obtain ⟨ha0, haM⟩ := ha
  have hwin := hs.two_mul_window
  simp only [modulusRx, rxDist, rxBase]
  split_ifs with hneg
  · rw [dist_of_lt (by omega) (by omega), Int.tmod_eq_of_lt (by omega) (by omega)]
  · rw [Int.tmod_eq_emod_of_nonneg (by omega), dist]

theorem snCompareRx_eq (hs : SnSpace e.snFieldLength e.snModulus e.windowSize)
    (hn : IsSn e.snModulus e.rxNextHighest) {a b : Int} (ha : IsSn e.snModulus a)
    (hb : IsSn e.snModulus b) : e.snCompareRx a b = e.rxDist a - e.rxDist b := by
  rw [snCompareRx, modulusRx_eq hs hn ha, modulusRx_eq hs hn hb]

theorem RxCore.rxDist_nonneg (h : e.RxCore) (a : Int) : 0 ≤ e.rxDist a :=
  dist_nonneg h.space.modulus_pos

theorem RxCore.rxDist_lt (h : e.RxCore) (a : Int) : e.rxDist a < e.snModulus :=
  dist_lt h.space.modulus_pos

theorem rxDist_rxNextHighest (hs : SnSpace e.snFieldLength e.snModulus e.windowSize) :
    e.rxDist e.rxNextHighest = e.windowSize := by
  have hwin := hs.two_mul_window
  rw [rxDist, rxBase, dist_of_le (by omega) (by omega)]
  ring

/-- RX_Next_Highest is above all that is stored. -/
theorem rxNextHighest_undelivered (h : e.RxCore)
    (hlt : ∀ p ∈ e.rxList, e.rxDist p.sn < e.windowSize) :
    ¬sduDelivered e.rxList e.rxNextHighest := by
  intro hd
  obtain ⟨p, hp, hsn⟩ := h.list.exists_of_sduDelivered hd
  have := hlt p hp
  rw [hsn, rxDist_rxNextHighest h.space] at this
  omega

/-- `skipDelivered` stops in the window. -/
theorem RxCore.skipDelivered_spec (h : e.RxCore)
    (hlt : ∀ p ∈ e.rxList, e.rxDist p.sn < e.windowSize) {sn : Int} (hsn : IsSn e.snModulus sn)
    (hle : e.rxDist sn ≤ e.windowSize) :
    IsSn e.snModulus (e.skipDelivered sn) ∧ ¬sduDelivered e.rxList (e.skipDelivered sn) ∧
      e.rxDist sn ≤ e.rxDist (e.skipDelivered sn) ∧
      e.rxDist (e.skipDelivered sn) ≤ e.windowSize ∧
      ∀ a, IsSn e.snModulus a → e.rxDist sn ≤ e.rxDist a →
        e.rxDist a < e.rxDist (e.skipDelivered sn) → sduDelivered e.rxList a := by
  have hM := h.space.modulus_pos
  have hwin := h.space.two_mul_window
  have hnh := rxDist_rxNextHighest h.space
  obtain ⟨j, hj, hjle, heq, hdel, hnot⟩ := skipDelivered_le hsn h.rxNextHighest_sn
    (rxNextHighest_undelivered h hlt)
  have hle' : dist e.snModulus e.rxBase sn ≤ dist e.snModulus e.rxBase e.rxNextHighest := by
    simp only [rxDist] at hnh hle
    omega
  rw [dist_rebase hM hle'] at hjle
  have hnn := h.rxDist_nonneg sn
  have hd : e.rxDist (e.skipDelivered sn) = e.rxDist sn + j := by
    rw [skipDelivered, heq]
    simp only [rxDist] at *
    rw [dist_emod_right, dist_add (by omega) (by omega)]
  refine ⟨?_, hnot, by omega, by simp only [rxDist] at *; omega, fun a ha h1 h2 => ?_⟩
  · rw [skipDelivered, heq]
    exact h.space.isSn_emod _
  · have hi := hdel (e.rxDist a - e.rxDist sn) (by omega) (by omega)
    have hat : (sn + (e.rxDist a - e.rxDist sn)) % e.snModulus = a := by
      have := base_add_dist (b := sn) ha
      rwa [dist_rebase hM h1] at this
    rwa [hat] at hi

/-! ## A stored segment -/

/-- A decoded segment. It is not a whole SDU. -/
structure RxAccepted (e : NrRlcEntityUm) (pdu : NrRlcPdu) : Prop where
  segment : RxSegment e.snModulus pdu
  data : pdu.data.isSome
  not_whole : pdu.isLast → 0 < pdu.so

theorem rxCore_store (h : e.RxCore) (hp : e.RxAccepted pdu) : (e.storePdu pdu).RxCore ∧
    (∀ sn, segmentsOf (e.storePdu pdu).rxList sn =
      if sn = pdu.sn then insertBefore (fun p => pdu.so < p.so) pdu (segmentsOf e.rxList sn)
      else segmentsOf e.rxList sn) := by
  have hcmp : ∀ p ∈ e.rxList, e.snCompareRx p.sn pdu.sn > 0 ↔
      dist e.snModulus e.rxBase pdu.sn < dist e.snModulus e.rxBase p.sn := by
    intro p hpl
    rw [snCompareRx_eq h.space h.rxNextHighest_sn (h.list.segment p hpl).sn_range
      hp.segment.sn_range, rxDist, rxDist]
    omega
  obtain ⟨hlist, hof, -⟩ := h.list.add hp.segment hp.data hcmp
  exact ⟨⟨h.space, h.rxNextHighest_sn, h.rxNextReassembly_sn, h.rxTimerTrigger_sn,
    h.rxNextReassembly_le, hlist⟩, hof⟩

/-- What is stored apart from the segments of `x`, before the actions for `x`. -/
structure RxOthersSettled (e : NrRlcEntityUm) (x : Int) : Prop where
  stored_lt : ∀ p ∈ e.rxList, p.sn ≠ x → e.rxDist p.sn < e.windowSize
  not_full : ∀ sn, sn ≠ x → ¬sduFull e.rxList sn
  /-- An SDU that is full has more than the last segment, so it was in the window. -/
  full_lt : sduFull e.rxList x → e.rxDist x < e.windowSize

theorem rxOthersSettled_store (h : e.RxCore) (hs : e.RxSettled) (hp : e.RxAccepted pdu) :
    (e.storePdu pdu).RxOthersSettled pdu.sn := by
  obtain ⟨-, hof⟩ := rxCore_store h hp
  refine ⟨fun p hpl hne => ?_, fun sn hne => ?_, fun hf => ?_⟩
  · rcases mem_insertBefore.1 hpl with rfl | hpl
    · exact absurd rfl hne
    · exact hs.stored_lt p hpl
  · rw [sduFull_congr ((hof sn).trans (if_neg hne))]
    exact hs.not_full sn
  · by_cases hnil : segmentsOf e.rxList pdu.sn = []
    · have hof' := hof pdu.sn
      rw [if_pos rfl, hnil, insertBefore] at hof'
      obtain ⟨p, rest, hg, -, hfrom⟩ := sduFull_iff.1 hf
      rw [hof'] at hg
      obtain ⟨rfl, rfl⟩ := List.cons.inj hg
      have hwhole := hp.not_whole
      simp only [sduFullFrom] at hfrom
      split_ifs at hfrom with h1 h2
      have := hwhole h2
      omega
    · rw [h.list.segmentsOf_eq_nil_iff] at hnil
      push Not at hnil
      obtain ⟨p, hpl, hsn⟩ := hnil
      exact hsn ▸ hs.stored_lt p hpl

/-! ## Delivery -/

/-- What `reassemble_and_deliver` does to a segment. -/
def dropData (pdu : NrRlcPdu) : NrRlcPdu :=
  { pdu with data := none, size := 0 }

theorem processes_dropData : Processes dropData :=
  ⟨fun _ => rfl, fun _ => rfl, fun _ _ => le_rfl, fun _ => rfl⟩

theorem rxCore_receiveFull (h : e.RxCore) (ho : e.RxOthersSettled x) (hx : sduFull e.rxList x) :
    (e.receiveFull x).RxCore ∧ (e.receiveFull x).RxSettled := by
  obtain ⟨hlist, heq, hof, hdel⟩ := h.list.process processes_dropData hx
  have hcore : (e.reassembleAndDeliver x).RxCore :=
    ⟨h.space, h.rxNextHighest_sn, h.rxNextReassembly_sn, h.rxTimerTrigger_sn,
      h.rxNextReassembly_le, hlist⟩
  have hlt : ∀ p ∈ mapSegments dropData e.rxList x, e.rxDist p.sn < e.windowSize := by
    intro p hp
    rw [heq, List.mem_map] at hp
    obtain ⟨q, hq, rfl⟩ := hp
    split_ifs with hqx
    · rw [show (dropData q).sn = x from hqx]
      exact ho.full_lt hx
    · exact ho.stored_lt q hq hqx
  have hfull : ∀ sn, ¬sduFull (mapSegments dropData e.rxList x) sn := by
    intro sn
    by_cases hsn : sn = x
    · rw [hsn]
      exact not_sduFull_of_sduDelivered hdel
    · rw [sduFull_congr ((hof sn).trans (if_neg hsn))]
      exact ho.not_full sn hsn
  unfold receiveFull updateRxNextReassembly
  split_ifs with hxr
  · obtain ⟨hsn, -, -, hle, -⟩ := hcore.skipDelivered_spec hlt hcore.rxNextReassembly_sn
      hcore.rxNextReassembly_le
    exact ⟨⟨h.space, h.rxNextHighest_sn, hsn, h.rxTimerTrigger_sn, hle, hlist⟩, hlt, hfull⟩
  · exact ⟨hcore, hlt, hfull⟩

/-! ## The window slides -/

/-- The new base when RX_Next_Highest moves up to `x`, and the distances from it. -/
theorem rxDist_raiseRxNextHighest (h : e.RxCore) (hxsn : IsSn e.snModulus x)
    (hx : e.windowSize ≤ e.rxDist x) :
    e.rxDist (e.raiseRxNextHighest x).rxBase = e.rxDist x + 1 - e.windowSize ∧
      ∀ a, (e.raiseRxNextHighest x).rxDist a =
        if e.rxDist x + 1 - e.windowSize ≤ e.rxDist a then
          e.rxDist a - (e.rxDist x + 1 - e.windowSize)
        else e.rxDist a - (e.rxDist x + 1 - e.windowSize) + e.snModulus := by
  have hM := h.space.modulus_pos
  have hwin := h.space.two_mul_window
  have hxM := h.rxDist_lt x
  set k := e.rxDist x + 1 - e.windowSize with hk
  have hcong : (e.raiseRxNextHighest x).rxBase % e.snModulus = (e.rxBase + k) % e.snModulus := by
    have hbx : (e.rxBase + k) % e.snModulus = (x + (1 - e.windowSize)) % e.snModulus := by
      rw [show e.rxBase + k = e.rxBase + e.rxDist x + (1 - e.windowSize) by rw [hk]; ring,
        ← Int.emod_add_emod, rxDist, base_add_dist hxsn]
    show ((x + 1) % e.snModulus - e.windowSize) % e.snModulus = _
    rw [hbx, Int.emod_sub_emod]
    congr 1
    ring
  have hself : dist e.snModulus e.rxBase (e.raiseRxNextHighest x).rxBase = k := by
    rw [← dist_emod_right, hcong, dist_base_add (by omega) (by omega)]
  refine ⟨hself, fun a => ?_⟩
  show dist e.snModulus _ a = _
  split_ifs with hka
  · rw [dist_rebase hM (by rw [hself]; exact hka), hself, rxDist]
  · rw [dist_rebase_lt hM (by rw [hself]; exact not_le.1 hka), hself, rxDist]

/-- `x` is beyond the window : what is left when the window has moved up to it. -/
theorem rxCore_slideWindow (h : e.RxCore) (ho : e.RxOthersSettled x) (hxsn : IsSn e.snModulus x)
    (hx : e.windowSize ≤ e.rxDist x) (hnf : ¬sduFull e.rxList x) :
    (e.slideWindow x).RxCore ∧ (e.slideWindow x).RxSettled := by
  have hM := h.space.modulus_pos
  have hwin := h.space.two_mul_window
  have hxM := h.rxDist_lt x
  obtain ⟨hbase, hdist⟩ := rxDist_raiseRxNextHighest h hxsn hx
  set k := e.rxDist x + 1 - e.windowSize with hk
  set e₁ := e.raiseRxNextHighest x with he₁
  have hsn₁ : IsSn e.snModulus e₁.rxNextHighest := h.space.isSn_emod _
  have hnh₁ : e₁.rxDist e₁.rxNextHighest = e.windowSize := rxDist_rxNextHighest (e := e₁) h.space
  have hcmp : ∀ a, IsSn e.snModulus a →
      (e₁.snCompareRx a e₁.rxNextHighest ≥ 0 ↔ e.windowSize ≤ e₁.rxDist a) := by
    intro a ha
    rw [snCompareRx_eq (e := e₁) h.space hsn₁ ha hsn₁, hnh₁]
    omega
  -- what is out of the window is what the base has passed
  have hout : ∀ p ∈ e.rxList,
      decide (e₁.snCompareRx p.sn e₁.rxNextHighest ≥ 0) = !decide (k ≤ e.rxDist p.sn) := by
    intro p hp
    have hnn := h.rxDist_nonneg p.sn
    have hlt := ho.stored_lt p hp
    rw [← decide_not, decide_eq_decide, hcmp _ (h.list.segment p hp).sn_range, hdist]
    by_cases hpx : p.sn = x
    · rw [hpx]
      split_ifs <;> omega
    · have := hlt hpx
      split_ifs <;> omega
  have hlist₂ : e₁.discardOutOfWindow.rxList = e.rxList.filter fun p => k ≤ e.rxDist p.sn := by
    show e.rxList.dropWhile (fun p => decide (e₁.snCompareRx p.sn e₁.rxNextHighest ≥ 0)) = _
    rw [dropWhile_eq_filter]
    · exact List.filter_congr fun p hp => by rw [hout p hp, Bool.not_not]
    · refine h.list.sorted.imp_of_mem fun {p q} hp hq hpq => ?_
      have hle : e.rxDist p.sn ≤ e.rxDist q.sn := hpq.dist_le
      rw [hout p hp, hout q hq, Bool.not_eq_true', Bool.not_eq_true', decide_eq_false_iff_not,
        decide_eq_false_iff_not]
      omega
  obtain ⟨hfl, hof⟩ := h.list.filter (q := fun s => decide (k ≤ e.rxDist s))
  have hlist : RxList e.snModulus e₁.rxBase e₁.discardOutOfWindow.rxList := by
    rw [hlist₂]
    refine hfl.rebase hM fun p hp => ?_
    rw [← rxDist, ← rxDist, hbase]
    simpa using (List.mem_filter.1 hp).2
  have hlt₂ : ∀ p ∈ e₁.discardOutOfWindow.rxList, e₁.rxDist p.sn < e.windowSize := by
    intro p hp
    rw [hlist₂, List.mem_filter, decide_eq_true_iff] at hp
    rw [hdist, if_pos hp.2]
    by_cases hpx : p.sn = x
    · rw [hpx]
      omega
    · have := ho.stored_lt p hp.1 hpx
      omega
  have hfull : ∀ sn, ¬sduFull e₁.discardOutOfWindow.rxList sn := by
    intro sn
    rw [hlist₂]
    have hseg := hof sn
    split_ifs at hseg with hle
    · rw [sduFull_congr hseg]
      by_cases hsn : sn = x
      · exact hsn ▸ hnf
      · exact ho.not_full sn hsn
    · exact not_sduFull_of_nil hseg
  have hmod : (e₁.rxNextHighest - e.windowSize + e.snModulus) % e.snModulus =
      e₁.rxBase % e.snModulus := Int.add_emod_right _ _
  have hcond : e₁.discardOutOfWindow.snCompareRx e₁.rxNextReassembly e₁.rxNextHighest ≥ 0 ↔
      e.windowSize ≤ e₁.rxDist e.rxNextReassembly := hcmp _ h.rxNextReassembly_sn
  unfold slideWindow resetRxNextReassembly
  split_ifs with hre
  · have hsn₀ : IsSn e.snModulus ((e₁.rxNextHighest - e.windowSize + e.snModulus) % e.snModulus) :=
      h.space.isSn_emod _
    have h₀ : e₁.rxDist ((e₁.rxNextHighest - e.windowSize + e.snModulus) % e.snModulus) = 0 := by
      show dist e.snModulus e₁.rxBase _ = 0
      rw [hmod, dist_emod_right, dist_self]
    -- with RX_Next_Reassembly at the base the window is well formed
    have hcore₀ : { e₁.discardOutOfWindow with rxNextReassembly :=
        (e₁.rxNextHighest - e.windowSize + e.snModulus) % e.snModulus }.RxCore :=
      ⟨h.space, hsn₁, hsn₀, h.rxTimerTrigger_sn, by
        show e₁.rxDist _ ≤ e.windowSize
        rw [h₀]
        omega, hlist⟩
    obtain ⟨hsn, -, -, hle, -⟩ := hcore₀.skipDelivered_spec hlt₂ hsn₀ hcore₀.rxNextReassembly_le
    exact ⟨⟨h.space, hsn₁, hsn, h.rxTimerTrigger_sn, hle, hlist⟩, hlt₂, hfull⟩
  · rw [show e₁.discardOutOfWindow.rxNextReassembly = e₁.rxNextReassembly from rfl,
      show e₁.discardOutOfWindow.rxNextHighest = e₁.rxNextHighest from rfl, hcond, not_le] at hre
    exact ⟨⟨h.space, hsn₁, h.rxNextReassembly_sn, h.rxTimerTrigger_sn, hre.le, hlist⟩, hlt₂, hfull⟩

/-! ## t-Reassembly -/

theorem RxCore.rxDist_succ (h : e.RxCore) :
    e.rxDist (e.rxNextReassembly + 1) = e.rxDist e.rxNextReassembly + 1 := by
  have hwin := h.space.two_mul_window
  have hle := h.rxNextReassembly_le
  have hnn := h.rxDist_nonneg e.rxNextReassembly
  simp only [rxDist] at *
  exact dist_add (by omega) (by omega)

/-- t-Reassembly starts only with RX_Next_Reassembly below RX_Next_Highest. -/
theorem rxInv_startReassembly (h : e.RxCore) (hs : e.RxSettled) (ht : e.RxTriggerInRange)
    {next : Int} (hnext : e.rxDist next = e.rxDist e.rxNextReassembly + 1) :
    (e.startReassembly next).RxInv := by
  have hnh := rxDist_rxNextHighest h.space
  unfold startReassembly
  split_ifs with hc
  · refine ⟨⟨h.space, h.rxNextHighest_sn, h.rxNextReassembly_sn, h.rxNextHighest_sn,
      h.rxNextReassembly_le, h.list⟩, ⟨hs.stored_lt, hs.not_full⟩, fun _ => ⟨?_, hnh.le⟩⟩
    show e.rxDist e.rxNextReassembly < e.rxDist e.rxNextHighest
    rcases hc with hgt | ⟨heq, -⟩
    · rw [snCompareRx_eq h.space h.rxNextHighest_sn h.rxNextHighest_sn (h.space.isSn_emod _)] at hgt
      have hsucc := h.rxDist_succ
      simp only [rxDist, dist_emod_right] at *
      omega
    · rw [heq, hnext]
      omega
  · exact ⟨h, hs, ht⟩

theorem rxInv_updateReassemblyTimer (h : e.RxCore) (hs : e.RxSettled) :
    e.updateReassemblyTimer.RxInv := by
  have hnh := rxDist_rxNextHighest h.space
  by_cases hrun : e.tReassemblyStart ≠ 0 ∧ ¬e.stopsReassembly
  · have heq : e.updateReassemblyTimer = e := by
      simp [updateReassemblyTimer, stopReassembly, hrun.1, hrun.2]
    rw [heq]
    obtain ⟨h1, h2, -⟩ : ¬e.snCompareRx e.rxTimerTrigger e.rxNextReassembly ≤ 0 ∧
        ¬e.snCompareRx e.rxTimerTrigger e.rxNextHighest > 0 ∧ _ := by
      have := hrun.2
      unfold stopsReassembly at this
      exact ⟨fun h => this (.inl h), fun h => this (.inr (.inl h)), trivial⟩
    rw [snCompareRx_eq h.space h.rxNextHighest_sn h.rxTimerTrigger_sn h.rxNextReassembly_sn] at h1
    rw [snCompareRx_eq h.space h.rxNextHighest_sn h.rxTimerTrigger_sn h.rxNextHighest_sn] at h2
    exact ⟨h, hs, fun _ => ⟨by omega, by omega⟩⟩
  · have heq : e.updateReassemblyTimer =
        { e with tReassemblyStart := 0 }.startReassembly
          ((e.rxNextReassembly + 1) % e.snModulus) := by
      unfold updateReassemblyTimer stopReassembly
      by_cases h0 : e.tReassemblyStart = 0
      · have hsame : { e with tReassemblyStart := 0 } = e := by rw [← h0]
        rw [hsame]
        simp [h0]
      · have hst : e.stopsReassembly := by
          by_contra hno
          exact hrun ⟨h0, hno⟩
        simp [h0, hst]
    rw [heq]
    refine rxInv_startReassembly (e := { e with tReassemblyStart := 0 })
      ⟨h.space, h.rxNextHighest_sn, h.rxNextReassembly_sn, h.rxTimerTrigger_sn,
        h.rxNextReassembly_le, h.list⟩ ⟨hs.stored_lt, hs.not_full⟩ (fun h0 => absurd rfl h0) ?_
    show dist e.snModulus e.rxBase _ = _
    rw [dist_emod_right]
    exact h.rxDist_succ

/-- `reception_actions` after storing a segment. -/
theorem rxInv_receptionActions (h : e.RxInv) (hp : e.RxAccepted pdu) :
    ((e.storePdu pdu).receptionActions pdu.sn).RxInv := by
  obtain ⟨h₁, -⟩ := rxCore_store h.core hp
  have ho₁ := rxOthersSettled_store h.core h.settled hp
  have hsn := hp.segment.sn_range
  have hcmp : (e.storePdu pdu).snCompareRx pdu.sn (e.storePdu pdu).rxNextHighest ≥ 0 ↔
      e.windowSize ≤ e.rxDist pdu.sn := by
    rw [snCompareRx_eq (e := e.storePdu pdu) h₁.space h₁.rxNextHighest_sn hsn h₁.rxNextHighest_sn,
      rxDist_rxNextHighest h₁.space]
    show e.rxDist pdu.sn - e.windowSize ≥ 0 ↔ _
    omega
  unfold receptionActions
  split_ifs with hx
  · obtain ⟨h₂, hs₂⟩ := rxCore_receiveFull h₁ ho₁ hx
    exact rxInv_updateReassemblyTimer h₂ hs₂
  · unfold receivePart
    split_ifs with hge
    · obtain ⟨h₂, hs₂⟩ := rxCore_slideWindow h₁ ho₁ hsn (hcmp.1 hge) hx
      exact rxInv_updateReassemblyTimer h₂ hs₂
    · refine rxInv_updateReassemblyTimer h₁ ⟨fun p hpl => ?_, fun sn => ?_⟩
      · by_cases hpx : p.sn = pdu.sn
        · rw [hcmp, not_le] at hge
          exact hpx ▸ hge
        · exact ho₁.stored_lt p hpl hpx
      · by_cases hsx : sn = pdu.sn
        · exact hsx ▸ hx
        · exact ho₁.not_full sn hsx

/-- What expiry of t-Reassembly leaves of the list : the SNs from RX_Next_Reassembly on. -/
theorem rxList_expireReassembly (h : e.RxInv) (hrun : e.tReassemblyStart ≠ 0) :
    e.expireReassembly.rxList = e.rxList.filter fun p =>
      e.rxDist (e.skipDelivered e.rxTimerTrigger) ≤ e.rxDist p.sn := by
  obtain ⟨hsn, -⟩ := h.core.skipDelivered_spec h.settled.stored_lt h.core.rxTimerTrigger_sn
    (h.trigger hrun).2
  have hcmp : ∀ p ∈ e.rxList, decide (e.snCompareRx p.sn (e.skipDelivered e.rxTimerTrigger) < 0) =
      !decide (e.rxDist (e.skipDelivered e.rxTimerTrigger) ≤ e.rxDist p.sn) := by
    intro p hp
    rw [← decide_not, decide_eq_decide, snCompareRx_eq h.core.space h.core.rxNextHighest_sn
      (h.core.list.segment p hp).sn_range hsn]
    omega
  show e.rxList.dropWhile
    (fun p => decide (e.snCompareRx p.sn (e.skipDelivered e.rxTimerTrigger) < 0)) = _
  rw [dropWhile_eq_filter]
  · exact List.filter_congr fun p hp => by rw [hcmp p hp, Bool.not_not]
  · refine h.core.list.sorted.imp_of_mem fun {p q} hp hq hpq => ?_
    have hle : e.rxDist p.sn ≤ e.rxDist q.sn := hpq.dist_le
    rw [hcmp p hp, hcmp q hq, Bool.not_eq_true', Bool.not_eq_true', decide_eq_false_iff_not,
      decide_eq_false_iff_not]
    omega

theorem rxInv_checkTReassembly (h : e.RxInv) : e.checkTReassembly.RxInv := by
  unfold checkTReassembly
  split_ifs with hexp
  · exact h
  · rw [not_or] at hexp
    obtain ⟨hsn, -, -, hle, -⟩ := h.core.skipDelivered_spec h.settled.stored_lt
      h.core.rxTimerTrigger_sn (h.trigger hexp.1).2
    have hlist := rxList_expireReassembly h hexp.1
    obtain ⟨hfl, hof⟩ := h.core.list.filter
      (q := fun s => decide (e.rxDist (e.skipDelivered e.rxTimerTrigger) ≤ e.rxDist s))
    rw [← hlist] at hfl hof
    have hcore : e.expireReassembly.RxCore := ⟨h.core.space, h.core.rxNextHighest_sn, hsn,
      h.core.rxTimerTrigger_sn, hle, hfl⟩
    have hs : e.expireReassembly.RxSettled := by
      refine ⟨fun p hp => ?_, fun sn => ?_⟩
      · rw [hlist] at hp
        exact h.settled.stored_lt p (List.mem_of_mem_filter hp)
      · have hseg := hof sn
        split_ifs at hseg
        · rw [sduFull_congr hseg]
          exact h.settled.not_full sn
        · exact not_sduFull_of_nil hseg
    exact rxInv_startReassembly hcore hs (fun h0 => absurd rfl h0) hcore.rxDist_succ

/-! ## Runs -/

/-- A decoded segment is one of the SN space, and not a whole SDU. -/
theorem rxAccepted_decodeSegment (hM : e.snModulus = 2 ^ e.snFieldLength) {d : NrRlcPduDecoder}
    {buffer : List UInt8} {bs : List Bool} {isFirst isLast : Bool} (hd : d.Reads buffer bs)
    (hwhole : ¬(isFirst && isLast)) (hp : e.decodeSegment isFirst isLast d = some pdu) :
    e.RxAccepted pdu := by
  simp only [decodeSegment, Option.bind_eq_bind, Option.bind_eq_some_iff, Prod.exists] at hp
  obtain ⟨r, d₁, hr, sn, d₂, hsn, so, d₃, hso, hp⟩ := hp
  obtain ⟨-, bs₁, hd₁⟩ := NrRlcPduDecoder.getBitsIf_eq_some hd hr
  have hsnlt := NrRlcPduDecoder.getBits_lt hd₁ hsn
  split_ifs at hp with h1 h2
  obtain rfl := Option.some.inj hp
  have hsnM : (sn : Int) < e.snModulus := by
    rw [hM]
    exact_mod_cast hsnlt
  refine ⟨⟨⟨Int.natCast_nonneg _, hsnM⟩, Int.natCast_nonneg _, Int.natCast_nonneg _, ?_⟩, rfl, ?_⟩
  · intro data hdata
    obtain rfl := Option.some.inj hdata
    simp only [nrRlcNewPdu, List.length_drop, true_and]
    omega
  · intro hlast
    have hfirst : isFirst = false := by
      simp only [nrRlcNewPdu] at hlast
      simpa [hlast] using hwhole
    simp only [hfirst, Bool.not_false, true_and] at h1
    simp only [nrRlcNewPdu]
    omega

theorem rxInv_recvPdu (h : e.RxInv) (buffer : List UInt8) : (e.recvPdu buffer).RxInv := by
  unfold recvPdu
  cases hsi : (NrRlcPduDecoder.init buffer).getBits 2 with
  | none => exact h
  | some r =>
    obtain ⟨-, -, hd⟩ := NrRlcPduDecoder.getBits_eq_some (NrRlcPduDecoder.reads_init buffer) hsi
    simp only
    split_ifs with hwhole hlen
    · exact h
    · exact ⟨⟨h.core.space, h.core.rxNextHighest_sn, h.core.rxNextReassembly_sn,
        h.core.rxTimerTrigger_sn, h.core.rxNextReassembly_le, h.core.list⟩,
        ⟨h.settled.stored_lt, h.settled.not_full⟩, h.trigger⟩
    · cases hp : e.decodeSegment (!r.1.testBit 1) (!r.1.testBit 0) r.2 with
      | none => exact h
      | some pdu =>
        simp only [recvSegment]
        split_ifs
        · exact rxInv_receptionActions h
            (rxAccepted_decodeSegment h.core.space.modulus_eq hd hwhole hp)
        · exact h

/-- What the invariant reads. -/
structure RxView where
  snFieldLength : Nat
  snModulus : Int
  windowSize : Int
  rxNextHighest : Int
  rxNextReassembly : Int
  rxTimerTrigger : Int
  tReassemblyStart : UInt64
  rxList : List NrRlcPdu
  rxSize : Int

/-- What the invariant reads of `e`. -/
def rxView (e : NrRlcEntityUm) : RxView :=
  { snFieldLength := e.snFieldLength
    snModulus := e.snModulus
    windowSize := e.windowSize
    rxNextHighest := e.rxNextHighest
    rxNextReassembly := e.rxNextReassembly
    rxTimerTrigger := e.rxTimerTrigger
    tReassemblyStart := e.tReassemblyStart
    rxList := e.rxList
    rxSize := e.rxSize }

theorem RxInv.congr {e' : NrRlcEntityUm} (heq : e'.rxView = e.rxView) (h : e.RxInv) : e'.RxInv := by
  obtain ⟨⟨h1, h2, h3, h4, h5, h6⟩, ⟨h7, h8⟩, h9⟩ := h
  simp only [rxView, RxView.mk.injEq] at heq
  obtain ⟨a1, a2, a3, a4, a5, a6, a7, a8, -⟩ := heq
  simp only [RxTriggerInRange, rxDist, rxBase] at *
  refine ⟨⟨?_, ?_, ?_, ?_, ?_, ?_⟩, ⟨?_, ?_⟩, ?_⟩ <;>
    simp only [RxTriggerInRange, rxDist, rxBase, a1, a2, a3, a4, a5, a6, a7, a8] <;> assumption

/-- The transmitting functions do not touch the receiver. -/
theorem rxView_recvSdu {buffer : List UInt8} {sduId : Int} {e' : NrRlcEntityUm}
    (h : e.recvSdu buffer sduId = some e') : e'.rxView = e.rxView := by
  have hlog : e.logRejected.rxView = e.rxView := by
    unfold logRejected
    split_ifs <;> rfl
  unfold recvSdu at h
  split_ifs at h with h1 h2
  · obtain rfl := Option.some.inj h
    exact hlog
  · obtain ⟨r, -, rfl⟩ := Option.map_eq_some_iff.1 h
    exact hlog

theorem rxView_generatePdu (size : Int) : (e.generatePdu size).1.rxView = e.rxView := by
  unfold generatePdu
  split
  · rfl
  · simp only
    split_ifs <;> rfl

theorem rxView_discardSdu (sduId : Int) : (e.discardSdu sduId).rxView = e.rxView := by
  unfold discardSdu
  split
  · rfl
  · simp only
    split_ifs <;> rfl

theorem rxInv_clearEntity (hs : SnSpace e.snFieldLength e.snModulus e.windowSize) :
    e.clearEntity.RxInv := by
  have hM := hs.modulus_pos
  have hnh : e.clearEntity.rxDist 0 = e.windowSize :=
    rxDist_rxNextHighest (e := e.clearEntity) hs
  refine ⟨⟨hs, ⟨le_rfl, hM⟩, ⟨le_rfl, hM⟩, ⟨le_rfl, hM⟩, hnh.le, .nil⟩,
    ⟨?_, fun sn => ?_⟩, fun h0 => absurd rfl h0⟩
  · simp [clearEntity]
  · simp [clearEntity, sduFull, segmentsOf]

theorem rxInv_step {op : UmOp} {e' : NrRlcEntityUm} (h : e.RxInv) (hstep : umStep e op = some e') :
    e'.RxInv := by
  cases op with
  | recvSdu buffer sduId => exact h.congr (rxView_recvSdu hstep)
  | recvPdu buffer => exact Option.some.inj hstep ▸ rxInv_recvPdu h buffer
  | generatePdu size => exact Option.some.inj hstep ▸ h.congr (rxView_generatePdu size)
  | setTime now =>
    obtain rfl := Option.some.inj hstep
    exact rxInv_checkTReassembly (RxInv.congr (e := e) rfl h)
  | discardSdu sduId => exact Option.some.inj hstep ▸ h.congr (rxView_discardSdu sduId)
  | reestablishment => exact Option.some.inj hstep ▸ rxInv_clearEntity h.core.space

theorem rxInv_new (c : UmConfig) : (newNrRlcEntityUm c).RxInv :=
  rxInv_clearEntity (e := newNrRlcEntityUm c) ⟨by
    rcases c.snFieldLength_valid with h | h
    · exact .inl h
    · exact .inr (.inl h), rfl, rfl⟩

/-- The receiver is well formed after any sequence of calls. -/
theorem rxInv_of_reach {c : UmConfig} (h : UmReach c e) : e.RxInv :=
  Reach.invariant h (rxInv_new c) fun _ _ _ hi _ hs => rxInv_step hi hs

end NrRlcEntityUm

end NrStack
