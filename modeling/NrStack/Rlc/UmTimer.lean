import NrStack.Rlc.UmRxInvariant

/-!
# Expiry of t-Reassembly in UM

`HasGap` : RX_Next_Highest is above RX_Next_Reassembly + 1 in the SN space, or equal to it
with a byte of the SDU RX_Next_Reassembly missing before a received one. At expiry the
timer has to be started again exactly if there is a gap.

`check_t_reassembly` tests the second case on the numbers and not in the SN space. With
RX_Next_Reassembly at the last SN the next one is 0, and the test fails (`LastSnPending`).
-/

namespace NrStack

namespace NrRlcEntityUm

variable {e : NrRlcEntityUm}

/-- t-Reassembly runs and has expired. -/
def ReassemblyExpired (e : NrRlcEntityUm) : Prop :=
  e.tReassemblyStart ≠ 0 ∧ e.tReassemblyStart + .ofInt e.tReassembly < e.tCurrent

instance : Decidable e.ReassemblyExpired :=
  inferInstanceAs (Decidable (_ ∧ _))

/-- The gap condition for t-Reassembly. -/
def HasGap (e : NrRlcEntityUm) : Prop :=
  e.rxDist (e.rxNextReassembly + 1) < e.rxDist e.rxNextHighest ∨
    (e.rxDist (e.rxNextReassembly + 1) = e.rxDist e.rxNextHighest ∧
      ∃ p ∈ e.rxList, p.sn = e.rxNextReassembly ∧ ∃ b, 0 ≤ b ∧ b < p.so ∧
        ¬Covered (e.rxList.filter fun q => q.sn = e.rxNextReassembly) b)

/-- After expiry the timer runs again, with RX_Timer_Trigger set to RX_Next_Highest, if and
only if there is a gap; otherwise it is stopped. -/
def RestartsOnGap (e : NrRlcEntityUm) : Prop :=
  (e.checkTReassembly.tReassemblyStart ≠ 0 ∧
      e.checkTReassembly.rxTimerTrigger = e.checkTReassembly.rxNextHighest ↔
    e.checkTReassembly.HasGap) ∧
    (¬e.checkTReassembly.HasGap → e.checkTReassembly.tReassemblyStart = 0)

/-- The SDU that expiry leaves at RX_Next_Reassembly is the last of the SN space, the next
SN is RX_Next_Highest, and a byte of the SDU is missing. -/
def LastSnPending (e : NrRlcEntityUm) : Prop :=
  e.skipDelivered e.rxTimerTrigger = e.snModulus - 1 ∧ e.rxNextHighest = 0 ∧
    sduHasMissingBytes e.rxList (e.snModulus - 1)

instance : Decidable e.LastSnPending :=
  inferInstanceAs (Decidable (_ ∧ _ ∧ _))

theorem checkTReassembly_of_expired (hexp : e.ReassemblyExpired) :
    e.checkTReassembly =
      e.expireReassembly.startReassembly (e.expireReassembly.rxNextReassembly + 1) := by
  obtain ⟨hrun, hlt⟩ := hexp
  unfold checkTReassembly
  rw [if_neg]
  rw [not_or, UInt64.not_le]
  exact ⟨hrun, hlt⟩

/-- Starting the timer does not change what the gap condition reads. -/
theorem hasGap_startReassembly {next : Int} : (e.startReassembly next).HasGap ↔ e.HasGap := by
  unfold startReassembly
  split_ifs <;> rfl

/-- The gap condition as `reception_actions` tests it, with the SN modulus. -/
theorem startsReassembly_iff_hasGap (h : e.RxCore)
    (hd : ¬sduDelivered e.rxList e.rxNextReassembly) :
    e.startsReassembly ((e.rxNextReassembly + 1) % e.snModulus) ↔ e.HasGap := by
  have hsn := h.space.isSn_emod (e.rxNextReassembly + 1)
  have hsame : e.rxDist ((e.rxNextReassembly + 1) % e.snModulus) =
      e.rxDist (e.rxNextReassembly + 1) := dist_emod_right
  have heq : e.rxNextHighest = (e.rxNextReassembly + 1) % e.snModulus ↔
      e.rxDist (e.rxNextReassembly + 1) = e.rxDist e.rxNextHighest := by
    refine ⟨fun heq => ?_, fun hdist => ?_⟩
    · rw [heq, hsame]
    · exact (dist_inj hsn h.rxNextHighest_sn (hsame.trans hdist)).symm
  unfold startsReassembly HasGap
  rw [snCompareRx_eq h.space h.rxNextHighest_sn h.rxNextHighest_sn hsn, hsame, heq,
    h.list.sduHasMissingBytes_iff hd]
  refine or_congr ?_ Iff.rfl
  omega

/-- The test without the modulus misses RX_Next_Highest at the end of the SN space, and only
there. -/
theorem startsReassembly_succ_iff (h : e.RxCore) :
    e.startsReassembly (e.rxNextReassembly + 1) ↔
      e.startsReassembly ((e.rxNextReassembly + 1) % e.snModulus) ∧
        ¬(e.rxNextReassembly = e.snModulus - 1 ∧ e.rxNextHighest = 0 ∧
          sduHasMissingBytes e.rxList (e.snModulus - 1)) := by
  obtain ⟨hr0, hrM⟩ := h.rxNextReassembly_sn
  obtain ⟨hn0, hnM⟩ := h.rxNextHighest_sn
  by_cases hlast : e.rxNextReassembly = e.snModulus - 1
  · have hnext : (e.rxNextReassembly + 1) % e.snModulus = 0 := by
      rw [hlast, sub_add_cancel, Int.emod_self]
    have hne : e.rxNextHighest ≠ e.rxNextReassembly + 1 := by omega
    have hcmp : e.rxNextHighest = 0 → ¬e.snCompareRx e.rxNextHighest 0 > 0 := by
      intro h0
      rw [h0, snCompareRx, sub_self]
      omega
    unfold startsReassembly
    rw [hnext, ← hlast]
    tauto
  · have hnext : (e.rxNextReassembly + 1) % e.snModulus = e.rxNextReassembly + 1 :=
      Int.emod_eq_of_lt (by omega) (by omega)
    rw [hnext, and_iff_left fun hc => hlast hc.1]

/-- At the end of the SN space there is a gap. -/
theorem startsReassembly_of_last (hr : e.rxNextReassembly = e.snModulus - 1)
    (hn : e.rxNextHighest = 0) (hmiss : sduHasMissingBytes e.rxList (e.snModulus - 1)) :
    e.startsReassembly ((e.rxNextReassembly + 1) % e.snModulus) := by
  refine .inr ⟨?_, hr ▸ hmiss⟩
  rw [hn, hr, sub_add_cancel, Int.emod_self]

/-- What is left at expiry : the receiver is well formed, and RX_Next_Reassembly is not
delivered. -/
theorem expireReassembly_spec (h : e.RxInv) (hrun : e.tReassemblyStart ≠ 0) :
    e.expireReassembly.RxCore ∧
      ¬sduDelivered e.expireReassembly.rxList e.expireReassembly.rxNextReassembly ∧
      ∀ sn, e.rxDist (e.skipDelivered e.rxTimerTrigger) ≤ e.rxDist sn →
        segmentsOf e.expireReassembly.rxList sn = segmentsOf e.rxList sn := by
  obtain ⟨hsn, hnot, -, hle, -⟩ := h.core.skipDelivered_spec h.settled.stored_lt
    h.core.rxTimerTrigger_sn (h.trigger hrun).2
  obtain ⟨hfl, hof⟩ := h.core.list.filter
    (q := fun s => decide (e.rxDist (e.skipDelivered e.rxTimerTrigger) ≤ e.rxDist s))
  rw [← rxList_expireReassembly h hrun] at hfl hof
  have hkept : ∀ sn, e.rxDist (e.skipDelivered e.rxTimerTrigger) ≤ e.rxDist sn →
      segmentsOf e.expireReassembly.rxList sn = segmentsOf e.rxList sn := fun sn hge =>
    (hof sn).trans (if_pos (by simpa using hge))
  refine ⟨⟨h.core.space, h.core.rxNextHighest_sn, hsn, h.core.rxTimerTrigger_sn, hle, hfl⟩, ?_,
    hkept⟩
  show ¬sduDelivered e.expireReassembly.rxList (e.skipDelivered e.rxTimerTrigger)
  rw [sduDelivered_congr (hkept _ le_rfl)]
  exact hnot

theorem rxInv_restartsOnGap_iff (h : e.RxInv) (hexp : e.ReassemblyExpired) :
    e.RestartsOnGap ↔ ¬e.LastSnPending := by
  obtain ⟨hcore, hnot, hkept⟩ := expireReassembly_spec h hexp.1
  have hlast : (e.expireReassembly.rxNextReassembly = e.expireReassembly.snModulus - 1 ∧
      e.expireReassembly.rxNextHighest = 0 ∧
        sduHasMissingBytes e.expireReassembly.rxList (e.expireReassembly.snModulus - 1)) ↔
      e.LastSnPending := by
    refine and_congr_right fun hr => and_congr_right fun _ => ?_
    rw [sduHasMissingBytes_congr (hkept (e.expireReassembly.snModulus - 1) (by rw [← hr]; rfl))]
    rfl
  have hgap := startsReassembly_iff_hasGap hcore hnot
  have hcode := startsReassembly_succ_iff hcore
  rw [hlast, hgap] at hcode
  have hclock : e.tCurrent ≠ 0 := by
    intro h0
    have hlt := hexp.2
    rw [h0] at hlt
    exact UInt64.not_lt_zero hlt
  unfold RestartsOnGap
  rw [checkTReassembly_of_expired hexp, hasGap_startReassembly]
  unfold startReassembly
  split_ifs with hstart
  · obtain ⟨hg, hno⟩ := hcode.1 hstart
    exact iff_of_true ⟨iff_of_true ⟨hclock, rfl⟩ hg, fun hng => absurd hg hng⟩ hno
  · -- the timer is stopped, which is right without a gap only
    constructor
    · intro hok hlp
      obtain ⟨hr, hn, hmiss⟩ := hlast.2 hlp
      exact (hok.1.2 (hgap.1 (startsReassembly_of_last hr hn hmiss))).1 rfl
    · intro hno
      have hng : ¬e.expireReassembly.HasGap := fun hg => hstart (hcode.2 ⟨hg, hno⟩)
      exact ⟨iff_of_false (fun hrun => hrun.1 rfl) hng, fun _ => rfl⟩

/-- Whenever t-Reassembly has expired at the time set, it is started again as it has to be,
unless the SDU it waits for is the last one of the SN space. -/
theorem t_reassembly_restart_iff (c : UmConfig) (e : NrRlcEntityUm) (now : UInt64)
    (h : UmReach c e) (hexp : { e with tCurrent := now }.ReassemblyExpired) :
    { e with tCurrent := now }.RestartsOnGap ↔ ¬{ e with tCurrent := now }.LastSnPending :=
  rxInv_restartsOnGap_iff (RxInv.congr (e := e) rfl (rxInv_of_reach h)) hexp

/-- The SDUs 31 and 62 of 64 arrive in part, so that t-Reassembly waits for 32 and is then
started again. -/
theorem t_reassembly_restart_wait : ∃ c e, UmReach c e ∧
    { e with tCurrent := 12 }.ReassemblyExpired ∧ { e with tCurrent := 12 }.RestartsOnGap := by
  let c : UmConfig := ⟨1000, 1000, 10, 6, .inl rfl⟩
  let ops : List UmOp := [.setTime 1, .recvPdu [0x5F, 1], .recvPdu [0x7E, 1]]
  have hrun : (ops.foldlM umStep (newNrRlcEntityUm c)).any fun e =>
      decide ({ e with tCurrent := 12 }.ReassemblyExpired ∧
        ¬{ e with tCurrent := 12 }.LastSnPending) := by decide +kernel
  obtain ⟨e, he, hboth⟩ := (Option.any_eq_true _ _).1 hrun
  obtain ⟨hexp, hno⟩ := of_decide_eq_true hboth
  exact ⟨c, e, reach_foldlM he, hexp,
    (t_reassembly_restart_iff c e 12 (reach_foldlM he) hexp).2 hno⟩

/-- Then a part of SDU 63 arrives, and RX_Next_Highest is 0 : at the next expiry the timer is
not started again. -/
theorem t_reassembly_not_restarted : ¬∀ (c : UmConfig) (e : NrRlcEntityUm) (now : UInt64),
    UmReach c e → { e with tCurrent := now }.ReassemblyExpired →
      { e with tCurrent := now }.RestartsOnGap := by
  intro h
  let c : UmConfig := ⟨1000, 1000, 10, 6, .inl rfl⟩
  let ops : List UmOp := [.setTime 1, .recvPdu [0x5F, 1], .recvPdu [0x7E, 1], .setTime 12,
    .recvPdu [0xFF, 0, 5, 1]]
  have hrun : (ops.foldlM umStep (newNrRlcEntityUm c)).any fun e =>
      decide ({ e with tCurrent := 23 }.ReassemblyExpired ∧
        { e with tCurrent := 23 }.LastSnPending) := by decide +kernel
  obtain ⟨e, he, hboth⟩ := (Option.any_eq_true _ _).1 hrun
  obtain ⟨hexp, hlast⟩ := of_decide_eq_true hboth
  have hinv : { e with tCurrent := 23 }.RxInv :=
    RxInv.congr (e := e) rfl (rxInv_of_reach (reach_foldlM he))
  exact (rxInv_restartsOnGap_iff hinv hexp).1 (h c e 23 (reach_foldlM he) hexp) hlast

end NrRlcEntityUm

end NrStack
