import NrStack.Rlc.AmTxRun

/-!
# AM byte accounting at transmission

`TxCounts` : the buffer status of the two lists, `tx_size` and the end pointers are what
the lists and the SDUs in memory say. A STATUS PDU that splices the retransmit list
breaks it at once : the segments that are lost are still counted in `bstatus.retx_size`.
-/

namespace NrStack

namespace NrRlcEntityAm

variable {e e' : NrRlcEntityAm}

/-- The end pointer of a list, when it is not null, points at its last segment. -/
def EndOk (listEnd : Option Nat) (l : List NrRlcSduSegment) : Prop :=
  ∀ a ∈ listEnd, l.getLast?.map (·.addr) = some a

instance (listEnd : Option Nat) (l : List NrRlcSduSegment) : Decidable (EndOk listEnd l) :=
  inferInstanceAs (Decidable (∀ a ∈ listEnd, _))

/-- The counters and the end pointers of the sender. -/
structure TxCounts (e : NrRlcEntityAm) : Prop where
  bstatus_tx : e.bstatusTxSize = (e.txList.map fun g => e.computePduHeaderSize g + g.size).sum
  bstatus_retx :
    e.bstatusRetxSize = (e.retransmitList.map fun g => e.computePduHeaderSize g + g.size).sum
  tx_size : e.txSize = (e.sdus.map (·.sdu.size)).sum
  tx_end : EndOk e.txEnd e.txList
  wait_end : EndOk e.waitEnd e.waitList

theorem TxExact.txCounts (hx : TxExact [] e) (h : TxInv [] e) : e.TxCounts :=
  ⟨hx.bstatus_tx, hx.bstatus_retx, hx.tx_size, fun _ ha => h.tx_end ▸ ha,
    fun _ ha => h.wait_end ▸ ha⟩

/-- The buffer status of a list that is not empty. -/
theorem sum_pduSize_pos {l : List NrRlcSduSegment} (hok : ∀ g ∈ l, SegmentOk g) (hl : l ≠ []) :
    0 < (l.map e.pduSize).sum := by
  have hpos : ∀ g ∈ l, 0 < e.pduSize g := fun g hg => by
    have := (hok g hg).size_nonneg
    have := e.computePduHeaderSize_pos g
    unfold pduSize
    omega
  refine List.sum_pos _ (fun x hx => ?_) (by simpa using hl)
  obtain ⟨g, hg, rfl⟩ := List.mem_map.1 hx
  exact hpos g hg

/-- A splice breaks the buffer status of the retransmit list. -/
theorem not_txCounts_of_splices (h : TxInv [] e) (hx : TxExact [] e) {pdu : ControlPdu}
    (hv : e.ValidPieces pdu.ackSn (pdu.pieces e.snModulus)) (hs : e.Splices pdu) :
    ¬(e.applyControlPdu pdu).TxCounts := by
  obtain ⟨s, freed, ⟨hm, hexact⟩, heq, -, hlost⟩ :=
    scanControlPdu_spec h.lists hv (ScanExact.scanRule e pdu.ackSn) ⟨h.scanMem, hx.scanExact⟩
  have hlost_pos : 0 < (s.newRetransmitNext.map e.pduSize).sum :=
    sum_pduSize_pos (fun g hg => hm.pool.ok g (by
      simp [AckScan.segments, AckScan.retransmitPieces, hg])) (hlost.2 hs)
  intro hc
  have hretx := hc.bstatus_retx
  unfold NrRlcEntityAm.applyControlPdu at hretx
  rw [heq] at hretx
  have hretx' : s.entity.bstatusRetxSize =
      ((s.newRetransmit ++ s.curRetransmit).map s.entity.pduSize).sum := hretx
  rw [pduSize_of_scanFrame hm.frame, hexact.bstatus_retx, AckScan.retransmitPieces] at hretx'
  simp only [List.map_append, List.sum_append] at hretx'
  omega

/-- On a run in which no SN is given that is in use, the counters are right throughout
exactly when no STATUS PDU splices the retransmit list. -/
theorem txCounts_allStates_iff (c : AmConfig) (ops : List AmOp)
    (hfree : AllSteps amStep SnFree (newNrRlcEntityAm c) ops) :
    AllStates amStep TxCounts (newNrRlcEntityAm c) ops ↔
      AllSteps amStep NoSplice (newNrRlcEntityAm c) ops := by
  refine allStates_iff_of_allSteps (Q := fun e => TxInv [] e ∧ TxExact [] e)
    (fun e h => h.2.txCounts h.1) (fun e op e' h hok hs hns => ?_) (fun e op e' h hok hs hno => ?_)
    ops _ ⟨txInv_new c, txExact_new c⟩ hfree
  · have hstep := h.1.step_cases hok hs
    exact ⟨h.1.step hok hstep, h.2.step h.1 hns hstep⟩
  · cases op with
    | recvPdu buffer =>
      obtain ⟨pdu, hp, hsplice⟩ : ∃ pdu, e.receivedControlPdu buffer = some pdu ∧
          e.Splices pdu := by
        simpa [NoSplice] using hno
      rw [← Option.some.inj hs, recvPdu_eq_applyControlPdu hp]
      exact not_txCounts_of_splices h.1 h.2 (h.1.validPieces hp) hsplice
    | _ => exact absurd trivial hno

/-- An SDU in two segments, both NACKed and acknowledged in the end. -/
theorem txCounts_allStates_iff_two_segments :
    let c : AmConfig := ⟨100, 100, 45, 35, 0, -1, -1, 8, 12, .inl rfl⟩
    let ops : List AmOp := [.recvSdu [1, 2] 0, .generatePdu 3, .generatePdu 100,
      .recvPdu [0, 1, 0x80, 0, 0], .generatePdu 3, .generatePdu 100, .recvPdu [0, 1, 0]]
    AllStates amStep TxCounts (newNrRlcEntityAm c) ops ↔
      AllSteps amStep NoSplice (newNrRlcEntityAm c) ops :=
  txCounts_allStates_iff _ _ (allSteps_of_checked (by decide +kernel))

/-- Both segments of an SDU are in the retransmit list when a STATUS PDU comes that has
ACK_SN 0 and NACKs the second one. The list is empty after it, and still counted. -/
theorem txCounts_not_invariant : ¬∀ (c : AmConfig) (e : NrRlcEntityAm), AmReach c e →
    e.TxCounts := by
  intro h
  let c : AmConfig := ⟨100, 100, 45, 35, 0, -1, -1, 8, 12, .inl rfl⟩
  let ops : List AmOp := [.recvSdu [1, 2] 0, .generatePdu 3, .generatePdu 100,
    .recvPdu [0, 1, 0x80, 0, 0], .recvPdu [0, 0, 0x80, 0, 4, 0, 1, 0, 1]]
  have hrun : (ops.foldlM amStep (newNrRlcEntityAm c)).any fun e =>
      decide (e.retransmitList = [] ∧ e.bstatusRetxSize = 8) := by decide +kernel
  obtain ⟨e, he, hbad⟩ := (Option.any_eq_true _ _).1 hrun
  obtain ⟨hlist, hretx⟩ := of_decide_eq_true hbad
  have hcounts := (h c e (reach_foldlM he)).bstatus_retx
  rw [hlist, hretx] at hcounts
  simp at hcounts

end NrRlcEntityAm

end NrStack
