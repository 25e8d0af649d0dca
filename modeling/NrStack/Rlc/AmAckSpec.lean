import NrStack.Rlc.AmTxRun

/-!
# What a STATUS PDU has to do

`AckSpec` says where each segment of the wait list and of the retransmit list has to be
after a STATUS PDU. The verdict of the walk agrees with it when the NACKs are in order, so
that it holds of the code exactly when the retransmit list is not spliced.
-/

namespace NrStack

/-- The NACK overlaps the segment. -/
def NackPiece.Overlaps (n : NackPiece) (g : NrRlcSduSegment) : Prop :=
  g.sdu.sn = n.sn ∧ soOverlap n.soStart n.soEnd g.so (g.so + g.size - 1)

instance (n : NackPiece) (g : NrRlcSduSegment) : Decidable (n.Overlaps g) :=
  inferInstanceAs (Decidable (_ ∧ _))

/-- The NACKs are not empty, and each one is after those before it. -/
structure ControlPdu.WellFormed (e : NrRlcEntityAm) (pdu : ControlPdu) : Prop where
  range : ∀ n ∈ pdu.pieces e.snModulus, n.soEnd = -1 ∨ n.soStart ≤ n.soEnd
  increasing : (pdu.pieces e.snModulus).Pairwise fun prev cur => ¬e.badNackOrder prev cur

instance (e : NrRlcEntityAm) (pdu : ControlPdu) : Decidable (pdu.WellFormed e) :=
  decidable_of_iff (_ ∧ _) ⟨fun h => ⟨h.1, h.2⟩, fun h => ⟨h.range, h.increasing⟩⟩

namespace NrRlcEntityAm

variable {e e' : NrRlcEntityAm} {ackSn : Int} {n m : NackPiece} {ps : List NackPiece}
  {g : NrRlcSduSegment} {pdu : ControlPdu}

/-! ## The verdict -/

theorem ackVerdict_eq_nacked_iff : e.ackVerdict ackSn n g = .nacked ↔ n.Overlaps g := by
  unfold ackVerdict
  split_ifs with h <;> simp_all [NackPiece.Overlaps]

/-- A NACK that a segment is neither in nor after is before none that the segment is in. -/
theorem not_overlaps_of_increasing (hn : IsSn e.snModulus e.txNextAck)
    (hg : IsSn e.snModulus g.sdu.sn) (hm : IsSn e.snModulus m.sn) (hnn : IsSn e.snModulus n.sn)
    (hrange : m.soEnd = -1 ∨ m.soStart ≤ m.soEnd) (hlt : ¬e.badNackOrder m n)
    (hno : ¬m.Overlaps g) (hl : e.ackVerdict ackSn m g ≠ .later) : ¬n.Overlaps g := by
  rintro ⟨hsn, hover⟩
  rw [ne_eq, ackVerdict_eq_later_iff, not_and, snCompareTx_eq hn hg hm] at hl
  have hafter := hl hno
  rw [badNackOrder, snCompareTx_eq hn hnn hm] at hlt
  have hdist : e.txDist g.sdu.sn = e.txDist n.sn := by rw [hsn]
  have hsame : g.sdu.sn = m.sn := dist_inj (b := e.txNextAck) hg hm (by
    show e.txDist _ = e.txDist _
    omega)
  have hno' : ¬soOverlap m.soStart m.soEnd g.so (g.so + g.size - 1) = true := fun h =>
    hno ⟨hsame, h⟩
  have hdist' : e.txDist g.sdu.sn = e.txDist m.sn := by rw [hsame]
  unfold soOverlap at hover hno'
  split_ifs at hover hno' <;> rw [decide_eq_true_iff] at hover hno' <;> omega

/-- An acknowledged segment is below ACK_SN, and no NACK overlaps it. -/
theorem finalVerdict_acked (hg : IsSn e.snModulus g.sdu.sn) : ∀ {ps : List NackPiece},
    e.ValidPieces ackSn ps → (∀ n ∈ ps, n.soEnd = -1 ∨ n.soStart ≤ n.soEnd) →
      (ps.Pairwise fun prev cur => ¬e.badNackOrder prev cur) →
        e.finalVerdict ackSn ps g = .acked →
          e.txDist g.sdu.sn < e.txDist ackSn ∧ ∀ n ∈ ps, ¬n.Overlaps g
  | [], hv, _, _, h => by
    unfold finalVerdict at h
    split_ifs at h with hlt
    rw [snCompareTx_eq hv.txNextAck_sn hg hv.ackSn_sn] at hlt
    exact ⟨by omega, by simp⟩
  | n :: ps, hv, hr, hp, h => by
    obtain ⟨hlt, hp'⟩ := List.pairwise_cons.1 hp
    unfold finalVerdict at h
    split_ifs at h with hl
    · obtain ⟨hack, hall⟩ :=
        finalVerdict_acked hg hv.of_cons (fun n hn => hr n (by simp [hn])) hp' h
      refine ⟨hack, fun m hm => ?_⟩
      rcases List.mem_cons.1 hm with rfl | hm
      · exact (ackVerdict_eq_later_iff.1 hl).1
      · exact hall m hm
    · have hno : ¬n.Overlaps g := fun hover => by
        rw [ackVerdict_eq_nacked_iff.2 hover] at h
        cases h
      have hack : e.snCompareTx g.sdu.sn ackSn < 0 := by
        unfold ackVerdict at h
        split_ifs at h
        assumption
      rw [snCompareTx_eq hv.txNextAck_sn hg hv.ackSn_sn] at hack
      refine ⟨by omega, fun m hm => ?_⟩
      rcases List.mem_cons.1 hm with rfl | hm
      · exact hno
      · exact not_overlaps_of_increasing hv.txNextAck_sn hg (hv.piece_sn n (by simp))
          (hv.piece_sn m (by simp [hm])) (hr n (by simp)) (hlt m hm) hno hl

/-- A segment that a NACK overlaps is nacked. -/
theorem finalVerdict_eq_nacked (hg : IsSn e.snModulus g.sdu.sn) : ∀ {ps : List NackPiece},
    e.ValidPieces ackSn ps → (∀ n ∈ ps, n.soEnd = -1 ∨ n.soStart ≤ n.soEnd) →
      (ps.Pairwise fun prev cur => ¬e.badNackOrder prev cur) → n ∈ ps → n.Overlaps g →
        e.finalVerdict ackSn ps g = .nacked
  | m :: ps, hv, hr, hp, hn, hover => by
    obtain ⟨hlt, hp'⟩ := List.pairwise_cons.1 hp
    by_cases hnow : m.Overlaps g
    · have hnacked : e.ackVerdict ackSn m g = .nacked := ackVerdict_eq_nacked_iff.2 hnow
      rw [finalVerdict_of_ne_later (by simp [hnacked]), hnacked]
    · rcases List.mem_cons.1 hn with rfl | hn
      · exact absurd hover hnow
      · have hl : e.ackVerdict ackSn m g = .later := by
          by_contra hne
          exact not_overlaps_of_increasing hv.txNextAck_sn hg (hv.piece_sn m (by simp))
            (hv.piece_sn n (by simp [hn])) (hr m (by simp)) (hlt n hn) hnow hne hover
        rw [finalVerdict_of_later hl]
        exact finalVerdict_eq_nacked hg hv.of_cons (fun n hn => hr n (by simp [hn])) hp' hn hover

/-- Only a NACK that overlaps it makes a segment nacked. -/
theorem exists_overlaps_of_finalVerdict : ∀ {ps : List NackPiece},
    e.finalVerdict ackSn ps g = .nacked → ∃ n ∈ ps, n.Overlaps g
  | [], h => by
    unfold finalVerdict at h
    split_ifs at h
  | n :: ps, h => by
    unfold finalVerdict at h
    split_ifs at h with hl
    · obtain ⟨m, hm, hover⟩ := exists_overlaps_of_finalVerdict h
      exact ⟨m, by simp [hm], hover⟩
    · exact ⟨n, by simp, ackVerdict_eq_nacked_iff.1 h⟩

/-! ## The specification -/

/-- The SN of the segment is below ACK_SN, from TX_Next_Ack on. -/
def Acknowledges (e : NrRlcEntityAm) (pdu : ControlPdu) (g : NrRlcSduSegment) : Prop :=
  e.txDist g.sdu.sn < e.txDist pdu.ackSn

/-- No NACK of the PDU overlaps the segment. -/
def NotNacked (e : NrRlcEntityAm) (pdu : ControlPdu) (g : NrRlcSduSegment) : Prop :=
  ∀ n ∈ pdu.pieces e.snModulus, ¬n.Overlaps g

/-- What a STATUS PDU has to do to the segments of `e`, which becomes `e'`. -/
structure AckSpec (e : NrRlcEntityAm) (pdu : ControlPdu) (e' : NrRlcEntityAm) : Prop where
  /-- Each segment is in exactly one of the two lists and of the freed segments. -/
  partition : ∃ freed, e'.freed = e.freed ++ freed ∧
    (e'.waitList ++ e'.retransmitList ++ freed).Perm (e.waitList ++ e.retransmitList) ∧
    ((e'.waitList ++ e'.retransmitList ++ freed).map (·.addr)).Nodup ∧
    ∀ g ∈ freed, e.Acknowledges pdu g ∧ e.NotNacked pdu g
  nacked : ∀ g ∈ e.waitList ++ e.retransmitList, ¬e.NotNacked pdu g → g ∈ e'.retransmitList
  wait_stays : ∀ g ∈ e.waitList, e.NotNacked pdu g → ¬e.Acknowledges pdu g → g ∈ e'.waitList
  retransmit_stays : ∀ g ∈ e.retransmitList, e.NotNacked pdu g → ¬e.Acknowledges pdu g →
    g ∈ e'.retransmitList
  wait_sorted : TxSorted e'.snModulus e'.txNextAck e'.waitList
  retransmit_sorted : TxSorted e'.snModulus e'.txNextAck e'.retransmitList

/-- The verdict of a well formed STATUS PDU in the words of the specification. -/
theorem pduVerdict_spec (hv : e.ValidPieces pdu.ackSn (pdu.pieces e.snModulus))
    (hw : pdu.WellFormed e) (hg : IsSn e.snModulus g.sdu.sn) :
    (e.pduVerdict pdu g = .acked → e.Acknowledges pdu g ∧ e.NotNacked pdu g) ∧
      (¬e.NotNacked pdu g → e.pduVerdict pdu g = .nacked) ∧
      (e.NotNacked pdu g → ¬e.Acknowledges pdu g →
        e.pduVerdict pdu g = .skipped ∨ e.pduVerdict pdu g = .later) := by
  have hacked : e.pduVerdict pdu g = .acked → e.Acknowledges pdu g ∧ e.NotNacked pdu g :=
    finalVerdict_acked hg hv hw.range hw.increasing
  refine ⟨hacked, fun hno => ?_, fun hno hna => ?_⟩
  · simp only [NotNacked, not_forall, not_not] at hno
    obtain ⟨n, hn, hover⟩ := hno
    exact finalVerdict_eq_nacked hg hv hw.range hw.increasing hn hover
  · cases hF : e.pduVerdict pdu g with
    | nacked =>
      obtain ⟨n, hn, hover⟩ := exists_overlaps_of_finalVerdict hF
      exact absurd hover (hno n hn)
    | later => exact .inr rfl
    | acked => exact absurd (hacked hF).1 hna
    | beyond => exact absurd hF (finalVerdict_ne_beyond hg hv)
    | skipped => exact .inl rfl

/-- A valid, well formed STATUS PDU does what it has to exactly if the retransmit list is
not spliced. -/
theorem ackSpec_applyControlPdu_iff (h : TxInv [] e)
    (hv : e.ValidPieces pdu.ackSn (pdu.pieces e.snModulus)) (hw : pdu.WellFormed e) :
    e.AckSpec pdu (e.applyControlPdu pdu) ↔ ¬e.Splices pdu := by
  obtain ⟨s, freed, -, -, hr, hlost⟩ :=
    scanControlPdu_spec h.lists hv (ScanMem.scanRule e pdu.ackSn) h.scanMem
  have hinv := h.applyControlPdu hv
  have hverdict : ∀ g ∈ e.waitList ++ e.retransmitList, _ := fun g hg =>
    pduVerdict_spec hv hw (h.sn_range g hg)
  have hperm := hr.perm (pduVerdict_ne_beyond h hv)
  constructor
  · rintro ⟨⟨freed', hfreed', hperm', -⟩, -⟩ hs
    -- the lost segments are missing in the partition
    have heq : freed' = freed := List.append_cancel_left (hfreed'.symm.trans hr.freed_eq)
    have hlen := hperm.length_eq
    have hlen' := hperm'.length_eq
    have hpos := List.length_pos_of_ne_nil (hlost.2 hs)
    rw [heq] at hlen'
    have hlists : (e.applyControlPdu pdu).waitList = (e.scanControlPdu pdu).toEntity.waitList ∧
      (e.applyControlPdu pdu).retransmitList = (e.scanControlPdu pdu).toEntity.retransmitList :=
        ⟨rfl, rfl⟩
    rw [hlists.1, hlists.2] at hlen'
    simp only [List.length_append] at hlen hlen'
    omega
  · intro hs
    have hnil : s.newRetransmitNext = [] := by
      by_contra hne
      exact hs (hlost.1 hne)
    rw [hnil, List.append_nil] at hperm
    rw [hnil] at hr
    obtain ⟨kept, hkept, -, hfreed⟩ := hr.retransmit_perm
    rw [List.append_nil] at hkept
    have hnodup : ((e.waitList ++ e.retransmitList).map (·.addr)).Nodup :=
      h.addr_nodup_of_sublist (List.sublist_append_right _ _)
    refine ⟨⟨freed, hr.freed_eq, hperm, (hperm.map _).nodup_iff.2 hnodup, fun g hg => ?_⟩,
      fun g hg hno => ?_, fun g hg hno hna => ?_, fun g hg hno hna => ?_,
      hinv.lists.wait_sorted, hinv.lists.retransmit_sorted⟩
    · obtain ⟨hg, hF⟩ := List.mem_filter.1 (hfreed.mem_iff.1 hg)
      rw [← hkept] at hg
      exact (hverdict g hg).1 (of_decide_eq_true hF)
    · have hF := (hverdict g hg).2.1 hno
      rcases List.mem_append.1 hg with hg | hg
      · exact hr.mem_retransmitList (.inl ⟨hg, hF⟩)
      · exact hr.mem_retransmitList (.inr ⟨rfl, hg, by simp [hF]⟩)
    · have hF := (hverdict g (by simp [hg])).2.2 hno hna
      have hwait := hr.wait_eq
      show g ∈ (e.scanControlPdu pdu).toEntity.waitList
      rw [hwait]
      exact List.mem_filter.2 ⟨hg, by simpa using hF⟩
    · have hF := (hverdict g (by simp [hg])).2.2 hno hna
      refine hr.mem_retransmitList (.inr ⟨rfl, hg, ?_⟩)
      rcases hF with hF | hF <;> simp [hF]

/-- In every state of a run in which SNs in use are not given again : a well formed STATUS
PDU that is accepted does what it has to exactly if the retransmit list is not spliced. -/
theorem ackSpec_recvPdu_iff {c : AmConfig} (h : Reach amStep SnFree (newNrRlcEntityAm c) e)
    {buffer : List UInt8} (hp : e.receivedControlPdu buffer = some pdu) (hw : pdu.WellFormed e) :
    e.AckSpec pdu (e.recvPdu buffer) ↔ ¬e.Splices pdu := by
  have hinv := txInv_of_reach h
  rw [recvPdu_eq_applyControlPdu hp]
  exact ackSpec_applyControlPdu_iff hinv (hinv.validPieces hp) hw

/-- The two SDUs of an entity are both sent, and the first one is NACKed. -/
theorem ackSpec_recvPdu_iff_nack :
    let c : AmConfig := ⟨100, 100, 45, 35, 0, -1, -1, 8, 12, .inl rfl⟩
    let ops : List AmOp := [.recvSdu [1] 0, .recvSdu [2] 1, .generatePdu 100, .generatePdu 100]
    let buffer : List UInt8 := [0, 2, 0x80, 0, 0]
    ∃ e, ops.foldlM amStep (newNrRlcEntityAm c) = some e ∧
      ∃ pdu, e.receivedControlPdu buffer = some pdu ∧ pdu.WellFormed e ∧
        (e.AckSpec pdu (e.recvPdu buffer) ↔ ¬e.Splices pdu) := by
  intro c ops buffer
  have hrun : (ops.foldlM (fun e op => if SnFree e op then amStep e op else none)
      (newNrRlcEntityAm c)).any fun (e : NrRlcEntityAm) =>
        (e.receivedControlPdu buffer).any fun pdu => decide (pdu.WellFormed e) := by
    decide +kernel
  obtain ⟨e, he, hany⟩ := (Option.any_eq_true _ _).1 hrun
  obtain ⟨pdu, hp, hw⟩ := (Option.any_eq_true _ _).1 hany
  refine ⟨e, foldlM_of_checked he, pdu, hp, of_decide_eq_true hw, ?_⟩
  exact ackSpec_recvPdu_iff (reach_of_checked he) hp (of_decide_eq_true hw)

/-- The two segments of an SDU are in the retransmit list when a STATUS PDU comes that has
ACK_SN 0 and NACKs the second one : both are lost. -/
theorem ackSpec_fails : ¬∀ (c : AmConfig) (e : NrRlcEntityAm) (buffer : List UInt8)
    (pdu : ControlPdu), AmReach c e → e.receivedControlPdu buffer = some pdu →
      pdu.WellFormed e → e.AckSpec pdu (e.recvPdu buffer) := by
  intro h
  let c : AmConfig := ⟨100, 100, 45, 35, 0, -1, -1, 8, 12, .inl rfl⟩
  let ops : List AmOp := [.recvSdu [1, 2] 0, .generatePdu 3, .generatePdu 100,
    .recvPdu [0, 1, 0x80, 0, 0]]
  let buffer : List UInt8 := [0, 0, 0x80, 0, 4, 0, 1, 0, 1]
  have hrun : (ops.foldlM amStep (newNrRlcEntityAm c)).any fun e =>
      (e.receivedControlPdu buffer).any fun pdu => decide (pdu.WellFormed e ∧
        (e.waitList ++ e.retransmitList).length = 2 ∧ (e.recvPdu buffer).waitList = [] ∧
          (e.recvPdu buffer).retransmitList = [] ∧ (e.recvPdu buffer).freed = e.freed) := by
    decide +kernel
  obtain ⟨e, he, hany⟩ := (Option.any_eq_true _ _).1 hrun
  obtain ⟨pdu, hp, hbad⟩ := (Option.any_eq_true _ _).1 hany
  obtain ⟨hw, htwo, hwait, hret, hfreed⟩ := of_decide_eq_true hbad
  obtain ⟨freed, heq, hperm, -⟩ := (h c e buffer pdu (reach_foldlM he) hp hw).partition
  have hnil : freed = [] := by simpa [hfreed] using heq
  have hlen := hperm.length_eq
  rw [hwait, hret, hnil, htwo] at hlen
  simp at hlen

end NrRlcEntityAm

end NrStack
