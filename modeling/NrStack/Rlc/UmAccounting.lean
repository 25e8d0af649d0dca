import NrStack.Rlc.UmRxInvariant

/-!
# UM byte accounting

`UmCounts` : `rx_size`, `tx_size` and the buffer status are the sums they stand for. Three
calls break it, and `UmAccountingOk` excludes exactly them : expiry of t-Reassembly frees
segments without taking them off `rx_size`, a discarded SDU stays in `tx_size`, and so
does an SDU that `generate_tx_pdu` takes off the list and cannot segment.
-/

namespace NrStack

namespace NrRlcEntityUm

variable {e e' : NrRlcEntityUm}

/-- The buffer status of a segment : its PDU header and its data. -/
def pduSize (e : NrRlcEntityUm) (g : NrRlcSduSegment) : Int :=
  e.computePduHeaderSize g + g.size

/-- The counters are the sums over the lists. -/
structure UmCounts (e : NrRlcEntityUm) : Prop where
  rxSize_eq : e.rxSize = (e.rxList.map (·.size)).sum
  txSize_eq : e.txSize = (e.txList.map (·.size)).sum
  bstatusTxSize_eq : e.bstatusTxSize = (e.txList.map e.pduSize).sum

instance (e : NrRlcEntityUm) : Decidable e.UmCounts :=
  decidable_of_iff (e.rxSize = (e.rxList.map (·.size)).sum ∧
    e.txSize = (e.txList.map (·.size)).sum ∧ e.bstatusTxSize = (e.txList.map e.pduSize).sum)
    ⟨fun ⟨h1, h2, h3⟩ => ⟨h1, h2, h3⟩, fun ⟨h1, h2, h3⟩ => ⟨h1, h2, h3⟩⟩

/-- With an empty list, an SDU or a PDU that fits in the buffer at all is not rejected. -/
def AcceptsWhenEmpty (e : NrRlcEntityUm) : Prop :=
  (e.rxList = [] → ∀ size, size ≤ e.rxMaxsize → e.rxSize + size ≤ e.rxMaxsize) ∧
    (e.txList = [] → ∀ size, size ≤ e.txMaxsize → e.txSize + size ≤ e.txMaxsize)

theorem UmCounts.acceptsWhenEmpty (h : e.UmCounts) : e.AcceptsWhenEmpty := by
  have hr := h.rxSize_eq
  have ht := h.txSize_eq
  refine ⟨fun hl size hsize => ?_, fun hl size hsize => ?_⟩
  · rw [hl, List.map_nil, List.sum_nil] at hr
    omega
  · rw [hl, List.map_nil, List.sum_nil] at ht
    omega

/-! ## The calls that keep the counters -/

/-- A stored segment that expiry of t-Reassembly frees : it is before RX_Timer_Trigger, or
everything from there up to its SDU has been delivered. -/
def FreedAtExpiry (e : NrRlcEntityUm) (pdu : NrRlcPdu) : Prop :=
  e.rxDist pdu.sn < e.rxDist e.rxTimerTrigger ∨
    ∀ a, IsSn e.snModulus a → e.rxDist e.rxTimerTrigger ≤ e.rxDist a →
      e.rxDist a ≤ e.rxDist pdu.sn → sduDelivered e.rxList a

/-- The calls that keep the counters : t-Reassembly does not expire with a segment to
free that still has its size, the discarded SDU is empty, and a whole SDU of at least 2
bytes with a 12 bits SN does not meet a grant of 2 bytes. -/
def UmAccountingOk (e : NrRlcEntityUm) : UmOp → Prop
  | .setTime now => e.tReassemblyStart ≠ 0 → e.tReassemblyStart + .ofInt e.tReassembly < now →
      ∀ p ∈ e.rxList, e.FreedAtExpiry p → p.size = 0
  | .discardSdu sduId => ∀ g, e.txList.find? (fun g => g.sdu.upperLayerId = sduId) = some g →
      g.isFirst → g.isLast → g.size = 0
  | .generatePdu size => ∀ g, e.txList.head? = some g →
      ¬(e.snFieldLength = 12 ∧ size = 2 ∧ g.isFirst ∧ g.isLast ∧ 2 ≤ g.size)
  | _ => True

/-- The TX list and its end pointer. -/
def TxQueue (e : NrRlcEntityUm) : Prop :=
  SegmentQueue e.nextSegment e.txList e.txEnd

/-- What runs keep besides the counters. -/
structure UmWf (e : NrRlcEntityUm) : Prop where
  rx : e.RxInv
  tx : e.TxQueue

/-! ## Reception -/

/-- `rx_size` is the sum over the reception list. -/
def RxSizeEq (e : NrRlcEntityUm) : Prop :=
  e.rxSize = (e.rxList.map (·.size)).sum

theorem rxSizeEq_storePdu (h : e.RxSizeEq) (pdu : NrRlcPdu) : (e.storePdu pdu).RxSizeEq := by
  have h' : e.rxSize = (e.rxList.map (·.size)).sum := h
  show e.rxSize + pdu.size = ((nrRlcPduListAdd e.snCompareRx e.rxList pdu).map (·.size)).sum
  rw [sum_nrRlcPduListAdd, h', add_comm]

theorem rxSizeEq_reassembleAndDeliver (h : e.RxSizeEq) (x : Int) :
    (e.reassembleAndDeliver x).RxSizeEq := by
  have h' : e.rxSize = (e.rxList.map (·.size)).sum := h
  show e.rxSize - ((segmentsOf e.rxList x).map (·.size)).sum =
    ((mapSegments dropData e.rxList x).map (·.size)).sum
  rw [sum_mapSegments (f := dropData) (fun _ => rfl), h']

theorem rxSizeEq_freeHeadWhile (h : e.RxSizeEq) (p : NrRlcPdu → Bool) :
    (e.freeHeadWhile p).RxSizeEq := by
  have hsum := congrArg (fun l => (l.map (·.size)).sum)
    (List.takeWhile_append_dropWhile (p := p) (l := e.rxList))
  simp only [List.map_append, List.sum_append] at hsum
  have h' : e.rxSize = (e.rxList.map (·.size)).sum := h
  show e.rxSize - ((e.rxList.takeWhile p).map (·.size)).sum =
    ((e.rxList.dropWhile p).map (·.size)).sum
  omega

theorem rxSizeEq_receptionActions (h : e.RxSizeEq) (x : Int) : (e.receptionActions x).RxSizeEq := by
  have htimer : ∀ e : NrRlcEntityUm, e.RxSizeEq → e.updateReassemblyTimer.RxSizeEq := by
    intro e h
    unfold updateReassemblyTimer startReassembly stopReassembly
    split_ifs <;> exact h
  unfold receptionActions
  split_ifs
  · refine htimer _ ?_
    have h' := rxSizeEq_reassembleAndDeliver h x
    unfold receiveFull updateRxNextReassembly
    split_ifs <;> exact h'
  · refine htimer _ ?_
    unfold receivePart slideWindow resetRxNextReassembly
    have h' : (e.raiseRxNextHighest x).discardOutOfWindow.RxSizeEq :=
      rxSizeEq_freeHeadWhile (e := e.raiseRxNextHighest x) h _
    split_ifs
    · exact h'
    · exact h'
    · exact h

theorem rxSizeEq_recvPdu (h : e.RxSizeEq) (buffer : List UInt8) : (e.recvPdu buffer).RxSizeEq := by
  unfold recvPdu
  cases (NrRlcPduDecoder.init buffer).getBits 2 with
  | none => exact h
  | some r =>
    simp only
    split_ifs
    · exact h
    · exact h
    · cases e.decodeSegment (!r.1.testBit 1) (!r.1.testBit 0) r.2 with
      | none => exact h
      | some pdu =>
        simp only [recvSegment]
        split_ifs
        · exact rxSizeEq_receptionActions (rxSizeEq_storePdu h pdu) pdu.sn
        · exact h

theorem rxSizeEq_startReassembly_iff (next : Int) :
    (e.startReassembly next).RxSizeEq ↔ e.RxSizeEq := by
  unfold startReassembly
  split_ifs <;> rfl

/-- What the new RX_Next_Reassembly has passed at expiry of t-Reassembly. -/
theorem freedAtExpiry_iff (h : e.RxInv) (hrun : e.tReassemblyStart ≠ 0) {p : NrRlcPdu}
    (hp : p ∈ e.rxList) : e.FreedAtExpiry p ↔
      e.rxDist p.sn < e.rxDist (e.skipDelivered e.rxTimerTrigger) := by
  obtain ⟨hsn, hnot, hle, -, hdel⟩ := h.core.skipDelivered_spec h.settled.stored_lt
    h.core.rxTimerTrigger_sn (h.trigger hrun).2
  have hpsn := (h.core.list.segment p hp).sn_range
  constructor
  · rintro (hlt | hall)
    · omega
    · by_contra hge
      exact hnot (hall _ hsn hle (not_lt.1 hge))
  · intro hlt
    rw [FreedAtExpiry, or_iff_not_imp_left, not_lt]
    intro hge a ha h1 h2
    exact hdel a ha h1 (by omega)

/-- Expiry frees segments and leaves `rx_size` as it is. -/
theorem rxSizeEq_checkTReassembly_iff (hrx : e.RxInv) (h : e.RxSizeEq) :
    e.checkTReassembly.RxSizeEq ↔
      (e.tReassemblyStart ≠ 0 → e.tReassemblyStart + .ofInt e.tReassembly < e.tCurrent →
        ∀ p ∈ e.rxList, e.FreedAtExpiry p → p.size = 0) := by
  unfold checkTReassembly
  split_ifs with hexp
  · refine iff_of_true h fun h0 hlt => absurd hexp ?_
    rw [not_or, UInt64.not_le]
    exact ⟨h0, hlt⟩
  · rw [not_or, UInt64.not_le] at hexp
    have hiff := (sum_filter_eq_iff
      (p := fun p => decide (e.rxDist (e.skipDelivered e.rxTimerTrigger) ≤ e.rxDist p.sn))
      fun p hp => (hrx.core.list.segment p hp).size_nonneg).1
    rw [← rxList_expireReassembly hrx hexp.1] at hiff
    rw [rxSizeEq_startReassembly_iff]
    show e.rxSize = _ ↔ _
    rw [show e.rxSize = (e.rxList.map (·.size)).sum from h, hiff]
    simp only [ne_eq, hexp.1, not_false_eq_true, hexp.2, forall_true_left]
    refine forall_congr' fun p => forall_congr' fun hp => ?_
    rw [freedAtExpiry_iff hrx hexp.1 hp, decide_eq_false_iff_not, not_le]

/-! ## Transmission -/

/-- `tx_size` and the buffer status are the sums over the TX list. -/
structure TxSizeEq (e : NrRlcEntityUm) : Prop where
  txSize_eq : e.txSize = (e.txList.map (·.size)).sum
  bstatusTxSize_eq : e.bstatusTxSize = (e.txList.map e.pduSize).sum

theorem umCounts_iff : e.UmCounts ↔ e.RxSizeEq ∧ e.TxSizeEq :=
  ⟨fun ⟨h1, h2, h3⟩ => ⟨h1, h2, h3⟩, fun ⟨h1, h2, h3⟩ => ⟨h1, h2, h3⟩⟩

theorem logRejected_spec (e : NrRlcEntityUm) :
    e.logRejected.txList = e.txList ∧ e.logRejected.txEnd = e.txEnd ∧
      e.logRejected.nextSegment = e.nextSegment ∧ e.logRejected.txSize = e.txSize ∧
      e.logRejected.bstatusTxSize = e.bstatusTxSize ∧
      e.logRejected.snFieldLength = e.snFieldLength := by
  unfold logRejected
  split_ifs <;> exact ⟨rfl, rfl, rfl, rfl, rfl, rfl⟩

theorem txSizeEq_logRejected (hq : e.TxQueue) (h : e.TxSizeEq) :
    e.logRejected.TxQueue ∧ e.logRejected.TxSizeEq := by
  unfold logRejected
  split_ifs
  · exact ⟨hq, h.txSize_eq, h.bstatusTxSize_eq⟩
  · exact ⟨hq, h⟩

theorem txSizeEq_acceptSdu (hq : e.TxQueue) (h : e.TxSizeEq) {buffer : List UInt8} {sduId : Int}
    (hs : e.acceptSdu buffer sduId = some e') : e'.TxQueue ∧ e'.TxSizeEq := by
  rw [acceptSdu, hq.append_eq, Option.map_some, Option.some.injEq] at hs
  subst hs
  refine ⟨hq.push rfl, ?_, ?_⟩
  · simp [h.txSize_eq, nrRlcNewSdu]
  · show e.bstatusTxSize + e.pduSize _ = ((e.txList ++ [_]).map e.pduSize).sum
    simp [h.bstatusTxSize_eq]

theorem txSizeEq_recvSdu (hq : e.TxQueue) (h : e.TxSizeEq) {buffer : List UInt8} {sduId : Int}
    (hs : e.recvSdu buffer sduId = some e') : e'.TxQueue ∧ e'.TxSizeEq := by
  obtain ⟨hq', h'⟩ := txSizeEq_logRejected hq h
  unfold recvSdu at hs
  split_ifs at hs
  · obtain rfl := Option.some.inj hs
    exact ⟨hq', h'.txSize_eq, h'.bstatusTxSize_eq⟩
  · exact txSizeEq_acceptSdu hq' h' hs

/-- Taking a segment off the TX list and the buffer status, and not off `tx_size`. -/
theorem txSizeEq_remove_iff {before after : List NrRlcSduSegment} {g : NrRlcSduSegment}
    (h : e.TxSizeEq) (hlist : e.txList = before ++ g :: after)
    (hlist' : e'.txList = before ++ after) (hsize : e'.txSize = e.txSize)
    (hbstatus : e'.bstatusTxSize = e.bstatusTxSize - e.pduSize g)
    (hpdu : e'.pduSize = e.pduSize) : e'.TxSizeEq ↔ g.size = 0 := by
  have ht := h.txSize_eq
  have hb := h.bstatusTxSize_eq
  rw [hlist] at ht hb
  simp only [List.map_append, List.map_cons, List.sum_append, List.sum_cons] at ht hb
  constructor
  · intro h'
    have ht' := h'.txSize_eq
    rw [hlist', hsize, List.map_append, List.sum_append] at ht'
    omega
  · intro h0
    refine ⟨?_, ?_⟩
    · rw [hlist', hsize, List.map_append, List.sum_append]
      omega
    · rw [hlist', hbstatus, hpdu, List.map_append, List.sum_append]
      omega

/-- Discarding an SDU leaves `tx_size` as it is. -/
theorem txSizeEq_discardSdu (hq : e.TxQueue) (h : e.TxSizeEq) (sduId : Int) :
    (e.discardSdu sduId).TxQueue ∧ ((e.discardSdu sduId).TxSizeEq ↔
      ∀ g, e.txList.find? (fun g => g.sdu.upperLayerId = sduId) = some g →
        g.isFirst → g.isLast → g.size = 0) := by
  unfold discardSdu
  cases hf : e.txList.find? fun g => g.sdu.upperLayerId = sduId with
  | none => exact ⟨hq, iff_of_true h (by simp)⟩
  | some g =>
    obtain ⟨after, hsplit, hdrop⟩ := exists_of_find hf
    simp only [ne_eq, decide_not]
    rw [hdrop]
    by_cases hwhole : ¬g.isFirst ∨ ¬g.isLast
    · rw [if_pos hwhole]
      refine ⟨hq, iff_of_true h fun g' hg' h1 h2 => absurd hwhole ?_⟩
      obtain rfl := Option.some.inj hg'
      simp [h1, h2]
    · rw [if_neg hwhole]
      have hq' : SegmentQueue e.nextSegment e.txList e.txEnd := hq
      rw [hsplit] at hq'
      refine ⟨hq'.remove, Iff.trans (txSizeEq_remove_iff h hsplit ?_ ?_ ?_ ?_) ?_⟩
      iterate 4 rfl
      simp only [not_or, not_not] at hwhole
      simp [hwhole]

theorem txQueue_takeTx (hq : e.TxQueue) {head sdu : NrRlcSduSegment}
    {rest : List NrRlcSduSegment} (hlist : e.txList = head :: rest) :
    (e.takeTx sdu rest).TxQueue := by
  have hq' : SegmentQueue e.nextSegment e.txList e.txEnd := hq
  rw [hlist] at hq'
  exact hq'.pop

/-- A head that is sent whole. -/
theorem txSizeEq_sendWhole (h : e.TxSizeEq) {head sdu : NrRlcSduSegment}
    {rest : List NrRlcSduSegment} {size : Int} (hlist : e.txList = head :: rest)
    (hsize : sdu.size = head.size) (hpdu : e.pduSize sdu = e.pduSize head) :
    ((e.takeTx sdu rest).sendPdu sdu size).1.TxSizeEq := by
  have ht := h.txSize_eq
  have hb := h.bstatusTxSize_eq
  rw [hlist, List.map_cons, List.sum_cons] at ht hb
  refine ⟨?_, ?_⟩
  · show e.txSize - sdu.size = (rest.map (·.size)).sum
    omega
  · show e.bstatusTxSize - e.pduSize sdu = (rest.map e.pduSize).sum
    omega

/-- A head that is split : the rest of it is in the list again. -/
theorem txSizeEq_sendSplit (h : e.TxSizeEq) {head sdu : NrRlcSduSegment}
    {rest : List NrRlcSduSegment} {size : Int} (hlist : e.txList = head :: rest)
    (hsize : sdu.size = head.size) (hpdu : e.pduSize sdu = e.pduSize head) :
    (((e.takeTx sdu rest).putBackTx (e.resegmentNext sdu size)).sendPdu
      (e.resegmentHead sdu size) size).1.TxSizeEq := by
  have ht := h.txSize_eq
  have hb := h.bstatusTxSize_eq
  rw [hlist, List.map_cons, List.sum_cons] at ht hb
  have hsplit : (e.resegmentHead sdu size).size + (e.resegmentNext sdu size).size = sdu.size := by
    simp only [resegmentHead, resegmentNext]
    omega
  refine ⟨?_, ?_⟩
  · show e.txSize - (e.resegmentHead sdu size).size =
      ((e.resegmentNext sdu size :: rest).map (·.size)).sum
    rw [List.map_cons, List.sum_cons]
    omega
  · show e.bstatusTxSize - e.pduSize sdu + e.pduSize (e.resegmentNext sdu size) =
      ((e.resegmentNext sdu size :: rest).map e.pduSize).sum
    rw [List.map_cons, List.sum_cons]
    omega

/-- When a segment can be sent in part but not be segmented : the header of a whole SDU is
one byte shorter than the one of its first segment. -/
theorem not_resegment_iff {g : NrRlcSduSegment} {size : Int} :
    (¬e.computePduHeaderSize g + 1 > size ∧ e.computePduHeaderSize g + g.size > size ∧
      e.resegmentHeaderSize g + 1 > size) ↔
      (e.snFieldLength = 12 ∧ size = 2 ∧ g.isFirst ∧ g.isLast ∧ 2 ≤ g.size) := by
  unfold resegmentHeaderSize computePduHeaderSize
  by_cases hsn : e.snFieldLength = 12 <;> cases g.isFirst <;> cases g.isLast <;> simp [hsn] <;>
    omega

/-- An SDU that cannot be segmented is out of the list and still in `tx_size`. -/
theorem txSizeEq_generatePdu (hq : e.TxQueue) (h : e.TxSizeEq) (size : Int) :
    (e.generatePdu size).1.TxQueue ∧ ((e.generatePdu size).1.TxSizeEq ↔
      ∀ g, e.txList.head? = some g →
        ¬(e.snFieldLength = 12 ∧ size = 2 ∧ g.isFirst ∧ g.isLast ∧ 2 ≤ g.size)) := by
  unfold generatePdu
  cases hlist : e.txList with
  | nil => exact ⟨hq, iff_of_true h (by simp)⟩
  | cons head rest =>
    simp only [List.head?_cons, Option.some.injEq, forall_eq', ← not_resegment_iff]
    set sdu : NrRlcSduSegment := { head with sdu := { head.sdu with sn := e.txNext } } with hsdu
    have htake : (e.takeTx sdu rest).TxQueue := txQueue_takeTx hq hlist
    by_cases h1 : e.computePduHeaderSize head + 1 > size
    · rw [if_pos h1]
      exact ⟨hq, iff_of_true h fun hno => hno.1 h1⟩
    · rw [if_neg h1]
      by_cases h2 : e.computePduHeaderSize sdu + sdu.size > size
      · rw [if_pos h2]
        by_cases h3 : e.resegmentHeaderSize sdu + 1 > size
        · rw [if_pos h3]
          have hpos : ¬head.size = 0 := fun h0 => by
            have hhead : sdu.size = head.size := rfl
            have hheader : e.computePduHeaderSize sdu = e.computePduHeaderSize head := rfl
            omega
          have hlist' : e.txList = [] ++ head :: rest := hlist
          refine ⟨htake, Iff.trans (txSizeEq_remove_iff h hlist' ?_ ?_ ?_ ?_) ?_⟩
          iterate 4 rfl
          exact iff_of_false hpos fun hno => hno ⟨h1, h2, h3⟩
        · rw [if_neg h3]
          exact ⟨SegmentQueue.putBack htake rfl, iff_of_true (txSizeEq_sendSplit h hlist rfl rfl)
            fun hno => h3 hno.2.2⟩
      · rw [if_neg h2]
        exact ⟨htake, iff_of_true (txSizeEq_sendWhole h hlist rfl rfl) fun hno => h2 hno.2.1⟩

/-! ## Runs -/

/-- What the transmitting side reads. -/
structure TxView where
  snFieldLength : Nat
  txList : List NrRlcSduSegment
  txEnd : Option Nat
  txSize : Int
  bstatusTxSize : Int
  nextSegment : Nat

/-- What the transmitting side reads of `e`. -/
def txView (e : NrRlcEntityUm) : TxView :=
  { snFieldLength := e.snFieldLength
    txList := e.txList
    txEnd := e.txEnd
    txSize := e.txSize
    bstatusTxSize := e.bstatusTxSize
    nextSegment := e.nextSegment }

theorem TxQueue.congr (heq : e'.txView = e.txView) (h : e.TxQueue) : e'.TxQueue := by
  simp only [txView, TxView.mk.injEq] at heq
  obtain ⟨-, h1, h2, -, -, h3⟩ := heq
  unfold TxQueue
  rw [h1, h2, h3]
  exact h

theorem txSizeEq_congr (heq : e'.txView = e.txView) : e'.TxSizeEq ↔ e.TxSizeEq := by
  simp only [txView, TxView.mk.injEq] at heq
  obtain ⟨hsn, h1, -, h2, h3, -⟩ := heq
  have hpdu : e'.pduSize = e.pduSize := by
    funext g
    simp only [pduSize, computePduHeaderSize, hsn]
  refine ⟨fun ⟨a, b⟩ => ⟨?_, ?_⟩, fun ⟨a, b⟩ => ⟨?_, ?_⟩⟩
  · rwa [h1, h2] at a
  · rwa [h1, h3, hpdu] at b
  · rwa [h1, h2]
  · rwa [h1, h3, hpdu]

theorem rxSizeEq_congr (heq : e'.rxView = e.rxView) : e'.RxSizeEq ↔ e.RxSizeEq := by
  simp only [rxView, RxView.mk.injEq] at heq
  obtain ⟨-, -, -, -, -, -, -, h1, h2⟩ := heq
  simp only [RxSizeEq, h1, h2]

/-- The entity less what the receiver and the clock write. -/
def txFrame (e : NrRlcEntityUm) : NrRlcEntityUm :=
  { e with
    rxNextHighest := 0
    rxNextReassembly := 0
    rxTimerTrigger := 0
    tCurrent := 0
    tReassemblyStart := 0
    rxList := []
    rxSize := 0
    out := [] }

theorem txView_of_txFrame (h : e'.txFrame = e.txFrame) : e'.txView = e.txView :=
  show e'.txFrame.txView = e.txFrame.txView from h ▸ rfl

/-- The receiving functions do not touch the transmitter. -/
theorem txFrame_receptionActions (x : Int) : (e.receptionActions x).txFrame = e.txFrame := by
  have htimer : ∀ e : NrRlcEntityUm, e.updateReassemblyTimer.txFrame = e.txFrame := by
    intro e
    unfold updateReassemblyTimer startReassembly stopReassembly
    split_ifs <;> rfl
  unfold receptionActions
  rw [htimer]
  unfold receiveFull updateRxNextReassembly receivePart slideWindow resetRxNextReassembly
  split_ifs <;> rfl

theorem txFrame_recvPdu (buffer : List UInt8) : (e.recvPdu buffer).txFrame = e.txFrame := by
  unfold recvPdu
  cases (NrRlcPduDecoder.init buffer).getBits 2 with
  | none => rfl
  | some r =>
    simp only
    split_ifs
    · rfl
    · rfl
    · cases e.decodeSegment (!r.1.testBit 1) (!r.1.testBit 0) r.2 with
      | none => rfl
      | some pdu =>
        simp only [recvSegment]
        split_ifs
        · rw [txFrame_receptionActions]
          rfl
        · rfl

theorem txFrame_setTime (now : UInt64) : (e.setTime now).txFrame = e.txFrame := by
  unfold setTime checkTReassembly startReassembly
  split_ifs <;> rfl

theorem txView_recvPdu (buffer : List UInt8) : (e.recvPdu buffer).txView = e.txView :=
  txView_of_txFrame (txFrame_recvPdu buffer)

theorem txView_setTime (now : UInt64) : (e.setTime now).txView = e.txView :=
  txView_of_txFrame (txFrame_setTime now)

theorem umWf_new (c : UmConfig) : (newNrRlcEntityUm c).UmWf :=
  ⟨rxInv_new c, .nil⟩

theorem umCounts_new (c : UmConfig) : (newNrRlcEntityUm c).UmCounts :=
  ⟨rfl, rfl, rfl⟩

/-- A call keeps the counters exactly if it is one of those `UmAccountingOk` admits. -/
theorem umCounts_step {op : UmOp} (hw : e.UmWf) (hc : e.UmCounts)
    (hstep : umStep e op = some e') : e'.UmWf ∧ (e'.UmCounts ↔ e.UmAccountingOk op) := by
  have hrx' : e'.RxInv := rxInv_step hw.rx hstep
  obtain ⟨hr, ht⟩ := umCounts_iff.1 hc
  rw [umCounts_iff]
  cases op with
  | recvSdu buffer sduId =>
    obtain ⟨hq', ht'⟩ := txSizeEq_recvSdu hw.tx ht hstep
    exact ⟨⟨hrx', hq'⟩, iff_of_true ⟨(rxSizeEq_congr (rxView_recvSdu hstep)).2 hr, ht'⟩ trivial⟩
  | recvPdu buffer =>
    obtain rfl := Option.some.inj hstep
    exact ⟨⟨hrx', hw.tx.congr (txView_recvPdu buffer)⟩, iff_of_true
      ⟨rxSizeEq_recvPdu hr buffer, (txSizeEq_congr (txView_recvPdu buffer)).2 ht⟩ trivial⟩
  | generatePdu size =>
    obtain rfl := Option.some.inj hstep
    obtain ⟨hq', hiff⟩ := txSizeEq_generatePdu hw.tx ht size
    have hr' := (rxSizeEq_congr (rxView_generatePdu (e := e) size)).2 hr
    exact ⟨⟨hrx', hq'⟩, (and_iff_right hr').trans hiff⟩
  | setTime now =>
    obtain rfl := Option.some.inj hstep
    have ht' := (txSizeEq_congr (txView_setTime (e := e) now)).2 ht
    have hrxnow : { e with tCurrent := now }.RxInv := RxInv.congr (e := e) rfl hw.rx
    exact ⟨⟨hrx', hw.tx.congr (txView_setTime now)⟩,
      (and_iff_left ht').trans (rxSizeEq_checkTReassembly_iff hrxnow hr)⟩
  | discardSdu sduId =>
    obtain rfl := Option.some.inj hstep
    obtain ⟨hq', hiff⟩ := txSizeEq_discardSdu hw.tx ht sduId
    have hr' := (rxSizeEq_congr (rxView_discardSdu (e := e) sduId)).2 hr
    exact ⟨⟨hrx', hq'⟩, (and_iff_right hr').trans hiff⟩
  | reestablishment =>
    obtain rfl := Option.some.inj hstep
    exact ⟨⟨hrx', .nil⟩, iff_of_true ⟨rfl, rfl, rfl⟩ trivial⟩

/-- The counters are exact throughout a run if and only if each of its calls is one of
those `UmAccountingOk` admits. -/
theorem umCounts_allStates_iff (c : UmConfig) (ops : List UmOp) :
    AllStates umStep (fun e => e.UmCounts ∧ e.AcceptsWhenEmpty) (newNrRlcEntityUm c) ops ↔
      AllSteps umStep UmAccountingOk (newNrRlcEntityUm c) ops := by
  refine allStates_iff_allSteps (Q := fun e => e.UmWf ∧ e.UmCounts)
    (fun e h => ⟨h.2, h.2.acceptsWhenEmpty⟩) (fun e op e' h hs hok => ?_)
    (fun e op e' h hs hno hP => ?_) ops _ ⟨umWf_new c, umCounts_new c⟩
  · obtain ⟨hw, hiff⟩ := umCounts_step h.1 h.2 hs
    exact ⟨hw, hiff.2 hok⟩
  · exact hno ((umCounts_step h.1 h.2 hs).2.1 hP.1)

/-- A discarded SDU stays in `tx_size` : the list is empty, and no SDU fits any more. -/
theorem umCounts_not_invariant : ¬∀ (c : UmConfig) (e : NrRlcEntityUm), UmReach c e →
    e.UmCounts ∧ e.AcceptsWhenEmpty := by
  intro h
  let c : UmConfig := ⟨10, 1, 35, 6, .inl rfl⟩
  have hreach : UmReach c
      { newNrRlcEntityUm c with txSize := 1, nextSdu := 1, nextSegment := 1 } :=
    .next (.next .refl (a := .recvSdu [0] 7) trivial rfl) (a := .discardSdu 7) trivial rfl
  exact absurd (h c _ hreach).1.txSize_eq (by decide)

end NrRlcEntityUm

end NrStack
