import NrStack.Rlc.Am
import NrStack.Rlc.AmTxInvariant

/-!
# SDUs that come and PDUs that go

`recv_sdu`, `discard_sdu` and the generation of data PDUs keep `TxInv` and `TxExact`. A
segment is taken off its list, gets an SN if it has none, is split if it is too large,
and goes to the wait list : `sentRetransmit` and `sentTx` are the lists after that.
-/

namespace NrStack

namespace NrRlcEntityAm

variable {e e' : NrRlcEntityAm} {g : NrRlcSduSegment} {rest : List NrRlcSduSegment} {size : Int}

/-! ## SDUs from the upper layer -/

theorem Unsent.txHead (h : Unsent g) : e.TxHead g :=
  .inl h

theorem txView_logRejected (e : NrRlcEntityAm) : e.logRejected.txView = e.txView := by
  unfold logRejected
  split_ifs <;> rfl

/-- The whole of a new SDU. -/
theorem segmentOk_nrRlcNewSdu {id addr : Nat} {buffer : List UInt8} {sduId : Int}
    (hsize : (buffer.length : Int) ≤ nrSduMax) :
    SegmentOk (nrRlcNewSdu id addr buffer sduId) :=
  ⟨le_rfl, Int.natCast_nonneg _, by simp [nrRlcNewSdu], by simp [nrRlcNewSdu],
    by simp [nrRlcNewSdu], rfl, hsize⟩

/-- The entity with a new SDU at the end of the TX list. -/
def acceptedSdu (e : NrRlcEntityAm) (buffer : List UInt8) (sduId : Int) : NrRlcEntityAm :=
  let sdu := nrRlcNewSdu e.nextSdu e.nextSegment buffer sduId
  { e with
    txSize := e.txSize + buffer.length
    txList := e.txList ++ [sdu]
    txEnd := some sdu.addr
    bstatusTxSize := e.bstatusTxSize + e.pduSize sdu
    sdus := e.sdus ++ [nrRlcNewSduEntry sdu.sdu]
    nextSdu := e.nextSdu + 1
    nextSegment := e.nextSegment + 1 }

theorem TxInv.acceptSdu_eq (h : TxInv [] e) (buffer : List UInt8) (sduId : Int) :
    e.acceptSdu buffer sduId = some (e.acceptedSdu buffer sduId) := by
  rw [acceptSdu, h.txQueue.append_eq]
  rfl

theorem listed_acceptedSdu (e : NrRlcEntityAm) (buffer : List UInt8) (sduId : Int) :
    (e.acceptedSdu buffer sduId).listed.Perm
      (nrRlcNewSdu e.nextSdu e.nextSegment buffer sduId :: e.listed) := by
  simp only [listed, acceptedSdu, List.append_assoc, List.singleton_append]
  exact List.perm_middle

theorem TxInv.acceptedSdu (h : TxInv [] e) {buffer : List UInt8} {sduId : Int}
    (hsize : (buffer.length : Int) ≤ nrSduMax) : TxInv [] (e.acceptedSdu buffer sduId) where
  window := ⟨h.window.space, h.window.txNext_sn, h.window.txNextAck_sn, h.window.txNext_le⟩
  lists := ⟨h.lists.wait_sorted, h.lists.retransmit_sorted, h.lists.sn_range⟩
  tx_head := by
    intro g hg
    cases hl : e.txList with
    | nil =>
      have hg' : g ∈ (e.txList ++ [_]).head? := hg
      rw [hl] at hg'
      rw [← Option.some.inj hg']
      exact .inl ⟨rfl, rfl, rfl⟩
    | cons a l =>
      have hg' : g ∈ (e.txList ++ [_]).head? := hg
      rw [hl] at hg'
      exact h.tx_head g (by rw [hl]; exact hg')
  tx_tail := by
    intro g hg
    have hg' : g ∈ (e.txList ++ [_]).tail := hg
    cases hl : e.txList with
    | nil => simp [hl] at hg'
    | cons a l =>
      rw [hl, List.cons_append, List.tail_cons, List.mem_append] at hg'
      rcases hg' with hg' | hg'
      · exact h.tx_tail g (by simpa [hl] using hg')
      · rw [List.mem_singleton.1 hg']
        exact ⟨rfl, rfl, rfl⟩
  pool := (h.pool.new rfl rfl rfl (segmentOk_nrRlcNewSdu hsize)).perm
    (listed_acceptedSdu e buffer sduId).symm
  tx_end := by simp [NrRlcEntityAm.acceptedSdu]
  wait_end := h.wait_end

theorem liveSize_append_new {heap : List NrRlcSduEntry} {sdu : NrRlcSdu} :
    liveSize (heap ++ [nrRlcNewSduEntry sdu]) = liveSize heap + sdu.size := by
  simp [liveSize, nrRlcNewSduEntry]

theorem TxExact.acceptedSdu (h : TxInv [] e) (hx : TxExact [] e) {buffer : List UInt8}
    {sduId : Int} : TxExact [] (e.acceptedSdu buffer sduId) where
  full := (hx.full.new h.pool.heap rfl rfl).perm (listed_acceptedSdu e buffer sduId).symm
  tx_size := by
    show e.txSize + buffer.length = liveSize (e.sdus ++ _)
    rw [liveSize_append_new, hx.tx_size]
    rfl
  bstatus_tx := by
    show e.bstatusTxSize + e.pduSize _ = ((e.txList ++ [_]).map e.pduSize).sum
    rw [List.map_append, List.sum_append, hx.bstatus_tx]
    simp
  bstatus_retx := hx.bstatus_retx

/-! ## Discarding an SDU -/

/-- A segment of the TX list that begins an SDU is all of it. -/
theorem TxInv.unsent_of_isFirst {hand : List NrRlcSduSegment} (h : TxInv hand e)
    (hg : g ∈ e.txList) (hfirst : g.isFirst) : Unsent g := by
  cases hl : e.txList with
  | nil => simp [hl] at hg
  | cons a l =>
    rw [hl] at hg
    rcases List.mem_cons.1 hg with rfl | hg
    · rcases h.tx_head g (by simp [hl]) with hu | ⟨-, hno⟩
      · exact hu
      · simp [hfirst] at hno
    · exact h.tx_tail g (by simpa [hl] using hg)

/-- The entity with the segment `cur` of the TX list discarded. -/
def discardedSdu (e : NrRlcEntityAm) (before : List NrRlcSduSegment) (cur : NrRlcSduSegment)
    (after : List NrRlcSduSegment) : NrRlcEntityAm :=
  { e with
    txList := before ++ after
    txEnd := if e.txEnd = some cur.addr then before.getLast?.map (·.addr) else e.txEnd
    bstatusTxSize := e.bstatusTxSize - e.pduSize cur
    txSize := e.txSize - cur.sdu.size
    sdus := (nrRlcFreeSduSegment e.sdus cur).1
    freed := e.freed ++ [cur] }

theorem discardSdu_cases (e : NrRlcEntityAm) (sduId : Int) : e.discardSdu sduId = e ∨
    ∃ before cur after, e.txList = before ++ cur :: after ∧ cur.isFirst ∧
      e.discardSdu sduId = e.discardedSdu before cur after := by
  unfold discardSdu
  cases hf : e.txList.find? fun g => g.sdu.upperLayerId = sduId with
  | none => exact .inl rfl
  | some cur =>
    obtain ⟨after, hsplit, hdrop⟩ := exists_of_find hf
    simp only [ne_eq, decide_not]
    rw [hdrop]
    by_cases hwhole : ¬cur.isFirst ∨ ¬cur.isLast
    · exact .inl (if_pos hwhole)
    · rw [if_neg hwhole]
      exact .inr ⟨_, cur, after, hsplit, by_contra fun hno => hwhole (.inl hno), rfl⟩

variable {before after : List NrRlcSduSegment} {cur : NrRlcSduSegment}

theorem listed_discardedSdu (hl : e.txList = before ++ cur :: after) :
    e.listed.Perm (cur :: (e.discardedSdu before cur after).listed) := by
  simp only [listed, discardedSdu, hl, List.append_assoc, List.cons_append]
  exact List.perm_middle

theorem TxInv.discardedSdu (h : TxInv [] e) (hl : e.txList = before ++ cur :: after) :
    TxInv [] (e.discardedSdu before cur after) where
  window := ⟨h.window.space, h.window.txNext_sn, h.window.txNextAck_sn, h.window.txNext_le⟩
  lists := ⟨h.lists.wait_sorted, h.lists.retransmit_sorted, h.lists.sn_range⟩
  tx_head := by
    intro g hg
    have hg' : g ∈ (before ++ after).head? := hg
    cases before with
    | nil =>
      exact .inl (h.tx_tail g (by rw [hl]; exact List.mem_of_mem_head? hg'))
    | cons a l => exact h.tx_head g (by rw [hl]; exact hg')
  tx_tail := by
    intro g hg
    have hg' : g ∈ (before ++ after).tail := hg
    refine h.tx_tail g ?_
    rw [hl]
    cases before with
    | nil => exact List.mem_of_mem_tail hg'
    | cons a l =>
      simp only [List.cons_append, List.tail_cons, List.mem_append, List.mem_cons] at hg' ⊢
      tauto
  pool := (h.pool.perm (listed_discardedSdu hl)).free
  tx_end := by
    have hq := h.txQueue
    rw [hl] at hq
    exact hq.remove.end_eq
  wait_end := h.wait_end

/-- An SDU that has not been sent is freed with its segment. -/
theorem freed_of_unsent {n m : Nat} {heap : List NrRlcSduEntry} {l : List NrRlcSduSegment}
    (h : SegmentPool n m heap (g :: l)) (hg : Unsent g) :
    (nrRlcFreeSduSegment heap g).2 = true := by
  obtain ⟨d, hd, hsdu, heq⟩ := h.heap.free_eq
  obtain ⟨hr, hf⟩ := h.heap.unsent d hd (by rw [hsdu, hg.sn_eq])
  rw [heq, if_pos (by omega)]

theorem TxExact.discardedSdu (h : TxInv [] e) (hx : TxExact [] e)
    (hl : e.txList = before ++ cur :: after) (hcur : cur.isFirst) :
    TxExact [] (e.discardedSdu before cur after) := by
  have hpool := h.pool.perm (listed_discardedSdu hl)
  have hfreed := freed_of_unsent hpool (h.unsent_of_isFirst (by simp [hl]) hcur)
  refine ⟨SduHeapFull.free hpool.heap (hx.full.perm (listed_discardedSdu hl)), ?_, ?_,
    hx.bstatus_retx⟩
  · show e.txSize - cur.sdu.size = liveSize (nrRlcFreeSduSegment e.sdus cur).1
    rw [hpool.heap.liveSize_free, hfreed, if_pos rfl, hx.tx_size]
  · show e.bstatusTxSize - e.pduSize cur = ((before ++ after).map e.pduSize).sum
    rw [hx.bstatus_tx, hl]
    simp only [List.map_append, List.map_cons, List.sum_append, List.sum_cons]
    omega

/-! ## Splitting a segment -/

theorem computePduHeaderSize_pos (e : NrRlcEntityAm) (g : NrRlcSduSegment) :
    0 < e.computePduHeaderSize g := by
  unfold computePduHeaderSize
  split_ifs <;> omega

/-- `resegment` splits a segment that does not fit where at least one byte does. -/
theorem isSplit_resegment (hroom : e.computePduHeaderSize g + 1 ≤ size)
    (hover : size < e.pduSize g) : IsSplit g (e.resegmentHead g size) (e.resegmentNext g size) := by
  unfold pduSize at hover
  refine ⟨rfl, rfl, rfl, ?_, ?_, ?_, ?_, rfl, rfl, rfl, rfl, rfl⟩ <;>
    simp only [resegmentHead, resegmentNext, pduSize] <;> omega

theorem liveSize_resegment (e : NrRlcEntityAm) (g : NrRlcSduSegment) :
    liveSize (e.resegment g).sdus = liveSize e.sdus :=
  liveSize_updateSdu fun _ => rfl

/-- The rest of a split segment is before what `g` was before. -/
theorem TxInv.resegmentNext_le (h : TxInv [g] e) (hg : IsSn e.snModulus g.sdu.sn)
    {next a b : NrRlcSduSegment} (hs : IsSplit g a next) (hb : b ∈ e.waitList ++ e.retransmitList)
    (hle : txKey e.snModulus e.txNextAck g ≤ txKey e.snModulus e.txNextAck b) :
    txKey e.snModulus e.txNextAck next ≤ txKey e.snModulus e.txNextAck b := by
  have hnext : next.sdu.sn = g.sdu.sn := by rw [hs.next_sdu]
  have hnext_so := hs.next_so
  have hsize := hs.size_eq
  have hpos := hs.next_size
  rw [txKey_le_iff] at hle ⊢
  rw [hnext]
  refine hle.imp_right fun ⟨hd, hso⟩ => ⟨hd, ?_⟩
  have hsame : g.sdu.sn = b.sdu.sn := dist_inj hg (h.sn_range b hb) hd
  have hmem : b ∈ e.listed := List.mem_append_right _ hb
  have hid := h.pool.id_of_sn g (by simp) b (by simp [hmem]) hsame (by have := hg.1; omega)
  rcases (List.pairwise_cons.1 h.pool.apart).1 b hmem hid with hlt | hlt <;> omega

/-! ## The retransmit list -/

theorem listed_takeRetransmit (hr : e.retransmitList = g :: rest) :
    e.listed.Perm (g :: (e.takeRetransmit g rest).listed) := by
  simp only [listed, takeRetransmit, hr, ← List.append_assoc]
  exact List.perm_middle

theorem TxInv.takeRetransmit (h : TxInv [] e) (hr : e.retransmitList = g :: rest) :
    TxInv [g] (e.takeRetransmit g rest) where
  window := ⟨h.window.space, h.window.txNext_sn, h.window.txNextAck_sn, h.window.txNext_le⟩
  lists := by
    have hs := h.lists.retransmit_sorted
    rw [hr] at hs
    refine ⟨h.lists.wait_sorted, hs.of_cons, fun a ha => h.sn_range a ?_⟩
    have ha' : a ∈ e.waitList ++ rest := ha
    rw [hr]
    simp only [List.mem_append, List.mem_cons] at ha' ⊢
    tauto
  tx_head := h.tx_head
  tx_tail := h.tx_tail
  pool := h.pool.perm (listed_takeRetransmit hr)
  tx_end := h.tx_end
  wait_end := h.wait_end

theorem TxExact.takeRetransmit (hx : TxExact [] e) (hr : e.retransmitList = g :: rest) :
    TxExact [g] (e.takeRetransmit g rest) where
  full := hx.full.perm (listed_takeRetransmit hr)
  tx_size := hx.tx_size
  bstatus_tx := hx.bstatus_tx
  bstatus_retx := by
    show e.bstatusRetxSize - e.pduSize g = (rest.map e.pduSize).sum
    rw [hx.bstatus_retx, hr, List.map_cons, List.sum_cons]
    omega

theorem listed_putBackRetransmit {a b : NrRlcSduSegment} :
    (a :: b :: e.listed).Perm ([a] ++ ((e.resegment g).putBackRetransmit b).listed) := by
  refine List.Perm.cons a ?_
  show (b :: e.listed).Perm (e.txList ++ (e.waitList ++ b :: e.retransmitList))
  simp only [listed, ← List.append_assoc]
  exact List.perm_middle.symm

theorem TxInv.splitRetransmit (h : TxInv [g] e) (hg : IsSn e.snModulus g.sdu.sn)
    (hfirst : ∀ b ∈ e.retransmitList,
      txKey e.snModulus e.txNextAck g ≤ txKey e.snModulus e.txNextAck b)
    (hroom : e.computePduHeaderSize g + 1 ≤ size) :
    TxInv [(e.splitRetransmit g size).2] (e.splitRetransmit g size).1 := by
  unfold NrRlcEntityAm.splitRetransmit
  split_ifs with hover
  · have hs := isSplit_resegment hroom hover
    refine ⟨⟨h.window.space, h.window.txNext_sn, h.window.txNextAck_sn, h.window.txNext_le⟩,
      ⟨h.lists.wait_sorted, ?_, fun a ha => ?_⟩, h.tx_head, h.tx_tail, ?_, h.tx_end, h.wait_end⟩
    · exact List.pairwise_cons.2 ⟨fun b hb =>
        h.resegmentNext_le hg hs (List.mem_append_right _ hb) (hfirst b hb),
        h.lists.retransmit_sorted⟩
    · have ha' : a ∈ e.waitList ++ e.resegmentNext g size :: e.retransmitList := ha
      simp only [List.mem_append, List.mem_cons] at ha'
      rcases ha' with ha' | rfl | ha'
      · exact h.sn_range a (by simp [ha'])
      · exact hg
      · exact h.sn_range a (by simp [ha'])
    · exact (h.pool.split hs rfl (by have := hg.1; omega)).perm listed_putBackRetransmit
  · exact h

theorem TxExact.splitRetransmit (hx : TxExact [g] e) :
    TxExact [(e.splitRetransmit g size).2] (e.splitRetransmit g size).1 := by
  unfold NrRlcEntityAm.splitRetransmit
  split_ifs with hover
  · have hfull := hx.full.split (a := e.resegmentHead g size) (b := e.resegmentNext g size) rfl rfl
    refine ⟨hfull.perm listed_putBackRetransmit, ?_, hx.bstatus_tx, ?_⟩
    · exact hx.tx_size.trans (liveSize_resegment e g).symm
    · show e.bstatusRetxSize + e.pduSize _ = ((_ :: e.retransmitList).map e.pduSize).sum
      rw [hx.bstatus_retx, List.map_cons, List.sum_cons, add_comm]
  · exact hx

/-! ## The TX list -/

theorem TxInv.tx_rest_unsent (h : TxInv [] e) (hl : e.txList = g :: rest) :
    ∀ a ∈ rest, Unsent a := by
  intro a ha
  exact h.tx_tail a (by rwa [hl])

theorem TxInv.takeTx (h : TxInv [] e) (hl : e.txList = g :: rest) :
    TxInv [g] (e.takeTx g rest) where
  window := ⟨h.window.space, h.window.txNext_sn, h.window.txNextAck_sn, h.window.txNext_le⟩
  lists := ⟨h.lists.wait_sorted, h.lists.retransmit_sorted, h.lists.sn_range⟩
  tx_head := fun a ha => .inl (h.tx_rest_unsent hl a (List.mem_of_mem_head? ha))
  tx_tail := fun a ha => h.tx_rest_unsent hl a (List.mem_of_mem_tail ha)
  pool := by
    have hpool := h.pool
    rw [listed, hl] at hpool
    exact hpool
  tx_end := by
    have hq := h.txQueue
    rw [hl] at hq
    exact hq.pop.end_eq
  wait_end := h.wait_end

theorem TxExact.takeTx (hx : TxExact [] e) (hl : e.txList = g :: rest) :
    TxExact [g] (e.takeTx g rest) where
  full := by
    have hfull := hx.full
    rw [listed, hl] at hfull
    exact hfull
  tx_size := hx.tx_size
  bstatus_tx := by
    show e.bstatusTxSize - e.pduSize g = (rest.map e.pduSize).sum
    rw [hx.bstatus_tx, hl, List.map_cons, List.sum_cons]
    omega
  bstatus_retx := hx.bstatus_retx

/-- No segment that has been sent has the SN TX_Next. -/
def TxNextFree (e : NrRlcEntityAm) : Prop :=
  ∀ a ∈ e.waitList ++ e.retransmitList, a.sdu.sn ≠ e.txNext

instance (e : NrRlcEntityAm) : Decidable e.TxNextFree :=
  inferInstanceAs (Decidable (∀ a ∈ _, _))

theorem TxInv.assignSn (h : TxInv [g] e) (htx : ∀ a ∈ e.txList, Unsent a)
    (hstall : ¬e.isWindowStalling) (hfree : g.sdu.sn = -1 → e.TxNextFree) :
    TxInv [(e.assignSn g).2] (e.assignSn g).1 := by
  unfold NrRlcEntityAm.assignSn
  split_ifs with hsn
  · have hwin := h.window.space.two_mul_window
    have hnext := h.window.txNext_sn
    have hle := h.window.txNext_le
    rw [isWindowStalling_iff h.window] at hstall
    have hdist : e.txDist ((e.txNext + 1) % e.snModulus) = e.txDist e.txNext + 1 := by
      refine dist_succ ?_ h.window.space.modulus_pos
      show e.txDist e.txNext + 1 < _
      omega
    refine ⟨⟨h.window.space, h.window.space.isSn_emod _, h.window.txNextAck_sn, ?_⟩,
      ⟨h.lists.wait_sorted, h.lists.retransmit_sorted, h.lists.sn_range⟩,
      fun a ha => .inl (htx a (List.mem_of_mem_head? ha)), h.tx_tail, ?_, h.tx_end, h.wait_end⟩
    · show e.txDist ((e.txNext + 1) % e.snModulus) ≤ e.windowSize
      omega
    · refine h.pool.assign hsn (by have := hnext.1; omega) fun a ha => ?_
      rcases List.mem_append.1 (show a ∈ e.txList ++ _ from ha) with ha | ha
      · rw [(htx a ha).sn_eq]
        have := hnext.1
        omega
      · exact hfree hsn a ha
  · exact h

theorem TxExact.assignSn (hx : TxExact [g] e) :
    TxExact [(e.assignSn g).2] (e.assignSn g).1 := by
  unfold NrRlcEntityAm.assignSn
  split_ifs with hsn
  · exact ⟨hx.full.assign, hx.tx_size.trans SduHeap.liveSize_assign.symm, hx.bstatus_tx,
      hx.bstatus_retx⟩
  · exact hx

/-- The SN of what is sent from the TX list : the last one that has been given. -/
theorem TxInv.isLastSn_assignSn (h : TxInv [g] e) (hg : e.TxHead g) :
    (e.assignSn g).1.IsLastSn (e.assignSn g).2.sdu.sn := by
  unfold NrRlcEntityAm.assignSn
  split_ifs with hsn
  · exact ⟨h.window.txNext_sn, rfl⟩
  · exact hg.elim (fun hu => absurd hu.sn_eq hsn) (·.1)

theorem listed_putBackTx {a b : NrRlcSduSegment} :
    (a :: b :: e.listed).Perm ([a] ++ ((e.resegment g).putBackTx b).listed) :=
  .refl _

theorem TxInv.splitTx (h : TxInv [g] e) (htx : ∀ a ∈ e.txList, Unsent a)
    (hg : e.IsLastSn g.sdu.sn) (hroom : e.computePduHeaderSize g + 1 ≤ size) :
    TxInv [(e.splitTx g size).2] (e.splitTx g size).1 := by
  unfold NrRlcEntityAm.splitTx
  split_ifs with hover
  · have hs := isSplit_resegment hroom hover
    have hpool := h.pool.split hs rfl (by have := hg.1.1; omega)
    have hq : SegmentQueue (e.nextSegment + 1) (e.resegmentNext g size :: e.txList) _ :=
      h.txQueue.putBack rfl
    refine ⟨⟨h.window.space, h.window.txNext_sn, h.window.txNextAck_sn, h.window.txNext_le⟩,
      ⟨h.lists.wait_sorted, h.lists.retransmit_sorted, h.lists.sn_range⟩, fun a ha => ?_,
      htx, hpool.perm listed_putBackTx, hq.end_eq, h.wait_end⟩
    rw [← Option.some.inj ha]
    exact .inr ⟨hg, rfl⟩
  · exact h

theorem TxExact.splitTx (hx : TxExact [g] e) :
    TxExact [(e.splitTx g size).2] (e.splitTx g size).1 := by
  unfold NrRlcEntityAm.splitTx
  split_ifs with hover
  · have hfull := hx.full.split (a := e.resegmentHead g size) (b := e.resegmentNext g size) rfl rfl
    refine ⟨hfull.perm listed_putBackTx, ?_, ?_, hx.bstatus_retx⟩
    · exact hx.tx_size.trans (liveSize_resegment e g).symm
    · show e.bstatusTxSize + e.pduSize _ = ((_ :: e.txList).map e.pduSize).sum
      rw [hx.bstatus_tx, List.map_cons, List.sum_cons, add_comm]
  · exact hx

/-! ## The wait list -/

theorem listed_addToWaitList : (g :: e.listed).Perm (e.addToWaitList g).listed := by
  have hperm : (g :: e.waitList).Perm (e.nrRlcTxSduSegmentListAdd e.waitList g) :=
    (insertBefore_perm _).symm
  show (g :: (e.txList ++ (e.waitList ++ e.retransmitList))).Perm
    (e.txList ++ (e.nrRlcTxSduSegmentListAdd e.waitList g ++ e.retransmitList))
  exact List.perm_middle.symm.trans ((hperm.append_right _).append_left _)

theorem TxInv.addToWaitList (h : TxInv [g] e) (hg : IsSn e.snModulus g.sdu.sn) :
    TxInv [] (e.addToWaitList g) where
  window := ⟨h.window.space, h.window.txNext_sn, h.window.txNextAck_sn, h.window.txNext_le⟩
  lists := by
    refine ⟨txSorted_listAdd h.window.txNextAck_sn h.lists.wait_sorted
      (fun a ha => h.sn_range a (by simp [ha])) hg, h.lists.retransmit_sorted, fun a ha => ?_⟩
    have ha' : a ∈ insertBefore _ g e.waitList ++ e.retransmitList := ha
    simp only [List.mem_append, mem_insertBefore] at ha'
    rcases ha' with (rfl | ha') | ha'
    · exact hg
    · exact h.sn_range a (by simp [ha'])
    · exact h.sn_range a (by simp [ha'])
  tx_head := h.tx_head
  tx_tail := h.tx_tail
  pool := h.pool.perm listed_addToWaitList
  tx_end := h.tx_end
  wait_end := rfl

theorem TxExact.addToWaitList (hx : TxExact [g] e) : TxExact [] (e.addToWaitList g) :=
  ⟨hx.full.perm listed_addToWaitList, hx.tx_size, hx.bstatus_tx, hx.bstatus_retx⟩

/-! ## The generation of a data PDU -/

/-- The lists after the head of the retransmit list has been sent. -/
def sentRetransmit (e : NrRlcEntityAm) (g : NrRlcSduSegment) (rest : List NrRlcSduSegment)
    (size : Int) : NrRlcEntityAm :=
  let r := (e.takeRetransmit g rest).splitRetransmit g size
  r.1.addToWaitList r.2

/-- The lists after the head of the TX list has been sent. -/
def sentTx (e : NrRlcEntityAm) (g : NrRlcSduSegment) (rest : List NrRlcSduSegment) (size : Int) :
    NrRlcEntityAm :=
  let r₁ := (e.takeTx g rest).assignSn g
  let r₂ := r₁.1.splitTx r₁.2 size
  r₂.1.addToWaitList r₂.2

/-- The sender, the rest of which is unchanged, sends the head of one of its lists. -/
inductive DataPduSent (e : NrRlcEntityAm) (size : Int) (e' : NrRlcEntityAm) : Prop
  | retransmit {g : NrRlcSduSegment} {rest : List NrRlcSduSegment} :
      e.retransmitList = g :: rest → e.computePduHeaderSize g + 1 ≤ size →
      e'.txView = (e.sentRetransmit g rest size).txView → DataPduSent e size e'
  | tx {g : NrRlcSduSegment} {rest : List NrRlcSduSegment} :
      e.txList = g :: rest → ¬e.isWindowStalling → e.computePduHeaderSize g + 1 ≤ size →
      e'.txView = (e.sentTx g rest size).txView → DataPduSent e size e'

/-- The next SDU to send does not get an SN that is in use. -/
def SendsFreeSn (e : NrRlcEntityAm) : Prop :=
  ∀ g ∈ e.txList.head?, g.sdu.sn = -1 → e.TxNextFree

instance (e : NrRlcEntityAm) : Decidable e.SendsFreeSn :=
  inferInstanceAs (Decidable (∀ g ∈ e.txList.head?, _))

/-- The SN of what `splitRetransmit` and `splitTx` leave in the PDU. -/
theorem sn_splitRetransmit (e : NrRlcEntityAm) (g : NrRlcSduSegment) (size : Int) :
    (e.splitRetransmit g size).1.snModulus = e.snModulus ∧
    (e.splitRetransmit g size).2.sdu = g.sdu := by
  unfold splitRetransmit
  split_ifs <;> exact ⟨rfl, rfl⟩

theorem sn_splitTx (e : NrRlcEntityAm) (g : NrRlcSduSegment) (size : Int) :
    (e.splitTx g size).1.snModulus = e.snModulus ∧
    (e.splitTx g size).2.sdu = g.sdu := by
  unfold splitTx
  split_ifs <;> exact ⟨rfl, rfl⟩

/-- The segment of the retransmit list in the PDU. -/
theorem TxInv.retransmitInHand (h : TxInv [] e) (hr : e.retransmitList = g :: rest)
    (hroom : e.computePduHeaderSize g + 1 ≤ size) :
    let r := (e.takeRetransmit g rest).splitRetransmit g size
    TxInv [r.2] r.1 ∧ IsSn r.1.snModulus r.2.sdu.sn := by
  have hg := h.sn_range g (by simp [hr])
  have hs := h.lists.retransmit_sorted
  rw [hr] at hs
  refine ⟨(h.takeRetransmit hr).splitRetransmit hg (List.pairwise_cons.1 hs).1 hroom, ?_⟩
  obtain ⟨hM, hsdu⟩ := sn_splitRetransmit (e.takeRetransmit g rest) g size
  rw [hM, hsdu]
  exact hg

/-- The segment of the TX list in the PDU. -/
theorem TxInv.txInHand (h : TxInv [] e) (hl : e.txList = g :: rest) (hstall : ¬e.isWindowStalling)
    (hfree : e.SendsFreeSn) (hroom : e.computePduHeaderSize g + 1 ≤ size) :
    let r₁ := (e.takeTx g rest).assignSn g
    let r₂ := r₁.1.splitTx r₁.2 size
    TxInv [r₂.2] r₂.1 ∧ IsSn r₂.1.snModulus r₂.2.sdu.sn := by
  have htx := h.tx_rest_unsent hl
  have htake := h.takeTx hl
  have hlast := htake.isLastSn_assignSn (show (e.takeTx g rest).TxHead g from
    h.tx_head g (by simp [hl]))
  have hassign := htake.assignSn htx hstall (hfree g (by simp [hl]))
  have htx' : ∀ a ∈ ((e.takeTx g rest).assignSn g).1.txList, Unsent a := by
    unfold NrRlcEntityAm.assignSn
    split_ifs <;> exact htx
  have hroom' : ((e.takeTx g rest).assignSn g).1.computePduHeaderSize
      ((e.takeTx g rest).assignSn g).2 + 1 ≤ size := by
    unfold NrRlcEntityAm.assignSn
    split_ifs <;> exact hroom
  refine ⟨hassign.splitTx htx' hlast hroom', ?_⟩
  obtain ⟨hM, hsdu⟩ := sn_splitTx ((e.takeTx g rest).assignSn g).1
    ((e.takeTx g rest).assignSn g).2 size
  rw [hM, hsdu]
  exact hlast.1

theorem TxInv.sentRetransmit (h : TxInv [] e) (hr : e.retransmitList = g :: rest)
    (hroom : e.computePduHeaderSize g + 1 ≤ size) : TxInv [] (e.sentRetransmit g rest size) := by
  obtain ⟨hinv, hsn⟩ := h.retransmitInHand hr hroom
  exact hinv.addToWaitList hsn

theorem TxInv.sentTx (h : TxInv [] e) (hl : e.txList = g :: rest) (hstall : ¬e.isWindowStalling)
    (hfree : e.SendsFreeSn) (hroom : e.computePduHeaderSize g + 1 ≤ size) :
    TxInv [] (e.sentTx g rest size) := by
  obtain ⟨hinv, hsn⟩ := h.txInHand hl hstall hfree hroom
  exact hinv.addToWaitList hsn

theorem TxInv.dataPduSent (h : TxInv [] e) (hfree : e.SendsFreeSn)
    (hs : DataPduSent e size e') : TxInv [] e' := by
  cases hs with
  | retransmit hr hroom heq => exact (h.sentRetransmit hr hroom).congr heq
  | tx hl hstall hroom heq => exact (h.sentTx hl hstall hfree hroom).congr heq

theorem TxExact.dataPduSent (hx : TxExact [] e) (hs : DataPduSent e size e') : TxExact [] e' := by
  cases hs with
  | retransmit hr _ heq => exact ((hx.takeRetransmit hr).splitRetransmit.addToWaitList).congr heq
  | tx hl _ _ heq => exact ((hx.takeTx hl).assignSn.splitTx.addToWaitList).congr heq

theorem waitList_ne_nil_of_dataPduSent (hs : DataPduSent e size e') : e'.waitList ≠ [] := by
  cases hs with
  | retransmit _ _ heq =>
    exact show e'.txView.waitList ≠ [] from heq ▸ insertBefore_ne_nil _
  | tx _ _ _ heq =>
    exact show e'.txView.waitList ≠ [] from heq ▸ insertBefore_ne_nil _

/-! ## What is sent -/

@[simp] theorem txView_sendPdu (e : NrRlcEntityAm) (g : NrRlcSduSegment) (size : Int) (p : Bool) :
    (e.sendPdu g size p).entity.txView = e.txView := by
  unfold sendPdu serializeSdu
  split_ifs <;> rfl

theorem dataHeader_ne_nil (hn : 6 ≤ e.snFieldLength) : (e.dataHeader g size).buffer ≠ [] := by
  obtain ⟨bs, hbs, hlen⟩ : ∃ bs, (e.dataHeader g size).HasWritten bs ∧ 10 ≤ bs.length := by
    have h4 := ((((NrRlcPduEncoder.HasWritten.init size).putBits 1 1).putBits 0 1).putBits
      (!g.isFirst).toNat 1).putBits (!g.isLast).toNat 1
    obtain ⟨bs, hbs, hlen⟩ : ∃ bs, (if e.snFieldLength = 18 then
        (((((NrRlcPduEncoder.init size).putBits 1 1).putBits 0 1).putBits
          (!g.isFirst).toNat 1).putBits (!g.isLast).toNat 1).putBits 0 2
        else ((((NrRlcPduEncoder.init size).putBits 1 1).putBits 0 1).putBits
          (!g.isFirst).toNat 1).putBits (!g.isLast).toNat 1).HasWritten bs ∧ 4 ≤ bs.length := by
      split_ifs
      · exact ⟨_, h4.putBits 0 2, by simp⟩
      · exact ⟨_, h4, by simp⟩
    have hsn := hbs.putBits g.sdu.sn.toNat e.snFieldLength
    unfold dataHeader
    cases hf : g.isFirst with
    | true => exact ⟨_, by simpa [hf] using hsn, by simp; omega⟩
    | false => exact ⟨_, by simpa [hf] using hsn.putBits g.so.toNat 16, by simp; omega⟩
  intro hnil
  have hlt := hbs.length_lt
  rw [hnil, List.length_nil] at hlt
  omega

theorem sendPdu_ne_nil (hn : 6 ≤ e.snFieldLength) (p : Bool) :
    (e.sendPdu g size p).pdu ≠ [] := by
  have hheader : ({ e with forcePoll := false }.dataHeader g size).buffer ≠ [] :=
    dataHeader_ne_nil hn
  unfold sendPdu serializeSdu
  split_ifs
  · simp [hheader]
  · simp [hheader]

theorem TxInv.generateRetxPdu_cases (h : TxInv [] e) (hr : e.retransmitList ≠ []) (size : Int) :
    ∃ r, e.generateRetxPdu size = some r ∧
      (r.pdu = [] ∧ r.entity = e ∨ r.pdu ≠ [] ∧ DataPduSent e size r.entity) := by
  obtain ⟨g, rest, hr⟩ := List.exists_cons_of_ne_nil hr
  unfold generateRetxPdu
  simp only [hr]
  split_ifs with hroom
  · exact ⟨_, rfl, .inl ⟨rfl, rfl⟩⟩
  · obtain ⟨hinv, hsn⟩ := h.retransmitInHand hr (not_lt.1 hroom)
    rw [hinv.putInWaitList_eq hsn, Option.map_some]
    refine ⟨_, rfl, .inr ⟨sendPdu_ne_nil ?_ _, .retransmit hr (not_lt.1 hroom) ?_⟩⟩
    · have hn : 6 ≤ e.snFieldLength := by
        rcases h.window.space.length_valid with hn | hn | hn <;> omega
      show 6 ≤ ((e.takeRetransmit g rest).splitRetransmit g size).1.snFieldLength
      unfold NrRlcEntityAm.splitRetransmit
      split_ifs <;> exact hn
    · rw [txView_sendPdu]
      rfl

theorem TxInv.generateTxPdu_cases (h : TxInv [] e) (hfree : e.SendsFreeSn) (size : Int) :
    ∃ r, e.generateTxPdu size = some r ∧ (r.entity = e ∨ DataPduSent e size r.entity) := by
  unfold generateTxPdu
  split_ifs with hstall
  · exact ⟨_, rfl, .inl rfl⟩
  · cases hl : e.txList with
    | nil => exact ⟨_, rfl, .inl rfl⟩
    | cons g rest =>
      simp only
      split_ifs with hroom
      · exact ⟨_, rfl, .inl rfl⟩
      · obtain ⟨hinv, hsn⟩ := h.txInHand hl hstall hfree (not_lt.1 hroom)
        rw [hinv.putInWaitList_eq hsn, Option.map_some]
        refine ⟨_, rfl, .inr (.tx hl hstall (not_lt.1 hroom) ?_)⟩
        rw [txView_sendPdu]
        rfl

/-- What `generate_pdu` does to the lists : nothing, or a data PDU is sent. -/
theorem TxInv.generatePdu_cases (h : TxInv [] e) (hfree : e.SendsFreeSn) (size : Int) :
    ∃ r, e.generatePdu size = some r ∧
      (r.entity = e ∨ r = e.generateStatus size ∨ DataPduSent e size r.entity) := by
  unfold generatePdu
  split_ifs with hstatus
  · exact ⟨_, rfl, .inr (.inl rfl)⟩
  · unfold generateDataPdu
    split_ifs with hr
    · obtain ⟨r, heq, hcases⟩ := h.generateTxPdu_cases hfree size
      exact ⟨r, heq, hcases.imp_right .inr⟩
    · obtain ⟨r, heq, ⟨hpdu, hentity⟩ | ⟨hpdu, hsent⟩⟩ := h.generateRetxPdu_cases hr size
      · rw [heq, Option.bind_some, if_neg (by simp [hpdu]), hentity]
        obtain ⟨r, heq, hcases⟩ := h.generateTxPdu_cases hfree size
        exact ⟨r, heq, hcases.imp_right .inr⟩
      · rw [heq, Option.bind_some, if_pos hpdu]
        exact ⟨r, rfl, .inr (.inr hsent)⟩

end NrRlcEntityAm

end NrStack
