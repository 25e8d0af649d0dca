import NrStack.Rlc.AmTxSend

/-!
# The memory of the sender and acknowledgement

`process_control_pdu`, the expiry of t-PollRetransmit and re-establishment keep `TxInv`.
They keep `TxExact` as well, unless the walk for a STATUS PDU splices the retransmit
list : the segments it loses then keep their SDUs in memory.

`ScanMem` and `ScanExact` are what holds during the walk of all the segments it has in
its pieces of the two lists.
-/

namespace NrStack

namespace AckScan

/-- The retransmit list in its pieces. -/
def retransmitPieces (s : AckScan) : List NrRlcSduSegment :=
  s.newRetransmit ++ (s.newRetransmitNext ++ s.curRetransmit)

/-- All the segments of the walk. -/
def segments (s : AckScan) : List NrRlcSduSegment :=
  (s.prevWait ++ s.curWait) ++ s.retransmitPieces

/-- The end pointer of the wait list is right, or is set once the walk is over. -/
def WaitEndOk (s : AckScan) : Prop :=
  (s.endWait = none ∧ s.entity.waitEnd = (s.prevWait ++ s.curWait).getLast?.map (·.addr)) ∨
    (s.curWait = [] ∧ s.endWait = some (s.prevWait.getLast?.map (·.addr)))

/-- Nothing is left to classify after a splice. -/
def SpliceOk (s : AckScan) : Prop :=
  s.newRetransmitNext ≠ [] → s.curWait = [] ∧ s.curRetransmit = []

variable {s s' : AckScan} {w r : NrRlcSduSegment} {ws rs : List NrRlcSduSegment}

theorem SpliceOk.next_eq_nil (h : s.SpliceOk) (hne : s.curWait ≠ [] ∨ s.curRetransmit ≠ []) :
    s.newRetransmitNext = [] := by
  by_contra hlost
  obtain ⟨hw, hr⟩ := h hlost
  exact hne.elim (absurd hw) (absurd hr)

/-- Taking the head of `cur_wait_list` out of the list. -/
theorem WaitEndOk.unlinkWait (h : s.WaitEndOk) (hw : s.curWait = w :: ws)
    (hnodup : ((s.prevWait ++ s.curWait).map (·.addr)).Nodup) :
    (s.unlinkWait w ws).WaitEndOk := by
  rcases h with ⟨hend, hlast⟩ | ⟨hnil, -⟩
  · rw [hw] at hnodup hlast
    cases ws with
    | nil =>
      refine .inr ⟨rfl, ?_⟩
      simp only [AckScan.unlinkWait]
      rw [if_pos]
      simp [hlast]
    | cons b bs =>
      refine .inl ⟨?_, ?_⟩
      · simp only [AckScan.unlinkWait]
        rw [if_neg, hend]
        intro heq
        obtain ⟨c, hc⟩ : ∃ c, (b :: bs).getLast? = some c :=
          ⟨_, List.getLast?_eq_some_getLast (List.cons_ne_nil b bs)⟩
        rw [hlast, List.getLast?_append, List.getLast?_cons_cons, hc] at heq
        rw [List.map_append, List.map_cons] at hnodup
        refine (List.nodup_cons.1 (List.nodup_append'.1 hnodup).2.1).1 ?_
        rw [Option.some.inj heq]
        exact List.mem_map_of_mem (List.mem_of_getLast? hc)
      · show s.entity.waitEnd = (s.prevWait ++ b :: bs).getLast?.map (·.addr)
        rw [hlast, List.getLast?_append, List.getLast?_append, List.getLast?_cons_cons]
  · simp [hw] at hnil

/-- A move of the border in the wait list. -/
theorem WaitEndOk.move (h : s.WaitEndOk) (hw : s.curWait ≠ []) (hend : s'.endWait = s.endWait)
    (hentity : s'.entity.waitEnd = s.entity.waitEnd)
    (hlist : s'.prevWait ++ s'.curWait = s.prevWait ++ s.curWait) : s'.WaitEndOk := by
  rcases h with ⟨h1, h2⟩ | ⟨hnil, -⟩
  · exact .inl ⟨hend.trans h1, by rw [hentity, h2, hlist]⟩
  · exact absurd hnil hw

theorem WaitEndOk.congr (h : s.WaitEndOk) (hend : s'.endWait = s.endWait)
    (hentity : s'.entity.waitEnd = s.entity.waitEnd) (hprev : s'.prevWait = s.prevWait)
    (hcur : s'.curWait = s.curWait) : s'.WaitEndOk := by
  unfold WaitEndOk at *
  rwa [hend, hentity, hprev, hcur]

end AckScan

namespace NrRlcEntityAm

@[simp] theorem txView_reportMaxRetx (e : NrRlcEntityAm) (g : NrRlcSduSegment)
    (reached : NrRlcSduEntry → Bool) : (e.reportMaxRetx g reached).txView = e.txView := by
  unfold reportMaxRetx
  split_ifs <;> rfl

end NrRlcEntityAm

/-! ## The memory during the walk -/

/-- The memory during a walk from `e`. -/
structure ScanMem (e : NrRlcEntityAm) (s : AckScan) : Prop where
  frame : s.entity.scanFrame = e.scanFrame
  pool : SegmentPool e.nextSegment e.nextSdu s.entity.sdus (e.txList ++ s.segments)
  splice : s.SpliceOk
  wait_end : s.WaitEndOk

/-- The counters during a walk from `e` that has lost no segment yet. -/
structure ScanExact (e : NrRlcEntityAm) (s : AckScan) : Prop where
  full : SduHeapFull s.entity.sdus (e.txList ++ s.segments)
  tx_size : s.entity.txSize = liveSize s.entity.sdus
  bstatus_retx : s.entity.bstatusRetxSize = (s.retransmitPieces.map e.pduSize).sum

/-- A segment is freed : `s'` is the walk after, with the segments less `g`. -/
structure ScanFrees (s : AckScan) (g : NrRlcSduSegment) (s' : AckScan) : Prop where
  segments : s.segments.Perm (g :: s'.segments)
  sdus : s'.entity.sdus = (nrRlcFreeSduSegment s.entity.sdus g).1
  txSize : s'.entity.txSize = if (nrRlcFreeSduSegment s.entity.sdus g).2 then
    s.entity.txSize - g.sdu.size else s.entity.txSize

/-- No segment is freed : only the order of the segments and counts of SDUs change. -/
structure ScanKeeps (s s' : AckScan) : Prop where
  segments : s.segments.Perm s'.segments
  sdus : s'.entity.sdus = s.entity.sdus ∨ ∃ id, s'.entity.sdus =
    updateSdu id (fun d => { d with retxCount := d.retxCount + 1 }) s.entity.sdus
  txSize : s'.entity.txSize = s.entity.txSize

section Moves

variable {e : NrRlcEntityAm} {s s' : AckScan} {g w r : NrRlcSduSegment}
  {ws rs : List NrRlcSduSegment} {ackSn : Int} {n : NackPiece}

theorem ScanFrees.perm (h : ScanFrees s g s') :
    (e.txList ++ s.segments).Perm (g :: (e.txList ++ s'.segments)) :=
  (h.segments.append_left _).trans List.perm_middle

theorem ScanFrees.pool (h : ScanFrees s g s') (hm : ScanMem e s) :
    SegmentPool e.nextSegment e.nextSdu s'.entity.sdus (e.txList ++ s'.segments) :=
  h.sdus ▸ (hm.pool.perm h.perm).free

theorem ScanKeeps.pool (h : ScanKeeps s s') (hm : ScanMem e s) :
    SegmentPool e.nextSegment e.nextSdu s'.entity.sdus (e.txList ++ s'.segments) := by
  have hpool := hm.pool.perm (h.segments.append_left e.txList)
  rcases h.sdus with heq | ⟨id, heq⟩
  · exact heq ▸ hpool
  · exact heq ▸ hpool.retx

theorem liveSize_retx (id : Nat) (heap : List NrRlcSduEntry) :
    liveSize (updateSdu id (fun d => { d with retxCount := d.retxCount + 1 }) heap) =
      liveSize heap :=
  liveSize_updateSdu (f := fun d => { d with retxCount := d.retxCount + 1 }) fun _ => rfl

theorem ScanFrees.exact (h : ScanFrees s g s') (hm : ScanMem e s) (hx : ScanExact e s)
    (hretx : s'.entity.bstatusRetxSize = (s'.retransmitPieces.map e.pduSize).sum) :
    ScanExact e s' := by
  have hpool := hm.pool.perm h.perm
  refine ⟨h.sdus ▸ SduHeapFull.free hpool.heap (hx.full.perm h.perm), ?_, hretx⟩
  rw [h.sdus, hpool.heap.liveSize_free, h.txSize, hx.tx_size]
  split_ifs <;> omega

theorem ScanKeeps.exact (h : ScanKeeps s s') (hx : ScanExact e s)
    (hretx : s'.entity.bstatusRetxSize = (s'.retransmitPieces.map e.pduSize).sum) :
    ScanExact e s' := by
  have hfull := hx.full.perm (h.segments.append_left e.txList)
  rcases h.sdus with heq | ⟨id, heq⟩
  · exact ⟨heq ▸ hfull, by rw [h.txSize, heq, hx.tx_size], hretx⟩
  · exact ⟨heq ▸ hfull.retx,
      by rw [h.txSize, heq, liveSize_retx, hx.tx_size], hretx⟩

theorem segments_eq_cons_wait (hw : s.curWait = w :: ws) :
    s.segments.Perm (w :: (s.prevWait ++ ws ++ s.retransmitPieces)) := by
  rw [AckScan.segments, hw, List.append_assoc, List.append_assoc]
  exact List.perm_middle

theorem segments_eq_cons_retransmit (hr : s.curRetransmit = r :: rs) :
    s.retransmitPieces.Perm (r :: (s.newRetransmit ++ (s.newRetransmitNext ++ rs))) := by
  rw [AckScan.retransmitPieces, hr, ← List.append_assoc, ← List.append_assoc]
  exact List.perm_middle

theorem scanFrees_freeWait (hw : s.curWait = w :: ws) : ScanFrees s w (s.freeWait w ws) :=
  ⟨segments_eq_cons_wait hw, rfl, rfl⟩

theorem scanFrees_freeRetransmit (hr : s.curRetransmit = r :: rs) :
    ScanFrees s r (s.freeRetransmit r rs) :=
  ⟨((segments_eq_cons_retransmit hr).append_left _).trans List.perm_middle, rfl, rfl⟩

theorem entity_nackWait : (s.nackWait w ws).entity.sdus =
      updateSdu w.sdu.id (fun d => { d with retxCount := d.retxCount + 1 }) s.entity.sdus ∧
    (s.nackWait w ws).entity.txSize = s.entity.txSize ∧
    (s.nackWait w ws).entity.bstatusRetxSize = s.entity.bstatusRetxSize + s.entity.pduSize w := by
  simp only [AckScan.nackWait, NrRlcEntityAm.reportMaxRetx]
  split_ifs <;> exact ⟨rfl, rfl, rfl⟩

theorem retransmitPieces_nackWait (hnext : s.newRetransmitNext = []) :
    (s.nackWait w ws).retransmitPieces.Perm (w :: s.retransmitPieces) := by
  simp only [AckScan.retransmitPieces, AckScan.nackWait, AckScan.unlinkWait, hnext,
    List.nil_append, List.append_assoc, List.singleton_append]
  exact List.perm_middle

theorem scanKeeps_nackWait (hw : s.curWait = w :: ws) (hnext : s.newRetransmitNext = []) :
    ScanKeeps s (s.nackWait w ws) := by
  refine ⟨(segments_eq_cons_wait hw).trans ?_, .inr ⟨_, entity_nackWait.1⟩, entity_nackWait.2.1⟩
  exact List.perm_middle.symm.trans ((retransmitPieces_nackWait hnext).symm.append_left _)

theorem retransmitPieces_keepRetransmit (hr : s.curRetransmit = r :: rs)
    (hnext : s.newRetransmitNext = []) :
    (s.keepRetransmit r rs).retransmitPieces = s.retransmitPieces := by
  simp [AckScan.retransmitPieces, AckScan.keepRetransmit, hnext, hr]

theorem ScanMem.wait_nodup (hm : ScanMem e s) :
    ((s.prevWait ++ s.curWait).map (·.addr)).Nodup :=
  hm.pool.addr_nodup.sublist
    (((List.sublist_append_left _ _).trans (List.sublist_append_right _ _)).map _)

theorem ScanMem.freeWait (hm : ScanMem e s) (hw : s.curWait = w :: ws) :
    ScanMem e (s.freeWait w ws) where
  frame := hm.frame
  pool := (scanFrees_freeWait hw).pool hm
  splice := fun hne => absurd (hm.splice.next_eq_nil (.inl (by simp [hw]))) hne
  wait_end := hm.wait_end.unlinkWait hw hm.wait_nodup

theorem ScanMem.freeRetransmit (hm : ScanMem e s) (hr : s.curRetransmit = r :: rs) :
    ScanMem e (s.freeRetransmit r rs) where
  frame := hm.frame
  pool := (scanFrees_freeRetransmit hr).pool hm
  splice := fun hne => absurd (hm.splice.next_eq_nil (.inr (by simp [hr]))) hne
  wait_end := hm.wait_end.congr rfl rfl rfl rfl

theorem ScanMem.nackWait (hm : ScanMem e s) (hw : s.curWait = w :: ws) :
    ScanMem e (s.nackWait w ws) where
  frame := by
    have hframe := NrRlcEntityAm.scanFrame_reportMaxRetx (e := s.entity.incrementRetxCount w) w
      fun d => decide (d.retxCount ≥ s.entity.maxRetxThreshold * d.refCount)
    exact hframe.trans hm.frame
  pool := (scanKeeps_nackWait hw (hm.splice.next_eq_nil (.inl (by simp [hw])))).pool hm
  splice := fun hne => absurd rfl hne
  wait_end := by
    refine (hm.wait_end.unlinkWait hw hm.wait_nodup).congr rfl ?_ rfl rfl
    simp only [AckScan.nackWait, NrRlcEntityAm.reportMaxRetx]
    split_ifs <;> rfl

theorem ScanMem.move (hm : ScanMem e s) (h : AckMove ackSn n s s') : ScanMem e s' := by
  have hpool := hm.pool
  cases h with
  | nackWait hw => exact hm.nackWait hw
  | freeWait hw => exact hm.freeWait hw
  | @leaveWait w ws hw =>
    have hlist : (s.prevWait ++ w :: ws) ++ [] = s.prevWait ++ s.curWait := by simp [hw]
    refine ⟨hm.frame, ?_, fun hne => absurd (hm.splice.next_eq_nil (.inl (by simp [hw]))) hne,
      hm.wait_end.move (by simp [hw]) rfl rfl hlist⟩
    rwa [AckScan.segments, ← hlist] at hpool
  | @skipWait w ws hw =>
    have hlist : (s.prevWait ++ [w]) ++ ws = s.prevWait ++ s.curWait := by simp [hw]
    refine ⟨hm.frame, ?_, fun hne => absurd (hm.splice.next_eq_nil (.inl (by simp [hw]))) hne,
      hm.wait_end.move (by simp [hw]) rfl rfl hlist⟩
    rwa [AckScan.segments, ← hlist] at hpool
  | @keepRetransmit r rs hr =>
    have hnext := hm.splice.next_eq_nil (.inr (by simp [hr]))
    refine ⟨hm.frame, ?_, fun hne => absurd rfl hne, hm.wait_end.congr rfl rfl rfl rfl⟩
    rwa [AckScan.segments, ← retransmitPieces_keepRetransmit hr hnext] at hpool
  | freeRetransmit hr => exact hm.freeRetransmit hr
  | @spliceRetransmit r rs hr hw =>
    have hnext := hm.splice.next_eq_nil (.inr (by simp [hr]))
    refine ⟨hm.frame, ?_, fun _ => ⟨hw, rfl⟩, hm.wait_end.congr rfl rfl rfl rfl⟩
    rw [AckScan.segments, AckScan.retransmitPieces, hnext, hr, List.nil_append] at hpool
    simpa only [AckScan.segments, AckScan.retransmitPieces, List.append_nil] using hpool

theorem ScanExact.freeRetransmit (hm : ScanMem e s) (hx : ScanExact e s)
    (hr : s.curRetransmit = r :: rs) : ScanExact e (s.freeRetransmit r rs) := by
  refine (scanFrees_freeRetransmit hr).exact hm hx ?_
  have hsum := ((segments_eq_cons_retransmit hr).map e.pduSize).sum_eq
  rw [← hx.bstatus_retx, List.map_cons, List.sum_cons] at hsum
  show s.entity.bstatusRetxSize - s.entity.pduSize r =
    ((s.newRetransmit ++ (s.newRetransmitNext ++ rs)).map e.pduSize).sum
  rw [hsum, NrRlcEntityAm.pduSize_of_scanFrame hm.frame, add_sub_cancel_left]

theorem ScanExact.move (hm : ScanMem e s) (hx : ScanExact e s) (h : AckMove ackSn n s s') :
    ScanExact e s' := by
  have hfull := hx.full
  have hretx := hx.bstatus_retx
  cases h with
  | @nackWait w ws hw =>
    have hnext := hm.splice.next_eq_nil (.inl (by simp [hw]))
    refine (scanKeeps_nackWait hw hnext).exact hx ?_
    rw [entity_nackWait.2.2, ((retransmitPieces_nackWait hnext).map e.pduSize).sum_eq,
      List.map_cons, List.sum_cons, hretx, NrRlcEntityAm.pduSize_of_scanFrame hm.frame, add_comm]
  | freeWait hw => exact (scanFrees_freeWait hw).exact hm hx hretx
  | @leaveWait w ws hw =>
    have hlist : (s.prevWait ++ w :: ws) ++ [] = s.prevWait ++ s.curWait := by simp [hw]
    rw [AckScan.segments, ← hlist] at hfull
    exact ⟨hfull, hx.tx_size, hretx⟩
  | @skipWait w ws hw =>
    have hlist : (s.prevWait ++ [w]) ++ ws = s.prevWait ++ s.curWait := by simp [hw]
    rw [AckScan.segments, ← hlist] at hfull
    exact ⟨hfull, hx.tx_size, hretx⟩
  | @keepRetransmit r rs hr =>
    have hpieces := retransmitPieces_keepRetransmit hr (hm.splice.next_eq_nil (.inr (by simp [hr])))
    refine ⟨?_, hx.tx_size, by rw [hpieces]; exact hretx⟩
    rwa [AckScan.segments, ← hpieces] at hfull
  | freeRetransmit hr => exact hx.freeRetransmit hm hr
  | @spliceRetransmit r rs hr =>
    have hnext := hm.splice.next_eq_nil (.inr (by simp [hr]))
    have hpieces : ({ s with newRetransmitNext := r :: rs, curRetransmit := [] } :
        AckScan).retransmitPieces = s.retransmitPieces := by
      simp [AckScan.retransmitPieces, hnext, hr]
    refine ⟨?_, hx.tx_size, by rw [hpieces]; exact hretx⟩
    rwa [AckScan.segments, ← hpieces] at hfull

theorem ScanMem.scanRule (e : NrRlcEntityAm) (ackSn : Int) :
    ScanRule e.snModulus ackSn fun _ s => ScanMem e s where
  snModulus_eq := fun h => show _ = e.scanFrame.snModulus from h.frame ▸ rfl
  move := fun h hm => h.move hm
  done := fun h _ => h
  poll := fun _ _ h => ⟨h.frame, h.pool, h.splice, h.wait_end⟩
  freeWait := fun h hw _ => h.freeWait hw
  freeRetransmit := fun h hr _ => h.freeRetransmit hr

theorem ScanExact.scanRule (e : NrRlcEntityAm) (ackSn : Int) :
    ScanRule e.snModulus ackSn fun _ s => ScanMem e s ∧ ScanExact e s where
  snModulus_eq := fun h => show _ = e.scanFrame.snModulus from h.1.frame ▸ rfl
  move := fun h hm => ⟨h.1.move hm, h.2.move h.1 hm⟩
  done := fun h _ => h
  poll := fun _ _ h => ⟨⟨h.1.frame, h.1.pool, h.1.splice, h.1.wait_end⟩,
    h.2.full, h.2.tx_size, h.2.bstatus_retx⟩
  freeWait := fun h hw _ => ⟨h.1.freeWait hw,
    (scanFrees_freeWait hw).exact h.1 h.2 h.2.bstatus_retx⟩
  freeRetransmit := fun h hr _ => ⟨h.1.freeRetransmit hr, h.2.freeRetransmit h.1 hr⟩

end Moves

/-! ## A STATUS PDU -/

/-- The lists of a sender after the walk. -/
theorem ScanResult.txLists {e e' : NrRlcEntityAm} {F : NrRlcSduSegment → AckVerdict}
    {freed lost : List NrRlcSduSegment} (hr : ScanResult e e' F freed lost) (hl : TxLists e)
    (hF : ∀ g ∈ e.waitList ++ e.retransmitList, F g ≠ .beyond) : TxLists e' := by
  have hframe := hr.frame
  have hM : e'.snModulus = e.snModulus := show e'.ackFrame.snModulus = _ from hframe ▸ rfl
  have hb : e'.txNextAck = e.txNextAck := show e'.ackFrame.txNextAck = _ from hframe ▸ rfl
  refine ⟨?_, ?_, fun g hg => ?_⟩
  · rw [hM, hb, hr.wait_eq]
    exact hl.wait_sorted.sublist List.filter_sublist
  · rw [hM, hb]
    exact hr.sorted
  · rw [hM]
    exact hl.sn_range g ((hr.perm hF).subset (List.mem_append_left _ (List.mem_append_left _ hg)))

namespace NrRlcEntityAm

variable {e e' : NrRlcEntityAm} {pdu : ControlPdu}

theorem decodeControlPdu_ackSn {buffer : List UInt8} (h : e.decodeControlPdu buffer = some pdu) :
    IsSn (2 ^ e.snFieldLength) pdu.ackSn := by
  unfold decodeControlPdu at h
  simp only [Option.bind_eq_bind, Option.bind_eq_some_iff] at h
  obtain ⟨⟨_, d₁⟩, h₁, ⟨cpt, d₂⟩, h₂, h⟩ := h
  split at h
  · cases h
  simp only [Option.bind_eq_some_iff] at h
  obtain ⟨⟨ackSn, d₃⟩, h₃, ⟨_, d₄⟩, -, ⟨_, d₅⟩, -, nacks, -, heq⟩ := h
  have hr := (NrRlcPduDecoder.getBits_eq_some (NrRlcPduDecoder.reads_init buffer) h₁).2.2
  have hlt := NrRlcPduDecoder.getBits_lt (NrRlcPduDecoder.getBits_eq_some hr h₂).2.2 h₃
  rw [← Option.some.inj heq]
  have hlt' : (ackSn : Int) < 2 ^ e.snFieldLength := by exact_mod_cast hlt
  exact ⟨Int.natCast_nonneg _, hlt'⟩

/-- A decoded STATUS PDU that passes the checks. -/
theorem validPieces_of_decode (hwin : e.TxWindow) {buffer : List UInt8}
    (hd : e.decodeControlPdu buffer = some pdu) (hv : e.validControlPdu pdu) :
    e.ValidPieces pdu.ackSn (pdu.pieces e.snModulus) := by
  have hack := decodeControlPdu_ackSn hd
  rw [← hwin.space.modulus_eq] at hack
  have hsn : ∀ n ∈ pdu.pieces e.snModulus, IsSn e.snModulus n.sn := by
    intro n hn
    obtain ⟨m, -, hm⟩ := List.mem_flatMap.1 hn
    obtain ⟨i, -, rfl⟩ := List.mem_map.1 hm
    exact hwin.space.isSn_emod _
  refine ⟨hwin.txNextAck_sn, hack, hsn, fun n hn => ?_⟩
  have hle := (hv.2 n hn).2
  rw [snCompareTx_eq hwin.txNextAck_sn (hsn n hn) hack] at hle
  omega

/-- ACK_SN is in the window, TX_Next included. -/
theorem ackSn_le_of_valid (hwin : e.TxWindow) (hack : IsSn e.snModulus pdu.ackSn)
    (hv : e.validControlPdu pdu) : e.txDist pdu.ackSn ≤ e.txDist e.txNext := by
  have hle := hv.1
  rw [snCompareTx_eq hwin.txNextAck_sn hack hwin.txNext_sn] at hle
  omega

/-! ## TX_Next_Ack -/

theorem txDist_minTx (hn : IsSn e.snModulus e.txNextAck) {a b : Int} (ha : IsSn e.snModulus a)
    (hb : IsSn e.snModulus b) : IsSn e.snModulus (e.minTx a b) ∧
      e.txDist (e.minTx a b) = min (e.txDist a) (e.txDist b) := by
  unfold minTx
  rw [snCompareTx_eq hn hb ha]
  split_ifs with h
  · exact ⟨hb, by omega⟩
  · exact ⟨ha, by omega⟩

/-- Where TX_Next_Ack moves : to the smallest SN of what is not acknowledged, ACK_SN and
TX_Next included. -/
theorem txNextAck_updateTxNextAck (hwin : e.TxWindow) (hl : TxLists e) {ackSn : Int}
    (hack : IsSn e.snModulus ackSn) :
    IsSn e.snModulus (e.updateTxNextAck ackSn).txNextAck ∧
      e.txDist (e.updateTxNextAck ackSn).txNextAck ≤ e.txDist e.txNext ∧
      e.txDist (e.updateTxNextAck ackSn).txNextAck ≤ e.txDist ackSn ∧
      ∀ g ∈ e.waitList ++ e.retransmitList,
        e.txDist (e.updateTxNextAck ackSn).txNextAck ≤ e.txDist g.sdu.sn := by
  have hn := hwin.txNextAck_sn
  have hhead : ∀ (l : List NrRlcSduSegment) (a : Int), TxSorted e.snModulus e.txNextAck l →
      (∀ g ∈ l, IsSn e.snModulus g.sdu.sn) → IsSn e.snModulus a →
        IsSn e.snModulus (l.head?.elim a fun g => e.minTx a g.sdu.sn) ∧
          e.txDist (l.head?.elim a fun g => e.minTx a g.sdu.sn) ≤ e.txDist a ∧
          ∀ g ∈ l, e.txDist (l.head?.elim a fun g => e.minTx a g.sdu.sn) ≤ e.txDist g.sdu.sn := by
    rintro (_ | ⟨b, l⟩) a hs hsn ha
    · exact ⟨ha, le_rfl, by simp⟩
    · obtain ⟨hm, hd⟩ := txDist_minTx hn ha (hsn b (by simp))
      refine ⟨hm, ?_, fun g hg => ?_⟩
      · show e.txDist (e.minTx a b.sdu.sn) ≤ _
        omega
      · have hle : e.txDist b.sdu.sn ≤ e.txDist g.sdu.sn := by
          rcases List.mem_cons.1 hg with rfl | hg
          · exact le_rfl
          · exact dist_le_of_txKey_le (List.rel_of_pairwise_cons hs hg)
        show e.txDist (e.minTx a b.sdu.sn) ≤ _
        omega
  obtain ⟨h1, h1n, h1w⟩ := hhead e.waitList e.txNext hl.wait_sorted
    (fun g hg => hl.sn_range g (by simp [hg])) hwin.txNext_sn
  obtain ⟨h2, h2a, h2r⟩ := hhead e.retransmitList _ hl.retransmit_sorted
    (fun g hg => hl.sn_range g (by simp [hg])) h1
  obtain ⟨h3, h3d⟩ := txDist_minTx hn h2 hack
  have hle := h3d.le.trans (min_le_left _ _)
  refine ⟨h3, hle.trans (h2a.trans h1n), h3d.le.trans (min_le_right _ _), fun g hg => ?_⟩
  rcases List.mem_append.1 hg with hg | hg
  · exact hle.trans (h2a.trans (h1w g hg))
  · exact hle.trans (h2r g hg)

theorem TxInv.updateTxNextAck (h : TxInv [] e) {ackSn : Int} (hack : IsSn e.snModulus ackSn) :
    TxInv [] (e.updateTxNextAck ackSn) := by
  obtain ⟨hsn, hnext, -, hall⟩ := txNextAck_updateTxNextAck h.window h.lists hack
  have hM := h.window.space.modulus_pos
  refine ⟨⟨h.window.space, h.window.txNext_sn, hsn, ?_⟩,
    ⟨h.lists.wait_sorted.rebase hM fun g hg => hall g (by simp [hg]),
      h.lists.retransmit_sorted.rebase hM fun g hg => hall g (by simp [hg]), h.lists.sn_range⟩,
    h.tx_head, h.tx_tail, h.pool, h.tx_end, h.wait_end⟩
  have hdist : (e.updateTxNextAck ackSn).txDist e.txNext =
      e.txDist e.txNext - e.txDist (e.updateTxNextAck ackSn).txNextAck := dist_rebase hM hnext
  have hnn := h.window.txDist_nonneg (e.updateTxNextAck ackSn).txNextAck
  have hle := h.window.txNext_le
  show (e.updateTxNextAck ackSn).txDist e.txNext ≤ e.windowSize
  omega

/-! ## The result of the walk -/

/-- The entity after the walk has the invariant, less what is lost. -/
theorem TxInv.toEntity (h : TxInv [] e) {s : AckScan} (hm : ScanMem e s)
    (hlists : TxLists s.linkRetransmit.toEntity) : TxInv [] s.linkRetransmit.toEntity := by
  have hframe := hm.frame
  have hfield : ∀ {α : Type} (f : NrRlcEntityAm → α), f s.entity.scanFrame = f e.scanFrame :=
    fun f => congrArg f hframe
  have hM : s.entity.snModulus = e.snModulus := hfield (·.snModulus)
  have hb : s.entity.txNextAck = e.txNextAck := hfield (·.txNextAck)
  have hn : s.entity.txNext = e.txNext := hfield (·.txNext)
  have ht : s.entity.txList = e.txList := hfield (·.txList)
  have hlen : s.entity.snFieldLength = e.snFieldLength := hfield (·.snFieldLength)
  have hW : s.entity.windowSize = e.windowSize := hfield (·.windowSize)
  refine ⟨⟨?_, ?_, ?_, ?_⟩, hlists, ?_, ?_, ?_, ?_, ?_⟩
  · show SnSpace s.entity.snFieldLength s.entity.snModulus s.entity.windowSize
    rw [hlen, hM, hW]
    exact h.window.space
  · show IsSn s.entity.snModulus s.entity.txNext
    rw [hM, hn]
    exact h.window.txNext_sn
  · show IsSn s.entity.snModulus s.entity.txNextAck
    rw [hM, hb]
    exact h.window.txNextAck_sn
  · show dist s.entity.snModulus s.entity.txNextAck s.entity.txNext ≤ s.entity.windowSize
    rw [hM, hb, hn, hW]
    exact h.window.txNext_le
  · show ∀ g ∈ s.entity.txList.head?, Unsent g ∨ (IsSn s.entity.snModulus g.sdu.sn ∧
      (g.sdu.sn + 1) % s.entity.snModulus = s.entity.txNext) ∧ g.isFirst = false
    rw [ht, hM, hn]
    exact h.tx_head
  · show ∀ g ∈ s.entity.txList.tail, Unsent g
    rw [ht]
    exact h.tx_tail
  · show SegmentPool s.entity.nextSegment s.entity.nextSdu s.entity.sdus
      (s.entity.txList ++ ((s.prevWait ++ s.curWait) ++ (s.newRetransmit ++ s.curRetransmit)))
    rw [ht, show s.entity.nextSegment = e.nextSegment from hfield (·.nextSegment),
      show s.entity.nextSdu = e.nextSdu from hfield (·.nextSdu)]
    exact hm.pool.sublist ((((List.sublist_append_right s.newRetransmitNext
      s.curRetransmit).append_left _).append_left _).append_left _)
  · show s.entity.txEnd = s.entity.txList.getLast?.map (·.addr)
    rw [ht, show s.entity.txEnd = e.txEnd from hfield (·.txEnd)]
    exact h.tx_end
  · show s.endWait.getD s.entity.waitEnd = (s.prevWait ++ s.curWait).getLast?.map (·.addr)
    rcases hm.wait_end with ⟨hend, hlast⟩ | ⟨hnil, hend⟩
    · rw [hend]
      exact hlast
    · rw [hend, hnil, List.append_nil]
      rfl

theorem TxInv.scanMem (h : TxInv [] e) : ScanMem e e.startScan where
  frame := rfl
  pool := h.pool
  splice := fun hne => absurd rfl hne
  wait_end := .inl ⟨rfl, h.wait_end⟩

theorem TxExact.scanExact (hx : TxExact [] e) : ScanExact e e.startScan :=
  ⟨hx.full, hx.tx_size, hx.bstatus_retx⟩

theorem pduVerdict_ne_beyond (h : TxInv [] e)
    (hv : e.ValidPieces pdu.ackSn (pdu.pieces e.snModulus)) :
    ∀ g ∈ e.waitList ++ e.retransmitList, e.pduVerdict pdu g ≠ .beyond := fun g hg =>
  finalVerdict_ne_beyond (h.sn_range g hg) hv

theorem TxInv.scanControlPdu (h : TxInv [] e)
    (hv : e.ValidPieces pdu.ackSn (pdu.pieces e.snModulus)) :
    TxInv [] (e.scanControlPdu pdu).toEntity := by
  obtain ⟨s, freed, hm, heq, hr, -⟩ :=
    scanControlPdu_spec h.lists hv (ScanMem.scanRule e pdu.ackSn) h.scanMem
  have hlists := hr.txLists h.lists (pduVerdict_ne_beyond h hv)
  rw [heq] at hlists ⊢
  exact h.toEntity hm hlists

/-- A valid STATUS PDU keeps the invariant. -/
theorem TxInv.applyControlPdu (h : TxInv [] e)
    (hv : e.ValidPieces pdu.ackSn (pdu.pieces e.snModulus)) : TxInv [] (e.applyControlPdu pdu) := by
  have hM : (e.scanControlPdu pdu).toEntity.snModulus = e.snModulus :=
    show (e.scanControlPdu pdu).entity.scanFrame.snModulus = _ from
      e.scanFrame_scanControlPdu pdu ▸ rfl
  exact (h.scanControlPdu hv).updateTxNextAck (by rw [hM]; exact hv.ackSn_sn)

/-- It keeps the counters, if no segment is lost. -/
theorem TxExact.applyControlPdu (h : TxInv [] e) (hx : TxExact [] e)
    (hv : e.ValidPieces pdu.ackSn (pdu.pieces e.snModulus)) (hs : ¬e.Splices pdu) :
    TxExact [] (e.applyControlPdu pdu) := by
  obtain ⟨s, freed, ⟨hm, hexact⟩, heq, -, hlost⟩ :=
    scanControlPdu_spec h.lists hv (ScanExact.scanRule e pdu.ackSn) ⟨h.scanMem, hx.scanExact⟩
  have hnil : s.newRetransmitNext = [] := by
    by_contra hne
    exact hs (hlost.1 hne)
  have hpieces : s.retransmitPieces = s.newRetransmit ++ s.curRetransmit := by
    rw [AckScan.retransmitPieces, hnil, List.nil_append]
  have hfull := hexact.full
  have hretx := hexact.bstatus_retx
  rw [AckScan.segments, hpieces] at hfull
  rw [hpieces] at hretx
  have hpdu : s.entity.pduSize = e.pduSize := pduSize_of_scanFrame hm.frame
  have ht : s.entity.txList = e.txList := congrArg (·.txList) hm.frame
  have htx : s.entity.bstatusTxSize = e.bstatusTxSize := congrArg (·.bstatusTxSize) hm.frame
  unfold NrRlcEntityAm.applyControlPdu
  rw [heq]
  refine ⟨?_, hexact.tx_size, ?_, ?_⟩
  · show SduHeapFull s.entity.sdus
      (s.entity.txList ++ ((s.prevWait ++ s.curWait) ++ (s.newRetransmit ++ s.curRetransmit)))
    rw [ht]
    exact hfull
  · show s.entity.bstatusTxSize = (s.entity.txList.map s.entity.pduSize).sum
    rw [htx, ht, hpdu]
    exact hx.bstatus_tx
  · show s.entity.bstatusRetxSize =
      ((s.newRetransmit ++ s.curRetransmit).map s.entity.pduSize).sum
    rw [hpdu]
    exact hretx

/-! ## t-PollRetransmit -/

variable {cur : NrRlcSduSegment} {rest : List NrRlcSduSegment}

theorem listed_retransmitHead (hw : e.waitList = cur :: rest) :
    e.listed.Perm (e.retransmitHead cur rest).listed := by
  have hperm : (cur :: e.retransmitList).Perm (e.nrRlcTxSduSegmentListAdd e.retransmitList cur) :=
    (insertBefore_perm _).symm
  show (e.txList ++ (e.waitList ++ e.retransmitList)).Perm
    (e.txList ++ (rest ++ e.nrRlcTxSduSegmentListAdd e.retransmitList cur))
  rw [hw]
  exact (List.perm_middle.symm.trans (hperm.append_left rest)).append_left _

theorem TxInv.retransmitHead (h : TxInv [] e) (hw : e.waitList = cur :: rest) :
    TxInv [] (e.retransmitHead cur rest) where
  window := ⟨h.window.space, h.window.txNext_sn, h.window.txNextAck_sn, h.window.txNext_le⟩
  lists := by
    have hs := h.lists.wait_sorted
    have hsn := h.sn_range
    rw [hw] at hs hsn
    have hcur := hsn cur (by simp)
    refine ⟨hs.of_cons, txSorted_listAdd h.window.txNextAck_sn h.lists.retransmit_sorted
      (fun a ha => hsn a (by simp [ha])) hcur, fun a ha => ?_⟩
    have ha' : a ∈ rest ++ insertBefore _ cur e.retransmitList := ha
    simp only [List.mem_append, mem_insertBefore] at ha'
    rcases ha' with ha' | rfl | ha'
    · exact hsn a (by simp [ha'])
    · exact hcur
    · exact hsn a (by simp [ha'])
  tx_head := h.tx_head
  tx_tail := h.tx_tail
  pool := h.pool.perm (listed_retransmitHead hw)
  tx_end := h.tx_end
  wait_end := by
    have hq := h.waitQueue
    rw [hw] at hq
    exact hq.pop.end_eq

theorem TxExact.retransmitHead (hx : TxExact [] e) (hw : e.waitList = cur :: rest) :
    TxExact [] (e.retransmitHead cur rest) where
  full := hx.full.perm (listed_retransmitHead hw)
  tx_size := hx.tx_size
  bstatus_tx := hx.bstatus_tx
  bstatus_retx := by
    show e.bstatusRetxSize + e.pduSize cur =
      ((e.nrRlcTxSduSegmentListAdd e.retransmitList cur).map e.pduSize).sum
    rw [hx.bstatus_retx, nrRlcTxSduSegmentListAdd,
      ((insertBefore_perm e.retransmitList).map e.pduSize).sum_eq, List.map_cons, List.sum_cons,
      add_comm]

/-- Whatever is kept when the head of the wait list moves is kept by the whole loop. -/
theorem retransmitSn_rule {P : NrRlcEntityAm → Prop}
    (hstep : ∀ e cur rest, P e → e.waitList = cur :: rest → P (e.retransmitHead cur rest))
    (sn : Int) : ∀ (l : List NrRlcSduSegment) (e : NrRlcEntityAm), e.waitList = l → P e →
      P (retransmitSn sn l e)
  | [], _, _, h => h
  | cur :: rest, e, hl, h => by
    unfold retransmitSn
    split_ifs
    · exact retransmitSn_rule hstep sn rest _ rfl (hstep e cur rest h hl)
    · exact h

theorem TxInv.incrementRetxCount (h : TxInv [] e) (g : NrRlcSduSegment) :
    TxInv [] (e.incrementRetxCount g) :=
  ⟨⟨h.window.space, h.window.txNext_sn, h.window.txNextAck_sn, h.window.txNext_le⟩,
    ⟨h.lists.wait_sorted, h.lists.retransmit_sorted, h.lists.sn_range⟩, h.tx_head, h.tx_tail,
    h.pool.retx, h.tx_end, h.wait_end⟩

theorem TxExact.incrementRetxCount (hx : TxExact [] e) (g : NrRlcSduSegment) :
    TxExact [] (e.incrementRetxCount g) :=
  ⟨hx.full.retx, hx.tx_size.trans (liveSize_retx g.sdu.id e.sdus).symm, hx.bstatus_tx,
    hx.bstatus_retx⟩

theorem TxInv.retransmitWaitHead (h : TxInv [] e) (hs : e.retransmitWaitHead = some e') :
    TxInv [] e' := by
  unfold NrRlcEntityAm.retransmitWaitHead at hs
  cases hw : e.waitList with
  | nil => simp [hw] at hs
  | cons cur rest =>
    simp only [hw, Option.some.injEq] at hs
    rw [← hs]
    exact (retransmitSn_rule (fun _ _ _ h hw => TxInv.retransmitHead h hw) _ _
      (e.incrementRetxCount cur) hw (h.incrementRetxCount cur)).congr (txView_reportMaxRetx _ _ _)

theorem TxExact.retransmitWaitHead (hx : TxExact [] e) (hs : e.retransmitWaitHead = some e') :
    TxExact [] e' := by
  unfold NrRlcEntityAm.retransmitWaitHead at hs
  cases hw : e.waitList with
  | nil => simp [hw] at hs
  | cons cur rest =>
    simp only [hw, Option.some.injEq] at hs
    rw [← hs]
    exact (retransmitSn_rule (fun _ _ _ h hw => TxExact.retransmitHead h hw) _ _
      (e.incrementRetxCount cur) hw (hx.incrementRetxCount cur)).congr (txView_reportMaxRetx _ _ _)

end NrRlcEntityAm

end NrStack
