import NrStack.Rlc.AmPdu
import NrStack.Rlc.AmTxRun
import NrStack.Rlc.FirstTx

/-!
# Segmentation in AM

A run of an AM entity with the history of its TX list, `amTxStep`. Whatever is called in it, each
data PDU fits its grant and is decoded as the segment it was built from, the first transmissions of
an SDU tile it, and a segment that is split for retransmission is replaced by its two parts
(`amSegmentation_of_reach`).

The segments stay what they are in whatever list they are put, so nothing is assumed here of the
order of the lists or of the SNs in use : `AmTxWell` is about each segment, and about the TX list.
-/

namespace NrStack

namespace NrRlcEntityAm

variable (e : NrRlcEntityAm)

/-- Whether `generate_pdu` retransmits a segment. -/
def retransmits (size : Int) : Bool :=
  !decide (e.statusToReport ∧ (e.generateStatus size).pdu ≠ []) &&
    !decide (e.retransmitList = []) && (e.generateRetxPdu size).any fun r => decide (r.pdu ≠ [])

end NrRlcEntityAm

/-- One call, with the history of the TX list. -/
def amTxStep (s : TxLog NrRlcEntityAm) (op : AmOp) : Option (TxLog NrRlcEntityAm) :=
  (amStep s.entity op).map fun e =>
    match op with
    | .recvSdu buffer _ =>
      { s with
        entity := e
        taken := if e.nextSdu = s.entity.nextSdu then s.taken
          else s.taken ++ [(s.entity.nextSdu, buffer)] }
    | .generatePdu size =>
      { s with
        entity := e
        first := if s.entity.retransmits size then s.first
          else s.first ++ e.sent.drop s.entity.sent.length }
    | .discardSdu _ =>
      { s with
        entity := e
        taken := dropDiscarded s.entity.txList e.txList s.taken }
    | .reestablishment => { entity := e, taken := [], first := [] }
    | .recvPdu _ | .setTime _ => { s with entity := e }

/-- A new entity, which has taken nothing. -/
def newAmTxLog (c : AmConfig) : TxLog NrRlcEntityAm :=
  { entity := newNrRlcEntityAm c, taken := [], first := [] }

namespace NrRlcEntityAm

open NrRlcEntityUm (receivedPiece)

variable {e e' : NrRlcEntityAm} {g : NrRlcSduSegment} {rest : List NrRlcSduSegment} {size : Int}
  {taken : List TakenSdu} {first : List NrRlcSduSegment} {r : Generated}

/-! ## What is asked of a data PDU -/

/-- The data PDU of a grant, built from the segment `g`. -/
structure PduOf (e : NrRlcEntityAm) (size : Int) (r : Generated) (g : NrRlcSduSegment) : Prop where
  sent_eq : r.entity.sent = e.sent ++ [g]
  pdu_ne_nil : r.pdu ≠ []
  fits : (r.pdu.length : Int) ≤ size
  /-- Any receiver with this SN length decodes the segment. -/
  decoded : g.sdu.data ≠ [] → ∀ e' : NrRlcEntityAm, e'.snFieldLength = e.snFieldLength →
    e'.receivedPdu r.pdu = some (receivedPiece g)

theorem PduOf.congr (h : PduOf e' size r g) (hsent : e'.sent = e.sent)
    (hlen : e'.snFieldLength = e.snFieldLength) : PduOf e size r g :=
  ⟨hsent ▸ h.sent_eq, h.pdu_ne_nil, h.fits,
    fun hne e'' he'' => h.decoded hne e'' (he''.trans hlen.symm)⟩

/-- A segment of the retransmit list is retransmitted : all of it, or its first bytes with the
others back at the head of the list. -/
structure Resegmented (e : NrRlcEntityAm) (r : Generated) : Prop where
  exists_parts : ∃ g rest sent left, e.retransmitList = g :: rest ∧
    r.entity.sent = e.sent ++ [sent] ∧ r.entity.retransmitList = left ++ rest ∧
    (∀ x ∈ sent :: left, x.sdu = g.sdu) ∧
    (g.sdu.data ≠ [] → TilesBytes g.so (sent :: left) (g.so + g.size))

/-- What is sent and what is put back cover the bytes that the segment covered. -/
theorem Resegmented.covers (h : Resegmented e r) : ∃ g rest sent left,
    e.retransmitList = g :: rest ∧ r.entity.sent = e.sent ++ [sent] ∧
      r.entity.retransmitList = left ++ rest ∧ (g.sdu.data ≠ [] → ∀ i,
        (∃ x ∈ sent :: left, x.so ≤ i ∧ i < x.so + x.size) ↔ g.so ≤ i ∧ i < g.so + g.size) := by
  obtain ⟨g, rest, sent, left, hlist, hsent, hretx, -, htiles⟩ := h.exists_parts
  exact ⟨g, rest, sent, left, hlist, hsent, hretx, fun hne => (htiles hne).covers_iff⟩

/-! ## The segments of a sender -/

/-- What the segments depend on. -/
structure SegmentView where
  snFieldLength : Nat
  snModulus : Int
  txNext : Int
  txList : List NrRlcSduSegment
  txEnd : Option Nat
  waitList : List NrRlcSduSegment
  retransmitList : List NrRlcSduSegment
  nextSdu : Nat
  nextSegment : Nat

/-- The segments of `e`. -/
def segmentView (e : NrRlcEntityAm) : SegmentView :=
  { snFieldLength := e.snFieldLength
    snModulus := e.snModulus
    txNext := e.txNext
    txList := e.txList
    txEnd := e.txEnd
    waitList := e.waitList
    retransmitList := e.retransmitList
    nextSdu := e.nextSdu
    nextSegment := e.nextSegment }

theorem segmentView_of_txView (h : e'.txView = e.txView) : e'.segmentView = e.segmentView := by
  simp only [txView, TxView.mk.injEq] at h
  obtain ⟨h1, h2, -, h3, -, h4, h5, -, h6, -, h7, -, -, -, h8, h9⟩ := h
  simp only [segmentView, h1, h2, h3, h4, h5, h6, h7, h8, h9]

/-- The sender and the history of its TX list. -/
structure AmTxWell (e : NrRlcEntityAm) (taken : List TakenSdu) (first : List NrRlcSduSegment) :
    Prop where
  sn_length : e.snFieldLength = 12 ∨ e.snFieldLength = 18
  modulus_eq : e.snModulus = 2 ^ e.snFieldLength
  txNext_sn : IsSn e.snModulus e.txNext
  queue : SegmentQueue e.nextSegment e.txList e.txEnd
  log : TxLogInv e.nextSdu taken first e.txList
  tx_sn : ∀ g ∈ e.txList, g.sdu.sn = -1 ∨ IsSn e.snModulus g.sdu.sn
  sent_ok : ∀ g ∈ e.waitList ++ e.retransmitList, TxSegment g ∧ IsSn e.snModulus g.sdu.sn

namespace AmTxWell

theorem congr (heq : e'.segmentView = e.segmentView) (h : AmTxWell e taken first) :
    AmTxWell e' taken first := by
  obtain ⟨h1, h2, h3, h4, h5, h6, h7⟩ := h
  simp only [segmentView, SegmentView.mk.injEq] at heq
  obtain ⟨a1, a2, a3, a4, a5, a6, a7, a8, a9⟩ := heq
  refine ⟨?_, ?_, ?_, ?_, ?_, ?_, ?_⟩ <;>
    simp only [a1, a2, a3, a4, a5, a6, a7, a8, a9] <;> assumption

theorem new (c : AmConfig) : AmTxWell (newNrRlcEntityAm c) [] [] where
  sn_length := c.snFieldLength_valid
  modulus_eq := rfl
  txNext_sn := ⟨le_rfl, by simp [newNrRlcEntityAm]⟩
  queue := .nil
  log := .nil _
  tx_sn := by simp [newNrRlcEntityAm]
  sent_ok := by simp [newNrRlcEntityAm]

/-- Only the wait list and the retransmit list change, and nothing comes to them. -/
theorem of_subset (h : AmTxWell e taken first)
    (heq : { e'.segmentView with waitList := [], retransmitList := [] } =
      { e.segmentView with waitList := [], retransmitList := [] })
    (hsub : ∀ g ∈ e'.waitList ++ e'.retransmitList, g ∈ e.waitList ++ e.retransmitList) :
    AmTxWell e' taken first := by
  obtain ⟨h1, h2, h3, h4, h5, h6, h7⟩ := h
  simp only [segmentView, SegmentView.mk.injEq] at heq
  obtain ⟨a1, a2, a3, a4, a5, -, -, a6, a7⟩ := heq
  refine ⟨?_, ?_, ?_, ?_, ?_, ?_, fun g hg => ?_⟩ <;>
    simp only [a1, a2, a3, a4, a5, a6, a7] <;> try assumption
  exact h7 g (hsub g hg)

end AmTxWell

end NrRlcEntityAm

/-! ## What moves the segments that have been sent -/

namespace AckScan

variable {s s' : AckScan} {ackSn : Int} {n : NackPiece} {w r : NrRlcSduSegment}
  {ws rs : List NrRlcSduSegment}

/-- The segments that the walk holds. -/
def held (s : AckScan) : List NrRlcSduSegment :=
  s.prevWait ++ (s.curWait ++ (s.curRetransmit ++ (s.newRetransmit ++ s.newRetransmitNext)))

theorem held_freeWait_subset (hw : s.curWait = w :: ws) :
    (s.freeWait w ws).held ⊆ s.held := by
  intro g
  simp only [held, freeWait, unlinkWait, hw, List.mem_append, List.mem_cons]
  tauto

theorem held_freeRetransmit_subset (hr : s.curRetransmit = r :: rs) :
    (s.freeRetransmit r rs).held ⊆ s.held := by
  intro g
  simp only [held, freeRetransmit, hr, List.mem_append, List.mem_cons]
  tauto

end AckScan

theorem mem_of_cutAfter {a : Nat} : ∀ {l l' : List NrRlcSduSegment}, cutAfter a l = some l' →
    ∀ x ∈ l', x ∈ l
  | g :: l, l', h, x, hx => by
    unfold cutAfter at h
    split_ifs at h
    · obtain rfl := Option.some.inj h
      simp_all
    · obtain ⟨m, hm, rfl⟩ := Option.map_eq_some_iff.1 h
      rcases List.mem_cons.1 hx with rfl | hx
      · exact List.mem_cons_self
      · exact List.mem_cons_of_mem _ (mem_of_cutAfter hm x hx)

theorem mem_of_listAppend {l : List NrRlcSduSegment} {listEnd : Option Nat}
    {g x : NrRlcSduSegment} {r : List NrRlcSduSegment × Option Nat}
    (h : nrRlcSduSegmentListAppend l listEnd g = some r) (hx : x ∈ r.1) : x = g ∨ x ∈ l := by
  unfold nrRlcSduSegmentListAppend at h
  split at h
  · obtain rfl := Option.some.inj h
    exact .inl (List.mem_singleton.1 hx)
  · cases h
  · obtain ⟨m, hm, rfl⟩ := Option.map_eq_some_iff.1 h
    rcases List.mem_append.1 hx with hx | hx
    · exact .inr (mem_of_cutAfter hm x hx)
    · exact .inl (List.mem_singleton.1 hx)

theorem AckMove.held_subset {s s' : AckScan} {ackSn : Int} {n : NackPiece}
    (h : AckMove ackSn n s s') : s'.held ⊆ s.held := by
  cases h with
  | freeWait hw => exact AckScan.held_freeWait_subset hw
  | freeRetransmit hr => exact AckScan.held_freeRetransmit_subset hr
  | nackWait hw =>
    intro g
    simp only [AckScan.held, AckScan.nackWait, AckScan.unlinkWait, hw, List.mem_append,
      List.mem_cons, List.not_mem_nil, or_false]
    tauto
  | leaveWait hw =>
    intro g
    simp only [AckScan.held, hw, List.mem_append, List.mem_cons, List.not_mem_nil, false_or]
    tauto
  | skipWait hw =>
    intro g
    simp only [AckScan.held, hw, List.mem_append, List.mem_cons, List.not_mem_nil, or_false]
    tauto
  | keepRetransmit hr =>
    intro g
    simp only [AckScan.held, AckScan.keepRetransmit, hr, List.mem_append, List.mem_cons,
      List.not_mem_nil, or_false]
    tauto
  | spliceRetransmit hr =>
    intro g
    simp only [AckScan.held, hr, List.mem_append, List.mem_cons, List.not_mem_nil, false_or]
    tauto

namespace NrRlcEntityAm

variable {e e' : NrRlcEntityAm} {g : NrRlcSduSegment} {rest : List NrRlcSduSegment} {size : Int}
  {taken : List TakenSdu} {first : List NrRlcSduSegment} {r : Generated}

/-- The walk of a STATUS PDU takes segments out of the two lists, and puts none in. -/
theorem mem_scanControlPdu (e : NrRlcEntityAm) (pdu : ControlPdu) :
    ∀ g ∈ (e.scanControlPdu pdu).toEntity.waitList ++
      (e.scanControlPdu pdu).toEntity.retransmitList, g ∈ e.waitList ++ e.retransmitList := by
  have hrule : ScanRule e.snModulus pdu.ackSn fun _ s =>
      s.entity.snModulus = e.snModulus ∧ s.held ⊆ e.waitList ++ e.retransmitList :=
    { snModulus_eq := fun h => h.1
      move := fun {n qs s s'} h hm => by
        have hM : s'.entity.snModulus = s.entity.snModulus :=
          show s'.entity.scanFrame.snModulus = s.entity.scanFrame.snModulus from
            hm.scanFrame_eq ▸ rfl
        exact ⟨hM.trans h.1, List.Subset.trans hm.held_subset h.2⟩
      done := fun h _ => h
      poll := fun _ _ h => h
      freeWait := fun h hw _ => ⟨h.1, List.Subset.trans (AckScan.held_freeWait_subset hw) h.2⟩
      freeRetransmit := fun h hr _ =>
        ⟨h.1, List.Subset.trans (AckScan.held_freeRetransmit_subset hr) h.2⟩ }
  obtain ⟨s, hs, -, heq⟩ := hrule.scanControlPdu (e := e)
    ⟨rfl, by simp [AckScan.held, startScan]⟩
  intro g hg
  refine hs.2 ?_
  rw [heq] at hg
  simp only [AckScan.toEntity, AckScan.linkRetransmit, AckScan.held, List.mem_append] at hg ⊢
  tauto

theorem AmTxWell.applyControlPdu (h : AmTxWell e taken first) (pdu : ControlPdu) :
    AmTxWell (e.applyControlPdu pdu) taken first := by
  have hframe := scanFrame_scanControlPdu e pdu
  have hview : { (e.applyControlPdu pdu).segmentView with waitList := [], retransmitList := [] } =
      { (e.scanControlPdu pdu).entity.scanFrame.segmentView with
        waitList := [], retransmitList := [] } := rfl
  refine h.of_subset ?_ (mem_scanControlPdu e pdu)
  rw [hview, hframe]
  rfl

/-- The expiry of t-PollRetransmit moves segments from the wait list to the retransmit list. -/
theorem retransmitSn_subset (sn : Int) : ∀ (l : List NrRlcSduSegment) {e : NrRlcEntityAm},
    e.waitList = l →
      { (retransmitSn sn l e).segmentView with waitList := [], retransmitList := [] } =
        { e.segmentView with waitList := [], retransmitList := [] } ∧
      ∀ g ∈ (retransmitSn sn l e).waitList ++ (retransmitSn sn l e).retransmitList,
        g ∈ e.waitList ++ e.retransmitList
  | [], e, _ => ⟨rfl, fun _ hg => hg⟩
  | cur :: l, e, hl => by
    unfold retransmitSn
    split_ifs with hsn
    · obtain ⟨hview, hsub⟩ := retransmitSn_subset sn l (e := e.retransmitHead cur l) rfl
      refine ⟨hview, fun g hg => ?_⟩
      have hg' := hsub g hg
      simp only [retransmitHead, nrRlcTxSduSegmentListAdd, List.mem_append, mem_insertBefore]
        at hg'
      simp only [hl, List.mem_append, List.mem_cons]
      tauto
    · exact ⟨rfl, fun _ hg => hg⟩

theorem AmTxWell.retransmitWaitHead (h : AmTxWell e taken first)
    (hs : e.retransmitWaitHead = some e') : AmTxWell e' taken first := by
  unfold NrRlcEntityAm.retransmitWaitHead at hs
  split at hs
  · cases hs
  · next cur rest hl =>
    obtain rfl := Option.some.inj hs
    have hretx : (e.incrementRetxCount cur).segmentView = e.segmentView := rfl
    obtain ⟨hview, hsub⟩ := retransmitSn_subset cur.sdu.sn (cur :: rest)
      (e := e.incrementRetxCount cur) hl
    have hreport : ∀ (e : NrRlcEntityAm) (p : NrRlcSduEntry → Bool),
        (e.reportMaxRetx cur p).segmentView = e.segmentView := by
      intro e p
      unfold reportMaxRetx
      split_ifs <;> rfl
    exact ((h.congr hretx).of_subset hview hsub).congr (hreport _ _)

/-! ## The generation of a data PDU -/

theorem AmTxWell.recvSdu (h : AmTxWell e taken first) {buffer : List UInt8} {sduId : Int}
    (hs : e.recvSdu buffer sduId = some e') :
    AmTxWell e' (if e'.nextSdu = e.nextSdu then taken else taken ++ [(e.nextSdu, buffer)])
      first := by
  have hlog := h.congr (segmentView_of_txView (txView_logRejected e))
  have hnext : e.logRejected.nextSdu = e.nextSdu :=
    congrArg TxView.nextSdu (txView_logRejected e)
  unfold NrRlcEntityAm.recvSdu at hs
  split_ifs at hs with hmax hfull
  · obtain rfl := Option.some.inj hs
    rw [if_pos hnext]
    exact AmTxWell.congr (e := e.logRejected) rfl hlog
  · rw [acceptSdu, hlog.queue.append_eq, Option.map_some] at hs
    obtain rfl := Option.some.inj hs
    rw [if_neg (by simp [hnext]), ← hnext]
    exact
      { sn_length := hlog.sn_length
        modulus_eq := hlog.modulus_eq
        txNext_sn := hlog.txNext_sn
        queue := hlog.queue.push rfl
        log := hlog.log.take (not_lt.1 hmax)
        tx_sn := fun g hg => by
          rcases List.mem_append.1 hg with hg | hg
          · exact hlog.tx_sn g hg
          · rw [List.mem_singleton.1 hg]
            exact .inl rfl
        sent_ok := hlog.sent_ok }

/-- A segment put in the wait list. -/
theorem putInWaitList_spec (hs : e.putInWaitList g = some e') :
    e' = { e with waitList := e'.waitList, waitEnd := e'.waitEnd } ∧
      ∀ x ∈ e'.waitList, x = g ∨ x ∈ e.waitList := by
  have happend : ∀ {e'}, ((nrRlcSduSegmentListAppend e.waitList e.waitEnd g).map fun r =>
      { e with waitList := r.1, waitEnd := r.2 }) = some e' →
        e' = { e with waitList := e'.waitList, waitEnd := e'.waitEnd } ∧
          ∀ x ∈ e'.waitList, x = g ∨ x ∈ e.waitList := by
    intro e' h
    obtain ⟨r, hr, rfl⟩ := Option.map_eq_some_iff.1 h
    exact ⟨rfl, fun x hx => mem_of_listAppend hr hx⟩
  unfold putInWaitList at hs
  simp only at hs
  split at hs
  · exact happend hs
  · split at hs
    · cases hs
    · split_ifs at hs
      · exact happend hs
      · obtain rfl := Option.some.inj hs
        exact ⟨rfl, fun x hx => by simpa [nrRlcTxSduSegmentListAdd] using hx⟩

/-- A segment that is sent off its list fits the grant, or is split so that its head does. -/
theorem cut_cases (hroom : e.computePduHeaderSize g + 1 ≤ size) :
    (e.pduSize g > size ∧ IsSplit g (e.resegmentHead g size) (e.resegmentNext g size) ∧
      e.pduSize (e.resegmentHead g size) = size) ∨ ¬e.pduSize g > size := by
  by_cases hover : e.pduSize g > size
  · refine .inl ⟨hover, isSplit_resegment hroom hover, ?_⟩
    have hheader : e.computePduHeaderSize (e.resegmentHead g size) = e.computePduHeaderSize g := rfl
    rw [pduSize, hheader]
    simp only [resegmentHead, pduSize]
    omega
  · exact .inr hover

/-- The PDU that is sent for a segment that fits. -/
theorem pduOf_sendPdu (hn : e.snFieldLength = 12 ∨ e.snFieldLength = 18)
    (hlen : e'.snFieldLength = e.snFieldLength) (hsent : e'.sent = e.sent) (hg : TxSegment g)
    (hsn : IsSn (2 ^ e.snFieldLength) g.sdu.sn) (hfit : e.pduSize g ≤ size) (p : Bool) :
    PduOf e size (e'.sendPdu g size p) g := by
  have hpdu : e'.pduSize g = e.pduSize g := by
    simp only [pduSize, computePduHeaderSize, hlen]
  have hlength := length_sendPdu (hlen ▸ hn) hg.piece hg.size_nonneg size p
  refine ⟨?_, fun hnil => ?_, ?_, fun hne e'' he'' => ?_⟩
  · unfold sendPdu serializeSdu
    split_ifs
    · exact congrArg (· ++ [g]) hsent
    · exact congrArg (· ++ [g]) hsent
  · have hheader := e.computePduHeaderSize_pos g
    have hnonneg := hg.size_nonneg
    rw [hnil, hpdu, pduSize, List.length_nil] at hlength
    omega
  · rw [hlength, hpdu]
    exact hfit
  · have hle := hg.length_le
    unfold nrSduMax at hle
    exact receivedPdu_sendPdu (hlen ▸ hn) (he''.trans hlen.symm) hg.piece (by omega)
      (hg.size_pos hne) (hlen ▸ hsn) size p

/-- The lists after a retransmission are still well. -/
theorem AmTxWell.of_mem (h : AmTxWell e taken first)
    (heq : { e'.segmentView with waitList := [], retransmitList := [], nextSegment := 0 } =
      { e.segmentView with waitList := [], retransmitList := [], nextSegment := 0 })
    (hle : e.nextSegment ≤ e'.nextSegment)
    (hmem : ∀ g ∈ e'.waitList ++ e'.retransmitList, TxSegment g ∧ IsSn e.snModulus g.sdu.sn) :
    AmTxWell e' taken first := by
  obtain ⟨h1, h2, h3, h4, h5, h6, -⟩ := h
  simp only [segmentView, SegmentView.mk.injEq] at heq
  obtain ⟨a1, a2, a3, a4, a5, -, -, a6, -⟩ := heq
  refine ⟨?_, ?_, ?_, ?_, ?_, ?_, fun g hg => ?_⟩ <;>
    simp only [a1, a2, a3, a4, a5, a6] <;> try assumption
  · exact ⟨h4.addr_nodup, fun g hg => (h4.addr_lt g hg).trans_le hle, h4.end_eq⟩
  · exact hmem g hg

@[simp] theorem segmentView_sendPdu (g : NrRlcSduSegment) (size : Int) (p : Bool) :
    (e.sendPdu g size p).entity.segmentView = e.segmentView :=
  segmentView_of_txView (txView_sendPdu e g size p)

/-- The head `g` of the retransmit list is sent as `sent`, with `left` put back. -/
theorem AmTxWell.sendRetransmit (h : AmTxWell e taken first) (hlist : e.retransmitList = g :: rest)
    (e₁ : NrRlcEntityAm) {e₂ : NrRlcEntityAm} {sent : NrRlcSduSegment}
    {left : List NrRlcSduSegment}
    (heq : { e₁.segmentView with retransmitList := [], nextSegment := 0 } =
      { e.segmentView with retransmitList := [], nextSegment := 0 })
    (hsame : e₁.sent = e.sent) (hle : e.nextSegment ≤ e₁.nextSegment)
    (hretx : e₁.retransmitList = left ++ rest)
    (hparts : ∀ x ∈ sent :: left, x.sdu = g.sdu ∧ TxSegment x)
    (htiles : g.sdu.data ≠ [] → TilesBytes g.so (sent :: left) (g.so + g.size))
    (hfit : e.pduSize sent ≤ size) (hput : e₁.putInWaitList sent = some e₂) (p : Bool) :
    AmTxWell (e₂.sendPdu sent size p).entity taken first ∧
      Resegmented e (e₂.sendPdu sent size p) ∧ PduOf e size (e₂.sendPdu sent size p) sent := by
  obtain ⟨hg, hsn⟩ := h.sent_ok g (by simp [hlist])
  obtain ⟨heq₂, hwait⟩ := putInWaitList_spec hput
  have hview : { e₂.segmentView with waitList := [], retransmitList := [], nextSegment := 0 } =
      { e.segmentView with waitList := [], retransmitList := [], nextSegment := 0 } := by
    rw [heq₂]
    exact congrArg (fun v : SegmentView => { v with waitList := [] }) heq
  have hwait₁ : e₁.waitList = e.waitList := congrArg SegmentView.waitList heq
  have hretx₂ : e₂.retransmitList = left ++ rest := by rw [heq₂]; exact hretx
  have hsent₂ : e₂.sent = e.sent := by rw [heq₂]; exact hsame
  have hpdu : PduOf e size (e₂.sendPdu sent size p) sent := by
    have hsdu := (hparts sent (by simp)).1
    exact pduOf_sendPdu h.sn_length (congrArg SegmentView.snFieldLength hview) hsent₂
      (hparts sent (by simp)).2 (by rw [hsdu, ← h.modulus_eq]; exact hsn) hfit p
  have hview' := segmentView_sendPdu (e := e₂) sent size p
  refine ⟨AmTxWell.congr hview' (h.of_mem hview ?_ fun x hx => ?_), ⟨g, rest, sent, left, hlist,
    hpdu.sent_eq, (congrArg SegmentView.retransmitList hview').trans hretx₂,
    fun x hx => (hparts x hx).1, htiles⟩, hpdu⟩
  · rw [heq₂]
    exact hle
  · have hpart : ∀ x ∈ sent :: left, TxSegment x ∧ IsSn e.snModulus x.sdu.sn := by
      intro x hx
      obtain ⟨hsdu, hok⟩ := hparts x hx
      exact ⟨hok, by rw [hsdu]; exact hsn⟩
    rcases List.mem_append.1 hx with hx | hx
    · rcases hwait x hx with rfl | hx
      · exact hpart x (by simp)
      · exact h.sent_ok x (List.mem_append_left _ (hwait₁ ▸ hx))
    · rw [hretx₂] at hx
      rcases List.mem_append.1 hx with hx | hx
      · exact hpart x (List.mem_cons_of_mem _ hx)
      · refine h.sent_ok x (List.mem_append_right _ ?_)
        rw [hlist]
        exact List.mem_cons_of_mem _ hx

/-- The parts of a segment tile it. -/
theorem tilesBytes_split {a b : NrRlcSduSegment} (hs : IsSplit g a b) :
    TilesBytes g.so [a, b] (g.so + g.size) := by
  have hsize := hs.size_eq
  refine ⟨hs.head_so, hs.head_size, ?_, hs.next_size, ?_⟩
  · rw [hs.next_so]
  · show g.so + a.size + b.size = g.so + g.size
    omega

/-- `generate_retx_pdu` : nothing, or a segment of the retransmit list is sent. -/
theorem AmTxWell.generateRetxPdu (h : AmTxWell e taken first)
    (hs : e.generateRetxPdu size = some r) : (r.entity = e ∧ r.pdu = []) ∨
      (AmTxWell r.entity taken first ∧ Resegmented e r ∧ ∃ g, PduOf e size r g) := by
  unfold NrRlcEntityAm.generateRetxPdu at hs
  split at hs
  · cases hs
  · next g rest hlist =>
    obtain ⟨hg, hsn⟩ := h.sent_ok g (by simp [hlist])
    split_ifs at hs with hroom
    · obtain rfl := Option.some.inj hs
      exact .inl ⟨rfl, rfl⟩
    · right
      obtain ⟨e₂, hput, rfl⟩ := Option.map_eq_some_iff.1 hs
      have hgtile : g.sdu.data ≠ [] → TilesBytes g.so [g] (g.so + g.size) :=
        fun hne => ⟨rfl, hg.size_pos hne, rfl⟩
      rcases cut_cases (e := e) (g := g) (not_lt.1 hroom) with ⟨hover, hsplit, hfit⟩ | hover
      · have hcut : (e.takeRetransmit g rest).splitRetransmit g size =
            (((e.takeRetransmit g rest).resegment g).putBackRetransmit (e.resegmentNext g size),
              e.resegmentHead g size) := if_pos hover
        rw [hcut] at hput ⊢
        obtain ⟨ha, hb⟩ := hg.split hsplit
        have hparts : ∀ x ∈ [e.resegmentHead g size, e.resegmentNext g size],
            x.sdu = g.sdu ∧ TxSegment x := by
          intro x hx
          rcases List.mem_pair.1 hx with rfl | rfl
          · exact ⟨hsplit.head_sdu, ha⟩
          · exact ⟨hsplit.next_sdu, hb⟩
        obtain ⟨hwell, hreseg, hpdu⟩ := h.sendRetransmit hlist
          (((e.takeRetransmit g rest).resegment g).putBackRetransmit (e.resegmentNext g size))
          rfl rfl (Nat.le_succ _) rfl hparts (fun _ => tilesBytes_split hsplit) hfit.le hput
          (decide e₂.checkPollAfterPduAssembly)
        exact ⟨hwell, hreseg, _, hpdu⟩
      · have hcut : (e.takeRetransmit g rest).splitRetransmit g size =
            (e.takeRetransmit g rest, g) := if_neg hover
        rw [hcut] at hput ⊢
        obtain ⟨hwell, hreseg, hpdu⟩ := h.sendRetransmit hlist (e.takeRetransmit g rest) rfl rfl
          le_rfl (List.nil_append _).symm (by simp [hg]) hgtile (not_lt.1 hover) hput
          (decide e₂.checkPollAfterPduAssembly)
        exact ⟨hwell, hreseg, _, hpdu⟩

/-- The segment with an SN : the one it has, or TX_Next. -/
theorem AmTxWell.assignSn (h : AmTxWell e taken first) (hlist : e.txList = g :: rest) :
    SameBytes g ((e.takeTx g rest).assignSn g).2 ∧
      IsSn e.snModulus ((e.takeTx g rest).assignSn g).2.sdu.sn ∧
      IsSn e.snModulus ((e.takeTx g rest).assignSn g).1.txNext ∧
      { ((e.takeTx g rest).assignSn g).1.segmentView with txNext := 0 } =
        { (e.takeTx g rest).segmentView with txNext := 0 } ∧
      ((e.takeTx g rest).assignSn g).1.sent = e.sent := by
  have hM : 0 < e.snModulus := by
    rw [h.modulus_eq]
    positivity
  unfold NrRlcEntityAm.assignSn
  split_ifs with hsn
  · exact ⟨⟨rfl, rfl, rfl, rfl, rfl, rfl⟩, h.txNext_sn,
      ⟨Int.emod_nonneg _ hM.ne', Int.emod_lt_of_pos _ hM⟩, rfl, rfl⟩
  · exact ⟨.refl g, (h.tx_sn g (by simp [hlist])).resolve_left hsn, h.txNext_sn, rfl, rfl⟩

/-- The segment `sent` goes to the wait list and is sent. -/
theorem AmTxWell.sendTx {sent : NrRlcSduSegment} (h : AmTxWell e taken (first ++ [sent]))
    (hsent : TxSegment sent) (hsn : IsSn e.snModulus sent.sdu.sn) (hfit : e.pduSize sent ≤ size)
    (hput : e.putInWaitList sent = some e') (p : Bool) :
    AmTxWell ((e'.pollNewPdu sent).1.sendPdu sent size p).entity taken (first ++ [sent]) ∧
      PduOf e size ((e'.pollNewPdu sent).1.sendPdu sent size p) sent := by
  obtain ⟨heq, hwait⟩ := putInWaitList_spec hput
  have hview : { e'.segmentView with waitList := [], retransmitList := [], nextSegment := 0 } =
      { e.segmentView with waitList := [], retransmitList := [], nextSegment := 0 } := by
    rw [heq]
    rfl
  have hle : e.nextSegment ≤ e'.nextSegment := by
    rw [heq]
  have hpoll : (e'.pollNewPdu sent).1.segmentView = e'.segmentView := rfl
  have hlen : (e'.pollNewPdu sent).1.snFieldLength = e.snFieldLength := by
    rw [heq]
    rfl
  have hsame : (e'.pollNewPdu sent).1.sent = e.sent := by
    rw [heq]
    rfl
  refine ⟨AmTxWell.congr ((segmentView_sendPdu sent size p).trans hpoll)
    (h.of_mem hview hle fun x hx => ?_), pduOf_sendPdu h.sn_length hlen hsame hsent
      (h.modulus_eq ▸ hsn) hfit p⟩
  rcases List.mem_append.1 hx with hx | hx
  · rcases hwait x hx with rfl | hx
    · exact ⟨hsent, hsn⟩
    · exact h.sent_ok x (List.mem_append_left _ hx)
  · rw [heq] at hx
    exact h.sent_ok x (List.mem_append_right _ hx)

/-- `generate_tx_pdu` : nothing, or a segment of the TX list is sent. -/
theorem AmTxWell.generateTxPdu (h : AmTxWell e taken first)
    (hs : e.generateTxPdu size = some r) : (r.entity = e ∧ r.pdu = []) ∨
      ∃ g, AmTxWell r.entity taken (first ++ [g]) ∧ PduOf e size r g := by
  unfold NrRlcEntityAm.generateTxPdu at hs
  split_ifs at hs with hstall
  · obtain rfl := Option.some.inj hs
    exact .inl ⟨rfl, rfl⟩
  split at hs
  · obtain rfl := Option.some.inj hs
    exact .inl ⟨rfl, rfl⟩
  next g rest hlist =>
  split_ifs at hs with hroom
  · obtain rfl := Option.some.inj hs
    exact .inl ⟨rfl, rfl⟩
  right
  obtain ⟨e₂, hput, rfl⟩ := Option.map_eq_some_iff.1 hs
  have hg := h.log.segment g (by simp [hlist])
  obtain ⟨hsame, hsn, hnext, hview, hsent⟩ := h.assignSn hlist
  obtain ⟨e₁, g', hassign⟩ : ∃ e₁ g', (e.takeTx g rest).assignSn g = (e₁, g') := ⟨_, _, rfl⟩
  rw [hassign] at hsame hsn hnext hview hsent hput ⊢
  simp only at hsame hsn hnext hview hsent hput ⊢
  have hlen : e₁.snFieldLength = e.snFieldLength := congrArg SegmentView.snFieldLength hview
  have hM : e₁.snModulus = e.snModulus := congrArg SegmentView.snModulus hview
  have htx : e₁.txList = rest := congrArg SegmentView.txList hview
  have hseg : e₁.nextSegment = e.nextSegment := congrArg SegmentView.nextSegment hview
  have hsdu : e₁.nextSdu = e.nextSdu := congrArg SegmentView.nextSdu hview
  have hwait : e₁.waitList = e.waitList := congrArg SegmentView.waitList hview
  have hretx : e₁.retransmitList = e.retransmitList := congrArg SegmentView.retransmitList hview
  have hend : e₁.txEnd = if rest = [] then none else e.txEnd := congrArg SegmentView.txEnd hview
  have hqueue := h.queue
  have hlog := h.log
  rw [hlist] at hqueue hlog
  have hsn_rest : ∀ x ∈ rest, x.sdu.sn = -1 ∨ IsSn e.snModulus x.sdu.sn :=
    fun x hx => h.tx_sn x (by simp [hlist, hx])
  have hroom' : e₁.computePduHeaderSize g' + 1 ≤ size := by
    have heq : e₁.computePduHeaderSize g' = e.computePduHeaderSize g := by
      simp only [computePduHeaderSize, hlen, hsame.isFirst_eq]
    omega
  have hg' := hg.congr hsame
  rcases cut_cases (e := e₁) (g := g') hroom' with ⟨hover, hsplit, hfit⟩ | hover
  · have hcut : e₁.splitTx g' size = ((e₁.resegment g').putBackTx (e₁.resegmentNext g' size),
        e₁.resegmentHead g' size) := if_pos hover
    rw [hcut] at hput ⊢
    have hwell : AmTxWell ((e₁.resegment g').putBackTx (e₁.resegmentNext g' size)) taken
        (first ++ [e₁.resegmentHead g' size]) :=
      { sn_length := hlen ▸ h.sn_length
        modulus_eq := hM.trans (hlen ▸ h.modulus_eq)
        txNext_sn := hM ▸ hnext
        queue := by
          have hq := (hseg ▸ hend ▸ htx ▸ hqueue.pop :
            SegmentQueue e₁.nextSegment e₁.txList e₁.txEnd)
          exact hq.putBack rfl
        log := by
          have hl := hlog.sendPart hsame hsplit
          rw [← hsdu, ← htx] at hl
          exact hl
        tx_sn := fun x hx => by
          rcases List.mem_cons.1 hx with rfl | hx
          · exact .inr (hM ▸ hsn)
          · exact hM ▸ hsn_rest x (htx ▸ hx)
        sent_ok := fun x hx => hM ▸ h.sent_ok x (hwait ▸ hretx ▸ hx) }
    obtain ⟨hwell', hpdu⟩ := hwell.sendTx (hg'.split hsplit).1 (hM ▸ hsn) hfit.le hput
      (e₂.pollNewPdu (e₁.resegmentHead g' size)).2
    exact ⟨_, hwell', hpdu.congr hsent hlen⟩
  · have hcut : e₁.splitTx g' size = (e₁, g') := if_neg hover
    rw [hcut] at hput ⊢
    have hwell : AmTxWell e₁ taken (first ++ [g']) :=
      { sn_length := hlen ▸ h.sn_length
        modulus_eq := hM.trans (hlen ▸ h.modulus_eq)
        txNext_sn := hM ▸ hnext
        queue := hseg ▸ hend ▸ htx ▸ hqueue.pop
        log := by
          have hl := hlog.sendWhole hsame
          rw [← hsdu, ← htx] at hl
          exact hl
        tx_sn := fun x hx => hM ▸ hsn_rest x (htx ▸ hx)
        sent_ok := fun x hx => hM ▸ h.sent_ok x (hwait ▸ hretx ▸ hx) }
    obtain ⟨hwell', hpdu⟩ := hwell.sendTx hg' (hM ▸ hsn) (not_lt.1 hover) hput
      (e₂.pollNewPdu g').2
    exact ⟨_, hwell', hpdu.congr hsent hlen⟩

/-- What one grant does : no data PDU, a retransmission, or a first transmission. -/
inductive AmGrant (e : NrRlcEntityAm) (taken : List TakenSdu) (first : List NrRlcSduSegment)
    (size : Int) (r : Generated) : Prop
  | nothing : e.retransmits size = false → r.entity.sent = e.sent →
      (r.pdu = [] ∨ r = e.generateStatus size) →
      AmTxWell r.entity taken first → AmGrant e taken first size r
  | retransmission (g : NrRlcSduSegment) : e.retransmits size → Resegmented e r →
      PduOf e size r g → AmTxWell r.entity taken first → AmGrant e taken first size r
  | firstTransmission (g : NrRlcSduSegment) : e.retransmits size = false → PduOf e size r g →
      AmTxWell r.entity taken (first ++ [g]) → AmGrant e taken first size r

theorem AmTxWell.generatePdu (h : AmTxWell e taken first)
    (hs : e.generatePdu size = some r) : AmGrant e taken first size r := by
  unfold NrRlcEntityAm.generatePdu at hs
  split_ifs at hs with hstatus
  · obtain rfl := Option.some.inj hs
    have hsent : (e.generateStatus size).entity.sent = e.sent ∧
        (e.generateStatus size).entity.segmentView = e.segmentView := by
      unfold generateStatus
      split_ifs <;> exact ⟨rfl, rfl⟩
    exact .nothing (by simp [retransmits, hstatus]) hsent.1 (.inr rfl) (h.congr hsent.2)
  · unfold generateDataPdu at hs
    have hfirst : ∀ {r : Generated}, e.generateTxPdu size = some r → e.retransmits size = false →
        AmGrant e taken first size r := by
      intro r hr hno
      rcases h.generateTxPdu hr with ⟨hsame, hnil⟩ | ⟨g, hwell, hpdu⟩
      · exact .nothing hno (by rw [hsame]) (.inl hnil) (hsame ▸ h)
      · exact .firstTransmission g hno hpdu hwell
    split_ifs at hs with hretx
    · exact hfirst hs (by simp [retransmits, hretx])
    · obtain ⟨r₁, hr₁, hs⟩ := Option.bind_eq_some_iff.1 hs
      have hkind : e.retransmits size = decide (r₁.pdu ≠ []) := by
        simp [retransmits, hretx, hr₁, hstatus]
      split_ifs at hs with hpdu
      · obtain rfl := Option.some.inj hs
        rcases h.generateRetxPdu hr₁ with ⟨-, hnil⟩ | ⟨hwell, hreseg, g, hof⟩
        · exact absurd hnil hpdu
        · exact .retransmission g (by simp [hkind, hpdu]) hreseg hof hwell
      · have hnil := not_not.1 hpdu
        rcases h.generateRetxPdu hr₁ with ⟨hsame, -⟩ | ⟨hwell, hreseg, g, hof⟩
        · rw [hsame] at hs
          exact hfirst hs (by simp [hkind, hnil])
        · exact absurd hnil hof.pdu_ne_nil

/-! ## Runs -/

theorem AmTxWell.discardSdu (h : AmTxWell e taken first) (sduId : Int) :
    AmTxWell (e.discardSdu sduId)
      (dropDiscarded e.txList (e.discardSdu sduId).txList taken) first := by
  obtain heq | ⟨before, cur, after, hl, -, heq⟩ := e.discardSdu_cases sduId
  · rw [heq, dropDiscarded_self]
    exact h
  · rw [heq]
    have hqueue := h.queue
    have hlog := h.log
    rw [hl] at hqueue hlog
    have hsub : ∀ g ∈ before ++ after, g ∈ e.txList := fun g hg => by
      rw [hl]
      exact ((List.sublist_cons_self cur after).append_left before).subset hg
    exact
      { sn_length := h.sn_length
        modulus_eq := h.modulus_eq
        txNext_sn := h.txNext_sn
        queue := hqueue.remove
        log := hl ▸ hlog.discard
        tx_sn := fun g hg => h.tx_sn g (hsub g hg)
        sent_ok := h.sent_ok }

theorem AmTxWell.clearEntity (h : AmTxWell e taken first) : AmTxWell e.clearEntity [] [] where
  sn_length := h.sn_length
  modulus_eq := h.modulus_eq
  txNext_sn := ⟨le_rfl, h.txNext_sn.1.trans_lt h.txNext_sn.2⟩
  queue := .nil
  log := .nil _
  tx_sn := by simp [NrRlcEntityAm.clearEntity]
  sent_ok := by simp [NrRlcEntityAm.clearEntity]

/-- One step, whatever is called. -/
theorem AmTxWell.step {s s' : TxLog NrRlcEntityAm} {op : AmOp}
    (h : AmTxWell s.entity s.taken s.first) (hs : amTxStep s op = some s') :
    AmTxWell s'.entity s'.taken s'.first := by
  obtain ⟨e', he', rfl⟩ := Option.map_eq_some_iff.1 hs
  cases op with
  | recvSdu buffer sduId => exact h.recvSdu he'
  | recvPdu buffer =>
    obtain rfl := Option.some.inj he'
    cases hp : s.entity.receivedControlPdu buffer with
    | none => exact h.congr (segmentView_of_txView (txView_of_txFrame (txFrame_recvPdu hp)))
    | some pdu =>
      rw [recvPdu_eq_applyControlPdu hp]
      exact h.applyControlPdu pdu
  | generatePdu size =>
    obtain ⟨r, hr, rfl⟩ := Option.map_eq_some_iff.1 he'
    cases h.generatePdu hr with
    | nothing _ hsent _ hwell => simpa [hsent] using hwell
    | retransmission g hretx _ _ hwell => simpa [hretx] using hwell
    | firstTransmission g hretx hof hwell => simpa [hretx, hof.sent_eq] using hwell
  | setTime now =>
    obtain ⟨e₁, he₁, rfl⟩ := Option.map_eq_some_iff.1 he'
    have hview : e₁.checkTReassembly.txView = e₁.txView :=
      txView_of_txFrame txFrame_checkTReassembly
    refine AmTxWell.congr (segmentView_of_txView hview) ?_
    obtain hstay | hpoll := checkTPollRetransmit_cases he₁
    · exact AmTxWell.congr (segmentView_of_txView (e := s.entity) hstay) h
    · have hexpire : ({ s.entity with tCurrent := now }.expirePollRetransmit).segmentView =
          s.entity.segmentView := rfl
      exact (h.congr hexpire).retransmitWaitHead hpoll
  | discardSdu sduId =>
    obtain rfl := Option.some.inj he'
    exact h.discardSdu sduId
  | reestablishment =>
    obtain rfl := Option.some.inj he'
    exact h.clearEntity

theorem amTxWell_of_reach {c : AmConfig} {s : TxLog NrRlcEntityAm}
    (h : Reach amTxStep anyStep (newAmTxLog c) s) : AmTxWell s.entity s.taken s.first :=
  h.invariant (P := fun s => AmTxWell s.entity s.taken s.first) (.new c)
    fun _ _ _ hwell _ hs => AmTxWell.step hwell hs

end NrRlcEntityAm

/-- The round trip of AM segments : the first transmissions of each SDU tile it, and so does what a
segment is split into, and a data PDU fits its grant and is decoded as the segment it is made of. -/
structure AmSegmentsOk (s : TxLog NrRlcEntityAm) : Prop where
  partitioned : Partitioned s.taken s.first s.entity.txList
  pdu : ∀ size r, s.entity.generatePdu size = some r → r.entity.sent ≠ s.entity.sent →
    ∃ g, NrRlcEntityAm.PduOf s.entity size r g
  resegmented : ∀ size r, s.entity.generatePdu size = some r → s.entity.retransmits size →
    NrRlcEntityAm.Resegmented s.entity r
  /-- Nothing else is sent but a STATUS PDU. -/
  status : ∀ size r, s.entity.generatePdu size = some r → r.entity.sent = s.entity.sent →
    r.pdu = [] ∨ r = s.entity.generateStatus size

theorem amSegmentsOk_of_reach {c : AmConfig} {s : TxLog NrRlcEntityAm}
    (h : Reach amTxStep anyStep (newAmTxLog c) s) : AmSegmentsOk s := by
  have hwell := NrRlcEntityAm.amTxWell_of_reach h
  refine ⟨hwell.log.partitioned, fun size r hr hsent => ?_, fun size r hr hretx => ?_,
    fun size r hr hsent => ?_⟩
  · cases hwell.generatePdu hr with
    | nothing _ hsame _ _ => exact absurd hsame hsent
    | retransmission g _ _ hof _ | firstTransmission g _ hof _ => exact ⟨g, hof⟩
  · cases hwell.generatePdu hr with
    | retransmission g _ hreseg _ _ => exact hreseg
    | nothing hno _ _ _ | firstTransmission g hno _ _ => simp [hno] at hretx
  · cases hwell.generatePdu hr with
    | nothing _ _ hpdu _ => exact hpdu
    | retransmission g _ _ hof _ | firstTransmission g _ hof _ =>
      exact absurd (hof.sent_eq.symm.trans hsent) (by simp)

end NrStack
