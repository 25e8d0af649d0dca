import Mathlib
import NrStack.Rlc.AmTxOrder

/-!
# What a STATUS PDU does to the segments

`finalVerdict` is what the pieces of a STATUS PDU say of a segment in the end : the
verdict of the first one that can classify it. The walk merges the two sorted lists, and
`ScanProgress` says where each segment it has taken has gone : `takeWait` and
`takeRetransmit` are its step lemmas.

The one branch that loses segments is the splice of the retransmit list when the wait list
is over : the link it makes is overwritten at the end of the function.
-/

namespace NrStack

namespace NrRlcEntityAm

/-- The verdict of the first piece that can classify the segment; after all of them it is
acknowledged or not. -/
def finalVerdict (e : NrRlcEntityAm) (ackSn : Int) : List NackPiece → NrRlcSduSegment → AckVerdict
  | [], g => if e.snCompareTx g.sdu.sn ackSn < 0 then .acked else .later
  | n :: ps, g =>
    if e.ackVerdict ackSn n g = .later then finalVerdict e ackSn ps g else e.ackVerdict ackSn n g

/-- What is known of the pieces of a valid STATUS PDU. -/
structure ValidPieces (e : NrRlcEntityAm) (ackSn : Int) (ps : List NackPiece) : Prop where
  txNextAck_sn : IsSn e.snModulus e.txNextAck
  ackSn_sn : IsSn e.snModulus ackSn
  piece_sn : ∀ n ∈ ps, IsSn e.snModulus n.sn
  piece_le : ∀ n ∈ ps, e.txDist n.sn ≤ e.txDist ackSn

variable {e : NrRlcEntityAm} {ackSn : Int} {n : NackPiece} {ps : List NackPiece}
  {a b g : NrRlcSduSegment}

theorem ValidPieces.of_cons (h : e.ValidPieces ackSn (n :: ps)) : e.ValidPieces ackSn ps :=
  ⟨h.txNextAck_sn, h.ackSn_sn, fun m hm => h.piece_sn m (by simp [hm]),
    fun m hm => h.piece_le m (by simp [hm])⟩

/-- A segment above ACK_SN is later than any piece. -/
theorem ackVerdict_ne_beyond (h : e.ValidPieces ackSn (n :: ps))
    (hg : IsSn e.snModulus g.sdu.sn) : e.ackVerdict ackSn n g ≠ .beyond := by
  have hn := h.piece_sn n (by simp)
  have hle := h.piece_le n (by simp)
  unfold ackVerdict
  rw [snCompareTx_eq h.txNextAck_sn hg hn, snCompareTx_eq h.txNextAck_sn hg h.ackSn_sn]
  split_ifs <;> simp
  omega

theorem ackVerdict_eq_later_iff : e.ackVerdict ackSn n g = .later ↔
    ¬(g.sdu.sn = n.sn ∧ soOverlap n.soStart n.soEnd g.so (g.so + g.size - 1)) ∧
      (e.snCompareTx g.sdu.sn n.sn > 0 ∨
        (e.snCompareTx g.sdu.sn n.sn = 0 ∧ g.so > n.soStart)) := by
  unfold ackVerdict
  split_ifs <;> simp_all

/-- If a segment is later than a piece, so is what comes after it. -/
theorem ackVerdict_later_mono (h : e.ValidPieces ackSn (n :: ps))
    (ha : IsSn e.snModulus a.sdu.sn) (hb : IsSn e.snModulus b.sdu.sn)
    (hab : txKey e.snModulus e.txNextAck a ≤ txKey e.snModulus e.txNextAck b)
    (hl : e.ackVerdict ackSn n a = .later) : e.ackVerdict ackSn n b = .later := by
  have hn := h.piece_sn n (by simp)
  rw [ackVerdict_eq_later_iff, snCompareTx_eq h.txNextAck_sn ha hn] at hl
  rw [ackVerdict_eq_later_iff, snCompareTx_eq h.txNextAck_sn hb hn]
  rw [txKey_le_iff] at hab
  have hsn : ∀ x, IsSn e.snModulus x → (x = n.sn ↔ e.txDist x = e.txDist n.sn) := fun x hx =>
    ⟨fun h => by rw [h], dist_inj hx hn⟩
  rw [hsn _ ha] at hl
  rw [hsn _ hb]
  simp only [txDist] at *
  obtain ⟨hno, hafter⟩ := hl
  refine ⟨?_, by omega⟩
  rintro ⟨heq, hover⟩
  apply hno
  -- both are segments of the SN of the piece, and begin behind its start
  have hsame : dist e.snModulus e.txNextAck a.sdu.sn = dist e.snModulus e.txNextAck n.sn := by
    omega
  have hsa : n.soStart < a.so := by omega
  have hsb : n.soStart < b.so := by omega
  have hso : a.so ≤ b.so := by omega
  rw [soOverlap, if_pos hsb, decide_eq_true_iff] at hover
  rw [soOverlap, if_pos hsa, decide_eq_true_iff]
  exact ⟨hsame, hover.imp_right fun h => by omega⟩

/-- A piece that cannot classify a segment does not count. -/
theorem finalVerdict_of_later (hl : e.ackVerdict ackSn n g = .later) :
    e.finalVerdict ackSn (n :: ps) g = e.finalVerdict ackSn ps g := by
  rw [finalVerdict, if_pos hl]

theorem finalVerdict_of_ne_later (hl : e.ackVerdict ackSn n g ≠ .later) :
    e.finalVerdict ackSn (n :: ps) g = e.ackVerdict ackSn n g := by
  rw [finalVerdict, if_neg hl]

/-- What follows ACK_SN is never reached : it stays where it is. -/
theorem finalVerdict_ne_beyond (hg : IsSn e.snModulus g.sdu.sn) : ∀ {ps : List NackPiece},
    e.ValidPieces ackSn ps → e.finalVerdict ackSn ps g ≠ .beyond
  | [], _ => by
    unfold finalVerdict
    split_ifs <;> simp
  | n :: ps, h => by
    unfold finalVerdict
    split_ifs
    · exact finalVerdict_ne_beyond hg h.of_cons
    · exact ackVerdict_ne_beyond h hg

end NrRlcEntityAm

/-! ## Progress of the walk -/

/-- The state of the walk from `e` when the segments `doneW` of the wait list and `doneR` of
the retransmit list have been taken, and `lost` has been spliced. `F` is the final verdict,
and `ps` are the pieces left. -/
structure ScanProgress (e : NrRlcEntityAm) (ackSn : Int) (F : NrRlcSduSegment → AckVerdict)
    (doneW doneR lost : List NrRlcSduSegment) (ps : List NackPiece) (s : AckScan) : Prop where
  frame : s.entity.scanFrame = e.scanFrame
  pieces : e.ValidPieces ackSn ps
  wait_eq : e.waitList = doneW ++ s.curWait
  retransmit_eq : e.retransmitList = doneR ++ s.curRetransmit ++ lost
  final : ∀ g ∈ s.curWait ++ s.curRetransmit, e.finalVerdict ackSn ps g = F g
  classified : ∀ g ∈ doneW ++ doneR, F g ≠ .later
  prevWait_eq : s.prevWait = doneW.filter fun g => F g = .skipped
  newRetransmit_perm : s.newRetransmit.Perm
    ((doneR.filter fun g => F g ≠ .acked) ++ doneW.filter fun g => F g = .nacked)
  newRetransmitNext_eq : s.newRetransmitNext = lost
  sorted : TxSorted e.snModulus e.txNextAck s.newRetransmit
  below : ∀ a ∈ s.newRetransmit, ∀ b ∈ s.curWait ++ s.curRetransmit,
    txKey e.snModulus e.txNextAck a ≤ txKey e.snModulus e.txNextAck b
  freed : ∃ freed, s.entity.freed = e.freed ++ freed ∧
    freed.Perm ((doneW ++ doneR).filter fun g => F g = .acked)
  ahead : ps ≠ [] → ∀ w ∈ doneW, ∀ r ∈ s.curRetransmit,
    txKey e.snModulus e.txNextAck w < txKey e.snModulus e.txNextAck r
  /-- A skipped segment was taken while one of the wait list was not before it. -/
  not_spliced : ∀ r ∈ doneR, F r = .skipped → ∃ w ∈ e.waitList,
    ¬txKey e.snModulus e.txNextAck w < txKey e.snModulus e.txNextAck r
  spliced : lost ≠ [] → s.curWait = [] ∧ s.curRetransmit = [] ∧ ∃ r ∈ lost, F r = .skipped ∧
    ∀ w ∈ e.waitList, txKey e.snModulus e.txNextAck w < txKey e.snModulus e.txNextAck r

/-- The lists of a sender that the walk starts from. -/
structure TxLists (e : NrRlcEntityAm) : Prop where
  wait_sorted : TxSorted e.snModulus e.txNextAck e.waitList
  retransmit_sorted : TxSorted e.snModulus e.txNextAck e.retransmitList
  sn_range : ∀ g ∈ e.waitList ++ e.retransmitList, IsSn e.snModulus g.sdu.sn

namespace ScanProgress

open NrRlcEntityAm

variable {e : NrRlcEntityAm} {ackSn : Int} {F : NrRlcSduSegment → AckVerdict}
  {doneW doneR lost ws rs : List NrRlcSduSegment} {ps : List NackPiece} {n : NackPiece}
  {s s' : AckScan} {w r : NrRlcSduSegment}

/-- Taking a segment of the wait list. -/
theorem takeWait (h : ScanProgress e ackSn F doneW doneR lost ps s) (hw : s.curWait = w :: ws)
    (hF : F w ≠ .later) (hahead : ps ≠ [] → ∀ r ∈ s.curRetransmit,
      txKey e.snModulus e.txNextAck w < txKey e.snModulus e.txNextAck r)
    (hmin : F w = .nacked → ∀ b ∈ ws ++ s.curRetransmit,
      txKey e.snModulus e.txNextAck w ≤ txKey e.snModulus e.txNextAck b)
    (hframe : s'.entity.scanFrame = s.entity.scanFrame) (hws : s'.curWait = ws)
    (hrs : s'.curRetransmit = s.curRetransmit)
    (hprev : s'.prevWait = s.prevWait ++ if F w = .skipped then [w] else [])
    (hnew : s'.newRetransmit = s.newRetransmit ++ if F w = .nacked then [w] else [])
    (hnext : s'.newRetransmitNext = [])
    (hfreed : s'.entity.freed = s.entity.freed ++ if F w = .acked then [w] else []) :
    ScanProgress e ackSn F (doneW ++ [w]) doneR lost ps s' := by
  have hlost : lost = [] := by
    by_contra hne
    simp [(h.spliced hne).1] at hw
  have hsub : ∀ g ∈ s'.curWait ++ s'.curRetransmit, g ∈ s.curWait ++ s.curRetransmit := by
    intro g hg
    rw [hws, hrs] at hg
    rw [hw]
    simp only [List.cons_append, List.mem_cons]
    exact .inr hg
  obtain ⟨fr, hfr, hperm⟩ := h.freed
  refine ⟨hframe.trans h.frame, h.pieces, ?_, ?_, fun g hg => h.final g (hsub g hg), ?_, ?_, ?_, ?_,
    ?_, ?_, ⟨fr ++ if F w = .acked then [w] else [], ?_, ?_⟩, ?_, h.not_spliced, ?_⟩
  · rw [h.wait_eq, hw, hws, List.append_assoc, List.singleton_append]
  · rw [h.retransmit_eq, hrs]
  · intro g hg
    simp only [List.mem_append, List.mem_singleton] at hg
    rcases hg with (hg | rfl) | hg
    · exact h.classified g (by simp [hg])
    · exact hF
    · exact h.classified g (by simp [hg])
  · rw [hprev, h.prevWait_eq, List.filter_append]
    by_cases hs : F w = .skipped <;> simp [hs]
  · rw [hnew, List.filter_append, ← List.append_assoc]
    refine h.newRetransmit_perm.append ?_
    by_cases hs : F w = .nacked <;> simp [hs]
  · rw [hnext, hlost]
  · rw [hnew]
    split_ifs with hs
    · refine List.pairwise_append.2 ⟨h.sorted, List.pairwise_singleton _ _, fun a ha b hb => ?_⟩
      rw [List.mem_singleton.1 hb]
      exact h.below a ha w (by simp [hw])
    · rw [List.append_nil]
      exact h.sorted
  · intro a ha b hb
    rw [hnew, List.mem_append] at ha
    rcases ha with ha | ha
    · exact h.below a ha b (hsub b hb)
    · split_ifs at ha with hs
      · rw [List.mem_singleton.1 ha]
        rw [hws, hrs] at hb
        exact hmin hs b hb
      · simp at ha
  · rw [hfreed, hfr, List.append_assoc]
  · have hw' : ([w].filter fun g => F g = .acked) = if F w = .acked then [w] else [] := by
      by_cases hs : F w = .acked <;> simp [hs]
    rw [List.filter_append] at hperm
    rw [List.filter_append, List.filter_append, hw', List.append_assoc]
    exact (hperm.append_right _).trans
      ((List.append_assoc _ _ _).symm ▸ List.perm_append_comm.append_left _)
  · intro hne x hx r hr
    rw [hrs] at hr
    rcases List.mem_append.1 hx with hx | hx
    · exact h.ahead hne x hx r hr
    · rw [List.mem_singleton.1 hx]
      exact hahead hne r hr
  · exact fun hne => absurd hlost hne

/-- Taking a segment of the retransmit list. -/
theorem takeRetransmit (h : ScanProgress e ackSn F doneW doneR lost ps s)
    (hr : s.curRetransmit = r :: rs) (hF : F r ≠ .later) (hmin : F r ≠ .acked →
      ∀ b ∈ s.curWait ++ rs, txKey e.snModulus e.txNextAck r ≤ txKey e.snModulus e.txNextAck b)
    (hskip : F r = .skipped → ∃ w ∈ e.waitList,
      ¬txKey e.snModulus e.txNextAck w < txKey e.snModulus e.txNextAck r)
    (hframe : s'.entity.scanFrame = s.entity.scanFrame) (hws : s'.curWait = s.curWait)
    (hrs : s'.curRetransmit = rs) (hprev : s'.prevWait = s.prevWait)
    (hnew : s'.newRetransmit = s.newRetransmit ++ if F r = .acked then [] else [r])
    (hnext : s'.newRetransmitNext = [])
    (hfreed : s'.entity.freed = s.entity.freed ++ if F r = .acked then [r] else []) :
    ScanProgress e ackSn F doneW (doneR ++ [r]) lost ps s' := by
  have hlost : lost = [] := by
    by_contra hne
    simp [(h.spliced hne).2.1] at hr
  have hsub : ∀ g ∈ s'.curWait ++ s'.curRetransmit, g ∈ s.curWait ++ s.curRetransmit := by
    intro g hg
    rw [hws, hrs, List.mem_append] at hg
    rw [hr, List.mem_append]
    exact hg.imp_right (List.mem_cons_of_mem r)
  obtain ⟨fr, hfr, hperm⟩ := h.freed
  refine ⟨hframe.trans h.frame, h.pieces, ?_, ?_, fun g hg => h.final g (hsub g hg), ?_, ?_, ?_, ?_,
    ?_, ?_, ⟨fr ++ if F r = .acked then [r] else [], ?_, ?_⟩,
    fun hne x hx y hy => h.ahead hne x hx y (by rw [hr]; exact List.mem_cons_of_mem r (hrs ▸ hy)),
    ?_, ?_⟩
  · rw [h.wait_eq, hws]
  · rw [h.retransmit_eq, hr, hrs]
    simp
  · intro g hg
    simp only [List.mem_append, List.mem_singleton] at hg
    rcases hg with hg | hg | rfl
    · exact h.classified g (by simp [hg])
    · exact h.classified g (by simp [hg])
    · exact hF
  · rw [hprev, h.prevWait_eq]
  · have hr' : ([r].filter fun g => F g ≠ .acked) = if F r = .acked then [] else [r] := by
      by_cases hs : F r = .acked <;> simp [hs]
    rw [hnew, List.filter_append, hr', List.append_assoc]
    exact (h.newRetransmit_perm.append_right _).trans
      ((List.append_assoc _ _ _).symm ▸ List.perm_append_comm.append_left _)
  · rw [hnext, hlost]
  · rw [hnew]
    split_ifs with hs
    · rw [List.append_nil]
      exact h.sorted
    · refine List.pairwise_append.2 ⟨h.sorted, List.pairwise_singleton _ _, fun a ha b hb => ?_⟩
      rw [List.mem_singleton.1 hb]
      exact h.below a ha r (by simp [hr])
  · intro a ha b hb
    rw [hnew, List.mem_append] at ha
    rcases ha with ha | ha
    · exact h.below a ha b (hsub b hb)
    · split_ifs at ha with hs
      · simp at ha
      · rw [List.mem_singleton.1 ha]
        rw [hws, hrs] at hb
        exact hmin hs b hb
  · rw [hfreed, hfr, List.append_assoc]
  · have hr' : ([r].filter fun g => F g = .acked) = if F r = .acked then [r] else [] := by
      by_cases hs : F r = .acked <;> simp [hs]
    rw [← List.append_assoc, List.filter_append, hr']
    exact hperm.append_right _
  · intro x hx hs
    rcases List.mem_append.1 hx with hx | hx
    · exact h.not_spliced x hx hs
    · rw [List.mem_singleton.1 hx] at hs ⊢
      exact hskip hs
  · exact fun hne => absurd hlost hne

/-- The splice. -/
theorem splice (h : ScanProgress e ackSn F doneW doneR lost (n :: ps) s)
    (hr : s.curRetransmit = r :: rs) (hw : s.curWait = []) (hF : F r = .skipped) :
    ScanProgress e ackSn F doneW doneR (r :: rs) (n :: ps)
      { s with newRetransmitNext := r :: rs, curRetransmit := [] } := by
  have hlost : lost = [] := by
    by_contra hne
    simp [(h.spliced hne).2.1] at hr
  have hdone : e.waitList = doneW := by rw [h.wait_eq, hw, List.append_nil]
  refine ⟨h.frame, h.pieces, h.wait_eq, ?_, ?_, h.classified, h.prevWait_eq, h.newRetransmit_perm,
    rfl, h.sorted, ?_, h.freed, ?_, h.not_spliced,
    fun _ => ⟨hw, rfl, r, by simp, hF, fun w hmem => ?_⟩⟩
  · rw [h.retransmit_eq, hr, hlost]
    simp
  · simp [hw]
  · simp [hw]
  · simp
  · exact h.ahead (by simp) w (hdone ▸ hmem) r (by simp [hr])

/-- The next piece. -/
theorem done (h : ScanProgress e ackSn F doneW doneR lost (n :: ps) s)
    (hl : ∀ g ∈ s.curWait ++ s.curRetransmit, e.ackVerdict ackSn n g = .later) :
    ScanProgress e ackSn F doneW doneR lost ps s :=
  ⟨h.frame, h.pieces.of_cons, h.wait_eq, h.retransmit_eq,
    fun g hg => (finalVerdict_of_later (hl g hg)).symm.trans (h.final g hg), h.classified,
    h.prevWait_eq, h.newRetransmit_perm, h.newRetransmitNext_eq, h.sorted, h.below, h.freed,
    fun _ => h.ahead (by simp), h.not_spliced, h.spliced⟩

/-! ## The order of what is left -/

theorem sn_range (h : ScanProgress e ackSn F doneW doneR lost ps s) (hl : TxLists e) :
    ∀ g ∈ s.curWait ++ s.curRetransmit, IsSn e.snModulus g.sdu.sn := by
  intro g hg
  refine hl.sn_range g ?_
  rw [h.wait_eq, h.retransmit_eq]
  simp only [List.mem_append] at hg ⊢
  tauto

theorem curWait_sorted (h : ScanProgress e ackSn F doneW doneR lost ps s) (hl : TxLists e) :
    TxSorted e.snModulus e.txNextAck s.curWait := by
  have hs := hl.wait_sorted
  rw [h.wait_eq] at hs
  exact hs.sublist (List.sublist_append_right _ _)

theorem curRetransmit_sorted (h : ScanProgress e ackSn F doneW doneR lost ps s)
    (hl : TxLists e) : TxSorted e.snModulus e.txNextAck s.curRetransmit := by
  have hs := hl.retransmit_sorted
  rw [h.retransmit_eq, List.append_assoc] at hs
  exact hs.sublist ((List.sublist_append_left _ _).trans (List.sublist_append_right _ _))

/-- The segment of the wait list that is taken is below all that is left. -/
theorem wait_first (h : ScanProgress e ackSn F doneW doneR lost ps s) (hl : TxLists e)
    (hw : s.curWait = w :: ws) (hfirst : ∀ r ∈ s.curRetransmit.head?, s.entity.SegmentBefore w r) :
    (∀ r ∈ s.curRetransmit, txKey e.snModulus e.txNextAck w < txKey e.snModulus e.txNextAck r) ∧
      ∀ b ∈ ws ++ s.curRetransmit,
        txKey e.snModulus e.txNextAck w ≤ txKey e.snModulus e.txNextAck b := by
  have hsn := h.sn_range hl
  have hws := h.curWait_sorted hl
  rw [hw] at hws
  have hlt : ∀ r ∈ s.curRetransmit,
      txKey e.snModulus e.txNextAck w < txKey e.snModulus e.txNextAck r := by
    intro r hr
    cases hrs : s.curRetransmit with
    | nil => simp [hrs] at hr
    | cons r₀ rs =>
      have hbefore := hfirst r₀ (by simp [hrs])
      rw [SegmentBefore, snCompareTx_of_scanFrame h.frame, ← SegmentBefore,
        segmentBefore_iff h.pieces.txNextAck_sn (hsn w (by simp [hw])) (hsn r₀ (by simp [hrs]))]
        at hbefore
      have hsorted := h.curRetransmit_sorted hl
      rw [hrs] at hsorted hr
      rcases List.mem_cons.1 hr with rfl | hr
      · exact hbefore
      · exact hbefore.trans_le (List.rel_of_pairwise_cons hsorted hr)
  refine ⟨hlt, fun b hb => ?_⟩
  rcases List.mem_append.1 hb with hb | hb
  · exact List.rel_of_pairwise_cons hws hb
  · exact (hlt b hb).le

/-- The segment of the retransmit list that is taken is below all that is left. -/
theorem retransmit_first (h : ScanProgress e ackSn F doneW doneR lost ps s) (hl : TxLists e)
    (hr : s.curRetransmit = r :: rs) (hfirst : ∀ w ∈ s.curWait.head?, ¬s.entity.SegmentBefore w r) :
    ∀ b ∈ s.curWait ++ rs, txKey e.snModulus e.txNextAck r ≤ txKey e.snModulus e.txNextAck b := by
  have hsn := h.sn_range hl
  have hrs := h.curRetransmit_sorted hl
  rw [hr] at hrs
  intro b hb
  rcases List.mem_append.1 hb with hb | hb
  · cases hws : s.curWait with
    | nil => simp [hws] at hb
    | cons w₀ ws =>
      have hbefore := hfirst w₀ (by simp [hws])
      rw [SegmentBefore, snCompareTx_of_scanFrame h.frame, ← SegmentBefore,
        segmentBefore_iff h.pieces.txNextAck_sn (hsn w₀ (by simp [hws])) (hsn r (by simp [hr])),
        not_lt] at hbefore
      have hsorted := h.curWait_sorted hl
      rw [hws] at hsorted hb
      rcases List.mem_cons.1 hb with rfl | hb
      · exact hbefore
      · exact hbefore.trans (List.rel_of_pairwise_cons hsorted hb)
  · exact List.rel_of_pairwise_cons hrs hb

/-! ## The whole walk -/

theorem final_of_verdict {v : AckVerdict} {g : NrRlcSduSegment}
    (h : ScanProgress e ackSn F doneW doneR lost (n :: ps) s)
    (hg : g ∈ s.curWait ++ s.curRetransmit) (hv : s.entity.ackVerdict ackSn n g = v)
    (hne : v ≠ .later) : F g = v := by
  rw [ackVerdict_of_scanFrame h.frame] at hv
  rw [← h.final g hg, finalVerdict_of_ne_later (hv ▸ hne), hv]

@[simp] theorem freed_nackWait : (s.nackWait w ws).entity.freed = s.entity.freed := by
  simp only [AckScan.nackWait, reportMaxRetx]
  split_ifs <;> rfl

theorem move (h : ScanProgress e ackSn F doneW doneR lost (n :: ps) s) (hl : TxLists e)
    (hm : AckMove ackSn n s s') :
    ∃ doneW doneR lost, ScanProgress e ackSn F doneW doneR lost (n :: ps) s' := by
  have hframe := hm.scanFrame_eq
  have hnext : (s.curWait ≠ [] ∨ s.curRetransmit ≠ []) → s.newRetransmitNext = [] := by
    intro hne
    rw [h.newRetransmitNext_eq]
    by_contra hlost
    obtain ⟨hw, hr, -⟩ := h.spliced hlost
    simp [hw, hr] at hne
  cases hm with
  | @nackWait w ws hw hfirst hv =>
    obtain ⟨hahead, hmin⟩ := h.wait_first hl hw hfirst
    have hF := h.final_of_verdict (by simp [hw]) hv (by simp)
    exact ⟨_, _, _, h.takeWait hw (by simp [hF]) (fun _ => hahead) (fun _ => hmin) hframe rfl rfl
      (by simp [hF, AckScan.nackWait, AckScan.unlinkWait]) (by simp [hF, AckScan.nackWait]) rfl
      (by simp [hF])⟩
  | @freeWait w ws hw hfirst hv =>
    obtain ⟨hahead, hmin⟩ := h.wait_first hl hw hfirst
    have hF := h.final_of_verdict (by simp [hw]) hv (by simp)
    exact ⟨_, _, _, h.takeWait hw (by simp [hF]) (fun _ => hahead) (fun _ => hmin) hframe rfl rfl
      (by simp [hF, AckScan.freeWait, AckScan.unlinkWait])
      (by simp [hF, AckScan.freeWait, AckScan.unlinkWait])
      (by simpa [AckScan.freeWait, AckScan.unlinkWait] using hnext (by simp [hw]))
      (by simp [hF, AckScan.freeWait, freeSduSegment])⟩
  | @leaveWait w ws hw _ hv =>
    rw [ackVerdict_of_scanFrame h.frame] at hv
    exact absurd hv (ackVerdict_ne_beyond h.pieces (h.sn_range hl w (by simp [hw])))
  | @skipWait w ws hw hfirst hv =>
    obtain ⟨hahead, hmin⟩ := h.wait_first hl hw hfirst
    have hF := h.final_of_verdict (by simp [hw]) hv (by simp)
    exact ⟨_, _, _, h.takeWait hw (by simp [hF]) (fun _ => hahead) (fun _ => hmin) hframe rfl rfl
      (by simp [hF]) (by simp [hF]) (hnext (by simp [hw])) (by simp [hF])⟩
  | @keepRetransmit r rs hr hfirst hv =>
    have hmin := h.retransmit_first hl hr hfirst
    have hF : F r = .nacked ∨ s.curWait ≠ [] ∧ F r = .skipped := by
      rcases hv with hv | ⟨hne, hv | hv⟩
      · exact .inl (h.final_of_verdict (by simp [hr]) hv (by simp))
      · rw [ackVerdict_of_scanFrame h.frame] at hv
        exact absurd hv (ackVerdict_ne_beyond h.pieces (h.sn_range hl r (by simp [hr])))
      · exact .inr ⟨hne, h.final_of_verdict (by simp [hr]) hv (by simp)⟩
    have hF' : F r ≠ .acked ∧ F r ≠ .later := by
      rcases hF with hF | ⟨-, hF⟩ <;> simp [hF]
    refine ⟨_, _, _, h.takeRetransmit hr hF'.2 (fun _ => hmin) (fun hs => ?_) hframe rfl rfl rfl
      (by simp [hF'.1, AckScan.keepRetransmit]) rfl (by simp [hF'.1, AckScan.keepRetransmit])⟩
    -- the head of the wait list is not before a segment that is skipped here
    have hne : s.curWait ≠ [] := by
      rcases hF with hF | hF
      · simp [hs] at hF
      · exact hF.1
    obtain ⟨w, ws, hw⟩ := List.exists_cons_of_ne_nil hne
    refine ⟨w, by simp [h.wait_eq, hw], ?_⟩
    exact not_lt.2 (hmin w (by simp [hw]))
  | @freeRetransmit r rs hr hfirst hv =>
    have hF := h.final_of_verdict (by simp [hr]) hv (by simp)
    exact ⟨_, _, _, h.takeRetransmit hr (by simp [hF]) (by simp [hF]) (by simp [hF]) hframe rfl rfl
      rfl (by simp [hF, AckScan.freeRetransmit])
      (by simpa [AckScan.freeRetransmit] using hnext (by simp [hr]))
      (by simp [hF, AckScan.freeRetransmit, freeSduSegment])⟩
  | @spliceRetransmit r rs hr hw hv =>
    have hF : F r = .skipped := by
      rcases hv with hv | hv
      · rw [ackVerdict_of_scanFrame h.frame] at hv
        exact absurd hv (ackVerdict_ne_beyond h.pieces (h.sn_range hl r (by simp [hr])))
      · exact h.final_of_verdict (by simp [hr]) hv (by simp)
    exact ⟨_, _, _, h.splice hr hw hF⟩

theorem later_of_pieceDone (h : ScanProgress e ackSn F doneW doneR lost (n :: ps) s)
    (hl : TxLists e) (hd : PieceDone ackSn n s) :
    ∀ g ∈ s.curWait ++ s.curRetransmit, e.ackVerdict ackSn n g = .later := by
  have hsn := h.sn_range hl
  cases hd with
  | empty hw hr => simp [hw, hr]
  | @wait w ws hw hfirst hv =>
    rw [ackVerdict_of_scanFrame h.frame] at hv
    have hmin := (h.wait_first hl hw hfirst).2
    intro g hg
    rw [hw, List.cons_append, List.mem_cons] at hg
    rcases hg with rfl | hg
    · exact hv
    · exact ackVerdict_later_mono h.pieces (hsn w (by simp [hw]))
        (hsn g (by rw [hw]; exact List.mem_cons_of_mem _ hg)) (hmin g hg) hv
  | @retransmit r rs hr hfirst hv =>
    rw [ackVerdict_of_scanFrame h.frame] at hv
    have hmin := h.retransmit_first hl hr hfirst
    intro g hg
    have hcases : g = r ∨ g ∈ s.curWait ++ rs := by
      rw [hr] at hg
      simp only [List.mem_append, List.mem_cons] at hg ⊢
      tauto
    rcases hcases with rfl | hg'
    · exact hv
    · exact ackVerdict_later_mono h.pieces (hsn r (by simp [hr])) (hsn g hg) (hmin g hg') hv

theorem scanRule (e : NrRlcEntityAm) (ackSn : Int) (F : NrRlcSduSegment → AckVerdict)
    (hl : TxLists e) : ScanRule e.snModulus ackSn fun ps s =>
      ∃ doneW doneR lost, ScanProgress e ackSn F doneW doneR lost ps s where
  snModulus_eq := fun ⟨_, _, _, h⟩ => show _ = e.scanFrame.snModulus from h.frame ▸ rfl
  move := fun ⟨_, _, _, h⟩ hm => h.move hl hm
  done := fun ⟨_, _, _, h⟩ hd => ⟨_, _, _, h.done (h.later_of_pieceDone hl hd)⟩
  poll := fun t _ ⟨_, _, _, h⟩ => ⟨_, _, _, h.frame, h.pieces, h.wait_eq, h.retransmit_eq, h.final,
    h.classified, h.prevWait_eq, h.newRetransmit_perm, h.newRetransmitNext_eq, h.sorted, h.below,
    h.freed, h.ahead, h.not_spliced, h.spliced⟩
  freeWait := by
    rintro s w ws ⟨doneW, doneR, lost, h⟩ hw hlt
    rw [snCompareTx_of_scanFrame h.frame] at hlt
    have hF : F w = .acked := by
      rw [← h.final w (by simp [hw]), finalVerdict, if_pos hlt]
    have hlost : lost = [] := by
      by_contra hne
      simp [(h.spliced hne).1] at hw
    exact ⟨_, _, _, h.takeWait hw (by simp [hF]) (by simp) (by simp [hF]) rfl rfl rfl
      (by simp [hF, AckScan.freeWait, AckScan.unlinkWait])
      (by simp [hF, AckScan.freeWait, AckScan.unlinkWait])
      (by simpa [AckScan.freeWait, AckScan.unlinkWait, hlost] using h.newRetransmitNext_eq)
      (by simp [hF, AckScan.freeWait, freeSduSegment])⟩
  freeRetransmit := by
    rintro s r rs ⟨doneW, doneR, lost, h⟩ hr hlt
    rw [snCompareTx_of_scanFrame h.frame] at hlt
    have hF : F r = .acked := by
      rw [← h.final r (by simp [hr]), finalVerdict, if_pos hlt]
    have hlost : lost = [] := by
      by_contra hne
      simp [(h.spliced hne).2.1] at hr
    exact ⟨_, _, _, h.takeRetransmit hr (by simp [hF]) (by simp [hF]) (by simp [hF]) rfl rfl rfl rfl
      (by simp [hF, AckScan.freeRetransmit])
      (by simpa [AckScan.freeRetransmit, hlost] using h.newRetransmitNext_eq)
      (by simp [hF, AckScan.freeRetransmit, freeSduSegment])⟩

theorem start (hv : e.ValidPieces ackSn ps) :
    ScanProgress e ackSn (e.finalVerdict ackSn ps) [] [] [] ps e.startScan :=
  ⟨rfl, hv, rfl, by simp [startScan], fun _ _ => rfl, by simp, rfl, .refl _, rfl, .nil,
    by simp [startScan], ⟨[], by simp [startScan], by simp⟩, by simp, by simp, by simp⟩

/-- When the walk is over, nothing that is left is acknowledged. -/
theorem later_of_finishDone (h : ScanProgress e ackSn F doneW doneR lost [] s) (hl : TxLists e)
    (hd : s.FinishDone ackSn) : ∀ g ∈ s.curWait ++ s.curRetransmit, F g = .later := by
  have hn := h.pieces.txNextAck_sn
  have hack := h.pieces.ackSn_sn
  have hsn := h.sn_range hl
  have hlist : ∀ l, TxSorted e.snModulus e.txNextAck l → (∀ g ∈ l, IsSn e.snModulus g.sdu.sn) →
      (∀ g ∈ l.head?, ¬e.snCompareTx g.sdu.sn ackSn < 0) →
        ∀ g ∈ l, ¬e.snCompareTx g.sdu.sn ackSn < 0 := by
    rintro (_ | ⟨a, l⟩) hsorted hsn hhead g hg
    · simp at hg
    · have ha := hhead a (by simp)
      rcases List.mem_cons.1 hg with rfl | hg'
      · exact ha
      · have hle := dist_le_of_txKey_le (List.rel_of_pairwise_cons hsorted hg')
        rw [snCompareTx_eq hn (hsn a (by simp)) hack, txDist] at ha
        rw [snCompareTx_eq hn (hsn g hg) hack, txDist]
        omega
  intro g hg
  have hnot : ¬e.snCompareTx g.sdu.sn ackSn < 0 := by
    have hw := hd.wait
    have hr := hd.retransmit
    rw [snCompareTx_of_scanFrame h.frame] at hw hr
    rcases List.mem_append.1 hg with hg | hg
    · exact hlist _ (h.curWait_sorted hl) (fun g hg => hsn g (by simp [hg])) hw g hg
    · exact hlist _ (h.curRetransmit_sorted hl) (fun g hg => hsn g (by simp [hg])) hr g hg
  rw [← h.final g hg, finalVerdict, if_neg hnot]

end ScanProgress

/-! ## The result -/

/-- The final verdict of a STATUS PDU. -/
def NrRlcEntityAm.pduVerdict (e : NrRlcEntityAm) (pdu : ControlPdu) (g : NrRlcSduSegment) :
    AckVerdict :=
  e.finalVerdict pdu.ackSn (pdu.pieces e.snModulus) g

/-- The walk splices the rest of the retransmit list : it skips a segment with the whole
wait list before it. -/
def NrRlcEntityAm.Splices (e : NrRlcEntityAm) (pdu : ControlPdu) : Prop :=
  ∃ r ∈ e.retransmitList, e.pduVerdict pdu r = .skipped ∧ ∀ w ∈ e.waitList, e.SegmentBefore w r

instance (e : NrRlcEntityAm) (pdu : ControlPdu) : Decidable (e.Splices pdu) :=
  inferInstanceAs (Decidable (∃ r ∈ e.retransmitList, _))

/-- The entity less what the walk writes, its lists included. -/
def NrRlcEntityAm.ackFrame (e : NrRlcEntityAm) : NrRlcEntityAm :=
  { e.scanFrame with waitList := [], retransmitList := [], waitEnd := none }

/-- What the walk has done to the lists of `e`, with `freed` and `lost` taken out of them. -/
structure ScanResult (e e' : NrRlcEntityAm) (F : NrRlcSduSegment → AckVerdict)
    (freed lost : List NrRlcSduSegment) : Prop where
  frame : e'.ackFrame = e.ackFrame
  wait_eq : e'.waitList = e.waitList.filter fun g => F g = .skipped ∨ F g = .later
  retransmit_perm : ∃ kept, e.retransmitList = kept ++ lost ∧ e'.retransmitList.Perm
    ((kept.filter fun g => F g ≠ .acked) ++ e.waitList.filter fun g => F g = .nacked) ∧
      freed.Perm ((e.waitList ++ kept).filter fun g => F g = .acked)
  sorted : TxSorted e.snModulus e.txNextAck e'.retransmitList
  freed_eq : e'.freed = e.freed ++ freed

theorem ScanProgress.splices_iff {e : NrRlcEntityAm} {pdu : ControlPdu}
    {doneW doneR lost : List NrRlcSduSegment} {s : AckScan}
    (h : ScanProgress e pdu.ackSn (e.pduVerdict pdu) doneW doneR lost [] s) (hl : TxLists e)
    (hd : s.FinishDone pdu.ackSn) : lost ≠ [] ↔ e.Splices pdu := by
  have hbefore : ∀ r ∈ e.retransmitList, ∀ w ∈ e.waitList, (e.SegmentBefore w r ↔
      txKey e.snModulus e.txNextAck w < txKey e.snModulus e.txNextAck r) := fun r hr w hw =>
    NrRlcEntityAm.segmentBefore_iff h.pieces.txNextAck_sn (hl.sn_range w (by simp [hw]))
      (hl.sn_range r (by simp [hr]))
  constructor
  · intro hne
    obtain ⟨-, -, r, hr, hF, hlt⟩ := h.spliced hne
    have hmem : r ∈ e.retransmitList := by rw [h.retransmit_eq]; simp [hr]
    exact ⟨r, hmem, hF, fun w hw => (hbefore r hmem w hw).2 (hlt w hw)⟩
  · rintro ⟨r, hr, hF, hlt⟩ rfl
    have hmem := hr
    rw [h.retransmit_eq, List.append_nil, List.mem_append] at hmem
    rcases hmem with hmem | hmem
    · obtain ⟨w, hw, hnot⟩ := h.not_spliced r hmem hF
      exact hnot ((hbefore r hr w hw).1 (hlt w hw))
    · simp [h.later_of_finishDone hl hd r (by simp [hmem])] at hF

/-- The walk for a STATUS PDU, together with any other invariant `Q` of it. What is lost is
what the last link overwrites. -/
theorem scanControlPdu_spec {e : NrRlcEntityAm} {pdu : ControlPdu}
    {Q : List NackPiece → AckScan → Prop} (hl : TxLists e)
    (hv : e.ValidPieces pdu.ackSn (pdu.pieces e.snModulus))
    (hQ : ScanRule e.snModulus pdu.ackSn Q) (hQ0 : Q (pdu.pieces e.snModulus) e.startScan) :
    ∃ s freed, Q [] s ∧ e.scanControlPdu pdu = s.linkRetransmit ∧
      ScanResult e (e.scanControlPdu pdu).toEntity (e.pduVerdict pdu) freed s.newRetransmitNext ∧
        (s.newRetransmitNext ≠ [] ↔ e.Splices pdu) := by
  obtain ⟨s, ⟨⟨doneW, doneR, lost, h⟩, hq⟩, hd, heq⟩ := ((ScanProgress.scanRule e pdu.ackSn
    (e.pduVerdict pdu) hl).and hQ).scanControlPdu ⟨⟨_, _, _, ScanProgress.start hv⟩, hQ0⟩
  have hlater := h.later_of_finishDone hl hd
  obtain ⟨freed, hfreed, hperm⟩ := h.freed
  have hnone : ∀ v, v ≠ .later → (s.curWait.filter fun g => e.pduVerdict pdu g = v) = [] ∧
      (s.curRetransmit.filter fun g => e.pduVerdict pdu g = v) = [] := by
    intro v hv
    constructor <;> refine List.filter_eq_nil_iff.2 fun g hg => ?_
    · simpa [hlater g (by simp [hg])] using hv.symm
    · simpa [hlater g (by simp [hg])] using hv.symm
  refine ⟨s, freed, hq, heq, ?_, h.newRetransmitNext_eq ▸ h.splices_iff hl hd⟩
  rw [heq, h.newRetransmitNext_eq]
  refine ⟨?_, ?_, ⟨doneR ++ s.curRetransmit, h.retransmit_eq, ?_, ?_⟩, ?_, hfreed⟩
  · exact congrArg
      (fun e => { e with waitList := [], retransmitList := [], waitEnd := none }) h.frame
  · show s.prevWait ++ s.curWait = _
    rw [h.prevWait_eq, h.wait_eq, List.filter_append]
    congr 1
    · refine List.filter_congr fun g hg => ?_
      have := h.classified g (by simp [hg])
      simp [this]
    · refine (List.filter_eq_self.2 fun g hg => ?_).symm
      simp [hlater g (by simp [hg])]
  · show (s.newRetransmit ++ s.curRetransmit).Perm _
    have hself : (s.curRetransmit.filter fun g => e.pduVerdict pdu g ≠ .acked) =
        s.curRetransmit := List.filter_eq_self.2 fun g hg => by
      simp [hlater g (by simp [hg])]
    rw [h.wait_eq, List.filter_append, List.filter_append, hself, (hnone .nacked (by simp)).1,
      List.append_nil, List.append_assoc]
    exact (h.newRetransmit_perm.append_right _).trans
      ((List.append_assoc _ _ _).symm ▸ List.perm_append_comm.append_left _)
  · rw [h.wait_eq]
    simpa only [List.filter_append, (hnone .acked (by simp)).1, (hnone .acked (by simp)).2,
      List.append_nil] using hperm
  · refine List.pairwise_append.2 ⟨h.sorted, h.curRetransmit_sorted hl, fun a ha b hb => ?_⟩
    exact h.below a ha b (by simp [show b ∈ s.curRetransmit from hb])

/-- A list cut in three by the verdict. -/
theorem verdict_perm {F : NrRlcSduSegment → AckVerdict} : ∀ {l : List NrRlcSduSegment},
    (∀ g ∈ l, F g ≠ .beyond) → ((l.filter fun g => F g = .skipped ∨ F g = .later) ++
      ((l.filter fun g => F g = .nacked) ++ l.filter fun g => F g = .acked)).Perm l
  | [], _ => .nil
  | g :: l, h => by
    have ih := verdict_perm fun x hx => h x (List.mem_cons_of_mem g hx)
    have hg := h g (by simp)
    cases hF : F g with
    | nacked => simpa [hF] using List.perm_middle.trans (ih.cons g)
    | later => simpa [hF] using ih.cons g
    | acked =>
      simp only [List.filter_cons, hF, reduceCtorEq, or_self, decide_false, Bool.false_eq_true,
        if_false, decide_true, if_true, ← List.append_assoc]
      exact List.perm_middle.trans ((List.append_assoc _ _ _ ▸ ih).cons g)
    | beyond => exact absurd hF hg
    | skipped => simpa [hF] using ih.cons g

/-- No segment disappears but those that are lost. -/
theorem ScanResult.perm {e e' : NrRlcEntityAm} {F : NrRlcSduSegment → AckVerdict}
    {freed lost : List NrRlcSduSegment} (h : ScanResult e e' F freed lost)
    (hF : ∀ g ∈ e.waitList ++ e.retransmitList, F g ≠ .beyond) :
    (e'.waitList ++ e'.retransmitList ++ freed ++ lost).Perm
      (e.waitList ++ e.retransmitList) := by
  obtain ⟨kept, hkept, hret, hfreed⟩ := h.retransmit_perm
  have hw := verdict_perm (F := F) (l := e.waitList) fun g hg => hF g (by simp [hg])
  have hk : ((kept.filter fun g => F g ≠ .acked) ++
      kept.filter fun g => F g = .acked).Perm kept := by
    have := List.filter_append_perm (fun g => F g ≠ .acked) kept
    simpa using this
  rw [List.filter_append] at hfreed
  rw [h.wait_eq, hkept]
  -- all that is left is to reorder
  rw [← Multiset.coe_eq_coe] at hret hfreed hw hk ⊢
  simp only [← Multiset.coe_add] at hret hfreed hw hk ⊢
  rw [hret, hfreed, ← hw, ← hk]
  abel

/-- Where the segments are that are not freed. -/
theorem ScanResult.mem_retransmitList {e e' : NrRlcEntityAm} {F : NrRlcSduSegment → AckVerdict}
    {freed lost : List NrRlcSduSegment} {g : NrRlcSduSegment} (h : ScanResult e e' F freed lost)
    (hg : (g ∈ e.waitList ∧ F g = .nacked) ∨ (lost = [] ∧ g ∈ e.retransmitList ∧ F g ≠ .acked)) :
    g ∈ e'.retransmitList := by
  obtain ⟨kept, hkept, hperm, -⟩ := h.retransmit_perm
  refine hperm.mem_iff.2 ?_
  rcases hg with ⟨hg, hF⟩ | ⟨rfl, hg, hF⟩
  · simp [hg, hF]
  · rw [hkept, List.append_nil] at hg
    simp [hg, hF]

end NrStack
