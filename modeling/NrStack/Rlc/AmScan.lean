import NrStack.Rlc.AmControl

/-!
# The walk of `process_control_pdu`

What one round of the walk can do (`AckMove`), when it is over for a piece (`PieceDone`),
and the rule that carries an invariant through the whole walk (`scan_rule`). The invariant
has the pieces still to be processed as an argument.

The walk writes the counters, the buffer status, the timer and the history of the entity
only; `scanFrame` is the rest of it.
-/

namespace NrStack

namespace NrRlcEntityAm

/-! ## What the walk leaves alone -/

/-- The entity less what the walk of `process_control_pdu` writes. -/
def scanFrame (e : NrRlcEntityAm) : NrRlcEntityAm :=
  { e with
    sdus := []
    freed := []
    txSize := 0
    out := []
    bstatusRetxSize := 0
    tPollRetransmitStart := 0 }

variable {e e' : NrRlcEntityAm}

theorem snCompareTx_of_scanFrame (h : e'.scanFrame = e.scanFrame) :
    e'.snCompareTx = e.snCompareTx :=
  show e'.scanFrame.snCompareTx = e.scanFrame.snCompareTx from h ▸ rfl

theorem ackVerdict_of_scanFrame (h : e'.scanFrame = e.scanFrame) :
    e'.ackVerdict = e.ackVerdict :=
  show e'.scanFrame.ackVerdict = e.scanFrame.ackVerdict from h ▸ rfl

theorem pduSize_of_scanFrame (h : e'.scanFrame = e.scanFrame) : e'.pduSize = e.pduSize :=
  show e'.scanFrame.pduSize = e.scanFrame.pduSize from h ▸ rfl

@[simp] theorem scanFrame_freeSduSegment (g : NrRlcSduSegment) :
    (e.freeSduSegment g).scanFrame = e.scanFrame :=
  rfl

@[simp] theorem scanFrame_reportMaxRetx (g : NrRlcSduSegment) (reached : NrRlcSduEntry → Bool) :
    (e.reportMaxRetx g reached).scanFrame = e.scanFrame := by
  unfold reportMaxRetx
  split_ifs <;> rfl

/-- The order in which the walk takes segments from its two lists. -/
def SegmentBefore (e : NrRlcEntityAm) (w r : NrRlcSduSegment) : Prop :=
  e.snCompareTx w.sdu.sn r.sdu.sn < 0 ∨ (e.snCompareTx w.sdu.sn r.sdu.sn = 0 ∧ w.so < r.so)

instance (e : NrRlcEntityAm) (w r : NrRlcSduSegment) : Decidable (e.SegmentBefore w r) :=
  inferInstanceAs (Decidable (_ ∨ _))

end NrRlcEntityAm

/-! ## One round -/

/-- One round of the walk : the smallest segment is classified and moved. -/
inductive AckMove (ackSn : Int) (n : NackPiece) (s : AckScan) : AckScan → Prop
  | nackWait {w : NrRlcSduSegment} {ws : List NrRlcSduSegment} : s.curWait = w :: ws →
      (∀ r ∈ s.curRetransmit.head?, s.entity.SegmentBefore w r) →
      s.entity.ackVerdict ackSn n w = .nacked → AckMove ackSn n s (s.nackWait w ws)
  | freeWait {w : NrRlcSduSegment} {ws : List NrRlcSduSegment} : s.curWait = w :: ws →
      (∀ r ∈ s.curRetransmit.head?, s.entity.SegmentBefore w r) →
      s.entity.ackVerdict ackSn n w = .acked → AckMove ackSn n s (s.freeWait w ws)
  | leaveWait {w : NrRlcSduSegment} {ws : List NrRlcSduSegment} : s.curWait = w :: ws →
      (∀ r ∈ s.curRetransmit.head?, s.entity.SegmentBefore w r) →
      s.entity.ackVerdict ackSn n w = .beyond →
      AckMove ackSn n s { s with prevWait := s.prevWait ++ w :: ws, curWait := [] }
  | skipWait {w : NrRlcSduSegment} {ws : List NrRlcSduSegment} : s.curWait = w :: ws →
      (∀ r ∈ s.curRetransmit.head?, s.entity.SegmentBefore w r) →
      s.entity.ackVerdict ackSn n w = .skipped →
      AckMove ackSn n s { s with prevWait := s.prevWait ++ [w], curWait := ws }
  | keepRetransmit {r : NrRlcSduSegment} {rs : List NrRlcSduSegment} : s.curRetransmit = r :: rs →
      (∀ w ∈ s.curWait.head?, ¬s.entity.SegmentBefore w r) →
      (s.entity.ackVerdict ackSn n r = .nacked ∨ s.curWait ≠ [] ∧
        (s.entity.ackVerdict ackSn n r = .beyond ∨ s.entity.ackVerdict ackSn n r = .skipped)) →
      AckMove ackSn n s (s.keepRetransmit r rs)
  | freeRetransmit {r : NrRlcSduSegment} {rs : List NrRlcSduSegment} : s.curRetransmit = r :: rs →
      (∀ w ∈ s.curWait.head?, ¬s.entity.SegmentBefore w r) →
      s.entity.ackVerdict ackSn n r = .acked → AckMove ackSn n s (s.freeRetransmit r rs)
  | spliceRetransmit {r : NrRlcSduSegment} {rs : List NrRlcSduSegment} :
      s.curRetransmit = r :: rs → s.curWait = [] →
      (s.entity.ackVerdict ackSn n r = .beyond ∨ s.entity.ackVerdict ackSn n r = .skipped) →
      AckMove ackSn n s { s with newRetransmitNext := r :: rs, curRetransmit := [] }

/-- The walk is over for a piece : the smallest segment is after it. -/
inductive PieceDone (ackSn : Int) (n : NackPiece) (s : AckScan) : Prop
  | empty : s.curWait = [] → s.curRetransmit = [] → PieceDone ackSn n s
  | wait {w : NrRlcSduSegment} {ws : List NrRlcSduSegment} : s.curWait = w :: ws →
      (∀ r ∈ s.curRetransmit.head?, s.entity.SegmentBefore w r) →
      s.entity.ackVerdict ackSn n w = .later → PieceDone ackSn n s
  | retransmit {r : NrRlcSduSegment} {rs : List NrRlcSduSegment} : s.curRetransmit = r :: rs →
      (∀ w ∈ s.curWait.head?, ¬s.entity.SegmentBefore w r) →
      s.entity.ackVerdict ackSn n r = .later → PieceDone ackSn n s

namespace AckScan

variable {s s' : AckScan} {ackSn : Int} {n : NackPiece} {w r : NrRlcSduSegment}
  {ws rs : List NrRlcSduSegment}

theorem processWaitListHead_spec (hw : s.curWait = w :: ws)
    (hfirst : ∀ r ∈ s.curRetransmit.head?, s.entity.SegmentBefore w r) :
    (∀ s', s.processWaitListHead ackSn n w ws = some s' → AckMove ackSn n s s') ∧
      (s.processWaitListHead ackSn n w ws = none → PieceDone ackSn n s) := by
  unfold processWaitListHead
  cases hv : s.entity.ackVerdict ackSn n w with
  | nacked => exact ⟨fun s' h => Option.some.inj h ▸ .nackWait hw hfirst hv, by simp⟩
  | later => exact ⟨by simp, fun _ => .wait hw hfirst hv⟩
  | acked => exact ⟨fun s' h => Option.some.inj h ▸ .freeWait hw hfirst hv, by simp⟩
  | beyond => exact ⟨fun s' h => Option.some.inj h ▸ .leaveWait hw hfirst hv, by simp⟩
  | skipped => exact ⟨fun s' h => Option.some.inj h ▸ .skipWait hw hfirst hv, by simp⟩

theorem processRetransmitListHead_spec (hr : s.curRetransmit = r :: rs)
    (hfirst : ∀ w ∈ s.curWait.head?, ¬s.entity.SegmentBefore w r) :
    (∀ s', s.processRetransmitListHead ackSn n r rs = some s' → AckMove ackSn n s s') ∧
      (s.processRetransmitListHead ackSn n r rs = none → PieceDone ackSn n s) := by
  unfold processRetransmitListHead
  have hleave : (s.entity.ackVerdict ackSn n r = .beyond ∨
      s.entity.ackVerdict ackSn n r = .skipped) → ∀ s',
        (if s.curWait = [] then some { s with newRetransmitNext := r :: rs, curRetransmit := [] }
          else some (s.keepRetransmit r rs)) = some s' → AckMove ackSn n s s' := by
    intro hv s' h
    split_ifs at h with hw
    · exact Option.some.inj h ▸ .spliceRetransmit hr hw hv
    · exact Option.some.inj h ▸ .keepRetransmit hr hfirst (.inr ⟨hw, hv⟩)
  cases hv : s.entity.ackVerdict ackSn n r with
  | nacked => exact ⟨fun s' h => Option.some.inj h ▸ .keepRetransmit hr hfirst (.inl hv), by simp⟩
  | later => exact ⟨by simp, fun _ => .retransmit hr hfirst hv⟩
  | acked => exact ⟨fun s' h => Option.some.inj h ▸ .freeRetransmit hr hfirst hv, by simp⟩
  | beyond => exact ⟨hleave (.inl hv), by simp only; split_ifs <;> simp⟩
  | skipped => exact ⟨hleave (.inr hv), by simp only; split_ifs <;> simp⟩

/-- What a round of the walk does. -/
theorem processNextPdu_spec (s : AckScan) (ackSn : Int) (n : NackPiece) :
    (∀ s', s.processNextPdu ackSn n = some s' → AckMove ackSn n s s') ∧
      (s.processNextPdu ackSn n = none → PieceDone ackSn n s) := by
  unfold processNextPdu
  cases hw : s.curWait with
  | nil =>
    cases hr : s.curRetransmit with
    | nil => exact ⟨by simp, fun _ => .empty hw hr⟩
    | cons r rs => exact processRetransmitListHead_spec hr (by simp [hw])
  | cons w ws =>
    cases hr : s.curRetransmit with
    | nil => exact processWaitListHead_spec hw (by simp [hr])
    | cons r rs =>
      simp only
      split_ifs with hcmp
      · exact processWaitListHead_spec hw (by rw [hr]; rintro _ ⟨⟩; exact hcmp)
      · exact processRetransmitListHead_spec hr (by rw [hw]; rintro _ ⟨⟩; exact hcmp)

/-- A round takes a segment off one of the two lists. -/
theorem remaining_lt_of_move (h : AckMove ackSn n s s') : s'.remaining < s.remaining := by
  cases h with
  | nackWait hw => simp [remaining, nackWait, unlinkWait, hw]
  | freeWait hw => simp [remaining, AckScan.freeWait, unlinkWait, hw]
  | leaveWait hw => simp [remaining, hw]
  | skipWait hw => simp [remaining, hw]
  | keepRetransmit hr => simp [remaining, AckScan.keepRetransmit, hr]
  | freeRetransmit hr => simp [remaining, AckScan.freeRetransmit, hr]
  | spliceRetransmit hr => simp [remaining, hr]

/-! ## The whole walk -/

/-- All the rounds for one piece. -/
theorem processPiece_rule {P : AckScan → Prop}
    (hmove : ∀ s s', P s → AckMove ackSn n s s' → P s') (h : P s) :
    P (s.processPiece ackSn n) ∧ PieceDone ackSn n (s.processPiece ackSn n) := by
  have hrounds : ∀ (k : Nat) (s : AckScan), s.remaining ≤ k → P s →
      P (processPieceFrom ackSn n k s) ∧ PieceDone ackSn n (processPieceFrom ackSn n k s) := by
    intro k
    induction k with
    | zero =>
      intro s hk h
      obtain ⟨hw, hr⟩ := Nat.add_eq_zero_iff.1 (Nat.le_zero.1 hk)
      exact ⟨h, .empty (List.length_eq_zero_iff.1 hw) (List.length_eq_zero_iff.1 hr)⟩
    | succ k ih =>
      intro s hk h
      obtain ⟨hsome, hnone⟩ := s.processNextPdu_spec ackSn n
      unfold processPieceFrom
      cases hs : s.processNextPdu ackSn n with
      | none => exact ⟨h, hnone hs⟩
      | some s' =>
        have hm := hsome s' hs
        have := remaining_lt_of_move hm
        exact ih s' (by omega) (hmove s s' h hm)
  exact hrounds s.remaining s le_rfl h

/-- The loops after the NACKs are over : nothing that is left is below ACK_SN. -/
structure FinishDone (ackSn : Int) (s : AckScan) : Prop where
  wait : ∀ w ∈ s.curWait.head?, ¬s.entity.snCompareTx w.sdu.sn ackSn < 0
  retransmit : ∀ r ∈ s.curRetransmit.head?, ¬s.entity.snCompareTx r.sdu.sn ackSn < 0

theorem finishWait_rule {P : AckScan → Prop} (hmove : ∀ s w ws, P s → s.curWait = w :: ws →
    s.entity.snCompareTx w.sdu.sn ackSn < 0 → P (s.freeWait w ws)) :
    ∀ (l : List NrRlcSduSegment) (s : AckScan), s.curWait = l → P s →
      P (finishWait ackSn l s) ∧ ∀ w ∈ (finishWait ackSn l s).curWait.head?,
        ¬(finishWait ackSn l s).entity.snCompareTx w.sdu.sn ackSn < 0
  | [], s, hl, h => ⟨h, by simp [finishWait, hl]⟩
  | w :: rest, s, hl, h => by
    unfold finishWait
    split_ifs with hlt
    · exact finishWait_rule hmove rest _ rfl (hmove s w rest h hl hlt)
    · exact ⟨h, by simpa [hl] using hlt⟩

theorem finishRetransmit_rule {P : AckScan → Prop} (hmove : ∀ s r rs, P s →
    s.curRetransmit = r :: rs → s.entity.snCompareTx r.sdu.sn ackSn < 0 →
      P (s.freeRetransmit r rs)) :
    ∀ (l : List NrRlcSduSegment) (s : AckScan), s.curRetransmit = l → P s →
      P (finishRetransmit ackSn l s) ∧ ∀ r ∈ (finishRetransmit ackSn l s).curRetransmit.head?,
        ¬(finishRetransmit ackSn l s).entity.snCompareTx r.sdu.sn ackSn < 0
  | [], s, hl, h => ⟨h, by simp [finishRetransmit, hl]⟩
  | r :: rest, s, hl, h => by
    unfold finishRetransmit
    split_ifs with hlt
    · exact finishRetransmit_rule hmove rest _ rfl (hmove s r rest h hl hlt)
    · exact ⟨h, by simpa [hl] using hlt⟩

end AckScan

/-- What carries an invariant `P` through the walk for a STATUS PDU. -/
structure ScanRule (snModulus ackSn : Int) (P : List NackPiece → AckScan → Prop) : Prop where
  snModulus_eq : ∀ {qs s}, P qs s → s.entity.snModulus = snModulus
  move : ∀ {n qs s s'}, P (n :: qs) s → AckMove ackSn n s s' → P (n :: qs) s'
  done : ∀ {n qs s}, P (n :: qs) s → PieceDone ackSn n s → P qs s
  poll : ∀ {qs s} (t : UInt64), t = 0 ∨ t = s.entity.tPollRetransmitStart → P qs s →
    P qs { s with entity := { s.entity with tPollRetransmitStart := t } }
  freeWait : ∀ {s w ws}, P [] s → s.curWait = w :: ws →
    s.entity.snCompareTx w.sdu.sn ackSn < 0 → P [] (s.freeWait w ws)
  freeRetransmit : ∀ {s r rs}, P [] s → s.curRetransmit = r :: rs →
    s.entity.snCompareTx r.sdu.sn ackSn < 0 → P [] (s.freeRetransmit r rs)

namespace ScanRule

variable {M ackSn : Int} {P : List NackPiece → AckScan → Prop}

/-- Two invariants at once. -/
theorem and {Q : List NackPiece → AckScan → Prop} (h : ScanRule M ackSn P)
    (h' : ScanRule M ackSn Q) : ScanRule M ackSn fun ps s => P ps s ∧ Q ps s where
  snModulus_eq := fun hs => h.snModulus_eq hs.1
  move := fun hs hm => ⟨h.move hs.1 hm, h'.move hs.2 hm⟩
  done := fun hs hd => ⟨h.done hs.1 hd, h'.done hs.2 hd⟩
  poll := fun t ht hs => ⟨h.poll t ht hs.1, h'.poll t ht hs.2⟩
  freeWait := fun hs hw hlt => ⟨h.freeWait hs.1 hw hlt, h'.freeWait hs.2 hw hlt⟩
  freeRetransmit := fun hs hr hlt => ⟨h.freeRetransmit hs.1 hr hlt, h'.freeRetransmit hs.2 hr hlt⟩

theorem stopPollRetransmitIf (h : ScanRule M ackSn P) {qs : List NackPiece} {s : AckScan}
    (c : Prop) [Decidable c] (hs : P qs s) :
    P qs { s with entity := s.entity.stopPollRetransmitIf c } := by
  refine h.poll _ ?_ hs
  split_ifs
  · exact .inl rfl
  · exact .inr rfl

theorem pieces (h : ScanRule M ackSn P) : ∀ (ps qs : List NackPiece) (s : AckScan),
    P (ps ++ qs) s → P qs (ps.foldl (fun s p => s.processPiece ackSn p) s)
  | [], _, _, hs => hs
  | n :: ps, qs, _, hs => by
    obtain ⟨hs', hdone⟩ := AckScan.processPiece_rule (P := P (n :: (ps ++ qs)))
      (fun _ _ => h.move) hs
    exact h.pieces ps qs _ (h.done hs' hdone)

theorem nacks (h : ScanRule M ackSn P) : ∀ (ns : List Nack) (s : AckScan),
    P (ns.flatMap (Nack.pieces M)) s → P [] (ns.foldl (fun s n => s.processNack ackSn n) s)
  | [], _, hs => hs
  | n :: ns, s, hs => by
    have hpieces := h.pieces _ _ s hs
    rw [← h.snModulus_eq hs] at hpieces
    exact h.nacks ns _ (h.stopPollRetransmitIf _ (h.snModulus_eq hs ▸ hpieces))

/-- The rule for the whole walk. -/
theorem scanControlPdu {pdu : ControlPdu} (h : ScanRule M pdu.ackSn P) {e : NrRlcEntityAm}
    (h0 : P (pdu.pieces M) e.startScan) :
    ∃ s, P [] s ∧ s.FinishDone pdu.ackSn ∧ e.scanControlPdu pdu = s.linkRetransmit := by
  have hnacks := h.nacks _ _ (h.stopPollRetransmitIf (e.snCompareTx e.pollSn pdu.ackSn < 0) h0)
  obtain ⟨hw, hwd⟩ := AckScan.finishWait_rule (fun _ _ _ => h.freeWait) _ _ rfl hnacks
  obtain ⟨⟨hr, hwd'⟩, hrd⟩ := AckScan.finishRetransmit_rule
    (P := fun s => P [] s ∧ ∀ w ∈ s.curWait.head?, ¬s.entity.snCompareTx w.sdu.sn pdu.ackSn < 0)
    (fun _ _ _ hs hl hlt => ⟨h.freeRetransmit hs.1 hl hlt, hs.2⟩) _ _ rfl ⟨hw, hwd⟩
  exact ⟨_, hr, ⟨hwd', hrd⟩, rfl⟩

end ScanRule

/-! ## The frame of the walk -/

theorem AckMove.scanFrame_eq {s s' : AckScan} {ackSn : Int} {n : NackPiece}
    (h : AckMove ackSn n s s') : s'.entity.scanFrame = s.entity.scanFrame := by
  cases h with
  | nackWait =>
    exact NrRlcEntityAm.scanFrame_reportMaxRetx (e := s.entity.incrementRetxCount _) _ _
  | _ => rfl

theorem NrRlcEntityAm.scanFrame_scanControlPdu (e : NrRlcEntityAm) (pdu : ControlPdu) :
    (e.scanControlPdu pdu).entity.scanFrame = e.scanFrame := by
  have hrule : ScanRule e.snModulus pdu.ackSn fun _ s => s.entity.scanFrame = e.scanFrame :=
    { snModulus_eq := fun h => show _ = e.scanFrame.snModulus from h ▸ rfl
      move := fun h hm => hm.scanFrame_eq.trans h
      done := fun h _ => h
      poll := fun _ _ h => h
      freeWait := fun h _ _ => h
      freeRetransmit := fun h _ _ => h }
  obtain ⟨s, hs, -, heq⟩ := hrule.scanControlPdu (e := e) rfl
  rw [heq]
  exact hs

end NrStack
