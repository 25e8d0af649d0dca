import NrStack.Mac.DlHarq

/-!
# Whose ACK it is

The gNB identifies a downlink process by the frame (modulo 1024) and slot of its feedback, and the
processes of one occasion by their order. Here the transmissions are followed with the frames not
wrapped (`Transmission`), in the order they wait, and a UCI answers them as it should (`answers`) :
those whose occasion has passed were missed, those of its own occasion get its bits, one after the
other.

`Linked.harqBits` : if all it comes across lies nearby, the loop over the HARQ bits calls
`handle_dl_harq` with these answers. `Linked.event` : the other events add a transmission at the
end, or leave the list as it is, or empty it.
-/

namespace NrStack

/-! ## Transmissions and their answers -/

/-- A transmission that waits for feedback, at a position among those of its occasion. -/
structure Transmission where
  pid : ℕ
  frame : ℕ
  slot : ℕ
  position : ℕ
  deriving DecidableEq, Repr

/-- What became of a transmission : its occasion passed, or it got a bit of a UCI. -/
inductive Answer
  | missed
  | bit (position : ℕ) (ack : Bool)
  deriving DecidableEq, Repr

def Answer.isAck : Answer → Bool
  | .missed => false
  | .bit _ ack => ack

/-- A UCI with its HARQ bits, true for an ACK. -/
structure Uci where
  frame : ℕ
  slot : ℕ
  bits : List Bool

namespace Transmission

/-- The occasion is that of the UCI. -/
def At (tx : Transmission) (uci : Uci) : Prop :=
  tx.frame = uci.frame ∧ tx.slot = uci.slot

/-- The occasion is before the UCI. -/
def Before (tx : Transmission) (uci : Uci) : Prop :=
  tx.frame < uci.frame ∨ tx.frame = uci.frame ∧ tx.slot < uci.slot

/-- The occasion is less than half of the frame numbers away. -/
def Near (tx : Transmission) (uci : Uci) : Prop :=
  tx.frame < uci.frame + 512 ∧ uci.frame < tx.frame + 512

instance (tx : Transmission) (uci : Uci) : Decidable (tx.At uci) :=
  inferInstanceAs (Decidable (_ ∧ _))

instance (tx : Transmission) (uci : Uci) : Decidable (tx.Before uci) :=
  inferInstanceAs (Decidable (_ ∨ _))

instance (tx : Transmission) (uci : Uci) : Decidable (tx.Near uci) :=
  inferInstanceAs (Decidable (_ ∧ _))

end Transmission

/-- The answers of a UCI to the waiting transmissions, from a bit on. -/
def answers (uci : Uci) : ℕ → List Transmission → List (Transmission × Answer)
  | _, [] => []
  | i, tx :: waiting =>
    match uci.bits[i]? with
    | none => []
    | some ack =>
      if tx.Before uci then (tx, .missed) :: answers uci i waiting
      else if tx.At uci then (tx, .bit i ack) :: answers uci (i + 1) waiting
      else []

/-- What a UCI comes across lies near it. -/
def AllNear (uci : Uci) : List Transmission → Prop
  | [] => True
  | tx :: waiting => tx.Near uci ∧ (tx.Before uci ∨ tx.At uci → AllNear uci waiting)

instance AllNear.decidable (uci : Uci) :
    ∀ waiting : List Transmission, Decidable (AllNear uci waiting)
  | [] => .isTrue trivial
  | _ :: waiting =>
    have := AllNear.decidable uci waiting
    inferInstanceAs (Decidable (_ ∧ (_ → _)))

/-- The bit of a payload, eight to a byte. -/
def payloadBit (harqPayload : List UInt8) (harqBit : ℕ) : Bool :=
  (harqPayload.getD (harqBit / 8) 0).toNat / 2 ^ (harqBit % 8) % 2 = 1

/-- The UCI an event brings, as it was sent. -/
def DlHarqEvent.uci : DlHarqEvent → Option Uci
  | .uci01 frame slot harqValues harqConfidenceLevel _ =>
    some ⟨frame, slot, harqBits01 harqValues harqConfidenceLevel⟩
  | .uci234 frame slot harqPayload harqBitLen harqCrc =>
    some ⟨frame, slot, (List.range harqBitLen).map fun harqBit =>
      harqCrc ≠ 1 && payloadBit harqPayload harqBit⟩
  | _ => none

/-- A UCI of format 2, 3 or 4. -/
def DlHarqEvent.hasPayload : DlHarqEvent → Bool
  | .uci234 .. => true
  | _ => false

/-- The occasion of the transmission an event makes. -/
def DlHarqEvent.occasion : DlHarqEvent → ℕ × ℕ
  | .generateMsg4 frame slot => (frame, slot)
  | .schedule (some pucch) => pucch
  | _ => (0, 0)

/-- Frame numbers as the gNB has them. -/
def DlHarqEvent.wrap : DlHarqEvent → DlHarqEvent
  | .generateMsg4 frame slot => .generateMsg4 (frame % 1024) slot
  | .schedule pucch => .schedule (pucch.map fun p => (p.1 % 1024, p.2))
  | .uci01 frame slot harqValues harqConfidenceLevel nrofHARQ =>
    .uci01 (frame % 1024) slot harqValues harqConfidenceLevel nrofHARQ
  | .uci234 frame slot harqPayload harqBitLen harqCrc =>
    .uci234 (frame % 1024) slot harqPayload harqBitLen harqCrc
  | event => event

/-! ## The loop over the HARQ bits -/

/-- The feedback list holds the processes of the waiting transmissions. -/
structure Linked (h : HarqLists) (waiting : List Transmission) : Prop where
  feedback : h.feedback = waiting.map (·.pid)
  nodup : (waiting.map (·.pid)).Nodup
  time : ∀ tx ∈ waiting, (h.process tx.pid).feedbackFrame = tx.frame % 1024 ∧
    (h.process tx.pid).feedbackSlot = tx.slot
  isWaiting : ∀ tx ∈ waiting, (h.process tx.pid).isWaiting = true
  created : h.len = 0 → h.available = [] ∧ h.feedback = [] ∧ h.retrans = []

section Loop

variable {h h' : HarqLists} {tx : Transmission} {waiting : List Transmission} {uci : Uci}
  {harqRoundMax nrofHARQ : ℕ}

theorem Transmission.At.not_before (hat : tx.At uci) : ¬tx.Before uci := by
  obtain ⟨hframe, hslot⟩ := hat
  rw [Transmission.Before]
  omega

/-- Nearby, the frame numbers tell what is in the past. -/
theorem Linked.past (hlinked : Linked h (tx :: waiting)) (hnear : tx.Near uci) :
    feedbackPast (h.process tx.pid) (uci.frame % 1024) uci.slot = true ↔ tx.Before uci := by
  obtain ⟨hframe, hslot⟩ := hlinked.time tx List.mem_cons_self
  obtain ⟨hlow, hhigh⟩ := hnear
  rw [feedbackPast, hframe, hslot]
  simp only [Bool.or_eq_true, Bool.and_eq_true, decide_eq_true_eq, Transmission.Before]
  omega

/-- Nearby, the frame numbers tell what is in the future. -/
theorem Linked.future (hlinked : Linked h (tx :: waiting)) (hnear : tx.Near uci) :
    feedbackFuture (h.process tx.pid) (uci.frame % 1024) uci.slot = true ↔
      ¬(tx.Before uci ∨ tx.At uci) := by
  obtain ⟨hframe, hslot⟩ := hlinked.time tx List.mem_cons_self
  obtain ⟨hlow, hhigh⟩ := hnear
  rw [feedbackFuture, hframe, hslot]
  simp only [Bool.or_eq_true, Bool.and_eq_true, decide_eq_true_eq, Transmission.Before,
    Transmission.At]
  omega

/-- Other processes may change. -/
theorem Linked.congr (hlinked : Linked h waiting) (hfeedback : h'.feedback = h.feedback)
    (hprocess : ∀ tx ∈ waiting, h'.process tx.pid = h.process tx.pid)
    (hcreated : h'.len = 0 → h'.available = [] ∧ h'.feedback = [] ∧ h'.retrans = []) :
    Linked h' waiting := by
  refine ⟨hfeedback.trans hlinked.feedback, hlinked.nodup, fun tx htx => ?_, fun tx htx => ?_,
    hcreated⟩
  · rw [hprocess tx htx]
    exact hlinked.time tx htx
  · rw [hprocess tx htx]
    exact hlinked.isWaiting tx htx

/-- `handle_dl_harq` for the transmission that waits first. -/
theorem Linked.handle (hlinked : Linked h (tx :: waiting)) (success : Bool) :
    Linked (h.handleDlHarq harqRoundMax tx.pid success) waiting ∧
      (h.handleDlHarq harqRoundMax tx.pid success).handled =
        h.handled ++ [(tx.pid, success)] := by
  have hfeedback : h.feedback = tx.pid :: waiting.map (·.pid) := hlinked.feedback
  have hlen : h.len ≠ 0 := by
    intro hzero
    rw [(hlinked.created hzero).2.1] at hfeedback
    cases hfeedback
  obtain ⟨hpid, hnodup⟩ := List.nodup_cons.1 hlinked.nodup
  set h' := h.handleDlHarq harqRoundMax tx.pid success with hh'
  rw [HarqLists.handleDlHarq] at hh'
  have hall : h'.feedback = h.feedback.tail ∧ h'.len = h.len ∧
      h'.handled = h.handled ++ [(tx.pid, success)] ∧
      ∀ p, p ≠ tx.pid → h'.process p = h.process p := by
    rw [hh']
    split_ifs <;> refine ⟨rfl, rfl, rfl, fun p hp => ?_⟩ <;>
      exact (Function.update_of_ne hp ..).trans (Function.update_of_ne hp ..)
  obtain ⟨htail, hlen', hhandled, hprocess⟩ := hall
  have hother (tx' : Transmission) (htx' : tx' ∈ waiting) : h'.process tx'.pid = h.process tx'.pid :=
    hprocess _ fun heq => hpid (List.mem_map.2 ⟨tx', htx', heq⟩)
  refine ⟨⟨by rw [htail, hfeedback, List.tail_cons], hnodup, fun tx' htx' => ?_,
    fun tx' htx' => ?_, fun hzero => absurd (hlen'.symm.trans hzero) hlen⟩, hhandled⟩
  · rw [hother tx' htx']
    exact hlinked.time tx' (List.mem_cons_of_mem tx htx')
  · rw [hother tx' htx']
    exact hlinked.isWaiting tx' (List.mem_cons_of_mem tx htx')

/-- What `find_harq` takes for lost : the transmissions in front that were missed. -/
theorem Linked.skipPast : ∀ {waiting : List Transmission} {h : HarqLists}, Linked h waiting →
    AllNear uci waiting →
    ∃ passed left, waiting = passed ++ left ∧ (∀ tx ∈ passed, tx.Before uci) ∧
      (∀ tx rest, left = tx :: rest → ¬tx.Before uci) ∧ AllNear uci left ∧
      Linked (HarqLists.skipPast harqRoundMax (uci.frame % 1024) uci.slot h.feedback h) left ∧
      (HarqLists.skipPast harqRoundMax (uci.frame % 1024) uci.slot h.feedback h).handled =
        h.handled ++ passed.map fun tx => (tx.pid, false)
  | [], h, hlinked, _ => by
    have hnil : h.feedback = [] := hlinked.feedback
    refine ⟨[], [], rfl, by simp, by simp, trivial, ?_⟩
    rw [hnil, HarqLists.skipPast]
    exact ⟨hlinked, by simp⟩
  | tx :: waiting, h, hlinked, hnear => by
    have hcons : h.feedback = tx.pid :: waiting.map (·.pid) := hlinked.feedback
    rw [hcons, HarqLists.skipPast]
    by_cases hbefore : tx.Before uci
    · rw [if_pos ((hlinked.past hnear.1).2 hbefore)]
      obtain ⟨hlinked', hhandled⟩ := @Linked.handle _ _ _ harqRoundMax hlinked false
      obtain ⟨passed, left, rfl, hpassed, hleft, hnear', hskip, hall⟩ :=
        hlinked'.skipPast (hnear.2 (.inl hbefore))
      rw [hlinked'.feedback] at hskip hall
      rw [hhandled] at hall
      refine ⟨tx :: passed, left, rfl, ?_, hleft, hnear', hskip, by simpa using hall⟩
      exact List.forall_mem_cons.2 ⟨hbefore, hpassed⟩
    · rw [if_neg (mt (hlinked.past hnear.1).1 hbefore)]
      refine ⟨[], tx :: waiting, rfl, by simp, ?_, hnear, hlinked, by simp⟩
      rintro _ _ ⟨⟩
      exact hbefore

/-- What was passed is missed, as long as there is a bit left. -/
theorem answers_append {i : ℕ} {ack : Bool} (hbit : uci.bits[i]? = some ack) :
    ∀ {passed left : List Transmission}, (∀ tx ∈ passed, tx.Before uci) →
      answers uci i (passed ++ left) =
        passed.map (fun tx => (tx, Answer.missed)) ++ answers uci i left
  | [], _, _ => rfl
  | tx :: passed, left, hpassed => by
    rw [List.forall_mem_cons] at hpassed
    rw [List.cons_append, answers, hbit, answers_append hbit hpassed.2]
    simp only [hpassed.1, if_true]
    rfl

theorem Linked.create (hlinked : Linked h waiting) (hcreate : h.create nrofHARQ = .ok h') :
    Linked h' waiting ∧ h'.handled = h.handled := by
  rw [HarqLists.create] at hcreate
  split_ifs at hcreate with hzero hsame hless
  · cases hcreate
    have hnil := (hlinked.created hzero).2
    refine ⟨hlinked.congr hnil.1.symm (fun _ _ => rfl) fun hnone => ⟨?_, rfl, rfl⟩, rfl⟩
    simp [show nrofHARQ = 0 from hnone]
  · cases hcreate
    exact ⟨hlinked, rfl⟩
  · cases hcreate
    exact ⟨hlinked.congr rfl (fun _ _ => rfl) fun h => absurd h (by dsimp only; omega), rfl⟩

/-- What does not touch the feedback list. -/
theorem Linked.nrCheck {c c' : DlHarq} {success : Bool} (hlinked : Linked c.toHarqLists waiting)
    (hcheck : c.nrCheckMsg4MsgBAck nrofHARQ success = .ok c') :
    Linked c'.toHarqLists waiting ∧ c'.handled = c.handled := by
  have hclear {h : HarqLists} {ra : RaState} (hh : Linked h waiting)
      (hok : (DlHarq.clearRetrans h c.raHarqPid).map
        (fun h => { c with toHarqLists := h, ra := ra }) = .ok c') :
      Linked c'.toHarqLists waiting ∧ c'.handled = h.handled := by
    rw [DlHarq.clearRetrans, removeNrList] at hok
    split_ifs at hok
    · cases hok
      exact ⟨hh, rfl⟩
    · cases hok
      refine ⟨hh.congr rfl (fun _ _ => rfl) fun hzero => ?_, rfl⟩
      obtain ⟨havailable, hfeedback, hretrans⟩ := hh.created hzero
      exact ⟨havailable, hfeedback, by simp [hretrans]⟩
    · cases hok
  rw [DlHarq.nrCheckMsg4MsgBAck] at hcheck
  split_ifs at hcheck with hra hround hsuccess
  · obtain ⟨h, hcreate⟩ | hcreate := c.toHarqLists.create_cases nrofHARQ <;>
      rw [hcreate] at hcheck
    · obtain ⟨hh, hhandled⟩ := hlinked.create hcreate
      obtain ⟨hc', hhandled'⟩ := hclear hh hcheck
      exact ⟨hc', hhandled'.trans hhandled⟩
    · cases hcheck
  · exact hclear hlinked hcheck
  · cases hcheck
    exact ⟨hlinked, rfl⟩

/-- The loop gives the answers of the UCI, if its bits are those of the UCI as far as they are
used. -/
theorem Linked.harqBits {isRa : Bool} : ∀ {bits : List Bool} {i : ℕ} {waiting : List Transmission}
    {c c' : DlHarq}, Linked c.toHarqLists waiting → AllNear uci waiting →
    i + bits.length = uci.bits.length →
    (∀ k < (waiting.filter (·.At uci)).length, bits[k]? = uci.bits[i + k]?) →
    DlHarq.harqBits harqRoundMax nrofHARQ (uci.frame % 1024) uci.slot isRa bits c = .ok c' →
    Linked c'.toHarqLists (waiting.drop (answers uci i waiting).length) ∧
      c'.handled = c.handled ++
        (answers uci i waiting).map fun (tx, answer) => (tx.pid, answer.isAck)
  | [], i, waiting, c, c', hlinked, _, hlength, _, hok => by
    cases hok
    have hnone : uci.bits[i]? = none := List.getElem?_eq_none (by simpa using hlength.ge)
    have hnil : answers uci i waiting = [] := by
      cases waiting with
      | nil => rfl
      | cons tx waiting => rw [answers, hnone]
    rw [hnil]
    exact ⟨hlinked, by simp⟩
  | success :: bits, i, waiting, c, c', hlinked, hnear, hlength, hbits, hok => by
    obtain ⟨ack, hack⟩ : ∃ ack, uci.bits[i]? = some ack :=
      ⟨_, List.getElem?_eq_getElem (by rw [List.length_cons] at hlength; omega)⟩
    obtain ⟨passed, left, rfl, hpassed, hleft, hnear', hskip, hhandled⟩ :=
      @Linked.skipPast uci harqRoundMax _ _ hlinked hnear
    rw [answers_append hack hpassed]
    have hdrop (n : ℕ) : (passed ++ left).drop
        (passed.map (fun tx => (tx, Answer.missed)) ++ (answers uci n left)).length =
          left.drop (answers uci n left).length := by
      simp [List.drop_append]
    rw [hdrop]
    have hmissed : (passed.map fun tx => (tx, Answer.missed)).map
        (fun x : Transmission × Answer => (x.1.pid, x.2.isAck)) =
          passed.map fun tx => (tx.pid, false) := by
      rw [List.map_map]
      rfl
    rw [List.map_append, hmissed, ← List.append_assoc, ← hhandled]
    set h := HarqLists.skipPast harqRoundMax (uci.frame % 1024) uci.slot c.feedback c.toHarqLists
      with hh
    rw [DlHarq.harqBits, HarqLists.findHarq, ← hh] at hok
    cases left with
    | nil =>
      simp only [show h.feedback = [] from hskip.feedback, Except.ok.injEq] at hok
      subst hok
      exact ⟨hskip, by simp [answers]⟩
    | cons tx rest =>
      have hbefore : ¬tx.Before uci := hleft tx rest rfl
      simp only [show h.feedback = tx.pid :: rest.map (·.pid) from hskip.feedback] at hok
      by_cases hat : tx.At uci
      · -- the bit is that of `tx`
        have hcount : ((passed ++ tx :: rest).filter (·.At uci)).length =
            (rest.filter (·.At uci)).length + 1 := by
          have hnone : passed.filter (·.At uci) = [] :=
            List.filter_eq_nil_iff.2 fun tx htx => by
              simpa using fun hat => Transmission.At.not_before hat (hpassed tx htx)
          rw [List.filter_append, hnone, List.filter_cons_of_pos (by simpa using hat)]
          rfl
        obtain rfl : success = ack := by
          have hfirst := hbits 0 (by omega)
          rw [List.getElem?_cons_zero, Nat.add_zero, hack] at hfirst
          exact Option.some.inj hfirst
        have hrest (k : ℕ) (hk : k < (rest.filter (·.At uci)).length) :
            bits[k]? = uci.bits[i + 1 + k]? := by
          have hnext := hbits (k + 1) (by omega)
          rw [List.getElem?_cons_succ] at hnext
          rw [hnext]
          congr 1
          omega
        have hanswers : answers uci i (tx :: rest) =
            (tx, .bit i success) :: answers uci (i + 1) rest := by
          rw [answers, hack]
          simp only [hbefore, hat, if_false, if_true]
        have hnotFuture : ¬feedbackFuture (h.process tx.pid) (uci.frame % 1024) uci.slot = true :=
          fun hfuture => (hskip.future hnear'.1).1 hfuture (.inr hat)
        have hwaits : (h.process tx.pid).isWaiting = true :=
          hskip.isWaiting tx List.mem_cons_self
        obtain ⟨hlinked', hhandled'⟩ := @Linked.handle _ _ _ harqRoundMax hskip success
        set h' := h.handleDlHarq harqRoundMax tx.pid success
        -- what the rest of the loop starts from
        have hloop : ∃ c₁ : DlHarq, Linked c₁.toHarqLists rest ∧ c₁.handled = h'.handled ∧
            DlHarq.harqBits harqRoundMax nrofHARQ (uci.frame % 1024) uci.slot isRa bits c₁ =
              .ok c' := by
          simp only [hnotFuture, Bool.false_eq_true, if_false, hwaits, Bool.true_eq_false] at hok
          cases isRa with
          | false => exact ⟨_, hlinked', rfl, hok⟩
          | true =>
            simp only [if_true] at hok
            split at hok
            · cases hok
            · rename_i c₁ hcheck
              obtain ⟨hlinked₁, hhandled₁⟩ :=
                @Linked.nrCheck _ _ { c with toHarqLists := h' } _ _ hlinked' hcheck
              exact ⟨c₁, hlinked₁, hhandled₁, hok⟩
        obtain ⟨c₁, hlinked₁, hhandled₁, hok₁⟩ := hloop
        obtain ⟨hlast, hall⟩ := hlinked₁.harqBits (hnear'.2 (.inr hat))
          (by rw [List.length_cons] at hlength; omega) hrest hok₁
        rw [hanswers]
        refine ⟨by simpa using hlast, ?_⟩
        rw [hall, hhandled₁, hhandled', List.map_cons, List.append_assoc]
        rfl
      · have hfuture := (hskip.future hnear'.1).2 (not_or.2 ⟨hbefore, hat⟩)
        simp only [hfuture, if_true, Except.ok.injEq] at hok
        subst hok
        have hnone : answers uci i (tx :: rest) = [] := by
          rw [answers, hack]
          simp only [hbefore, hat, if_false]
        rw [hnone]
        exact ⟨hskip, by simp⟩

/-! ## Transmissions -/

theorem take_same {choice : Option ℕ} {pid : ℕ} (htake : h.take choice = .ok (pid, h')) :
    h'.feedback = h.feedback ∧ h'.process = h.process ∧ h'.len = h.len ∧ h'.handled = h.handled ∧
      (h.available ≠ [] ∨ h.retrans ≠ []) := by
  cases choice with
  | none =>
    rw [HarqLists.take] at htake
    split at htake
    · cases htake
    · rename_i havailable
      cases htake
      exact ⟨rfl, rfl, rfl, rfl, .inl (by simp [havailable])⟩
  | some pid =>
    rw [HarqLists.take, removeNrList, removeNrList] at htake
    split_ifs at htake with hround hmem hmem
    · cases htake
      exact ⟨rfl, rfl, rfl, rfl, .inl (List.ne_nil_of_mem hmem)⟩
    · cases htake
    · cases htake
      exact ⟨rfl, rfl, rfl, rfl, .inr (List.ne_nil_of_mem hmem)⟩
    · cases htake

/-- A process that waits for nothing is sent. -/
theorem Linked.await {pid frame slot position : ℕ} (hlinked : Linked h waiting)
    (hlen : h.len ≠ 0) (hwaiting : (h.process pid).isWaiting = false) :
    Linked (h.await pid (frame % 1024) slot) (waiting ++ [⟨pid, frame, slot, position⟩]) ∧
      (h.await pid (frame % 1024) slot).feedback = h.feedback ++ [pid] := by
  have hnot : pid ∉ waiting.map (·.pid) := by
    intro hmem
    obtain ⟨tx, htx, rfl⟩ := List.mem_map.1 hmem
    rw [hlinked.isWaiting tx htx] at hwaiting
    cases hwaiting
  have hfeedback : (h.await pid (frame % 1024) slot).feedback = h.feedback ++ [pid] :=
    addTailNrList_of_notMem (hlinked.feedback ▸ hnot)
  have hprocess : (h.await pid (frame % 1024) slot).process pid =
      { h.process pid with
        isWaiting := true
        feedbackFrame := frame % 1024
        feedbackSlot := slot } := Function.update_self ..
  have hother (tx : Transmission) (htx : tx ∈ waiting) :
      (h.await pid (frame % 1024) slot).process tx.pid = h.process tx.pid :=
    Function.update_of_ne (fun heq => hnot (List.mem_map.2 ⟨tx, htx, heq⟩)) ..
  refine ⟨⟨?_, ?_, fun tx htx => ?_, fun tx htx => ?_, fun hzero => absurd hzero hlen⟩, hfeedback⟩
  · rw [hfeedback, hlinked.feedback, List.map_append]
    rfl
  · rw [List.map_append]
    exact List.Nodup.append hlinked.nodup (List.nodup_singleton pid) (by simpa using hnot)
  · obtain htx | htx := List.mem_append.1 htx
    · rw [hother tx htx]
      exact hlinked.time tx htx
    · obtain rfl := List.mem_singleton.1 htx
      rw [hprocess]
      exact ⟨rfl, rfl⟩
  · obtain htx | htx := List.mem_append.1 htx
    · rw [hother tx htx]
      exact hlinked.isWaiting tx htx
    · obtain rfl := List.mem_singleton.1 htx
      rw [hprocess]

/-- A process that waits for nothing is finished. -/
theorem Linked.finish {pid : ℕ} (hlinked : Linked h waiting) (hlen : h.len ≠ 0)
    (hwaiting : (h.process pid).isWaiting = false) : Linked (h.finish pid) waiting := by
  refine hlinked.congr rfl (fun tx htx => Function.update_of_ne (fun heq => ?_) ..)
    fun hzero => absurd hzero hlen
  rw [← heq, hlinked.isWaiting tx htx] at hwaiting
  cases hwaiting

theorem Linked.reset (hlinked : Linked h waiting) : Linked h.reset [] := by
  refine ⟨rfl, List.nodup_nil, by simp, by simp, fun hzero => ?_⟩
  obtain ⟨havailable, hfeedback, hretrans⟩ := hlinked.created hzero
  exact ⟨by simp [HarqLists.reset, havailable, hfeedback, hretrans], rfl, rfl⟩

/-- A grant : the process is sent, or finished at once. -/
theorem Linked.schedule {c c' : DlHarq} {pucch : Option (ℕ × ℕ)}
    (hlinked : Linked c.toHarqLists waiting)
    (hstep : c.nrScheduleUeSpec harqRoundMax (pucch.map fun p => (p.1 % 1024, p.2)) = .ok c') :
    c'.handled = c.handled ∧
      (Linked c'.toHarqLists waiting ∧ c'.feedback = c.feedback ∨
        ∃ frame slot pid, pucch = some (frame, slot) ∧ c'.feedback = c.feedback ++ [pid] ∧
          ∀ position, Linked c'.toHarqLists (waiting ++ [⟨pid, frame, slot, position⟩])) := by
  rw [DlHarq.nrScheduleUeSpec] at hstep
  split_ifs at hstep with hskip
  · cases hstep
    exact ⟨rfl, .inl ⟨hlinked, rfl⟩⟩
  split at hstep
  · cases hstep
  rename_i pid h' htake
  obtain ⟨hfeedback, hprocess, hlen, hhandled, hsome⟩ := take_same htake
  have hpos : h'.len ≠ 0 := by
    intro hzero
    obtain ⟨havailable, -, hretrans⟩ := hlinked.created (hlen.symm.trans hzero)
    exact hsome.elim (fun h => h havailable) fun h => h hretrans
  have hlinked' : Linked h' waiting :=
    hlinked.congr hfeedback (fun tx _ => by rw [hprocess]) fun hzero => absurd hzero hpos
  split_ifs at hstep with hwaiting
  rw [Bool.not_eq_true] at hwaiting
  cases pucch with
  | none =>
    simp only [Option.map_none] at hstep
    split_ifs at hstep
    cases hstep
    exact ⟨hhandled, .inl ⟨hlinked'.finish hpos hwaiting, hfeedback⟩⟩
  | some pucch =>
    obtain ⟨frame, slot⟩ := pucch
    simp only [Option.map_some] at hstep
    split_ifs at hstep
    cases hstep
    have hawait (position : ℕ) := @Linked.await _ _ _ frame slot position hlinked' hpos hwaiting
    refine ⟨hhandled, .inr ⟨frame, slot, pid, rfl, ?_, fun position => (hawait position).1⟩⟩
    exact (hawait 0).2.trans (by rw [hfeedback])

/-- A Msg4. -/
theorem Linked.msg4 {c c' : DlHarq} {frame slot : ℕ} (hlinked : Linked c.toHarqLists waiting)
    (hstep : c.nrGenerateMsg4MsgB (frame % 1024) slot = .ok c') :
    c'.handled = c.handled ∧
      (Linked c'.toHarqLists waiting ∧ c'.feedback = c.feedback ∨
        ∃ pid, c'.feedback = c.feedback ++ [pid] ∧
          ∀ position, Linked c'.toHarqLists (waiting ++ [⟨pid, frame, slot, position⟩])) := by
  rw [DlHarq.nrGenerateMsg4MsgB] at hstep
  split_ifs at hstep with hskip
  · cases hstep
    exact ⟨rfl, .inl ⟨hlinked, rfl⟩⟩
  split at hstep
  · cases hstep
  rename_i pid h' hharq
  have hsame : h'.feedback = c.feedback ∧ h'.process = c.process ∧ h'.len = c.len ∧
      h'.handled = c.handled ∧ (c.available ≠ [] ∨ c.retrans ≠ []) := by
    rw [DlHarq.msg4Harq] at hharq
    split at hharq
    · exact take_same hharq
    · rename_i hretrans
      cases hharq
      exact ⟨rfl, rfl, rfl, rfl, .inr (by simp [hretrans])⟩
  obtain ⟨hfeedback, hprocess, hlen, hhandled, hsome⟩ := hsame
  have hpos : h'.len ≠ 0 := by
    intro hzero
    obtain ⟨havailable, -, hretrans⟩ := hlinked.created (hlen.symm.trans hzero)
    exact hsome.elim (fun h => h havailable) fun h => h hretrans
  have hlinked' : Linked h' waiting :=
    hlinked.congr hfeedback (fun tx _ => by rw [hprocess]) fun hzero => absurd hzero hpos
  split_ifs at hstep with hwaiting
  rw [Bool.not_eq_true] at hwaiting
  cases hstep
  have hawait (position : ℕ) := @Linked.await _ _ _ frame slot position hlinked' hpos hwaiting
  exact ⟨hhandled, .inr ⟨pid, (hawait 0).2.trans (by rw [hfeedback]),
    fun position => (hawait position).1⟩⟩

/-- The other events : nothing happens to the feedback list, it is emptied, or a transmission is
added. -/
theorem Linked.event {c c' : DlHarq} {event : DlHarqEvent} (hlinked : Linked c.toHarqLists waiting)
    (hstep : c.step harqRoundMax event.wrap = .ok c')
    (hnone : event.uci = none ∨ event.hasPayload = true ∧ c.ra ≠ .connected) :
    c'.handled = c.handled ∧
      (Linked c'.toHarqLists waiting ∧ c'.feedback = c.feedback ∨
        Linked c'.toHarqLists [] ∨
        ∃ pid, c'.feedback = c.feedback ++ [pid] ∧ ∀ position, Linked c'.toHarqLists
          (waiting ++ [⟨pid, event.occasion.1, event.occasion.2, position⟩])) := by
  cases event with
  | msg3 cfra =>
    simp only [DlHarqEvent.wrap, DlHarq.step] at hstep
    split_ifs at hstep <;> cases hstep
    · exact ⟨rfl, .inl ⟨hlinked, rfl⟩⟩
    · exact ⟨rfl, .inr (.inl hlinked.reset)⟩
    · exact ⟨rfl, .inl ⟨hlinked, rfl⟩⟩
  | generateMsg4 frame slot =>
    obtain ⟨hhandled, hcases⟩ := hlinked.msg4 hstep
    exact ⟨hhandled, hcases.imp_right .inr⟩
  | schedule pucch =>
    obtain ⟨hhandled, hsame | ⟨frame, slot, pid, rfl, hfeedback, hsent⟩⟩ := hlinked.schedule hstep
    · exact ⟨hhandled, .inl hsame⟩
    · exact ⟨hhandled, .inr (.inr ⟨pid, hfeedback, hsent⟩)⟩
  | uci01 frame slot harqValues harqConfidenceLevel nrofHARQ =>
    obtain hnone | hpayload := hnone
    · cases hnone
    · cases hpayload.1
  | uci234 frame slot harqPayload harqBitLen harqCrc =>
    have hra : c.ra ≠ .connected := hnone.elim (fun h => by cases h) fun h => h.2
    simp only [DlHarqEvent.wrap, DlHarq.step] at hstep
    rw [if_pos hra] at hstep
    cases hstep
    exact ⟨rfl, .inl ⟨hlinked, rfl⟩⟩
  | reset =>
    simp only [DlHarqEvent.wrap, DlHarq.step] at hstep
    split_ifs at hstep <;> cases hstep
    · exact ⟨rfl, .inr (.inl hlinked.reset)⟩
    · exact ⟨rfl, .inl ⟨hlinked, rfl⟩⟩
  | create nrofHARQ =>
    simp only [DlHarqEvent.wrap, DlHarq.step] at hstep
    obtain ⟨h, hcreate⟩ | hcreate := c.toHarqLists.create_cases nrofHARQ <;>
      rw [hcreate] at hstep <;> cases hstep
    obtain ⟨hlinked', hhandled⟩ := hlinked.create hcreate
    exact ⟨hhandled, .inl ⟨hlinked', hlinked'.feedback.trans hlinked.feedback.symm⟩⟩

end Loop

end NrStack
