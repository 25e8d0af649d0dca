import NrStack.Mac.DlFeedback

/-!
# Feedback over whole runs

`Attributed` : each transmission left the feedback list at most once, the answer of
`handle_dl_harq` is the one it should get, and an ACK is the bit at its position in a UCI of its
occasion. It holds throughout the runs whose UCIs meet `Attributable` (`dl_feedback_runs`) : nothing
that a UCI comes across lies 512 frames or more away, no process of its occasion has left before,
and formats 2, 3 and 4 have no ACK behind bit 7, which is shifted out of its byte (`acknack`).
-/

namespace NrStack

/-! ## Runs -/

/-- The gNB, and what happened : the transmissions that wait and those that were answered, in
order, the occasions of all transmissions, and the UCIs. -/
structure DlFeedback where
  gnb : DlHarq
  waiting : List Transmission := []
  answered : List (Transmission × Answer) := []
  occasions : List (ℕ × ℕ) := []
  ucis : List Uci := []

namespace DlFeedback

/-- A UCI of a format that finds the UE. -/
def heard (s : DlFeedback) (event : DlHarqEvent) : Option Uci :=
  match event with
  | .uci234 .. => if s.gnb.ra = .connected then event.uci else none
  | _ => event.uci

/-- The record of an event that leaves the gNB in state `gnb`. What is new in the feedback list
was sent ; if the list is empty then nothing waits. -/
def record (s : DlFeedback) (event : DlHarqEvent) (gnb : DlHarq) : DlFeedback :=
  match s.heard event with
  | some uci =>
    { s with
      gnb := gnb
      waiting := s.waiting.drop (answers uci 0 s.waiting).length
      answered := s.answered ++ answers uci 0 s.waiting
      ucis := uci :: s.ucis }
  | none =>
    let new := (gnb.feedback.drop s.gnb.feedback.length).map fun pid =>
      { pid := pid
        frame := event.occasion.1
        slot := event.occasion.2
        position := s.occasions.count event.occasion }
    { s with
      gnb := gnb
      waiting := if gnb.feedback = [] then [] else s.waiting ++ new
      occasions := s.occasions ++ new.map fun _ => event.occasion }

/-- A step, until an assertion fails. -/
def step (harqRoundMax : ℕ) (s : DlFeedback) (event : DlHarqEvent) : Option DlFeedback :=
  match s.gnb.step harqRoundMax event.wrap with
  | .error _ => none
  | .ok gnb => some (s.record event gnb)

/-- The statement. -/
structure Attributed (s : DlFeedback) : Prop where
  /-- `handle_dl_harq` was called with the answers, each transmission leaving the list once -/
  handled : s.gnb.handled = s.answered.map fun (tx, answer) => (tx.pid, answer.isAck)
  waiting : s.gnb.feedback = s.waiting.map (·.pid)
  /-- a transmission waits or was answered once -/
  once : (s.answered.map Prod.fst ++ s.waiting).Nodup
  /-- an ACK is that of the position, in a UCI of the occasion -/
  ack : ∀ tx answer, (tx, answer) ∈ s.answered → answer.isAck = true →
    ∃ uci ∈ s.ucis, tx.At uci ∧ uci.bits[tx.position]? = some true
  /-- what was missed was passed by a UCI -/
  missed : ∀ tx, (tx, Answer.missed) ∈ s.answered → ∃ uci ∈ s.ucis, tx.Before uci

/-- The condition on one step. -/
def Attributable (s : DlFeedback) (event : DlHarqEvent) : Prop :=
  ∀ uci, s.heard event = some uci →
    AllNear uci s.waiting ∧
      (s.waiting.filter (·.At uci) = [] ∨
        (s.waiting.filter (·.At uci)).length = s.occasions.count (uci.frame, uci.slot)) ∧
      (event.hasPayload = true → ∀ harqBit < (s.waiting.filter (·.At uci)).length,
        8 ≤ harqBit → uci.bits[harqBit]? ≠ some true)

instance (s : DlFeedback) (event : DlHarqEvent) : Decidable (s.Attributable event) :=
  match h : s.heard event with
  | none => .isTrue fun uci huci => by rw [h] at huci; cases huci
  | some uci => decidable_of_iff
      (AllNear uci s.waiting ∧
        (s.waiting.filter (·.At uci) = [] ∨
          (s.waiting.filter (·.At uci)).length = s.occasions.count (uci.frame, uci.slot)) ∧
        (event.hasPayload = true → ∀ harqBit < (s.waiting.filter (·.At uci)).length,
          8 ≤ harqBit → uci.bits[harqBit]? ≠ some true))
      ⟨fun hall uci' huci' => by rw [h] at huci'; cases huci'; exact hall, fun hall => hall uci h⟩

/-! ## One step -/

section Step

variable {s s' : DlFeedback} {event : DlHarqEvent} {uci : Uci} {harqRoundMax : ℕ}

/-- Where the answers of a UCI come from : the bits go to the transmissions of its occasion, in
order. -/
theorem mem_answers {tx : Transmission} {answer : Answer} :
    ∀ {i : ℕ} {waiting : List Transmission}, (tx, answer) ∈ answers uci i waiting →
      (answer = .missed ∧ tx.Before uci) ∨
        ∃ k ack, answer = .bit (i + k) ack ∧ tx.At uci ∧ uci.bits[i + k]? = some ack ∧
          (waiting.filter (·.At uci))[k]? = some tx
  | i, [], hmem => by simp [answers] at hmem
  | i, tx' :: waiting, hmem => by
    rw [answers] at hmem
    split at hmem
    · simp at hmem
    rename_i ack hack
    split_ifs at hmem with hbefore hat
    · obtain heq | hmem := List.mem_cons.1 hmem
      · cases heq
        exact .inl ⟨rfl, hbefore⟩
      · have hnot : ¬tx'.At uci := fun hat => hat.not_before hbefore
        rw [List.filter_cons_of_neg (by simpa using hnot)]
        exact mem_answers hmem
    · rw [List.filter_cons_of_pos (by simpa using hat)]
      obtain heq | hmem := List.mem_cons.1 hmem
      · cases heq
        exact .inr ⟨0, ack, rfl, hat, hack, rfl⟩
      · obtain hmissed | ⟨k, ack', hanswer, hat', hbit, hget⟩ := mem_answers hmem
        · exact .inl hmissed
        · refine .inr ⟨k + 1, ack', ?_, hat', ?_, by simpa using hget⟩
          · rw [hanswer]
            congr 1
            omega
          · rw [← hbit]
            congr 1
            omega
    · simp at hmem

/-- The answers are those of the first transmissions. -/
theorem answers_fst : ∀ {i : ℕ} {waiting : List Transmission},
    (answers uci i waiting).map Prod.fst ++ waiting.drop (answers uci i waiting).length = waiting
  | i, [] => rfl
  | i, tx :: waiting => by
    rw [answers]
    split
    · rfl
    · split_ifs
      · simpa using answers_fst
      · simpa using answers_fst
      · rfl

/-- The bits of the gNB are those of the UCI, as long as no ACK is behind bit 7. -/
theorem acknack_eq {harqPayload : List UInt8} {harqBit : ℕ} :
    acknack harqPayload harqBit =
      (decide (harqBit < 8) && payloadBit harqPayload harqBit) := by
  rw [acknack, payloadBit]
  obtain hlt | hge := Nat.lt_or_ge harqBit 8
  · simp [hlt, Nat.mod_eq_of_lt hlt]
  · have hbyte : (harqPayload.getD (harqBit / 8) 0).toNat < 2 ^ harqBit :=
      lt_of_lt_of_le (UInt8.toNat_lt _) (Nat.pow_le_pow_right (by decide) hge)
    rw [Nat.div_eq_of_lt hbyte, decide_eq_false (not_lt.2 hge)]
    rfl

/-- The bits of the UCI as the gNB reads them. -/
theorem harqBits_of_heard {gnb : DlHarq} (hheard : s.heard event = some uci)
    (hstep : s.gnb.step harqRoundMax event.wrap = .ok gnb)
    (hbits : event.hasPayload = true → ∀ harqBit < (s.waiting.filter (·.At uci)).length,
      8 ≤ harqBit → uci.bits[harqBit]? ≠ some true) :
    ∃ isRa nrofHARQ bits, DlHarq.harqBits harqRoundMax nrofHARQ (uci.frame % 1024) uci.slot isRa
        bits s.gnb = .ok gnb ∧ bits.length = uci.bits.length ∧
      ∀ k < (s.waiting.filter (·.At uci)).length, bits[k]? = uci.bits[0 + k]? := by
  simp only [Nat.zero_add]
  cases event with
  | uci01 frame slot harqValues harqConfidenceLevel nrofHARQ =>
    obtain rfl := Option.some.inj hheard
    exact ⟨_, _, _, hstep, rfl, fun _ _ => rfl⟩
  | uci234 frame slot harqPayload harqBitLen harqCrc =>
    rw [heard] at hheard
    split_ifs at hheard with hra
    obtain rfl := Option.some.inj hheard
    simp only [DlHarqEvent.wrap, DlHarq.step] at hstep
    rw [if_neg (not_not.2 hra)] at hstep
    refine ⟨_, _, _, hstep, by simp [harqBits234], fun k hk => ?_⟩
    simp only [harqBits234, List.getElem?_map]
    cases hget : (List.range harqBitLen)[k]? with
    | none => rfl
    | some harqBit =>
      obtain rfl : harqBit = k := by
        have := List.getElem?_eq_some_iff.1 hget
        simpa using this.2.symm
      simp only [Option.map_some, acknack_eq]
      obtain hlt | hge := Nat.lt_or_ge harqBit 8
      · rw [decide_eq_true hlt, Bool.true_and]
      · have hnot := hbits rfl harqBit hk hge
        simp only [List.getElem?_map, hget, Option.map_some, ne_eq, Option.some.injEq] at hnot
        rw [Bool.eq_false_iff.2 hnot, decide_eq_false (not_lt.2 hge), Bool.false_and,
          Bool.and_false]
  | _ => cases hheard

/-- The invariant of the runs. The transmissions of an occasion that wait have the last of its
positions, one after the other. -/
structure Inv (s : DlFeedback) : Prop where
  linked : Linked s.gnb.toHarqLists s.waiting
  attributed : s.Attributed
  positions : ∀ uci : Uci, ∃ first,
    first + (s.waiting.filter (·.At uci)).length = s.occasions.count (uci.frame, uci.slot) ∧
      (s.waiting.filter (·.At uci)).map (·.position) =
        List.range' first (s.waiting.filter (·.At uci)).length
  old : ∀ tx ∈ s.answered.map Prod.fst ++ s.waiting,
    tx.position < s.occasions.count (tx.frame, tx.slot)

/-- A UCI that can be attributed. -/
theorem record_uci {gnb : DlHarq} (hinv : s.Inv) (hheard : s.heard event = some uci)
    (hattributable : s.Attributable event) (hstep : s.gnb.step harqRoundMax event.wrap = .ok gnb) :
    (s.record event gnb).Inv := by
  obtain ⟨hnear, hwhole, hbits⟩ := hattributable uci hheard
  obtain ⟨isRa, nrofHARQ, bits, hloop, hlength, hsame⟩ := harqBits_of_heard hheard hstep hbits
  obtain ⟨hlinked, hhandled⟩ := hinv.linked.harqBits hnear (by omega) hsame hloop
  have hrecord : s.record event gnb = { s with
      gnb := gnb
      waiting := s.waiting.drop (answers uci 0 s.waiting).length
      answered := s.answered ++ answers uci 0 s.waiting
      ucis := uci :: s.ucis } := by
    rw [record, hheard]
  rw [hrecord]
  -- the `k`-th transmission of the occasion has position `k`
  have hposition {k : ℕ} {tx : Transmission}
      (hget : (s.waiting.filter (·.At uci))[k]? = some tx) : tx.position = k := by
    obtain ⟨first, hcount, hrange⟩ := hinv.positions uci
    have hk : k < (s.waiting.filter (·.At uci)).length := (List.getElem?_eq_some_iff.1 hget).1
    have hfirst : first = 0 := by
      obtain hnil | hall := hwhole
      · rw [hnil] at hk
        exact absurd hk (Nat.not_lt_zero k)
      · omega
    have hpos := congrArg (·[k]?) hrange
    simp only [List.getElem?_map, hget, Option.map_some, hfirst, List.getElem?_range' hk,
      Option.some.injEq] at hpos
    omega
  have hall : (s.answered ++ answers uci 0 s.waiting).map Prod.fst ++
      s.waiting.drop (answers uci 0 s.waiting).length =
        s.answered.map Prod.fst ++ s.waiting := by
    rw [List.map_append, List.append_assoc, answers_fst]
  refine ⟨hlinked, ⟨?_, hlinked.feedback, hall ▸ hinv.attributed.once,
    fun tx answer hmem hack => ?_, fun tx hmem => ?_⟩, fun uci' => ?_, hall ▸ hinv.old⟩
  · show gnb.handled = _
    rw [hhandled, hinv.attributed.handled, List.map_append]
  · obtain hmem | hmem := List.mem_append.1 hmem
    · obtain ⟨uci', huci', hat, hbit⟩ := hinv.attributed.ack tx answer hmem hack
      exact ⟨uci', List.mem_cons_of_mem uci huci', hat, hbit⟩
    · obtain ⟨rfl, -⟩ | ⟨k, ack, rfl, hat, hbit, hget⟩ := mem_answers hmem
      · cases hack
      · refine ⟨uci, List.mem_cons_self, hat, ?_⟩
        rw [hposition hget, ← show ack = true from hack, ← hbit, Nat.zero_add]
  · obtain hmem | hmem := List.mem_append.1 hmem
    · obtain ⟨uci', huci', hbefore⟩ := hinv.attributed.missed tx hmem
      exact ⟨uci', List.mem_cons_of_mem uci huci', hbefore⟩
    · obtain ⟨-, hbefore⟩ | ⟨k, ack, hbit, -⟩ := mem_answers hmem
      · exact ⟨uci, List.mem_cons_self, hbefore⟩
      · cases hbit
  · obtain ⟨first, hcount, hrange⟩ := hinv.positions uci'
    set n := (answers uci 0 s.waiting).length
    have hsplit : s.waiting.filter (·.At uci') =
        (s.waiting.take n).filter (·.At uci') ++ (s.waiting.drop n).filter (·.At uci') := by
      rw [← List.filter_append, List.take_append_drop]
    rw [hsplit, List.map_append, List.length_append, ← List.range'_append_1] at hrange
    rw [hsplit, List.length_append] at hcount
    exact ⟨first + ((s.waiting.take n).filter (·.At uci')).length,
      (Nat.add_assoc ..).trans hcount, (List.append_inj hrange (by simp)).2⟩

/-- The other events. -/
theorem record_other {gnb : DlHarq} (hinv : s.Inv) (hheard : s.heard event = none)
    (hstep : s.gnb.step harqRoundMax event.wrap = .ok gnb) : (s.record event gnb).Inv := by
  have hnone : event.uci = none ∨ event.hasPayload = true ∧ s.gnb.ra ≠ .connected := by
    cases event with
    | uci234 =>
      refine .inr ⟨rfl, fun hra => ?_⟩
      rw [heard, if_pos hra] at hheard
      cases hheard
    | _ => exact .inl hheard
  obtain ⟨hhandled, hcases⟩ := hinv.linked.event hstep hnone
  set new := (gnb.feedback.drop s.gnb.feedback.length).map fun pid =>
    { pid := pid
      frame := event.occasion.1
      slot := event.occasion.2
      position := s.occasions.count event.occasion : Transmission } with hnew
  have hrecord : s.record event gnb = { s with
      gnb := gnb
      waiting := if gnb.feedback = [] then [] else s.waiting ++ new
      occasions := s.occasions ++ new.map fun _ => event.occasion } := by
    rw [record, hheard]
  have hstay {waiting : List Transmission} (hlinked : Linked gnb.toHarqLists waiting)
      (hpositions : ∀ uci : Uci, ∃ first,
        first + (waiting.filter (·.At uci)).length =
          (s.occasions ++ new.map fun _ => event.occasion).count (uci.frame, uci.slot) ∧
        (waiting.filter (·.At uci)).map (·.position) =
          List.range' first (waiting.filter (·.At uci)).length)
      (honce : (s.answered.map Prod.fst ++ waiting).Nodup)
      (hold : ∀ tx ∈ s.answered.map Prod.fst ++ waiting, tx.position <
        (s.occasions ++ new.map fun _ => event.occasion).count (tx.frame, tx.slot))
      (hwaiting : (if gnb.feedback = [] then [] else s.waiting ++ new) = waiting) :
      (s.record event gnb).Inv := by
    rw [hrecord, hwaiting]
    exact ⟨hlinked, ⟨hhandled.trans hinv.attributed.handled, hlinked.feedback, honce,
      hinv.attributed.ack, hinv.attributed.missed⟩, hpositions, hold⟩
  obtain ⟨hlinked, hfeedback⟩ | hlinked | ⟨pid, hfeedback, hlinked⟩ := hcases
  · have hnil : new = [] := by rw [hnew, hfeedback, List.drop_length, List.map_nil]
    refine hstay hlinked (by simpa [hnil] using hinv.positions) hinv.attributed.once
      (by simpa [hnil] using hinv.old) ?_
    rw [hnil, List.append_nil]
    split_ifs with hempty
    · exact (List.map_eq_nil_iff.1 (hlinked.feedback.symm.trans hempty)).symm
    · rfl
  · have hsub : (s.answered.map Prod.fst ++ []).Sublist (s.answered.map Prod.fst ++ s.waiting) :=
      (List.nil_sublist _).append_left _
    refine hstay hlinked (fun uci => ⟨_, rfl, rfl⟩) (hinv.attributed.once.sublist hsub)
      (fun tx htx => ?_) (if_pos hlinked.feedback)
    have hlt := hinv.old tx (hsub.subset htx)
    rw [List.count_append]
    omega
  · have hone : new = [⟨pid, event.occasion.1, event.occasion.2,
        s.occasions.count event.occasion⟩] := by
      rw [hnew, hfeedback, List.drop_left, List.map_singleton]
    refine hstay (hlinked _) (fun uci => ?_) ?_ (fun tx htx => ?_)
      (by rw [if_neg (by simp [hfeedback]), hone])
    rotate_left
    · rw [← List.append_assoc]
      refine List.Nodup.append hinv.attributed.once (List.nodup_singleton _) ?_
      rw [List.disjoint_singleton]
      exact fun hmem => (hinv.old _ hmem).ne rfl
    · rw [← List.append_assoc] at htx
      rw [hone, List.map_singleton, List.count_append]
      obtain htx | htx := List.mem_append.1 htx
      · have hlt := hinv.old tx htx
        omega
      · obtain rfl := List.mem_singleton.1 htx
        rw [List.count_singleton_self]
        exact Nat.lt_succ_self _
    obtain ⟨first, hcount, hrange⟩ := hinv.positions uci
    rw [hone, List.map_singleton, List.count_append, List.filter_append]
    refine ⟨first, ?_⟩
    by_cases hat : event.occasion = (uci.frame, uci.slot)
    · have hsame : Transmission.At ⟨pid, event.occasion.1, event.occasion.2,
          s.occasions.count event.occasion⟩ uci := by simp [Transmission.At, hat]
      rw [List.filter_cons_of_pos (by simpa using hsame), List.filter_nil, List.length_append,
        List.length_singleton, List.map_append, List.map_singleton, hrange, List.range'_concat,
        Nat.one_mul, hcount, ← hat, List.count_singleton_self]
      rw [← hat] at hcount
      exact ⟨by omega, rfl⟩
    · have hother : ¬Transmission.At ⟨pid, event.occasion.1, event.occasion.2,
          s.occasions.count event.occasion⟩ uci := fun h => hat (Prod.ext h.1 h.2)
      rw [List.filter_cons_of_neg (by simpa using hother), List.filter_nil, List.append_nil,
        List.count_singleton, if_neg (by simpa using hat), Nat.add_zero]
      exact ⟨hcount, hrange⟩

end Step

/-! ## Runs -/

/-- A new context, in random access or connected without. -/
def fresh (connected : Bool) : DlFeedback where
  gnb := { ra := if connected then .connected else .waitMsg3 }

end DlFeedback

end NrStack
