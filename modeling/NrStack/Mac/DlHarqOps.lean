import NrStack.Mac.DlHarq

/-!
# What the downlink operations keep

`handle_dl_harq`, `find_harq`, the loop over the HARQ bits and the transmissions keep the lists as
they should be. While a UE is in random access at most its Msg4 is under way (`DlHarq.RaAlone`).
-/

namespace NrStack

namespace HarqLists

variable {h h' : HarqLists} {harqRoundMax pid frame slot : ℕ} {success : Bool}

/-- The head of the feedback list is finished, or is to be sent again. -/
theorem Inv.handleDlHarq {feedback : List ℕ} (hinv : h.Inv harqRoundMax [])
    (hfeedback : h.feedback = pid :: feedback) (hh' : h' = h.handleDlHarq harqRoundMax pid success) :
    h'.Inv harqRoundMax [] ∧ h'.feedback = feedback ∧
      ((h'.process pid).round = 0 ∧ h'.retrans = h.retrans ∨
        (h'.process pid).round ≠ 0 ∧ h'.retrans = h.retrans ++ [pid]) := by
  have hsent := hinv.feedback pid (hfeedback ▸ List.mem_cons_self)
  have htail : h.feedback.tail = feedback := by rw [hfeedback, List.tail_cons]
  set h₁ := { h with
    feedback := h.feedback.tail
    handled := h.handled ++ [(pid, success)] }.answered pid with hh₁
  have hprocess : h₁.process pid = { h.process pid with isWaiting := false, feedbackSlot := 65535 } :=
    Function.update_self ..
  have hinv₁ : h₁.Inv harqRoundMax [pid] :=
    (htail ▸ hinv.popFeedback hfeedback : _).write fun harq =>
      { harq with isWaiting := false, feedbackSlot := 65535 }
  have hnot := hinv₁.notMem
  simp only [ids, List.mem_append, not_or] at hnot
  have hfinish : (h₁.finish pid).Inv harqRoundMax [] ∧ (h₁.finish pid).feedback = feedback ∧
      ((h₁.finish pid).process pid).round = 0 ∧ (h₁.finish pid).retrans = h.retrans :=
    ⟨hinv₁.finish (by rw [hprocess]), htail, by simp [HarqLists.finish], rfl⟩
  have hdef : h.handleDlHarq harqRoundMax pid success =
      if success then h₁.finish pid
      else if harqRoundMax - 1 ≤ (h₁.process pid).round then h₁.finish pid
      else h₁.nextRound pid := rfl
  rw [hdef] at hh'
  split_ifs at hh' with hsuccess hlast
  · subst hh'
    exact ⟨hfinish.1, hfinish.2.1, .inl hfinish.2.2⟩
  · subst hh'
    exact ⟨hfinish.1, hfinish.2.1, .inl hfinish.2.2⟩
  · subst hh'
    exact ⟨hinv₁.nextRound (by rw [hprocess]) (by omega), htail,
      .inr ⟨by simp [HarqLists.nextRound], addTailNrList_of_notMem hnot.2⟩⟩

/-- What was lost is gone from the head of the feedback list. -/
theorem skipPast_inv : ∀ {feedback : List ℕ} {h : HarqLists}, h.Inv harqRoundMax [] →
    h.feedback = feedback → (skipPast harqRoundMax frame slot feedback h).Inv harqRoundMax []
  | [], _, hinv, _ => hinv
  | pid :: feedback, h, hinv, hfeedback => by
    rw [skipPast]
    split_ifs with hpast
    · obtain ⟨hinv', hfeedback', -⟩ := hinv.handleDlHarq hfeedback rfl
      exact skipPast_inv hinv' hfeedback'
    · exact hinv

theorem findHarq_inv {found : Option ℕ} (hinv : h.Inv harqRoundMax [])
    (hfind : h.findHarq harqRoundMax frame slot = (h', found)) :
    h' = skipPast harqRoundMax frame slot h.feedback h ∧ h'.Inv harqRoundMax [] ∧
      ∀ pid, found = some pid → ∃ feedback, h'.feedback = pid :: feedback := by
  have hinv' := @skipPast_inv _ frame slot _ _ hinv rfl
  rw [findHarq] at hfind
  set h₁ := skipPast harqRoundMax frame slot h.feedback h
  cases hfeedback : h₁.feedback with
  | nil =>
    simp only [hfeedback, Prod.mk.injEq] at hfind
    obtain ⟨rfl, rfl⟩ := hfind
    exact ⟨rfl, hinv', fun pid h => by cases h⟩
  | cons head feedback =>
    simp only [hfeedback] at hfind
    split_ifs at hfind <;> simp only [Prod.mk.injEq] at hfind <;> obtain ⟨rfl, rfl⟩ := hfind
    · exact ⟨rfl, hinv', fun pid h => by cases h⟩
    · exact ⟨rfl, hinv', fun pid h => ⟨feedback, by cases h; exact hfeedback⟩⟩

end HarqLists

namespace DlHarq

variable {c c' : DlHarq} {harqRoundMax nrofHARQ frame slot : ℕ}

/-- During random access nothing but the Msg4 is under way. -/
def RaAlone (c : DlHarq) : Prop :=
  c.ra ≠ .connected →
    (c.feedback ++ c.retrans = [] ∨ c.feedback ++ c.retrans = [c.raHarqPid]) ∧
      (c.ra ≠ .waitMsg4Ack → c.feedback = [])

structure Valid (harqRoundMax : ℕ) (c : DlHarq) : Prop where
  lists : c.Inv harqRoundMax []
  ra : c.RaAlone

theorem Valid.of_connected (hinv : c.Inv harqRoundMax []) (hra : c.ra = .connected) :
    c.Valid harqRoundMax :=
  ⟨hinv, fun h => absurd hra h⟩

/-- What `find_harq` leaves of a random access, and what it finds. -/
theorem findHarq_ra {h' : HarqLists} {found : Option ℕ} (hvalid : c.Valid harqRoundMax)
    (hra : c.ra ≠ .connected)
    (hfind : c.toHarqLists.findHarq harqRoundMax frame slot = (h', found)) :
    { c with toHarqLists := h' }.Valid harqRoundMax ∧
      ∀ pid, found = some pid →
        pid = c.raHarqPid ∧ h'.feedback = [pid] ∧ h'.retrans = [] ∧ c.ra = .waitMsg4Ack := by
  obtain ⟨hh', hinv, hfound⟩ := HarqLists.findHarq_inv hvalid.lists hfind
  obtain ⟨halone, hwait⟩ := hvalid.ra hra
  cases hfeedback : c.feedback with
  | nil =>
    rw [hfeedback, HarqLists.skipPast] at hh'
    subst hh'
    refine ⟨hvalid, fun pid hpid => ?_⟩
    obtain ⟨feedback, hcons⟩ := hfound pid hpid
    rw [hfeedback] at hcons
    cases hcons
  | cons head feedback =>
    have hone : head = c.raHarqPid ∧ feedback = [] ∧ c.retrans = [] := by
      obtain hnil | hone := halone
      · rw [hfeedback] at hnil
        cases hnil
      · rw [hfeedback, List.cons_append, List.cons.injEq, List.append_eq_nil_iff] at hone
        exact hone
    obtain ⟨rfl, rfl, hretrans⟩ := hone
    have hstate : c.ra = .waitMsg4Ack := by
      by_contra hne
      rw [hwait hne] at hfeedback
      cases hfeedback
    rw [hfeedback, HarqLists.skipPast, HarqLists.skipPast] at hh'
    split_ifs at hh' with hpast
    · obtain ⟨-, hnil, hcases⟩ := hvalid.lists.handleDlHarq hfeedback hh'
      refine ⟨⟨hinv, fun _ => ⟨?_, fun h => absurd hstate h⟩⟩, fun pid hpid => ?_⟩
      · show h'.feedback ++ h'.retrans = [] ∨ h'.feedback ++ h'.retrans = [c.raHarqPid]
        obtain ⟨-, h⟩ | ⟨-, h⟩ := hcases <;> simp [hnil, h, hretrans]
      · obtain ⟨feedback, hcons⟩ := hfound pid hpid
        rw [hnil] at hcons
        cases hcons
    · subst hh'
      refine ⟨hvalid, fun pid hpid => ?_⟩
      obtain ⟨feedback, hcons⟩ := hfound pid hpid
      rw [hfeedback] at hcons
      cases hcons
      exact ⟨rfl, hfeedback, hretrans, hstate⟩

/-- Without a process that waits for feedback the bits are ignored. -/
theorem harqBits_of_nil {isRa : Bool} {bits : List Bool} (hfeedback : c.feedback = []) :
    harqBits harqRoundMax nrofHARQ frame slot isRa bits c = .ok c := by
  cases bits with
  | nil => rfl
  | cons success bits =>
    have hfind : c.toHarqLists.findHarq harqRoundMax frame slot = (c.toHarqLists, none) := by
      rw [HarqLists.findHarq, hfeedback, HarqLists.skipPast]
      simp only [hfeedback]
    rw [harqBits, hfind]

/-- The bits of a connected UE. -/
theorem harqBits_connected : ∀ {bits : List Bool} {c : DlHarq}, c.Inv harqRoundMax [] →
    c.ra = .connected →
    ∃ c', harqBits harqRoundMax nrofHARQ frame slot false bits c = .ok c' ∧
      c'.Inv harqRoundMax [] ∧ c'.ra = .connected
  | [], c, hinv, hra => ⟨c, rfl, hinv, hra⟩
  | success :: bits, c, hinv, hra => by
    rcases hfind : c.toHarqLists.findHarq harqRoundMax frame slot with ⟨h', found⟩
    obtain ⟨-, hinv', hfound⟩ := HarqLists.findHarq_inv hinv hfind
    rw [harqBits, hfind]
    cases found with
    | none => exact ⟨_, rfl, hinv', hra⟩
    | some pid =>
      obtain ⟨feedback, hfeedback⟩ := hfound pid rfl
      have hsent := hinv'.feedback pid (hfeedback ▸ List.mem_cons_self)
      obtain ⟨hnext, -⟩ := @HarqLists.Inv.handleDlHarq _ _ _ _ success _ hinv' hfeedback rfl
      simp only [hsent.1, Bool.true_eq_false, if_false, Bool.false_eq_true]
      exact @harqBits_connected bits { c with
        toHarqLists := h'.handleDlHarq harqRoundMax pid success } hnext hra

/-- The answer to a Msg4. -/
theorem nrCheckMsg4MsgBAck_spec (hinv : c.Inv harqRoundMax []) (success : Bool)
    (hra : c.ra ≠ .connected) (hfeedback : c.feedback = [])
    (hcases : (c.process c.raHarqPid).round = 0 ∧ c.retrans = [] ∨
      (c.process c.raHarqPid).round ≠ 0 ∧ c.retrans = [c.raHarqPid]) :
    (∃ c', c.nrCheckMsg4MsgBAck nrofHARQ success = .ok c' ∧ c'.Valid harqRoundMax ∧
      c'.feedback = []) ∨
      c.nrCheckMsg4MsgBAck nrofHARQ success = .error .smallerList := by
  rw [nrCheckMsg4MsgBAck, if_neg hra]
  obtain ⟨hround, hretrans⟩ | ⟨hround, hretrans⟩ := hcases
  · rw [if_pos hround]
    cases success with
    | false =>
      simp only [Bool.false_eq_true, if_false, clearRetrans, hretrans, if_true, Except.map]
      exact .inl ⟨c, rfl, ⟨hinv, fun _ => ⟨.inl (by simp [hfeedback, hretrans]),
        fun _ => hfeedback⟩⟩, hfeedback⟩
    | true =>
      simp only [if_true]
      obtain ⟨h, hcreate⟩ | hcreate := c.toHarqLists.create_cases nrofHARQ
      · obtain ⟨hinv', -, hfeedback', hretrans'⟩ := hinv.create hcreate
        rw [hcreate]
        simp only [clearRetrans, hretrans', hretrans, if_true, Except.map]
        exact .inl ⟨_, rfl, .of_connected hinv' rfl, hfeedback'.trans hfeedback⟩
      · rw [hcreate]
        exact .inr rfl
  · rw [if_neg hround]
    exact .inl ⟨_, rfl, ⟨hinv, fun _ => ⟨.inr (by simp [hfeedback, hretrans]),
      fun _ => hfeedback⟩⟩, hfeedback⟩

/-- The bits of a UE in random access. -/
theorem harqBits_ra {bits : List Bool} (hvalid : c.Valid harqRoundMax) (hra : c.ra ≠ .connected) :
    (∃ c', harqBits harqRoundMax nrofHARQ frame slot true bits c = .ok c' ∧
      c'.Valid harqRoundMax) ∨
      harqBits harqRoundMax nrofHARQ frame slot true bits c = .error .smallerList := by
  cases bits with
  | nil => exact .inl ⟨c, rfl, hvalid⟩
  | cons success bits =>
    rcases hfind : c.toHarqLists.findHarq harqRoundMax frame slot with ⟨h', found⟩
    obtain ⟨hvalid', hfound⟩ := findHarq_ra hvalid hra hfind
    rw [harqBits, hfind]
    cases found with
    | none => exact .inl ⟨_, rfl, hvalid'⟩
    | some pid =>
      obtain ⟨hpid, hfeedback, hretrans, hstate⟩ := hfound pid rfl
      have hsent := hvalid'.lists.feedback pid (hfeedback ▸ List.mem_cons_self)
      obtain ⟨hinv, hnil, hcases⟩ :=
        @HarqLists.Inv.handleDlHarq _ _ _ _ success _ hvalid'.lists hfeedback rfl
      simp only [show (h'.process pid).isWaiting = true from hsent.1, Bool.true_eq_false, if_false,
        if_true]
      rw [hpid] at hinv hnil hcases ⊢
      obtain ⟨c', hcheck, hvalid'', hfeedback'⟩ | hcheck :=
        @nrCheckMsg4MsgBAck_spec { c with
          toHarqLists := h'.handleDlHarq harqRoundMax c.raHarqPid success } _ nrofHARQ hinv
          success hra hnil (by simpa only [hretrans, List.nil_append] using hcases)
      · rw [hcheck]
        exact .inl ⟨c', harqBits_of_nil hfeedback', hvalid''⟩
      · rw [hcheck]
        exact .inr rfl

/-- `nr_schedule_ue_spec` takes a process that is not waiting. -/
theorem take_spec (hinv : c.Inv harqRoundMax []) (hsome : ¬(c.retrans = [] ∧ c.available = [])) :
    ∃ pid h', c.toHarqLists.take (c.retrans.head?.or c.available.head?) = .ok (pid, h') ∧
      h'.Inv harqRoundMax [pid] ∧ h'.process = c.process ∧
      (HarqLists.IsFree (c.process pid) ∨ HarqLists.IsLost harqRoundMax (c.process pid)) := by
  have hmem (pid : ℕ) (hpid : c.retrans.head?.or c.available.head? = some pid) :
      pid ∈ c.available ∨ pid ∈ c.retrans := by
    obtain hpid | ⟨-, hpid⟩ := Option.or_eq_some_iff.1 hpid
    · exact .inr (List.mem_of_head? hpid)
    · exact .inl (List.mem_of_head? hpid)
  have hnew (hnone : c.retrans.head?.or c.available.head? = none) : c.available ≠ [] := by
    obtain ⟨hretrans, havailable⟩ := Option.or_eq_none_iff.1 hnone
    exact absurd ⟨List.head?_eq_none_iff.1 hretrans, List.head?_eq_none_iff.1 havailable⟩ hsome
  obtain ⟨pid, h', htake, hinv', hprocess, -, hcases⟩ := hinv.take hnew hmem
  exact ⟨pid, h', htake, hinv', hprocess, hcases.imp (fun h => h.1) fun h => h.1⟩

theorem schedule_inv {pucch : Option (ℕ × ℕ)} (hinv : c.Inv harqRoundMax [])
    (hra : c.ra = .connected) (hsome : ¬(c.retrans = [] ∧ c.available = [])) :
    (1 ≤ harqRoundMax → ∃ h', c.nrScheduleUeSpec harqRoundMax pucch =
      .ok { c with toHarqLists := h' } ∧ h'.Inv harqRoundMax []) ∧
      (harqRoundMax = 0 → c.nrScheduleUeSpec harqRoundMax pucch = .error .roundBound) := by
  obtain ⟨pid, h, htake, hh, hprocess, hcases⟩ := take_spec hinv hsome
  have hwaiting : (h.process pid).isWaiting = false := by
    rw [hprocess]
    exact hcases.elim (fun hfree => hfree.1) fun hlost => hlost.1
  have hfinish : ((h.finish pid).process pid).round = 0 := by simp [HarqLists.finish]
  have hawait (frame slot : ℕ) : ((h.await pid frame slot).process pid).round =
      (h.process pid).round := by
    simp [HarqLists.await]
  rw [nrScheduleUeSpec, if_neg (by rw [not_or, not_not]; exact ⟨hra, hsome⟩), htake]
  simp only [hwaiting, Bool.false_eq_true, if_false]
  constructor
  · intro hmax
    have hround : (h.process pid).round < harqRoundMax := by
      rw [hprocess]
      obtain hfree | hlost := hcases
      · rw [hfree.2]
        exact hmax
      · exact hlost.2.2
    cases pucch with
    | none =>
      simp only [hfinish]
      rw [if_neg (by omega)]
      exact ⟨_, rfl, hh.finish hwaiting⟩
    | some pucch =>
      simp only [hawait]
      rw [if_neg (by omega)]
      exact ⟨_, rfl, hh.await hround⟩
  · rintro rfl
    exact if_pos (Nat.zero_le _)

/-- A new Msg4. -/
theorem msg4_inv (hvalid : c.Valid harqRoundMax) (hra : c.ra = .msg4) (hretrans : c.retrans = [])
    (havailable : c.available ≠ []) :
    ∃ c', c.nrGenerateMsg4MsgB frame slot = .ok c' ∧ c'.raHarqPid < c'.len ∧
      c'.raHarqPid ∈ c'.feedback ∧ (c'.process c'.raHarqPid).round = 0 ∧
      (1 ≤ harqRoundMax → c'.Valid harqRoundMax) := by
  obtain ⟨pid, h, htake, hh, hprocess, hfeedback, hcases⟩ :=
    @HarqLists.Inv.take _ _ none hvalid.lists (fun _ => havailable) fun _ h => by cases h
  have hfree : HarqLists.IsFree (c.process pid) ∧ h.retrans = c.retrans := by
    obtain hfree | ⟨-, hperm⟩ := hcases
    · exact hfree
    · rw [hretrans] at hperm
      exact absurd hperm.length_eq (by simp)
  have hnil : c.feedback = [] := (hvalid.ra (by rw [hra]; decide)).2 (by rw [hra]; decide)
  have hlist : (h.await pid frame slot).feedback = [pid] := by
    have hempty : h.feedback = [] := hfeedback.trans hnil
    show addTailNrList h.feedback pid = [pid]
    rw [hempty]
    rfl
  refine ⟨{ toHarqLists := h.await pid frame slot, ra := .waitMsg4Ack, raHarqPid := pid }, ?_,
    hh.lt, ?_, ?_, fun hmax => ⟨hh.await ?_, fun _ => ⟨.inr ?_, fun hne => absurd rfl hne⟩⟩⟩
  · rw [nrGenerateMsg4MsgB, if_neg (by rw [hra]; decide), msg4Harq, hretrans]
    simp only [htake, show (h.process pid).isWaiting = false by rw [hprocess]; exact hfree.1.1,
      Bool.false_eq_true, if_false]
  · show pid ∈ (h.await pid frame slot).feedback
    rw [hlist]
    exact List.mem_singleton_self pid
  · show ((h.await pid frame slot).process pid).round = 0
    simp [HarqLists.await, hprocess, hfree.1.2]
  · rw [hprocess, hfree.1.2]
    exact hmax
  · show (h.await pid frame slot).feedback ++ h.retrans = [pid]
    rw [hlist, hfree.2, hretrans]
    rfl

end DlHarq

end NrStack
