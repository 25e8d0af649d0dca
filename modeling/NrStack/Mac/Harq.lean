import Mathlib.Data.List.TakeWhile
import Mathlib.Data.List.Nodup
import NrStack.Library.Run

/-!
# HARQ processes of the gNB

Per UE and direction the gNB keeps the HARQ processes in three lists : the ones it may use
(`available`), the ones that wait for the result of a transmission (`feedback`) and the ones that
wait for their retransmission (`retrans`). An `NR_list_t` is an array of links with a head and a
tail ; here it is the list of ids read off the links. `remove_front_nr_list` is only called with a
head that is there, so it is the tail of the list.

`HarqLists.Inv` : each process is in one list, once, and its `is_waiting` and `round` are those of
that list. The operations take a process out of its list and put it into another one, so the
invariant names the processes that are in between.
-/

namespace NrStack

/-- What the HARQ code asserts. -/
inductive HarqAbort
  /-- `remove_nr_list` of an id that is not in the list -/
  | idNotFound
  /-- `is_waiting` is not what it should be -/
  | waiting
  /-- the round is not below `harq_round_max` -/
  | roundBound
  /-- no process is available -/
  | noFreeProcess
  /-- the lists are to become shorter -/
  | smallerList
  /-- the random access of a UE that has none is read -/
  | noRa
  deriving DecidableEq, Repr

/-! ## `NR_list_t` -/

/-- `add_tail_nr_list` : the tail is linked to the id, and nothing to it. If the list has the id
already, it ends there. -/
def addTailNrList (list : List ℕ) (id : ℕ) : List ℕ :=
  list.takeWhile (· ≠ id) ++ [id]

/-- `remove_nr_list` -/
def removeNrList (list : List ℕ) (id : ℕ) : Except HarqAbort (List ℕ) :=
  if id ∈ list then .ok (list.erase id) else .error .idNotFound

theorem addTailNrList_of_notMem {list : List ℕ} {id : ℕ} (h : id ∉ list) :
    addTailNrList list id = list ++ [id] := by
  rw [addTailNrList, List.takeWhile_eq_self_iff.2]
  intro x hx
  simpa using fun hxid : x = id => h (hxid ▸ hx)

theorem foldl_addTailNrList : ∀ {ids list : List ℕ}, (list ++ ids).Nodup →
    ids.foldl addTailNrList list = list ++ ids
  | [], list, _ => (List.append_nil list).symm
  | id :: ids, list, h => by
    have hid : id ∉ list := fun hmem => (List.disjoint_of_nodup_append h) hmem List.mem_cons_self
    rw [List.foldl_cons, addTailNrList_of_notMem hid, foldl_addTailNrList (by simpa using h),
      List.append_assoc, List.singleton_append]

/-! ## The lists of one direction -/

/-- `NR_UE_harq_t` and `NR_UE_ul_harq_t` : what decides where a process goes. -/
structure HarqProcess where
  isWaiting : Bool := false
  ndi : Bool := false
  round : ℕ := 0
  feedbackFrame : ℕ := 0
  feedbackSlot : ℕ := 0
  tbSize : ℕ := 0

/-- The three lists, of one length, and the array of processes. `handled` records which processes
were answered, and how. -/
structure HarqLists where
  available : List ℕ := []
  feedback : List ℕ := []
  retrans : List ℕ := []
  len : ℕ := 0
  process : ℕ → HarqProcess := fun _ => {}
  handled : List (ℕ × Bool) := []

/-- What the configuration fixes : whether HARQ is disabled, and the number of rounds. -/
structure HarqConfig where
  disableHarq : Bool
  harqRoundMax : ℕ

namespace HarqLists

/-- One process is written. -/
def write (h : HarqLists) (pid : ℕ) (f : HarqProcess → HarqProcess) : HarqLists :=
  { h with process := Function.update h.process pid (f (h.process pid)) }

/-- `finish_nr_ul_harq` and `finish_nr_dl_harq` : the process may be used again. -/
def finish (h : HarqLists) (pid : ℕ) : HarqLists :=
  { h.write pid fun harq => { harq with ndi := !harq.ndi, round := 0 } with
    available := addTailNrList h.available pid }

/-- The next round is to be sent. -/
def nextRound (h : HarqLists) (pid : ℕ) : HarqLists :=
  { h.write pid fun harq => { harq with round := harq.round + 1 } with
    retrans := addTailNrList h.retrans pid }

/-- A transmission is under way, its result is expected at `frame`, `slot`. -/
def await (h : HarqLists) (pid frame slot : ℕ) : HarqLists :=
  { h.write pid fun harq =>
      { harq with isWaiting := true, feedbackFrame := frame, feedbackSlot := slot } with
    feedback := addTailNrList h.feedback pid }

/-- The result is there, or no longer expected. -/
def answered (h : HarqLists) (pid : ℕ) : HarqLists :=
  h.write pid fun harq => { harq with isWaiting := false, feedbackSlot := 65535 }

/-- The data of a new transmission are kept for its retransmissions. -/
def setTbSize (h : HarqLists) (pid tbSize : ℕ) : HarqLists :=
  h.write pid fun harq => { harq with tbSize := tbSize }

/-- The start of a transmission : the process the preprocessor chose, or a new one, leaves its
list. -/
def take (h : HarqLists) : Option ℕ → Except HarqAbort (ℕ × HarqLists)
  | none =>
    match h.available with
    | [] => .error .noFreeProcess
    | pid :: available => .ok (pid, { h with available := available })
  | some pid =>
    if (h.process pid).round = 0 then
      (removeNrList h.available pid).map fun available => (pid, { h with available := available })
    else
      (removeNrList h.retrans pid).map fun retrans => (pid, { h with retrans := retrans })

/-- `reset_dl_harq_list` and `reset_ul_harq_list` : everything is available. -/
def reset (h : HarqLists) : HarqLists :=
  { h with
    available := h.retrans.foldl addTailNrList (h.feedback.foldl addTailNrList h.available)
    feedback := []
    retrans := []
    process := fun pid =>
      { h.process pid with feedbackSlot := 65535, round := 0, isWaiting := false } }

/-- `create_dl_harq_list` and `create_ul_harq_list` for `nrofHARQ` processes. -/
def create (h : HarqLists) (nrofHARQ : ℕ) : Except HarqAbort HarqLists :=
  if h.len = 0 then
    .ok { h with
      available := (List.range nrofHARQ).foldl addTailNrList []
      feedback := []
      retrans := []
      len := nrofHARQ }
  else if h.len = nrofHARQ then .ok h
  else if nrofHARQ ≤ h.len then .error .smallerList
  else .ok { h with
    available := (List.range' h.len (nrofHARQ - h.len)).foldl addTailNrList h.available
    len := nrofHARQ }

theorem create_cases (h : HarqLists) (nrofHARQ : ℕ) :
    (∃ h', h.create nrofHARQ = .ok h') ∨ h.create nrofHARQ = .error .smallerList := by
  rw [create]
  split_ifs
  exacts [.inl ⟨_, rfl⟩, .inl ⟨_, rfl⟩, .inr rfl, .inl ⟨_, rfl⟩]

section Fields

variable (h : HarqLists) (pid frame slot : ℕ) (f : HarqProcess → HarqProcess)

@[simp] theorem write_available : (h.write pid f).available = h.available := rfl

@[simp] theorem write_feedback : (h.write pid f).feedback = h.feedback := rfl

@[simp] theorem write_retrans : (h.write pid f).retrans = h.retrans := rfl

@[simp] theorem write_len : (h.write pid f).len = h.len := rfl

@[simp] theorem write_process_same : (h.write pid f).process pid = f (h.process pid) :=
  Function.update_self ..

theorem write_process_of_ne {p : ℕ} (hp : p ≠ pid) :
    (h.write pid f).process p = h.process p :=
  Function.update_of_ne hp ..

end Fields

/-! ## Each process in one list -/

/-- A process that may be used. -/
def IsFree (harq : HarqProcess) : Prop :=
  harq.isWaiting = false ∧ harq.round = 0

/-- A process whose transmission is under way. -/
def IsSent (harqRoundMax : ℕ) (harq : HarqProcess) : Prop :=
  harq.isWaiting = true ∧ harq.round < harqRoundMax

/-- A process that is to be sent again. -/
def IsLost (harqRoundMax : ℕ) (harq : HarqProcess) : Prop :=
  harq.isWaiting = false ∧ 1 ≤ harq.round ∧ harq.round < harqRoundMax

/-- The ids in the lists. -/
def ids (h : HarqLists) : List ℕ :=
  h.available ++ h.feedback ++ h.retrans

/-- The invariant, with the ids `hand` taken out of the lists. The processes behind the length
have not been used. -/
structure Inv (harqRoundMax : ℕ) (hand : List ℕ) (h : HarqLists) : Prop where
  perm : (hand ++ h.ids).Perm (List.range h.len)
  available : ∀ pid ∈ h.available, IsFree (h.process pid)
  feedback : ∀ pid ∈ h.feedback, IsSent harqRoundMax (h.process pid)
  retrans : ∀ pid ∈ h.retrans, IsLost harqRoundMax (h.process pid)
  fresh : ∀ pid, h.len ≤ pid → IsFree (h.process pid)

section Inv

variable {h h' : HarqLists} {harqRoundMax pid : ℕ} {hand : List ℕ}

theorem Inv.nodup (hinv : h.Inv harqRoundMax hand) : (hand ++ h.ids).Nodup :=
  hinv.perm.nodup_iff.2 List.nodup_range

theorem Inv.mem_iff (hinv : h.Inv harqRoundMax hand) : pid ∈ hand ++ h.ids ↔ pid < h.len := by
  rw [hinv.perm.mem_iff, List.mem_range]

/-- What is in hand is in no list. -/
theorem Inv.notMem (hinv : h.Inv harqRoundMax (pid :: hand)) : pid ∉ h.ids := by
  have hnodup := hinv.nodup
  rw [List.cons_append, List.nodup_cons] at hnodup
  exact fun hmem => hnodup.1 (List.mem_append_right _ hmem)

theorem Inv.lt (hinv : h.Inv harqRoundMax (pid :: hand)) : pid < h.len :=
  hinv.mem_iff.1 List.mem_cons_self

/-- A process in hand may be written. -/
theorem Inv.write (hinv : h.Inv harqRoundMax (pid :: hand)) (f : HarqProcess → HarqProcess) :
    (h.write pid f).Inv harqRoundMax (pid :: hand) := by
  have hnot := hinv.notMem
  simp only [ids, List.mem_append, not_or] at hnot
  obtain ⟨⟨havailable, hfeedback⟩, hretrans⟩ := hnot
  have hother {p : ℕ} (hp : p ≠ pid) : (h.write pid f).process p = h.process p :=
    h.write_process_of_ne pid f hp
  refine ⟨hinv.perm, fun p hp => ?_, fun p hp => ?_, fun p hp => ?_, fun p hp => ?_⟩
  · rw [hother fun hpid => havailable (hpid ▸ hp)]
    exact hinv.available p hp
  · rw [hother fun hpid => hfeedback (hpid ▸ hp)]
    exact hinv.feedback p hp
  · rw [hother fun hpid => hretrans (hpid ▸ hp)]
    exact hinv.retrans p hp
  · have hlt := hinv.lt
    have hle : h.len ≤ p := hp
    rw [hother (by omega)]
    exact hinv.fresh p hp

/-- A free process goes to the available ones. -/
theorem Inv.putAvailable (hinv : h.Inv harqRoundMax (pid :: hand))
    (hfree : IsFree (h.process pid)) :
    { h with available := addTailNrList h.available pid }.Inv harqRoundMax hand := by
  have hnot := hinv.notMem
  simp only [ids, List.mem_append, not_or] at hnot
  rw [addTailNrList_of_notMem hnot.1.1]
  refine ⟨List.Perm.trans ?_ hinv.perm, fun p hp => ?_, hinv.feedback, hinv.retrans, hinv.fresh⟩
  · simp only [ids, List.perm_iff_count, List.count_append, List.count_cons, List.count_nil]
    intro p
    omega
  · obtain hp | rfl := List.mem_append.1 hp |>.imp_right List.mem_singleton.1
    · exact hinv.available p hp
    · exact hfree

/-- A process that was sent waits for feedback. -/
theorem Inv.putFeedback (hinv : h.Inv harqRoundMax (pid :: hand))
    (hsent : IsSent harqRoundMax (h.process pid)) :
    { h with feedback := addTailNrList h.feedback pid }.Inv harqRoundMax hand := by
  have hnot := hinv.notMem
  simp only [ids, List.mem_append, not_or] at hnot
  rw [addTailNrList_of_notMem hnot.1.2]
  refine ⟨List.Perm.trans ?_ hinv.perm, hinv.available, fun p hp => ?_, hinv.retrans, hinv.fresh⟩
  · simp only [ids, List.perm_iff_count, List.count_append, List.count_cons, List.count_nil]
    intro p
    omega
  · obtain hp | rfl := List.mem_append.1 hp |>.imp_right List.mem_singleton.1
    · exact hinv.feedback p hp
    · exact hsent

/-- A process that was lost waits for its retransmission. -/
theorem Inv.putRetrans (hinv : h.Inv harqRoundMax (pid :: hand))
    (hlost : IsLost harqRoundMax (h.process pid)) :
    { h with retrans := addTailNrList h.retrans pid }.Inv harqRoundMax hand := by
  have hnot := hinv.notMem
  simp only [ids, List.mem_append, not_or] at hnot
  rw [addTailNrList_of_notMem hnot.2]
  refine ⟨List.Perm.trans ?_ hinv.perm, hinv.available, hinv.feedback, fun p hp => ?_, hinv.fresh⟩
  · simp only [ids, List.perm_iff_count, List.count_append, List.count_cons, List.count_nil]
    intro p
    omega
  · obtain hp | rfl := List.mem_append.1 hp |>.imp_right List.mem_singleton.1
    · exact hinv.retrans p hp
    · exact hlost

/-- The head of the feedback list is taken out. -/
theorem Inv.popFeedback {feedback : List ℕ} {handled : List (ℕ × Bool)}
    (hinv : h.Inv harqRoundMax hand) (hhead : h.feedback = pid :: feedback) :
    { h with feedback := feedback, handled := handled }.Inv harqRoundMax (pid :: hand) := by
  refine ⟨List.Perm.trans ?_ hinv.perm, hinv.available, fun p hp => ?_, hinv.retrans, hinv.fresh⟩
  · simp only [ids, hhead, List.perm_iff_count, List.count_append, List.count_cons]
    intro p
    omega
  · exact hinv.feedback p (hhead ▸ List.mem_cons_of_mem pid hp)

theorem Inv.finish (hinv : h.Inv harqRoundMax (pid :: hand))
    (hwaiting : (h.process pid).isWaiting = false) :
    (h.finish pid).Inv harqRoundMax hand :=
  (hinv.write _).putAvailable (by simp [IsFree, hwaiting])

theorem Inv.nextRound (hinv : h.Inv harqRoundMax (pid :: hand))
    (hwaiting : (h.process pid).isWaiting = false)
    (hround : (h.process pid).round + 1 < harqRoundMax) :
    (h.nextRound pid).Inv harqRoundMax hand :=
  (hinv.write _).putRetrans (by simp [IsLost, hwaiting, hround])

theorem Inv.await {frame slot : ℕ} (hinv : h.Inv harqRoundMax (pid :: hand))
    (hround : (h.process pid).round < harqRoundMax) :
    (h.await pid frame slot).Inv harqRoundMax hand :=
  (hinv.write _).putFeedback (by simp [IsSent, hround])

/-- The size of a transport block may change. -/
theorem Inv.setTbSize {tbSize : ℕ} (hinv : h.Inv harqRoundMax hand) :
    (h.setTbSize pid tbSize).Inv harqRoundMax hand := by
  have hsame (p : ℕ) : ((h.setTbSize pid tbSize).process p).isWaiting = (h.process p).isWaiting ∧
      ((h.setTbSize pid tbSize).process p).round = (h.process p).round := by
    rw [HarqLists.setTbSize]
    obtain rfl | hp := eq_or_ne p pid
    · rw [h.write_process_same]
      exact ⟨rfl, rfl⟩
    · rw [h.write_process_of_ne pid _ hp]
      exact ⟨rfl, rfl⟩
  refine ⟨hinv.perm, fun p hp => ?_, fun p hp => ?_, fun p hp => ?_, fun p hp => ?_⟩
  · simpa only [IsFree, hsame] using hinv.available p hp
  · simpa only [IsSent, hsame] using hinv.feedback p hp
  · simpa only [IsLost, hsame] using hinv.retrans p hp
  · simpa only [IsFree, hsame] using hinv.fresh p hp

/-- A grant gets a process that is free or lost, and takes it out of its list. -/
theorem Inv.take {choice : Option ℕ} (hinv : h.Inv harqRoundMax [])
    (hnew : choice = none → h.available ≠ [])
    (hchosen : ∀ pid, choice = some pid → pid ∈ h.available ∨ pid ∈ h.retrans) :
    ∃ pid h', h.take choice = .ok (pid, h') ∧ h'.Inv harqRoundMax [pid] ∧
      h'.process = h.process ∧ h'.feedback = h.feedback ∧
      (IsFree (h.process pid) ∧ h'.retrans = h.retrans ∨
        IsLost harqRoundMax (h.process pid) ∧ h.retrans.Perm (pid :: h'.retrans)) := by
  have hperm {h' : HarqLists} {pid : ℕ} (hids : ([pid] ++ h'.ids).Perm h.ids)
      (hlen : h'.len = h.len) : ([pid] ++ h'.ids).Perm (List.range h'.len) :=
    hids.trans (hlen ▸ hinv.perm)
  cases choice with
  | none =>
    obtain ⟨pid, available, havailable⟩ := List.exists_cons_of_ne_nil (hnew rfl)
    have hfree := hinv.available pid (havailable ▸ List.mem_cons_self)
    refine ⟨pid, { h with available := available }, by simp [HarqLists.take, havailable],
      ⟨hperm (by simp [ids, havailable]) rfl, fun p hp => ?_, hinv.feedback, hinv.retrans,
        hinv.fresh⟩, rfl, rfl, .inl ⟨hfree, rfl⟩⟩
    exact hinv.available p (havailable ▸ List.mem_cons_of_mem pid hp)
  | some pid =>
    obtain hmem | hmem := hchosen pid rfl
    · have hfree := hinv.available pid hmem
      refine ⟨pid, { h with available := h.available.erase pid },
        by simp [HarqLists.take, hfree.2, removeNrList, hmem, Except.map],
        ⟨hperm ?_ rfl, fun p hp => hinv.available p (List.mem_of_mem_erase hp), hinv.feedback,
          hinv.retrans, hinv.fresh⟩, rfl, rfl, .inl ⟨hfree, rfl⟩⟩
      have herase := (List.perm_cons_erase hmem).symm
      exact (herase.append_right h.feedback).append_right h.retrans
    · have hlost := hinv.retrans pid hmem
      have hround : (h.process pid).round ≠ 0 := by have := hlost.2.1; omega
      have herase := (List.perm_cons_erase hmem).symm
      refine ⟨pid, { h with retrans := h.retrans.erase pid },
        by simp [HarqLists.take, hround, removeNrList, hmem, Except.map],
        ⟨hperm ?_ rfl, hinv.available, hinv.feedback,
          fun p hp => hinv.retrans p (List.mem_of_mem_erase hp), hinv.fresh⟩, rfl, rfl,
        .inr ⟨hlost, herase.symm⟩⟩
      exact (show (pid :: (h.available ++ h.feedback ++ h.retrans.erase pid)).Perm h.ids from
        List.perm_middle.symm.trans (herase.append_left (h.available ++ h.feedback)))

/-- A reset empties the other lists into the available one. -/
theorem Inv.reset_available (hinv : h.Inv harqRoundMax []) : h.reset.available = h.ids := by
  have hnodup : h.ids.Nodup := hinv.nodup
  rw [ids] at hnodup ⊢
  rw [reset, foldl_addTailNrList hnodup.of_append_left, foldl_addTailNrList hnodup]

theorem Inv.reset (hinv : h.Inv harqRoundMax []) : h.reset.Inv harqRoundMax [] := by
  have hids : h.reset.ids = h.ids := by
    rw [ids, hinv.reset_available]
    simp [HarqLists.reset]
  refine ⟨hids ▸ hinv.perm, fun _ _ => ⟨rfl, rfl⟩, ?_, ?_, fun _ _ => ⟨rfl, rfl⟩⟩ <;>
    simp [HarqLists.reset]

/-- The lists of a new context are empty. -/
theorem Inv.of_len (hinv : h.Inv harqRoundMax []) (hlen : h.len = 0) :
    h.available = [] ∧ h.feedback = [] ∧ h.retrans = [] := by
  have hnil : h.ids = [] := List.perm_nil.1 (by simpa [hlen] using hinv.perm)
  simpa [ids, and_assoc] using hnil

theorem Inv.create {nrofHARQ : ℕ} (hinv : h.Inv harqRoundMax [])
    (hcreate : h.create nrofHARQ = .ok h') :
    h'.Inv harqRoundMax [] ∧ h'.process = h.process ∧ h'.feedback = h.feedback ∧
      h'.retrans = h.retrans := by
  rw [HarqLists.create] at hcreate
  split_ifs at hcreate with hzero hsame hless
  · cases hcreate
    obtain ⟨-, hfeedback, hretrans⟩ := hinv.of_len hzero
    have hrange : (List.range nrofHARQ).foldl addTailNrList [] = List.range nrofHARQ :=
      foldl_addTailNrList (by simpa using List.nodup_range)
    refine ⟨⟨by simp [ids, hrange], fun p _ => hinv.fresh p (by omega), by simp, by simp,
      fun p _ => hinv.fresh p (by omega)⟩, rfl, hfeedback.symm, hretrans.symm⟩
  · cases hcreate
    exact ⟨hinv, rfl, rfl, rfl⟩
  · cases hcreate
    have hlt {p : ℕ} (hp : p ∈ h.available) : p < h.len :=
      hinv.mem_iff.1 (by simp [ids, hp])
    have hnodup : (h.available ++ List.range' h.len (nrofHARQ - h.len)).Nodup := by
      refine List.Nodup.append ?_ List.nodup_range' fun p hp hnew => ?_
      · have hids : h.ids.Nodup := hinv.nodup
        exact (show (h.available ++ h.feedback ++ h.retrans).Nodup from
          hids).of_append_left.of_append_left
      · have := List.mem_range'_1.1 hnew
        have := hlt hp
        omega
    rw [foldl_addTailNrList hnodup]
    refine ⟨⟨?_, fun p hp => ?_, hinv.feedback, hinv.retrans, fun p hp => ?_⟩, rfl, rfl, rfl⟩
    · have hrange : List.range nrofHARQ =
          List.range h.len ++ List.range' h.len (nrofHARQ - h.len) := by
        have happend := @List.range'_append_1 0 h.len (nrofHARQ - h.len)
        rw [Nat.zero_add, show h.len + (nrofHARQ - h.len) = nrofHARQ by omega] at happend
        rw [List.range_eq_range', List.range_eq_range', happend]
      have hold := (hinv.perm : h.ids.Perm _).append_right (List.range' h.len (nrofHARQ - h.len))
      refine List.Perm.trans ?_ (hrange ▸ hold)
      simp only [ids, List.perm_iff_count, List.count_append, List.nil_append]
      intro p
      omega
    · obtain hp | hp := List.mem_append.1 hp
      · exact hinv.available p hp
      · exact hinv.fresh p (List.mem_range'_1.1 hp).1
    · exact hinv.fresh p (le_trans (by omega) (show nrofHARQ ≤ p from hp))

end Inv

/-- The lists of a new context. -/
theorem inv_fresh (harqRoundMax : ℕ) : ({} : HarqLists).Inv harqRoundMax [] :=
  ⟨by simp [ids], by simp, by simp, by simp, fun _ _ => ⟨rfl, rfl⟩⟩

end HarqLists

end NrStack
