import NrStack.Mac.Harq

/-!
# Uplink HARQ of the gNB

`nr_schedule_ulsch` sends a grant, `nr_rx_sdu` gets what came back (a transport block, or nothing),
`reset_ul_harq_list` and `create_ul_harq_list` come from the random access procedure and from the
configuration. `sched_ul_bytes` counts what the grants asked for.
-/

namespace NrStack

/-- The uplink part of `NR_UE_sched_ctrl_t`. -/
structure UlHarq extends HarqLists where
  schedUlBytes : ℕ := 0

namespace UlHarq

/-- `abort_nr_ul_harq` : the data will not come. -/
def abortNrUlHarq (c : UlHarq) (harqPid : ℕ) : UlHarq where
  toHarqLists := c.toHarqLists.finish harqPid
  -- clamped at zero
  schedUlBytes := c.schedUlBytes - (c.process harqPid).tbSize

/-- After a transmission that failed comes the next round, if there is one. -/
def lostNrUlHarq (harqRoundMax : ℕ) (c : UlHarq) (harqPid : ℕ) : UlHarq :=
  if harqRoundMax - 1 ≤ (c.process harqPid).round then c.abortNrUlHarq harqPid
  else { c with toHarqLists := c.toHarqLists.nextRound harqPid }

/-- The head of the feedback list is no longer waiting. -/
def popUlHarq (c : UlHarq) (harqPid : ℕ) : UlHarq where
  toHarqLists := { c.toHarqLists with feedback := c.feedback.tail }.write harqPid fun harq =>
    { harq with isWaiting := false }
  schedUlBytes := c.schedUlBytes

/-- The loop of `handle_nr_ul_harq` over the feedback list : the processes ahead of the reported
one have failed. -/
def skipUlHarq (harqRoundMax crcHarqId : ℕ) : List ℕ → UlHarq → UlHarq
  | [], c => c
  | harqPid :: feedback, c =>
    if crcHarqId = harqPid then c
    else
      skipUlHarq harqRoundMax crcHarqId feedback
        ((c.popUlHarq harqPid).lostNrUlHarq harqRoundMax harqPid)

/-- `handle_nr_ul_harq`. `crcStatus` : the transmission failed. -/
def handleNrUlHarq (config : HarqConfig) (c : UlHarq) (crcHarqId : ℕ) (crcStatus : Bool) :
    Except HarqAbort UlHarq :=
  if config.disableHarq then .ok c
  else
    let c := skipUlHarq config.harqRoundMax crcHarqId c.feedback c
    match c.feedback with
    | [] => .ok c
    | harqPid :: feedback =>
      if (c.process harqPid).isWaiting = false then .error .waiting
      else
        let c := { c with
          toHarqLists := { c.toHarqLists with feedback := feedback }.answered harqPid }
        if !crcStatus then .ok { c with toHarqLists := c.toHarqLists.finish harqPid }
        else .ok (c.lostNrUlHarq config.harqRoundMax harqPid)

/-- `nr_rx_sdu` for a UE in the connected list ; `sdu` is the length of what was received, if
anything was. -/
def nrRxSdu (config : HarqConfig) (c : UlHarq) (harqPid : ℤ) (sdu : Option ℕ) :
    Except HarqAbort UlHarq :=
  if harqPid < 0 then .ok c
  else
    -- clamped at zero
    handleNrUlHarq config { c with schedUlBytes := c.schedUlBytes - sdu.getD 0 } harqPid.toNat
      sdu.isNone

/-- `nr_schedule_ulsch` for one UE. The preprocessor passes over a UE without a process to use,
and chooses the first one that waits for its retransmission. -/
def nrScheduleUlsch (config : HarqConfig) (c : UlHarq) (slot tbSize : ℕ) :
    Except HarqAbort UlHarq :=
  if c.retrans = [] ∧ c.available = [] then .ok c
  else
    match c.toHarqLists.take c.retrans.head? with
    | .error e => .error e
    | .ok (harqId, h) =>
      if (h.process harqId).isWaiting then .error .waiting
      else
        let h :=
          if config.disableHarq then h.finish harqId
          else h.await harqId (h.process harqId).feedbackFrame slot
        if config.harqRoundMax ≤ (h.process harqId).round then .error .roundBound
        else if (h.process harqId).round = 0 then
          .ok { toHarqLists := h.setTbSize harqId tbSize
                schedUlBytes := c.schedUlBytes + tbSize }
        else .ok { c with toHarqLists := h }

end UlHarq

/-- What happens to the uplink processes of a UE. -/
inductive UlHarqEvent
  /-- `nr_schedule_ulsch` has resources for the UE -/
  | schedule (slot tbSize : ℕ)
  /-- `nr_rx_sdu` -/
  | rxSdu (harqPid : ℤ) (sdu : Option ℕ)
  /-- `reset_ul_harq_list` -/
  | reset
  /-- `create_ul_harq_list` -/
  | create (nrofHARQ : ℕ)

namespace UlHarq

def step (config : HarqConfig) (c : UlHarq) : UlHarqEvent → Except HarqAbort UlHarq
  | .schedule slot tbSize => c.nrScheduleUlsch config slot tbSize
  | .rxSdu harqPid sdu => c.nrRxSdu config harqPid sdu
  | .reset => .ok { c with toHarqLists := c.toHarqLists.reset }
  | .create nrofHARQ => (c.toHarqLists.create nrofHARQ).map fun h => { c with toHarqLists := h }

/-! ## The bytes that are outstanding -/

theorem dropWhile_of_mem {l : List ℕ} {pid : ℕ} (h : pid ∈ l) :
    ∃ rest, l.dropWhile (· ≠ pid) = pid :: rest := by
  induction l with
  | nil => cases h
  | cons x l ih =>
    obtain rfl | hne := eq_or_ne x pid
    · exact ⟨l, by simp⟩
    · obtain ⟨rest, hrest⟩ := ih ((List.mem_cons.1 h).resolve_left hne.symm)
      exact ⟨rest, by simpa [hne] using hrest⟩

theorem dropWhile_of_notMem {l : List ℕ} {pid : ℕ} (h : pid ∉ l) :
    l.dropWhile (· ≠ pid) = [] := by
  rw [List.dropWhile_eq_nil_iff]
  intro x hx
  simpa using fun heq : x = pid => h (heq ▸ hx)

/-- Sum of the transport block sizes of some processes. -/
def sizes (h : HarqLists) (pids : List ℕ) : ℕ :=
  (pids.map fun pid => (h.process pid).tbSize).sum

/-- What the processes that wait for a result or for a retransmission carry. -/
def outstanding (c : UlHarq) : ℕ :=
  sizes c.toHarqLists (c.feedback ++ c.retrans)

section Sizes

variable {h h' : HarqLists} {pids pids' : List ℕ} {pid : ℕ}

@[simp] theorem sizes_nil : sizes h [] = 0 := rfl

@[simp] theorem sizes_cons : sizes h (pid :: pids) = (h.process pid).tbSize + sizes h pids :=
  List.sum_cons

@[simp] theorem sizes_append : sizes h (pids ++ pids') = sizes h pids + sizes h pids' := by
  rw [sizes, List.map_append, List.sum_append]
  rfl

theorem sizes_congr (hsize : ∀ pid ∈ pids, (h'.process pid).tbSize = (h.process pid).tbSize) :
    sizes h' pids = sizes h pids :=
  congrArg List.sum (List.map_congr_left hsize)

theorem sizes_perm (hperm : pids.Perm pids') : sizes h pids = sizes h pids' :=
  (hperm.map _).sum_eq

/-- The sizes do not depend on the rest of the processes. -/
def SameSizes (h h' : HarqLists) : Prop :=
  ∀ pid, (h'.process pid).tbSize = (h.process pid).tbSize

theorem SameSizes.sizes (hsame : SameSizes h h') : sizes h' pids = UlHarq.sizes h pids :=
  sizes_congr fun pid _ => hsame pid

theorem SameSizes.trans {h'' : HarqLists} (hsame : SameSizes h h') (hsame' : SameSizes h' h'') :
    SameSizes h h'' :=
  fun pid => (hsame' pid).trans (hsame pid)

theorem sameSizes_update {harq : HarqProcess}
    (hprocess : h'.process = Function.update h.process pid harq)
    (hsize : harq.tbSize = (h.process pid).tbSize) : SameSizes h h' := by
  intro p
  rw [hprocess]
  obtain rfl | hp := eq_or_ne p pid
  · rw [Function.update_self, hsize]
  · rw [Function.update_of_ne hp]

theorem sizes_setTbSize {tbSize : ℕ} (hpid : pid ∉ pids) :
    sizes (h.setTbSize pid tbSize) pids = sizes h pids :=
  sizes_congr fun p hp => by
    rw [HarqLists.setTbSize, h.write_process_of_ne pid _ fun heq => hpid (heq ▸ hp)]

end Sizes

/-- A process is in its last round. -/
def lastRound (harqRoundMax : ℕ) (h : HarqLists) (pid : ℕ) : Bool :=
  harqRoundMax - 1 ≤ (h.process pid).round

/-- The bytes of a process that waits for feedback. -/
def reported (h : HarqLists) (pid : ℕ) : ℕ :=
  if pid ∈ h.feedback then (h.process pid).tbSize else 0

/-- What is outstanding once a process was reported : the ones ahead of it that are not in their
last round, and the ones behind it, and the ones that wait for their retransmission. -/
def kept (harqRoundMax : ℕ) (h : HarqLists) (pid : ℕ) : List ℕ :=
  (h.feedback.takeWhile (· ≠ pid)).filter (!lastRound harqRoundMax h ·) ++
    (h.feedback.dropWhile (· ≠ pid)).tail ++ h.retrans

/-- A list, split at an element. -/
theorem sizes_split (harqRoundMax : ℕ) (h : HarqLists) (pid : ℕ) :
    sizes h (h.feedback ++ h.retrans) = sizes h (kept harqRoundMax h pid) +
      sizes h ((h.feedback.takeWhile (· ≠ pid)).filter (lastRound harqRoundMax h ·)) +
      reported h pid := by
  have hsplit : sizes h h.feedback = sizes h (h.feedback.takeWhile (· ≠ pid)) +
      sizes h (h.feedback.dropWhile (· ≠ pid)) := by
    rw [← sizes_append, List.takeWhile_append_dropWhile]
  have hfilter : sizes h (h.feedback.takeWhile (· ≠ pid)) =
      sizes h ((h.feedback.takeWhile (· ≠ pid)).filter (lastRound harqRoundMax h ·)) +
        sizes h ((h.feedback.takeWhile (· ≠ pid)).filter (!lastRound harqRoundMax h ·)) := by
    rw [← sizes_append, sizes_perm (List.filter_append_perm ..)]
  have hhead : sizes h (h.feedback.dropWhile (· ≠ pid)) = reported h pid +
      sizes h (h.feedback.dropWhile (· ≠ pid)).tail := by
    rw [reported]
    split_ifs with hmem
    · obtain ⟨rest, hrest⟩ := dropWhile_of_mem hmem
      rw [hrest, sizes_cons, List.tail_cons]
    · rw [dropWhile_of_notMem hmem]
      simp
  rw [sizes_append, hsplit, hfilter, hhead, kept, sizes_append, sizes_append]
  omega

/-! ## What the operations do -/

section Operations

variable {config : HarqConfig} {harqRoundMax pid : ℕ} {c c' : UlHarq}

/-- A failed transmission in the last round is given up, another one is sent again. -/
theorem lost_spec (hinv : c.Inv harqRoundMax [pid]) (hwaiting : (c.process pid).isWaiting = false)
    (hround : (c.process pid).round < harqRoundMax) :
    (c.lostNrUlHarq harqRoundMax pid).Inv harqRoundMax [] ∧
      (c.lostNrUlHarq harqRoundMax pid).feedback = c.feedback ∧
      SameSizes c.toHarqLists (c.lostNrUlHarq harqRoundMax pid).toHarqLists ∧
      (∀ p, p ≠ pid → (c.lostNrUlHarq harqRoundMax pid).process p = c.process p) ∧
      (lastRound harqRoundMax c.toHarqLists pid = true ∧
          (c.lostNrUlHarq harqRoundMax pid).schedUlBytes =
            c.schedUlBytes - (c.process pid).tbSize ∧
          (c.lostNrUlHarq harqRoundMax pid).retrans = c.retrans ∨
        lastRound harqRoundMax c.toHarqLists pid = false ∧
          (c.lostNrUlHarq harqRoundMax pid).schedUlBytes = c.schedUlBytes ∧
          (c.lostNrUlHarq harqRoundMax pid).retrans = c.retrans ++ [pid]) := by
  have hnot := hinv.notMem
  simp only [HarqLists.ids, List.mem_append, not_or] at hnot
  rw [lostNrUlHarq]
  split_ifs with hlast
  · refine ⟨hinv.finish hwaiting, rfl, sameSizes_update rfl rfl,
      fun p hp => Function.update_of_ne hp .., .inl ⟨?_, rfl, rfl⟩⟩
    simpa [lastRound] using hlast
  · refine ⟨hinv.nextRound hwaiting (by omega), rfl, sameSizes_update rfl rfl,
      fun p hp => Function.update_of_ne hp .., .inr ⟨?_, rfl, addTailNrList_of_notMem hnot.2⟩⟩
    simpa [lastRound] using hlast

/-- A process whose feedback is no longer expected has its bytes taken off in its last round and is
sent again otherwise. -/
theorem miss_spec {feedback : List ℕ} (hinv : c.Inv harqRoundMax [])
    (hfeedback : c.feedback = pid :: feedback)
    (hc' : c' = (c.popUlHarq pid).lostNrUlHarq harqRoundMax pid) :
    c'.Inv harqRoundMax [] ∧ c'.feedback = feedback ∧ SameSizes c.toHarqLists c'.toHarqLists ∧
      (∀ p, p ≠ pid → c'.process p = c.process p) ∧
      (lastRound harqRoundMax c.toHarqLists pid = true ∧
          c'.schedUlBytes = c.schedUlBytes - (c.process pid).tbSize ∧ c'.retrans = c.retrans ∨
        lastRound harqRoundMax c.toHarqLists pid = false ∧
          c'.schedUlBytes = c.schedUlBytes ∧ c'.retrans = c.retrans ++ [pid]) := by
  have hsent := hinv.feedback pid (hfeedback ▸ List.mem_cons_self)
  have htail : c.feedback.tail = feedback := by rw [hfeedback, List.tail_cons]
  have hprocess : (c.popUlHarq pid).process pid = { c.process pid with isWaiting := false } :=
    Function.update_self ..
  have hpop : (c.popUlHarq pid).Inv harqRoundMax [pid] :=
    (htail ▸ hinv.popFeedback hfeedback : _).write fun harq => { harq with isWaiting := false }
  obtain ⟨hinv', hfeedback', hsizes, hother, hcases⟩ := lost_spec hpop
    (by rw [hprocess]) (by rw [hprocess]; exact hsent.2)
  rw [← hc'] at hinv' hfeedback' hsizes hother hcases
  simp only [lastRound, hprocess] at hcases
  exact ⟨hinv', hfeedback'.trans htail, (sameSizes_update rfl rfl : SameSizes c.toHarqLists
    (c.popUlHarq pid).toHarqLists).trans hsizes,
    fun p hp => (hother p hp).trans (Function.update_of_ne hp ..), hcases⟩

/-- The processes ahead of the reported one have left the feedback list : the ones in their last
round with their bytes, the others for their retransmission. -/
theorem skip_spec {crcHarqId : ℕ} : ∀ {feedback : List ℕ} {c c' : UlHarq},
    c.feedback = feedback → c.Inv harqRoundMax [] →
    c' = skipUlHarq harqRoundMax crcHarqId feedback c →
    c'.Inv harqRoundMax [] ∧ c'.feedback = feedback.dropWhile (· ≠ crcHarqId) ∧
      SameSizes c.toHarqLists c'.toHarqLists ∧
      c'.retrans = c.retrans ++
        (feedback.takeWhile (· ≠ crcHarqId)).filter (!lastRound harqRoundMax c.toHarqLists ·) ∧
      c'.schedUlBytes = c.schedUlBytes -
        sizes c.toHarqLists ((feedback.takeWhile (· ≠ crcHarqId)).filter
          (lastRound harqRoundMax c.toHarqLists ·))
  | [], c, c', hfeedback, hinv, hc' => by
    rw [skipUlHarq] at hc'
    subst hc'
    exact ⟨hinv, hfeedback, fun _ => rfl, by simp, by simp⟩
  | pid :: feedback, c, c', hfeedback, hinv, hc' => by
    rw [skipUlHarq] at hc'
    split_ifs at hc' with heq
    · subst heq hc'
      exact ⟨hinv, by simp [hfeedback], fun _ => rfl, by simp, by simp⟩
    obtain ⟨hinv₁, hfeedback₁, hsizes₁, hother, hcases⟩ := miss_spec hinv hfeedback rfl
    obtain ⟨hinv', hfeedback', hsizes', hretrans, hbytes⟩ := skip_spec hfeedback₁ hinv₁ hc'
    set c₁ := (c.popUlHarq pid).lostNrUlHarq harqRoundMax pid
    -- the processes behind `pid` in the list are not `pid`
    have hrounds (p : ℕ) (hp : p ∈ feedback.takeWhile (· ≠ crcHarqId)) :
        lastRound harqRoundMax c₁.toHarqLists p = lastRound harqRoundMax c.toHarqLists p := by
      have hne : p ≠ pid := by
        rintro rfl
        have hnodup : c.feedback.Nodup :=
          (show (c.available ++ c.feedback ++ c.retrans).Nodup from
            hinv.nodup).of_append_left.of_append_right
        rw [hfeedback, List.nodup_cons] at hnodup
        exact hnodup.1 (List.takeWhile_subset _ hp)
      rw [lastRound, lastRound, hother p hne]
    rw [List.filter_congr hrounds, hsizes₁.sizes] at hbytes
    rw [List.filter_congr fun p hp => congrArg (!·) (hrounds p hp)] at hretrans
    have hne : pid ≠ crcHarqId := fun h => heq h.symm
    refine ⟨hinv', by simpa [hne] using hfeedback', hsizes₁.trans hsizes', ?_, ?_⟩
    · obtain ⟨hlast, -, h⟩ | ⟨hlast, -, h⟩ := hcases <;> rw [hretrans, h] <;> simp [hne, hlast]
    · obtain ⟨hlast, h, -⟩ | ⟨hlast, h, -⟩ := hcases <;> rw [hbytes, h] <;>
        simp [hne, hlast, Nat.sub_sub]

theorem handle_spec {crcHarqId : ℕ} {crcStatus : Bool} (hinv : c.Inv config.harqRoundMax [])
    (hon : config.disableHarq = false) :
    ∃ c' gone, c.handleNrUlHarq config crcHarqId crcStatus = .ok c' ∧
      c'.Inv config.harqRoundMax [] ∧ c'.schedUlBytes = c.schedUlBytes - gone ∧
      c.outstanding = c'.outstanding + gone +
        (if crcStatus then 0 else reported c.toHarqLists crcHarqId) ∧
      (crcStatus = false →
        c'.outstanding = sizes c.toHarqLists (kept config.harqRoundMax c.toHarqLists crcHarqId)) := by
  obtain ⟨hinv₁, hfeedback₁, hsizes₁, hretrans₁, hbytes₁⟩ :=
    @skip_spec _ crcHarqId _ c _ rfl hinv rfl
  set c₁ := skipUlHarq config.harqRoundMax crcHarqId c.feedback c with hc₁
  have hsplit := sizes_split config.harqRoundMax c.toHarqLists crcHarqId
  obtain hmem | hmem := em (crcHarqId ∈ c.feedback)
  · obtain ⟨rest, hrest⟩ := dropWhile_of_mem hmem
    rw [hrest] at hfeedback₁
    have hsent := hinv₁.feedback crcHarqId (hfeedback₁ ▸ List.mem_cons_self)
    set c₂ : UlHarq := { c₁ with
      toHarqLists := { c₁.toHarqLists with feedback := rest }.answered crcHarqId } with hc₂
    have hprocess : c₂.process crcHarqId =
        { c₁.process crcHarqId with isWaiting := false, feedbackSlot := 65535 } :=
      Function.update_self ..
    have hinv₂ : c₂.Inv config.harqRoundMax [crcHarqId] :=
      (hinv₁.popFeedback hfeedback₁).write fun harq =>
        { harq with isWaiting := false, feedbackSlot := 65535 }
    have hsizes₂ : SameSizes c₁.toHarqLists c₂.toHarqLists := sameSizes_update rfl rfl
    have hhandle : c.handleNrUlHarq config crcHarqId crcStatus =
        if !crcStatus then .ok { c₂ with toHarqLists := c₂.toHarqLists.finish crcHarqId }
        else .ok (c₂.lostNrUlHarq config.harqRoundMax crcHarqId) := by
      rw [handleNrUlHarq, if_neg (by simp [hon])]
      simp only [← hc₁, hfeedback₁, hsent.1]
      rfl
    have hsizes : SameSizes c.toHarqLists c₂.toHarqLists := hsizes₁.trans hsizes₂
    have hreported : reported c.toHarqLists crcHarqId = (c.process crcHarqId).tbSize :=
      if_pos hmem
    have hkept : sizes c.toHarqLists (rest ++ c₁.retrans) =
        sizes c.toHarqLists (kept config.harqRoundMax c.toHarqLists crcHarqId) := by
      rw [hretrans₁, kept, hrest, List.tail_cons]
      simp only [sizes_append]
      omega
    cases crcStatus with
    | false =>
      have hfinish : SameSizes c₂.toHarqLists (c₂.finish crcHarqId) := sameSizes_update rfl rfl
      have hleft : outstanding { c₂ with toHarqLists := c₂.toHarqLists.finish crcHarqId } =
          sizes c.toHarqLists (kept config.harqRoundMax c.toHarqLists crcHarqId) :=
        ((hsizes.trans hfinish).sizes).trans hkept
      refine ⟨_, _, hhandle, hinv₂.finish (by rw [hprocess]), hbytes₁, ?_, fun _ => hleft⟩
      rw [hleft, outstanding, hsplit, if_neg Bool.false_ne_true]
    | true =>
      obtain ⟨hinv', hfeedback', hsizes', -, hcases⟩ := lost_spec hinv₂
        (by rw [hprocess]) (by rw [hprocess]; exact hsent.2)
      set c' := c₂.lostNrUlHarq config.harqRoundMax crcHarqId
      have hbehind : c'.feedback = rest := hfeedback'
      have hleft : c'.outstanding = sizes c.toHarqLists (rest ++ c'.retrans) := by
        rw [outstanding, hbehind, (hsizes.trans hsizes').sizes]
      have htb : (c₂.process crcHarqId).tbSize = (c.process crcHarqId).tbSize := hsizes crcHarqId
      rw [sizes_append] at hkept hleft
      obtain ⟨-, hbytes, hretrans⟩ | ⟨-, hbytes, hretrans⟩ := hcases
      · refine ⟨c', sizes c.toHarqLists ((c.feedback.takeWhile (· ≠ crcHarqId)).filter
          (lastRound config.harqRoundMax c.toHarqLists ·)) + (c.process crcHarqId).tbSize,
          hhandle, hinv', ?_, ?_, fun h => absurd h Bool.noConfusion⟩
        · rw [hbytes, htb, ← Nat.sub_sub, ← hbytes₁]
        · rw [hleft, show c'.retrans = c₁.retrans from hretrans, outstanding, hsplit, hreported,
            ← hkept, if_pos rfl]
          omega
      · refine ⟨c', _, hhandle, hinv', hbytes.trans hbytes₁, ?_,
          fun h => absurd h Bool.noConfusion⟩
        rw [hleft, show c'.retrans = c₁.retrans ++ [crcHarqId] from hretrans, outstanding, hsplit,
          hreported, ← hkept, if_pos rfl, sizes_append, sizes_cons, sizes_nil]
        omega
  · rw [dropWhile_of_notMem hmem] at hfeedback₁
    have hhandle : c.handleNrUlHarq config crcHarqId crcStatus = .ok c₁ := by
      rw [handleNrUlHarq, if_neg (by simp [hon])]
      simp only [← hc₁, hfeedback₁]
    have hkept : c₁.outstanding =
        sizes c.toHarqLists (kept config.harqRoundMax c.toHarqLists crcHarqId) := by
      rw [outstanding, hfeedback₁, hretrans₁, hsizes₁.sizes, kept, dropWhile_of_notMem hmem]
      simp only [sizes_append, List.tail_nil, sizes_nil]
      omega
    refine ⟨c₁, _, hhandle, hinv₁, hbytes₁, ?_, fun _ => hkept⟩
    have hreported : reported c.toHarqLists crcHarqId = 0 := if_neg hmem
    rw [outstanding, hsplit, hkept, hreported]
    split_ifs <;> omega

/-- A grant takes a process that is not waiting. -/
theorem take_spec (hinv : c.Inv harqRoundMax []) (hsome : ¬(c.retrans = [] ∧ c.available = [])) :
    ∃ pid h', c.toHarqLists.take c.retrans.head? = .ok (pid, h') ∧ h'.Inv harqRoundMax [pid] ∧
      h'.process = c.process ∧ h'.feedback = c.feedback ∧
      (HarqLists.IsFree (c.process pid) ∧ h'.retrans = c.retrans ∨
        HarqLists.IsLost harqRoundMax (c.process pid) ∧ c.retrans.Perm (pid :: h'.retrans)) := by
  refine hinv.take (fun hnone havailable => hsome ⟨?_, havailable⟩) fun pid hpid => .inr ?_
  · exact List.head?_eq_none_iff.1 hnone
  · exact List.mem_of_head? hpid

/-- With no round at all the first grant fails. -/
theorem schedule_of_harqRoundMax {slot tbSize : ℕ} (hinv : c.Inv config.harqRoundMax [])
    (hsome : ¬(c.retrans = [] ∧ c.available = [])) (hmax : config.harqRoundMax = 0) :
    c.nrScheduleUlsch config slot tbSize = .error .roundBound := by
  obtain ⟨pid, h', htake, -, hprocess, -, hcases⟩ := take_spec hinv hsome
  have hfree : HarqLists.IsFree (c.process pid) := by
    obtain ⟨hfree, -⟩ | ⟨hlost, -⟩ := hcases
    · exact hfree
    · have := hlost.2.2
      omega
  rw [nrScheduleUlsch, if_neg hsome, htake]
  simp [hprocess, hfree.1, hmax]

/-- What a grant does, once the process is out of its list. -/
theorem schedule_of_take {slot tbSize : ℕ} {h : HarqLists}
    (hsome : ¬(c.retrans = [] ∧ c.available = []))
    (htake : c.toHarqLists.take c.retrans.head? = .ok (pid, h))
    (hwaiting : (h.process pid).isWaiting = false)
    (hround : (h.process pid).round < config.harqRoundMax) :
    c.nrScheduleUlsch config slot tbSize = .ok (
      if config.disableHarq then
        { toHarqLists := (h.finish pid).setTbSize pid tbSize
          schedUlBytes := c.schedUlBytes + tbSize }
      else if (h.process pid).round = 0 then
        { toHarqLists := (h.await pid (h.process pid).feedbackFrame slot).setTbSize pid tbSize
          schedUlBytes := c.schedUlBytes + tbSize }
      else { c with toHarqLists := h.await pid (h.process pid).feedbackFrame slot }) := by
  have hfinish : ((h.finish pid).process pid).round = 0 := by simp [HarqLists.finish]
  have hawait : ((h.await pid (h.process pid).feedbackFrame slot).process pid).round =
      (h.process pid).round := by
    simp [HarqLists.await]
  rw [nrScheduleUlsch, if_neg hsome, htake]
  simp only [hwaiting, Bool.false_eq_true, if_false]
  split_ifs <;> first | rfl | omega

/-- A grant : what it asks for is outstanding, or was so before. -/
theorem schedule_spec {slot tbSize : ℕ} (hinv : c.Inv config.harqRoundMax [])
    (hsome : ¬(c.retrans = [] ∧ c.available = [])) (hmax : 1 ≤ config.harqRoundMax) :
    ∃ c', c.nrScheduleUlsch config slot tbSize = .ok c' ∧ c'.Inv config.harqRoundMax [] ∧
      (config.disableHarq = false →
        c'.schedUlBytes + c.outstanding = c.schedUlBytes + c'.outstanding) ∧
      (config.disableHarq = true → c.feedback = [] → c.retrans = [] →
        c'.schedUlBytes = c.schedUlBytes + tbSize ∧ c'.feedback = [] ∧ c'.retrans = []) := by
  obtain ⟨pid, h, htake, hh, hprocess, hfeedback, hcases⟩ := take_spec hinv hsome
  have hwaiting : (h.process pid).isWaiting = false := by
    rw [hprocess]
    exact hcases.elim (fun hfree => hfree.1.1) fun hlost => hlost.1.1
  have hround : (h.process pid).round < config.harqRoundMax := by
    rw [hprocess]
    obtain ⟨hfree, -⟩ | ⟨hlost, -⟩ := hcases
    · rw [hfree.2]
      exact hmax
    · exact hlost.2.2
  refine ⟨_, schedule_of_take hsome htake hwaiting hround, ?_⟩
  have hnot := hh.notMem
  simp only [HarqLists.ids, List.mem_append, not_or] at hnot
  have hlist : (h.await pid (h.process pid).feedbackFrame slot).feedback = c.feedback ++ [pid] :=
    (addTailNrList_of_notMem hnot.1.2).trans (by rw [hfeedback])
  have hawait : (h.await pid (h.process pid).feedbackFrame slot).Inv config.harqRoundMax [] :=
    hh.await hround
  have hsizes : SameSizes c.toHarqLists (h.await pid (h.process pid).feedbackFrame slot) :=
    SameSizes.trans (fun p => by rw [hprocess]) (sameSizes_update rfl rfl :
      SameSizes h (h.await pid (h.process pid).feedbackFrame slot))
  obtain hdisable | hdisable := Bool.eq_false_or_eq_true config.disableHarq
  · rw [if_pos hdisable]
    refine ⟨(hh.finish hwaiting).setTbSize, fun h => by simp [hdisable] at h,
      fun _ hnil hnil' => ⟨rfl, hfeedback.trans hnil, ?_⟩⟩
    obtain ⟨-, hretrans⟩ | ⟨-, hperm⟩ := hcases
    · exact hretrans.trans hnil'
    · rw [hnil'] at hperm
      exact absurd hperm.length_eq (by simp)
  rw [if_neg (by simp [hdisable])]
  obtain ⟨hfree, hretrans⟩ | ⟨hlost, hperm⟩ := hcases
  · rw [if_pos (by rw [hprocess, hfree.2])]
    refine ⟨hawait.setTbSize, fun _ => ?_, fun h => by simp [hdisable] at h⟩
    have hbytes : outstanding
        { toHarqLists := (h.await pid (h.process pid).feedbackFrame slot).setTbSize pid tbSize
          schedUlBytes := c.schedUlBytes + tbSize } = c.outstanding + tbSize := by
      have hbehind : (h.await pid (h.process pid).feedbackFrame slot).retrans = c.retrans := hretrans
      have hold : pid ∉ c.feedback ++ c.retrans := by
        rw [List.mem_append, ← hretrans, ← hfeedback]
        tauto
      calc sizes ((h.await pid (h.process pid).feedbackFrame slot).setTbSize pid tbSize)
            ((h.await pid (h.process pid).feedbackFrame slot).feedback ++
              (h.await pid (h.process pid).feedbackFrame slot).retrans)
          = sizes ((h.await pid (h.process pid).feedbackFrame slot).setTbSize pid tbSize)
              (pid :: (c.feedback ++ c.retrans)) := by
            rw [hlist, hbehind]
            exact sizes_perm (by simp)
        _ = tbSize + sizes c.toHarqLists (c.feedback ++ c.retrans) := by
            rw [sizes_cons, sizes_setTbSize hold, hsizes.sizes]
            simp [HarqLists.setTbSize]
        _ = c.outstanding + tbSize := Nat.add_comm ..
    rw [hbytes]
    dsimp only
    omega
  · have hpos : (h.process pid).round ≠ 0 := by
      rw [hprocess]
      have := hlost.2.1
      omega
    rw [if_neg hpos]
    refine ⟨hawait, fun _ => ?_, fun h => by simp [hdisable] at h⟩
    have hbytes : outstanding
        { c with toHarqLists := h.await pid (h.process pid).feedbackFrame slot } =
          c.outstanding := by
      rw [outstanding, hsizes.sizes, outstanding]
      show sizes _ ((h.await pid (h.process pid).feedbackFrame slot).feedback ++ h.retrans) = _
      rw [hlist, List.append_assoc]
      exact sizes_perm (hperm.symm.append_left c.feedback)
    rw [hbytes]

end Operations

end UlHarq

end NrStack
