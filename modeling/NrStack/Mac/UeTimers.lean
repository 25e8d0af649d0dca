import NrStack.Library.Fuel
import NrStack.Mac.UeListRun

/-!
# The timers of the connected UEs

`nr_mac_update_timers` goes through the connected list with `UE_iterator`, whose cursor is
`UEpptr`. A UE whose release timer expires is taken out of the list in the loop. Then the loop moves
`UE` back, not the cursor, so it goes on behind the next UE. When the timer of the UL failure
expires for a UE that the CU does not know, the UE is released as well, and the loop reads and writes
the timers of a context that was freed. `updateTimers_iff` says when each UE gets its turn once.

`none` is a read through the pointer of a context that was freed, or behind the end of the array. The
messages to the CU are left out.
-/

namespace NrStack

/-! ## Timers -/

/-- `NR_timer_t` -/
structure NrTimer where
  active : Bool
  suspended : Bool
  counter : UInt32
  target : UInt32
  step : UInt32
  deriving DecidableEq, Repr

namespace NrTimer

/-- `nr_timer_stop` -/
def stop (timer : NrTimer) : NrTimer :=
  { timer with active := false, suspended := false, counter := 0 }

/-- `nr_timer_expired` ; a target of `UINT_MAX` is never reached. -/
def expired (timer : NrTimer) : Bool :=
  if timer.target = 0xffffffff || timer.suspended then false else timer.counter ≥ timer.target

/-- `nr_timer_tick` -/
def tick (timer : NrTimer) : Bool × NrTimer :=
  if timer.active then
    let timer := { timer with counter := timer.counter + timer.step }
    if timer.target = 0xffffffff || timer.suspended then (false, timer)
    else (timer.expired, if timer.expired then { timer with active := false } else timer)
  else (false, timer)

end NrTimer

/-- `interrupt_followup_action_t` -/
inductive InterruptFollowup where
  | inSync
  | inSyncReconfig
  | outOfSync
  deriving DecidableEq, Repr

/-- What `nr_mac_update_timers` reads of a UE besides its RNTI. -/
structure UeTimers where
  releaseTimer : ℕ
  ulFailure : Bool
  ulFailureTimer : ℕ
  transmInterrupt : NrTimer
  interruptAction : InterruptFollowup
  scs : ℕ
  deriving DecidableEq, Repr

namespace UeTimers

/-- `nr_mac_check_release` -/
def checkRelease (t : UeTimers) : Bool × UeTimers :=
  if t.releaseTimer = 0 then (false, t)
  else (t.releaseTimer - 1 = 0, { t with releaseTimer := t.releaseTimer - 1 })

/-- `nr_mac_check_ul_failure` : whether the UE is to be released, and its timers. -/
def checkUlFailure (t : UeTimers) : Bool × UeTimers :=
  if t.ulFailure then
    (t.ulFailureTimer - 1 = 1, { t with ulFailureTimer := t.ulFailureTimer - 1 })
  else (false, t)

/-- `nr_mac_trigger_ul_failure` -/
def triggerUlFailure (t : UeTimers) : UeTimers :=
  if t.ulFailure then t else { t with ulFailure := true, ulFailureTimer := 30000 * 2 ^ t.scs }

/-- The interruption of the transmission, at the end of the loop. -/
def tickInterrupt (t : UeTimers) : UeTimers :=
  let (expired, timer) := t.transmInterrupt.tick
  if expired then
    let t := { t with transmInterrupt := timer.stop }
    if t.interruptAction = .outOfSync then t.triggerUlFailure else t
  else { t with transmInterrupt := timer }

end UeTimers

/-! ## The loop -/

/-- The lists, the timers of the contexts, and the UEs whose turn it was. -/
structure UeTimerState where
  ues : NrUes
  timers : ℕ → UeTimers
  visited : List ℕ

namespace UeTimerState

/-- The timers of a UE are written. -/
def write (s : UeTimerState) (ue : ℕ) (t : UeTimers) : UeTimerState :=
  { s with timers := Function.update s.timers ue t }

/-- `nr_mac_release_ue` -/
def release (s : UeTimerState) (rnti : UInt16) : Option UeTimerState :=
  (s.ues.macRemoveNrUe rnti).map fun ues => { s with ues := ues }

variable (known : UInt16 → Bool)

/-- The body of the loop for a UE ; `known` are the RNTIs that the CU knows. -/
def updateUe (s : UeTimerState) (ue : ℕ) : Option UeTimerState := do
  let context ← s.ues.heap ue
  let s := { s with visited := s.visited ++ [ue] }
  let (released, t) := (s.timers ue).checkRelease
  let s := s.write ue t
  -- `UE--` has no effect, the loop reads `UE` anew
  if released then s.release context.rnti
  else
    let (failed, t) := t.checkUlFailure
    let s := s.write ue t
    let s ← if failed && !known context.rnti then s.release context.rnti else some s
    -- the context may be gone by now
    let _ ← s.ues.heap ue
    some (s.write ue t.tickInterrupt)

/-- `UE_iterator` from position `i` on. -/
def updateFrom : ℕ → ℕ → UeTimerState → Option UeTimerState
  | 0, _, _ => none
  | fuel + 1, i, s => do
    let entry ← s.ues.connectedUeList[i]?
    match entry with
    | none => some s
    | some ue => do
      let s ← s.updateUe known ue
      updateFrom fuel (i + 1) s

end UeTimerState

/-- `nr_mac_update_timers` -/
def nrMacUpdateTimers (known : UInt16 → Bool) (ues : NrUes) (timers : ℕ → UeTimers) (fuel : ℕ) :
    Option UeTimerState :=
  UeTimerState.updateFrom known fuel 0 ⟨ues, timers, []⟩

/-! ## What is asked for -/

/-- One turn of a UE that is not released. -/
def UeTimers.tick (t : UeTimers) : UeTimers :=
  t.checkRelease.2.checkUlFailure.2.tickInterrupt

section

variable (known : UInt16 → Bool) (ues : NrUes) (timers : ℕ → UeTimers) (ue : ℕ)

/-- The release timer of the UE expires. -/
def ReleaseExpires : Prop :=
  (timers ue).checkRelease.1 = true

/-- The timer of the UL failure expires, of a UE that the CU does not know. -/
def UlFailureExpires : Prop :=
  (timers ue).checkRelease.1 = false ∧ (timers ue).checkRelease.2.checkUlFailure.1 = true ∧
    ∃ context, ues.heap ue = some context ∧ known context.rnti = false

/-- The UE is released in this pass. -/
def ReleasedNow : Prop :=
  ReleaseExpires timers ue ∨ UlFailureExpires known ues timers ue

end

/-- Each UE of the list gets its turn once, in order. The ones whose timers expire are released, the
others stay in the list, with their timers one tick ahead. -/
def TicksOnce (known : UInt16 → Bool) (ues : NrUes) (timers : ℕ → UeTimers) (cs : List ℕ) : Prop :=
  ∃ s cs', Returns (nrMacUpdateTimers known ues timers) s ∧ s.visited = cs ∧
    s.ues.connectedUeList = padded (maxMobilesPerGnb + 1) cs' ∧ cs'.Sublist cs ∧
    ∀ ue ∈ cs, (ue ∈ cs' ↔ ¬ReleasedNow known ues timers ue) ∧
      (ReleasedNow known ues timers ue → s.ues.heap ue = none) ∧
      (¬ReleasedNow known ues timers ue →
        s.ues.heap ue = ues.heap ue ∧ s.timers ue = (timers ue).tick)

/-- Only the last UE of the list may be released, and by its release timer. -/
structure ReleasesLast (known : UInt16 → Bool) (ues : NrUes) (timers : ℕ → UeTimers)
    (cs : List ℕ) : Prop where
  release : ∀ ue ∈ cs.dropLast, ¬ReleaseExpires timers ue
  ulFailure : ∀ ue ∈ cs, ¬UlFailureExpires known ues timers ue

/-! ## One turn -/

namespace UeTimerState

variable {known : UInt16 → Bool} {s s' : UeTimerState} {ue : ℕ} {context : UeContext}

/-- The state behind the turn of a UE that stays. -/
def turn (s : UeTimerState) (ue : ℕ) : UeTimerState where
  ues := s.ues
  timers := Function.update s.timers ue (s.timers ue).tick
  visited := s.visited ++ [ue]

/-- The UE stays. -/
theorem updateUe_of_stays (hc : s.ues.heap ue = some context)
    (h : ¬ReleasedNow known s.ues s.timers ue) :
    s.updateUe known ue = some (s.turn ue) := by
  rw [ReleasedNow, not_or] at h
  obtain ⟨hrelease, hul⟩ := h
  rw [ReleaseExpires, Bool.not_eq_true] at hrelease
  have hfail : ((s.timers ue).checkRelease.2.checkUlFailure.1 && !known context.rnti) = false := by
    by_contra hne
    rw [Bool.not_eq_false, Bool.and_eq_true, Bool.not_eq_true'] at hne
    exact hul ⟨hrelease, hne.1, context, hc, hne.2⟩
  simp only [updateUe, hc, Option.bind_eq_bind, Option.bind_some, hrelease, hfail, write,
    Bool.false_eq_true, if_false, Function.update_idem]
  rfl

/-- The release timer of the UE expires. -/
theorem updateUe_of_release (hc : s.ues.heap ue = some context)
    (h : ReleaseExpires s.timers ue) :
    s.updateUe known ue = (s.ues.macRemoveNrUe context.rnti).map fun ues => ⟨ues,
      Function.update s.timers ue (s.timers ue).checkRelease.2, s.visited ++ [ue]⟩ := by
  rw [ReleaseExpires] at h
  simp only [updateUe, hc, Option.bind_eq_bind, Option.bind_some, h, if_true, release, write]

/-- The timer of the UL failure expires : the loop goes on with a context that was freed. -/
theorem updateUe_of_ulFailure (h : UlFailureExpires known s.ues s.timers ue)
    (hremove : ∀ context, s.ues.heap ue = some context → ∃ ues,
      s.ues.macRemoveNrUe context.rnti = some ues ∧ ues.heap ue = none) :
    s.updateUe known ue = none := by
  obtain ⟨hrelease, hfail, context, hc, hknown⟩ := h
  obtain ⟨ues, hues, hnone⟩ := hremove context hc
  simp only [updateUe, hc, Option.bind_eq_bind, Option.bind_some, hrelease, hfail, hknown, write,
    Bool.false_eq_true, if_false, Bool.not_false, Bool.and_self, if_true, release, hues,
    Option.map_some, hnone, Option.bind_none]

theorem visited_updateUe (h : s.updateUe known ue = some s') : s'.visited = s.visited ++ [ue] := by
  cases hc : s.ues.heap ue with
  | none => simp [updateUe, hc] at h
  | some context =>
    simp only [updateUe, hc, Option.bind_eq_bind, Option.bind_some, release, write] at h
    split_ifs at h
    · obtain ⟨ues, -, rfl⟩ := Option.map_eq_some_iff.1 h
      rfl
    · obtain ⟨s₁, hs₁, h⟩ := Option.bind_eq_some_iff.1 h
      obtain ⟨ues, -, rfl⟩ := Option.map_eq_some_iff.1 hs₁
      obtain ⟨context', -, h⟩ := Option.bind_eq_some_iff.1 h
      cases h
      rfl
    · simp only [Option.bind_some, hc, Option.some.injEq] at h
      rw [← h]

/-- No turn is taken back. -/
theorem visited_updateFrom : ∀ {fuel i : ℕ} {s s' : UeTimerState},
    updateFrom known fuel i s = some s' → s.visited <+: s'.visited
  | 0, _, _, _, h => nomatch h
  | fuel + 1, i, s, s', h => by
    rw [updateFrom] at h
    obtain ⟨entry, -, h⟩ := Option.bind_eq_some_iff.1 h
    cases entry with
    | none =>
      cases h
      exact List.prefix_rfl
    | some ue =>
      obtain ⟨s₁, hs₁, h⟩ := Option.bind_eq_some_iff.1 h
      have hprefix := visited_updateFrom h
      rw [visited_updateUe hs₁] at hprefix
      exact (List.prefix_append _ _).trans hprefix

end UeTimerState

/-! ## The loop -/

theorem getElem?_padded {n i : ℕ} {es : List ℕ} (hes : es.length ≤ n) (hi : i < n) :
    (padded n es)[i]? = some es[i]? := by
  rw [padded]
  by_cases hlt : i < es.length
  · rw [List.getElem?_append_left (by simpa), List.getElem?_map, List.getElem?_eq_getElem hlt]
    rfl
  · rw [List.getElem?_append_right (by simpa using hlt), List.getElem?_eq_none (not_lt.1 hlt),
      List.length_map, List.getElem?_replicate_of_lt (by omega)]

namespace NrUes.InvWith

variable {s : NrUes} {cs as done todo : List ℕ} {ue : ℕ} {known : UInt16 → Bool}

/-- The entry at a position of the connected list. -/
theorem entry (h : s.InvWith cs as) {i : ℕ} (hi : i ≤ maxMobilesPerGnb) :
    s.connectedUeList[i]? = some cs[i]? := by
  have hlen := h.length_le
  rw [h.connected]
  exact getElem?_padded (by omega) (Nat.lt_succ_of_le hi)

/-- A UE is taken out by its own RNTI. -/
theorem macRemove (h : s.InvWith (done ++ ue :: todo) as) {context : UeContext}
    (hc : s.heap ue = some context) :
    ∃ s', s.macRemoveNrUe context.rnti = some s' ∧ s'.InvWith (done ++ todo) as ∧
      s'.heap = Function.update s.heap ue none := by
  refine macRemoveNrUe_of_split h (by rw [hc]; rfl) fun u hu hrnti => ?_
  obtain ⟨context', hc', heq⟩ := Option.map_eq_some_iff.1 hrnti
  have hue : u = ue := h.contexts.rnti hc' hc heq
  have hnodup := (List.nodup_cons.1 (List.nodup_middle.1 (List.Nodup.of_append_left h.nodup))).1
  exact hnodup (List.mem_append_left _ (hue ▸ hu))

theorem context (h : s.InvWith (done ++ ue :: todo) as) : ∃ context, s.heap ue = some context :=
  Option.isSome_iff_exists.1 (h.isSome_of_mem_cs (by simp))

end NrUes.InvWith

namespace UeTimerState

section

variable {known : UInt16 → Bool} {ues : NrUes} {timers : ℕ → UeTimers} {s s' : UeTimerState}
  {as done todo : List ℕ} {ue : ℕ}

/-- The loop is at the end of the list. -/
theorem updateFrom_of_end (h : s.ues.InvWith done as) {i : ℕ} (hi : done.length ≤ i)
    (hmax : i ≤ maxMobilesPerGnb) (n : ℕ) : updateFrom known (n + 1) i s = some s := by
  rw [updateFrom, h.entry hmax, List.getElem?_eq_none hi]
  rfl

/-- The loop is at a UE. -/
theorem updateFrom_of_cons (h : s.ues.InvWith (done ++ ue :: todo) as) (n : ℕ) :
    updateFrom known (n + 1) done.length s =
      (s.updateUe known ue).bind (updateFrom known n (done.length + 1)) := by
  have hlen := h.length_le
  rw [List.length_append, List.length_cons] at hlen
  rw [updateFrom, h.entry (by omega), List.getElem?_append_right le_rfl, Nat.sub_self]
  rfl

theorem releasedNow_congr (hues : s.ues = ues) (htimers : s.timers ue = timers ue) :
    (ReleaseExpires s.timers ue ↔ ReleaseExpires timers ue) ∧
      (UlFailureExpires known s.ues s.timers ue ↔ UlFailureExpires known ues timers ue) := by
  simp only [ReleaseExpires, UlFailureExpires, htimers, hues, and_self]

/-- The UEs from the cursor on get their turns, when only the last one is released. -/
theorem updateFrom_of_releasesLast : ∀ {todo done : List ℕ} {s : UeTimerState}, s.ues = ues →
    ues.InvWith (done ++ todo) as → s.visited = done → (∀ u ∈ todo, s.timers u = timers u) →
    ReleasesLast known ues timers todo →
      ∃ s' cs', Returns (fun n => updateFrom known n done.length s) s' ∧
        s'.visited = done ++ todo ∧
        s'.ues.connectedUeList = padded (maxMobilesPerGnb + 1) (done ++ cs') ∧ cs'.Sublist todo ∧
        (∀ ue ∈ todo, (ue ∈ cs' ↔ ¬ReleasedNow known ues timers ue) ∧
          (ReleasedNow known ues timers ue → s'.ues.heap ue = none) ∧
          (¬ReleasedNow known ues timers ue →
            s'.ues.heap ue = ues.heap ue ∧ s'.timers ue = (timers ue).tick)) ∧
        ∀ u ∉ todo, s'.timers u = s.timers u ∧ s'.ues.heap u = ues.heap u
  | [], done, s, hues, hinv, hvisited, _, _ => by
    rw [List.append_nil] at hinv
    have hlen := hinv.length_le
    refine ⟨s, [], ⟨1, fun n hn => ?_⟩, by rw [hvisited, List.append_nil], ?_, List.Sublist.refl [],
      by simp, fun u _ => ⟨rfl, by rw [hues]⟩⟩
    · obtain ⟨n, rfl⟩ := Nat.exists_eq_add_of_le' hn
      exact updateFrom_of_end (hues ▸ hinv) le_rfl (by omega) n
    · rw [List.append_nil, hues, hinv.connected]
  | ue :: todo, done, s, hues, hinv, hvisited, htimers, hlast => by
    obtain ⟨context, hc⟩ := hinv.context
    have hue : s.timers ue = timers ue := htimers ue List.mem_cons_self
    have hstep : ∀ n, updateFrom known (n + 1) done.length s =
        (s.updateUe known ue).bind (updateFrom known n (done.length + 1)) :=
      updateFrom_of_cons (hues ▸ hinv)
    have hul : ¬UlFailureExpires known ues timers ue := hlast.ulFailure ue List.mem_cons_self
    have hnot : ue ∉ todo := by
      have hnodup := List.Nodup.of_append_left hinv.nodup
      exact (List.nodup_cons.1 (List.Nodup.of_append_right hnodup)).1
    obtain ⟨hcongr, hcongr'⟩ := @releasedNow_congr known ues timers s ue hues hue
    by_cases hrelease : ReleaseExpires timers ue
    · -- it is the last one
      obtain rfl : todo = [] := by
        by_contra hne
        refine hlast.release ue ?_ hrelease
        rw [List.dropLast_cons_of_ne_nil hne]
        exact List.mem_cons_self
      have hlen := hinv.length_le
      rw [List.length_append, List.length_singleton] at hlen
      obtain ⟨ues', hremove, hinv', hheap⟩ := hinv.macRemove hc
      rw [List.append_nil] at hinv'
      have hupdate := @updateUe_of_release known s ue context (by rw [hues, hc]) (hcongr.2 hrelease)
      rw [hues, hremove, Option.map_some] at hupdate
      refine ⟨⟨ues', Function.update s.timers ue (s.timers ue).checkRelease.2, s.visited ++ [ue]⟩,
        [], ⟨2, fun n hn => ?_⟩, by rw [hvisited], ?_, List.nil_sublist _, ?_, fun u hu => ?_⟩
      · obtain ⟨n, rfl⟩ := Nat.exists_eq_add_of_le' hn
        dsimp only
        rw [hstep, hupdate, Option.bind_some]
        exact updateFrom_of_end hinv' (Nat.le_succ _) (by omega) n
      · rw [List.append_nil, hinv'.connected]
      · intro u hu
        obtain rfl := List.mem_singleton.1 hu
        have hnow : ReleasedNow known ues timers u := Or.inl hrelease
        refine ⟨by simp [hnow], fun _ => ?_, fun hstays => absurd hnow hstays⟩
        dsimp only
        rw [hheap, Function.update_self]
      · have hne : u ≠ ue := fun heq => hu (List.mem_singleton.2 heq)
        exact ⟨Function.update_of_ne hne _ _, by rw [hheap, Function.update_of_ne hne]⟩
    · have hstays : ¬ReleasedNow known ues timers ue := not_or.2 ⟨hrelease, hul⟩
      have hupdate := @updateUe_of_stays known s ue context (by rw [hues, hc])
        (not_or.2 ⟨mt hcongr.1 hrelease, mt hcongr'.1 hul⟩)
      have hlast' : ReleasesLast known ues timers todo := by
        refine ⟨fun u hu => hlast.release u ?_, fun u hu =>
          hlast.ulFailure u (List.mem_cons_of_mem ue hu)⟩
        have hne : todo ≠ [] := List.ne_nil_of_mem (List.dropLast_subset todo hu)
        rw [List.dropLast_cons_of_ne_nil hne]
        exact List.mem_cons_of_mem ue hu
      obtain ⟨s', cs', hret, hvisited', hconnected, hsub, hturns, hothers⟩ :=
        @updateFrom_of_releasesLast todo (done ++ [ue]) (s.turn ue) hues (by simpa using hinv)
          (congrArg (· ++ [ue]) hvisited)
          (fun u hu => (Function.update_of_ne (ne_of_mem_of_not_mem hu hnot) _ _).trans
            (htimers u (List.mem_cons_of_mem ue hu))) hlast'
      obtain ⟨htick, hheap⟩ := hothers ue hnot
      refine ⟨s', ue :: cs', ?_, by simpa using hvisited', by simpa using hconnected,
        hsub.cons_cons ue, ?_, fun u hu => ?_⟩
      · refine Returns.of_succ hstep ?_
        rw [hupdate]
        rwa [List.length_append, List.length_singleton] at hret
      · intro u hu
        rcases List.mem_cons.1 hu with rfl | hu
        · refine ⟨by simp [hstays], fun hnow => absurd hnow hstays, fun _ => ⟨hheap, ?_⟩⟩
          exact htick.trans ((Function.update_self ..).trans (congrArg _ hue))
        · obtain ⟨hiff, hturn⟩ := hturns u hu
          refine ⟨?_, hturn⟩
          rw [List.mem_cons, ← hiff]
          exact or_iff_right (ne_of_mem_of_not_mem hu hnot)
      · rw [List.mem_cons, not_or] at hu
        obtain ⟨htick', hheap'⟩ := hothers u hu.2
        exact ⟨htick'.trans (Function.update_of_ne hu.1 _ _), hheap'⟩

/-- Otherwise the loop fails, or passes over a UE. -/
theorem updateFrom_of_not_releasesLast : ∀ {todo done : List ℕ} {s s' : UeTimerState} {n : ℕ},
    s.ues = ues → ues.InvWith (done ++ todo) as → s.visited = done →
    (∀ u ∈ todo, s.timers u = timers u) → ¬ReleasesLast known ues timers todo →
    updateFrom known n done.length s = some s' → s'.visited ≠ done ++ todo
  | [], done, s, s', n, _, _, _, _, hlast, _ => absurd ⟨by simp, by simp⟩ hlast
  | ue :: todo, done, s, s', 0, _, _, _, _, _, h => nomatch h
  | ue :: todo, done, s, s', n + 1, hues, hinv, hvisited, htimers, hlast, h => by
    obtain ⟨context, hc⟩ := hinv.context
    have hue : s.timers ue = timers ue := htimers ue List.mem_cons_self
    rw [updateFrom_of_cons (hues ▸ hinv)] at h
    have hnodup := List.Nodup.of_append_left hinv.nodup
    have hnot : ue ∉ todo := (List.nodup_cons.1 (List.Nodup.of_append_right hnodup)).1
    obtain ⟨hcongr, hcongr'⟩ := @releasedNow_congr known ues timers s ue hues hue
    obtain ⟨ues', hremove, hinv', hheap⟩ := hinv.macRemove hc
    by_cases hul : UlFailureExpires known ues timers ue
    · rw [updateUe_of_ulFailure (hcongr'.2 hul)] at h
      · cases h
      · intro context' hc'
        rw [hues, hc, Option.some.injEq] at hc'
        subst hc'
        exact ⟨ues', by rw [hues, hremove], by rw [hheap, Function.update_self]⟩
    by_cases hrelease : ReleaseExpires timers ue
    · -- the next one moves to the place of this one, and the cursor is behind it
      rw [updateUe_of_release (by rw [hues, hc]) (hcongr.2 hrelease), hues, hremove, Option.map_some,
        Option.bind_some, hvisited] at h
      rcases todo with _ | ⟨r, todo⟩
      · exact absurd ⟨by simp, by simpa using hul⟩ hlast
      cases n with
      | zero => cases h
      | succ n =>
        have hinv'' : ues'.InvWith ((done ++ [r]) ++ todo) as := by simpa using hinv'
        have hlength : done.length + 1 = (done ++ [r]).length := by simp
        have hmax := hinv'.length_le
        rw [List.length_append, List.length_cons] at hmax
        rw [hlength] at h
        intro heq
        rcases todo with _ | ⟨x, todo⟩
        · rw [updateFrom_of_end (by simpa using hinv'') le_rfl (by omega), Option.some.injEq] at h
          rw [← h] at heq
          simpa using congrArg List.length heq
        · rw [updateFrom_of_cons hinv''] at h
          obtain ⟨s₁, hs₁, h⟩ := Option.bind_eq_some_iff.1 h
          have hprefix := visited_updateFrom h
          rw [visited_updateUe hs₁, heq] at hprefix
          have hx : x = r := by simpa [hvisited] using hprefix
          simp [hx, List.nodup_append] at hnodup
    · rw [updateUe_of_stays (by rw [hues, hc])
        (not_or.2 ⟨mt hcongr.1 hrelease, mt hcongr'.1 hul⟩), Option.bind_some] at h
      have hlast' : ¬ReleasesLast known ues timers todo := by
        rintro ⟨hrel, hulf⟩
        refine hlast ⟨fun u hu => ?_, fun u hu => ?_⟩
        · by_cases hne : todo = []
          · subst hne
            simp at hu
          · rw [List.dropLast_cons_of_ne_nil hne, List.mem_cons] at hu
            rcases hu with rfl | hu
            · exact hrelease
            · exact hrel u hu
        · rcases List.mem_cons.1 hu with rfl | hu
          · exact hul
          · exact hulf u hu
      have hih := @updateFrom_of_not_releasesLast todo (done ++ [ue]) (s.turn ue) s' n hues
        (by simpa using hinv) (congrArg (· ++ [ue]) hvisited) (fun u hu =>
          (Function.update_of_ne (ne_of_mem_of_not_mem hu hnot) _ _).trans
            (htimers u (List.mem_cons_of_mem ue hu))) hlast' (by simpa using h)
      simpa using hih

end

end UeTimerState

section

variable {known : UInt16 → Bool} {ues : NrUes} {timers : ℕ → UeTimers} {cs as : List ℕ}

theorem ticksOnce_of_releasesLast (h : ues.InvWith cs as)
    (hlast : ReleasesLast known ues timers cs) : TicksOnce known ues timers cs := by
  obtain ⟨s, cs', hret, hvisited, hconnected, hsub, hturns, -⟩ :=
    @UeTimerState.updateFrom_of_releasesLast known ues timers as cs [] ⟨ues, timers, []⟩ rfl h rfl
      (fun _ _ => rfl) hlast
  exact ⟨s, cs', hret, hvisited, hconnected, hsub, hturns⟩

theorem not_ticksOnce (h : ues.InvWith cs as) (hlast : ¬ReleasesLast known ues timers cs) :
    ¬TicksOnce known ues timers cs := by
  rintro ⟨s, cs', ⟨n, hret⟩, hvisited, -⟩
  exact @UeTimerState.updateFrom_of_not_releasesLast known ues timers as cs [] ⟨ues, timers, []⟩ s n
    rfl h rfl (fun _ _ => rfl) hlast (hret n le_rfl) hvisited

/-- Every UE gets its turn exactly if no UE is released before the last one, and none for its UL
failure. -/
theorem updateTimers_iff (h : ues.InvWith cs as) :
    TicksOnce known ues timers cs ↔ ReleasesLast known ues timers cs :=
  ⟨fun hticks => by_contra fun hlast => not_ticksOnce h hlast hticks, ticksOnce_of_releasesLast h⟩

end

/-! ## Two UEs -/

/-- Two connected UEs. -/
def twoUes : NrUes where
  heap ue := if ue = 0 then some ⟨0x1234, 0, false⟩ else if ue = 1 then some ⟨0x5678, 1, false⟩
    else none
  next := 2
  freed := []
  connectedUeList := padded (maxMobilesPerGnb + 1) [0, 1]
  accessUeList := padded (nrNbRaProcMax + 1) []
  uidAllocator := 3 :: List.replicate 32 0

theorem heap_twoUes {ue : ℕ} {context : UeContext} : twoUes.heap ue = some context ↔
    ue = 0 ∧ context = ⟨0x1234, 0, false⟩ ∨ ue = 1 ∧ context = ⟨0x5678, 1, false⟩ := by
  unfold twoUes
  dsimp only
  split_ifs with h0 h1
  · simp [h0, eq_comm]
  · simp [h1, eq_comm]
  · simp [h0, h1]

theorem uidBit_twoUes (uid : ℕ) : uidBit twoUes.uidAllocator uid = decide (uid < 2) := by
  rcases lt_or_ge uid 32 with hlt | hge
  · change uidBit (3 :: List.replicate 32 0) uid = _
    rw [uidBit_cons_of_lt hlt]
    revert uid
    decide
  · obtain ⟨uid, rfl⟩ := Nat.exists_eq_add_of_le' hge
    change uidBit (3 :: List.replicate 32 0) (uid + 32) = _
    rw [uidBit_cons_add, decide_eq_false (by omega), uidBit, List.getD_eq_getElem?_getD,
      List.getElem?_replicate]
    split_ifs <;> simp

theorem inv_twoUes : twoUes.InvWith [0, 1] [] where
  contexts := {
    rnti := by
      intro ue ue' c c' h h' heq
      rw [heap_twoUes] at h h'
      rcases h with ⟨rfl, rfl⟩ | ⟨rfl, rfl⟩ <;> rcases h' with ⟨rfl, rfl⟩ | ⟨rfl, rfl⟩ <;> simp_all
    uid := by
      intro ue ue' c c' h h' heq
      rw [heap_twoUes] at h h'
      rcases h with ⟨rfl, rfl⟩ | ⟨rfl, rfl⟩ <;> rcases h' with ⟨rfl, rfl⟩ | ⟨rfl, rfl⟩ <;> simp_all
    uid_lt := by
      intro ue c h
      rw [heap_twoUes] at h
      rcases h with ⟨rfl, rfl⟩ | ⟨rfl, rfl⟩ <;> decide
    bits := by
      intro uid
      rw [uidBit_twoUes, decide_eq_true_iff]
      simp only [heap_twoUes]
      constructor
      · intro h
        rcases (by omega : uid = 0 ∨ uid = 1) with rfl | rfl
        · exact ⟨0, _, Or.inl ⟨rfl, rfl⟩, rfl⟩
        · exact ⟨1, _, Or.inr ⟨rfl, rfl⟩, rfl⟩
      · rintro ⟨ue, c, ⟨rfl, rfl⟩ | ⟨rfl, rfl⟩, rfl⟩ <;> decide
    words := by decide
    freed := by
      intro ue
      simp only [twoUes, List.not_mem_nil, false_iff, not_and]
      intro hlt
      rcases (by omega : ue = 0 ∨ ue = 1) with rfl | rfl <;> simp
    freed_nodup := List.nodup_nil
    fresh := by
      intro ue h
      have h2 : 2 ≤ ue := h
      simp [twoUes, show ue ≠ 0 by omega, show ue ≠ 1 by omega] }
  connected := rfl
  access := rfl
  access_length := by decide
  nodup := by decide
  live ue := by
    rw [Option.isSome_iff_exists]
    simp only [heap_twoUes, List.append_nil, List.mem_cons, List.not_mem_nil, or_false]
    constructor
    · rintro ⟨c, ⟨rfl, -⟩ | ⟨rfl, -⟩⟩
      · exact Or.inl rfl
      · exact Or.inr rfl
    · rintro (rfl | rfl)
      · exact ⟨_, Or.inl ⟨rfl, rfl⟩⟩
      · exact ⟨_, Or.inr ⟨rfl, rfl⟩⟩
  ra := by
    intro ue c h
    rw [heap_twoUes] at h
    rcases h with ⟨rfl, rfl⟩ | ⟨rfl, rfl⟩ <;> simp

/-- Timers that do not run, but for the release timer. -/
def timersWith (releaseTimer : ℕ) : UeTimers :=
  ⟨releaseTimer, false, 0, ⟨false, false, 0, 0, 0⟩, .inSync, 1⟩

/-- The last of two UEs is released. -/
theorem updateTimers_iff_last : TicksOnce (fun _ => true) twoUes
    (fun ue => timersWith (if ue = 1 then 1 else 0)) [0, 1] := by
  refine (updateTimers_iff inv_twoUes).2 ⟨?_, ?_⟩
  · simp [ReleaseExpires, UeTimers.checkRelease, timersWith]
  · simp [UlFailureExpires, UeTimers.checkRelease, UeTimers.checkUlFailure, timersWith]

/-- The first of two UEs is released, and the second one has no turn. -/
theorem not_updateTimers : ¬∀ known ues timers cs as, ues.InvWith cs as →
    TicksOnce known ues timers cs := by
  intro h
  refine not_ticksOnce inv_twoUes (fun hlast => ?_) (h (fun _ => true) twoUes
    (fun ue => timersWith (if ue = 0 then 1 else 0)) [0, 1] [] inv_twoUes)
  exact hlast.release 0 (by decide) rfl

end NrStack
