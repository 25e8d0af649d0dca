import NrStack.Library.Run

/-!
# Synchronous calls of an xApp

A call of the UI thread (report, remove report, control) sends a request and waits in
`cond_wait_sync_ui` for the event loop to handle the response and call `signal_sync_ui`. The
wait first resets the flag, after the request is on its way.

`released_iff` : over any run, no handled response leaves the UI thread waiting exactly if no
wait begins after the signal for its request. A signal that comes before is lost, and the
thread waits until the timeout ends the program (`missed_step`).
-/

namespace NrStack

/-- The calls of the UI thread. -/
inductive SyncCall where
  | reportSm
  | rmReportSm
  | controlSm

/-- The steps of a call. -/
inductive UiStep where
  /-- `add_pending_event_xapp` -/
  | addPending
  /-- `e2ap_send_bytes_xapp` -/
  | send
  /-- `cond_wait_sync_ui`, up to where `pthread_cond_timedwait` gives the mutex back. -/
  | condWait

/-- `report_sm_sync_xapp`, `rm_report_sm_sync_xapp` and `control_sm_sync_xapp` : only the
first one adds its pending event before it sends the request. -/
def SyncCall.steps : SyncCall → List UiStep
  | .reportSm => [.addPending, .send, .condWait]
  | .rmReportSm => [.send, .addPending, .condWait]
  | .controlSm => [.send, .addPending, .condWait]

/-- Where the UI thread is : in a call with its steps still to take, or between calls when there
are none, or in the loop of `cond_wait_sync_ui`. -/
inductive UiThread where
  | run (todo : List UiStep)
  | waiting

/-- The response to the last request. -/
inductive Response where
  | none
  | expected
  /-- The handler has removed the pending event, and has yet to signal. -/
  | found
  | handled
  deriving DecidableEq

/-- `sync_ui_t` -/
structure SyncUi where
  flagSync : Bool
  msgAck : Bool

structure XappSync where
  sync : SyncUi
  ui : UiThread
  pending : Bool
  response : Response

/-- The atomic steps of the two threads. -/
inductive SyncAct where
  | call (c : SyncCall)
  | ui
  | rmPending
  | signal
  | wake

/-- `init_sync_ui` -/
def XappSync.init : XappSync where
  sync := ⟨false, false⟩
  ui := .run []
  pending := false
  response := .none

/-- `none` is a step that cannot be taken, or one that ends the program with an assertion. -/
def XappSync.step (s : XappSync) : SyncAct → Option XappSync
  | .call c =>
    match s.ui with
    | .run [] => some { s with ui := .run c.steps, response := .none }
    | _ => none
  | .ui =>
    match s.ui with
    | .run (.addPending :: todo) => some { s with ui := .run todo, pending := true }
    | .run (.send :: todo) => some { s with ui := .run todo, response := .expected }
    | .run (.condWait :: _) => some { s with sync := ⟨false, false⟩, ui := .waiting }
    | _ => none
  | .rmPending =>
    if s.response = .expected ∧ s.pending = true then
      some { s with pending := false, response := .found }
    else none
  | .signal =>
    if s.response = .found then some { s with sync := ⟨true, true⟩, response := .handled }
    else none
  | .wake =>
    match s.ui with
    | .waiting =>
      -- without the flag a wakeup, spurious or not, goes back to the wait
      if s.sync.flagSync = false then some s
      else if s.sync.msgAck = true then some { s with ui := .run [] } else none
    | _ => none

/-- The response has been handled, and the UI thread waits without the flag. -/
def XappSync.Missed (s : XappSync) : Prop :=
  s.ui = .waiting ∧ s.response = .handled ∧ s.sync.flagSync = false

/-- The response is not yet handled when the wait for it begins. -/
def WaitsFirst (s : XappSync) (a : SyncAct) : Prop :=
  a = .ui → ∀ todo, s.ui = .run (.condWait :: todo) → s.response ≠ .handled

variable {s s' : XappSync} {a : SyncAct}

theorem released_step (h : ¬ s.Missed) (hs : s.step a = some s') (ha : WaitsFirst s a) :
    ¬ s'.Missed := by
  rintro ⟨hui, hresp, hflag⟩
  cases a with
  | call c =>
    simp only [XappSync.step] at hs
    split at hs
    · obtain rfl := Option.some.inj hs
      cases hresp
    · cases hs
  | ui =>
    simp only [XappSync.step] at hs
    split at hs
    · obtain rfl := Option.some.inj hs
      cases hui
    · obtain rfl := Option.some.inj hs
      cases hui
    · rename_i todo hrun
      obtain rfl := Option.some.inj hs
      exact ha rfl todo hrun hresp
    · cases hs
  | rmPending =>
    simp only [XappSync.step] at hs
    split_ifs at hs
    obtain rfl := Option.some.inj hs
    cases hresp
  | signal =>
    simp only [XappSync.step] at hs
    split_ifs at hs
    obtain rfl := Option.some.inj hs
    cases hflag
  | wake =>
    simp only [XappSync.step] at hs
    split at hs
    · split_ifs at hs
      · obtain rfl := Option.some.inj hs
        exact h ⟨hui, hresp, hflag⟩
      · obtain rfl := Option.some.inj hs
        cases hui
    · cases hs

theorem missed_of_not_waitsFirst (hs : s.step a = some s') (ha : ¬ WaitsFirst s a) :
    s'.Missed := by
  unfold WaitsFirst at ha
  push Not at ha
  obtain ⟨rfl, todo, hui, hresp⟩ := ha
  simp only [XappSync.step, hui] at hs
  obtain rfl := Option.some.inj hs
  exact ⟨rfl, hresp, rfl⟩

/-- A missed signal is not made up for by any step. -/
theorem missed_step (h : s.Missed) (hs : s.step a = some s') : s'.Missed := by
  obtain ⟨hui, hresp, hflag⟩ := h
  cases a with
  | call => simp [XappSync.step, hui] at hs
  | ui => simp [XappSync.step, hui] at hs
  | rmPending => simp [XappSync.step, hresp] at hs
  | signal => simp [XappSync.step, hresp] at hs
  | wake =>
    simp only [XappSync.step, hui, hflag, if_true] at hs
    obtain rfl := Option.some.inj hs
    exact ⟨hui, hresp, hflag⟩

/-- Over any run the signals release the UI thread exactly if every wait begins before the
signal for its request. -/
theorem released_iff (as : List SyncAct) :
    AllStates XappSync.step (fun s => ¬ s.Missed) .init as ↔
      AllSteps XappSync.step WaitsFirst .init as :=
  allStates_iff_allSteps (fun _ h => h) (fun _ _ _ h hs ha => released_step h hs ha)
    (fun _ _ _ _ hs ha h => h (missed_of_not_waitsFirst hs ha)) as .init fun h => nomatch h.1

/-- The response to a report is handled before the wait begins. -/
theorem not_released : ¬ ∀ as : List SyncAct,
    AllStates XappSync.step (fun s => ¬ s.Missed) .init as := by
  intro hall
  have hlast := hall [.call .reportSm, .ui, .ui, .rmPending, .signal, .ui]
  exact (hlast.2 _ rfl).2 _ rfl |>.2 _ rfl |>.2 _ rfl |>.2 _ rfl |>.2 _ rfl ⟨rfl, rfl, rfl⟩

end NrStack
