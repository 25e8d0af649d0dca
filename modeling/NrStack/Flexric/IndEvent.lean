import NrStack.Flexric.RicGenId
import Mathlib.Data.Multiset.Filter

/-!
# The subscriptions of an E2 agent

The table `ind_event` of the agent : the timer of a periodic subscription and its event, and
the descriptor 0 for every aperiodic one. A delete request looks up the event by its id, takes
it out of the side of the events, and then takes the first entry with its descriptor out of the
other side. With two aperiodic subscriptions this may be the entry of the other one, and the
assertion of `bi_map_extract_right` fails.

`indEvent_iff` : in the runs whose deletes meet their own entry the two sides hold the same
subscriptions, and the next delete is right exactly where it meets its own entry.
-/

namespace NrStack

/-- `subscription_ans_e` -/
inductive SubscriptionAns where
  | periodic
  | aperiodic
  deriving DecidableEq

variable {σ : Type}

/-- `ind_event_t` : `sm` is the service model of the subscription, a pointer. -/
structure IndEvent (σ : Type) where
  ricId : RicGenId
  sm : Option σ
  actionId : Nat
  type : SubscriptionAns

/-- `cmp_ind_event` -/
def cmpIndEvent (m0 m1 : IndEvent σ) : Int :=
  cmpRicGenId m0.ricId m1.ricId

/-- `eq_ind_event`, on the id that the event begins with. -/
def eqIndEvent (ricId : RicGenId) (key : IndEvent σ) : Bool :=
  eqRicGenId ricId key.ricId

/-- `sm_ag_if_ans_subs_t` : the answer of a service model, with the period. -/
inductive AnsSubs where
  | periodic (ms : Nat)
  | aperiodic
  deriving DecidableEq

/-- `ric_subscription_request_t` : the fields that the agent reads. -/
structure SubscriptionRequest where
  ricId : RicGenId
  lenAction : Nat
  report : Bool
  actionId : Nat

/-- What a delete does beside the table. -/
inductive StopAction (σ : Type) where
  | freeActDef (sm : σ)
  | freeSubsAperiodic (ricReqId : Nat)
  | rmFd (fd : Nat)

/-- `e2_agent_t` : the table and the timers that `asio` watches. -/
structure E2Agent (σ : Type) where
  indEvent : BiMap Nat (IndEvent σ)
  timers : List Nat

namespace E2Agent

def init : E2Agent σ where
  indEvent := .init
  timers := []

/-- `e2ap_handle_subscription_request_agent` : `sm` is the service model of the RAN function,
`subs` its answer, and `fd` the descriptor of the timer that is made for it. -/
def subscriptionRequest (ag : E2Agent σ) (sr : SubscriptionRequest) (sm : σ) (subs : AnsSubs)
    (fd : Nat) : Option (E2Agent σ) :=
  if sr.lenAction ≠ 1 ∨ sr.report = false then none
  else match subs with
  | .periodic ms =>
    if 10001 ≤ ms then none
    else do
      let ev : IndEvent σ := ⟨sr.ricId, some sm, sr.actionId, .periodic⟩
      let indEvent ← ag.indEvent.insert cmpFd cmpIndEvent fd ev
      some ⟨indEvent, fd :: ag.timers⟩
  | .aperiodic => do
    let ev : IndEvent σ := ⟨sr.ricId, some sm, sr.actionId, .aperiodic⟩
    let indEvent ← ag.indEvent.insert cmpFd cmpIndEvent 0 ev
    some { ag with indEvent := indEvent }

/-- `rm_fd_asio_agent` -/
def rmFd (ag : E2Agent σ) (fd : Nat) : Option (E2Agent σ) :=
  if fd ∈ ag.timers then some { ag with timers := ag.timers.erase fd } else none

/-- `stop_ind_event`, for service models of which some have a `free_act_def`. -/
def stopIndEvent (freeActDef : σ → Bool) (ag : E2Agent σ) (id : RicGenId) :
    Option (Bool × List (StopAction σ) × E2Agent σ) := do
  let tmp : IndEvent σ := ⟨id, none, 0, .periodic⟩
  let it ← ag.indEvent.right.findKey (eqIndEvent id)
  match it with
  | none => some (false, [], ag)
  | some (indEv, _) => do
    let sm ← indEv.sm
    let actDef := if freeActDef sm then [.freeActDef sm] else []
    let aper := if indEv.type = .aperiodic then [.freeSubsAperiodic id.ricReqId] else []
    let (fd, indEvent) ← ag.indEvent.extractRight cmpFd cmpIndEvent tmp
    let ag := { ag with indEvent := indEvent }
    if fd ≠ 0 then do
      let ag ← ag.rmFd fd
      some (true, actDef ++ aper ++ [.rmFd fd], ag)
    else some (true, actDef ++ aper, ag)

end E2Agent

variable {ag ag' : E2Agent σ} {m : Multiset (Nat × IndEvent σ)} {fd : Nat} {ev : IndEvent σ}
  {plugin : Nat → σ} {freeActDef : σ → Bool}

/-! ## Comparisons -/

theorem isCmp_indEvent : IsCmp (cmpIndEvent (σ := σ)) :=
  (isCmp_ricGenId).comap IndEvent.ricId

theorem cmpIndEvent_eq_zero {m0 m1 : IndEvent σ} :
    cmpIndEvent m0 m1 = 0 ↔ m0.ricId = m1.ricId :=
  cmpRicGenId_eq_zero

theorem eqIndEvent_iff {id : RicGenId} {key : IndEvent σ} :
    eqIndEvent id key = true ↔ id = key.ricId :=
  eqRicGenId_iff

/-! ## Runs -/

/-- If the subscription `i` is aperiodic, the search for the descriptor 0 meets its entry. -/
def MeetsAperiodic (ag : E2Agent σ) (m : Multiset (Nat × IndEvent σ)) (i : RicGenId) : Prop :=
  ∀ ev e fd, (0, ev) ∈ m → ev.ricId = i → ag.indEvent.left.meet cmpFd 0 = some (fd, e) →
    e.ricId = i

/-- The runs with subscriptions of different ids, each with the service model of its RAN
function, and with deletes that meet their own entry. A new timer has a descriptor that no
open timer has. -/
inductive AgentRun (plugin : Nat → σ) (freeActDef : σ → Bool) :
    E2Agent σ → Multiset (Nat × IndEvent σ) → Prop
  | init : AgentRun plugin freeActDef .init 0
  | periodic {ag ag' : E2Agent σ} {m : Multiset (Nat × IndEvent σ)} {sr : SubscriptionRequest}
      {ms fd : Nat} (h : AgentRun plugin freeActDef ag m) (hid : ∀ e ∈ m, e.2.ricId ≠ sr.ricId)
      (hfd : fd ≠ 0 ∧ fd ∉ ag.timers)
      (hop : ag.subscriptionRequest sr (plugin sr.ricId.ranFuncId) (.periodic ms) fd = some ag') :
      AgentRun plugin freeActDef ag'
        ((fd, ⟨sr.ricId, some (plugin sr.ricId.ranFuncId), sr.actionId, .periodic⟩) ::ₘ m)
  | aperiodic {ag ag' : E2Agent σ} {m : Multiset (Nat × IndEvent σ)} {sr : SubscriptionRequest}
      {fd : Nat} (h : AgentRun plugin freeActDef ag m) (hid : ∀ e ∈ m, e.2.ricId ≠ sr.ricId)
      (hop : ag.subscriptionRequest sr (plugin sr.ricId.ranFuncId) .aperiodic fd = some ag') :
      AgentRun plugin freeActDef ag'
        ((0, ⟨sr.ricId, some (plugin sr.ricId.ranFuncId), sr.actionId, .aperiodic⟩) ::ₘ m)
  | delete {ag ag' : E2Agent σ} {m : Multiset (Nat × IndEvent σ)} {fd : Nat} {ev : IndEvent σ}
      {found : Bool} {acts : List (StopAction σ)}
      (h : AgentRun plugin freeActDef ag ((fd, ev) ::ₘ m))
      (hok : MeetsAperiodic ag ((fd, ev) ::ₘ m) ev.ricId)
      (hop : ag.stopIndEvent freeActDef ev.ricId = some (found, acts, ag')) :
      AgentRun plugin freeActDef ag' m
  | unknown {ag ag' : E2Agent σ} {m : Multiset (Nat × IndEvent σ)} {i : RicGenId} {found : Bool}
      {acts : List (StopAction σ)} (h : AgentRun plugin freeActDef ag m)
      (hid : ∀ e ∈ m, e.2.ricId ≠ i)
      (hop : ag.stopIndEvent freeActDef i = some (found, acts, ag')) :
      AgentRun plugin freeActDef ag' m

/-- Both sides hold the subscriptions, of different ids, and the timers are those of the
periodic ones. -/
structure AgentInv (plugin : Nat → σ) (ag : E2Agent σ) (m : Multiset (Nat × IndEvent σ)) :
    Prop where
  table : BiInv cmpFd cmpIndEvent ag.indEvent m
  ids : (m.map fun e => e.2.ricId).Nodup
  timers : (ag.timers : Multiset Nat) = (m.map Prod.fst).filter (· ≠ 0)
  distinct : ag.timers.Nodup
  type : ∀ e ∈ m, e.1 = 0 ↔ e.2.type = .aperiodic
  sm : ∀ e ∈ m, e.2.sm = some (plugin e.2.ricId.ranFuncId)

theorem agentInv_init : AgentInv plugin .init 0 where
  table := biInv_init
  ids := Multiset.nodup_zero
  timers := rfl
  distinct := List.nodup_nil
  type := by simp
  sm := by simp

theorem AgentInv.id_inj (h : AgentInv plugin ag m) {a b : Nat × IndEvent σ} (ha : a ∈ m)
    (hb : b ∈ m) (hab : a.2.ricId = b.2.ricId) : a = b :=
  Multiset.inj_on_of_nodup_map h.ids _ ha _ hb hab

/-- Different subscriptions have different timers. -/
theorem AgentInv.fd_inj (h : AgentInv plugin ag m) {a b : Nat × IndEvent σ} (ha : a ∈ m)
    (hb : b ∈ m) (hab : a.1 = b.1) (hne : a.1 ≠ 0) : a = b := by
  by_contra hab'
  obtain ⟨m', rfl⟩ := Multiset.exists_cons_of_mem ha
  have hb' : b ∈ m' := (Multiset.mem_cons.mp hb).resolve_left (Ne.symm hab')
  have hnd : ((((a ::ₘ m').map Prod.fst).filter (· ≠ 0)) : Multiset Nat).Nodup := by
    rw [← h.timers]
    exact Multiset.coe_nodup.mpr h.distinct
  rw [Multiset.map_cons, Multiset.filter_cons_of_pos (p := fun x => x ≠ 0) _ hne] at hnd
  refine (Multiset.nodup_cons.mp hnd).1 (Multiset.mem_filter.mpr ⟨?_, hne⟩)
  exact hab ▸ Multiset.mem_map_of_mem Prod.fst hb'

theorem AgentInv.mem_timers (h : AgentInv plugin ag m) {a : Nat × IndEvent σ} (ha : a ∈ m)
    (hne : a.1 ≠ 0) : a.1 ∈ ag.timers := by
  rw [← Multiset.mem_coe, h.timers]
  exact Multiset.mem_filter.mpr ⟨Multiset.mem_map_of_mem Prod.fst ha, hne⟩

/-! ## Look-ups -/

/-- A subscription is found by its id. -/
theorem AgentInv.find_right (h : AgentInv plugin ag m) (hev : (fd, ev) ∈ m) :
    ag.indEvent.right.findKey (eqIndEvent ev.ricId) = some (some (ev, fd)) := by
  obtain ⟨e, he⟩ := h.table.right.findKey_ends (eqIndEvent ev.ricId)
  cases e with
  | none =>
    have := h.table.right.findKey_none.mp he (ev, fd) (mem_map_swap.mpr hev)
    simp [eqIndEvent, eqRicGenId] at this
  | some e =>
    obtain ⟨hmem, hid⟩ := h.table.right.findKey_some he
    obtain ⟨rfl, rfl⟩ := Prod.mk.inj
      (h.id_inj hev (mem_map_swap.mp hmem) (eqIndEvent_iff.mp hid))
    exact he

/-- An id that no subscription has is not found. -/
theorem AgentInv.find_right_none (h : AgentInv plugin ag m) {i : RicGenId}
    (hid : ∀ e ∈ m, e.2.ricId ≠ i) : ag.indEvent.right.findKey (eqIndEvent i) = some none := by
  refine h.table.right.findKey_none.mpr fun e he => ?_
  have := hid (e.2, e.1) (mem_map_swap.mp he)
  rw [Bool.eq_false_iff, Ne, eqIndEvent_iff]
  exact Ne.symm this

/-- A periodic subscription is found by its timer. -/
theorem AgentInv.find_left (h : AgentInv plugin ag m) (hev : (fd, ev) ∈ m) (hfd : fd ≠ 0) :
    ag.indEvent.left.findKey (fun k => fd = k) = some (some (fd, ev)) := by
  obtain ⟨e, he⟩ := h.table.left.findKey_ends fun k => decide (fd = k)
  cases e with
  | none =>
    have := h.table.left.findKey_none.mp he (fd, ev) hev
    simp at this
  | some e =>
    obtain ⟨hmem, hid⟩ := h.table.left.findKey_some he
    obtain rfl : (fd, ev) = e := h.fd_inj hev hmem (of_decide_eq_true hid) hfd
    exact he

/-! ## Subscriptions -/

theorem AgentInv.cons (h : AgentInv plugin ag m) {sr : SubscriptionRequest}
    {type : SubscriptionAns} {indEvent : BiMap Nat (IndEvent σ)} {timers : List Nat}
    (hid : ∀ e ∈ m, e.2.ricId ≠ sr.ricId)
    (ht : BiInv cmpFd cmpIndEvent indEvent
      ((fd, ⟨sr.ricId, some (plugin sr.ricId.ranFuncId), sr.actionId, type⟩) ::ₘ m))
    (htype : fd = 0 ↔ type = .aperiodic) (hnd : timers.Nodup)
    (htimers : (timers : Multiset Nat) = (fd ::ₘ m.map Prod.fst).filter (· ≠ 0)) :
    AgentInv plugin ⟨indEvent, timers⟩
      ((fd, ⟨sr.ricId, some (plugin sr.ricId.ranFuncId), sr.actionId, type⟩) ::ₘ m) where
  table := ht
  ids := by
    rw [Multiset.map_cons]
    refine Multiset.nodup_cons.mpr ⟨fun hmem => ?_, h.ids⟩
    obtain ⟨e, he, heq⟩ := Multiset.mem_map.mp hmem
    exact hid e he heq
  timers := by rw [Multiset.map_cons, htimers]
  distinct := hnd
  type e he := by
    rcases Multiset.mem_cons.mp he with rfl | he
    · exact htype
    · exact h.type e he
  sm e he := by
    rcases Multiset.mem_cons.mp he with rfl | he
    · rfl
    · exact h.sm e he

/-- A supported subscription with a new timer is accepted. -/
theorem AgentInv.subscribe_periodic (h : AgentInv plugin ag m) {sr : SubscriptionRequest}
    {ms : Nat} (hfd : fd ≠ 0 ∧ fd ∉ ag.timers) (hid : ∀ e ∈ m, e.2.ricId ≠ sr.ricId)
    (hsr : sr.lenAction = 1 ∧ sr.report = true) (hms : ms < 10001) :
    ∃ ag', ag.subscriptionRequest sr (plugin sr.ricId.ranFuncId) (.periodic ms) fd = some ag' ∧
      AgentInv plugin ag'
        ((fd, ⟨sr.ricId, some (plugin sr.ricId.ranFuncId), sr.actionId, .periodic⟩) ::ₘ m) := by
  obtain ⟨b, hb, hinv⟩ := BiMap.insert_spec isCmp_fd isCmp_indEvent h.table fd
    ⟨sr.ricId, some (plugin sr.ricId.ranFuncId), sr.actionId, .periodic⟩
  refine ⟨⟨b, fd :: ag.timers⟩, ?_, h.cons hid hinv ?_ ?_ ?_⟩
  · simp [E2Agent.subscriptionRequest, hsr.1, hsr.2, Nat.not_le.mpr hms, hb]
  · exact iff_of_false hfd.1 (by decide)
  · exact List.nodup_cons.mpr ⟨hfd.2, h.distinct⟩
  · rw [Multiset.filter_cons_of_pos (p := fun x => x ≠ 0) _ hfd.1, ← h.timers]
    rfl

theorem AgentInv.subscribe_aperiodic (h : AgentInv plugin ag m) {sr : SubscriptionRequest}
    (hid : ∀ e ∈ m, e.2.ricId ≠ sr.ricId) (hsr : sr.lenAction = 1 ∧ sr.report = true)
    (fd : Nat) :
    ∃ ag', ag.subscriptionRequest sr (plugin sr.ricId.ranFuncId) .aperiodic fd = some ag' ∧
      AgentInv plugin ag'
        ((0, ⟨sr.ricId, some (plugin sr.ricId.ranFuncId), sr.actionId, .aperiodic⟩) ::ₘ m) := by
  obtain ⟨b, hb, hinv⟩ := BiMap.insert_spec isCmp_fd isCmp_indEvent h.table 0
    ⟨sr.ricId, some (plugin sr.ricId.ranFuncId), sr.actionId, .aperiodic⟩
  refine ⟨⟨b, ag.timers⟩, ?_, h.cons hid hinv ?_ h.distinct ?_⟩
  · simp [E2Agent.subscriptionRequest, hsr.1, hsr.2, hb]
  · exact iff_of_true rfl rfl
  · rw [Multiset.filter_cons_of_neg (p := fun x => x ≠ 0) _ (not_not.mpr rfl), ← h.timers]

/-- What an accepted request has passed. -/
theorem subscriptionRequest_supported {sr : SubscriptionRequest} {sm : σ} {subs : AnsSubs}
    (hop : ag.subscriptionRequest sr sm subs fd = some ag') :
    (sr.lenAction = 1 ∧ sr.report = true) ∧ ∀ ms, subs = .periodic ms → ms < 10001 := by
  unfold E2Agent.subscriptionRequest at hop
  split at hop
  · simp at hop
  · rename_i hsup
    simp only [not_or, not_not, Bool.not_eq_false] at hsup
    refine ⟨hsup, ?_⟩
    rintro ms rfl
    simp only at hop
    split at hop
    · simp at hop
    · exact Nat.not_le.mp ‹_›

/-! ## Deletes -/

/-- The deletion of a subscription takes its entry out of the side of the events, and on the
other side the entry that the search for its descriptor meets, of the id that the assertion
checks. -/
theorem AgentInv.extract (h : AgentInv plugin ag m) (hev : (fd, ev) ∈ m) :
    ∃ e b, ag.indEvent.left.meet cmpFd fd = some (fd, e) ∧ (fd, e) ∈ m ∧
      ag.indEvent.extractRight cmpFd cmpIndEvent ⟨ev.ricId, none, 0, .periodic⟩ =
        (if ev.ricId ≠ e.ricId then none else some (fd, b)) ∧
      (ev.ricId = e.ricId → ∀ m', m = (fd, ev) ::ₘ m' → BiInv cmpFd cmpIndEvent b m') := by
  obtain ⟨k₁, k₂, k₁', e, left, right, p, p', -, hcmp, hmeet, hcmp', hext, hl, hr, hp, hp'⟩ :=
    BiMap.extractRight_meet isCmp_fd isCmp_indEvent h.table ⟨ev.ricId, none, 0, .periodic⟩
      ⟨(fd, ev), hev, cmpIndEvent_eq_zero.2 rfl⟩
  have hmem : (k₁, k₂) ∈ m := hp' ▸ Multiset.mem_cons_self _ _
  obtain ⟨rfl, rfl⟩ := Prod.mk.inj (h.id_inj hev hmem (cmpIndEvent_eq_zero.mp hcmp))
  obtain rfl := cmpFd_eq_zero.1 hcmp'
  have hmem' : (fd, e) ∈ m := hp ▸ Multiset.mem_cons_self _ _
  refine ⟨e, ⟨left, right⟩, hmeet, hmem', ?_, fun hid m' hm => ?_⟩
  · rw [hext]
    exact if_congr (not_congr cmpIndEvent_eq_zero) rfl rfl
  · obtain ⟨-, rfl⟩ := Prod.mk.inj (h.id_inj hev hmem' hid)
    obtain rfl := (Multiset.cons_inj_right _).mp (hm.symm.trans hp)
    obtain rfl := (Multiset.cons_inj_right _).mp (hm.symm.trans hp')
    exact ⟨hl, hr⟩

/-- What the deletion of the subscription `ev` with the descriptor `fd` does beside the
table : only the timer of a periodic subscription is stopped. -/
def stopActions (freeActDef : σ → Bool) (sm : σ) (ev : IndEvent σ) (fd : Nat) :
    List (StopAction σ) :=
  (if freeActDef sm then [.freeActDef sm] else []) ++
    (if ev.type = .aperiodic then [.freeSubsAperiodic ev.ricId.ricReqId] else []) ++
    if fd ≠ 0 then [.rmFd fd] else []

theorem mem_stopActions {sm : σ} {f : Nat} :
    .rmFd f ∈ stopActions freeActDef sm ev fd ↔ f = fd ∧ fd ≠ 0 := by
  unfold stopActions
  by_cases hfd : fd = 0
  · split <;> split <;> simp [hfd]
  · split <;> split <;> simp [hfd]

/-- The timers without that of a deleted subscription. -/
def timersAfter (timers : List Nat) (fd : Nat) : List Nat :=
  if fd = 0 then timers else timers.erase fd

theorem AgentInv.stop (h : AgentInv plugin ag m) (freeActDef : σ → Bool)
    (hev : (fd, ev) ∈ m) :
    ∃ e b, ag.indEvent.left.meet cmpFd fd = some (fd, e) ∧ (fd, e) ∈ m ∧
      ag.stopIndEvent freeActDef ev.ricId = (if ev.ricId ≠ e.ricId then none else
        some (true, stopActions freeActDef (plugin ev.ricId.ranFuncId) ev fd,
          ⟨b, timersAfter ag.timers fd⟩)) ∧
      (ev.ricId = e.ricId → ∀ m', m = (fd, ev) ::ₘ m' → BiInv cmpFd cmpIndEvent b m') := by
  obtain ⟨e, b, hmeet, hmem, hext, hb⟩ := h.extract hev
  refine ⟨e, b, hmeet, hmem, ?_, hb⟩
  have hsm : ev.sm = some (plugin ev.ricId.ranFuncId) := h.sm _ hev
  rw [E2Agent.stopIndEvent, h.find_right hev]
  simp only [Option.bind_eq_bind, Option.bind_some, hsm, hext]
  by_cases hid : ev.ricId = e.ricId
  · simp only [if_neg (not_not.mpr hid), Option.bind_some]
    by_cases hfd : fd = 0
    · simp [stopActions, timersAfter, hfd]
    · have ht : fd ∈ ag.timers := h.mem_timers hev hfd
      simp [stopActions, timersAfter, hfd, E2Agent.rmFd, ht]
  · simp only [if_pos hid, Option.bind_none]

/-- The invariant without a subscription. -/
theorem AgentInv.tail {b : BiMap Nat (IndEvent σ)} (h : AgentInv plugin ag ((fd, ev) ::ₘ m))
    (hb : BiInv cmpFd cmpIndEvent b m) :
    AgentInv plugin ⟨b, timersAfter ag.timers fd⟩ m where
  table := hb
  ids := by
    have := h.ids
    rw [Multiset.map_cons] at this
    exact (Multiset.nodup_cons.mp this).2
  timers := by
    have ht := h.timers
    rw [Multiset.map_cons] at ht
    unfold timersAfter
    split
    · rename_i hfd
      rw [Multiset.filter_cons_of_neg (p := fun x => x ≠ 0) _ (not_not.mpr hfd)] at ht
      exact ht
    · rename_i hfd
      rw [Multiset.filter_cons_of_pos (p := fun x => x ≠ 0) _ hfd] at ht
      rw [← Multiset.coe_erase, ht, Multiset.erase_cons_head]
  distinct := by
    unfold timersAfter
    split
    · exact h.distinct
    · exact h.distinct.erase _
  type e he := h.type e (Multiset.mem_cons_of_mem he)
  sm e he := h.sm e (Multiset.mem_cons_of_mem he)

/-- The search meets an entry of its own exactly where `MeetsAperiodic` holds. -/
theorem AgentInv.meets_iff (h : AgentInv plugin ag m) (hev : (fd, ev) ∈ m) {e : IndEvent σ}
    (hmeet : ag.indEvent.left.meet cmpFd fd = some (fd, e)) (hmem : (fd, e) ∈ m) :
    ev.ricId = e.ricId ↔ MeetsAperiodic ag m ev.ricId := by
  constructor
  · intro hid ev' e' fd' hev' hid' hmeet'
    obtain ⟨rfl, rfl⟩ := Prod.mk.inj (h.id_inj hev' hev hid')
    obtain ⟨-, rfl⟩ := Prod.mk.inj (Option.some.inj (hmeet.symm.trans hmeet'))
    exact hid.symm
  · intro hok
    by_cases hfd : fd = 0
    · subst hfd
      exact (hok ev e 0 hev rfl hmeet).symm
    · obtain ⟨-, rfl⟩ := Prod.mk.inj (h.fd_inj hev hmem rfl hfd)
      rfl

theorem AgentRun.inv (h : AgentRun plugin freeActDef ag m) : AgentInv plugin ag m := by
  induction h with
  | init => exact agentInv_init
  | periodic _ hid hfd hop ih =>
    obtain ⟨hsr, hms⟩ := subscriptionRequest_supported hop
    obtain ⟨ag₁, h₁, hinv⟩ := ih.subscribe_periodic hfd hid hsr (hms _ rfl)
    obtain rfl := Option.some.inj (h₁.symm.trans hop)
    exact hinv
  | aperiodic _ hid hop ih =>
    obtain ⟨hsr, -⟩ := subscriptionRequest_supported hop
    obtain ⟨ag₁, h₁, hinv⟩ := ih.subscribe_aperiodic hid hsr _
    obtain rfl := Option.some.inj (h₁.symm.trans hop)
    exact hinv
  | @delete ag ag' m fd ev found acts _ hok hop ih =>
    have hev : (fd, ev) ∈ (fd, ev) ::ₘ m := Multiset.mem_cons_self _ _
    obtain ⟨e, b, hmeet, hmem, hstop, hb⟩ := ih.stop _ hev
    have hid := (ih.meets_iff hev hmeet hmem).mpr hok
    rw [hstop, if_neg (not_not.mpr hid)] at hop
    obtain ⟨-, -, rfl⟩ := Prod.mk.inj (Option.some.inj hop) |>.imp_right Prod.mk.inj
    exact ih.tail (hb hid m rfl)
  | unknown _ hid hop ih =>
    rw [E2Agent.stopIndEvent, ih.find_right_none hid] at hop
    obtain ⟨-, -, rfl⟩ := Prod.mk.inj (Option.some.inj hop) |>.imp_right Prod.mk.inj
    exact ih

/-! ## The table -/

/-- The delete of the subscription `i` removes exactly its entry, in both directions, and
stops exactly its timer, none for an aperiodic one. -/
def DeleteRight (freeActDef : σ → Bool) (ag : E2Agent σ) (m : Multiset (Nat × IndEvent σ))
    (i : RicGenId) : Prop :=
  ∀ fd ev m', m = (fd, ev) ::ₘ m' → ev.ricId = i →
    ∃ acts ag', ag.stopIndEvent freeActDef i = some (true, acts, ag') ∧
      BiInv cmpFd cmpIndEvent ag'.indEvent m' ∧
      (∀ f, .rmFd f ∈ acts ↔ f = fd ∧ ev.type = .periodic) ∧
      ag'.timers = timersAfter ag.timers fd

/-- Every subscription resolves to its own id and service model, by its id and, if it is
periodic, by its timer. -/
def Resolves (plugin : Nat → σ) (ag : E2Agent σ) (m : Multiset (Nat × IndEvent σ)) : Prop :=
  ∀ fd ev, (fd, ev) ∈ m →
    ag.indEvent.right.findKey (eqIndEvent ev.ricId) = some (some (ev, fd)) ∧
    (fd ≠ 0 → ag.indEvent.left.findKey (fun k => fd = k) = some (some (fd, ev))) ∧
    ev.sm = some (plugin ev.ricId.ranFuncId)

/-- In every run whose deletes meet their own entry both directions hold the subscriptions,
each resolves to itself, a new one is accepted, and a delete is right exactly where it meets
its own entry. -/
theorem indEvent_iff (h : AgentRun plugin freeActDef ag m) :
    BiInv cmpFd cmpIndEvent ag.indEvent m ∧ Resolves plugin ag m ∧
    (∀ sr fd, (∀ e ∈ m, e.2.ricId ≠ sr.ricId) → sr.lenAction = 1 → sr.report = true →
      (∃ ag', ag.subscriptionRequest sr (plugin sr.ricId.ranFuncId) .aperiodic fd = some ag') ∧
      ∀ ms, ms < 10001 → fd ≠ 0 → fd ∉ ag.timers → ∃ ag',
        ag.subscriptionRequest sr (plugin sr.ricId.ranFuncId) (.periodic ms) fd = some ag') ∧
    (∀ i, (∀ e ∈ m, e.2.ricId ≠ i) → ag.stopIndEvent freeActDef i = some (false, [], ag)) ∧
    ∀ i, (∃ e ∈ m, e.2.ricId = i) →
      (DeleteRight freeActDef ag m i ↔ MeetsAperiodic ag m i) := by
  have hinv := h.inv
  refine ⟨hinv.table, fun fd ev hev => ⟨hinv.find_right hev, hinv.find_left hev, hinv.sm _ hev⟩,
    fun sr fd hid hlen hrep => ⟨?_, fun ms hms hfd hnew => ?_⟩, fun i hid => ?_, ?_⟩
  · obtain ⟨ag', hag', -⟩ := hinv.subscribe_aperiodic hid ⟨hlen, hrep⟩ fd
    exact ⟨ag', hag'⟩
  · obtain ⟨ag', hag', -⟩ := hinv.subscribe_periodic ⟨hfd, hnew⟩ hid ⟨hlen, hrep⟩ hms
    exact ⟨ag', hag'⟩
  · rw [E2Agent.stopIndEvent, hinv.find_right_none hid]
    rfl
  · rintro i ⟨⟨fd, ev⟩, hev, rfl⟩
    obtain ⟨e, b, hmeet, hmem, hstop, hb⟩ := hinv.stop freeActDef hev
    rw [← hinv.meets_iff hev hmeet hmem]
    constructor
    · intro hdel
      obtain ⟨m', rfl⟩ := Multiset.exists_cons_of_mem hev
      obtain ⟨acts, ag', hag', -⟩ := hdel fd ev m' rfl rfl
      by_contra hne
      rw [hstop, if_pos hne] at hag'
      simp at hag'
    · intro hid fd' ev' m' hm hid'
      have hev' : (fd', ev') ∈ m := hm ▸ Multiset.mem_cons_self _ _
      obtain ⟨rfl, rfl⟩ := Prod.mk.inj (hinv.id_inj hev' hev hid')
      refine ⟨_, _, hstop.trans (if_neg (not_not.mpr hid)), hb hid m' hm, fun f => ?_, rfl⟩
      have htype : fd' ≠ 0 ↔ ev'.type = .periodic := by
        rw [Ne, hinv.type _ hev']
        cases ev'.type <;> simp
      rw [mem_stopActions, htype]

def aperiodicRequest (r : Nat) : SubscriptionRequest :=
  ⟨⟨r, 0, 2⟩, 1, true, 0⟩

/-- Two aperiodic subscriptions. -/
def twoAperiodic : Option (E2Agent Nat) := do
  let ag ← E2Agent.init.subscriptionRequest (aperiodicRequest 1) 2 .aperiodic 0
  ag.subscriptionRequest (aperiodicRequest 2) 2 .aperiodic 0

theorem twoAperiodic_run : ∃ ag, twoAperiodic = some ag ∧ AgentRun id (fun _ => false) ag
    ((0, ⟨⟨2, 0, 2⟩, some 2, 0, .aperiodic⟩) ::ₘ (0, ⟨⟨1, 0, 2⟩, some 2, 0, .aperiodic⟩) ::ₘ 0) := by
  obtain ⟨ag, hag⟩ : ∃ ag, twoAperiodic = some ag := Option.isSome_iff_exists.mp (by decide)
  have hsub := hag
  unfold twoAperiodic at hsub
  obtain ⟨ag₁, h₁, h₂⟩ := Option.bind_eq_some_iff.mp hsub
  have hrun₁ : AgentRun id (fun _ => false) ag₁ _ := .aperiodic .init (by simp)
    (show E2Agent.init.subscriptionRequest (aperiodicRequest 1)
      (id (aperiodicRequest 1).ricId.ranFuncId) .aperiodic 0 = some ag₁ from h₁)
  exact ⟨ag, hag, .aperiodic hrun₁ (by simp [aperiodicRequest])
    (show ag₁.subscriptionRequest (aperiodicRequest 2)
      (id (aperiodicRequest 2).ricId.ranFuncId) .aperiodic 0 = some ag from h₂)⟩

theorem indEvent_iff_twoAperiodic : ∃ ag m, twoAperiodic = some ag ∧
    (DeleteRight (fun _ => false) ag m ⟨1, 0, 2⟩ ↔ MeetsAperiodic ag m ⟨1, 0, 2⟩) := by
  obtain ⟨ag, hag, hrun⟩ := twoAperiodic_run
  exact ⟨ag, _, hag, (indEvent_iff hrun).2.2.2.2 _
    ⟨(0, ⟨⟨1, 0, 2⟩, some 2, 0, .aperiodic⟩), by simp, rfl⟩⟩

/-- The delete of the second one stops at the assertion. -/
theorem not_deleteRight : ¬ ∀ (ag : E2Agent Nat) m i, AgentRun id (fun _ => false) ag m →
    (∃ e ∈ m, e.2.ricId = i) → DeleteRight (fun _ => false) ag m i := by
  intro hall
  obtain ⟨ag, hag, hrun⟩ := twoAperiodic_run
  have hstop : (twoAperiodic.bind fun ag =>
      (ag.stopIndEvent (fun _ => false) ⟨2, 0, 2⟩).map Prod.fst) = none := by decide
  rw [hag, Option.bind_some, Option.map_eq_none_iff] at hstop
  have hdel := hall ag _ ⟨2, 0, 2⟩ hrun
    ⟨(0, ⟨⟨2, 0, 2⟩, some 2, 0, .aperiodic⟩), Multiset.mem_cons_self _ _, rfl⟩
  obtain ⟨acts, ag', hag', -⟩ := hdel 0 ⟨⟨2, 0, 2⟩, some 2, 0, .aperiodic⟩ _ rfl rfl
  rw [hstop] at hag'
  simp at hag'

end NrStack
