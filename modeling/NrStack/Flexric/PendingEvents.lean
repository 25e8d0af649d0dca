import Mathlib
import NrStack.Flexric.RicGenId

/-!
# The pending events of an xApp

The table of `pending_event_xapp.c` : a timer for every request that is not answered yet. The
side of the events is ordered by the type of the request alone, so an answer takes out the
first event of its type that the search meets. The search of `find_pending_event_ev` passes
the nodes themselves to the comparison, which reads the pointers of a node as an event.

`pendingEvents_iff` : an answer takes out its own event exactly where this event is the first
one met, and `find_pending_event_ev` is right exactly where no such event is outstanding.
-/

namespace NrStack

/-- `pending_event_t` -/
inductive PendingEvent where
  | setupRequest
  | subscriptionRequest
  | subscriptionDeleteRequest
  | controlRequest
  | e42SetupRequest
  | e42RicSubscriptionRequest
  | ricSubscriptionDeleteRequest
  | e42RicSubscriptionDeleteRequest
  | e42RicControlRequest
  deriving DecidableEq

/-- The value of the enumerator. -/
def PendingEvent.toNat : PendingEvent → Nat
  | .setupRequest => 0
  | .subscriptionRequest => 1
  | .subscriptionDeleteRequest => 2
  | .controlRequest => 3
  | .e42SetupRequest => 4
  | .e42RicSubscriptionRequest => 5
  | .ricSubscriptionDeleteRequest => 6
  | .e42RicSubscriptionDeleteRequest => 7
  | .e42RicControlRequest => 8

/-- `pending_event_xapp_t` -/
structure PendingEventXapp where
  ev : PendingEvent
  id : RicGenId
  waitMs : Nat
  deriving DecidableEq

def eqPendingEventXapp (m0 m1 : PendingEventXapp) : Bool :=
  if m0.ev ≠ m1.ev then false
  else if eqRicGenId m0.id m1.id = false then false
  else true

def cmpPendingEvent : PendingEventXapp → PendingEventXapp → Int :=
  cmpField (fun m => m.ev.toNat) fun _ _ => 0

/-- `pending_event_xapp_ds_t` : the timers on the left, the events on the right. -/
abbrev PendingEventDs := BiMap Nat PendingEventXapp

namespace PendingEventDs

/-- `add_pending_event` -/
def add (p : PendingEventDs) (fd : Nat) (ev : PendingEventXapp) : Option PendingEventDs :=
  if fd = 0 then none else p.insert cmpFd cmpPendingEvent fd ev

/-- `find_pending_event_fd` -/
def findFd (p : PendingEventDs) (fd : Nat) : Option Bool :=
  if fd = 0 then none
  else do
    let it ← p.left.findKey (fun k => fd = k)
    some it.isSome

/-- `eq_ev` on a node : the first words of the node at an address, its key and its value
pointer, are read as the type and the id of an event. -/
def eqEv (words : Nat → Nat × Nat) (ev : PendingEventXapp) (it : Nat) : Bool :=
  let (key, value) := words it
  ev.ev.toNat = key % 2 ^ 32 ∧
    eqRicGenId ev.id ⟨key / 2 ^ 32 % 2 ^ 32, value % 2 ^ 16, value / 2 ^ 16 % 2 ^ 16⟩

/-- `find_pending_event_ev`, with the pointers of the nodes in memory. -/
def findEv (words : Nat → Nat × Nat) (p : PendingEventDs) (ev : PendingEventXapp) :
    Option Bool := do
  let it ← p.right.findIf fun it _ => eqEv words ev it
  some (it ≠ p.right.endIt)

/-- `rm_pending_event_ev` -/
def rmEv (p : PendingEventDs) (ev : PendingEventXapp) : Option (Nat × PendingEventDs) := do
  let sz ← p.size
  let (fd, p) ← p.extractRight cmpFd cmpPendingEvent ev
  let sz' ← p.size
  if sz ≠ sz' + 1 ∨ fd = 0 then none else some (fd, p)

/-- `rm_pending_event_fd` -/
def rmFd (p : PendingEventDs) (fd : Nat) : Option PendingEventDs :=
  if fd = 0 then none
  else (p.extractLeft cmpFd cmpPendingEvent fd).map Prod.snd

end PendingEventDs

open PendingEventDs

variable {p p' : PendingEventDs} {m : Multiset (Nat × PendingEventXapp)} {fd : Nat}
  {e ev : PendingEventXapp} {words : Nat → Nat × Nat}

/-! ## Comparisons -/

theorem isCmp_pendingEvent : IsCmp cmpPendingEvent :=
  (isCmp_zero).field _

theorem PendingEvent.toNat_inj {a b : PendingEvent} : a.toNat = b.toNat ↔ a = b := by
  cases a <;> cases b <;> decide

theorem cmpPendingEvent_eq_zero {m0 m1 : PendingEventXapp} :
    cmpPendingEvent m0 m1 = 0 ↔ m0.ev = m1.ev := by
  simp [cmpPendingEvent, cmpField_eq_zero, PendingEvent.toNat_inj]

theorem eqPendingEventXapp_iff {m0 m1 : PendingEventXapp} :
    eqPendingEventXapp m0 m1 = true ↔ m0.ev = m1.ev ∧ m0.id = m1.id := by
  unfold eqPendingEventXapp
  rw [show m0.id = m1.id ↔ _ from (eqRicGenId_iff).symm]
  by_cases h : m0.ev = m1.ev
  · simp [h]
  · simp [h]

/-- An aligned key pointer reads as no type but the first one. -/
theorem eqEv_aligned {it : Nat} (hmem : ∀ it, (words it).1 % 16 = 0)
    (h : eqEv words ev it = true) : ev.ev = .setupRequest := by
  simp only [eqEv, Bool.decide_and, Bool.and_eq_true, decide_eq_true_eq] at h
  have hlow : ev.ev.toNat % 16 = 0 := by
    have := hmem it
    omega
  generalize ev.ev = a at hlow ⊢
  cases a <;> first | rfl | exact absurd hlow (by decide)

/-! ## Runs -/

/-- The first event met by the search for the type of `ev` is the one of `ev`. -/
def MeetsOwn (p : PendingEventDs) (ev : PendingEventXapp) : Prop :=
  ∀ e fd, p.right.meet cmpPendingEvent ev = some (e, fd) → eqPendingEventXapp ev e = true

/-- An event of the type and the id of `ev` is outstanding. -/
def Outstanding (m : Multiset (Nat × PendingEventXapp)) (ev : PendingEventXapp) : Prop :=
  ∃ e ∈ m, eqPendingEventXapp ev e.2 = true

/-- The runs in which every answer meets its own event, with the outstanding requests and
their timers. An open timer has a descriptor of its own. -/
inductive PendingRun : PendingEventDs → Multiset (Nat × PendingEventXapp) → Prop
  | init : PendingRun .init 0
  | request {p p' : PendingEventDs} {m : Multiset (Nat × PendingEventXapp)} {fd : Nat}
      {ev : PendingEventXapp} (h : PendingRun p m) (hfd : ∀ e ∈ m, e.1 ≠ fd)
      (hev : ¬ Outstanding m ev) (hop : p.add fd ev = some p') :
      PendingRun p' ((fd, ev) ::ₘ m)
  | answer {p p' : PendingEventDs} {m : Multiset (Nat × PendingEventXapp)} {fd fd' : Nat}
      {e ev : PendingEventXapp} (h : PendingRun p ((fd, e) ::ₘ m))
      (he : eqPendingEventXapp ev e = true) (hok : MeetsOwn p ev)
      (hop : p.rmEv ev = some (fd', p')) : PendingRun p' m
  | timeout {p p' : PendingEventDs} {m : Multiset (Nat × PendingEventXapp)} {fd : Nat}
      {e : PendingEventXapp} (h : PendingRun p ((fd, e) ::ₘ m)) (hop : p.rmFd fd = some p') :
      PendingRun p' m

/-- The table holds the outstanding requests in both directions, with timers and events of
their own. -/
structure PendingInv (p : PendingEventDs) (m : Multiset (Nat × PendingEventXapp)) : Prop where
  table : BiInv cmpFd cmpPendingEvent p m
  fds : (m.map Prod.fst).Nodup
  events : (m.map fun e => (e.2.ev, e.2.id)).Nodup
  pos : ∀ e ∈ m, e.1 ≠ 0

theorem PendingInv.fd_inj (h : PendingInv p m) {a b : Nat × PendingEventXapp} (ha : a ∈ m)
    (hb : b ∈ m) (hab : a.1 = b.1) : a = b :=
  Multiset.inj_on_of_nodup_map h.fds _ ha _ hb hab

theorem PendingInv.event_inj (h : PendingInv p m) {a b : Nat × PendingEventXapp} (ha : a ∈ m)
    (hb : b ∈ m) (hea : eqPendingEventXapp ev a.2 = true)
    (heb : eqPendingEventXapp ev b.2 = true) : a = b := by
  obtain ⟨ha₁, ha₂⟩ := eqPendingEventXapp_iff.1 hea
  obtain ⟨hb₁, hb₂⟩ := eqPendingEventXapp_iff.1 heb
  exact Multiset.inj_on_of_nodup_map h.events _ ha _ hb
    (Prod.ext (ha₁.symm.trans hb₁) (ha₂.symm.trans hb₂))

theorem PendingInv.tail {a : Nat × PendingEventXapp} (h : PendingInv p (a ::ₘ m))
    (ht : BiInv cmpFd cmpPendingEvent p' m) : PendingInv p' m where
  table := ht
  fds := by
    have := h.fds
    rw [Multiset.map_cons] at this
    exact (Multiset.nodup_cons.mp this).2
  events := by
    have := h.events
    rw [Multiset.map_cons] at this
    exact (Multiset.nodup_cons.mp this).2
  pos e he := h.pos e (Multiset.mem_cons_of_mem he)

theorem pendingInv_init : PendingInv .init 0 where
  table := biInv_init
  fds := Multiset.nodup_zero
  events := Multiset.nodup_zero
  pos := by simp

theorem PendingInv.add (h : PendingInv p m) (hfd : ∀ e ∈ m, e.1 ≠ fd)
    (hev : ¬ Outstanding m ev) (hop : p.add fd ev = some p') :
    PendingInv p' ((fd, ev) ::ₘ m) := by
  unfold PendingEventDs.add at hop
  split at hop
  · simp at hop
  · rename_i hpos
    obtain ⟨p'', hp'', hinv⟩ := BiMap.insert_spec isCmp_fd isCmp_pendingEvent h.table fd ev
    obtain rfl := Option.some.inj (hp''.symm.trans hop)
    refine ⟨hinv, ?_, ?_, fun e he => ?_⟩
    · rw [Multiset.map_cons]
      refine Multiset.nodup_cons.mpr ⟨fun hmem => ?_, h.fds⟩
      obtain ⟨e, he, heq⟩ := Multiset.mem_map.mp hmem
      exact hfd e he heq
    · rw [Multiset.map_cons]
      refine Multiset.nodup_cons.mpr ⟨fun hmem => ?_, h.events⟩
      obtain ⟨e, he, heq⟩ := Multiset.mem_map.mp hmem
      obtain ⟨h₁, h₂⟩ := Prod.mk.inj heq
      exact hev ⟨e, he, eqPendingEventXapp_iff.2 ⟨h₁.symm, h₂.symm⟩⟩
    · rcases Multiset.mem_cons.mp he with rfl | he
      · exact hpos
      · exact h.pos e he

/-- An answer takes out the event that the search meets, of its type, with its timer. -/
theorem PendingInv.rmEv (h : PendingInv p m) (hev : ∃ e ∈ m, e.2.ev = ev.ev) :
    ∃ fd e p' m', p.right.meet cmpPendingEvent ev = some (e, fd) ∧ e.ev = ev.ev ∧
      p.rmEv ev = some (fd, p') ∧ BiInv cmpFd cmpPendingEvent p' m' ∧ m = (fd, e) ::ₘ m' := by
  obtain ⟨a, ha, hae⟩ := hev
  obtain ⟨fd, e, p', m', hmeet, hcmp, hext, hinv, hm⟩ :=
    BiMap.extractRight_spec isCmp_fd isCmp_pendingEvent h.table ev
      ⟨a, ha, cmpPendingEvent_eq_zero.2 hae.symm⟩
      fun a ha b hb hab => h.fd_inj ha hb (cmpFd_eq_zero.mp hab)
  refine ⟨fd, e, p', m', hmeet, (cmpPendingEvent_eq_zero.mp hcmp).symm, ?_, hinv, hm⟩
  have hpos : fd ≠ 0 := h.pos (fd, e) (hm ▸ Multiset.mem_cons_self _ _)
  simp [PendingEventDs.rmEv, h.table.size, hext, hinv.size, hm, hpos]

theorem PendingInv.rmFd (h : PendingInv p ((fd, e) ::ₘ m)) (hop : p.rmFd fd = some p') :
    PendingInv p' m := by
  have hmem : (fd, e) ∈ (fd, e) ::ₘ m := Multiset.mem_cons_self _ _
  obtain ⟨k₁, k₂, k₂', k₃, left, right, q, q', -, hcmp, -, -, hext, hl, hr, hq, hq'⟩ :=
    BiMap.extractLeft_meet isCmp_fd isCmp_pendingEvent h.table fd
      ⟨(fd, e), hmem, (isCmp_fd).self fd⟩
  rw [PendingEventDs.rmFd, if_neg (h.pos _ hmem), hext] at hop
  split at hop
  · simp at hop
  · rename_i hcmp'
    obtain rfl := Option.some.inj hop
    obtain rfl := cmpFd_eq_zero.1 hcmp
    obtain rfl := cmpFd_eq_zero.1 (not_not.mp hcmp')
    have hk₂ : (fd, k₂) ∈ (fd, e) ::ₘ m := by
      rw [hq]
      exact Multiset.mem_cons_self _ _
    have hk₂' : (fd, k₂') ∈ (fd, e) ::ₘ m := by
      rw [hq']
      exact Multiset.mem_cons_self _ _
    obtain ⟨-, rfl⟩ := Prod.mk.inj (h.fd_inj hmem hk₂ rfl)
    obtain ⟨-, rfl⟩ := Prod.mk.inj (h.fd_inj hmem hk₂' rfl)
    obtain rfl := (Multiset.cons_inj_right _).mp hq
    obtain rfl := (Multiset.cons_inj_right _).mp hq'
    exact h.tail ⟨hl, hr⟩

theorem PendingRun.inv (h : PendingRun p m) : PendingInv p m := by
  induction h with
  | init => exact pendingInv_init
  | request _ hfd hev hop ih => exact ih.add hfd hev hop
  | @answer p p' m fd fd' e ev _ he hok hop ih =>
    have hmem : (fd, e) ∈ (fd, e) ::ₘ m := Multiset.mem_cons_self _ _
    obtain ⟨fd₁, e₁, p₁, m₁, hmeet, -, hrm, hinv, hm⟩ :=
      ih.rmEv ⟨(fd, e), hmem, (eqPendingEventXapp_iff.mp he).1.symm⟩
    obtain ⟨rfl, rfl⟩ := Prod.mk.inj (Option.some.inj (hrm.symm.trans hop))
    have hmem₁ : (fd₁, e₁) ∈ (fd, e) ::ₘ m := by
      rw [hm]
      exact Multiset.mem_cons_self _ _
    obtain ⟨rfl, rfl⟩ := Prod.mk.inj (ih.event_inj hmem hmem₁ he (hok e₁ fd₁ hmeet))
    obtain rfl := (Multiset.cons_inj_right _).mp hm
    exact ih.tail hinv
  | timeout _ hop ih => exact ih.rmFd hop

/-! ## The table -/

/-- The answer to the outstanding event of `ev` takes it out, with the timer it was added
with. -/
def AnswerRight (p : PendingEventDs) (m : Multiset (Nat × PendingEventXapp))
    (ev : PendingEventXapp) : Prop :=
  ∀ fd e, (fd, e) ∈ m → eqPendingEventXapp ev e = true →
    ∃ p', p.rmEv ev = some (fd, p') ∧ BiInv cmpFd cmpPendingEvent p' (m.erase (fd, e))

/-- `find_pending_event_ev` tells whether the event of `ev` is outstanding. -/
def FindRight (words : Nat → Nat × Nat) (p : PendingEventDs)
    (m : Multiset (Nat × PendingEventXapp)) (ev : PendingEventXapp) : Prop :=
  ∃ b, p.findEv words ev = some b ∧ (b = true ↔ Outstanding m ev)

/-- The pointers of a node on the side of the events read as the event of `ev`. -/
def NodeReads (words : Nat → Nat × Nat) (p : PendingEventDs) (ev : PendingEventXapp) : Prop :=
  ∃ its, p.right.iterators = some its ∧ ∃ it ∈ its, eqEv words ev it = true

theorem PendingInv.findEv (h : PendingInv p m) (words : Nat → Nat × Nat)
    (ev : PendingEventXapp) : ∃ b, p.findEv words ev = some b ∧ (b = true ↔ NodeReads words p ev) := by
  obtain ⟨t, hinv, -⟩ := h.table.right
  have hfind := findIf_spec hinv.toRbState (f := fun it _ => eqEv words ev it)
    (g := fun a => eqEv words ev a.addr) fun _ _ _ _ => rfl
  rw [PendingEventDs.findEv, hfind, Option.bind_eq_bind, Option.bind_some]
  refine ⟨_, rfl, ?_⟩
  rw [decide_eq_true_iff, NodeReads, iterators_spec hinv.toRbState]
  simp only [Option.some_inj, exists_eq_left', addrs, List.mem_map, exists_exists_and_eq_and]
  cases hd : t.toList.dropWhile fun a => !eqEv words ev a.addr with
  | nil =>
    rw [List.dropWhile_eq_nil_iff] at hd
    refine iff_of_false (fun hne => hne rfl) ?_
    rintro ⟨a, ha, hread⟩
    simpa [hread] using hd a ha
  | cons a l =>
    have ha : a ∈ t.toList := (List.dropWhile_suffix _).subset (hd ▸ List.mem_cons_self)
    have hread : eqEv words ev a.addr = true := by
      have := List.head?_dropWhile_not (fun a : Cell PendingEventXapp Nat =>
        !eqEv words ev a.addr) t.toList
      simpa [hd] using this
    exact iff_of_true (addr_ne_dummy hinv.toRbState ha) ⟨a, ha, hread⟩

/-- In every run whose answers meet their own events the table holds exactly the outstanding
requests, the next answer is right exactly where it meets its own event, and
`find_pending_event_ev` exactly where the event is not outstanding. For the first type, whose
value is zero, the pointers of a node may read as the event. -/
theorem pendingEvents_iff (h : PendingRun p m) (hmem : ∀ it, (words it).1 % 16 = 0) :
    BiInv cmpFd cmpPendingEvent p m ∧
    (∀ ev, Outstanding m ev → (AnswerRight p m ev ↔ MeetsOwn p ev)) ∧
    ∀ ev, FindRight words p m ev ↔
      (Outstanding m ev ↔ ev.ev = .setupRequest ∧ NodeReads words p ev) := by
  have hinv := h.inv
  refine ⟨hinv.table, fun ev hout => ?_, fun ev => ?_⟩
  · obtain ⟨⟨fd, e⟩, hmem, he⟩ := hout
    obtain ⟨fd₁, e₁, p₁, m₁, hmeet, -, hrm, hb, hm⟩ :=
      hinv.rmEv ⟨(fd, e), hmem, (eqPendingEventXapp_iff.mp he).1.symm⟩
    have hmem₁ : (fd₁, e₁) ∈ m := hm ▸ Multiset.mem_cons_self _ _
    constructor
    · intro hans e' fd' hmeet'
      obtain ⟨rfl, rfl⟩ := Prod.mk.inj (Option.some.inj (hmeet.symm.trans hmeet'))
      obtain ⟨p', hrm', -⟩ := hans fd e hmem he
      obtain ⟨rfl, -⟩ := Prod.mk.inj (Option.some.inj (hrm.symm.trans hrm'))
      obtain ⟨-, rfl⟩ := Prod.mk.inj (hinv.fd_inj hmem hmem₁ rfl)
      exact he
    · intro hown fd' e' hmem' he'
      obtain ⟨rfl, rfl⟩ := Prod.mk.inj (hinv.event_inj hmem' hmem₁ he' (hown e₁ fd₁ hmeet))
      refine ⟨p₁, hrm, ?_⟩
      rw [hm, Multiset.erase_cons_head]
      exact hb
  · obtain ⟨b, hb, hbr⟩ := hinv.findEv words ev
    have hread : NodeReads words p ev ↔ ev.ev = .setupRequest ∧ NodeReads words p ev := by
      refine ⟨fun hr => ⟨?_, hr⟩, fun hr => hr.2⟩
      obtain ⟨its, -, it, -, heq⟩ := hr
      exact eqEv_aligned hmem heq
    rw [FindRight, hb]
    simp only [Option.some_inj, exists_eq_left']
    rw [hbr, ← hread]
    exact ⟨fun h => h.symm, fun h => h.symm⟩

/-- Two subscription requests of an xApp, with the timers 5 and 6. -/
def twoRequests : Option PendingEventDs := do
  let p ← PendingEventDs.add .init 5 ⟨.e42RicSubscriptionRequest, ⟨1, 0, 142⟩, 3000⟩
  p.add 6 ⟨.e42RicSubscriptionRequest, ⟨2, 0, 142⟩, 3000⟩

theorem twoRequests_run : ∃ p, twoRequests = some p ∧
    PendingRun p ((6, ⟨.e42RicSubscriptionRequest, ⟨2, 0, 142⟩, 3000⟩) ::ₘ
      (5, ⟨.e42RicSubscriptionRequest, ⟨1, 0, 142⟩, 3000⟩) ::ₘ 0) := by
  obtain ⟨p, hp⟩ : ∃ p, twoRequests = some p := Option.isSome_iff_exists.mp (by decide)
  have hadd := hp
  unfold twoRequests at hadd
  obtain ⟨p₁, h₁, h₂⟩ := Option.bind_eq_some_iff.mp hadd
  refine ⟨p, hp, .request (.request .init (by simp) ?_ h₁) (by simp) ?_ h₂⟩
  · simp [Outstanding]
  · rintro ⟨e, he, heq⟩
    obtain rfl := (Multiset.mem_cons.mp he).resolve_right (by simp)
    revert heq
    decide

theorem pendingEvents_iff_twoRequests : ∃ p m, twoRequests = some p ∧
    (AnswerRight p m ⟨.e42RicSubscriptionRequest, ⟨1, 0, 142⟩, 0⟩ ↔
      MeetsOwn p ⟨.e42RicSubscriptionRequest, ⟨1, 0, 142⟩, 0⟩) := by
  obtain ⟨p, hp, hrun⟩ := twoRequests_run
  have hmem : ∀ it : Nat, ((fun _ => (16, 0) : Nat → Nat × Nat) it).1 % 16 = 0 := by simp
  refine ⟨p, _, hp, (pendingEvents_iff hrun hmem).2.1 _
    ⟨(5, ⟨.e42RicSubscriptionRequest, ⟨1, 0, 142⟩, 3000⟩), by simp, by decide⟩⟩

/-- The answer to the second request takes out the first one, with its timer. -/
theorem not_answerRight : ¬ ∀ words p m ev, (∀ it, (words it).1 % 16 = 0) → PendingRun p m →
    Outstanding m ev → AnswerRight p m ev ∧ FindRight words p m ev := by
  intro hall
  obtain ⟨p, hp, hrun⟩ := twoRequests_run
  have hrm : (twoRequests.bind fun p =>
      (p.rmEv ⟨.e42RicSubscriptionRequest, ⟨2, 0, 142⟩, 0⟩).map Prod.fst) = some 5 := by decide
  rw [hp, Option.bind_some] at hrm
  obtain ⟨⟨fd, p'⟩, hr, hfd⟩ := Option.map_eq_some_iff.mp hrm
  obtain ⟨p'', hr', -⟩ := (hall (fun _ => (16, 0)) p _ ⟨.e42RicSubscriptionRequest, ⟨2, 0, 142⟩, 0⟩
    (fun _ => rfl) hrun ⟨_, Multiset.mem_cons_self _ _, by decide⟩).1 6 _
    (Multiset.mem_cons_self _ _) (by decide)
  rw [hr] at hr'
  simp_all

end NrStack
