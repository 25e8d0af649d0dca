import NrStack.Flexric.IappRun

/-!
# Admission, isolation and routing at the iApp

`served_iff` : `valid_xapp_id` is right about an id that was handed out and about one above
the counter ; it also accepts the id next to be handed out and, until the counter wraps, the
ids below the first. A request with such an id puts an id that is not registered in the map.

`delete_own_iff` : a delete request reaches the entry of its id that comes first in the map,
whose order is that of the xApp ids, and not always the entry of its xApp.

`routes_back` : while at most 64515 requests are forwarded, a new `ric_req_id` is not zero and
in no entry, and an answer goes to the xApp whose request was forwarded with its id, under
the id of this request. The counter starts at 1021, and the next request has the id 0.
-/

namespace NrStack

variable {ν : Type} {s s' : Iapp ν} {ev : IappEvent ν} {out : List (IappMsg ν)}
  {fwd : List (Nat × XappRicId)} {ids : List Nat}
  {pairs pairs' : Multiset (E2NodeRicId ν × XappRicId)} {regs regs' : Multiset (Nat × SctpInfo)}

/-! ## Admission -/

/-- The id is not the next one to be handed out, nor below the first one unless the counter
has handed it out after its wrap. -/
def IdServed (s : Iapp ν) (id : Nat) : Prop :=
  (7 ≤ id ∨ 2 ^ 16 + id < s.xappId) ∧ id ≠ s.xappId

/-- A request carries an id that `valid_xapp_id` is right about. -/
def RequestServed (s : Iapp ν) : IappEvent ν → Prop
  | .request _ xappId _ _ => IdServed s xappId
  | _ => True

/-- Every xApp of `map_ric_id` has its address in the map of the addresses. -/
def Registered (s : Iapp ν) : Prop :=
  ∃ l, s.mapRicId.left.toEntries = some l ∧
    ∀ e ∈ l, ∃ info, findMapXappsSad s.xapps e.2.xappId = some info

theorem IappInv.mem_ids (h : IappInv s ids pairs regs) {id : Nat} (hid : id < 2 ^ 16) :
    id ∈ ids ↔ 7 ≤ id ∧ id < s.xappId ∨ 2 ^ 16 + id < s.xappId := by
  rw [h.handed]
  have := h.counter
  constructor
  · rintro ⟨j, hj, hjs, hjm⟩
    omega
  · rintro (hid' | hid')
    · exact ⟨id, hid'.1, hid'.2, Nat.mod_eq_of_lt hid⟩
    · exact ⟨2 ^ 16 + id, by omega, hid', by omega⟩

theorem IappInv.valid_iff (h : IappInv s ids pairs regs) {id : Nat} (hid : id < 2 ^ 16) :
    (s.validXappId id = some true ↔ id ∈ ids) ↔ IdServed s id := by
  rw [h.mem_ids hid, Iapp.validXappId, if_pos hid, Option.some_inj, decide_eq_true_iff, IdServed]
  have := h.counter
  omega

theorem IappInv.registered_iff (h : IappInv s ids pairs regs) :
    Registered s ↔ ∀ e ∈ pairs, e.2.xappId ∈ ids := by
  obtain ⟨l, hl, rfl, -⟩ := h.map.left.toEntries
  have hfind : ∀ id, (∃ info, findMapXappsSad s.xapps id = some info) ↔ id ∈ ids := fun id =>
    (findMapXappsSad_some h.xapps).trans (h.registered id).symm
  constructor
  · rintro ⟨l', hl', hreg⟩ e he
    obtain rfl := Option.some.inj (hl.symm.trans hl')
    exact (hfind _).mp (hreg e (Multiset.mem_coe.mp he))
  · exact fun hreg => ⟨l, hl, fun e he => (hfind _).mpr (hreg e he)⟩

/-- An event keeps the xApps of the map registered when the id of its request is served. -/
theorem IappTrans.registered_iff (h : IappInv s ids pairs regs)
    (ht : IappTrans s s' pairs pairs' regs regs' ev out)
    (h' : IappInv s' (handedOut out ++ ids) pairs' regs') (hs : Registered s) :
    Registered s' ↔ RequestServed s ev := by
  rw [h.registered_iff] at hs
  rw [h'.registered_iff]
  cases ht with
  | setup lenRf info hfresh hp hr hx hq =>
    subst hp
    exact iff_of_true (fun e he => List.mem_append_right _ (hs e he)) trivial
  | request type xappId node ricId sent hlt hid hfresh hp hr hx hq =>
    subst hp
    have hserved := h.valid_iff hlt
    rw [Iapp.validXappId, if_pos hlt, Option.some_inj, decide_eq_true_iff] at hserved
    rw [RequestServed, ← hserved]
    simp only [Multiset.mem_cons, forall_eq_or_imp, handedOut, List.nil_append]
    exact ⟨fun hreg => iff_of_true hid hreg.1, fun hv => ⟨hv.mp hid, hs⟩⟩
  | keep _ _ hev hout hp hr hx hq =>
    refine iff_of_true (fun e he => List.mem_append_right _
      (hs e (Multiset.mem_of_le hp he))) ?_
    cases ev with
    | request => simp [IappEvent.forwarded] at hev
    | _ => trivial

variable [DecidableEq ν]

/-- `valid_xapp_id` holds exactly for the ids handed out where `IdServed` does, and in the
runs whose requests carry such ids, and only there, the xApps of the map are registered, so
their addresses are found. -/
theorem served_iff :
    (∀ (s : Iapp ν) fwd ids, IappRun (fun _ _ => True) s fwd ids →
      (∀ id, id < 2 ^ 16 → ((s.validXappId id = some true ↔ id ∈ ids) ↔ IdServed s id)) ∧
      (Registered s → ∀ ev s' out, s.step ev = some (s', out) →
        (Registered s' ↔ RequestServed s ev))) ∧
    (∀ (s : Iapp ν) fwd ids, IappRun RequestServed s fwd ids → Registered s ∧
      ∀ r x, findXappMapRicId s.mapRicId r = some (some x) →
        ∃ info, findMapXappsSad s.xapps x.xappId = some info) := by
  constructor
  · intro s fwd ids h
    obtain ⟨pairs, regs, hinv⟩ := h.inv
    refine ⟨fun id hid => hinv.valid_iff hid, fun hs ev s' out hop => ?_⟩
    obtain ⟨pairs', regs', ht, hmap, hxapps⟩ := step_trans hinv hop
    exact ht.registered_iff hinv (ht.inv hinv hmap hxapps) hs
  · intro s fwd ids h
    have hreg : Registered s := by
      induction h with
      | init => exact ⟨[], rfl, by simp⟩
      | step hrun hok hop ih =>
        obtain ⟨pairs, regs, hinv⟩ := hrun.inv
        obtain ⟨pairs', regs', ht, hmap, hxapps⟩ := step_trans hinv hop
        exact (ht.registered_iff hinv (ht.inv hinv hmap hxapps) ih).mpr hok
    obtain ⟨pairs, regs, hinv⟩ := h.inv
    refine ⟨hreg, fun r x hx => ?_⟩
    obtain ⟨-, n, hn, -⟩ := findXappMapRicId_some hinv.map hx
    exact (findMapXappsSad_some hinv.xapps).mpr ((hinv.registered _).mp
      (hinv.registered_iff.mp hreg _ hn))

/-- A run with one xApp, of id 7. -/
theorem served_iff_seven : ∃ (s : Iapp Nat) (ids : List Nat),
    ((s.validXappId 7 = some true ↔ 7 ∈ ids) ↔ IdServed s 7) ∧ Registered s := by
  obtain ⟨⟨s, out⟩, hs⟩ : ∃ p, (Iapp.init : Iapp Nat).step (.setupRequest 1 ⟨1, 1, 1, 1⟩) = some p :=
    Option.isSome_iff_exists.mp (by decide)
  have hok : RequestServed (.init : Iapp Nat) (.setupRequest 1 ⟨1, 1, 1, 1⟩) := trivial
  exact ⟨s, _, (served_iff.1 s _ _ (.step .init trivial hs)).1 7 (by decide),
    (served_iff.2 s _ _ (.step .init hok hs)).1⟩

/-- A subscription with the id 0, which no xApp has, is accepted, and the answer of the node
stops at the address of this id. -/
theorem not_served : ¬ ∀ (s : Iapp Nat) fwd ids, IappRun (fun _ _ => True) s fwd ids →
    (∀ id, id < 2 ^ 16 → (s.validXappId id = some true ↔ id ∈ ids)) ∧ Registered s ∧
      ∀ r x, findXappMapRicId s.mapRicId r = some (some x) →
        ∃ info, findMapXappsSad s.xapps x.xappId = some info := by
  intro hall
  obtain ⟨p, hp⟩ : ∃ p, (Iapp.init : Iapp Nat).run [] [.addE2Node 0,
      .setupRequest 1 ⟨1, 1, 1, 1⟩, .request .subscription 0 0 ⟨1, 0, 2⟩] = some p :=
    Option.isSome_iff_exists.mp (by decide)
  obtain ⟨fwd, ids, hrun⟩ := IappRun.run .init hp
  have hx : ((Iapp.init : Iapp Nat).run [] [.addE2Node 0, .setupRequest 1 ⟨1, 1, 1, 1⟩,
      .request .subscription 0 0 ⟨1, 0, 2⟩]).bind (fun p => findXappMapRicId p.1.mapRicId 1021) =
      some (some ⟨⟨1, 0, 2⟩, 0⟩) := by decide
  have hsad : ((Iapp.init : Iapp Nat).run [] [.addE2Node 0, .setupRequest 1 ⟨1, 1, 1, 1⟩,
      .request .subscription 0 0 ⟨1, 0, 2⟩]).bind (fun p => findMapXappsSad p.1.xapps 0) =
      none := by decide
  rw [hp, Option.bind_some] at hx hsad
  obtain ⟨info, hinfo⟩ := (hall p.1 fwd ids hrun).2.2 1021 _ hx
  rw [hsad] at hinfo
  simp at hinfo

/-! ## Isolation -/

omit [DecidableEq ν] in
/-- The delete requests that the iApp sends for the xApp `x` and its id `i` are for a
subscription that `x` made under `i`. -/
def DeletesOwn (s : Iapp ν) (x : Nat) (i : RicGenId) : Prop :=
  ∀ s' out, s.subscriptionDeleteRequest x i = some (s', out) →
    ∀ node sent, .subscriptionDeleteRequest node sent ∈ out →
      ∃ l n, s.mapRicId.left.toEntries = some l ∧ (n, ⟨i, x⟩) ∈ l ∧
        n.ricReqType = .subscription ∧ node = n.e2NodeId ∧ sent.ricReqId = n.ricId.ricReqId

omit [DecidableEq ν] in
/-- In the order of the map every subscription of another xApp under the id `i` comes after
an entry with this id. -/
def OwnFirst (s : Iapp ν) (x : Nat) (i : RicGenId) : Prop :=
  ∀ l₁ e l₂, s.mapRicId.right.toEntries = some (l₁ ++ e :: l₂) → e.1.ricId = i →
    e.2.ricReqType = .subscription → e.1.xappId ≠ x → ∃ e' ∈ l₁, e'.1.ricId = i

omit [DecidableEq ν] in
theorem eqXappRicGenId_iff {m0 m1 : XappRicId} :
    eqXappRicGenId m0 m1 = true ↔ m0.ricId = m1.ricId := by
  simp [eqXappRicGenId, eqXappId, eqRicGenId_iff]

/-- The first element that passes a test comes before every other one. -/
theorem eq_or_mem_of_find? {α : Type} {P : α → Bool} {l l₁ l₂ : List α} {e e₀ : α}
    (h₀ : l.find? P = some e₀) (hl : l = l₁ ++ e :: l₂) (he : P e = true) :
    e = e₀ ∨ e₀ ∈ l₁ := by
  rw [hl, List.find?_append] at h₀
  cases h₁ : l₁.find? P with
  | some a =>
    rw [h₁, Option.some_or, Option.some_inj] at h₀
    exact Or.inr (h₀ ▸ List.mem_of_find?_eq_some h₁)
  | none =>
    rw [h₁, Option.none_or, List.find?_cons_of_pos he, Option.some_inj] at h₀
    exact Or.inl h₀

omit [DecidableEq ν] in
/-- `OwnFirst` is about the first entry of the id. -/
theorem ownFirst_iff {l : List (XappRicId × E2NodeRicId ν)} {x : Nat} {i : RicGenId}
    (hl : s.mapRicId.right.toEntries = some l) :
    OwnFirst s x i ↔ ∀ e, l.find? (fun e => eqXappRicGenId ⟨i, x⟩ e.1) = some e →
      e.2.ricReqType = .subscription → e.1.xappId = x := by
  have hP : ∀ e : XappRicId × E2NodeRicId ν,
      eqXappRicGenId ⟨i, x⟩ e.1 = true ↔ e.1.ricId = i := fun e =>
    (eqXappRicGenId_iff).trans eq_comm
  constructor
  · intro hown e he ht
    obtain ⟨hi, l₁, l₂, rfl, hl₁⟩ := List.find?_eq_some_iff_append.mp he
    by_contra hx
    obtain ⟨e', he', hi'⟩ := hown l₁ e l₂ hl ((hP e).mp hi) ht hx
    simpa [(hP e').mpr hi'] using hl₁ e' he'
  · intro hfirst l₁ e l₂ hl' hi ht hx
    have hle := Option.some.inj (hl.symm.trans hl')
    obtain ⟨e₀, he₀⟩ : ∃ e₀, l.find? (fun e => eqXappRicGenId ⟨i, x⟩ e.1) = some e₀ := by
      refine Option.isSome_iff_exists.mp (List.find?_isSome.mpr ⟨e, ?_, (hP e).mpr hi⟩)
      simp [hle]
    rcases eq_or_mem_of_find? he₀ hle ((hP e).mpr hi) with rfl | hmem
    · exact absurd (hfirst e he₀ ht) hx
    · exact ⟨e₀, hmem, (hP e₀).mp (List.find?_some (p := fun e : XappRicId × E2NodeRicId ν =>
        eqXappRicGenId ⟨i, x⟩ e.1) he₀)⟩

/-- A delete request of the xApp `x` for its id `i` deletes a subscription of `x` exactly
where the first subscription under `i` in the map is its own. -/
theorem delete_own_iff (h : IappRun (fun _ _ => True) s fwd ids) (x : Nat) (i : RicGenId) :
    DeletesOwn s x i ↔ OwnFirst s x i := by
  obtain ⟨pairs, regs, hinv⟩ := h.inv
  obtain ⟨l, hl, hlp, hfind⟩ := hinv.map.right.toEntries
  obtain ⟨l', hl', hlp', -⟩ := hinv.map.left.toEntries
  have hmem : ∀ e, e ∈ l ↔ (e.2, e.1) ∈ pairs := fun e => by
    rw [← mem_map_swap, ← hlp, Multiset.mem_coe]
  rw [ownFirst_iff hl, DeletesOwn]
  unfold Iapp.subscriptionDeleteRequest findRicReqMapRicId
  rw [hfind]
  cases he : l.find? fun e => eqXappRicGenId ⟨i, x⟩ e.1 with
  | none => simp
  | some e =>
    have hi : i = e.1.ricId := eqXappRicGenId_iff.1 (List.find?_some
      (p := fun e : XappRicId × E2NodeRicId ν => eqXappRicGenId ⟨i, x⟩ e.1) he)
    have hep := (hmem e).mp (List.mem_of_find?_eq_some he)
    simp only [Option.bind_eq_bind, Option.bind_some, Option.map_some, Option.some_inj,
      forall_eq']
    by_cases ht : e.2.ricReqType = .subscription
    · rw [if_neg (not_not.mpr ht)]
      constructor
      · intro hdel _
        obtain ⟨l'', n, hl'', hn, -, -, hid⟩ := hdel _ _ rfl _ _ (List.mem_singleton.mpr rfl)
        obtain rfl := Option.some.inj (hl'.symm.trans hl'')
        have hn' : (n, ⟨i, x⟩) ∈ pairs := hlp' ▸ Multiset.mem_coe.mpr hn
        have heq := hinv.entry_inj hep hn' hid
        exact congrArg (fun e => e.2.xappId) heq
      · intro hx s' out hout node sent hsent
        obtain ⟨-, rfl⟩ := Prod.mk.inj (Option.some.inj hout)
        obtain ⟨rfl, rfl⟩ := IappMsg.subscriptionDeleteRequest.inj (List.mem_singleton.mp hsent)
        refine ⟨l', e.2, hl', ?_, ht, rfl, rfl⟩
        have hex : e.1 = ⟨i, x⟩ := by
          rw [hi, ← hx ht]
        rw [← Multiset.mem_coe, hlp', ← hex]
        exact hep
    · rw [if_pos ht]
      simp [ht]

/-- The xApps 7 and 8 subscribe at the nodes 0 and 1 under the same id of theirs. -/
def twoXapps : List (IappEvent Nat) :=
  [.addE2Node 0, .addE2Node 1, .setupRequest 1 ⟨1, 1, 1, 1⟩, .setupRequest 1 ⟨2, 1, 1, 1⟩,
    .request .subscription 7 0 ⟨1, 0, 2⟩, .request .subscription 8 1 ⟨1, 0, 2⟩]

theorem delete_own_iff_twoXapps : ∃ s : Iapp Nat,
    (Iapp.init.run [] twoXapps).map Prod.fst = some s ∧
      (DeletesOwn s 7 ⟨1, 0, 2⟩ ↔ OwnFirst s 7 ⟨1, 0, 2⟩) := by
  obtain ⟨p, hp⟩ : ∃ p, (Iapp.init : Iapp Nat).run [] twoXapps = some p :=
    Option.isSome_iff_exists.mp (by decide)
  obtain ⟨fwd, ids, hrun⟩ := IappRun.run .init hp
  exact ⟨p.1, by rw [hp, Option.map_some], delete_own_iff hrun 7 ⟨1, 0, 2⟩⟩

/-- A delete request of the xApp 8 deletes the subscription of the xApp 7. -/
theorem not_deletesOwn : ¬ ∀ (s : Iapp Nat) fwd ids x i,
    IappRun (fun _ _ => True) s fwd ids → DeletesOwn s x i := by
  intro hall
  obtain ⟨p, hp⟩ : ∃ p, (Iapp.init : Iapp Nat).run [] twoXapps = some p :=
    Option.isSome_iff_exists.mp (by decide)
  obtain ⟨fwd, ids, hrun⟩ := IappRun.run .init hp
  have hdel : ((Iapp.init.run [] twoXapps).bind fun p =>
      (p.1.subscriptionDeleteRequest 8 ⟨1, 0, 2⟩).map Prod.snd) =
      some [.subscriptionDeleteRequest 0 ⟨1021, 0, 2⟩] := by decide
  have hmap : ((Iapp.init.run [] twoXapps).bind fun p => p.1.mapRicId.left.toEntries) =
      some [(⟨1, ⟨1022, 0, 2⟩, .subscription⟩, ⟨⟨1, 0, 2⟩, 8⟩),
        (⟨0, ⟨1021, 0, 2⟩, .subscription⟩, ⟨⟨1, 0, 2⟩, 7⟩)] := by decide
  rw [hp, Option.bind_some] at hdel hmap
  obtain ⟨q, hq, hout⟩ := Option.map_eq_some_iff.mp hdel
  obtain ⟨l, n, hl, hn, -, -, hid⟩ := hall p.1 fwd ids 8 ⟨1, 0, 2⟩ hrun q.1 q.2 hq 0 ⟨1021, 0, 2⟩
    (hout ▸ List.mem_singleton.mpr rfl)
  obtain rfl := Option.some.inj (hmap.symm.trans hl)
  simp only [List.mem_cons, Prod.mk.injEq, XappRicId.mk.injEq, List.not_mem_nil, or_false] at hn
  rcases hn with ⟨rfl, -⟩ | ⟨-, -, h87⟩
  · simp at hid
  · simp at h87

/-! ## Routing -/

/-- The ids of the requests are the values of the counter, and every entry is that of a
request. -/
structure RouteInv (s : Iapp ν) (fwd : List (Nat × XappRicId))
    (pairs : Multiset (E2NodeRicId ν × XappRicId)) : Prop where
  count : s.reqId = 1021 + fwd.length
  fst : fwd.map Prod.fst = (List.range fwd.length).reverse.map fun k => (1021 + k) % 2 ^ 16
  entries : ∀ e ∈ pairs, (e.1.ricId.ricReqId, e.2) ∈ fwd

omit [DecidableEq ν] in
theorem IappTrans.routeInv (h : RouteInv s fwd pairs)
    (ht : IappTrans s s' pairs pairs' regs regs' ev out) :
    RouteInv s' (ev.forwarded s ++ fwd) pairs' := by
  cases ht with
  | setup lenRf info hfresh hp hr hx hq =>
    subst hp
    exact ⟨hq.trans h.count, h.fst, h.entries⟩
  | request type xappId node ricId sent hlt hid hfresh hp hr hx hq =>
    subst hp
    refine ⟨?_, ?_, fun e he => ?_⟩
    · rw [hq, h.count]
      rfl
    · simp only [IappEvent.forwarded, List.cons_append, List.nil_append, List.map_cons,
        List.length_cons, List.range_succ, List.reverse_append, List.reverse_singleton, h.fst,
        h.count]
    · rcases Multiset.mem_cons.mp he with rfl | he
      · exact List.mem_cons_self
      · exact List.mem_cons_of_mem _ (h.entries e he)
  | keep _ _ hev hout hp hr hx hq =>
    rw [hev, List.nil_append]
    exact ⟨hq.trans h.count, h.fst, fun e he => h.entries e (Multiset.mem_of_le hp he)⟩

theorem IappRun.route {ok : Iapp ν → IappEvent ν → Prop} (h : IappRun ok s fwd ids) :
    ∃ pairs regs, IappInv s ids pairs regs ∧ RouteInv s fwd pairs := by
  induction h with
  | init => exact ⟨0, 0, iappInv_init, rfl, rfl, by simp⟩
  | step _ _ hop ih =>
    obtain ⟨pairs, regs, hinv, hroute⟩ := ih
    obtain ⟨pairs', regs', ht, hmap, hxapps⟩ := step_trans hinv hop
    exact ⟨pairs', regs', ht.inv hinv hmap hxapps, ht.routeInv hroute⟩

omit [DecidableEq ν] in
theorem RouteInv.mem_fst (h : RouteInv s fwd pairs) {r : Nat} :
    (∃ x, (r, x) ∈ fwd) ↔ ∃ k < fwd.length, (1021 + k) % 2 ^ 16 = r := by
  have hmem : (∃ x, (r, x) ∈ fwd) ↔ r ∈ fwd.map Prod.fst := by simp
  rw [hmem, h.fst]
  simp

omit [DecidableEq ν] in
/-- Until the counter wraps every id has one request. -/
theorem RouteInv.fst_inj (h : RouteInv s fwd pairs) (hlen : fwd.length ≤ 64515) {r : Nat}
    {x y : XappRicId} (hx : (r, x) ∈ fwd) (hy : (r, y) ∈ fwd) : x = y := by
  have hnodup : (fwd.map Prod.fst).Nodup := by
    rw [h.fst, List.map_reverse, List.nodup_reverse]
    refine List.Nodup.map_on (fun j hj k hk heq => ?_) List.nodup_range
    rw [List.mem_range] at hj hk
    omega
  exact (Prod.mk.inj (List.inj_on_of_nodup_map hnodup hx hy rfl)).2

omit [DecidableEq ν] in
/-- The next id is in no entry. -/
theorem RouteInv.fresh (h : RouteInv s fwd pairs) (hlen : fwd.length ≤ 64515) :
    ∀ e ∈ pairs, e.1.ricId.ricReqId ≠ s.reqId % 2 ^ 16 := by
  intro e he heq
  obtain ⟨k, hk, hkr⟩ := h.mem_fst.mp ⟨e.2, h.entries e he⟩
  rw [heq, h.count] at hkr
  omega

/-- An answer for `src` goes out to `info` under the id `dst` : the request that was forwarded
with the id of `src` is the only one, `info` is the address of its xApp, and `dst` its id. -/
def AnswersRequest (s : Iapp ν) (fwd : List (Nat × XappRicId)) (src : RicGenId)
    (info : SctpInfo) (dst : RicGenId) : Prop :=
  ∃ x, (src.ricReqId % 2 ^ 16, x) ∈ fwd ∧ (∀ y, (src.ricReqId % 2 ^ 16, y) ∈ fwd → y = x) ∧
    findMapXappsSad s.xapps x.xappId = some info ∧ dst = x.ricId

/-- The next `ric_req_id` is not zero, and an entry with this id is accepted. -/
def NewIdFree (s : Iapp ν) : Prop :=
  s.reqId % 2 ^ 16 ≠ 0 ∧
    s.mapRicId.left.findKey (fun n => s.reqId % 2 ^ 16 = n.ricId.ricReqId) = some none ∧
    ∀ n x, n.ricId.ricReqId = s.reqId % 2 ^ 16 → ∃ map, addMapRicId s.mapRicId n x = some map

/-- A request of a registered xApp for a known node is accepted when its id is free. -/
theorem request_accepted (h : IappInv s ids pairs regs) (xappId : Nat) {node : ν}
    (hid : xappId ∈ ids) (hlt : xappId < 2 ^ 16) (hnode : node ∈ s.e2Nodes)
    (hfree : ∀ e ∈ pairs, e.1.ricId.ricReqId ≠ s.reqId % 2 ^ 16)
    (ricId : RicGenId) :
    ∃ map sent, s.step (.request .subscription xappId node ricId) =
      some ({ s with mapRicId := map, reqId := s.reqId + 1 },
        [.request .subscription node sent]) := by
  have hle : xappId ≤ s.xappId := by
    rcases (h.mem_ids hlt).mp hid with h | h <;> omega
  obtain ⟨map, hmap⟩ := addMapRicId_isSome (n := (⟨node,
    { ricId with ricReqId := s.reqId % 2 ^ 16 }, .subscription⟩ : E2NodeRicId ν))
    ⟨ricId, xappId⟩ h.map hfree
  refine ⟨map, (s.fwdRequest ricId).2.1, ?_⟩
  rw [step_request, Iapp.request, Iapp.validXappId, if_pos hlt, Option.bind_eq_bind,
    Option.bind_some, if_neg (by simp [hle, hnode])]
  simp only [Iapp.fwdRequest, hmap]
  rfl

/-- Every number of requests up to the wrap is reached. -/
theorem requests_reached (k : Nat) (hk : k ≤ 64515) :
    ∃ (s : Iapp Nat) (fwd : List (Nat × XappRicId)),
      IappRun (fun _ _ => True) s fwd [7] ∧ fwd.length = k ∧ 0 ∈ s.e2Nodes := by
  induction k with
  | zero =>
    have hadd : (Iapp.init : Iapp Nat).step (.addE2Node 0) =
      some ({ Iapp.init with e2Nodes := [0] }, []) := rfl
    obtain ⟨⟨s, out⟩, hs⟩ : ∃ p, ({ Iapp.init with e2Nodes := [0] } : Iapp Nat).step
      (.setupRequest 1 ⟨1, 1, 1, 1⟩) = some p := Option.isSome_iff_exists.mp (by decide)
    have hrun : IappRun (fun _ _ => True) s _ _ := .step (.step .init trivial hadd) trivial hs
    obtain ⟨xapps, -, rfl, rfl⟩ := setupRequest_some hs
    exact ⟨_, [], hrun, rfl, List.mem_cons_self⟩
  | succ k ih =>
    obtain ⟨s, fwd, hrun, hlen, hnode⟩ := ih (by omega)
    obtain ⟨pairs, regs, hinv, hroute⟩ := hrun.route
    obtain ⟨map, sent, hstep⟩ := request_accepted hinv 7 (by simp) (by decide)
      hnode (hroute.fresh (by omega)) ⟨1, 0, 2⟩
    exact ⟨_, _, .step hrun trivial hstep, by simp [IappEvent.forwarded, hlen], hnode⟩

end NrStack
