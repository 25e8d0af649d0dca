import NrStack.Flexric.Iapp

/-!
# Runs of the iApp

`IappTrans` lists what one event can do to the two maps and the two counters
(`step_trans`) : a setup registers an id, a request adds an entry, and nothing else adds to
either map. `IappInv` is the invariant of every run : the maps are in order, no two entries
have the same `ric_req_id`, and the registered ids are those handed out.
-/

namespace NrStack

variable {ν : Type} {s s' : Iapp ν} {ev : IappEvent ν} {out : List (IappMsg ν)}
  {fwd : List (Nat × XappRicId)} {ids : List Nat}
  {pairs pairs' : Multiset (E2NodeRicId ν × XappRicId)} {regs regs' : Multiset (Nat × SctpInfo)}

/-! ## The maps -/

theorem cmpE2NodeRicReq_eq_zero {m0 m1 : E2NodeRicId ν} :
    cmpE2NodeRicReq m0 m1 = 0 ↔ m0.ricId.ricReqId = m1.ricId.ricReqId := by
  unfold cmpE2NodeRicReq cmpUint32
  split
  · exact ⟨by simp, fun h => absurd h (by omega)⟩
  · split
    · exact ⟨fun _ => ‹_›, fun _ => rfl⟩
    · exact ⟨by simp, fun h => absurd h ‹_›⟩

theorem addMapRicId_some {map map' : MapRicId ν} {n : E2NodeRicId ν} {x : XappRicId}
    (h : BiInv cmpE2NodeRicReq cmpXappRicGenId map pairs) (hop : addMapRicId map n x = some map') :
    (∀ e ∈ pairs, e.1.ricId.ricReqId ≠ n.ricId.ricReqId) ∧
      BiInv cmpE2NodeRicReq cmpXappRicGenId map' ((n, x) ::ₘ pairs) := by
  obtain ⟨e, he⟩ := h.left.findKey_ends (eqE2NodeRicReq n)
  rw [addMapRicId, he, Option.bind_eq_bind, Option.bind_some] at hop
  cases e with
  | some e => simp at hop
  | none =>
    obtain ⟨m', hm', hinv⟩ := BiMap.insert_spec isCmp_e2NodeRicReq isCmp_xappRicGenId h n x
    obtain rfl := Option.some.inj (hm'.symm.trans hop)
    refine ⟨fun e hem heq => ?_, hinv⟩
    have := h.left.findKey_none.mp he e hem
    simp [eqE2NodeRicReq, heq] at this

/-- An id that no entry has is accepted. -/
theorem addMapRicId_isSome {map : MapRicId ν} {n : E2NodeRicId ν} (x : XappRicId)
    (h : BiInv cmpE2NodeRicReq cmpXappRicGenId map pairs)
    (hn : ∀ e ∈ pairs, e.1.ricId.ricReqId ≠ n.ricId.ricReqId) :
    ∃ map', addMapRicId map n x = some map' := by
  have hnone : map.left.findKey (eqE2NodeRicReq n) = some none := by
    refine h.left.findKey_none.mpr fun e he => ?_
    simpa [eqE2NodeRicReq] using (hn e he).symm
  obtain ⟨m', hm', -⟩ := BiMap.insert_spec isCmp_e2NodeRicReq isCmp_xappRicGenId h n x
  refine ⟨m', ?_⟩
  rw [addMapRicId, hnone, Option.bind_eq_bind, Option.bind_some]
  exact hm'

theorem findXappMapRicId_some {map : MapRicId ν} {r : Nat} {x : XappRicId}
    (h : BiInv cmpE2NodeRicReq cmpXappRicGenId map pairs)
    (hop : findXappMapRicId map r = some (some x)) :
    r ≠ 0 ∧ ∃ n, (n, x) ∈ pairs ∧ n.ricId.ricReqId = r := by
  unfold findXappMapRicId at hop
  split at hop
  · simp at hop
  · rename_i hr
    obtain ⟨e, he⟩ := h.left.findKey_ends fun n => decide (r = n.ricId.ricReqId)
    rw [he, Option.bind_eq_bind, Option.bind_some, Option.some_inj] at hop
    obtain ⟨⟨n, x'⟩, rfl, rfl⟩ := Option.map_eq_some_iff.mp hop
    obtain ⟨hmem, hr'⟩ := h.left.findKey_some he
    exact ⟨hr, n, hmem, (of_decide_eq_true hr').symm⟩

theorem rmMapRicId_some {map map' : MapRicId ν} {n : E2NodeRicId ν} {x : XappRicId}
    (h : BiInv cmpE2NodeRicReq cmpXappRicGenId map pairs)
    (hd : (pairs.map fun e => e.1.ricId.ricReqId).Nodup) (hx : (n, x) ∈ pairs)
    (hop : rmMapRicId map x = some map') :
    ∃ pairs', BiInv cmpE2NodeRicReq cmpXappRicGenId map' pairs' ∧ pairs' ≤ pairs := by
  obtain ⟨k₁, k₂, m', p, -, -, hm', hinv, hp⟩ :=
    BiMap.extractRight_spec isCmp_e2NodeRicReq isCmp_xappRicGenId h x
      ⟨(n, x), hx, (isCmp_xappRicGenId).self x⟩ fun e he e' he' heq =>
        Multiset.inj_on_of_nodup_map hd _ he _ he' (cmpE2NodeRicReq_eq_zero.mp heq)
  rw [rmMapRicId, hm', Option.map_some, Option.some_inj] at hop
  subst hop
  exact ⟨p, hinv, hp ▸ Multiset.le_cons_self p _⟩

theorem findMapXappsSad_some {m : MapXappsSockaddr} (h : BiInv cmpUint16 cmpSctpInfo m regs)
    {id : Nat} : (∃ info, findMapXappsSad m id = some info) ↔ ∃ info, (id, info) ∈ regs := by
  obtain ⟨e, he⟩ := h.left.findKey_ends fun k => decide (id = k)
  rw [findMapXappsSad, he, Option.bind_eq_bind, Option.bind_some]
  cases e with
  | none =>
    have hnone := h.left.findKey_none.mp he
    refine ⟨fun ⟨_, hi⟩ => by simp at hi, fun ⟨info, hi⟩ => ?_⟩
    simpa using hnone _ hi
  | some e =>
    obtain ⟨hmem, hid⟩ := h.left.findKey_some he
    exact ⟨fun _ => ⟨e.2, of_decide_eq_true hid ▸ hmem⟩, fun _ => ⟨e.2, rfl⟩⟩

theorem addMapXappsSad_some {m m' : MapXappsSockaddr} (h : BiInv cmpUint16 cmpSctpInfo m regs)
    {id : Nat} {info : SctpInfo} (hop : addMapXappsSad m id info = some m') :
    (∀ e ∈ regs, e.1 ≠ id) ∧ BiInv cmpUint16 cmpSctpInfo m' ((id, info) ::ₘ regs) := by
  obtain ⟨e, he⟩ := h.left.findKey_ends fun k => decide (id = k)
  rw [addMapXappsSad, he, Option.bind_eq_bind, Option.bind_some] at hop
  cases e with
  | some e => simp at hop
  | none =>
    obtain ⟨m'', hm'', hinv⟩ := BiMap.insert_spec isCmp_uint16 isCmp_sctpInfo h id info
    obtain rfl := Option.some.inj (hm''.symm.trans hop)
    refine ⟨fun e hem heq => ?_, hinv⟩
    simpa [heq] using h.left.findKey_none.mp he e hem

/-! ## One event -/

/-- The id under which an event forwards a request, with the xApp and its own id. -/
def IappEvent.forwarded (iapp : Iapp ν) : IappEvent ν → List (Nat × XappRicId)
  | .request _ xappId _ ricId => [(iapp.reqId % 2 ^ 16, ⟨ricId, xappId⟩)]
  | _ => []

/-- The id that a setup response hands out. -/
def handedOut : List (IappMsg ν) → List Nat
  | [.setupResponse _ xappId] => [xappId]
  | _ => []

/-- What an event can do to the maps and the counters. -/
inductive IappTrans (s s' : Iapp ν) (pairs pairs' : Multiset (E2NodeRicId ν × XappRicId))
    (regs regs' : Multiset (Nat × SctpInfo)) : IappEvent ν → List (IappMsg ν) → Prop
  | setup (lenRf : Nat) (info : SctpInfo) (hfresh : ∀ e ∈ regs, e.1 ≠ s.xappId % 2 ^ 16)
      (hp : pairs' = pairs) (hr : regs' = (s.xappId % 2 ^ 16, info) ::ₘ regs)
      (hx : s'.xappId = (s.xappId + 1) % 2 ^ 32) (hq : s'.reqId = s.reqId) :
      IappTrans s s' pairs pairs' regs regs' (.setupRequest lenRf info)
        [.setupResponse info (s.xappId % 2 ^ 16)]
  | request (type : RicRequestType) (xappId : Nat) (node : ν) (ricId sent : RicGenId)
      (hlt : xappId < 2 ^ 16) (hid : xappId ≤ s.xappId)
      (hfresh : ∀ e ∈ pairs, e.1.ricId.ricReqId ≠ s.reqId % 2 ^ 16)
      (hp : pairs' = (⟨node, { ricId with ricReqId := s.reqId % 2 ^ 16 }, type⟩,
        ⟨ricId, xappId⟩) ::ₘ pairs)
      (hr : regs' = regs) (hx : s'.xappId = s.xappId) (hq : s'.reqId = s.reqId + 1) :
      IappTrans s s' pairs pairs' regs regs' (.request type xappId node ricId)
        [.request type node sent]
  | keep (ev : IappEvent ν) (out : List (IappMsg ν)) (hev : ev.forwarded s = [])
      (hout : handedOut out = []) (hp : pairs' ≤ pairs) (hr : regs' = regs)
      (hx : s'.xappId = s.xappId) (hq : s'.reqId = s.reqId) :
      IappTrans s s' pairs pairs' regs regs' ev out

/-- The maps are in order, with different `ric_req_id`s, and the ids of `regs` are those
handed out, from 7 to the counter. -/
structure IappInv (s : Iapp ν) (ids : List Nat)
    (pairs : Multiset (E2NodeRicId ν × XappRicId)) (regs : Multiset (Nat × SctpInfo)) :
    Prop where
  map : BiInv cmpE2NodeRicReq cmpXappRicGenId s.mapRicId pairs
  distinct : (pairs.map fun e => e.1.ricId.ricReqId).Nodup
  xapps : BiInv cmpUint16 cmpSctpInfo s.xapps regs
  registered : ∀ id, id ∈ ids ↔ ∃ info, (id, info) ∈ regs
  handed : ∀ id, id ∈ ids ↔ ∃ j, 7 ≤ j ∧ j < s.xappId ∧ j % 2 ^ 16 = id
  counter : 7 ≤ s.xappId ∧ s.xappId ≤ 2 ^ 16 + 7

theorem iappInv_init : IappInv (.init : Iapp ν) [] 0 0 where
  map := biInv_init
  distinct := Multiset.nodup_zero
  xapps := biInv_init
  registered id := by simp
  handed id := by
    simp only [List.not_mem_nil, Iapp.init, false_iff, not_exists, not_and]
    omega
  counter := by simp [Iapp.init]

theorem IappInv.entry_inj (h : IappInv s ids pairs regs) {e e' : E2NodeRicId ν × XappRicId}
    (he : e ∈ pairs) (he' : e' ∈ pairs) (heq : e.1.ricId.ricReqId = e'.1.ricId.ricReqId) :
    e = e' :=
  Multiset.inj_on_of_nodup_map h.distinct _ he _ he' heq

/-! ## Runs -/

variable [DecidableEq ν]

/-- The states of the runs whose events are all `ok`, with the requests forwarded and the
xApp ids handed out so far. -/
inductive IappRun (ok : Iapp ν → IappEvent ν → Prop) :
    Iapp ν → List (Nat × XappRicId) → List Nat → Prop
  | init : IappRun ok .init [] []
  | step {s s' : Iapp ν} {ev : IappEvent ν} {out : List (IappMsg ν)}
      {fwd : List (Nat × XappRicId)} {ids : List Nat} (h : IappRun ok s fwd ids)
      (hok : ok s ev) (hop : s.step ev = some (s', out)) :
      IappRun ok s' (ev.forwarded s ++ fwd) (handedOut out ++ ids)

omit [DecidableEq ν] in
theorem setupRequest_some {lenRf : Nat} {info : SctpInfo}
    (hop : s.setupRequest lenRf info = some (s', out)) :
    ∃ xapps, addMapXappsSad s.xapps (s.xappId % 2 ^ 16) info = some xapps ∧
      s' = { s with xappId := (s.xappId + 1) % 2 ^ 32, xapps := xapps } ∧
      out = [.setupResponse info (s.xappId % 2 ^ 16)] := by
  unfold Iapp.setupRequest at hop
  split at hop
  · simp at hop
  · obtain ⟨xapps, hx, hop⟩ := Option.bind_eq_some_iff.mp hop
    obtain ⟨rfl, rfl⟩ := Prod.mk.inj (Option.some.inj hop)
    exact ⟨xapps, hx, rfl, rfl⟩

theorem request_some {type : RicRequestType} {xappId : Nat} {node : ν} {ricId : RicGenId}
    (hop : s.request type xappId node ricId = some (s', out)) :
    ∃ map sent, xappId < 2 ^ 16 ∧ xappId ≤ s.xappId ∧
      addMapRicId s.mapRicId ⟨node, { ricId with ricReqId := s.reqId % 2 ^ 16 }, type⟩
        ⟨ricId, xappId⟩ = some map ∧
      s' = { s with mapRicId := map, reqId := s.reqId + 1 } ∧
      out = [.request type node sent] := by
  obtain ⟨valid, hvalid, hop⟩ := Option.bind_eq_some_iff.mp hop
  unfold Iapp.validXappId at hvalid
  split at hvalid
  · rename_i hlt
    obtain rfl := Option.some.inj hvalid
    split at hop
    · simp at hop
    · rename_i hok
      obtain ⟨map, hmap, hop⟩ := Option.bind_eq_some_iff.mp hop
      obtain ⟨rfl, rfl⟩ := Prod.mk.inj (Option.some.inj hop)
      simp only [decide_eq_false_iff_not, not_or, not_not] at hok
      exact ⟨map, _, hlt, hok.1, hmap, rfl, rfl⟩
  · simp at hvalid

omit [DecidableEq ν] in
/-- A message of an E2 node is dropped, or it goes to the address of the xApp of the entry,
under the id of the entry. -/
theorem answer_some {type : E2Answer} {drop remove whole : Bool} {src : RicGenId}
    (hop : s.answer type drop remove whole src = some (s', out)) :
    (s' = s ∧ out = []) ∨
    ∃ x info map, findXappMapRicId s.mapRicId (src.ricReqId % 2 ^ 16) = some (some x) ∧
      findMapXappsSad s.xapps x.xappId = some info ∧
      (map = s.mapRicId ∨ rmMapRicId s.mapRicId x = some map) ∧
      s' = { s with mapRicId := map } ∧ out = [.answer type info x.ricId] := by
  obtain ⟨xpctd, hx, hop⟩ := Option.bind_eq_some_iff.mp hop
  cases xpctd with
  | none =>
    cases drop with
    | false => simp at hop
    | true =>
      obtain ⟨rfl, rfl⟩ := Prod.mk.inj (Option.some.inj hop)
      exact Or.inl ⟨rfl, rfl⟩
  | some x =>
    right
    simp only at hop
    split at hop
    · simp at hop
    · rename_i hids
      obtain ⟨info, hinfo, hop⟩ := Option.bind_eq_some_iff.mp hop
      obtain ⟨map, hmap, hop⟩ := Option.bind_eq_some_iff.mp hop
      obtain ⟨rfl, rfl⟩ := Prod.mk.inj (Option.some.inj hop)
      simp only [not_or, not_not] at hids
      have hdst : (if whole then x.ricId else { src with ricReqId := x.ricId.ricReqId }) =
          x.ricId := by
        cases whole
        · rw [hids.1, hids.2]
          rfl
        · rfl
      refine ⟨x, info, map, hx, hinfo, ?_, rfl, by rw [hdst]⟩
      cases remove
      · exact Or.inl (Option.some.inj hmap).symm
      · exact Or.inr hmap

omit [DecidableEq ν] in
theorem notifyMsg_eq (s : Iapp ν) (type : E2Answer) (src : RicGenId) :
    ∃ drop remove whole, s.notifyMsg type src = s.answer type drop remove whole src := by
  cases type
  · exact ⟨_, _, _, rfl⟩
  · exact ⟨_, _, _, rfl⟩
  · exact ⟨_, _, _, rfl⟩
  · exact ⟨_, _, _, rfl⟩

theorem step_request (s : Iapp ν) (type : RicRequestType) (xappId : Nat) (node : ν)
    (ricId : RicGenId) :
    s.step (.request type xappId node ricId) = s.request type xappId node ricId := by
  cases type <;> rfl

/-- What one event does. -/
theorem step_trans (h : IappInv s ids pairs regs) (hop : s.step ev = some (s', out)) :
    ∃ pairs' regs', IappTrans s s' pairs pairs' regs regs' ev out ∧
      BiInv cmpE2NodeRicReq cmpXappRicGenId s'.mapRicId pairs' ∧
      BiInv cmpUint16 cmpSctpInfo s'.xapps regs' := by
  cases ev with
  | setupRequest lenRf info =>
    obtain ⟨xapps, hx, rfl, rfl⟩ := setupRequest_some hop
    obtain ⟨hfresh, hx'⟩ := addMapXappsSad_some h.xapps hx
    exact ⟨pairs, _, .setup lenRf info hfresh rfl rfl rfl rfl, h.map, hx'⟩
  | request type xappId node ricId =>
    rw [step_request] at hop
    obtain ⟨map, sent, hlt, hid, hmap, rfl, rfl⟩ := request_some hop
    obtain ⟨hfresh, hmap'⟩ := addMapRicId_some h.map hmap
    exact ⟨_, regs, .request type xappId node ricId sent hlt hid hfresh rfl rfl rfl rfl, hmap',
      h.xapps⟩
  | subscriptionDeleteRequest xappId ricId =>
    obtain ⟨n, -, hop⟩ := Option.bind_eq_some_iff.mp hop
    split at hop
    · simp at hop
    · obtain ⟨rfl, rfl⟩ := Prod.mk.inj (Option.some.inj hop)
      exact ⟨pairs, regs, .keep _ _ rfl rfl le_rfl rfl rfl rfl, h.map, h.xapps⟩
  | answer type src =>
    obtain ⟨drop, remove, whole, heq⟩ := notifyMsg_eq s type src
    rcases answer_some (heq.symm.trans hop) with ⟨rfl, rfl⟩ | ⟨x, info, map, hx, -, hmap, rfl, rfl⟩
    · exact ⟨pairs, regs, .keep _ _ rfl rfl le_rfl rfl rfl rfl, h.map, h.xapps⟩
    · rcases hmap with rfl | hmap
      · exact ⟨pairs, regs, .keep _ _ rfl rfl le_rfl rfl rfl rfl, h.map, h.xapps⟩
      · obtain ⟨-, n, hn, -⟩ := findXappMapRicId_some h.map hx
        obtain ⟨pairs', hmap', hle⟩ := rmMapRicId_some h.map h.distinct hn hmap
        exact ⟨pairs', regs, .keep _ _ rfl rfl hle rfl rfl rfl, hmap', h.xapps⟩
  | addE2Node node =>
    obtain ⟨rfl, rfl⟩ := Prod.mk.inj (Option.some.inj hop)
    exact ⟨pairs, regs, .keep _ _ rfl rfl le_rfl rfl rfl rfl, h.map, h.xapps⟩
  | rmE2Node node =>
    obtain ⟨rfl, rfl⟩ := Prod.mk.inj (Option.some.inj hop)
    exact ⟨pairs, regs, .keep _ _ rfl rfl le_rfl rfl rfl rfl, h.map, h.xapps⟩

omit [DecidableEq ν] in
/-- The invariant is kept. -/
theorem IappTrans.inv (h : IappInv s ids pairs regs)
    (ht : IappTrans s s' pairs pairs' regs regs' ev out)
    (hmap : BiInv cmpE2NodeRicReq cmpXappRicGenId s'.mapRicId pairs')
    (hxapps : BiInv cmpUint16 cmpSctpInfo s'.xapps regs') :
    IappInv s' (handedOut out ++ ids) pairs' regs' := by
  cases ht with
  | setup lenRf info hfresh hp hr hx hq =>
    subst hp hr
    -- the counter stops before it comes back to the first id
    have hlt : s.xappId < 2 ^ 16 + 7 := by
      by_contra hge
      obtain ⟨info', hi⟩ := (h.registered (s.xappId % 2 ^ 16)).mp
        ((h.handed _).mpr ⟨s.xappId - 2 ^ 16, by omega, by omega, by omega⟩)
      exact hfresh _ hi rfl
    rw [Nat.mod_eq_of_lt (by omega)] at hx
    refine ⟨hmap, h.distinct, hxapps, fun id => ?_, fun id => ?_, ?_⟩
    · simp only [handedOut, List.cons_append, List.nil_append, List.mem_cons, h.registered,
        Multiset.mem_cons, Prod.mk.injEq, exists_or]
      simp
    · simp only [handedOut, List.cons_append, List.nil_append, List.mem_cons, h.handed, hx]
      constructor
      · rintro (rfl | ⟨j, hj, hjs, hjm⟩)
        · exact ⟨s.xappId, h.counter.1, Nat.lt_succ_self _, rfl⟩
        · exact ⟨j, hj, by omega, hjm⟩
      · rintro ⟨j, hj, hjs, hjm⟩
        rcases Nat.lt_succ_iff_lt_or_eq.mp hjs with hlt' | rfl
        · exact Or.inr ⟨j, hj, hlt', hjm⟩
        · exact Or.inl hjm.symm
    · have := h.counter
      omega
  | request type xappId node ricId sent hlt hid hfresh hp hr hx hq =>
    subst hp hr
    refine ⟨hmap, ?_, hxapps, h.registered, fun id => ?_, ?_⟩
    · rw [Multiset.map_cons, Multiset.nodup_cons]
      refine ⟨fun hmem => ?_, h.distinct⟩
      obtain ⟨e, he, heq⟩ := Multiset.mem_map.mp hmem
      exact hfresh e he heq
    · rw [hx]
      exact h.handed id
    · rw [hx]
      exact h.counter
  | keep _ _ hev hout hp hr hx hq =>
    subst hr
    rw [hout, List.nil_append]
    refine ⟨hmap, ?_, hxapps, h.registered, fun id => ?_, ?_⟩
    · exact Multiset.nodup_of_le (Multiset.map_le_map hp) h.distinct
    · rw [hx]
      exact h.handed id
    · rw [hx]
      exact h.counter

/-- The invariant holds in every run. -/
theorem IappRun.inv {ok : Iapp ν → IappEvent ν → Prop} (h : IappRun ok s fwd ids) :
    ∃ pairs regs, IappInv s ids pairs regs := by
  induction h with
  | init => exact ⟨0, 0, iappInv_init⟩
  | step _ _ hop ih =>
    obtain ⟨pairs, regs, hinv⟩ := ih
    obtain ⟨pairs', regs', ht, hmap, hxapps⟩ := step_trans hinv hop
    exact ⟨pairs', regs', ht.inv hinv hmap hxapps⟩

/-- The events one after the other, with the messages of the last one. -/
def Iapp.run (s : Iapp ν) (out : List (IappMsg ν)) :
    List (IappEvent ν) → Option (Iapp ν × List (IappMsg ν))
  | [] => some (s, out)
  | ev :: evs => do
    let (s, out) ← s.step ev
    s.run out evs

/-- A run of events leads to a state of the runs. -/
theorem IappRun.run {evs : List (IappEvent ν)} {out₀ : List (IappMsg ν)}
    (h : IappRun (fun _ _ => True) s fwd ids) (hop : s.run out₀ evs = some (s', out)) :
    ∃ fwd' ids', IappRun (fun _ _ => True) s' fwd' ids' := by
  induction evs generalizing s fwd ids out₀ with
  | nil =>
    obtain ⟨rfl, rfl⟩ := Prod.mk.inj (Option.some.inj hop)
    exact ⟨fwd, ids, h⟩
  | cons ev evs ih =>
    obtain ⟨⟨s₁, out₁⟩, hstep, hop⟩ := Option.bind_eq_some_iff.mp hop
    exact ih (.step h trivial hstep) hop

end NrStack
