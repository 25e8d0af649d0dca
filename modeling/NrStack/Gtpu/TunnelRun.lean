import NrStack.Gtpu.TunnelOps
import NrStack.Library.Run

/-!
# Runs of the tunnel operations

An operation that meets `GtpuOp.Ok` keeps the tables consistent and does what it is to do
(`consistent_of_ok`, `effects_of_ok`). Every other one leaves a TEID behind that no bearer has, or
takes the TEID 0 in (`not_consistent_of_not_ok`), so the tables disagree at once
(`gtpu_runs_iff`).
-/

namespace NrStack

open Std

namespace GtpEndPoints

variable {s s' : GtpEndPoints}

/-! ## Tunnels -/

/-- A tunnel : the bearer and where its packets go. -/
def tunnel? (s : GtpEndPoints) (ueId key : UInt64) : Option (GtpuBearer × Option UeidData) :=
  (s.bearer? ueId key).map fun bearer => (bearer, s.handleGpdu bearer.teidIncoming)

theorem tunnel?_congr {u k : UInt64} (hb : s'.bearer? u k = s.bearer? u k)
    (hte : ∀ b, s.bearer? u k = some b →
      s'.handleGpdu b.teidIncoming = s.handleGpdu b.teidIncoming) :
    s'.tunnel? u k = s.tunnel? u k := by
  unfold tunnel?
  rw [hb]
  cases h : s.bearer? u k with
  | none => rfl
  | some b => rw [Option.map_some, Option.map_some, hte b h]

end GtpEndPoints

/-! ## What an operation is to do -/

namespace GtpuOp

/-- The tunnels an operation deletes. -/
def Deletes : GtpuOp → UInt64 → UInt64 → Prop
  | .deleteOneTunnel ueId rbId, u, k => ueId = u ∧ bearerKey rbId = k
  | .deleteAllTunnels ueId, u, _ => ueId = u
  | .deleteTunnels ueId pdusessionId, u, k => ueId = u ∧ ∃ id ∈ pdusessionId, id.toUInt64 = k
  | _, _, _ => False

/-- The tunnels an operation is about. -/
def Touches : GtpuOp → UInt64 → UInt64 → Prop
  | .createTunnel r _, u, k => r.ueId = u ∧ bearerKey r.outgoingBearerId = k
  | .updateOutgoing ueId bearerId _ _, u, k => ueId = u ∧ bearerId.toUInt64 = k
  | .updateUeId oldUeId newUeId, u, _ => u = oldUeId ∨ u = newUeId
  | .sendDirect ueId bearerId _ _, u, k => ueId = u ∧ bearerKey bearerId = k
  | op, u, k => op.Deletes u k

/-- What an operation is to do : nothing to the other tunnels ; a deleted one is found neither by
a packet to be sent nor by a received one ; a UE takes its tunnels along to its new id. -/
structure Effects (op : GtpuOp) (s s' : GtpEndPoints) : Prop where
  others : ∀ u k, ¬op.Touches u k → s'.tunnel? u k = s.tunnel? u k
  deleted : ∀ u k, op.Deletes u k → s'.bearer? u k = none ∧
    ∀ bearer, s.bearer? u k = some bearer → s'.handleGpdu bearer.teidIncoming = none
  moved : ∀ oldUeId newUeId, op = .updateUeId oldUeId newUeId →
    (s.ue2teMapping[oldUeId]? = none → s' = s) ∧
    (s.ue2teMapping[oldUeId]?.isSome → ∀ k, s'.tunnel? newUeId k =
      (s.tunnel? oldUeId k).map fun t => (t.1, t.2.map (UeidData.rename oldUeId newUeId)))

/-- When it goes right : a new tunnel does not exist yet, a UE changes to an id without tunnels and
its bearers have the ids 0, 1 and so on, a deleted TEID is positive as an `int`, and the list of PDU
sessions to delete names none that exists. -/
def Ok (s : GtpEndPoints) : GtpuOp → Prop
  | .createTunnel r _ => s.bearer? r.ueId (bearerKey r.outgoingBearerId) = none
  | .updateUeId oldUeId newUeId => ∀ bearers, s.ue2teMapping[oldUeId]? = some bearers →
    GtpEndPoints.Covers 0 bearers ∧ ∀ k, s.bearer? newUeId k = none
  | .deleteOneTunnel ueId rbId => ∀ bearer, s.bearer? ueId (bearerKey rbId) = some bearer →
    bearer.teidIncoming.toNat < 2 ^ 31
  | .deleteTunnels ueId pdusessionId => ∀ id ∈ pdusessionId, s.bearer? ueId id.toUInt64 = none
  | _ => True

end GtpuOp

namespace GtpEndPoints

variable {s s' : GtpEndPoints} {op : GtpuOp}

/-- A TEID that goes through an `int`. -/
theorem toNat_intKey (teid : UInt32) : teid.toInt32.toInt64.toUInt64.toNat =
    if teid.toNat < 2 ^ 31 then teid.toNat else teid.toNat + (2 ^ 64 - 2 ^ 32) := by
  have h : teid.toInt32.toInt64.toUInt64.toNat = (teid.toBitVec.signExtend 64).toNat := rfl
  have hlt := teid.toNat_lt
  rw [h, BitVec.toNat_signExtend, BitVec.msb_eq_decide]
  simp only [UInt32.toNat_toBitVec]
  split_ifs <;> simp at * <;> omega

theorem intKey_eq {teid : UInt32} (h : teid.toNat < 2 ^ 31) :
    teid.toInt32.toInt64.toUInt64 = teid.toUInt64 := by
  rw [← UInt64.toNat_inj, toNat_intKey, if_pos h]
  rfl

theorem intKey_ne {teid : UInt32} (h : ¬teid.toNat < 2 ^ 31) (teid' : UInt32) :
    teid.toInt32.toInt64.toUInt64 ≠ teid'.toUInt64 := by
  intro heq
  have h' := congrArg UInt64.toNat heq
  have hlt := teid'.toNat_lt
  rw [toNat_intKey, if_neg h] at h'
  have : teid'.toUInt64.toNat = teid'.toNat := rfl
  omega

/-! ## Steps that go right -/

theorem createTunnel_of_ok (hs : s.Consistent) {r : CreateTunnel}
    {draws : List (Fin (2 ^ 31) × Fin (2 ^ 31))}
    (hok : s.bearer? r.ueId (bearerKey r.outgoingBearerId) = none)
    (h : s.newGtpuCreateTunnel r draws = some s') :
    s'.Consistent ∧ (GtpuOp.createTunnel r draws).Effects s s' := by
  obtain ⟨bearer, hne, hfresh, hte, hb⟩ := createTunnel_spec h
  have hb' (u k : UInt64) : s'.bearer? u k =
      if r.ueId = u ∧ bearerKey r.outgoingBearerId = k then some bearer else s.bearer? u k := by
    rw [hb, hok]
    simp
  refine ⟨hs.add hok hne hfresh rfl hte hb', fun u k hno => ?_, nofun, nofun⟩
  refine tunnel?_congr ((hb' u k).trans (if_neg hno)) fun b hold => ?_
  rw [handleGpdu, hte, getElem?_insert_ite, if_neg]
  · rfl
  · exact fun heq => hfresh (heq ▸ hs.mem_of_bearer hold)

theorem tunnel?_modifyBearer {ueId key u k : UInt64} (f : GtpuBearer → GtpuBearer)
    (hno : ¬(ueId = u ∧ key = k)) : (s.modifyBearer ueId key f).tunnel? u k = s.tunnel? u k :=
  tunnel?_congr ((bearer?_modifyBearer ..).trans (if_neg hno)) fun b _ =>
    congrArg (·[b.teidIncoming.toUInt64]?) (te2ueMapping_modifyBearer ..)

theorem updateUeId_of_ok (hs : s.Consistent) {oldUeId newUeId : UInt64}
    (hok : (GtpuOp.updateUeId oldUeId newUeId).Ok s)
    (h : s.gtpv1uUpdateUeId oldUeId newUeId = some s') :
    s'.Consistent ∧ (GtpuOp.updateUeId oldUeId newUeId).Effects s s' := by
  cases hue : s.ue2teMapping[oldUeId]? with
  | none =>
    have hsame : s' = s := by
      unfold gtpv1uUpdateUeId at h
      rw [hue] at h
      exact (Option.some.inj h).symm
    subst hsame
    refine ⟨hs, fun _ _ _ => rfl, nofun, ?_⟩
    rintro _ _ ⟨⟩
    refine ⟨fun _ => rfl, fun hsome => ?_⟩
    rw [hue] at hsome
    cases hsome
  | some bearers =>
    obtain ⟨hcovers, hnone⟩ := hok bearers hue
    obtain ⟨hte, hb⟩ := updateUeId_spec hs hue hcovers h
    refine ⟨hs.move hnone hb hte, fun u k hno => ?_, nofun, ?_⟩
    · obtain ⟨hold, hnew⟩ := not_or.1 hno
      refine tunnel?_congr (by rw [hb, if_neg hold, if_neg hnew]) fun b hbear => ?_
      obtain ⟨data, hdata, rfl⟩ := hs.owner hbear
      have hdata' : s.te2ueMapping[b.teidIncoming.toUInt64]? = some data := hdata
      rw [hdata, handleGpdu, hte, hdata', Option.map_some, UeidData.rename, if_neg hold]
    · rintro _ _ ⟨⟩
      refine ⟨fun hno => ?_, fun _ k => ?_⟩
      · rw [hue] at hno
        cases hno
      by_cases hself : newUeId = oldUeId
      · rw [tunnel?, tunnel?, hb, if_pos hself, ← hself, hnone]
        rfl
      · rw [tunnel?, tunnel?, hb, if_neg hself, if_pos rfl, Option.map_map]
        exact congrArg (Option.map · _) (funext fun b =>
          congrArg (Prod.mk b) (hte b.teidIncoming.toUInt64))

/-- Tunnels that are removed from both tables. -/
theorem effects_of_removed {op : GtpuOp} (hs : s.Consistent)
    (htouch : ∀ u k, op.Touches u k ↔ op.Deletes u k)
    (hmove : ∀ oldUeId newUeId, op ≠ .updateUeId oldUeId newUeId)
    (hnone : ∀ u k, op.Deletes u k → s'.bearer? u k = none)
    (hrest : ∀ u k, ¬op.Deletes u k → s'.bearer? u k = s.bearer? u k)
    (hdel : ∀ u k b, op.Deletes u k → s.bearer? u k = some b →
      s'.handleGpdu b.teidIncoming = none)
    (hkeep : ∀ teid : UInt64, (∀ u k b, op.Deletes u k → s.bearer? u k = some b →
      b.teidIncoming.toUInt64 ≠ teid) → s'.te2ueMapping[teid]? = s.te2ueMapping[teid]?) :
    s'.Consistent ∧ op.Effects s s' := by
  refine ⟨hs.remove _ hnone hrest hdel hkeep, fun u k hno => ?_, fun u k hd => ?_, ?_⟩
  · have hno' := mt (htouch u k).2 hno
    exact tunnel?_congr (hrest u k hno') fun b hold => hs.handleGpdu_of_kept hkeep hno' hold
  · exact ⟨hnone u k hd, fun b => hdel u k b hd⟩
  · exact fun oldUeId newUeId h => absurd h (hmove oldUeId newUeId)

/-- Nothing to delete, and nothing done. -/
theorem effects_of_same {op : GtpuOp} (hs : s.Consistent)
    (hmove : ∀ oldUeId newUeId, op ≠ .updateUeId oldUeId newUeId)
    (hnone : ∀ u k, op.Deletes u k → s.bearer? u k = none) : s.Consistent ∧ op.Effects s s := by
  refine ⟨hs, fun _ _ _ => rfl, fun u k hd => ⟨hnone u k hd, fun b hb => ?_⟩, ?_⟩
  · rw [hnone u k hd] at hb
    cases hb
  · exact fun oldUeId newUeId h => absurd h (hmove oldUeId newUeId)

theorem deleteOneTunnel_of_ok (hs : s.Consistent) {ueId : UInt64} {rbId : Int32}
    (hok : (GtpuOp.deleteOneTunnel ueId rbId).Ok s) :
    (s.newGtpuDeleteOneTunnel ueId rbId).Consistent ∧
      (GtpuOp.deleteOneTunnel ueId rbId).Effects s (s.newGtpuDeleteOneTunnel ueId rbId) := by
  cases hbear : s.bearer? ueId (bearerKey rbId) with
  | none =>
    rw [deleteOneTunnel_of_none hbear]
    refine effects_of_same hs nofun ?_
    rintro _ _ ⟨rfl, rfl⟩
    exact hbear
  | some bearer =>
    obtain ⟨hte, hb⟩ := deleteOneTunnel_spec hbear
    rw [intKey_eq (hok bearer hbear)] at hte
    refine effects_of_removed hs (fun _ _ => Iff.rfl) nofun
      (fun u k hd => (hb u k).trans (if_pos hd)) (fun u k hd => (hb u k).trans (if_neg hd)) ?_
      fun teid hno => ?_
    · rintro _ _ b ⟨rfl, rfl⟩ hold
      rw [hbear] at hold
      cases hold
      rw [handleGpdu, hte, getElem?_erase_ite, if_pos rfl]
    · rw [hte, getElem?_erase_ite, if_neg (hno _ _ _ ⟨rfl, rfl⟩ hbear)]

theorem deleteAllTunnels_of_ok (hs : s.Consistent) (ueId : UInt64) :
    (s.newGtpuDeleteAllTunnels ueId).Consistent ∧
      (GtpuOp.deleteAllTunnels ueId).Effects s (s.newGtpuDeleteAllTunnels ueId) := by
  cases hue : s.ue2teMapping[ueId]? with
  | none =>
    have hsame : s.newGtpuDeleteAllTunnels ueId = s := by
      unfold newGtpuDeleteAllTunnels
      rw [hue]
    rw [hsame]
    refine effects_of_same hs nofun ?_
    rintro _ k rfl
    exact bearer?_of_no_ue hue k
  | some bearers =>
    obtain ⟨hdel, hkeep, hb⟩ := deleteAllTunnels_spec hue
    refine effects_of_removed hs (fun _ _ => Iff.rfl) nofun
      (fun u k hd => (hb u k).trans (if_pos hd)) (fun u k hd => (hb u k).trans (if_neg hd)) ?_
      fun teid hno => ?_
    · rintro _ k b rfl
      exact hdel k b
    · exact hkeep teid fun k b => hno ueId k b rfl

theorem deleteTunnels_of_ok (hs : s.Consistent) {ueId : UInt64} {pdusessionId : List UInt8}
    (hok : (GtpuOp.deleteTunnels ueId pdusessionId).Ok s) :
    (s.newGtpuDeleteTunnels ueId pdusessionId).Consistent ∧
      (GtpuOp.deleteTunnels ueId pdusessionId).Effects s
        (s.newGtpuDeleteTunnels ueId pdusessionId) := by
  have hgone (u k : UInt64) (hd : (GtpuOp.deleteTunnels ueId pdusessionId).Deletes u k) :
      s.bearer? u k = none := by
    obtain ⟨rfl, id, hid, rfl⟩ := hd
    exact hok id hid
  cases hue : s.ue2teMapping[ueId]? with
  | none =>
    have hsame : s.newGtpuDeleteTunnels ueId pdusessionId = s := by
      unfold newGtpuDeleteTunnels
      rw [hue]
    rw [hsame]
    exact effects_of_same hs nofun hgone
  | some bearers =>
    obtain ⟨hdel, hkeep, hb⟩ := deleteTunnels_spec pdusessionId hue
    refine effects_of_removed hs (fun _ _ => Iff.rfl) nofun
      (fun u k hd => (hb u k).trans (hgone u k hd)) (fun u k _ => hb u k) ?_ fun teid hno => ?_
    · rintro _ _ b ⟨rfl, id, hid, rfl⟩
      exact hdel id hid b
    · exact hkeep teid fun id hid b => hno ueId id.toUInt64 b ⟨rfl, id, hid, rfl⟩

/-- A step that meets `Ok` keeps the invariant and has its effects. -/
theorem effects_of_ok {op : GtpuOp} (hs : s.Consistent) (hok : op.Ok s)
    (h : s.step op = some s') : s'.Consistent ∧ op.Effects s s' := by
  cases op with
  | createTunnel r draws => exact createTunnel_of_ok hs hok h
  | updateOutgoing ueId bearerId addr teid =>
    cases h
    exact ⟨hs.modifyBearer _ _ fun _ => rfl, fun u k => tunnel?_modifyBearer _, nofun, nofun⟩
  | updateUeId oldUeId newUeId => exact updateUeId_of_ok hs hok h
  | deleteOneTunnel ueId rbId =>
    cases h
    exact deleteOneTunnel_of_ok hs hok
  | deleteAllTunnels ueId =>
    cases h
    exact deleteAllTunnels_of_ok hs ueId
  | deleteTunnels ueId pdusessionId =>
    cases h
    exact deleteTunnels_of_ok hs hok
  | sendDirect ueId bearerId seqNumFlag npduNumFlag =>
    cases h
    exact ⟨hs.modifyBearer _ _ fun _ => rfl, fun u k => tunnel?_modifyBearer _, nofun, nofun⟩

/-! ## Steps that go wrong -/

/-- A step that does not meet `Ok` breaks the invariant. -/
theorem not_consistent_of_not_ok {op : GtpuOp} (hs : s.Consistent) (hok : ¬op.Ok s)
    (h : s.step op = some s') : ¬s'.Consistent := by
  cases op with
  | createTunnel r draws =>
    -- the TEID of the old tunnel stays
    obtain ⟨old, hold⟩ := Option.ne_none_iff_exists'.1 hok
    obtain ⟨bearer, -, hfresh, hte, hb⟩ := createTunnel_spec h
    have hmem : old.teidIncoming.toUInt64 ∈ s'.te2ueMapping := by
      rw [hte]
      exact mem_insert_iff.2 (.inr (hs.mem_of_bearer hold))
    refine not_consistent_of_orphan hmem fun u k b hnew heq => ?_
    rw [hb, hold] at hnew
    split_ifs at hnew with hu hgone
    · cases hnew
      exact hfresh (heq ▸ hs.mem_of_bearer hold)
    · obtain ⟨rfl, -⟩ := hs.unique hold hnew (UInt32.toUInt64_inj.1 heq.symm)
      exact hgone ⟨rfl, rfl⟩
  | updateOutgoing => exact absurd trivial hok
  | updateUeId oldUeId newUeId =>
    obtain ⟨bearers, hue, hbad⟩ : ∃ bearers, s.ue2teMapping[oldUeId]? = some bearers ∧
        ¬(Covers 0 bearers ∧ ∀ k, s.bearer? newUeId k = none) := by
      simpa [GtpuOp.Ok] using hok
    by_cases hcovers : Covers 0 bearers
    swap
    · exact not_consistent_of_gap hue hcovers h
    -- the tunnels of the new id are replaced
    obtain ⟨k, hk⟩ := not_forall.1 fun hall => hbad ⟨hcovers, hall⟩
    obtain ⟨old, hold⟩ := Option.ne_none_iff_exists'.1 hk
    obtain ⟨hte, hb⟩ := updateUeId_spec hs hue hcovers h
    have hmem : old.teidIncoming.toUInt64 ∈ s'.te2ueMapping := by
      obtain ⟨data, hdata⟩ := mem_iff_getElem?.1 (hs.mem_of_bearer hold)
      exact mem_iff_getElem?.2 ⟨_, by rw [hte, hdata, Option.map_some]⟩
    refine not_consistent_of_orphan hmem fun u k' b hnew heq => ?_
    rw [hb] at hnew
    split_ifs at hnew with h₁ h₂
    · obtain ⟨h₃, -⟩ := hs.unique hold hnew (UInt32.toUInt64_inj.1 heq.symm)
      exact h₁ (h₂.trans h₃)
    · obtain ⟨h₃, -⟩ := hs.unique hold hnew (UInt32.toUInt64_inj.1 heq.symm)
      exact h₂ h₃.symm
  | deleteOneTunnel ueId rbId =>
    cases h
    obtain ⟨old, hold, hbig⟩ : ∃ old, s.bearer? ueId (bearerKey rbId) = some old ∧
        ¬old.teidIncoming.toNat < 2 ^ 31 := by
      simpa [GtpuOp.Ok] using hok
    obtain ⟨hte, hb⟩ := deleteOneTunnel_spec hold
    have hmem : old.teidIncoming.toUInt64 ∈
        (s.newGtpuDeleteOneTunnel ueId rbId).te2ueMapping := by
      obtain ⟨data, hdata⟩ := mem_iff_getElem?.1 (hs.mem_of_bearer hold)
      exact mem_iff_getElem?.2 ⟨data, by
        rw [hte, getElem?_erase_ite, if_neg (intKey_ne hbig _), hdata]⟩
    refine not_consistent_of_orphan hmem fun u k b hnew heq => ?_
    rw [hb] at hnew
    split_ifs at hnew with hd
    exact hd (hs.unique hold hnew (UInt32.toUInt64_inj.1 heq.symm))
  | deleteAllTunnels => exact absurd trivial hok
  | deleteTunnels ueId pdusessionId =>
    cases h
    obtain ⟨id, hid, hk⟩ : ∃ id ∈ pdusessionId, s.bearer? ueId id.toUInt64 ≠ none := by
      simpa [GtpuOp.Ok] using hok
    obtain ⟨old, hold⟩ := Option.ne_none_iff_exists'.1 hk
    obtain ⟨bearers, hue, -⟩ := Option.bind_eq_some_iff.1 hold
    obtain ⟨hdel, -, hb⟩ := deleteTunnels_spec pdusessionId hue
    -- the bearer stays, its TEID goes
    intro hs'
    obtain ⟨data, hdata, -⟩ := hs'.owner ((hb ueId id.toUInt64).trans hold)
    rw [hdel id hid old hold] at hdata
    cases hdata
  | sendDirect => exact absurd trivial hok

end GtpEndPoints

/-! ## Runs -/

namespace GtpuOp

/-- Every step of a run has its effects. -/
def HasEffects (s : GtpEndPoints) (op : GtpuOp) : Prop :=
  ∀ s', s.step op = some s' → op.Effects s s'

end GtpuOp

namespace GtpEndPoints

theorem consistent_iff_ok (ops : List GtpuOp) (s : GtpEndPoints) (hs : s.Consistent) :
    AllStates step Consistent s ops ↔ AllSteps step (fun s op => op.Ok s) s ops :=
  allStates_iff_allSteps (fun _ hs => hs) (fun _ _ _ hs h hok => (effects_of_ok hs hok h).1)
    (fun _ _ _ hs h hok => not_consistent_of_not_ok hs hok h) ops s hs

theorem hasEffects_of_ok : ∀ (ops : List GtpuOp) (s : GtpEndPoints), s.Consistent →
    AllSteps step (fun s op => op.Ok s) s ops →
      AllSteps step (fun s op => op.HasEffects s) s ops
  | [], _, _, _ => trivial
  | op :: ops, s, hs, h => fun s' hstep => by
    obtain ⟨hok, hrest⟩ := h s' hstep
    refine ⟨fun s'' hstep' => (effects_of_ok hs hok hstep').2, ?_⟩
    exact hasEffects_of_ok ops s' (effects_of_ok hs hok hstep).1 hrest

/-- **The tunnel tables** : they stay consistent and every operation has its effects throughout a
run exactly if all its operations meet `Ok`. -/
theorem gtpu_runs_iff (ops : List GtpuOp) :
    (AllStates step Consistent init ops ∧ AllSteps step (fun s op => op.HasEffects s) init ops) ↔
      AllSteps step (fun s op => op.Ok s) init ops := by
  rw [consistent_iff_ok ops init consistent_init]
  exact and_iff_left_of_imp (hasEffects_of_ok ops init consistent_init)

/-- A tunnel of UE 1 for PDU session 1. -/
def oneTunnel : CreateTunnel where
  ueId := 1
  incomingBearerId := 1
  outgoingBearerId := 1
  outgoingTeid := 7
  outgoingQfi := 9
  remoteAddr := ⟨32, .replicate 20 10⟩
  port := 2152
  callBack := 1
  callBackSDAP := 2

/-- PDU session 1 is created, and deleted with the list of PDU sessions : its bearer is still there
to send packets. -/
theorem gtpu_deleteTunnels_keeps :
    ¬(AllStates step Consistent init [.createTunnel oneTunnel [(0, 0)], .deleteTunnels 1 [1]] ∧
      AllSteps step (fun s op => op.HasEffects s) init
        [.createTunnel oneTunnel [(0, 0)], .deleteTunnels 1 [1]]) := by
  rintro ⟨h, -⟩
  rw [consistent_iff_ok _ _ consistent_init] at h
  obtain ⟨s, hs⟩ : ∃ s, step init (.createTunnel oneTunnel [(0, 0)]) = some s := ⟨_, rfl⟩
  have hcreate : init.newGtpuCreateTunnel oneTunnel [(0, 0)] = some s := hs
  obtain ⟨bearer, -, -, -, hb⟩ := createTunnel_spec hcreate
  have hok : s.bearer? 1 1 = none := ((h s hs).2 _ rfl).1 1 (List.mem_singleton_self 1)
  rw [hb, if_pos ⟨rfl, by decide⟩] at hok
  cases hok

end GtpEndPoints

end NrStack
