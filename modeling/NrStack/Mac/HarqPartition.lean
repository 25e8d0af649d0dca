import NrStack.Mac.DlHarqOps
import NrStack.Mac.UlHarq

/-!
# Every process in one list

In both directions each process should be in one of the three lists, with the `is_waiting` and the
round of that list, and then no assertion on lists, rounds or waiting processes can fail. This is
so until a Msg4 or MsgB is sent again : `nr_generate_Msg4_MsgB` puts its process into the feedback
list and leaves it in the retransmission list (`harq_partition_iff`). With `harq_round_max` zero no
transmission has a round at all.
-/

namespace NrStack

/-- The statement for one direction. -/
def HarqLists.Placed (harqRoundMax : ℕ) (h : HarqLists) : Prop :=
  ∀ pid, pid < h.len →
    pid ∈ h.available ∧ pid ∉ h.feedback ∧ pid ∉ h.retrans ∧ IsFree (h.process pid) ∨
    pid ∉ h.available ∧ pid ∈ h.feedback ∧ pid ∉ h.retrans ∧
      IsSent harqRoundMax (h.process pid) ∨
    pid ∉ h.available ∧ pid ∉ h.feedback ∧ pid ∈ h.retrans ∧ IsLost harqRoundMax (h.process pid)

theorem HarqLists.Inv.placed {h : HarqLists} {harqRoundMax : ℕ} (hinv : h.Inv harqRoundMax []) :
    h.Placed harqRoundMax := by
  intro pid hpid
  have hnodup : h.ids.Nodup := hinv.nodup
  have hmem : pid ∈ h.ids := hinv.mem_iff.2 hpid
  rw [ids, List.nodup_append, List.nodup_append] at hnodup
  obtain ⟨⟨-, -, hfeedback⟩, -, hretrans⟩ := hnodup
  rw [ids, List.mem_append, List.mem_append] at hmem
  obtain (hmem | hmem) | hmem := hmem
  · exact .inl ⟨hmem, fun h => hfeedback pid hmem pid h rfl,
      fun h => hretrans pid (List.mem_append_left _ hmem) pid h rfl, hinv.available pid hmem⟩
  · exact .inr (.inl ⟨fun h => hfeedback pid h pid hmem rfl, hmem,
      fun h => hretrans pid (List.mem_append_right _ hmem) pid h rfl, hinv.feedback pid hmem⟩)
  · exact .inr (.inr ⟨fun h => hretrans pid (List.mem_append_left _ h) pid hmem rfl,
      fun h => hretrans pid (List.mem_append_right _ h) pid hmem rfl, hmem,
      hinv.retrans pid hmem⟩)

/-! ## Uplink -/

namespace UlHarq

variable {config : HarqConfig} {c : UlHarq}

/-- The condition on one uplink step. -/
def Sound (config : HarqConfig) (c : UlHarq) : UlHarqEvent → Prop
  | .schedule _ _ => 1 ≤ config.harqRoundMax ∨ c.retrans = [] ∧ c.available = []
  | _ => True

/-- An uplink step that meets the condition keeps the lists, or fails since they would get
shorter. -/
theorem step_inv {event : UlHarqEvent} (hinv : c.Inv config.harqRoundMax [])
    (hsound : c.Sound config event) :
    (∃ c', c.step config event = .ok c' ∧ c'.Inv config.harqRoundMax []) ∨
      c.step config event = .error .smallerList := by
  cases event with
  | schedule slot tbSize =>
    refine .inl ?_
    obtain hnone | hsome := em (c.retrans = [] ∧ c.available = [])
    · exact ⟨c, if_pos hnone, hinv⟩
    · obtain ⟨c', hok, hinv', -⟩ := @schedule_spec _ _ slot tbSize hinv hsome
        (hsound.resolve_right hsome)
      exact ⟨c', hok, hinv'⟩
  | rxSdu harqPid sdu =>
    refine .inl ?_
    rw [step, nrRxSdu]
    split_ifs with hneg
    · exact ⟨c, rfl, hinv⟩
    obtain hdisable | hdisable := Bool.eq_false_or_eq_true config.disableHarq
    · rw [handleNrUlHarq, if_pos hdisable]
      exact ⟨_, rfl, hinv⟩
    · obtain ⟨c', gone, hok, hinv', -⟩ := @handle_spec config
        { c with schedUlBytes := c.schedUlBytes - sdu.getD 0 } harqPid.toNat sdu.isNone hinv
        hdisable
      exact ⟨c', hok, hinv'⟩
  | reset => exact .inl ⟨_, rfl, hinv.reset⟩
  | create nrofHARQ =>
    rw [step]
    obtain ⟨h, hcreate⟩ | hcreate := c.toHarqLists.create_cases nrofHARQ
    · rw [hcreate]
      exact .inl ⟨_, rfl, (hinv.create hcreate).1⟩
    · rw [hcreate]
      exact .inr rfl

/-- A grant without rounds fails. -/
theorem step_of_not_sound {event : UlHarqEvent} (hinv : c.Inv config.harqRoundMax [])
    (hsound : ¬c.Sound config event) : c.step config event = .error .roundBound := by
  cases event with
  | schedule slot tbSize =>
    rw [Sound, not_or] at hsound
    exact schedule_of_harqRoundMax hinv hsound.2 (by omega)
  | _ => exact absurd trivial hsound

end UlHarq

/-! ## Downlink -/

namespace DlHarq

variable {c : DlHarq} {harqRoundMax : ℕ}

/-- The condition on one downlink step : no Msg4 or MsgB is sent again, and there is a round to
send in. -/
def Sound (harqRoundMax : ℕ) (c : DlHarq) : DlHarqEvent → Prop
  | .generateMsg4 _ _ => c.ra = .msg4 → c.retrans = [] ∧ (1 ≤ harqRoundMax ∨ c.available = [])
  | .schedule _ =>
    1 ≤ harqRoundMax ∨ c.ra ≠ .connected ∨ c.retrans = [] ∧ c.available = []
  | _ => True

/-- A downlink step that meets the condition keeps the lists, or fails since they would get
shorter or are not there yet. -/
theorem step_inv {event : DlHarqEvent} (hvalid : c.Valid harqRoundMax)
    (hsound : c.Sound harqRoundMax event) :
    (∃ c', c.step harqRoundMax event = .ok c' ∧ c'.Valid harqRoundMax) ∨
      c.step harqRoundMax event = .error .smallerList ∨
      c.step harqRoundMax event = .error .noFreeProcess := by
  have hlists {h : HarqLists} (hinv : h.Inv harqRoundMax []) (hfeedback : h.feedback = c.feedback)
      (hretrans : h.retrans = c.retrans) : { c with toHarqLists := h }.Valid harqRoundMax := by
    refine ⟨hinv, fun hra => ?_⟩
    show (h.feedback ++ h.retrans = [] ∨ h.feedback ++ h.retrans = [c.raHarqPid]) ∧
      (c.ra ≠ .waitMsg4Ack → h.feedback = [])
    rw [hfeedback, hretrans]
    exact hvalid.ra hra
  cases event with
  | msg3 cfra =>
    refine .inl ?_
    rw [step]
    split_ifs with hra hcfra
    · exact ⟨c, rfl, hvalid⟩
    · exact ⟨_, rfl, .of_connected hvalid.lists.reset rfl⟩
    · rw [not_not] at hra
      obtain ⟨halone, hwait⟩ := hvalid.ra (by rw [hra]; decide)
      have hnil := hwait (by rw [hra]; decide)
      exact ⟨_, rfl, hvalid.lists, fun _ => ⟨halone, fun _ => hnil⟩⟩
  | generateMsg4 frame slot =>
    rw [step]
    obtain hra | hra := eq_or_ne c.ra .msg4
    · obtain ⟨hretrans, hmax⟩ := hsound hra
      obtain havailable | havailable := eq_or_ne c.available []
      · refine .inr (.inr ?_)
        rw [nrGenerateMsg4MsgB, if_neg (by rw [hra]; decide), msg4Harq, hretrans]
        simp only [HarqLists.take, havailable]
      · obtain ⟨c', hok, -, -, -, hvalid'⟩ := @msg4_inv _ _ frame slot hvalid hra hretrans havailable
        exact .inl ⟨c', hok, hvalid' (hmax.resolve_right havailable)⟩
    · exact .inl ⟨c, if_pos hra, hvalid⟩
  | schedule pucch =>
    refine .inl ?_
    rw [step]
    obtain hskip | hskip := em (c.ra ≠ .connected ∨ (c.retrans = [] ∧ c.available = []))
    · exact ⟨c, if_pos hskip, hvalid⟩
    · have hmax := hsound.resolve_right hskip
      rw [not_or, not_not] at hskip
      obtain ⟨h', hok, hinv⟩ := (@schedule_inv _ _ pucch hvalid.lists hskip.1 hskip.2).1 hmax
      exact ⟨_, hok, .of_connected hinv hskip.1⟩
  | uci01 frame slot harqValues harqConfidenceLevel nrofHARQ =>
    rw [step]
    obtain hra | hra := eq_or_ne c.ra .connected
    · rw [decide_eq_false (not_not.2 hra)]
      obtain ⟨c', hok, hinv, hra'⟩ := @harqBits_connected _ nrofHARQ frame slot
        (harqBits01 harqValues harqConfidenceLevel) _ hvalid.lists hra
      exact .inl ⟨c', hok, .of_connected hinv hra'⟩
    · rw [decide_eq_true hra]
      exact (harqBits_ra hvalid hra).imp_right .inl
  | uci234 frame slot harqPayload harqBitLen harqCrc =>
    refine .inl ?_
    rw [step]
    split_ifs with hra
    · exact ⟨c, rfl, hvalid⟩
    · rw [not_not] at hra
      obtain ⟨c', hok, hinv, hra'⟩ := @harqBits_connected _ 0 frame slot
        (harqBits234 harqPayload harqBitLen harqCrc) _ hvalid.lists hra
      exact ⟨c', hok, .of_connected hinv hra'⟩
  | reset =>
    refine .inl ?_
    rw [step]
    split_ifs with hra
    · exact ⟨_, rfl, .of_connected hvalid.lists.reset hra⟩
    · exact ⟨c, rfl, hvalid⟩
  | create nrofHARQ =>
    rw [step]
    obtain ⟨h, hcreate⟩ | hcreate := c.toHarqLists.create_cases nrofHARQ
    · obtain ⟨hinv, -, hfeedback, hretrans⟩ := hvalid.lists.create hcreate
      rw [hcreate]
      exact .inl ⟨_, rfl, hlists hinv hfeedback hretrans⟩
    · rw [hcreate]
      exact .inr (.inl rfl)

/-- A step that does not meet the condition fails, or leaves a process in two lists or without a
round. -/
theorem step_of_not_sound {event : DlHarqEvent} (hvalid : c.Valid harqRoundMax)
    (hsound : ¬c.Sound harqRoundMax event) :
    c.step harqRoundMax event = .error .roundBound ∨
      ∃ c', c.step harqRoundMax event = .ok c' ∧ ¬c'.Placed harqRoundMax := by
  cases event with
  | generateMsg4 frame slot =>
    refine .inr ?_
    rw [Sound, Classical.not_imp] at hsound
    obtain ⟨hra, hsound⟩ := hsound
    rw [step]
    cases hretrans : c.retrans with
    | nil =>
      rw [hretrans, not_and_or, not_or] at hsound
      obtain ⟨hmax, havailable⟩ := hsound.resolve_left (not_not.2 rfl)
      obtain ⟨c', hok, hlt, hmem, hround, -⟩ :=
        @msg4_inv _ _ frame slot hvalid hra hretrans havailable
      refine ⟨c', hok, fun hplaced => ?_⟩
      obtain ⟨-, hnot, -⟩ | ⟨-, -, -, hsent⟩ | ⟨-, hnot, -⟩ := hplaced _ hlt
      · exact hnot hmem
      · have := hsent.2
        omega
      · exact hnot hmem
    | cons pid retrans =>
      have hlost := hvalid.lists.retrans pid (hretrans ▸ List.mem_cons_self)
      have hlt : pid < c.len := hvalid.lists.mem_iff.1 (by simp [HarqLists.ids, hretrans])
      refine ⟨{ toHarqLists := c.toHarqLists.await pid frame slot, ra := .waitMsg4Ack,
                raHarqPid := pid }, ?_, fun hplaced => ?_⟩
      · rw [nrGenerateMsg4MsgB, if_neg (by rw [hra]; decide), msg4Harq, hretrans]
        simp only [hlost.1, Bool.false_eq_true, if_false]
      · have hfeedback : pid ∈ (c.toHarqLists.await pid frame slot).feedback :=
          List.mem_append_right _ (List.mem_singleton_self pid)
        have hretrans' : pid ∈ (c.toHarqLists.await pid frame slot).retrans :=
          hretrans ▸ List.mem_cons_self
        obtain ⟨-, hnot, -⟩ | ⟨-, -, hnot, -⟩ | ⟨-, hnot, -⟩ := hplaced pid hlt
        exacts [hnot hfeedback, hnot hretrans', hnot hfeedback]
  | schedule pucch =>
    refine .inl ?_
    rw [Sound, not_or, not_or, not_not] at hsound
    rw [step]
    exact (schedule_inv hvalid.lists hsound.2.1 hsound.2.2).2 (by omega)
  | _ => exact absurd trivial hsound

end DlHarq

/-! ## Runs -/

/-- The two directions of a UE. -/
structure GnbHarq where
  ul : UlHarq
  dl : DlHarq

inductive GnbHarqEvent
  | ul (event : UlHarqEvent)
  | dl (event : DlHarqEvent)

/-- The configuration of the uplink, and `harq_round_max` of the downlink. -/
structure GnbHarqConfig where
  ul : HarqConfig
  dlHarqRoundMax : ℕ

namespace GnbHarq

/-- A new context, in random access or connected without. -/
def fresh (connected : Bool) : GnbHarq where
  ul := {}
  dl := { ra := if connected then .connected else .waitMsg3 }

def step (config : GnbHarqConfig) (s : GnbHarq) : GnbHarqEvent → Except HarqAbort GnbHarq
  | .ul event => (s.ul.step config.ul event).map fun ul => { s with ul := ul }
  | .dl event => (s.dl.step config.dlHarqRoundMax event).map fun dl => { s with dl := dl }

/-- A step of the gNB, until an assertion fails. -/
def stepAlive (config : GnbHarqConfig) :
    Except HarqAbort GnbHarq → GnbHarqEvent → Option (Except HarqAbort GnbHarq)
  | .ok s, event => some (s.step config event)
  | .error _, _ => none

/-- The statement : each process is in one list, and the assertions that may fail are those on a
shorter list and on a context without processes. -/
def Partitioned (config : GnbHarqConfig) : Except HarqAbort GnbHarq → Prop
  | .ok s => s.ul.Placed config.ul.harqRoundMax ∧ s.dl.Placed config.dlHarqRoundMax
  | .error e => e = .smallerList ∨ e = .noFreeProcess

/-- The condition on one step. -/
def Sound (config : GnbHarqConfig) : Except HarqAbort GnbHarq → GnbHarqEvent → Prop
  | .ok s, .ul event => s.ul.Sound config.ul event
  | .ok s, .dl event => s.dl.Sound config.dlHarqRoundMax event
  | .error _, _ => True

/-- The invariant of the runs. -/
def Valid (config : GnbHarqConfig) : Except HarqAbort GnbHarq → Prop
  | .ok s => s.ul.Inv config.ul.harqRoundMax [] ∧ s.dl.Valid config.dlHarqRoundMax
  | .error e => e = .smallerList ∨ e = .noFreeProcess

variable {config : GnbHarqConfig}

theorem Valid.partitioned : ∀ {s : Except HarqAbort GnbHarq}, Valid config s → Partitioned config s
  | .ok _, h => ⟨h.1.placed, h.2.lists.placed⟩
  | .error _, h => h

theorem step_valid {s s' : Except HarqAbort GnbHarq} {event : GnbHarqEvent} (hvalid : Valid config s)
    (hstep : stepAlive config s event = some s') (hsound : Sound config s event) :
    Valid config s' := by
  cases s with
  | error e => cases hstep
  | ok s =>
    cases hstep
    cases event with
    | ul event =>
      obtain ⟨c', hok, hinv⟩ | herror := UlHarq.step_inv hvalid.1 hsound
      · rw [step, hok]
        exact ⟨hinv, hvalid.2⟩
      · rw [step, herror]
        exact .inl rfl
    | dl event =>
      obtain ⟨c', hok, hvalid'⟩ | herror | herror := DlHarq.step_inv hvalid.2 hsound
      · rw [step, hok]
        exact ⟨hvalid.1, hvalid'⟩
      · rw [step, herror]
        exact .inl rfl
      · rw [step, herror]
        exact .inr rfl

theorem step_of_not_sound {s s' : Except HarqAbort GnbHarq} {event : GnbHarqEvent}
    (hvalid : Valid config s) (hstep : stepAlive config s event = some s')
    (hsound : ¬Sound config s event) : ¬Partitioned config s' := by
  have hbound : ¬Partitioned config (.error .roundBound) := by simp [Partitioned]
  cases s with
  | error e => cases hstep
  | ok s =>
    cases hstep
    cases event with
    | ul event =>
      rw [step, UlHarq.step_of_not_sound hvalid.1 hsound]
      exact hbound
    | dl event =>
      obtain herror | ⟨c', hok, hnot⟩ := DlHarq.step_of_not_sound hvalid.2 hsound
      · rw [step, herror]
        exact hbound
      · rw [step, hok]
        exact fun h => hnot h.2

/-- In a run from a new context each process is in one list throughout, and no assertion on them
fails, just if all steps meet the condition. -/
theorem harq_partition_iff (config : GnbHarqConfig) (connected : Bool)
    (events : List GnbHarqEvent) :
    AllStates (stepAlive config) (Partitioned config) (.ok (fresh connected)) events ↔
      AllSteps (stepAlive config) (Sound config) (.ok (fresh connected)) events := by
  have hfresh : Valid config (.ok (fresh connected)) := by
    refine ⟨HarqLists.inv_fresh _, HarqLists.inv_fresh _, fun _ => ⟨.inl rfl, fun _ => rfl⟩⟩
  exact allStates_iff_allSteps (fun s h => h.partitioned) (fun s event s' h => step_valid h)
    (fun s event s' h => step_of_not_sound h) events _ hfresh

/-- A Msg4 that gets a NACK is sent again : its process is in two lists. -/
theorem harq_partition_msg4 :
    ([.dl (.create 8), .dl (.msg3 false), .dl (.generateMsg4 10 5), .dl (.uci01 10 5 [1] 0 8),
      .dl (.generateMsg4 12 5)].foldlM
      (step { ul := { disableHarq := false, harqRoundMax := 4 }, dlHarqRoundMax := 4 })
      (fresh false)).toOption.map (fun s => (s.dl.feedback, s.dl.retrans, s.dl.len)) =
      some ([0], [0], 8) := by
  decide

end GnbHarq

end NrStack
