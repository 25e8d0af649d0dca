import NrStack.Mac.UlHarq

/-!
# The bytes of the grants

`sched_ul_bytes` should be the sum of the transport blocks of the processes that wait for a result
or for a retransmission. A grant adds its block, a block that arrives or is given up is taken off
again. A reset takes nothing off, a grant without HARQ is outstanding nowhere, and a block that
arrives for a process that nothing is expected of takes its length off nevertheless
(`UlHarq.BytesKept`, `ul_bytes_iff`).
-/

namespace NrStack

namespace UlHarq

/-- `sched_ul_bytes` is what the outstanding processes carry. -/
def BytesExact (c : UlHarq) : Prop :=
  c.schedUlBytes = c.outstanding

/-- The lists are as they should be ; without HARQ nothing waits. -/
structure Valid (config : HarqConfig) (c : UlHarq) : Prop where
  lists : c.Inv config.harqRoundMax []
  off : config.disableHarq = true → c.feedback = [] ∧ c.retrans = []

/-- The condition on one step : without HARQ the grants are empty, a block has the length of the
one that its process waits for, unless nothing but that one is kept, and a reset finds nothing
outstanding. -/
def BytesKept (config : HarqConfig) (c : UlHarq) : UlHarqEvent → Prop
  | .schedule _ tbSize => config.disableHarq = true → c.available = [] ∨ tbSize = 0
  | .rxSdu harqPid sdu => 0 ≤ harqPid → config.disableHarq = false → ∀ len, sdu = some len →
      len = reported c.toHarqLists harqPid.toNat ∨
        reported c.toHarqLists harqPid.toNat ≤ len ∧
          sizes c.toHarqLists (kept config.harqRoundMax c.toHarqLists harqPid.toNat) = 0
  | .reset => c.outstanding = 0
  | .create _ => True

section Steps

variable {config : HarqConfig} {c c' : UlHarq}

theorem Valid.outstanding (hvalid : c.Valid config) (hdisable : config.disableHarq = true) :
    c.outstanding = 0 := by
  obtain ⟨hfeedback, hretrans⟩ := hvalid.off hdisable
  rw [UlHarq.outstanding, hfeedback, hretrans]
  rfl

theorem schedule_bytes {slot tbSize : ℕ} (hvalid : c.Valid config) (hexact : c.BytesExact)
    (hstep : c.nrScheduleUlsch config slot tbSize = .ok c') :
    c'.Valid config ∧ (c'.BytesExact ↔ c.BytesKept config (.schedule slot tbSize)) := by
  obtain hnone | hsome := em (c.retrans = [] ∧ c.available = [])
  · rw [nrScheduleUlsch, if_pos hnone] at hstep
    cases hstep
    exact ⟨hvalid, iff_of_true hexact fun _ => .inl hnone.2⟩
  obtain hmax | hmax := Nat.eq_zero_or_pos config.harqRoundMax
  · rw [schedule_of_harqRoundMax hvalid.lists hsome hmax] at hstep
    cases hstep
  obtain ⟨c'', hok, hinv, hon, hoff⟩ := @schedule_spec _ _ slot tbSize hvalid.lists hsome hmax
  obtain rfl : c'' = c' := Except.ok.inj (hok.symm.trans hstep)
  obtain hdisable | hdisable := Bool.eq_false_or_eq_true config.disableHarq
  · obtain ⟨hfeedback, hretrans⟩ := hvalid.off hdisable
    obtain ⟨hbytes, hfeedback', hretrans'⟩ := hoff hdisable hfeedback hretrans
    have hvalid' : c''.Valid config := ⟨hinv, fun _ => ⟨hfeedback', hretrans'⟩⟩
    have havailable : c.available ≠ [] := fun h => hsome ⟨hretrans, h⟩
    refine ⟨hvalid', ?_⟩
    rw [BytesExact, hvalid'.outstanding hdisable, hbytes, show c.schedUlBytes = 0 from
      hexact.trans (hvalid.outstanding hdisable), BytesKept]
    simp [hdisable, havailable]
  · refine ⟨⟨hinv, fun h => by simp [hdisable] at h⟩, iff_of_true ?_ fun h => by
      simp [hdisable] at h⟩
    have hbalance := hon hdisable
    rw [BytesExact] at hexact ⊢
    omega

theorem rxSdu_bytes {harqPid : ℤ} {sdu : Option ℕ} (hvalid : c.Valid config)
    (hexact : c.BytesExact) (hstep : c.nrRxSdu config harqPid sdu = .ok c') :
    c'.Valid config ∧ (c'.BytesExact ↔ c.BytesKept config (.rxSdu harqPid sdu)) := by
  rw [nrRxSdu] at hstep
  rw [BytesExact] at hexact
  split_ifs at hstep with hneg
  · cases hstep
    exact ⟨hvalid, iff_of_true hexact fun hpos => absurd hpos (by omega)⟩
  obtain hdisable | hdisable := Bool.eq_false_or_eq_true config.disableHarq
  · rw [handleNrUlHarq, if_pos hdisable] at hstep
    cases hstep
    have hzero := hvalid.outstanding hdisable
    refine ⟨⟨hvalid.lists, hvalid.off⟩, iff_of_true ?_ fun _ h => by simp [hdisable] at h⟩
    show c.schedUlBytes - sdu.getD 0 = c.outstanding
    omega
  set c₁ : UlHarq := { c with schedUlBytes := c.schedUlBytes - sdu.getD 0 }
  have hlists : c₁.toHarqLists = c.toHarqLists := rfl
  obtain ⟨c'', gone, hok, hinv, hbytes, htotal, hkept⟩ :=
    @handle_spec _ c₁ harqPid.toNat sdu.isNone hvalid.lists hdisable
  obtain rfl : c'' = c' := Except.ok.inj (hok.symm.trans hstep)
  refine ⟨⟨hinv, fun h => by simp [hdisable] at h⟩, ?_⟩
  replace hbytes : c''.schedUlBytes = c.schedUlBytes - sdu.getD 0 - gone := hbytes
  replace htotal : c.outstanding = c''.outstanding + gone +
    (if sdu.isNone then 0 else reported c.toHarqLists harqPid.toNat) := htotal
  rw [hlists] at hkept
  rw [BytesExact, hbytes, hexact]
  cases sdu with
  | none =>
    refine iff_of_true ?_ fun _ _ len h => by cases h
    simp only [Option.isNone_none, if_true, Option.getD_none] at htotal ⊢
    omega
  | some len =>
    have hleft := hkept rfl
    simp only [Option.isNone_some, Bool.false_eq_true, if_false, Option.getD_some, BytesKept,
      hdisable, Option.some.injEq, forall_eq', true_implies, show 0 ≤ harqPid by omega,
      ← hleft] at htotal ⊢
    omega

/-- One step keeps the count just if it meets the condition. -/
theorem step_bytes {event : UlHarqEvent} (hvalid : c.Valid config) (hexact : c.BytesExact)
    (hstep : c.step config event = .ok c') :
    c'.Valid config ∧ (c'.BytesExact ↔ c.BytesKept config event) := by
  cases event with
  | schedule slot tbSize => exact schedule_bytes hvalid hexact hstep
  | rxSdu harqPid sdu => exact rxSdu_bytes hvalid hexact hstep
  | reset =>
    cases hstep
    refine ⟨⟨hvalid.lists.reset, fun _ => ⟨rfl, rfl⟩⟩, ?_⟩
    show c.schedUlBytes = 0 ↔ c.outstanding = 0
    rw [show c.schedUlBytes = c.outstanding from hexact]
  | create nrofHARQ =>
    rw [step] at hstep
    obtain ⟨h, hcreate⟩ | hcreate := c.toHarqLists.create_cases nrofHARQ <;>
      rw [hcreate] at hstep <;> cases hstep
    obtain ⟨hinv, hprocess, hfeedback, hretrans⟩ := hvalid.lists.create hcreate
    refine ⟨⟨hinv, fun hdisable => ?_⟩, iff_of_true ?_ trivial⟩
    · show h.feedback = [] ∧ h.retrans = []
      rw [hfeedback, hretrans]
      exact hvalid.off hdisable
    · show c.schedUlBytes = sizes h (h.feedback ++ h.retrans)
      rw [hfeedback, hretrans, show c.schedUlBytes = c.outstanding from hexact]
      exact (sizes_congr fun p _ => by rw [hprocess]).symm

end Steps

/-- A step, or the end of the process. -/
def stepOption (config : HarqConfig) (c : UlHarq) (event : UlHarqEvent) : Option UlHarq :=
  (c.step config event).toOption

/-- In a run from a new context the count is exact throughout just if all steps meet the
condition. -/
theorem ul_bytes_iff (config : HarqConfig) (events : List UlHarqEvent) :
    AllStates (stepOption config) BytesExact {} events ↔
      AllSteps (stepOption config) (BytesKept config) {} events := by
  have hok {c c' : UlHarq} {event : UlHarqEvent} (h : c.stepOption config event = some c') :
      c.step config event = .ok c' := by
    rw [stepOption] at h
    cases hstep : c.step config event with
    | error e => rw [hstep] at h; cases h
    | ok s => rw [hstep] at h; cases h; rfl
  have hfresh : Valid config {} ∧ BytesExact {} :=
    ⟨⟨HarqLists.inv_fresh _, fun _ => ⟨rfl, rfl⟩⟩, rfl⟩
  refine @allStates_iff_allSteps _ _ _ _ (fun c : UlHarq => c.Valid config ∧ c.BytesExact) _
    (fun c h => h.2) (fun c event c' h hstep hkept => ?_) (fun c event c' h hstep hkept => ?_)
    events {} hfresh
  · obtain ⟨hvalid, hiff⟩ := step_bytes h.1 h.2 (hok hstep)
    exact ⟨hvalid, hiff.2 hkept⟩
  · obtain ⟨-, hiff⟩ := step_bytes h.1 h.2 (hok hstep)
    exact fun hexact => hkept (hiff.1 hexact)

/-- A grant of 100 bytes, and a reset by the random access procedure : 100 bytes are counted, and
no process is outstanding. -/
theorem ul_bytes_reset :
    ([.create 8, .schedule 8 100, .reset].foldlM
      (stepOption { disableHarq := false, harqRoundMax := 4 }) ({} : UlHarq)).map
        (fun c => (c.schedUlBytes, c.outstanding, c.feedback, c.retrans)) =
      some (100, 0, [], []) := by
  decide

end UlHarq

end NrStack
