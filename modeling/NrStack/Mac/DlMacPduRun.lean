import NrStack.Library.Block
import NrStack.Mac.DlMacPdu

/-!
# Which blocks the UE parses inside their bounds

A parser does what it should if it returns, and what it tells the rest of the UE was read from whole
elements (`DlParsed`). What it finds at a position is an `Extent`, read off the bytes and a few
flags of the UE : an element, the end, or something that it reads behind the end of the block or
that ends the process. `dl_parsers_iff` : it does what it should for exactly the inputs where it
comes to the end (`DlInputInside`).
-/

namespace NrStack

/-! ## The property -/

/-- A contention resolution is decided on the six bytes of an identity. -/
def DlMacEvent.Whole : DlMacEvent → Prop
  | .contentionResolution contResId _ => contResId.length = 6
  | _ => True

def DlMacRun.Whole (run : DlMacRun) : Prop :=
  ∀ event ∈ run.events, event.Whole

/-- The parser returns, and nothing it tells comes from an element that is cut. -/
def DlParsed (result : Except MacPduFault DlMacRun) : Prop :=
  ∃ run, result = .ok run ∧ run.Whole

/-- What the UE receives. -/
inductive DlInput
  | macPdu (pduP : List UInt8)
  | rar (ackNack : Bool) (dlschBuffer : List UInt8)
  deriving DecidableEq, Repr

/-- The parsers do what they should. -/
def DlInput.Parsed (env : DlMacEnv) (ra : UeRaConfig) : DlInput → Prop
  | .macPdu pduP => DlParsed (nrUeProcessMacPdu env ra pduP)
  | .rar ackNack dlschBuffer => DlParsed (nrUeProcessRar env ra ackNack dlschBuffer)

/-! ## Its condition -/

/-- The control elements that the UE steps over, with their lengths. -/
def skippedCeLen : DlSchLcid → Option ℕ
  | .recommendedBitrate => some 2
  | .spZpCsiRsResSetAct => some 2
  | .pucchSpatialRelationAct => some 3
  | .spCsiRepPucchAct => some 2
  | .tciStateIndUeSpecPdcch => some 2
  | .duplicationAct => some 1
  | .scellAct4Oct => some 4
  | .scellAct1Oct => some 1
  | .lDrx => some 0
  | .drx => some 0
  | .unknown => some 0
  | _ => none

/-- An SDU lies in the block with its subheader. -/
def MacLen.Fits (lens : MacLen) (pduP : List UInt8) : Prop :=
  lens.macSubheaderLen + lens.macLen ≤ pduP.length

instance MacLen.decidableFits (lens : MacLen) (pduP : List UInt8) : Decidable (lens.Fits pduP) :=
  inferInstanceAs (Decidable (_ ≤ _))

/-- An element of a DL-SCH PDU. `waiting` for the contention resolution, the UE needs the whole of a
contention resolution identity. -/
def dlExtent (env : DlMacEnv) (ra : UeRaConfig) (waiting : Bool) : List UInt8 → Extent Bool
  | [] => .stop
  | first :: rest =>
    let lens := getMacLen (first :: rest)
    let next := Extent.next (lens.macSubheaderLen + lens.macLen) waiting
    match dlSchLcid (first &&& 0x3F) with
    | .ccch =>
      if ¬ lens.ok then .outside
      else if ((first :: rest).take (lens.macSubheaderLen + lens.macLen)).all (· == 0) then .stop
      else if lens.macLen = 0 ∨ lens.Fits (first :: rest) then next
      else .outside
    | .logicalChannel =>
      if ¬ lens.ok then .stop
      else if lens.Fits (first :: rest) then next
      else .outside
    | .taCommand =>
      match rest with
      | [] => .outside
      | octet :: _ => if octet.toNat / 64 = ra.tagId then .next 2 waiting else .stop
    | .conResId =>
      if ¬ waiting then .next 7 waiting
      else if rest.length < 6 then .outside
      else if env.iqPlayer ∨ rest.take 6 = ra.contResId.toList then .next 7 (!ra.raActive)
      else .stop
    | .padding => .stop
    | .tciStateActUeSpecPdsch | .aperiodicCsiTriStateSubsel | .spCsiRsCsiImResSetAct
    | .spSrsActivation => next
    | kind => .next (1 + (skippedCeLen kind).getD 0) waiting

/-- A PDU starts with the subheaders of a MsgB, or not. -/
inductive DlPhase
  | msgB
  | dl (waiting : Bool)
  deriving DecidableEq, Repr

/-- The phase of an extent of a DL-SCH element. -/
def Extent.toDl : Extent Bool → Extent DlPhase
  | .outside => .outside
  | .stop => .stop
  | .next len waiting => .next len (.dl waiting)

/-- A subheader of a MsgB : a backoff indicator, or a successRAR of 12 bytes. A RAPID ends the
process. The E bit says whether another follows. -/
def msgBExtent : List UInt8 → Extent DlPhase
  | [] => .stop
  | octet :: rest =>
    let phase := if octet &&& 0x80 ≠ 0 then DlPhase.msgB else .dl false
    if octet &&& 0x40 ≠ 0 then .outside
    else if octet &&& 0x20 = 0 then .next 1 phase
    else if rest.length < 11 then .outside
    else .next 12 phase

def dlPhaseExtent (env : DlMacEnv) (ra : UeRaConfig) : DlPhase → List UInt8 → Extent DlPhase
  | .msgB, pduP => msgBExtent pduP
  | .dl waiting, pduP => (dlExtent env ra waiting pduP).toDl

/-- A subheader of a RAR : it is there; the RAR for the preamble of the UE lies in the buffer and
its grant can be scheduled; and behind one of another preamble with the E bit the next is looked
for. -/
def rarExtent (env : DlMacEnv) (ra : UeRaConfig) (dlschBuffer : List UInt8) :
    UInt8 × UInt8 → List UInt8 → Extent (UInt8 × UInt8)
  | _, [] => .outside
  | (nSubheaders, nSubPdus), octet :: _ =>
    let offset := rarOffset (nSubheaders + 1) (nSubPdus + 1)
    if octet &&& 0x40 = 0 then
      if octet &&& 0x80 ≠ 0 then .next 1 (nSubheaders + 1, nSubPdus) else .stop
    else if octet &&& 0x3F = ra.raPreambleIndex then
      if 0 ≤ offset ∧ offset + 7 ≤ dlschBuffer.length ∧
          ¬ env.grantAsserts ((dlschBuffer.drop offset.toNat).take 7) then .stop
      else .outside
    else if octet &&& 0x80 ≠ 0 then .next 8 (nSubheaders + 1, nSubPdus + 1)
    else .stop

/-- The input is parsed inside its bounds. A MsgB has a second byte. -/
def DlInput.InBounds (env : DlMacEnv) (ra : UeRaConfig) : DlInput → Prop
  | .macPdu pduP =>
    if ra.twoStep ∧ ra.raState = .waitMsgB then
      2 ≤ pduP.length ∧ Inside (dlPhaseExtent env ra) .msgB (dlLeft pduP)
    else
      Inside (dlPhaseExtent env ra) (.dl (ra.raState = .waitContentionResolution)) (dlLeft pduP)
  | .rar ackNack dlschBuffer =>
    ackNack = true → Inside (rarExtent env ra dlschBuffer) (0, 0) dlschBuffer

/-! ## RAR -/

variable {env : DlMacEnv} {ra : UeRaConfig} {run : DlMacRun} {pduP rest : List UInt8}

theorem pduOctets_of_le {start len : ℕ} (h : start + len ≤ pduP.length) :
    pduOctets pduP start len = .ok ((pduP.drop start).take len) := by
  rw [pduOctets, if_pos h]

theorem pduOctets_of_lt {start len : ℕ} (h : pduP.length < start + len) :
    pduOctets pduP start len = .error .outside := by
  rw [pduOctets, if_neg (Nat.not_le_of_lt h)]

theorem DlMacRun.Whole.emit {event : DlMacEvent} (h : run.Whole) (hevent : event.Whole) :
    (run.emit event).Whole := by
  intro event' hmem
  rcases List.mem_append.1 hmem with hold | hnew
  · exact h event' hold
  · rw [List.mem_singleton.1 hnew]
    exact hevent

theorem DlMacRun.Whole.nrRaSucceeded (h : run.Whole) : run.nrRaSucceeded.Whole :=
  @DlMacRun.Whole.emit { run with ra := _ } _ h trivial

/-- What stays of the UE over the subheaders of a RAR. -/
structure DlMacRun.RarInv (ra : UeRaConfig) (run : DlMacRun) : Prop where
  whole : run.Whole
  preamble : run.ra.raPreambleIndex = ra.raPreambleIndex

theorem DlMacRun.RarInv.backoffIndicator (h : run.RarInv ra) (octet : UInt8) :
    (run.backoffIndicator octet).RarInv ra :=
  ⟨h.whole, h.preamble⟩

/-- The RAR at an offset, if it lies in the buffer. -/
theorem rarAt_eq (dlschBuffer : List UInt8) (offset : Int) :
    rarAt dlschBuffer offset =
      if 0 ≤ offset ∧ offset + 7 ≤ dlschBuffer.length then
        .ok ((dlschBuffer.drop offset.toNat).take 7)
      else .error .outside := by
  rw [rarAt]
  by_cases hpos : 0 ≤ offset
  · rw [if_pos hpos, pduOctets]
    refine if_congr ?_ rfl rfl
    omega
  · rw [if_neg hpos, if_neg fun h => hpos h.1]

/-- A subheader of a RAR : what the loop does there. -/
theorem rarLoop_succ (env : DlMacEnv) (dlschBuffer : List UInt8) {rarh : List UInt8} (n : ℕ)
    (ns np : UInt8) (hrarh : rarh ≠ []) (hrun : run.RarInv ra) :
    match rarExtent env ra dlschBuffer (ns, np) rarh with
    | .outside => ∃ fault, rarLoop env dlschBuffer (n + 1) rarh ns np run = .error fault
    | .stop => DlParsed (rarLoop env dlschBuffer (n + 1) rarh ns np run)
    | .next len (ns', np') => 0 < len ∧ ∃ run' : DlMacRun, run'.RarInv ra ∧
        rarLoop env dlschBuffer (n + 1) rarh ns np run =
          rarLoop env dlschBuffer n (rarh.drop len) ns' np' run' := by
  obtain ⟨octet, rarh, rfl⟩ := List.exists_cons_of_ne_nil hrarh
  simp only [rarExtent, rarLoop, pduOctet_cons_zero, ok_bind]
  by_cases hbi : octet &&& 0x40 = 0
  · by_cases he : octet &&& 0x80 = 0
    · simp only [hbi, he, ne_eq, not_true_eq_false, if_true, if_false]
      exact ⟨_, rfl, hrun.whole⟩
    · simp only [hbi, he, ne_eq, not_false_eq_true, if_true]
      exact ⟨Nat.one_pos, _, hrun.backoffIndicator octet, rfl⟩
  · simp only [hbi, if_false, hrun.preamble]
    by_cases hrapid : octet &&& 0x3F = ra.raPreambleIndex
    · simp only [hrapid, if_true, rarAt_eq]
      by_cases hin : 0 ≤ rarOffset (ns + 1) (np + 1) ∧
          rarOffset (ns + 1) (np + 1) + 7 ≤ dlschBuffer.length
      · by_cases hgrant : env.grantAsserts
            ((dlschBuffer.drop (rarOffset (ns + 1) (np + 1)).toNat).take 7) = true
        · rw [if_neg fun h => h.2.2 hgrant]
          exact ⟨.assertFatal, by rw [if_pos hin, ok_bind, if_pos hgrant]; rfl⟩
        · rw [if_pos ⟨hin.1, hin.2, hgrant⟩]
          have hstopped : (run.emit .stopResponseWindow).Whole := hrun.whole.emit trivial
          have hwhole : ((run.emit .stopResponseWindow).emit (.rar ((dlschBuffer.drop
              (rarOffset (ns + 1) (np + 1)).toNat).take 7))).Whole := hstopped.emit trivial
          simp only [if_pos hin, ok_bind, if_neg hgrant]
          split
          · exact ⟨_, rfl, hwhole.nrRaSucceeded⟩
          · exact ⟨_, rfl, hwhole⟩
      · rw [if_neg fun h => hin ⟨h.1, h.2.1⟩]
        exact ⟨.outside, by rw [if_neg hin, error_bind]⟩
    · simp only [hrapid, if_false]
      by_cases he : octet &&& 0x80 = 0
      · simp only [he, ne_eq, not_true_eq_false, if_true, if_false]
        exact ⟨_, rfl, hrun.whole.emit trivial⟩
      · simp only [he, ne_eq, not_false_eq_true, if_true, if_false]
        exact ⟨by omega, run, hrun, rfl⟩

theorem not_dlParsed_of_error {result : Except MacPduFault DlMacRun} {fault : MacPduFault}
    (h : result = .error fault) : ¬ DlParsed result := by
  rintro ⟨fin, hfin, -⟩
  cases h.symm.trans hfin

/-- A RAR is parsed as it should be if its subheaders lead inside the buffer. -/
theorem rarLoop_iff (dlschBuffer : List UInt8) {n : ℕ} {rarh : List UInt8} {ns np : UInt8}
    (hrun : run.RarInv ra) (hn : rarh.length ≤ n) :
    DlParsed (rarLoop env dlschBuffer n rarh ns np run) ↔
      Inside (rarExtent env ra dlschBuffer) (ns, np) rarh := by
  refine @inside_iff _ _ (DlMacRun × UInt8 × UInt8) _ (rarExtent env ra dlschBuffer)
    (fun n l t => rarLoop env dlschBuffer n l t.2.1 t.2.2 t.1) DlParsed (fun t => t.2)
    (fun t => t.1.RarInv ra) ?_ ?_ ?_ ?_ n rarh (run, ns, np) hrun hn
  · intro n t _
    refine iff_of_false ?_ (not_inside_of_outside rfl)
    cases n with
    | zero => exact not_dlParsed_of_error rfl
    | succ n => exact not_dlParsed_of_error rfl
  all_goals
    rintro n l ⟨t, ns, np⟩
  · intro ht hl hextent
    have hstep := rarLoop_succ env dlschBuffer n ns np hl ht
    rw [hextent] at hstep
    obtain ⟨fault, hfault⟩ := hstep
    exact not_dlParsed_of_error hfault
  · intro ht hl hextent
    have hstep := rarLoop_succ env dlschBuffer n ns np hl ht
    rw [hextent] at hstep
    exact hstep
  · rintro len ⟨ns', np'⟩ ht hl hextent
    have hstep := rarLoop_succ env dlschBuffer n ns np hl ht
    rw [hextent] at hstep
    obtain ⟨hpos, run', hrun', hloop⟩ := hstep
    exact ⟨hpos, (run', ns', np'), rfl, hrun', by rw [hloop]⟩

/-! ## DL-SCH -/

/-- What stays of the UE over the elements of a DL-SCH PDU. -/
structure DlMacRun.DlInv (ra : UeRaConfig) (run : DlMacRun) : Prop where
  whole : run.Whole
  tagId : run.ra.tagId = ra.tagId
  contResId : run.ra.contResId = ra.contResId
  raActive : run.ra.raState = .waitContentionResolution → run.ra.raActive = ra.raActive

/-- The UE waits for the contention resolution. -/
def DlMacRun.waiting (run : DlMacRun) : Bool :=
  run.ra.raState = .waitContentionResolution

theorem DlMacRun.DlInv.emit {event : DlMacEvent} (h : run.DlInv ra) (hevent : event.Whole) :
    (run.emit event).DlInv ra :=
  ⟨h.whole.emit hevent, h.tagId, h.contResId, h.raActive⟩

theorem DlMacRun.DlInv.nrRaSucceeded (h : run.DlInv ra) : run.nrRaSucceeded.DlInv ra := by
  refine ⟨h.whole.nrRaSucceeded, ?_, ?_, by simp [DlMacRun.nrRaSucceeded, DlMacRun.emit]⟩
  · rw [← h.tagId]
    simp only [DlMacRun.nrRaSucceeded, DlMacRun.emit]
    split <;> rfl
  · rw [← h.contResId]
    simp only [DlMacRun.nrRaSucceeded, DlMacRun.emit]
    split <;> rfl

theorem not_whole_emit {event : DlMacEvent} (hevent : ¬ event.Whole) : ¬ (run.emit event).Whole :=
  fun h => hevent (h event (List.mem_append_right _ (List.mem_singleton_self _)))

theorem DlMacRun.Whole.of_emit {event : DlMacEvent} (h : (run.emit event).Whole) : run.Whole :=
  fun event' hmem => h event' (List.mem_append_left _ hmem)

theorem DlMacRun.Whole.of_nrRaSucceeded (h : run.nrRaSucceeded.Whole) : run.Whole :=
  @DlMacRun.Whole.of_emit { run with ra := _ } _ h

/-- A comparison with an identity that is all there. -/
theorem checkContRes_of_le (pdu : List UInt8) : ∀ (contRes : List UInt8) (i : ℕ),
    i + contRes.length ≤ pdu.length →
      checkContRes pdu contRes i = .ok (decide ((pdu.drop i).take contRes.length = contRes))
  | [], i, _ => by simp [checkContRes, pure, Except.pure]
  | octet :: contRes, i, h => by
    have hi : i < pdu.length := by
      simp only [List.length_cons] at h
      omega
    have htail := checkContRes_of_le pdu contRes (i + 1) (by
      simp only [List.length_cons] at h
      omega)
    rw [checkContRes, pduOctet_of_lt hi, ok_bind, List.drop_eq_getElem_cons hi, List.length_cons,
      List.take_succ_cons]
    by_cases heq : pdu[i] = octet
    · simp [heq, htail]
    · simp [heq, pure, Except.pure]

theorem checkRaContentionResolution_of_le (env : DlMacEnv) {pdu : List UInt8}
    (contRes : Vector UInt8 6) (h : 6 ≤ pdu.length) :
    checkRaContentionResolution env pdu contRes.toList =
      .ok (decide (env.iqPlayer ∨ pdu.take 6 = contRes.toList)) := by
  have hlen : contRes.toList.length = 6 := by simp
  rw [checkRaContentionResolution]
  by_cases hiq : env.iqPlayer = true
  · simp [hiq, pure, Except.pure]
  · rw [if_neg hiq, checkContRes_of_le pdu contRes.toList 0 (by omega), hlen]
    simp [hiq]

/-- An element that is read behind the block, ends the process or is cut. -/
def BadStep (result : Except MacPduFault (DlMacRun × DlMacNext)) : Prop :=
  ∀ run' next, result = .ok (run', next) → ¬ run'.Whole

/-- What a step does at an extent. -/
def DlStepAt (ra : UeRaConfig) (pduP : List UInt8)
    (result : Except MacPduFault (DlMacRun × DlMacNext)) : Extent Bool → Prop
  | .outside => BadStep result
  | .stop => ∃ run', result = .ok (run', .done) ∧ run'.Whole
  | .next len waiting => 0 < len ∧ ∃ run', result = .ok (run', .next (pduP.drop len)) ∧
      run'.DlInv ra ∧ run'.waiting = waiting

theorem dlStepAt_skip {len : ℕ} (hrun : run.DlInv ra) (hlen : 0 < len) :
    DlStepAt ra pduP (.ok (run, .next (pduP.drop len))) (.next len run.waiting) :=
  ⟨hlen, run, rfl, hrun, rfl⟩

theorem getMacLen_pos (pduP : List UInt8) : 0 < (getMacLen pduP).macSubheaderLen := by
  unfold getMacLen
  split
  · split
    · split <;> simp
    · simp
  · simp

/-- A decision on an identity that is cut is not taken from a whole element. -/
theorem not_whole_cut {contResId : List UInt8} (hlen : contResId.length < 6) (success : Bool) :
    ¬ (run.emit (.contentionResolution contResId success)).Whole :=
  not_whole_emit fun h => absurd (show contResId.length = 6 from h) (Nat.ne_of_lt hlen)

/-- The contention resolution identity of an element. -/
theorem dlMacSubPdu_conResId {first : UInt8} (env : DlMacEnv) (hrun : run.DlInv ra)
    (hkind : dlSchLcid (first &&& 0x3F) = .conResId) :
    DlStepAt ra (first :: rest) (dlMacSubPdu env (first :: rest) run)
      (dlExtent env ra run.waiting (first :: rest)) := by
  simp only [dlMacSubPdu, dlExtent, pduOctet_cons_zero, ok_bind, hkind, List.drop_succ_cons,
    List.drop_zero]
  by_cases hstate : run.ra.raState = .waitContentionResolution
  · have hwaiting : run.waiting = true := decide_eq_true hstate
    simp only [hwaiting, if_pos hstate, not_true_eq_false, if_false]
    by_cases hlen : rest.length < 6
    · have hcut (success : Bool) := @not_whole_cut run (rest.take 6) (by simp; omega) success
      rw [if_pos hlen]
      intro run' next hok
      rcases hcheck : checkRaContentionResolution env rest run.ra.contResId.toList with
        fault | success
      · rw [hcheck] at hok
        cases hok
      · rw [hcheck, ok_bind] at hok
        split at hok
        · cases hok
          exact fun h => hcut success h.of_nrRaSucceeded
        · split at hok
          · cases hok
            exact hcut success
          · cases hok
            exact fun h => hcut success (@DlMacRun.Whole.of_emit { run.emit _ with ra := _ } _ h)
    · have hmatch (success : Bool) :
          (run.emit (.contentionResolution (rest.take 6) success)).DlInv ra :=
        hrun.emit (show (rest.take 6).length = 6 by rw [List.length_take]; omega)
      rw [if_neg hlen, checkRaContentionResolution_of_le env _ (by omega), ok_bind,
        hrun.contResId]
      by_cases hid : env.iqPlayer = true ∨ rest.take 6 = ra.contResId.toList
      · simp only [hid, decide_true, if_true, and_true]
        have hactive : run.ra.raActive = ra.raActive := hrun.raActive hstate
        cases hra : ra.raActive with
        | false =>
          have hidle :
              ¬ (run.emit (.contentionResolution (rest.take 6) true)).ra.raActive = true := by
            simp [DlMacRun.emit, hactive, hra]
          rw [if_neg hidle]
          exact ⟨by omega, _, rfl, hmatch true, hwaiting⟩
        | true =>
          have hrunning :
              (run.emit (.contentionResolution (rest.take 6) true)).ra.raActive = true := by
            simp [DlMacRun.emit, hactive, hra]
          rw [if_pos hrunning]
          exact ⟨by omega, _, rfl, (hmatch true).nrRaSucceeded, rfl⟩
      · simp only [hid, decide_false, Bool.false_eq_true, and_false, if_false]
        have hfailed : (run.emit (.contentionResolution (rest.take 6) false)).Whole :=
          (hmatch false).whole
        exact ⟨_, rfl, @DlMacRun.Whole.emit { run.emit _ with ra := _ } _ hfailed trivial⟩
  · have hwaiting : run.waiting = false := decide_eq_false hstate
    simp only [if_neg hstate, hwaiting, Bool.false_eq_true, not_false_eq_true, if_true]
    exact ⟨by omega, run, rfl, hrun, hwaiting⟩

/-- An SDU that is handed to RLC, if it lies in the block. -/
theorem dlStepAt_sdu {lens : MacLen} (hrun : run.DlInv ra) (hpos : 0 < lens.macSubheaderLen)
    (lcid : UInt8) :
    DlStepAt ra pduP
      (pduOctets pduP lens.macSubheaderLen lens.macLen >>= fun sdu =>
        pure (run.emit (.rlcDataInd lcid sdu),
          .next (pduP.drop (lens.macSubheaderLen + lens.macLen))))
      (if lens.Fits pduP then .next (lens.macSubheaderLen + lens.macLen) run.waiting
        else .outside) := by
  by_cases hfits : lens.Fits pduP
  · rw [if_pos hfits, pduOctets_of_le hfits, ok_bind]
    exact ⟨by omega, _, rfl, hrun.emit trivial, rfl⟩
  · rw [if_neg hfits, pduOctets_of_lt (Nat.lt_of_not_le hfits)]
    intro run' next hok
    cases hok

/-- A step does what its extent says. -/
theorem dlMacSubPdu_stepAt (env : DlMacEnv) (hpduP : pduP ≠ []) (hrun : run.DlInv ra) :
    DlStepAt ra pduP (dlMacSubPdu env pduP run) (dlExtent env ra run.waiting pduP) := by
  obtain ⟨first, rest, rfl⟩ := List.exists_cons_of_ne_nil hpduP
  by_cases hconRes : dlSchLcid (first &&& 0x3F) = .conResId
  · exact dlMacSubPdu_conResId env hrun hconRes
  have hpos := getMacLen_pos (first :: rest)
  simp only [dlMacSubPdu, dlExtent, pduOctet_cons_zero, ok_bind]
  cases hkind : dlSchLcid (first &&& 0x3F) with
  | conResId => exact absurd hkind hconRes
  | padding => exact ⟨run, rfl, hrun.whole⟩
  | tciStateActUeSpecPdsch | aperiodicCsiTriStateSubsel | spCsiRsCsiImResSetAct
  | spSrsActivation => exact dlStepAt_skip hrun (by omega)
  | taCommand =>
    cases rest with
    | nil =>
      intro run' next hok
      cases hok
    | cons octet rest =>
      simp only [pduOctet_cons_succ, pduOctet_cons_zero, ok_bind, hrun.tagId]
      by_cases htag : octet.toNat / 64 = ra.tagId
      · simp only [htag, ne_eq, not_true_eq_false, if_false, if_true]
        exact ⟨by omega, _, rfl, hrun.emit trivial, rfl⟩
      · simp only [htag, ne_eq, not_false_eq_true, if_true, if_false]
        exact ⟨run, rfl, hrun.whole⟩
  | ccch =>
    cases hok : (getMacLen (first :: rest)).ok with
    | false =>
      intro run' next hstep
      cases hstep
    | true =>
      simp only [if_true, not_true_eq_false, if_false]
      split
      · exact ⟨run, rfl, hrun.whole⟩
      · by_cases hlen : (getMacLen (first :: rest)).macLen = 0
        · simp only [hlen, true_or, if_true]
          exact dlStepAt_skip hrun (by omega)
        · simp only [hlen, false_or, if_false]
          exact dlStepAt_sdu hrun hpos _
  | logicalChannel =>
    cases hok : (getMacLen (first :: rest)).ok with
    | false => exact ⟨run, rfl, hrun.whole⟩
    | true =>
      simp only [if_true, not_true_eq_false, if_false]
      exact dlStepAt_sdu hrun hpos _
  | _ => exact dlStepAt_skip hrun (by simp)

/-- What was told before a step is told after it. -/
theorem dlMacSubPdu_whole {run' : DlMacRun} {next : DlMacNext} (hpduP : pduP ≠ [])
    (h : dlMacSubPdu env pduP run = .ok (run', next)) (hwhole : run'.Whole) : run.Whole := by
  obtain ⟨first, rest, rfl⟩ := List.exists_cons_of_ne_nil hpduP
  simp only [dlMacSubPdu, pduOctet_cons_zero, ok_bind] at h
  cases hkind : dlSchLcid (first &&& 0x3F) with
  | conResId =>
    simp only [hkind] at h
    split at h
    · rcases hcheck : checkRaContentionResolution env ((first :: rest).drop 1)
        run.ra.contResId.toList with fault | success
      · rw [hcheck] at h
        cases h
      · rw [hcheck, ok_bind] at h
        split at h
        · cases h
          exact hwhole.of_nrRaSucceeded.of_emit
        · split at h
          · cases h
            exact hwhole.of_emit
          · cases h
            exact (@DlMacRun.Whole.of_emit { run.emit _ with ra := _ } _ hwhole).of_emit
    · cases h
      exact hwhole
  | taCommand =>
    simp only [hkind] at h
    rcases hoctet : pduOctet (first :: rest) 1 with fault | octet
    · rw [hoctet] at h
      cases h
    · rw [hoctet, ok_bind] at h
      split at h
      · cases h
        exact hwhole
      · cases h
        exact hwhole.of_emit
  | ccch =>
    simp only [hkind] at h
    split at h
    · split at h
      · cases h
        exact hwhole
      · split at h
        · cases h
          exact hwhole
        · rcases hsdu : pduOctets (first :: rest) (getMacLen (first :: rest)).macSubheaderLen
            (getMacLen (first :: rest)).macLen with fault | sdu
          · rw [hsdu] at h
            cases h
          · rw [hsdu, ok_bind] at h
            cases h
            exact hwhole.of_emit
    · cases h
  | logicalChannel =>
    simp only [hkind] at h
    split at h
    · rcases hsdu : pduOctets (first :: rest) (getMacLen (first :: rest)).macSubheaderLen
        (getMacLen (first :: rest)).macLen with fault | sdu
      · rw [hsdu] at h
        cases h
      · rw [hsdu, ok_bind] at h
        cases h
        exact hwhole.of_emit
    · cases h
      exact hwhole
  | _ =>
    simp only [hkind] at h
    cases h
    exact hwhole

theorem dlMacLoop_succ {n : ℕ} (hpduP : pduP ≠ []) :
    dlMacLoop env (n + 1) pduP run = dlMacSubPdu env pduP run >>= fun
      | (run, .next rest) => dlMacLoop env n rest run
      | (run, .done) => pure run := by
  obtain ⟨first, rest, rfl⟩ := List.exists_cons_of_ne_nil hpduP
  exact rfl

theorem dlMacLoop_whole {fin : DlMacRun} : ∀ {n : ℕ} {pduP : List UInt8} {run : DlMacRun},
    dlMacLoop env n pduP run = .ok fin → fin.Whole → run.Whole
  | n, [], run, h, hwhole => by
    rw [dlMacLoop] at h
    cases h
    exact hwhole
  | 0, octet :: pduP, run, h, _ => by
    rw [dlMacLoop] at h
    cases h
  | n + 1, octet :: pduP, run, h, hwhole => by
    have hpduP : octet :: pduP ≠ [] := List.cons_ne_nil _ _
    rw [dlMacLoop_succ hpduP] at h
    rcases hstep : dlMacSubPdu env (octet :: pduP) run with fault | ⟨run', rest | -⟩
    · rw [hstep] at h
      cases h
    · rw [hstep, ok_bind] at h
      exact dlMacSubPdu_whole hpduP hstep (dlMacLoop_whole h hwhole)
    · rw [hstep, ok_bind] at h
      cases h
      exact dlMacSubPdu_whole hpduP hstep hwhole

/-- A DL-SCH PDU is parsed as it should be if its elements lead inside the block. -/
theorem dlMacLoop_iff {n : ℕ} (hrun : run.DlInv ra) (hn : pduP.length ≤ n) :
    DlParsed (dlMacLoop env n pduP run) ↔ Inside (dlExtent env ra) run.waiting pduP := by
  refine @inside_iff _ _ DlMacRun _ (dlExtent env ra) (fun n l t => dlMacLoop env n l t) DlParsed
    DlMacRun.waiting (DlMacRun.DlInv ra) ?_ ?_ ?_ ?_ n pduP run hrun hn
  · intro n t ht
    exact iff_of_true ⟨t, by rw [dlMacLoop]; rfl, ht.whole⟩ (.stop rfl)
  all_goals
    intro n l t
  · intro ht hl hextent
    have hstep := dlMacSubPdu_stepAt env hl ht
    rw [hextent] at hstep
    rintro ⟨fin, hfin, hwhole⟩
    rw [dlMacLoop_succ hl] at hfin
    rcases hresult : dlMacSubPdu env l t with fault | ⟨run', rest | -⟩
    · rw [hresult] at hfin
      cases hfin
    · rw [hresult, ok_bind] at hfin
      exact hstep _ _ hresult (dlMacLoop_whole hfin hwhole)
    · rw [hresult, ok_bind] at hfin
      cases hfin
      exact hstep _ _ hresult hwhole
  · intro ht hl hextent
    have hstep := dlMacSubPdu_stepAt env hl ht
    rw [hextent] at hstep
    obtain ⟨run', hresult, hwhole⟩ := hstep
    exact ⟨run', by rw [dlMacLoop_succ hl, hresult, ok_bind]; rfl, hwhole⟩
  · intro len waiting ht hl hextent
    have hstep := dlMacSubPdu_stepAt env hl ht
    rw [hextent] at hstep
    obtain ⟨hpos, run', hresult, hrun', hwaiting⟩ := hstep
    exact ⟨hpos, run', hwaiting, hrun', by rw [dlMacLoop_succ hl, hresult, ok_bind]⟩

theorem Extent.toDl_eq_stop {found : Extent Bool} : found.toDl = .stop ↔ found = .stop := by
  cases found <;> simp [Extent.toDl]

theorem Extent.toDl_eq_next {found : Extent Bool} {len : ℕ} {phase : DlPhase} :
    found.toDl = .next len phase ↔ ∃ waiting, found = .next len waiting ∧ phase = .dl waiting := by
  constructor
  · intro h
    cases found with
    | next len' waiting =>
      cases h
      exact ⟨waiting, rfl, rfl⟩
    | _ => cases h
  · rintro ⟨waiting, rfl, rfl⟩
    rfl

/-- The elements, as a phase of the whole PDU. -/
theorem inside_dl_iff {waiting : Bool} {l : List UInt8} :
    Inside (dlPhaseExtent env ra) (.dl waiting) l ↔ Inside (dlExtent env ra) waiting l := by
  constructor
  · intro h
    generalize hphase : DlPhase.dl waiting = phase at h
    induction h generalizing waiting with
    | stop h =>
      subst hphase
      exact .stop (Extent.toDl_eq_stop.1 h)
    | next h _ ih =>
      subst hphase
      obtain ⟨waiting', hextent, rfl⟩ := Extent.toDl_eq_next.1 h
      exact .next hextent (ih rfl)
  · intro h
    induction h with
    | stop h => exact .stop (Extent.toDl_eq_stop.2 h)
    | next h _ ih => exact .next (Extent.toDl_eq_next.2 ⟨_, h, rfl⟩) ih

/-! ## MsgB -/

theorem DlMacRun.DlInv.setRa {ra' : UeRaConfig} (h : run.DlInv ra) (htag : ra'.tagId = run.ra.tagId)
    (hid : ra'.contResId = run.ra.contResId) (hactive : ra'.raActive = run.ra.raActive)
    (hstate : ra'.raState = run.ra.raState) : DlMacRun.DlInv ra { run with ra := ra' } :=
  ⟨h.whole, htag.trans h.tagId, hid.trans h.contResId, fun hwaiting =>
    hactive.trans (h.raActive (hstate ▸ hwaiting))⟩

theorem DlMacRun.waiting_nrRaSucceeded : run.nrRaSucceeded.waiting = false := rfl

/-- A successRAR that is all there. -/
theorem successRar_of_le (env : DlMacEnv) (hlen : 12 ≤ pduP.length) (hrun : run.DlInv ra)
    (hwaiting : run.waiting = false) :
    ∃ run', successRar env pduP run = .ok run' ∧ run'.DlInv ra ∧ run'.waiting = false := by
  have hid : 6 ≤ ((pduP.drop 1).take 6).length := by
    rw [List.length_take, List.length_drop]
    omega
  have hwhole (success : Bool) : DlMacEvent.Whole
      (.contentionResolution ((pduP.drop 1).take 6) success) := by
    rw [DlMacEvent.Whole, List.length_take, List.length_drop]
    omega
  rw [successRar, pduOctets_of_le (show 1 + 6 ≤ pduP.length by omega), ok_bind]
  simp only [pduOctet_of_lt (show 7 < pduP.length by omega),
    pduOctet_of_lt (show 8 < pduP.length by omega), pduOctet_of_lt (show 9 < pduP.length by omega),
    pduOctet_of_lt (show 10 < pduP.length by omega),
    pduOctet_of_lt (show 11 < pduP.length by omega), ok_bind]
  obtain ⟨success, hsuccess⟩ : ∃ success, checkRaContentionResolution env ((pduP.drop 1).take 6)
      run.ra.contResId.toList = .ok success :=
    ⟨_, checkRaContentionResolution_of_le env _ hid⟩
  rw [hsuccess, ok_bind]
  have hemit (run' : DlMacRun) (hrun' : run'.DlInv ra) (hwaiting' : run'.waiting = false) :
      (run'.emit (.contentionResolution ((pduP.drop 1).take 6) success)).DlInv ra ∧
      (run'.emit (.contentionResolution ((pduP.drop 1).take 6) success)).waiting = false :=
    ⟨hrun'.emit (hwhole success), hwaiting'⟩
  obtain ⟨hdone, hidle⟩ := hemit { run with ra := { run.ra with
    msgBChAcessCpext := pduP[7] >>> 5 &&& 0x3
    msgBTpc := pduP[7] >>> 3 &&& 3
    msgBHarqFti := pduP[7] &&& 0x7
    pucchRi := pduP[8] >>> 4 &&& 0x0F
    timingAdvanceCommand := pduP[8].toNat % 16 * 256 + pduP[9].toNat
    tCrnti := pduP[10].toNat * 256 + pduP[11].toNat } } (hrun.setRa rfl rfl rfl rfl) hwaiting
  have hstopped := @DlMacRun.DlInv.emit ra _ .stopResponseWindow hdone trivial
  split
  · exact ⟨_, rfl, hstopped.nrRaSucceeded, rfl⟩
  · split
    · exact ⟨_, rfl, hdone, hidle⟩
    · exact ⟨_, rfl, hdone.emit trivial, hidle⟩

/-- A successRAR that is cut. -/
theorem successRar_of_lt (env : DlMacEnv) (hlen : pduP.length < 12) (run : DlMacRun) :
    ∃ fault, successRar env pduP run = .error fault := by
  rcases hresult : successRar env pduP run with fault | run'
  · exact ⟨fault, rfl⟩
  · -- the last of the octets is behind the end
    rw [successRar] at hresult
    obtain ⟨_, -, h⟩ := exists_of_bind_ok hresult
    obtain ⟨_, -, h⟩ := exists_of_bind_ok h
    obtain ⟨_, -, h⟩ := exists_of_bind_ok h
    obtain ⟨_, -, h⟩ := exists_of_bind_ok h
    obtain ⟨_, -, h⟩ := exists_of_bind_ok h
    obtain ⟨_, h, -⟩ := exists_of_bind_ok h
    have hnone : pduP[11]? = none := List.getElem?_eq_none (by omega)
    rw [pduOctet, hnone] at h
    cases h

/-- The subheaders of a MsgB are read inside the block, and lead to the elements behind them, or
they do not. -/
theorem successRarLoop_cases (env : DlMacEnv) : ∀ {n : ℕ} {l : List UInt8} {run : DlMacRun},
    run.DlInv ra → run.waiting = false → l.length ≤ n →
      (∃ rest run', successRarLoop env n l run = .ok (rest, run') ∧ run'.DlInv ra ∧
        run'.waiting = false ∧ (Inside (dlPhaseExtent env ra) .msgB l ↔
          Inside (dlPhaseExtent env ra) (.dl false) rest)) ∨
      (∃ fault, successRarLoop env n l run = .error fault) ∧
        ¬ Inside (dlPhaseExtent env ra) .msgB l
  | n, [], run, hrun, hwaiting, _ =>
    .inl ⟨[], run, by rw [successRarLoop]; rfl, hrun, hwaiting,
      iff_of_true (.stop rfl) (.stop rfl)⟩
  | n + 1, octet :: l, run, hrun, hwaiting, hn => by
    simp only [List.length_cons] at hn
    have hextent : dlPhaseExtent env ra .msgB (octet :: l) = msgBExtent (octet :: l) := rfl
    simp only [successRarLoop]
    by_cases hrapid : octet &&& 0x40 = 0
    · by_cases hbi : octet &&& 0x20 = 0
      · have hback : (run.backoffIndicator octet).DlInv ra := hrun.setRa rfl rfl rfl rfl
        by_cases he : octet &&& 0x80 = 0
        · have hnext : dlPhaseExtent env ra .msgB (octet :: l) = .next 1 (.dl false) := by
            simp [hextent, msgBExtent, hrapid, hbi, he]
          rw [inside_iff_of_next hnext]
          simp only [hrapid, hbi, he, ne_eq, not_true_eq_false, if_false, if_true]
          exact .inl ⟨l, _, rfl, hback, hwaiting, Iff.rfl⟩
        · have hnext : dlPhaseExtent env ra .msgB (octet :: l) = .next 1 .msgB := by
            simp [hextent, msgBExtent, hrapid, hbi, he]
          rw [inside_iff_of_next hnext]
          simp only [hrapid, hbi, he, ne_eq, not_true_eq_false, not_false_eq_true, if_false,
            if_true]
          exact successRarLoop_cases env hback hwaiting (by omega)
      · by_cases hlen : l.length < 11
        · have hout : dlPhaseExtent env ra .msgB (octet :: l) = .outside := by
            simp [hextent, msgBExtent, hrapid, hbi, hlen]
          obtain ⟨fault, hfault⟩ := @successRar_of_lt (octet :: l) env
            (by rw [List.length_cons]; omega) run
          refine .inr ⟨⟨fault, ?_⟩, not_inside_of_outside hout⟩
          simp only [hrapid, hbi, hfault, error_bind, ne_eq, not_true_eq_false, if_false]
        · obtain ⟨run', hrar, hrun', hwaiting'⟩ := @successRar_of_le ra run (octet :: l) env
            (by rw [List.length_cons]; omega) hrun hwaiting
          by_cases he : octet &&& 0x80 = 0
          · have hnext : dlPhaseExtent env ra .msgB (octet :: l) = .next 12 (.dl false) := by
              simp [hextent, msgBExtent, hrapid, hbi, hlen, he]
            rw [inside_iff_of_next hnext]
            simp only [hrapid, hbi, he, hrar, ok_bind, ne_eq, not_true_eq_false, if_false]
            exact .inl ⟨_, _, rfl, hrun', hwaiting', Iff.rfl⟩
          · have hnext : dlPhaseExtent env ra .msgB (octet :: l) = .next 12 .msgB := by
              simp [hextent, msgBExtent, hrapid, hbi, hlen, he]
            rw [inside_iff_of_next hnext]
            simp only [hrapid, hbi, he, hrar, ok_bind, ne_eq, not_true_eq_false,
              not_false_eq_true, if_false, if_true]
            exact successRarLoop_cases env hrun' hwaiting' (by simp; omega)
    · have hout : dlPhaseExtent env ra .msgB (octet :: l) = .outside := by
        simp [hextent, msgBExtent, hrapid]
      simp only [hrapid, ne_eq, not_false_eq_true, if_true]
      exact .inr ⟨⟨_, rfl⟩, not_inside_of_outside hout⟩

/-! ## The main result -/

theorem dlInv_init (ra : UeRaConfig) : DlMacRun.DlInv ra ⟨ra, []⟩ :=
  ⟨by simp [DlMacRun.Whole], rfl, rfl, fun _ => rfl⟩

/-- A PDU in a MsgB. -/
theorem msgB_iff (hstate : ra.raState = .waitMsgB) (htwo : ra.twoStep = true) :
    DlParsed (nrUeProcessMacPdu env ra pduP) ↔
      2 ≤ pduP.length ∧ Inside (dlPhaseExtent env ra) .msgB (dlLeft pduP) := by
  have hinit : DlMacRun.DlInv ra { ra := { ra with raBackoffLimit := 0 }, events := [] } :=
    (dlInv_init ra).setRa rfl rfl rfl rfl
  have hwaiting : DlMacRun.waiting { ra := { ra with raBackoffLimit := 0 }, events := [] } =
      false := by
    simp [DlMacRun.waiting, hstate]
  rw [nrUeProcessMacPdu, if_pos ⟨htwo, hstate⟩]
  rcases successRarLoop_cases env hinit hwaiting (Nat.le_refl (dlLeft pduP).length) with
    ⟨rest, run', hloop, hrun', hwaiting', hinside⟩ | ⟨⟨fault, hloop⟩, hinside⟩
  · rw [hinside]
    by_cases hlen : 2 ≤ pduP.length
    · have hta := pduOctet_of_lt (show 1 < pduP.length by omega)
      have hemit : (run'.emit (.timeAlignment (pduP[1].toNat % 64))).DlInv ra := hrun'.emit trivial
      have hdl := @dlMacLoop_iff env ra _ rest rest.length hemit le_rfl
      rw [show (run'.emit (.timeAlignment (pduP[1].toNat % 64))).waiting = false from hwaiting',
        ← inside_dl_iff] at hdl
      rw [and_iff_right hlen, ← hdl]
      simp only [nrUeValidateSuccessrar, hloop, hta, ok_bind, pure_bind]
    · have hnone : pduOctet pduP 1 = .error .outside := by
        rw [pduOctet, List.getElem?_eq_none (by omega)]
      refine iff_of_false (@not_dlParsed_of_error _ .outside ?_) fun h => hlen h.1
      simp only [nrUeValidateSuccessrar, hloop, hnone, ok_bind, error_bind]
  · refine iff_of_false (@not_dlParsed_of_error _ fault ?_) fun h => hinside h.2
    simp only [nrUeValidateSuccessrar, hloop, error_bind]

end NrStack
