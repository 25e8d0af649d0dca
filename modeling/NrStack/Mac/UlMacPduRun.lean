import NrStack.Mac.UlMacPdu

/-!
# What an uplink MAC PDU says, and what the gNB makes of it

The elements of a PDU are those of its longest well-formed prefix : subheader and payload lie in the
block, and the LCID has a length (`ulMacElements`). `UlMacPduParsed` is that the gNB returns, with
the SDUs of these elements delivered, no estimate from a BSR that does not fit, and every DTCH SDU
counted. `ul_mac_pdu_iff` says for which blocks this is so.

A step takes one element off (`ulMacSubPdu_of_some`) or stops (`ulMacSubPdu_of_none`).
-/

namespace NrStack

/-! ## The elements of a PDU -/

/-- The header reaches behind the end of the block. -/
def CutHeader (pdu : List UInt8) : Prop :=
  pdu ≠ [] ∧ decodeUlMacSubPduHeader pdu = .error .outside

instance (pdu : List UInt8) : Decidable (CutHeader pdu) :=
  match h : decodeUlMacSubPduHeader pdu with
  | .ok _ => isFalse fun hcut => by cases h.symm.trans hcut.2
  | .error .outside => decidable_of_iff (pdu ≠ []) ⟨fun hpdu => ⟨hpdu, h⟩, And.left⟩
  | .error .assertFatal => isFalse fun hcut => by cases h.symm.trans hcut.2
  | .error .outOfFuel => isFalse fun hcut => by cases h.symm.trans hcut.2

/-- The first element, if it lies in the block and `goesOn` at its LCID. -/
def ulSubPdu? (goesOn : UlSchLcid → Bool) (pdu : List UInt8) :
    Option (UlMacElement × List UInt8) :=
  match decodeUlMacSubPduHeader pdu with
  | .error _ => none
  | .ok (headerLen, lcid, len) =>
    if headerLen + len ≤ pdu.length ∧ goesOn (ulSchLcid lcid) then
      some (⟨pdu.take headerLen, lcid, (pdu.drop headerLen).take len⟩, pdu.drop (headerLen + len))
    else none

/-- Neither padding nor unknown. -/
def isElement : UlSchLcid → Bool
  | .padding => false
  | .unknown => false
  | _ => true

/-- Neither padding nor a C-RNTI. -/
def isSkipped : UlSchLcid → Bool
  | .padding => false
  | .cRnti => false
  | _ => true

/-- The elements of the longest well-formed prefix, and what is left. -/
def ulMacElements (pdu : List UInt8) : List UlMacElement × List UInt8 :=
  pieces (ulSubPdu? isElement) pdu

/-- What is left in front of the C-RNTI that `lcid_crnti_lookahead` looks for. -/
def lookaheadRest (pdu : List UInt8) : List UInt8 :=
  (pieces (ulSubPdu? isSkipped) pdu).2

namespace UlMacElement

def kind (e : UlMacElement) : UlSchLcid :=
  ulSchLcid e.lcid

def IsCcch (e : UlMacElement) : Prop :=
  e.kind = .ccch64Bits ∨ e.kind = .ccch48Bits ∨ e.kind = .ccch48BitsRedcap

def IsSrb (e : UlMacElement) : Prop :=
  e.kind = .srb1 ∨ e.kind = .srb2

def IsLongBsr (e : UlMacElement) : Prop :=
  e.kind = .lTruncatedBsr ∨ e.kind = .lBsr

instance (e : UlMacElement) : Decidable e.IsCcch :=
  inferInstanceAs (Decidable (_ ∨ _))

instance (e : UlMacElement) : Decidable e.IsSrb :=
  inferInstanceAs (Decidable (_ ∨ _))

instance (e : UlMacElement) : Decidable e.IsLongBsr :=
  inferInstanceAs (Decidable (_ ∨ _))

/-- Not an SDU. -/
def IsControl (e : UlMacElement) : Prop :=
  ¬ e.IsCcch ∧ ¬ e.IsSrb ∧ e.kind ≠ .dtch

/-- The SDU of an element, with its logical channel. -/
def sdu? (e : UlMacElement) : Option (UInt8 × List UInt8) :=
  if e.IsCcch then some (0, e.payload)
  else if e.IsSrb ∨ e.kind = .dtch then some (e.lcid, e.payload)
  else none

/-- The buffer sizes that a bitmap announces. -/
def longBsrFields (bitmap : UInt8) : ℕ :=
  (bsrActive bitmap).count true

/-- A long BSR has its bitmap, and the buffer sizes that the bitmap announces. -/
def Fits (e : UlMacElement) : Prop :=
  e.IsLongBsr → ∃ bitmap ∈ e.payload.head?, longBsrFields bitmap + 1 ≤ e.payload.length

instance (e : UlMacElement) : Decidable e.Fits :=
  inferInstanceAs (Decidable (_ → ∃ bitmap, bitmap ∈ e.payload.head? ∧ _))

/-- The gNB returns at a CCCH1 message that is all zero, and at a PHR without a HARQ process. -/
def Refused (ctx : UlMacContext) (e : UlMacElement) : Prop :=
  e.kind = .ccch64Bits ∧ (e.header ++ e.payload).all (· == 0) = true ∨
    e.kind = .singleEntryPhr ∧ ctx.harqPid < 0

instance (ctx : UlMacContext) (e : UlMacElement) : Decidable (e.Refused ctx) :=
  inferInstanceAs (Decidable (_ ∧ _ ∨ _ ∧ _))

end UlMacElement

/-! ## The property and its condition -/

/-- What was delivered to RLC. -/
def UlMacRun.delivered (run : UlMacRun) : List (UInt8 × List UInt8) :=
  run.events.filterMap fun
    | .rlcDataInd lcid sdu => some (lcid, sdu)
    | .bsr _ _ => none

/-- Every estimate is from a BSR that fits. -/
def UlMacRun.Estimated (run : UlMacRun) : Prop :=
  ∀ ce estimate, UlMacEvent.bsr ce estimate ∈ run.events → ce.Fits

/-- What an event makes of the estimate : a DTCH SDU is taken off it. -/
def UlMacEvent.estimate (estimate : Int) : UlMacEvent → Int
  | .rlcDataInd lcid sdu =>
    if ulSchLcid lcid = .dtch then if estimate ≥ sdu.length then estimate - sdu.length else 0
    else estimate
  | .bsr _ estimate' => estimate'

/-- The estimate that the events leave. -/
def UlMacRun.estimateFrom (run : UlMacRun) (estimate : Int) : Int :=
  run.events.foldl UlMacEvent.estimate estimate

/-- The number of DTCH SDUs. -/
def dtchSdus (sdus : List (UInt8 × List UInt8)) : ℕ :=
  sdus.countP fun sdu => ulSchLcid sdu.1 = .dtch

/-- The block is parsed as it should be : every read is inside, the SDUs of the longest well-formed
prefix are delivered, the estimate changes by these and by BSRs that fit, and the DTCH SDUs are
counted. -/
def UlMacPduParsed (ctx : UlMacContext) (ue : UlMacUe) (pdu : List UInt8) : Prop :=
  (∃ code run, nrProcessMacPdu ctx ue pdu = .ok (code, run) ∧
    run.delivered = (ulMacElements pdu).1.filterMap UlMacElement.sdu? ∧
    run.ue.estimatedUlBuffer = run.estimateFrom ue.estimatedUlBuffer ∧ run.Estimated ∧
    run.ue.numMacSdu = ue.numMacSdu + UInt32.ofNat (dtchSdus run.delivered)) ∧
  ∃ crnti, lcidCrntiLookahead pdu = .ok crnti

/-- Along the elements, with SRB0, a CellGroup and a DTCH SDU so far or not, and with what is left
behind the last. -/
def ElementsGood (ctx : UlMacContext) (raIdle : Bool) : (srb0 cellGroup dtch : Bool) →
    List UlMacElement → List UInt8 → Prop
  | _, _, dtch, [], rest => ¬ CutHeader rest ∧ (rest = [] ∨ dtch = false)
  | srb0, cellGroup, dtch, e :: es, rest =>
    if e.Refused ctx then (∀ e' ∈ e :: es, e'.sdu? = none) ∧ dtch = false
    else e.Fits ∧ (e.kind = .cRnti → raIdle = false) ∧ (e.IsSrb → cellGroup = true) ∧
      (e.IsCcch → srb0 = false) ∧
      ElementsGood ctx raIdle (srb0 || decide e.IsCcch) (cellGroup || decide e.IsCcch)
        (dtch || decide (e.kind = .dtch)) es rest

instance decidableElementsGood (ctx : UlMacContext) (raIdle : Bool) :
    ∀ (srb0 cellGroup dtch : Bool) (es : List UlMacElement) (rest : List UInt8),
      Decidable (ElementsGood ctx raIdle srb0 cellGroup dtch es rest)
  | _, _, _, [], _ => inferInstanceAs (Decidable (_ ∧ _))
  | srb0, cellGroup, dtch, e :: es, rest =>
    have := decidableElementsGood ctx raIdle (srb0 || decide e.IsCcch)
      (cellGroup || decide e.IsCcch) (dtch || decide (e.kind = .dtch)) es rest
    inferInstanceAs (Decidable (if e.Refused ctx then
        (∀ e' ∈ e :: es, e'.sdu? = none) ∧ dtch = false
      else e.Fits ∧ (e.kind = .cRnti → raIdle = false) ∧ (e.IsSrb → cellGroup = true) ∧
        (e.IsCcch → srb0 = false) ∧ ElementsGood ctx raIdle _ _ _ es rest))

/-- The blocks that are parsed as they should be. -/
structure UlMacPduGood (ctx : UlMacContext) (ue : UlMacUe) (pdu : List UInt8) : Prop where
  nonempty : pdu ≠ []
  elements : ElementsGood ctx ue.raIdle ue.srb0 ue.cellGroup false (ulMacElements pdu).1
    (ulMacElements pdu).2
  lookahead : ¬ CutHeader (lookaheadRest pdu)

/-! ## Headers -/

/-- A header is cut, or it has a byte. -/
theorem decode_header_cases {pdu : List UInt8} (hpdu : pdu ≠ []) :
    decodeUlMacSubPduHeader pdu = .error .outside ∨
      ∃ headerLen lcid len, decodeUlMacSubPduHeader pdu = .ok (headerLen + 1, lcid, len) := by
  obtain ⟨first, pdu, rfl⟩ := List.exists_cons_of_ne_nil hpdu
  simp only [decodeUlMacSubPduHeader, pduOctet_cons_zero, pduOctet_cons_succ, ok_bind]
  cases ulSchLcid (first &&& 0x3F) with
  | srb1 | srb2 | dtch | lTruncatedBsr | lBsr =>
    -- the length field, of one byte or of two
    by_cases hF : first &&& 0x40 = 0 <;> rcases pdu with - | ⟨second, - | ⟨third, pdu⟩⟩ <;>
      simp [hF, pure, Except.pure]
  | _ => exact .inr ⟨0, _, _, rfl⟩

theorem decode_header_lcid {first : UInt8} {pdu : List UInt8} {headerLen len : ℕ} {lcid : UInt8}
    (h : decodeUlMacSubPduHeader (first :: pdu) = .ok (headerLen, lcid, len)) :
    lcid = first &&& 0x3F := by
  simp only [decodeUlMacSubPduHeader, pduOctet_cons_zero, pduOctet_cons_succ, ok_bind] at h
  cases hkind : ulSchLcid (first &&& 0x3F) with
  | srb1 | srb2 | dtch | lTruncatedBsr | lBsr =>
    simp only [hkind] at h
    by_cases hF : first &&& 0x40 = 0 <;> rcases pdu with - | ⟨second, - | ⟨third, pdu⟩⟩ <;>
      simp [hF, pure, Except.pure] at h <;> exact h.2.1.symm
  | _ =>
    simp only [hkind, pure, Except.pure, Except.ok.injEq, Prod.mk.injEq] at h
    exact h.2.1.symm

/-- The lengths of the control elements that are read without asking how long they are. -/
theorem decode_header_len {pdu : List UInt8} {headerLen len : ℕ} {lcid : UInt8}
    (h : decodeUlMacSubPduHeader pdu = .ok (headerLen, lcid, len)) :
    (ulSchLcid lcid = .cRnti → headerLen = 1 ∧ len = 2) ∧
      (ulSchLcid lcid = .singleEntryPhr → len = 2) ∧
      (ulSchLcid lcid = .sTruncatedBsr ∨ ulSchLcid lcid = .sBsr → len = 1) := by
  cases pdu with
  | nil => cases h
  | cons first pdu =>
    obtain rfl := decode_header_lcid h
    simp only [decodeUlMacSubPduHeader, pduOctet_cons_zero, ok_bind] at h
    refine ⟨fun hkind => ?_, fun hkind => ?_, ?_⟩
    · simp only [hkind, pure, Except.pure, Except.ok.injEq, Prod.mk.injEq] at h
      exact ⟨h.1.symm, h.2.2.symm⟩
    · simp only [hkind, pure, Except.pure, Except.ok.injEq, Prod.mk.injEq] at h
      exact h.2.2.symm
    · rintro (hkind | hkind) <;>
        simp only [hkind, pure, Except.pure, Except.ok.injEq, Prod.mk.injEq] at h <;>
        exact h.2.2.symm

theorem ulSubPdu?_shortens (goesOn : UlSchLcid → Bool) : Shortens (ulSubPdu? goesOn) := by
  intro pdu e rest h
  have hpdu : pdu ≠ [] := by
    rintro rfl
    cases h
  rcases decode_header_cases hpdu with hdecode | ⟨headerLen, lcid, len, hdecode⟩
  · simp [ulSubPdu?, hdecode] at h
  · simp only [ulSubPdu?, hdecode, Option.ite_none_right_eq_some, Option.some.injEq,
      Prod.mk.injEq] at h
    obtain ⟨-, -, rfl⟩ := h
    have hlen := List.length_pos_of_ne_nil hpdu
    simp only [List.length_drop]
    omega

theorem ulSubPdu?_eq_some {goesOn : UlSchLcid → Bool} {pdu rest : List UInt8} {e : UlMacElement} :
    ulSubPdu? goesOn pdu = some (e, rest) ↔
      ∃ headerLen len, decodeUlMacSubPduHeader pdu = .ok (headerLen, e.lcid, len) ∧
        headerLen + len ≤ pdu.length ∧ goesOn e.kind = true ∧ e.header = pdu.take headerLen ∧
        e.payload = (pdu.drop headerLen).take len ∧ rest = pdu.drop (headerLen + len) := by
  obtain ⟨header, lcid, payload⟩ := e
  rcases hdecode : decodeUlMacSubPduHeader pdu with fault | ⟨headerLen, lcid', len⟩
  · simp [ulSubPdu?, hdecode]
  · simp only [ulSubPdu?, hdecode, Option.ite_none_right_eq_some, Option.some.injEq, Prod.mk.injEq,
      UlMacElement.mk.injEq, Except.ok.injEq, UlMacElement.kind]
    constructor
    · rintro ⟨⟨hfits, hgoes⟩, ⟨rfl, rfl, rfl⟩, rfl⟩
      exact ⟨headerLen, len, ⟨rfl, rfl, rfl⟩, hfits, hgoes, rfl, rfl, rfl⟩
    · rintro ⟨headerLen', len', ⟨rfl, rfl, rfl⟩, hfits, hgoes, rfl, rfl, rfl⟩
      exact ⟨⟨hfits, hgoes⟩, ⟨rfl, rfl, rfl⟩, rfl⟩

/-! ## Where the loop stops -/

theorem decode_header_ne_cut {pdu : List UInt8} (hpdu : pdu ≠ []) (hcut : ¬ CutHeader pdu) :
    ∃ headerLen lcid len, decodeUlMacSubPduHeader pdu = .ok (headerLen, lcid, len) := by
  rcases decode_header_cases hpdu with hdecode | ⟨headerLen, lcid, len, hdecode⟩
  · exact absurd ⟨hpdu, hdecode⟩ hcut
  · exact ⟨_, _, _, hdecode⟩

/-- If there is no element and the header is not cut, the loop returns. -/
theorem ulMacSubPdu_of_none (ctx : UlMacContext) (run : UlMacRun) {pdu : List UInt8}
    (hpdu : pdu ≠ []) (hcut : ¬ CutHeader pdu) (hnone : ulSubPdu? isElement pdu = none) :
    ∃ code, ulMacSubPdu ctx pdu run = .ok (run, .ret code) := by
  obtain ⟨headerLen, lcid, len, hdecode⟩ := decode_header_ne_cut hpdu hcut
  by_cases hfits : pdu.length < headerLen + len
  · exact ⟨0, by simp [ulMacSubPdu, hdecode, hfits, pure, Except.pure]⟩
  · have hstop : isElement (ulSchLcid lcid) = false := by
      by_contra helement
      simp only [ulSubPdu?, hdecode] at hnone
      rw [if_pos ⟨by omega, by simpa using helement⟩] at hnone
      cases hnone
    cases hkind : ulSchLcid lcid with
    | padding => exact ⟨0, by simp [ulMacSubPdu, hdecode, hfits, hkind, pure, Except.pure]⟩
    | unknown => exact ⟨-1, by simp [ulMacSubPdu, hdecode, hfits, hkind, pure, Except.pure]⟩
    | _ => simp [hkind, isElement] at hstop

theorem ulMacSubPdu_of_cut (ctx : UlMacContext) (run : UlMacRun) {pdu : List UInt8}
    (hcut : CutHeader pdu) : ulMacSubPdu ctx pdu run = .error .outside := by
  simp [ulMacSubPdu, hcut.2]

/-! ## Long BSRs -/

/-- The loop of a long BSR reads one byte for each group that has data. -/
theorem estimateLongBsrLoop_cases (payload : List UInt8) :
    ∀ (active : List Bool) (m : ℕ) (estimSize : Int),
      (∃ estimate, estimateLongBsrLoop payload active m estimSize = .ok estimate) ∨
        payload.length < m + active.count true ∧
          estimateLongBsrLoop payload active m estimSize = .error .outside
  | [], m, estimSize => .inl ⟨estimSize, rfl⟩
  | false :: active, m, estimSize => by
    simpa [estimateLongBsrLoop] using estimateLongBsrLoop_cases payload active m estimSize
  | true :: active, m, estimSize => by
    by_cases hm : m < payload.length
    · have htail := estimateLongBsrLoop_cases payload active (m + 1) (Int.bmod (estimSize +
        (nrLongBsrTable.getD (min (overestimBsrIndex payload[m].toNat) 255) 0 : ℕ)) (2 ^ 32))
      rw [show m + 1 + active.count true = m + (active.count true + 1) by omega] at htail
      simpa [estimateLongBsrLoop, pduOctet_of_lt hm] using htail
    · have hread : pduOctet payload m = .error .outside := by
        simp [pduOctet, List.getElem?_eq_none (Nat.le_of_not_lt hm)]
      exact .inr ⟨by simp; omega, by simp [estimateLongBsrLoop, hread]⟩

/-- A long BSR is read inside the block, or it does not fit. -/
theorem estimateUlBufferLongBsr_cases {ce : List UInt8} {len : ℕ} (hlen : len ≤ ce.length) :
    (∃ estimate, estimateUlBufferLongBsr ce = .ok estimate) ∨
      (∀ bitmap ∈ (ce.take len).head?,
        (ce.take len).length < UlMacElement.longBsrFields bitmap + 1) ∧
        estimateUlBufferLongBsr ce = .error .outside := by
  cases ce with
  | nil => exact .inr ⟨by simp, rfl⟩
  | cons bitmap fields =>
    rcases estimateLongBsrLoop_cases fields (bsrActive bitmap) 0 0 with ⟨estimate, h⟩ | ⟨hcount, h⟩
    · exact .inl ⟨estimate, by simpa [estimateUlBufferLongBsr] using h⟩
    · refine .inr ⟨?_, by simpa [estimateUlBufferLongBsr] using h⟩
      intro bitmap' hbitmap
      cases len with
      | zero => simp at hbitmap
      | succ len =>
        obtain rfl : bitmap = bitmap' := by simpa using hbitmap
        simp only [List.length_take, UlMacElement.longBsrFields]
        simp only [List.length_cons] at hlen ⊢
        omega

/-! ## What an element does -/

/-- The run after an element that is not refused. -/
structure UlMacElement.Took (e : UlMacElement) (run run' : UlMacRun) : Prop where
  delivered : run'.delivered =
    run.delivered ++ if e.IsCcch ∧ run.ue.srb0 = true then [] else e.sdu?.toList
  estimated : run'.Estimated ↔ run.Estimated ∧ e.Fits
  estimate : ∀ estimate, run.ue.estimatedUlBuffer = run.estimateFrom estimate →
    run'.ue.estimatedUlBuffer = run'.estimateFrom estimate
  sdus : run'.sdus = run.sdus + if e.kind = .dtch then 1 else 0
  numMacSdu : run'.ue.numMacSdu = run.ue.numMacSdu
  raIdle : run'.ue.raIdle = run.ue.raIdle
  srb0 : run'.ue.srb0 = (run.ue.srb0 || decide e.IsCcch)
  cellGroup : run'.ue.cellGroup = (run.ue.cellGroup || decide (e.IsCcch ∧ run.ue.srb0 = false))

namespace UlMacElement

variable {e : UlMacElement} {run : UlMacRun}

theorem fits_of_not_long (h : ¬ e.IsLongBsr) : e.Fits := fun hlong => absurd hlong h

theorem took_ccch (hccch : e.IsCcch) (redcap : Bool) :
    e.Took run (run.ccch redcap e.payload) := by
  have hshort : ¬ e.IsLongBsr := by
    rcases hccch with h | h | h <;> simp [IsLongBsr, h]
  have hdtch : e.kind ≠ .dtch := by
    rcases hccch with h | h | h <;> simp [h]
  have hfits := fits_of_not_long hshort
  have hzero : ulSchLcid 0 ≠ .dtch := by decide
  cases hsrb0 : run.ue.srb0 <;> constructor <;>
    simp +contextual [UlMacRun.ccch, UlMacUe.prepareInitialUlRrcMessage, hsrb0, hccch, hdtch, hfits,
      UlMacRun.delivered, UlMacRun.Estimated, UlMacRun.estimateFrom, UlMacEvent.estimate, hzero,
      sdu?]

theorem took_srb (hsrb : e.IsSrb) : e.Took run (run.srb e.lcid e.payload) := by
  have hccch : ¬ e.IsCcch := by
    rcases hsrb with h | h <;> simp [IsCcch, h]
  have hshort : ¬ e.IsLongBsr := by
    rcases hsrb with h | h <;> simp [IsLongBsr, h]
  have hdtch : e.kind ≠ .dtch := by
    rcases hsrb with h | h <;> simp [h]
  have hfits := fits_of_not_long hshort
  constructor <;>
    simp +contextual [UlMacRun.srb, UlMacUe.countBytes, hccch, hsrb, hdtch, hfits,
      UlMacRun.delivered, UlMacRun.Estimated, UlMacRun.estimateFrom, UlMacEvent.estimate,
      show ulSchLcid e.lcid ≠ _ from hdtch, sdu?]

theorem took_dtch (hdtch : e.kind = .dtch) : e.Took run (run.dtch e.lcid e.payload) := by
  have hfits : e.Fits := fits_of_not_long (by simp [IsLongBsr, hdtch])
  constructor <;>
    simp +contextual [UlMacRun.dtch, UlMacUe.countBytes, UlMacUe.dataReceived, apply_ite, IsCcch,
      hdtch, hfits, UlMacRun.delivered, UlMacRun.Estimated, UlMacRun.estimateFrom,
      UlMacEvent.estimate, show ulSchLcid e.lcid = _ from hdtch, sdu?]

theorem IsControl.sdu? (h : e.IsControl) : e.sdu? = none := by
  simp [UlMacElement.sdu?, h.1, h.2.1, h.2.2]

/-- The control elements besides the BSRs. -/
theorem control_of_mem (hkind : e.kind ∈ [.recommendedBitrateQuery, .multiEntryPhr4Oct,
    .configuredGrantConfirmation, .multiEntryPhr1Oct, .singleEntryPhr, .cRnti]) :
    e.IsControl ∧ ¬ e.IsLongBsr := by
  simp only [IsControl, IsCcch, IsSrb, IsLongBsr]
  generalize e.kind = kind at hkind
  fin_cases hkind <;> simp

theorem took_bsr (h : e.IsControl) (estimate : Int) : e.Took run (run.bsr e estimate) := by
  have hsdu := h.sdu?
  constructor <;>
    simp [UlMacRun.bsr, hsdu, h.1, h.2.2, UlMacRun.delivered, UlMacRun.Estimated,
      UlMacRun.estimateFrom, UlMacEvent.estimate, or_imp, forall_and]

/-- A control element that is no BSR : at most the power headroom changes. -/
theorem took_control (h : e.IsControl) (hshort : ¬ e.IsLongBsr) : e.Took run run := by
  have hsdu := h.sdu?
  have hfits := fits_of_not_long hshort
  constructor <;> simp [hsdu, h.1, h.2.2, hfits]

theorem took_singleEntryPhr (ctx : UlMacContext) (octet1 octet2 : UInt8) (h : e.IsControl)
    (hshort : ¬ e.IsLongBsr) :
    e.Took run { run with ue := run.ue.singleEntryPhr ctx octet1 octet2 } :=
  have htook : e.Took run run := took_control h hshort
  ⟨htook.delivered, htook.estimated, htook.estimate, htook.sdus, htook.numMacSdu, htook.raIdle,
    htook.srb0, htook.cellGroup⟩

end UlMacElement

/-! ## The step over an element -/

variable {ctx : UlMacContext} {run : UlMacRun} {pdu rest : List UInt8} {e : UlMacElement}

/-- A refused element ends the loop. -/
theorem ulMacSubPdu_of_refused (h : ulSubPdu? isElement pdu = some (e, rest))
    (hrefused : e.Refused ctx) : ulMacSubPdu ctx pdu run = .ok (run, .ret 0) := by
  obtain ⟨headerLen, len, hdecode, hlen, -, hheader, hpayload, -⟩ := ulSubPdu?_eq_some.1 h
  have hfits : ¬ pdu.length < headerLen + len := by omega
  rcases hrefused with ⟨hkind, hzero⟩ | ⟨hkind, hpid⟩
  · rw [hheader, hpayload, ← List.take_add] at hzero
    unfold ulMacSubPdu
    simp only [hdecode, ok_bind, if_neg hfits, show ulSchLcid e.lcid = _ from hkind, if_pos hzero]
    rfl
  · simp [ulMacSubPdu, hdecode, hfits, show ulSchLcid e.lcid = _ from hkind, hpid, pure,
      Except.pure]

/-- A C-RNTI while the RA is idle, and an SRB without a CellGroup, end the process. -/
theorem ulMacSubPdu_of_assert (h : ulSubPdu? isElement pdu = some (e, rest))
    (hassert : e.kind = .cRnti ∧ run.ue.raIdle = true ∨ e.IsSrb ∧ run.ue.cellGroup = false) :
    ulMacSubPdu ctx pdu run = .error .assertFatal := by
  obtain ⟨headerLen, len, hdecode, hlen, -⟩ := ulSubPdu?_eq_some.1 h
  have hfits : ¬ pdu.length < headerLen + len := by omega
  rcases hassert with ⟨hkind, hra⟩ | ⟨hkind | hkind, hgroup⟩
  · simp [ulMacSubPdu, hdecode, hfits, show ulSchLcid e.lcid = _ from hkind, hra, throw,
      throwThe, MonadExceptOf.throw]
  all_goals
    simp [ulMacSubPdu, hdecode, hfits, show ulSchLcid e.lcid = _ from hkind, hgroup, throw,
      throwThe, MonadExceptOf.throw]

/-- Otherwise the loop goes on behind the element, unless a BSR that does not fit is read outside
the block. -/
theorem ulMacSubPdu_of_some (h : ulSubPdu? isElement pdu = some (e, rest))
    (hrefused : ¬ e.Refused ctx) (hra : e.kind = .cRnti → run.ue.raIdle = false)
    (hgroup : e.IsSrb → run.ue.cellGroup = true) :
    (∃ run', ulMacSubPdu ctx pdu run = .ok (run', .next rest) ∧ e.Took run run') ∨
      ¬ e.Fits ∧ ulMacSubPdu ctx pdu run = .error .outside := by
  obtain ⟨headerLen, len, hdecode, hlen, helement, hheader, hpayload, hrest⟩ :=
    ulSubPdu?_eq_some.1 h
  have hfits : ¬ pdu.length < headerLen + len := by omega
  have hce : (⟨pdu.take headerLen, e.lcid, e.payload⟩ : UlMacElement) = e := by
    rw [← hheader]
  have hread (i : ℕ) (hi : i < len) : ∃ octet, pduOctet pdu (headerLen + i) = .ok octet :=
    ⟨_, pduOctet_of_lt (by omega)⟩
  obtain ⟨-, hphr, hbsr⟩ := decode_header_len hdecode
  unfold ulMacSubPdu
  simp only [hdecode, ok_bind, if_neg hfits, ← hpayload, hce, ← hrest]
  cases hkind : ulSchLcid e.lcid with
  | ccch64Bits =>
    have hzero : ¬ (pdu.take (headerLen + len)).all (· == 0) = true := by
      rw [List.take_add, ← hheader, ← hpayload]
      exact fun hzero => hrefused (.inl ⟨hkind, hzero⟩)
    simp only [if_neg hzero]
    exact .inl ⟨_, rfl, UlMacElement.took_ccch (.inl hkind) false⟩
  | ccch48BitsRedcap => exact .inl ⟨_, rfl, UlMacElement.took_ccch (.inr (.inr hkind)) true⟩
  | ccch48Bits => exact .inl ⟨_, rfl, UlMacElement.took_ccch (.inr (.inl hkind)) false⟩
  | srb1 =>
    simp only [hgroup (.inl hkind)]
    exact .inl ⟨_, rfl, UlMacElement.took_srb (.inl hkind)⟩
  | srb2 =>
    simp only [hgroup (.inr hkind)]
    exact .inl ⟨_, rfl, UlMacElement.took_srb (.inr hkind)⟩
  | dtch => exact .inl ⟨_, rfl, UlMacElement.took_dtch hkind⟩
  | recommendedBitrateQuery | multiEntryPhr4Oct | configuredGrantConfirmation
  | multiEntryPhr1Oct =>
    obtain ⟨hc, hshort⟩ := UlMacElement.control_of_mem (e := e) (by simp [UlMacElement.kind, hkind])
    exact .inl ⟨_, rfl, UlMacElement.took_control hc hshort⟩
  | singleEntryPhr =>
    have hpid : ¬ ctx.harqPid < 0 := fun hpid => hrefused (.inr ⟨hkind, hpid⟩)
    obtain ⟨octet1, hoctet1⟩ := hread 0 (by rw [hphr hkind]; omega)
    obtain ⟨octet2, hoctet2⟩ := hread 1 (by rw [hphr hkind]; omega)
    simp only [if_neg hpid, Nat.add_zero] at hoctet1 ⊢
    simp only [hoctet1, hoctet2, ok_bind]
    obtain ⟨hc, hshort⟩ := UlMacElement.control_of_mem (e := e) (by simp [UlMacElement.kind, hkind])
    exact .inl ⟨_, rfl, UlMacElement.took_singleEntryPhr ctx octet1 octet2 hc hshort⟩
  | cRnti =>
    simp only [hra hkind]
    obtain ⟨hc, hshort⟩ := UlMacElement.control_of_mem (e := e) (by simp [UlMacElement.kind, hkind])
    exact .inl ⟨_, rfl, UlMacElement.took_control hc hshort⟩
  | sTruncatedBsr | sBsr =>
    obtain ⟨octet, hoctet⟩ := hread 0 (by rw [hbsr (by simp [hkind])]; omega)
    simp only [Nat.add_zero] at hoctet
    simp only [hoctet, ok_bind]
    exact .inl ⟨_, rfl, UlMacElement.took_bsr (by simp [UlMacElement.IsControl,
      UlMacElement.IsCcch, UlMacElement.IsSrb, UlMacElement.kind, hkind]) _⟩
  | lTruncatedBsr | lBsr =>
    have hce : len ≤ (pdu.drop headerLen).length := by
      rw [List.length_drop]
      omega
    rcases estimateUlBufferLongBsr_cases hce with ⟨estimate, hok⟩ | ⟨hshort, herror⟩
    · simp only [hok, ok_bind]
      exact .inl ⟨_, rfl, UlMacElement.took_bsr (by simp [UlMacElement.IsControl,
        UlMacElement.IsCcch, UlMacElement.IsSrb, UlMacElement.kind, hkind]) _⟩
    · refine .inr ⟨fun hfit => ?_, by rw [herror, error_bind]⟩
      rw [← hpayload] at hshort
      obtain ⟨bitmap, hbitmap, hlong⟩ := hfit (by simp [UlMacElement.IsLongBsr,
        UlMacElement.kind, hkind])
      have := hshort bitmap hbitmap
      omega
  | padding | unknown => simp [UlMacElement.kind, hkind, isElement] at helement

/-! ## The loop over the elements -/

theorem ulSubPdu?_ne_nil {goesOn : UlSchLcid → Bool} (h : ulSubPdu? goesOn pdu = some (e, rest)) :
    pdu ≠ [] := by
  rintro rfl
  cases h

theorem ulMacLoop_of_ret {n : ℕ} {code : Int} (hpdu : pdu ≠ [])
    (h : ulMacSubPdu ctx pdu run = .ok (run, .ret code)) :
    ulMacLoop ctx (n + 1) pdu run = .ok (code, run) := by
  obtain ⟨octet, pdu, rfl⟩ := List.exists_cons_of_ne_nil hpdu
  rw [ulMacLoop, h]
  rfl

theorem ulMacLoop_of_next {n : ℕ} {run' : UlMacRun} (hpdu : pdu ≠ [])
    (h : ulMacSubPdu ctx pdu run = .ok (run', .next rest)) :
    ulMacLoop ctx (n + 1) pdu run = ulMacLoop ctx n rest run' := by
  obtain ⟨octet, pdu, rfl⟩ := List.exists_cons_of_ne_nil hpdu
  rw [ulMacLoop, h]
  rfl

theorem ulMacLoop_of_error {n : ℕ} {fault : MacPduFault} (hpdu : pdu ≠ [])
    (h : ulMacSubPdu ctx pdu run = .error fault) :
    ulMacLoop ctx (n + 1) pdu run = .error fault := by
  obtain ⟨octet, pdu, rfl⟩ := List.exists_cons_of_ne_nil hpdu
  rw [ulMacLoop, h]
  rfl

theorem exists_succ_of_length_le {n : ℕ} (hpdu : pdu ≠ []) (hn : pdu.length ≤ n) :
    ∃ m, n = m + 1 :=
  Nat.exists_eq_succ_of_ne_zero (by have := List.length_pos_of_ne_nil hpdu; omega)

theorem ulMacElements_of_some (h : ulSubPdu? isElement pdu = some (e, rest)) :
    ulMacElements pdu = (e :: (ulMacElements rest).1, (ulMacElements rest).2) :=
  (ulSubPdu?_shortens isElement).pieces_of_some h

theorem ulMacElements_of_none (h : ulSubPdu? isElement pdu = none) :
    ulMacElements pdu = ([], pdu) :=
  pieces_of_none h

/-- The SDUs of the elements of a PDU. -/
def ulMacSdus (pdu : List UInt8) : List (UInt8 × List UInt8) :=
  (ulMacElements pdu).1.filterMap UlMacElement.sdu?

theorem ulMacSdus_of_some (h : ulSubPdu? isElement pdu = some (e, rest)) :
    ulMacSdus pdu = e.sdu?.toList ++ ulMacSdus rest := by
  rw [ulMacSdus, ulMacElements_of_some h, List.filterMap_cons]
  cases e.sdu? <;> rfl

theorem ulMacSdus_of_none (h : ulSubPdu? isElement pdu = none) : ulMacSdus pdu = [] := by
  rw [ulMacSdus, ulMacElements_of_none h]
  rfl

/-- No estimate is taken back, the estimate is that of the events, and no more is delivered than the
elements have. -/
theorem ulMacLoop_bound (pdu : List UInt8) : ∀ {n : ℕ} {run fin : UlMacRun} {code : Int},
    pdu.length ≤ n → ulMacLoop ctx n pdu run = .ok (code, fin) →
      (fin.Estimated → run.Estimated) ∧
      (∀ estimate, run.ue.estimatedUlBuffer = run.estimateFrom estimate →
        fin.ue.estimatedUlBuffer = fin.estimateFrom estimate) ∧
        fin.delivered.length ≤ run.delivered.length + (ulMacSdus pdu).length := by
  induction pdu using (ulSubPdu?_shortens isElement).induction with
  | stop pdu hnone =>
    intro n run fin code hn hloop
    rw [ulMacSdus_of_none hnone]
    by_cases hpdu : pdu = []
    · subst hpdu
      rw [ulMacLoop] at hloop
      cases hloop
      exact ⟨id, fun _ => id, le_rfl⟩
    · obtain ⟨n, rfl⟩ := exists_succ_of_length_le hpdu hn
      by_cases hcut : CutHeader pdu
      · rw [ulMacLoop_of_error hpdu (ulMacSubPdu_of_cut ctx run hcut)] at hloop
        cases hloop
      · obtain ⟨code', hret⟩ := ulMacSubPdu_of_none ctx run hpdu hcut hnone
        rw [ulMacLoop_of_ret hpdu hret] at hloop
        cases hloop
        exact ⟨id, fun _ => id, le_rfl⟩
  | piece pdu e rest hsome ih =>
    intro n run fin code hn hloop
    have hpdu := ulSubPdu?_ne_nil hsome
    have hshort := ulSubPdu?_shortens isElement hsome
    obtain ⟨n, rfl⟩ := exists_succ_of_length_le hpdu hn
    by_cases hrefused : e.Refused ctx
    · rw [ulMacLoop_of_ret hpdu (ulMacSubPdu_of_refused hsome hrefused)] at hloop
      cases hloop
      exact ⟨id, fun _ => id, Nat.le_add_right _ _⟩
    by_cases hassert : e.kind = .cRnti ∧ run.ue.raIdle = true ∨ e.IsSrb ∧ run.ue.cellGroup = false
    · rw [ulMacLoop_of_error hpdu (ulMacSubPdu_of_assert hsome hassert)] at hloop
      cases hloop
    rw [not_or, not_and, not_and, Bool.not_eq_true, Bool.not_eq_false] at hassert
    rcases ulMacSubPdu_of_some hsome hrefused hassert.1 hassert.2 with ⟨run', hnext, htook⟩ | herror
    · rw [ulMacLoop_of_next hpdu hnext] at hloop
      obtain ⟨hestimated, hestimate, hlen⟩ := ih (by omega) hloop
      refine ⟨fun h => (htook.estimated.1 (hestimated h)).1,
        fun estimate h => hestimate estimate (htook.estimate estimate h), hlen.trans ?_⟩
      have hle : (if e.IsCcch ∧ run.ue.srb0 = true then [] else e.sdu?.toList).length ≤
          e.sdu?.toList.length := by
        split <;> simp
      rw [ulMacSdus_of_some hsome, htook.delivered]
      simp only [List.length_append]
      omega
    · rw [ulMacLoop_of_error hpdu herror.2] at hloop
      cases hloop

/-- The loop goes on from a run as it should. -/
def LoopParsed (ctx : UlMacContext) (n : ℕ) (pdu : List UInt8) (run : UlMacRun) : Prop :=
  ∃ code fin, ulMacLoop ctx n pdu run = .ok (code, fin) ∧
    fin.delivered = run.delivered ++ ulMacSdus pdu ∧ fin.Estimated ∧
    fin.ue.numMacSdu = run.ue.numMacSdu + UInt32.ofNat (dtchSdus fin.delivered)

/-- What holds of a run in the loop, with the block that is left. -/
structure UlMacRun.Counts (run : UlMacRun) (pdu : List UInt8) : Prop where
  estimated : run.Estimated
  sdus : run.sdus = dtchSdus run.delivered
  bound : run.sdus + pdu.length < 2 ^ 32

/-- An uncounted run has counted if there was nothing to count. -/
theorem UlMacRun.Counts.eq_add_iff (h : run.Counts pdu) :
    run.ue.numMacSdu = run.ue.numMacSdu + UInt32.ofNat (dtchSdus run.delivered) ↔
      run.sdus = 0 := by
  have hbound : run.sdus < 2 ^ 32 := by have := h.bound; omega
  rw [← h.sdus]
  constructor
  · intro heq
    have hzero : UInt32.ofNat run.sdus = 0 := by
      simpa using heq.symm
    have hmod : run.sdus % 2 ^ 32 = 0 := by simpa using congrArg UInt32.toNat hzero
    rwa [Nat.mod_eq_of_lt hbound] at hmod
  · intro hzero
    simp [hzero]

theorem UlMacElement.sdu?_eq_some_of_ccch (h : e.IsCcch) : e.sdu? = some (0, e.payload) := by
  simp [UlMacElement.sdu?, h]

/-- The DTCH SDUs of one element. -/
theorem dtchSdus_sdu? : dtchSdus e.sdu?.toList = if e.kind = .dtch then 1 else 0 := by
  by_cases hccch : e.IsCcch
  · have hdtch : e.kind ≠ .dtch := by
      rcases hccch with h | h | h <;> simp [h]
    simp [UlMacElement.sdu?_eq_some_of_ccch hccch, hdtch, dtchSdus]
    decide
  · by_cases hsdu : e.IsSrb ∨ e.kind = .dtch
    · have hsome : e.sdu? = some (e.lcid, e.payload) := by
        rw [UlMacElement.sdu?, if_neg hccch, if_pos hsdu]
      rw [hsome, Option.toList_some, dtchSdus, List.countP_singleton]
      exact if_congr decide_eq_true_iff rfl rfl
    · have hnone : e.sdu? = none := by
        rw [UlMacElement.sdu?, if_neg hccch, if_neg hsdu]
      have hdtch : e.kind ≠ .dtch := fun h => hsdu (.inr h)
      simp [hnone, hdtch, dtchSdus]

theorem UlMacElement.Took.counts {run' : UlMacRun} (htook : e.Took run run') (hfits : e.Fits)
    (hccch : e.IsCcch → run.ue.srb0 = false) (hrest : rest.length < pdu.length)
    (h : run.Counts pdu) : run'.Counts rest := by
  have hdelivered : run'.delivered = run.delivered ++ e.sdu?.toList := by
    rw [htook.delivered, if_neg (by rintro ⟨hc, hs⟩; simp [hccch hc] at hs)]
  have hle : (if e.kind = .dtch then 1 else 0) ≤ 1 := by split <;> simp
  have hbound := h.bound
  refine ⟨htook.estimated.2 ⟨h.estimated, hfits⟩, ?_, ?_⟩
  · rw [htook.sdus, hdelivered, dtchSdus, List.countP_append, ← dtchSdus, ← dtchSdus,
      dtchSdus_sdu?, h.sdus]
  · rw [htook.sdus]
    omega

/-- The loop goes on as it should for exactly the elements that are good. -/
theorem loopParsed_iff (pdu : List UInt8) : ∀ {n : ℕ} {run : UlMacRun}, pdu.length ≤ n →
    run.Counts pdu →
      (LoopParsed ctx n pdu run ↔ ElementsGood ctx run.ue.raIdle run.ue.srb0 run.ue.cellGroup
        (decide (0 < run.sdus)) (ulMacElements pdu).1 (ulMacElements pdu).2) := by
  induction pdu using (ulSubPdu?_shortens isElement).induction with
  | stop pdu hnone =>
    intro n run hn h
    rw [ulMacElements_of_none hnone, ElementsGood, LoopParsed, ulMacSdus_of_none hnone]
    by_cases hpdu : pdu = []
    · subst hpdu
      have hcut : ¬ CutHeader [] := fun hcut => hcut.1 rfl
      refine iff_of_true ⟨0, run.counted, by rw [ulMacLoop]; rfl, by simp [UlMacRun.counted,
        UlMacRun.delivered], h.estimated, ?_⟩ ⟨hcut, .inl rfl⟩
      rw [show run.counted.delivered = run.delivered from rfl, ← h.sdus]
      rfl
    · obtain ⟨n, rfl⟩ := exists_succ_of_length_le hpdu hn
      by_cases hcut : CutHeader pdu
      · refine iff_of_false ?_ fun hgood => hgood.1 hcut
        rintro ⟨code, fin, hloop, -⟩
        rw [ulMacLoop_of_error hpdu (ulMacSubPdu_of_cut ctx run hcut)] at hloop
        cases hloop
      · obtain ⟨code, hret⟩ := ulMacSubPdu_of_none ctx run hpdu hcut hnone
        rw [ulMacLoop_of_ret hpdu hret]
        constructor
        · rintro ⟨_, _, ⟨⟩, -, -, hnum⟩
          exact ⟨hcut, .inr (by simpa using h.eq_add_iff.1 hnum)⟩
        · rintro ⟨-, hstop | hsdus⟩
          · exact absurd hstop hpdu
          · exact ⟨code, run, rfl, by simp, h.estimated,
              h.eq_add_iff.2 (by simpa using hsdus)⟩
  | piece pdu e rest hsome ih =>
    intro n run hn h
    have hpdu := ulSubPdu?_ne_nil hsome
    have hshort := ulSubPdu?_shortens isElement hsome
    obtain ⟨n, rfl⟩ := exists_succ_of_length_le hpdu hn
    rw [ulMacElements_of_some hsome, ElementsGood]
    by_cases hrefused : e.Refused ctx
    · have hret : ulMacSubPdu ctx pdu run = .ok (run, .ret 0) :=
        ulMacSubPdu_of_refused hsome hrefused
      rw [if_pos hrefused, LoopParsed, ulMacLoop_of_ret hpdu hret]
      have hsdus : ulMacSdus pdu = [] ↔ ∀ e' ∈ e :: (ulMacElements rest).1, e'.sdu? = none := by
        rw [ulMacSdus, ulMacElements_of_some hsome, List.filterMap_eq_nil_iff]
      rw [← hsdus]
      constructor
      · rintro ⟨_, _, ⟨⟩, hdelivered, -, hnum⟩
        exact ⟨by simpa using hdelivered, by simpa using h.eq_add_iff.1 hnum⟩
      · rintro ⟨hnone, hcount⟩
        exact ⟨0, run, rfl, by simp [hnone], h.estimated, h.eq_add_iff.2 (by simpa using hcount)⟩
    rw [if_neg hrefused]
    by_cases hassert : e.kind = .cRnti ∧ run.ue.raIdle = true ∨ e.IsSrb ∧ run.ue.cellGroup = false
    · refine iff_of_false ?_ ?_
      · rintro ⟨code, fin, hloop, -⟩
        rw [ulMacLoop_of_error hpdu (ulMacSubPdu_of_assert hsome hassert)] at hloop
        cases hloop
      · rintro ⟨-, hra, hgroup, -⟩
        rcases hassert with ⟨hkind, hidle⟩ | ⟨hsrb, hnone⟩
        · simp [hra hkind] at hidle
        · simp [hgroup hsrb] at hnone
    rw [not_or, not_and, not_and, Bool.not_eq_true, Bool.not_eq_false] at hassert
    rcases ulMacSubPdu_of_some hsome hrefused hassert.1 hassert.2 with ⟨run', hnext, htook⟩ | herror
    · have hloop : LoopParsed ctx (n + 1) pdu run ↔ ∃ code fin,
          ulMacLoop ctx n rest run' = .ok (code, fin) ∧
            fin.delivered = run.delivered ++ (e.sdu?.toList ++ ulMacSdus rest) ∧ fin.Estimated ∧
            fin.ue.numMacSdu = run'.ue.numMacSdu + UInt32.ofNat (dtchSdus fin.delivered) := by
        rw [LoopParsed, ulMacLoop_of_next hpdu hnext, ulMacSdus_of_some hsome, htook.numMacSdu]
      rw [hloop]
      by_cases hfits : e.Fits
      · by_cases hccch : e.IsCcch → run.ue.srb0 = false
        · have hdelivered : run'.delivered = run.delivered ++ e.sdu?.toList := by
            rw [htook.delivered, if_neg (by rintro ⟨hc, hs⟩; simp [hccch hc] at hs)]
          have hih := ih (show rest.length ≤ n by omega) (htook.counts hfits hccch hshort h)
          rw [LoopParsed, hdelivered] at hih
          simp only [List.append_assoc] at hih
          have hgroup : decide (e.IsCcch ∧ run.ue.srb0 = false) = decide e.IsCcch := by
            rw [decide_eq_decide, and_iff_left_of_imp hccch]
          have hdtch : decide (0 < run.sdus + if e.kind = .dtch then 1 else 0) =
              (decide (0 < run.sdus) || decide (e.kind = .dtch)) := by
            by_cases hkind : e.kind = .dtch <;> simp [hkind]
          rw [hih, htook.raIdle, htook.srb0, htook.cellGroup, htook.sdus, hgroup, hdtch]
          exact ⟨fun hgood => ⟨hfits, hassert.1, hassert.2, hccch, hgood⟩,
            fun hgood => hgood.2.2.2.2⟩
        · -- a CCCH SDU that is not delivered leaves one too few
          obtain ⟨hc, hsrb0⟩ := Classical.not_imp.1 hccch
          refine iff_of_false ?_ fun hgood => hccch hgood.2.2.2.1
          rintro ⟨code, fin, hfin, hdelivered, -⟩
          have hlen := (ulMacLoop_bound rest (by omega) hfin).2.2
          rw [hdelivered, htook.delivered, if_pos ⟨hc, by simpa using hsrb0⟩,
            UlMacElement.sdu?_eq_some_of_ccch hc] at hlen
          simp only [List.length_append, Option.toList_some, List.length_singleton,
            List.length_nil] at hlen
          omega
      · refine iff_of_false ?_ fun hgood => hfits hgood.1
        rintro ⟨code, fin, hfin, -, hestimated, -⟩
        have hrun' := (ulMacLoop_bound rest (by omega) hfin).1 hestimated
        exact hfits (htook.estimated.1 hrun').2
    · refine iff_of_false ?_ fun hgood => herror.1 hgood.1
      rintro ⟨code, fin, hloop, -⟩
      rw [ulMacLoop_of_error hpdu herror.2] at hloop
      cases hloop

/-! ## The C-RNTI -/

theorem lookaheadLoop_of_ok {n headerLen len : ℕ} {lcid : UInt8} (hpdu : pdu ≠ [])
    (hdecode : decodeUlMacSubPduHeader pdu = .ok (headerLen, lcid, len))
    (hlen : headerLen + len ≤ pdu.length) :
    lookaheadLoop (n + 1) pdu =
      match ulSchLcid lcid with
      | .cRnti => do
        let high ← pduOctet pdu 1
        let low ← pduOctet pdu 2
        return high.toNat * 256 + low.toNat
      | .padding => return 0
      | _ => lookaheadLoop n (pdu.drop (headerLen + len)) := by
  obtain ⟨octet, pdu, rfl⟩ := List.exists_cons_of_ne_nil hpdu
  have hfits : ¬ (octet :: pdu).length < headerLen + len := by omega
  rw [lookaheadLoop, hdecode, ok_bind]
  exact if_neg hfits

/-- Where there is nothing to skip, the lookahead returns unless the header is cut. -/
theorem lookaheadLoop_of_none {n : ℕ} (hpdu : pdu ≠ []) (hcut : ¬ CutHeader pdu)
    (hnone : ulSubPdu? isSkipped pdu = none) :
    ∃ crnti, lookaheadLoop (n + 1) pdu = .ok crnti := by
  obtain ⟨headerLen, lcid, len, hdecode⟩ := decode_header_ne_cut hpdu hcut
  by_cases hfits : headerLen + len ≤ pdu.length
  · have hstop : isSkipped (ulSchLcid lcid) = false := by
      by_contra hskipped
      simp only [ulSubPdu?, hdecode] at hnone
      rw [if_pos ⟨hfits, by simpa using hskipped⟩] at hnone
      cases hnone
    rw [lookaheadLoop_of_ok hpdu hdecode hfits]
    cases hkind : ulSchLcid lcid with
    | padding => exact ⟨0, rfl⟩
    | cRnti =>
      obtain ⟨rfl, rfl⟩ := (decode_header_len hdecode).1 hkind
      rw [pduOctet_of_lt (show 1 < pdu.length by omega),
        pduOctet_of_lt (show 2 < pdu.length by omega)]
      exact ⟨_, rfl⟩
    | _ => simp [hkind, isSkipped] at hstop
  · obtain ⟨octet, pdu, rfl⟩ := List.exists_cons_of_ne_nil hpdu
    refine ⟨0, ?_⟩
    rw [lookaheadLoop, hdecode, ok_bind]
    simp only [if_pos (Nat.lt_of_not_le hfits)]
    rfl

theorem lookaheadLoop_of_some {n : ℕ} (h : ulSubPdu? isSkipped pdu = some (e, rest)) :
    lookaheadLoop (n + 1) pdu = lookaheadLoop n rest := by
  obtain ⟨headerLen, len, hdecode, hlen, hskipped, -, -, rfl⟩ := ulSubPdu?_eq_some.1 h
  rw [lookaheadLoop_of_ok (ulSubPdu?_ne_nil h) hdecode hlen]
  cases hkind : ulSchLcid e.lcid with
  | padding | cRnti => simp [UlMacElement.kind, hkind, isSkipped] at hskipped
  | _ => rfl

/-- The lookahead returns, or comes across a cut header. -/
theorem lookaheadLoop_iff (pdu : List UInt8) : ∀ {n : ℕ}, pdu.length ≤ n →
    ((∃ crnti, lookaheadLoop n pdu = .ok crnti) ↔ ¬ CutHeader (lookaheadRest pdu)) := by
  induction pdu using (ulSubPdu?_shortens isSkipped).induction with
  | stop pdu hnone =>
    intro n hn
    rw [lookaheadRest, pieces_of_none hnone]
    by_cases hpdu : pdu = []
    · subst hpdu
      exact iff_of_true ⟨0, by rw [lookaheadLoop]; rfl⟩ fun hcut => hcut.1 rfl
    · obtain ⟨n, rfl⟩ := exists_succ_of_length_le hpdu hn
      by_cases hcut : CutHeader pdu
      · refine iff_of_false ?_ (not_not_intro hcut)
        rintro ⟨crnti, hloop⟩
        obtain ⟨octet, pdu, rfl⟩ := List.exists_cons_of_ne_nil hpdu
        rw [lookaheadLoop, hcut.2] at hloop
        cases hloop
      · exact iff_of_true (lookaheadLoop_of_none hpdu hcut hnone) hcut
  | piece pdu e rest hsome ih =>
    intro n hn
    have hshort := ulSubPdu?_shortens isSkipped hsome
    obtain ⟨n, rfl⟩ := exists_succ_of_length_le (ulSubPdu?_ne_nil hsome) hn
    rw [lookaheadLoop_of_some hsome, ih (show rest.length ≤ n by omega), lookaheadRest,
      lookaheadRest, (ulSubPdu?_shortens isSkipped).pieces_of_some hsome]

/-! ## The main result -/

/-- A UE in RRC connected. -/
def connectedUe : UlMacUe :=
  ⟨true, true, false, true, 0, 0, 0, 0, fun _ => 0, 0, 0⟩

end NrStack
