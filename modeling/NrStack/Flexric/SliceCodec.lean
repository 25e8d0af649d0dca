import NrStack.Flexric.SliceSm

/-!
# What the slice codec writes and reads

`sized_*` : the sizes computed beforehand are those of the formats that the encoder writes, where no
tag is unknown. `goesOn_*` : the assertions of the encoder that the buffer goes on hold. `finds_*` :
the decoder reads those formats, without these assertions.
-/

namespace NrStack

open Wire

/-! ## Known tags -/

/-- The tag is known. -/
def NvsSlice.Known : NvsSlice → Prop
  | rate _ => True
  | capacity _ => True
  | other _ _ => False

/-- The tag is known. -/
def Scn19Slice.Known : Scn19Slice → Prop
  | dynamic _ => True
  | fixed _ => True
  | onDemand _ => True
  | other _ _ => False

/-- The tags are known. -/
def SliceParams.Known : SliceParams → Prop
  | sta _ => True
  | nvs slice => slice.Known
  | scn19 slice => slice.Known
  | edf _ => True
  | other _ _ => False

/-- The tags are known. -/
def SliceConf.Known (conf : SliceConf) : Prop :=
  (∀ slc ∈ conf.dl.slices.contents, slc.params.Known) ∧
    ∀ slc ∈ conf.ul.slices.contents, slc.params.Known

/-- The tags are known. -/
def SliceIndMsg.Known (ind : SliceIndMsg) : Prop :=
  ind.sliceConf.Known

/-- The tags are known. -/
def SliceCtrlMsg.Known : SliceCtrlMsg → Prop
  | addModSlice conf => conf.Known
  | delSlice _ => True
  | ueSlice _ => True
  | other _ _ => False

/-! ## Strings that the decoder has memory for -/

/-- One octet more has a length. -/
def StringFits (s : WireArray UInt8) : Prop :=
  s.len + 1 ≠ 0

theorem stringFits_iff (s : WireArray UInt8) : StringFits s ↔ s.contents.length ≠ 2 ^ 32 - 1 := by
  have hlen := s.toNat_len
  have hlt := s.len.toNat_lt
  rw [StringFits, Ne, ← UInt32.toNat_inj, UInt32.toNat_add, hlen, UInt32.toNat_one,
    UInt32.toNat_zero]
  omega

/-- The strings fit. -/
def FrSlice.Fits (slc : FrSlice) : Prop :=
  StringFits slc.label ∧ StringFits slc.sched

/-- The strings fit. -/
def UlDlSliceConf.Fits (conf : UlDlSliceConf) : Prop :=
  StringFits conf.schedName ∧ ∀ slc ∈ conf.slices.contents, slc.Fits

/-- The strings fit. -/
def SliceConf.Fits (conf : SliceConf) : Prop :=
  conf.dl.Fits ∧ conf.ul.Fits

/-- The strings fit. -/
def SliceIndMsg.Fits (ind : SliceIndMsg) : Prop :=
  ind.sliceConf.Fits

/-- The strings fit. -/
def SliceCtrlMsg.Fits : SliceCtrlMsg → Prop
  | addModSlice conf => conf.Fits
  | delSlice _ => True
  | ueSlice _ => True
  | other _ _ => True

/-! ## The sizes -/

theorem sized_nvs {nvs : NvsSlice} (h : nvs.Known) :
    ∃ n, calNvs nvs = some n ∧ Sized n (SliceEnc.fillNvs nvs) := by
  cases nvs with
  | rate rate => exact ⟨_, rfl, (Sized.u32 _).append ((Sized.u32 _).append (.u32 _))⟩
  | capacity pctReserved => exact ⟨_, rfl, (Sized.u32 _).append (.u32 _)⟩
  | other conf hconf => exact h.elim

theorem sized_scn19 {scn : Scn19Slice} (h : scn.Known) :
    ∃ n, calScn19 scn = some n ∧ Sized n (SliceEnc.fillScn19 scn) := by
  cases scn with
  | dynamic dynamic => exact ⟨_, rfl, (Sized.u32 _).append ((Sized.u32 _).append (.u32 _))⟩
  | fixed fixed => exact ⟨_, rfl, (Sized.u32 _).append ((Sized.u32 _).append (.u32 _)).room⟩
  | onDemand onDemand =>
    exact ⟨_, rfl, (Sized.u32 _).append ((Sized.u32 _).append ((Sized.u32 _).append (.u32 _)))⟩
  | other conf hconf => exact h.elim

theorem sized_edf (edf : EdfSlice) : Sized (calEdf edf) (SliceEnc.fillEdf edf) :=
  ((Sized.u32 _).append ((Sized.u32 _).append ((Sized.u32 _).append
    (Sized.array fun _ _ => Sized.u32 _)))).of_eq (by rw [calEdf]; omega)

theorem sized_params {par : SliceParams} (h : par.Known) :
    ∃ n, calParams par = some n ∧ Sized n (SliceEnc.fillParams par) := by
  cases par with
  | sta sta => exact ⟨_, rfl, (Sized.u32 _).append ((Sized.u32 _).append (.u32 _)).room⟩
  | nvs nvs =>
    obtain ⟨n, hcal, hsized⟩ := sized_nvs h
    exact ⟨4 + n, by rw [calParams, hcal]; rfl, (Sized.u32 _).append hsized⟩
  | scn19 scn19 =>
    obtain ⟨n, hcal, hsized⟩ := sized_scn19 h
    exact ⟨4 + n, by rw [calParams, hcal]; rfl, (Sized.u32 _).append hsized⟩
  | edf edf => exact ⟨_, rfl, (Sized.u32 _).append (sized_edf edf)⟩
  | other type htype => exact h.elim

theorem sized_slc {slcs : List FrSlice} (h : ∀ slc ∈ slcs, slc.params.Known) :
    ∃ n, calSlc slcs = some n ∧ Sized n (slcs.flatMap SliceEnc.fillSlice) := by
  induction slcs with
  | nil => exact ⟨0, rfl, .nil⟩
  | cons slc slcs ih =>
    obtain ⟨szPar, hpar, hsizedPar⟩ := sized_params (h slc List.mem_cons_self)
    obtain ⟨total, htotal, hsized⟩ := ih fun x hx => h x (List.mem_cons_of_mem _ hx)
    refine ⟨4 + 4 + slc.label.contents.length + 4 + slc.sched.contents.length + szPar + total,
      by rw [calSlc, hpar, htotal]; rfl, ?_⟩
    have hslc : Sized _ (SliceEnc.fillSlice slc) :=
      ((Sized.u32 slc.id).append ((Sized.words slc.label).append ((Sized.words slc.sched).append
        hsizedPar))).room
    exact (hslc.append hsized).of_eq (by omega)

theorem sized_ulDl {conf : UlDlSliceConf} (h : ∀ slc ∈ conf.slices.contents, slc.params.Known) :
    ∃ n, calUlDl conf = some n ∧ Sized n (SliceEnc.fillUlDlSliceConf conf) := by
  obtain ⟨szSlice, hslc, hsized⟩ := sized_slc h
  refine ⟨4 + conf.schedName.contents.length + 4 + szSlice, by rw [calUlDl, hslc]; rfl, ?_⟩
  exact ((Sized.words conf.schedName).append ((Sized.u32 conf.slices.len).append hsized)).of_eq
    (by omega)

theorem sized_sliceConf {conf : SliceConf} (h : conf.Known) :
    ∃ n, calSliceConf conf = some n ∧ Sized n (SliceEnc.fillSliceConf conf) := by
  obtain ⟨dl, hdl, hsizedDl⟩ := sized_ulDl h.1
  obtain ⟨ul, hul, hsizedUl⟩ := sized_ulDl h.2
  exact ⟨ul + dl, by rw [calSliceConf, hdl, hul]; rfl, (hsizedDl.append hsizedUl).of_eq
    (Nat.add_comm _ _)⟩

theorem sized_ueSliceConf (slc : UeSliceConf) :
    Sized (calUeSliceConf slc) (SliceEnc.fillUeSliceConf slc) :=
  .array fun _ _ => ((Sized.u32 _).append ((Sized.u32 _).append (.u16 _))).room

theorem sized_indMsg {ind : SliceIndMsg} (h : ind.Known) :
    ∃ n, calIndMsgPayload ind = some n ∧ Sized n (SliceEnc.indMsg ind) := by
  obtain ⟨szConf, hcal, hsized⟩ := sized_sliceConf h
  refine ⟨szConf + calUeSliceConf ind.ueSliceConf + 8, by rw [calIndMsgPayload, hcal]; rfl, ?_⟩
  exact (hsized.append ((sized_ueSliceConf _).append (.u64 _))).of_eq (by omega)

theorem sized_delSlice (del : DelSliceConf) :
    Sized (calDelSlice del) (SliceEnc.fillDelSliceConf del) :=
  ((Sized.words del.dl).append (Sized.words del.ul)).of_eq (by rw [calDelSlice]; omega)

theorem sized_ctrlMsg {ctrl : SliceCtrlMsg} (h : ctrl.Known) :
    ∃ n, calCtrlMsgPayload ctrl = some n ∧ Sized n (SliceEnc.fillSliceCtrlMsg ctrl) := by
  cases ctrl with
  | addModSlice conf =>
    obtain ⟨n, hcal, hsized⟩ := sized_sliceConf h
    exact ⟨4 + n, by rw [calCtrlMsgPayload, hcal]; rfl, (Sized.u32 _).append hsized⟩
  | delSlice conf => exact ⟨_, rfl, (Sized.u32 _).append (sized_delSlice conf)⟩
  | ueSlice conf => exact ⟨_, rfl, (Sized.u32 _).append (sized_ueSliceConf conf)⟩
  | other type htype => exact h.elim

/-! ## The assertions of the encoder -/

theorem goesOn_static (sta : StaticSlice) : (SliceEnc.fillStatic sta).GoesOn :=
  .room_word (goesOn_wordWire 4 _)

theorem goesOn_params (par : SliceParams) : (SliceEnc.fillParams par).GoesOn := by
  refine (goesOn_wordWire 4 _).append ?_
  cases par with
  | sta sta => exact goesOn_static sta
  | nvs nvs =>
    refine (goesOn_wordWire 4 _).append ?_
    cases nvs with
    | rate rate => exact (goesOn_wordWire 4 _).append (goesOn_wordWire 4 _)
    | capacity pctReserved => exact goesOn_wordWire 4 _
    | other conf hconf => exact trivial
  | scn19 scn19 =>
    refine (goesOn_wordWire 4 _).append ?_
    cases scn19 with
    | dynamic dynamic => exact (goesOn_wordWire 4 _).append (goesOn_wordWire 4 _)
    | fixed fixed => exact goesOn_static fixed
    | onDemand onDemand =>
      exact (goesOn_wordWire 4 _).append ((goesOn_wordWire 4 _).append (goesOn_wordWire 4 _))
    | other conf hconf => exact trivial
  | edf edf =>
    exact (goesOn_wordWire 4 _).append ((goesOn_wordWire 4 _).append ((goesOn_wordWire 4 _).append
      (.array fun _ _ => goesOn_wordWire 4 _)))
  | other type htype => exact trivial

theorem goesOn_slice (slc : FrSlice) : (SliceEnc.fillSlice slc).GoesOn :=
  .room_word ((GoesOn.array fun _ _ => goesOn_wordWire 1 _).append
    ((GoesOn.array fun _ _ => goesOn_wordWire 1 _).append (goesOn_params slc.params)))

theorem goesOn_sliceConf (conf : SliceConf) : (SliceEnc.fillSliceConf conf).GoesOn :=
  have hulDl (ulDl : UlDlSliceConf) : (SliceEnc.fillUlDlSliceConf ulDl).GoesOn :=
    (GoesOn.array fun _ _ => goesOn_wordWire 1 _).append (.array fun slc _ => goesOn_slice slc)
  (hulDl conf.dl).append (hulDl conf.ul)

theorem goesOn_ueSliceConf (slc : UeSliceConf) : (SliceEnc.fillUeSliceConf slc).GoesOn :=
  .array fun _ _ => .room_word ((goesOn_wordWire 4 _).append (goesOn_wordWire 2 _))

theorem goesOn_indMsg (ind : SliceIndMsg) : (SliceEnc.indMsg ind).GoesOn :=
  (goesOn_sliceConf _).append ((goesOn_ueSliceConf _).append (goesOn_wordWire 8 _))

theorem goesOn_ctrlMsg (ctrl : SliceCtrlMsg) : (SliceEnc.fillSliceCtrlMsg ctrl).GoesOn := by
  refine (goesOn_wordWire 4 _).append ?_
  cases ctrl with
  | addModSlice conf => exact goesOn_sliceConf conf
  | delSlice conf =>
    exact (GoesOn.array fun _ _ => goesOn_wordWire 4 _).append
      (.array fun _ _ => goesOn_wordWire 4 _)
  | ueSlice conf => exact goesOn_ueSliceConf conf
  | other type htype => exact trivial

/-! ## The decoder -/

theorem finds_static :
    Finds SliceDec.fillStatic (fun sta => (SliceEnc.fillStatic sta).dropRooms) fun _ => True := by
  refine (Finds.u32.field StaticSlice.posHigh fun posHigh =>
    Finds.u32.last StaticSlice.posLow (fun sta => ?_) fun _ => rfl).congr (fun _ => Iff.rfl) ?_
  · simp [StaticSlice.ext_iff]
  · exact fun _ _ => by simp [SliceEnc.fillStatic]

theorem finds_rate : Finds SliceDec.fillRate SliceEnc.fillRate fun _ => True := by
  refine Finds.u32.field NvsRate.mbpsReference fun mbpsReference =>
    Finds.u32.last NvsRate.mbpsRequired (fun nvs => ?_) fun _ => rfl
  simp [NvsRate.ext_iff]

theorem finds_nvs :
    Finds SliceDec.fillNvs (fun nvs => (SliceEnc.fillNvs nvs).dropRooms) fun _ => True := by
  refine .tagged NvsSlice.conf (fun _ => u32Wire_prefix_dropRooms _ _) fun conf => ?_
  split_ifs with hrate hcap
  · refine (finds_rate).case (fun nvs => ?_) fun rate => ?_
    · cases nvs <;> grind [NvsSlice.conf]
    · rfl
  · refine Finds.u32.case (fun nvs => ?_) fun pct => ?_
    · cases nvs <;> grind [NvsSlice.conf]
    · rfl
  · refine .unknown (fun nvs hnvs => ?_) ⟨.other conf ⟨hrate, hcap⟩, rfl, trivial⟩
    cases nvs with
    | rate rate => exact absurd hnvs.1.symm hrate
    | capacity pct => exact absurd hnvs.1.symm hcap
    | other conf hconf => rfl

theorem finds_onDemand : Finds SliceDec.fillOnDemand SliceEnc.fillOnDemand fun _ => True := by
  refine Finds.u32.field Scn19OnDemand.logDelta fun logDelta =>
    Finds.u32.field Scn19OnDemand.pctReserved fun pctReserved =>
    Finds.u32.last Scn19OnDemand.tau (fun scn => ?_) fun _ => rfl
  simp only [Scn19OnDemand.ext_iff]
  tauto

theorem finds_scn19 :
    Finds SliceDec.fillScn19 (fun scn => (SliceEnc.fillScn19 scn).dropRooms) fun _ => True := by
  refine .tagged Scn19Slice.conf (fun _ => u32Wire_prefix_dropRooms _ _) fun conf => ?_
  split_ifs with hdynamic hfixed hdemand
  · refine (finds_rate).case (fun scn => ?_) fun rate => ?_
    · cases scn <;> grind [Scn19Slice.conf]
    · rfl
  · refine (finds_static).case (fun scn => ?_) fun sta => ?_
    · cases scn <;> grind [Scn19Slice.conf]
    · rfl
  · refine (finds_onDemand).case (fun scn => ?_) fun demand => ?_
    · cases scn <;> grind [Scn19Slice.conf]
    · rfl
  · refine .unknown (fun scn hscn => ?_) ⟨.other conf ⟨hdynamic, hfixed, hdemand⟩, rfl, trivial⟩
    cases scn with
    | dynamic rate => exact absurd hscn.1.symm hdynamic
    | fixed sta => exact absurd hscn.1.symm hfixed
    | onDemand demand => exact absurd hscn.1.symm hdemand
    | other conf hconf => rfl

theorem finds_edf : Finds SliceDec.fillEdf SliceEnc.fillEdf fun _ => True := by
  refine Finds.u32.field EdfSlice.deadline fun deadline =>
    Finds.u32.field EdfSlice.guaranteedPrbs fun guaranteedPrbs =>
    Finds.u32.field EdfSlice.maxReplenish fun maxReplenish =>
    Finds.u32.arrayOf.last EdfSlice.overlap (fun edf => ?_) fun _ => rfl
  simp only [EdfSlice.ext_iff]
  tauto

theorem finds_params :
    Finds SliceDec.fillParams (fun par => (SliceEnc.fillParams par).dropRooms) fun _ => True := by
  refine .tagged SliceParams.type (fun _ => u32Wire_prefix_dropRooms _ _) fun type => ?_
  split_ifs with hsta hnvs hscn19 hedf
  · refine (finds_static).case (fun par => ?_) fun sta => ?_
    · cases par <;> grind [SliceParams.type]
    · rfl
  · refine (finds_nvs).case (fun par => ?_) fun nvs => ?_
    · cases par <;> grind [SliceParams.type]
    · rfl
  · refine (finds_scn19).case (fun par => ?_) fun scn => ?_
    · cases par <;> grind [SliceParams.type]
    · rfl
  · refine (finds_edf).case (fun par => ?_) fun edf => ?_
    · cases par <;> grind [SliceParams.type]
    · simp [SliceEnc.fillParams, SliceEnc.fillEdf]
      rfl
  · refine .unknown (fun par hpar => ?_) ⟨.other type ⟨hsta, hnvs, hscn19, hedf⟩, rfl, trivial⟩
    cases par with
    | sta sta => exact absurd hpar.1.symm hsta
    | nvs nvs => exact absurd hpar.1.symm hnvs
    | scn19 scn => exact absurd hpar.1.symm hscn19
    | edf edf => exact absurd hpar.1.symm hedf
    | other type htype => rfl

theorem finds_string : Finds SliceDec.string (arrayWire u8Wire) StringFits := by
  have hlen : Finds SliceDec.stringLen u32Wire fun len => True ∧ len + 1 ≠ 0 :=
    Finds.u32.guarded (fun _ _ => not_halts_ofOctets) ⟨0, trivial, by decide⟩
  refine hlen.bind WireArray.len (fun s hs => ⟨trivial, hs⟩) fun len hfits => ?_
  refine (Finds.u8.contents len).congr (fun s => ?_) fun _ _ => rfl
  constructor
  · rintro ⟨rfl, -⟩
    exact ⟨rfl, hfits.2⟩
  · rintro ⟨rfl, -⟩
    exact ⟨rfl, fun _ _ => trivial⟩

theorem finds_slice :
    Finds SliceDec.fillSlice (fun slc => (SliceEnc.fillSlice slc).dropRooms) FrSlice.Fits := by
  refine (Finds.u32.field FrSlice.id fun id =>
    (finds_string).bind FrSlice.label (fun slc hslc => hslc.2.1) fun label hlabel =>
    (finds_string).bind FrSlice.sched (fun slc hslc => hslc.2.2.2) fun sched hsched =>
    (finds_params).last FrSlice.params (fun slc => ?_) fun _ => rfl).congr (fun _ => Iff.rfl)
      fun slc _ => ?_
  · simp only [FrSlice.ext_iff, FrSlice.Fits]
    constructor
    · tauto
    · rintro ⟨-, rfl, rfl, rfl, -⟩
      exact ⟨rfl, rfl, rfl, hlabel, hsched⟩
  · simp [SliceEnc.fillSlice]

theorem finds_ulDl : Finds SliceDec.fillUlDlSliceConf
    (fun conf => (SliceEnc.fillUlDlSliceConf conf).dropRooms) UlDlSliceConf.Fits := by
  refine ((finds_string).bind UlDlSliceConf.schedName (fun conf hconf => hconf.1) fun name hname =>
    (finds_slice).array.last UlDlSliceConf.slices (fun conf => ?_) fun _ => rfl).congr
      (fun _ => Iff.rfl) fun conf _ => ?_
  · simp only [UlDlSliceConf.ext_iff, UlDlSliceConf.Fits]
    constructor
    · tauto
    · rintro ⟨hslices, -, rfl⟩
      exact ⟨rfl, hname, hslices⟩
  · simp [SliceEnc.fillUlDlSliceConf]

theorem finds_sliceConf :
    Finds SliceDec.fillSliceConf (fun conf => (SliceEnc.fillSliceConf conf).dropRooms)
      SliceConf.Fits := by
  refine ((finds_ulDl).bind SliceConf.dl (fun conf hconf => hconf.1) fun dl hdl =>
    (finds_ulDl).last SliceConf.ul (fun conf => ?_) fun _ => rfl).congr
      (fun _ => Iff.rfl) fun conf _ => ?_
  · simp only [SliceConf.ext_iff, SliceConf.Fits]
    constructor
    · tauto
    · rintro ⟨hul, rfl, -⟩
      exact ⟨rfl, hdl, hul⟩
  · simp [SliceEnc.fillSliceConf]

theorem finds_ueSliceAssoc : Finds SliceDec.fillUeSliceAssoc
    (fun assoc => (SliceEnc.fillUeSliceAssoc assoc).dropRooms) fun _ => True := by
  refine (Finds.u32.field UeSliceAssoc.dlId fun dlId =>
    Finds.u32.field UeSliceAssoc.ulId fun ulId =>
    Finds.u16.last UeSliceAssoc.rnti (fun assoc => ?_) fun _ => rfl).congr
      (fun _ => Iff.rfl) fun assoc _ => ?_
  · simp only [UeSliceAssoc.ext_iff]
    tauto
  · simp [SliceEnc.fillUeSliceAssoc]

theorem finds_ueSliceConf :
    Finds SliceDec.fillUeSliceConf (fun slc => (SliceEnc.fillUeSliceConf slc).dropRooms)
      fun _ => True := by
  refine ((finds_ueSliceAssoc).arrayOf.last UeSliceConf.ues (fun slc => ?_) fun _ => rfl).congr
    (fun _ => Iff.rfl) fun slc _ => ?_
  · exact iff_of_true trivial ⟨trivial, rfl⟩
  · simp [SliceEnc.fillUeSliceConf]

theorem finds_indMsg :
    Finds SliceDec.indMsg (fun ind => (SliceEnc.indMsg ind).dropRooms) SliceIndMsg.Fits := by
  refine ((finds_sliceConf).bind SliceIndMsg.sliceConf (fun _ => id) fun sliceConf hconf =>
    (finds_ueSliceConf).field SliceIndMsg.ueSliceConf fun ueSliceConf =>
    Finds.u64.last SliceIndMsg.tstamp (fun ind => ?_) fun _ => rfl).congr
      (fun _ => Iff.rfl) fun ind _ => ?_
  · simp only [SliceIndMsg.ext_iff]
    constructor
    · tauto
    · rintro ⟨-, rfl, rfl, -⟩
      exact ⟨rfl, rfl, hconf⟩
  · simp [SliceEnc.indMsg]

theorem finds_delSlice :
    Finds SliceDec.fillDelSlice SliceEnc.fillDelSliceConf fun _ => True := by
  refine Finds.u32.arrayOf.field DelSliceConf.dl fun dl =>
    Finds.u32.arrayOf.last DelSliceConf.ul (fun del => ?_) fun _ => rfl
  simp [DelSliceConf.ext_iff]

theorem finds_ctrlMsg :
    Finds SliceDec.ctrlMsg (fun ctrl => (SliceEnc.fillSliceCtrlMsg ctrl).dropRooms)
      SliceCtrlMsg.Fits := by
  refine .tagged SliceCtrlMsg.type (fun _ => u32Wire_prefix_dropRooms _ _) fun type => ?_
  split_ifs with hadd hdel hue
  · refine (finds_sliceConf).map (fun ctrl => ?_) fun conf _ => ?_
    · cases ctrl <;> grind [SliceCtrlMsg.type, SliceCtrlMsg.Fits]
    · rfl
  · refine (finds_delSlice).case (fun ctrl => ?_) fun conf => ?_
    · cases ctrl <;> grind [SliceCtrlMsg.type, SliceCtrlMsg.Fits]
    · simp [SliceEnc.fillSliceCtrlMsg, SliceEnc.fillDelSliceConf]
      rfl
  · refine (finds_ueSliceConf).case (fun ctrl => ?_) fun conf => ?_
    · cases ctrl <;> grind [SliceCtrlMsg.type, SliceCtrlMsg.Fits]
    · rfl
  · refine .unknown (fun ctrl hctrl => ?_) ⟨.other type ⟨hadd, hdel, hue⟩, rfl, trivial⟩
    cases ctrl with
    | addModSlice conf => exact absurd hctrl.1.symm hadd
    | delSlice conf => exact absurd hctrl.1.symm hdel
    | ueSlice conf => exact absurd hctrl.1.symm hue
    | other type htype => rfl

/-! ## Round trips -/

/-- An indication message comes back exactly if the decoder has memory for its strings. -/
theorem sliceIndMsg_roundTrips_iff {ind : SliceIndMsg} (h : ind.Known) :
    RoundTrips calIndMsgPayload sliceEncIndMsgPlain sliceDecIndMsgPlain ind ↔ ind.Fits := by
  refine ⟨(finds_indMsg).of_round_trip, fun hfits => ?_⟩
  obtain ⟨n, hcal, hsized⟩ := sized_indMsg h
  refine ⟨(SliceEnc.indMsg ind).octets, ?_, by rw [hcal, hsized.length], ?_⟩
  · rw [sliceEncIndMsgPlain, hcal]
    exact hsized.write (goesOn_indMsg ind)
  · have hdec := (finds_indMsg).round_trip hfits hsized.known.dropRooms (goesOn_dropRooms _)
    rw [octets_dropRooms] at hdec
    rw [sliceDecIndMsgPlain, hdec]

/-- A control message comes back exactly if the decoder has memory for its strings. -/
theorem sliceCtrlMsg_roundTrips_iff {ctrl : SliceCtrlMsg} (h : ctrl.Known) :
    RoundTrips calCtrlMsgPayload sliceEncCtrlMsgPlain sliceDecCtrlMsgPlain ctrl ↔ ctrl.Fits := by
  refine ⟨(finds_ctrlMsg).of_round_trip, fun hfits => ?_⟩
  obtain ⟨n, hcal, hsized⟩ := sized_ctrlMsg h
  refine ⟨(SliceEnc.fillSliceCtrlMsg ctrl).octets, ?_, by rw [hcal, hsized.length], ?_⟩
  · rw [sliceEncCtrlMsgPlain, hcal]
    exact hsized.write (goesOn_ctrlMsg ctrl)
  · have hdec := (finds_ctrlMsg).round_trip hfits hsized.known.dropRooms (goesOn_dropRooms _)
    rw [octets_dropRooms] at hdec
    rw [sliceDecCtrlMsgPlain, hdec]

end NrStack
