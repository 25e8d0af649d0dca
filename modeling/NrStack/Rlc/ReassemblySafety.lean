import NrStack.Rlc.AmRxRun
import NrStack.Rlc.UmRxInvariant

/-!
# Memory safety of reassembly

The copy loop of `reassemble_and_deliver` goes through all the segments of an SDU, while
`sdu_full` stops at the first one that is flagged as the last. Nothing checks the segments
behind that one : a copy reads before the data of its segment if there is a gap, and the
SDU is longer than the last segment says if one of them ends later. `ConsistentSegments`
excludes exactly that.
-/

namespace NrStack

/-- The bytes that are read belong to the segment. -/
def SduCopy.Inside (c : SduCopy) : Prop :=
  0 ≤ c.src ∧ c.src + c.len ≤ c.data.length

instance (c : SduCopy) : Decidable c.Inside :=
  inferInstanceAs (Decidable (_ ∧ _))

/-- The bytes that are written belong to the buffer. -/
def SduCopy.Fits (c : SduCopy) : Prop :=
  0 ≤ c.dst ∧ c.dst + c.len ≤ nrSduMax

/-- Reassembly of `segments` stays inside its buffers, and what it delivers ends where the
first segment flagged as the last does. -/
structure ReassemblySafe (segments : List NrRlcPdu) : Prop where
  inside : ∀ c ∈ (reassemble segments).copies, c.Inside
  fits : ∀ c ∈ (reassemble segments).copies, c.Fits
  so_eq : (reassemble segments).badSdu = false → ∀ p, segments.find? (·.isLast) = some p →
    (reassemble segments).so = p.so + p.size

/-- The segment ends inside the buffer of the SDU. -/
def NrRlcPdu.fits (pdu : NrRlcPdu) : Bool :=
  decide (pdu.so + pdu.size ≤ nrSduMax)

/-- No segment ends after the first one flagged as the last. -/
def EndsAtLast (segments : List NrRlcPdu) : Prop :=
  ∀ p ∈ segments.find? (·.isLast), ∀ q ∈ segments, q.so + q.size ≤ p.so + p.size

instance (segments : List NrRlcPdu) : Decidable (EndsAtLast segments) :=
  decidable_of_iff (∀ p ∈ (segments.find? NrRlcPdu.isLast).toList,
    ∀ q ∈ segments, q.so + q.size ≤ p.so + p.size)
    (forall_congr' fun _ => imp_congr_left Option.mem_toList)

/-- The segments agree on where the SDU ends. If one of them is too big the SDU is not
delivered, and those before it have no gap. -/
def ConsistentSegments (segments : List NrRlcPdu) : Prop :=
  if segments.all NrRlcPdu.fits then EndsAtLast segments
  else ¬sduMissingFrom (segments.takeWhile NrRlcPdu.fits) (-1)

instance (segments : List NrRlcPdu) : Decidable (ConsistentSegments segments) :=
  inferInstanceAs (Decidable (if segments.all NrRlcPdu.fits then EndsAtLast segments
    else ¬sduMissingFrom (segments.takeWhile NrRlcPdu.fits) (-1)))

variable {g : List NrRlcPdu} {p : NrRlcPdu} {r : Reassembly}

/-! ## The copy loop -/

/-- What the copy loop expects of a segment. -/
structure SegmentData (p : NrRlcPdu) : Prop where
  so_nonneg : 0 ≤ p.so
  size_pos : 0 < p.size
  data_length : (p.data.getD []).length = p.size

/-- A segment that fits moves the end of the SDU, and its copy is inside its data exactly
if it leaves no gap. -/
theorem copySegment_of_fits (hr : r.badSdu = false) (hp : SegmentData p) (hfits : p.fits) :
    (r.copySegment p).badSdu = false ∧ (r.copySegment p).so = max r.so (p.so + p.size) ∧
      ((∀ c ∈ (r.copySegment p).copies, c.Inside) ↔
        (∀ c ∈ r.copies, c.Inside) ∧ ¬p.so > r.so) := by
  have hend : r.so + (p.size - (r.so - p.so)) = p.so + p.size := by ring
  have hsize := hp.size_pos
  have hlen := hp.data_length
  have hle : p.so + p.size ≤ nrSduMax := by simpa [NrRlcPdu.fits] using hfits
  have hbad : (r.badSdu || decide (r.so + (p.size - (r.so - p.so)) > nrSduMax)) = false := by
    rw [hr, hend]
    simpa using hle
  unfold Reassembly.copySegment
  simp only [hbad]
  by_cases hpos : p.size - (r.so - p.so) > 0
  · rw [if_pos ⟨by simp, hpos⟩]
    refine ⟨rfl, by simp only; omega, ?_⟩
    rw [List.forall_mem_append, List.forall_mem_singleton]
    refine and_congr_right fun _ => ?_
    show 0 ≤ r.so - p.so ∧ r.so - p.so + (p.size - (r.so - p.so)) ≤ (p.data.getD []).length ↔ _
    omega
  · rw [if_neg fun h => hpos h.2]
    refine ⟨rfl, by simp only; omega, ?_⟩
    simp only [iff_self_and]
    omega

/-- The whole loop over segments that fit. -/
theorem reassemble_of_fits : ∀ {g : List NrRlcPdu} {r : Reassembly}, r.badSdu = false →
    (∀ p ∈ g, SegmentData p) → (∀ p ∈ g, p.fits) →
      (g.foldl Reassembly.copySegment r).badSdu = false ∧
      r.so ≤ (g.foldl Reassembly.copySegment r).so ∧
      (∀ p ∈ g, p.so + p.size ≤ (g.foldl Reassembly.copySegment r).so) ∧
      ((g.foldl Reassembly.copySegment r).so = r.so ∨
        ∃ p ∈ g, (g.foldl Reassembly.copySegment r).so = p.so + p.size) ∧
      ((∀ c ∈ (g.foldl Reassembly.copySegment r).copies, c.Inside) ↔
        (∀ c ∈ r.copies, c.Inside) ∧ ¬sduMissingFrom g (r.so - 1))
  | [], r, hr, _, _ => by simp [hr, sduMissingFrom]
  | p :: g, r, hr, hdata, hfits => by
    obtain ⟨hbad, hso, hin⟩ := copySegment_of_fits hr (hdata p (by simp)) (hfits p (by simp))
    obtain ⟨hbad', hle', hends', hattained', hin'⟩ := reassemble_of_fits hbad
      (fun q hq => hdata q (List.mem_cons_of_mem _ hq))
      fun q hq => hfits q (List.mem_cons_of_mem _ hq)
    have hmax : max r.so (p.so + p.size) - 1 = max (r.so - 1) (p.so + p.size - 1) :=
      (max_sub_sub_right _ _ 1).symm
    rw [List.foldl_cons]
    rw [hso] at hle' hattained' hin'
    refine ⟨hbad', by omega, ?_, ?_, ?_⟩
    · rintro q hq
      rcases List.mem_cons.1 hq with rfl | hq
      · omega
      · exact hends' q hq
    · rcases hattained' with heq | ⟨q, hq, heq⟩
      · rcases max_choice r.so (p.so + p.size) with hmax | hmax
        · exact .inl (heq.trans hmax)
        · exact .inr ⟨p, by simp, heq.trans hmax⟩
      · exact .inr ⟨q, by simp [hq], heq⟩
    · rw [hin', hin, sduMissingFrom]
      rw [hmax, sub_add_cancel]
      split_ifs with hgap
      · simp [hgap]
      · simp [hgap]

/-- After a segment that is too big nothing is copied. -/
theorem foldl_copySegment_of_bad : ∀ {g : List NrRlcPdu} {r : Reassembly}, r.badSdu = true →
    (g.foldl Reassembly.copySegment r).badSdu = true ∧
      (g.foldl Reassembly.copySegment r).copies = r.copies
  | [], _, hr => ⟨hr, rfl⟩
  | p :: g, r, hr => by
    have hstep : (r.copySegment p).badSdu = true ∧ (r.copySegment p).copies = r.copies := by
      simp [Reassembly.copySegment, hr]
    obtain ⟨hbad, hcopies⟩ := foldl_copySegment_of_bad (g := g) hstep.1
    exact ⟨hbad, hcopies.trans hstep.2⟩

theorem copySegment_of_not_fits (hfits : ¬p.fits) :
    (r.copySegment p).badSdu = true ∧ (r.copySegment p).copies = r.copies := by
  have hend : r.so + (p.size - (r.so - p.so)) = p.so + p.size := by ring
  have hgt : p.so + p.size > nrSduMax := by simpa [NrRlcPdu.fits] using hfits
  simp [Reassembly.copySegment, hend, hgt]

/-- The loop with a segment that is too big copies what is before it. -/
theorem reassemble_of_not_fits (hbig : ¬g.all NrRlcPdu.fits) :
    (reassemble g).badSdu = true ∧
      (reassemble g).copies = (reassemble (g.takeWhile NrRlcPdu.fits)).copies := by
  obtain ⟨p, rest, hdrop⟩ : ∃ p rest, g.dropWhile NrRlcPdu.fits = p :: rest := by
    refine List.exists_cons_of_ne_nil fun h => hbig ?_
    rw [List.all_eq_true]
    exact List.dropWhile_eq_nil_iff.1 h
  have hp : ¬p.fits := by
    have := List.head?_dropWhile_not NrRlcPdu.fits g
    rw [hdrop] at this
    simpa using this
  have hsplit : reassemble g = rest.foldl Reassembly.copySegment
      ((reassemble (g.takeWhile NrRlcPdu.fits)).copySegment p) := by
    rw [reassemble, reassemble, ← List.foldl_cons, ← hdrop, ← List.foldl_append,
      List.takeWhile_append_dropWhile]
  obtain ⟨hbad, hcopies⟩ := copySegment_of_not_fits (r := reassemble _) hp
  obtain ⟨hbad', hcopies'⟩ := foldl_copySegment_of_bad (g := rest) hbad
  rw [hsplit]
  exact ⟨hbad', hcopies'.trans hcopies⟩

/-- Writing is bounded in any case. -/
theorem fits_foldl_copySegment : ∀ {g : List NrRlcPdu} {r : Reassembly}, 0 ≤ r.so →
    (∀ c ∈ r.copies, c.Fits) → ∀ c ∈ (g.foldl Reassembly.copySegment r).copies, c.Fits
  | [], _, _, h => h
  | p :: g, r, hso, h => by
    rw [List.foldl_cons]
    refine fits_foldl_copySegment ?_ ?_
    · unfold Reassembly.copySegment
      simp only
      split_ifs with hc
      · simp only
        omega
      · exact hso
    · unfold Reassembly.copySegment
      simp only
      split_ifs with hc
      · simp only [List.mem_append, List.mem_singleton, or_imp, forall_and, forall_eq]
        refine ⟨h, hso, ?_⟩
        have := hc.1
        simp only [Bool.or_eq_true, decide_eq_true_eq, not_or] at this
        simp only
        omega
      · exact h

/-! ## Full SDUs -/

theorem not_sduMissingFrom_of_le : ∀ {g : List NrRlcPdu} {last : Int},
    (∀ q ∈ g, q.so ≤ last + 1) → ¬sduMissingFrom g last
  | [], _, _ => by simp [sduMissingFrom]
  | p :: g, last, h => by
    rw [sduMissingFrom, if_neg (not_lt.2 (h p (by simp)))]
    refine not_sduMissingFrom_of_le fun q hq => (h q (List.mem_cons_of_mem _ hq)).trans ?_
    omega

/-- The segments of a full SDU leave no gap if none ends after the last one. -/
theorem not_sduMissingFrom_of_full {f : NrRlcPdu} : ∀ {g : List NrRlcPdu} {last : Int},
    sduFullFrom g last → g.find? (·.isLast) = some f → (∀ q ∈ g, SegmentData q) →
      (∀ q ∈ g, q.so + q.size ≤ f.so + f.size) → ¬sduMissingFrom g last
  | [], _, _, hf, _, _ => by simp at hf
  | p :: g, last, hfull, hf, hdata, hends => by
    rw [sduFullFrom] at hfull
    split_ifs at hfull with hgap hlast
    · rw [List.find?_cons_of_pos hlast] at hf
      obtain rfl := Option.some.inj hf
      rw [sduMissingFrom, if_neg hgap]
      refine not_sduMissingFrom_of_le fun q hq => ?_
      have hend := hends q (List.mem_cons_of_mem _ hq)
      have hpos := (hdata q (List.mem_cons_of_mem _ hq)).size_pos
      omega
    · rw [List.find?_cons_of_neg hlast] at hf
      rw [sduMissingFrom, if_neg hgap]
      exact not_sduMissingFrom_of_full hfull hf (fun q hq => hdata q (List.mem_cons_of_mem _ hq))
        fun q hq => hends q (List.mem_cons_of_mem _ hq)

theorem exists_find_isLast : ∀ {g : List NrRlcPdu} {last : Int}, sduFullFrom g last →
    ∃ f, g.find? (·.isLast) = some f
  | [], _, h => by simp [sduFullFrom] at h
  | p :: g, last, h => by
    by_cases hp : p.isLast
    · exact ⟨p, List.find?_cons_of_pos hp⟩
    · rw [sduFullFrom] at h
      rw [List.find?_cons_of_neg hp]
      split_ifs at h
      exact exists_find_isLast h

/-- Reassembly of a full SDU is safe exactly if its segments are consistent. -/
theorem reassemblySafe_iff_consistentSegments (hfull : sduFullFrom g (-1))
    (hdata : ∀ q ∈ g, SegmentData q) : ReassemblySafe g ↔ ConsistentSegments g := by
  obtain ⟨f, hf⟩ := exists_find_isLast hfull
  have hfits := fits_foldl_copySegment (g := g) (r := ⟨0, false, []⟩) le_rfl (by simp)
  unfold ConsistentSegments
  split_ifs with hall
  · rw [List.all_eq_true] at hall
    obtain ⟨hbad, -, hends, hattained, hin⟩ := reassemble_of_fits (r := ⟨0, false, []⟩) rfl hdata
      hall
    constructor
    · intro hsafe p hp q hq
      rw [← hsafe.so_eq hbad p hp]
      exact hends q hq
    · intro hle
      have hfmem := List.mem_of_find?_eq_some hf
      have hso : (reassemble g).so = f.so + f.size := by
        have hfend := hends f hfmem
        have := (hdata f hfmem).so_nonneg
        have := (hdata f hfmem).size_pos
        show (g.foldl Reassembly.copySegment ⟨0, false, []⟩).so = _
        rcases hattained with h0 | ⟨q, hq, heq⟩
        · rw [h0] at hfend
          simp only at hfend
          omega
        · have := hle f hf q hq
          omega
      refine ⟨hin.2 ⟨by simp, not_sduMissingFrom_of_full hfull hf hdata (hle f hf)⟩, hfits,
        fun _ p hp => ?_⟩
      obtain rfl := Option.some.inj (hf.symm.trans hp)
      exact hso
  · obtain ⟨hbad, hcopies⟩ := reassemble_of_not_fits hall
    have htake := List.takeWhile_sublist NrRlcPdu.fits (l := g)
    obtain ⟨-, -, -, -, hin⟩ := reassemble_of_fits (g := g.takeWhile NrRlcPdu.fits)
      (r := ⟨0, false, []⟩) rfl (fun q hq => hdata q (htake.subset hq))
      fun q hq => List.mem_takeWhile_imp hq
    have hin' : (∀ c ∈ (reassemble g).copies, c.Inside) ↔
        ¬sduMissingFrom (g.takeWhile NrRlcPdu.fits) (-1) := by
      rw [hcopies]
      exact hin.trans (and_iff_right (by simp))
    exact ⟨fun hsafe => hin'.1 hsafe.inside,
      fun hmissing => ⟨hin'.2 hmissing, hfits, fun h => by simp [hbad] at h⟩⟩

/-! ## The lists that are reassembled -/

namespace NrRlcEntityUm

variable {e : NrRlcEntityUm}

/-- The segment in a PDU, if it is not a whole SDU and can be decoded. -/
def receivedPdu (e : NrRlcEntityUm) (buffer : List UInt8) : Option NrRlcPdu := do
  let (si, d) ← (NrRlcPduDecoder.init buffer).getBits 2
  if !si.testBit 1 && !si.testBit 0 then none
  else e.decodeSegment (!si.testBit 1) (!si.testBit 0) d

/-- Reception of a segment that is accepted. -/
theorem recvPdu_eq_of_accepts {buffer : List UInt8} {pdu : NrRlcPdu}
    (hpdu : e.receivedPdu buffer = some pdu) (ha : e.acceptsPdu pdu) :
    e.recvPdu buffer = (e.storePdu pdu).receptionActions pdu.sn := by
  obtain ⟨⟨si, d⟩, hsi, h⟩ := Option.bind_eq_some_iff.1 hpdu
  simp only at h
  split_ifs at h with hwhole
  simp only [recvPdu, hsi, hwhole, if_false, h, recvSegment, if_pos ha, Bool.false_eq_true]

theorem rxAccepted_receivedPdu (h : e.RxInv) {buffer : List UInt8} {pdu : NrRlcPdu}
    (hpdu : e.receivedPdu buffer = some pdu) : e.RxAccepted pdu := by
  obtain ⟨⟨si, d⟩, hsi, hdec⟩ := Option.bind_eq_some_iff.1 hpdu
  simp only at hdec
  split_ifs at hdec with hwhole
  obtain ⟨-, -, hd⟩ := NrRlcPduDecoder.getBits_eq_some (NrRlcPduDecoder.reads_init buffer) hsi
  exact rxAccepted_decodeSegment h.core.space.modulus_eq hd hwhole hdec

end NrRlcEntityUm

/-- The segments that `reassemble_and_deliver` runs on : those of an SDU that is full with
the segment just stored, in an entity that has received anything before. -/
inductive Reassembled : List NrRlcPdu → Prop
  | am {c : AmConfig} {e : NrRlcEntityAm} (buffer : List UInt8) (pdu : NrRlcPdu) : AmReach c e →
      e.receivedPdu buffer = some pdu → e.acceptsDataPdu pdu →
      sduFull ((e.storePdu pdu).updateRxNextHighest pdu.sn).rxList pdu.sn →
      Reassembled (segmentsOf ((e.storePdu pdu).updateRxNextHighest pdu.sn).rxList pdu.sn)
  | um {c : UmConfig} {e : NrRlcEntityUm} (buffer : List UInt8) (pdu : NrRlcPdu) : UmReach c e →
      e.receivedPdu buffer = some pdu → e.acceptsPdu pdu →
      sduFull (e.storePdu pdu).rxList pdu.sn →
      Reassembled (segmentsOf (e.storePdu pdu).rxList pdu.sn)

/-- In a well formed list a full SDU holds all its data. -/
theorem RxList.segmentData {M base sn : Int} {l : List NrRlcPdu} (h : RxList M base l)
    (hfull : sduFull l sn) :
    sduFullFrom (segmentsOf l sn) (-1) ∧ ∀ q ∈ segmentsOf l sn, SegmentData q := by
  obtain ⟨p, rest, hg, -, hfrom⟩ := sduFull_iff.1 hfull
  refine ⟨hg ▸ hfrom, fun q hq => ?_⟩
  obtain ⟨hq, hsn⟩ := h.mem_segmentsOf.1 hq
  have hsegment := h.segment q hq
  obtain ⟨data, hdata⟩ := Option.isSome_iff_exists.1
    (h.data_isSome (fun hd => not_sduFull_of_sduDelivered hd hfull) hq hsn)
  obtain ⟨hsize, hpos⟩ := hsegment.data_length data hdata
  exact ⟨hsegment.so_nonneg, hpos, by rw [hdata, Option.getD_some, hsize]⟩

/-- Reassembly, in AM and in UM, is safe exactly on the consistent lists. -/
theorem reassemblySafe_iff (h : Reassembled g) : ReassemblySafe g ↔ ConsistentSegments g := by
  cases h with
  | am buffer pdu hreach hpdu ha hfull =>
    have hinv := NrRlcEntityAm.rxInv_of_reach hreach
    have hp := NrRlcEntityAm.rxAccepted_of_accepts hinv
      (NrRlcEntityAm.rxSegment_receivedPdu hinv.core.space.modulus_eq hpdu) ha
    obtain ⟨hfrom, hdata⟩ := (NrRlcEntityAm.rxCore_store hinv.core hp).1.list.segmentData hfull
    exact reassemblySafe_iff_consistentSegments hfrom hdata
  | um buffer pdu hreach hpdu ha hfull =>
    have hinv := NrRlcEntityUm.rxInv_of_reach hreach
    have hp := NrRlcEntityUm.rxAccepted_receivedPdu hinv hpdu
    obtain ⟨hfrom, hdata⟩ := (NrRlcEntityUm.rxCore_store hinv.core hp).1.list.segmentData hfull
    exact reassemblySafe_iff_consistentSegments hfrom hdata

/-- Two segments of one byte, the second one flagged as the last. -/
theorem reassemblySafe_two_segments :
    ReassemblySafe [nrRlcNewPdu 0 0 true false [7] 1, nrRlcNewPdu 0 1 false true [9] 1] := by
  let c : AmConfig := ⟨100, 100, 45, 35, 0, -1, -1, 8, 12, .inl rfl⟩
  let e := (newNrRlcEntityAm c).recvPdu [0x90, 0, 7]
  let pdu := nrRlcNewPdu 0 1 false true [9] 1
  have hsegments : segmentsOf ((e.storePdu pdu).updateRxNextHighest pdu.sn).rxList pdu.sn =
      [nrRlcNewPdu 0 0 true false [7] 1, pdu] := by decide
  have hreassembled : Reassembled
      (segmentsOf ((e.storePdu pdu).updateRxNextHighest pdu.sn).rxList pdu.sn) := by
    refine .am (c := c) [0xa0, 0, 0, 1, 9] pdu ?_ ?_ ?_ ?_
    · exact .next (a := .recvPdu [0x90, 0, 7]) .refl trivial rfl
    · decide
    · decide
    · decide
  rw [hsegments] at hreassembled
  exact (reassemblySafe_iff hreassembled).2 (by decide)

/-- A last segment that begins at byte 2, then a whole SDU of one byte : the copy of the
segment behind begins one byte before its data. -/
theorem reassembled_not_safe : ¬∀ g, Reassembled g → ReassemblySafe g := by
  intro h
  let c : AmConfig := ⟨100, 100, 45, 35, 0, -1, -1, 8, 12, .inl rfl⟩
  let e := (newNrRlcEntityAm c).recvPdu [0xa0, 0, 0, 2, 9]
  let pdu := nrRlcNewPdu 0 0 true true [7] 1
  have hreassembled : Reassembled
      (segmentsOf ((e.storePdu pdu).updateRxNextHighest pdu.sn).rxList pdu.sn) := by
    refine .am (c := c) [0x80, 0, 7] pdu ?_ ?_ ?_ ?_
    · exact .next (a := .recvPdu [0xa0, 0, 0, 2, 9]) .refl trivial rfl
    · decide
    · decide
    · decide
  exact absurd (h _ hreassembled).inside (by decide)

end NrStack
