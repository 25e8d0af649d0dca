import NrStack.Rlc.ReassemblySafety

/-!
# What reassembly delivers

Segments that are slices of one SDU reassemble to it, in whatever way they overlap : the
copy loop always has a front of the SDU.
-/

namespace NrStack

variable {data : List UInt8} {g : List NrRlcPdu} {p : NrRlcPdu} {r : Reassembly}

/-- A segment that is a slice of the SDU `data`. -/
structure SliceOf (data : List UInt8) (p : NrRlcPdu) : Prop where
  so_nonneg : 0 ≤ p.so
  size_pos : 0 < p.size
  end_le : p.so + p.size ≤ data.length
  data_eq : p.data = some ((data.drop p.so.toNat).take p.size.toNat)

theorem SliceOf.segmentData (h : SliceOf data p) : SegmentData p := by
  refine ⟨h.so_nonneg, h.size_pos, ?_⟩
  have := h.so_nonneg
  have := h.size_pos
  have := h.end_le
  rw [h.data_eq, Option.getD_some, List.length_take, List.length_drop]
  omega

/-- The copy loop has copied the first `so` bytes of `data`. -/
structure CopiedFront (data : List UInt8) (r : Reassembly) : Prop where
  so_nonneg : 0 ≤ r.so
  so_le : r.so ≤ data.length
  not_bad : r.badSdu = false
  bytes_eq : r.copies.flatMap SduCopy.bytes = (data.take r.so.toNat).map some

theorem SduCopy.bytes_eq (c : SduCopy) : c.bytes = (List.range c.len.toNat).map fun i : Nat =>
    if 0 ≤ c.src + i then c.data[(c.src + i).toNat]? else none := by
  simp [SduCopy.bytes, ← List.map_eq_flatMap]

/-- The bytes of a copy out of a slice. -/
theorem SliceOf.bytes_copy (h : SliceOf data p) {so : Int} (hgap : p.so ≤ so)
    (hend : so < p.so + p.size) :
    SduCopy.bytes ⟨so, p.data.getD [], so - p.so, p.size - (so - p.so)⟩ =
      ((data.drop so.toNat).take (p.size - (so - p.so)).toNat).map some := by
  have hnn := h.so_nonneg
  have hle := h.end_le
  rw [SduCopy.bytes_eq, h.data_eq, Option.getD_some]
  refine List.ext_getElem ?_ fun i h₁ h₂ => ?_
  · simp only [List.length_map, List.length_range, List.length_take, List.length_drop]
    omega
  · simp only [List.length_map, List.length_range] at h₁
    have hsrc : 0 ≤ so - p.so + (i : Int) := by omega
    have hidx : p.so.toNat + (so - p.so + (i : Int)).toNat = so.toNat + i := by omega
    have hlt : (so - p.so + (i : Int)).toNat < p.size.toNat := by omega
    have hdata : so.toNat + i < data.length := by omega
    simp only [List.getElem_map, List.getElem_range, List.getElem_take, List.getElem_drop]
    rw [if_pos hsrc, List.getElem?_take_of_lt hlt, List.getElem?_drop, hidx,
      List.getElem?_eq_getElem hdata]

theorem CopiedFront.copySegment (h : CopiedFront data r) (hdata : (data.length : Int) ≤ nrSduMax)
    (hp : SliceOf data p) (hgap : ¬p.so > r.so) : CopiedFront data (r.copySegment p) ∧
      (r.copySegment p).so = max r.so (p.so + p.size) := by
  have hend : r.so + (p.size - (r.so - p.so)) = p.so + p.size := by ring
  have hle := hp.end_le
  have hnn := h.so_nonneg
  have hbad : (r.badSdu || decide (r.so + (p.size - (r.so - p.so)) > nrSduMax)) = false := by
    rw [h.not_bad, hend]
    simp only [Bool.false_or, decide_eq_false_iff_not]
    omega
  unfold Reassembly.copySegment
  simp only [hbad]
  by_cases hpos : p.size - (r.so - p.so) > 0
  · rw [if_pos ⟨by simp, hpos⟩]
    have hmax : max r.so (p.so + p.size) = p.so + p.size := by omega
    refine ⟨⟨?_, ?_, rfl, ?_⟩, by simp only; omega⟩
    · simp only
      omega
    · simp only
      omega
    · have hbytes := hp.bytes_copy (not_lt.1 hgap) (by omega)
      have hso : (r.so + (p.size - (r.so - p.so))).toNat =
          r.so.toNat + (p.size - (r.so - p.so)).toNat := by omega
      simp only [List.flatMap_append, List.flatMap_cons, List.flatMap_nil, List.append_nil]
      rw [h.bytes_eq, hbytes, hso, List.take_add, List.map_append]
  · rw [if_neg fun h => hpos h.2]
    exact ⟨⟨hnn, h.so_le, rfl, h.bytes_eq⟩, by simp only; omega⟩

/-- The whole loop over slices without a gap. -/
theorem CopiedFront.foldl (hdata : (data.length : Int) ≤ nrSduMax) :
    ∀ {g : List NrRlcPdu} {r : Reassembly}, CopiedFront data r → (∀ p ∈ g, SliceOf data p) →
      ¬sduMissingFrom g (r.so - 1) → CopiedFront data (g.foldl Reassembly.copySegment r) ∧
        r.so ≤ (g.foldl Reassembly.copySegment r).so ∧
          ∀ p ∈ g, p.so + p.size ≤ (g.foldl Reassembly.copySegment r).so
  | [], r, h, _, _ => ⟨h, le_rfl, by simp⟩
  | p :: g, r, h, hg, hmissing => by
    rw [sduMissingFrom, sub_add_cancel] at hmissing
    split_ifs at hmissing with hgap
    · exact absurd rfl hmissing
    obtain ⟨h₁, hso⟩ := h.copySegment hdata (hg p (by simp)) hgap
    have hmax : max (r.so - 1) (p.so + p.size - 1) = (r.copySegment p).so - 1 := by
      rw [hso]
      exact max_sub_sub_right _ _ 1
    rw [hmax] at hmissing
    obtain ⟨h₂, hle, hends⟩ := CopiedFront.foldl hdata h₁
      (fun q hq => hg q (List.mem_cons_of_mem _ hq)) hmissing
    rw [List.foldl_cons]
    refine ⟨h₂, by omega, fun q hq => ?_⟩
    rcases List.mem_cons.1 hq with rfl | hq
    · omega
    · exact hends q hq

/-- A full SDU of slices that agree on the last byte is delivered as it is. -/
theorem delivered_reassemble (hdata : (data.length : Int) ≤ nrSduMax)
    (hfull : sduFullFrom g (-1)) (hslice : ∀ p ∈ g, SliceOf data p)
    (hlast : ∀ p ∈ g, p.isLast → p.so + p.size = data.length) :
    (reassemble g).delivered = [.deliverSdu (data.map some)] := by
  obtain ⟨f, hf⟩ := exists_find_isLast hfull
  have hfmem := List.mem_of_find?_eq_some hf
  have hfend := hlast f hfmem (List.find?_some hf)
  have hmissing : ¬sduMissingFrom g (-1) :=
    not_sduMissingFrom_of_full hfull hf (fun q hq => (hslice q hq).segmentData)
      fun q hq => hfend ▸ (hslice q hq).end_le
  have hinit : CopiedFront data ⟨0, false, []⟩ := ⟨le_rfl, by simp, rfl, by simp⟩
  obtain ⟨h, -, hends⟩ := hinit.foldl hdata hslice hmissing
  have hso : (reassemble g).so = data.length := by
    have hle : (reassemble g).so ≤ data.length := h.so_le
    have hge : f.so + f.size ≤ (reassemble g).so := hends f hfmem
    omega
  have hbytes : (reassemble g).copies.flatMap SduCopy.bytes =
      (data.take (reassemble g).so.toNat).map some := h.bytes_eq
  have hbad : (reassemble g).badSdu = false := h.not_bad
  rw [Reassembly.delivered, hbad, hbytes, hso]
  simp

end NrStack
