import NrStack.Library.Group
import NrStack.Library.Serial
import NrStack.Rlc.Reassembly

/-!
# The reception list

`RxList M base l` : what is true of the reception list of AM and of UM at any time. It is
sorted by the distance of the SN from a base, then by `so`, so that the segments of one
SDU are together, and the loops that look for them see exactly `l.filter (·.sn = sn)`.
An SDU that has been processed starts with a segment without data, one that has not has
data in all of its segments.

Insertion, reassembly and the moves of the base keep `RxList`, and each comes with what
it does to the segments of any one SN.
-/

namespace NrStack

variable {M base sn : Int} {l g : List NrRlcPdu} {pdu : NrRlcPdu}

/-! ## Well formed lists -/

/-- The order of the list. -/
def RxOrder (M base : Int) (a b : NrRlcPdu) : Prop :=
  dist M base a.sn < dist M base b.sn ∨ (a.sn = b.sn ∧ a.so ≤ b.so)

theorem RxOrder.trans {a b c : NrRlcPdu} (h : RxOrder M base a b) (h' : RxOrder M base b c) :
    RxOrder M base a c := by
  unfold RxOrder at *
  rcases h with h | ⟨hs, ho⟩ <;> rcases h' with h' | ⟨hs', ho'⟩
  · exact .inl (h.trans h')
  · exact .inl (hs' ▸ h)
  · exact .inl (hs ▸ h')
  · exact .inr ⟨hs.trans hs', ho.trans ho'⟩

theorem RxOrder.dist_le {a b : NrRlcPdu} (h : RxOrder M base a b) :
    dist M base a.sn ≤ dist M base b.sn := by
  rcases h with h | ⟨h, -⟩
  · exact h.le
  · rw [h]

/-- A stored segment. -/
structure RxSegment (M : Int) (pdu : NrRlcPdu) : Prop where
  sn_range : IsSn M pdu.sn
  so_nonneg : 0 ≤ pdu.so
  size_nonneg : 0 ≤ pdu.size
  data_length : ∀ data, pdu.data = some data → pdu.size = data.length ∧ 0 < pdu.size

/-- The segments of one SDU : processed, or not at all. -/
def SegmentsOk : List NrRlcPdu → Prop
  | [] => True
  | p :: rest => (p.data = none ∧ p.so = 0) ∨ ∀ q ∈ p :: rest, q.data.isSome

/-- A well formed reception list. -/
structure RxList (M base : Int) (l : List NrRlcPdu) : Prop where
  sorted : l.Pairwise (RxOrder M base)
  segment : ∀ p ∈ l, RxSegment M p
  segments_ok : ∀ sn, SegmentsOk (segmentsOf l sn)

/-! ## Segments of an SN -/

theorem segmentsOf_eq_group (l : List NrRlcPdu) (sn : Int) :
    segmentsOf l sn = group (fun p => p.sn = sn) l := by
  simp [segmentsOf, group]

theorem sn_eq_iff_dist (hl : ∀ p ∈ l, RxSegment M p) (hsn : 0 ≤ sn ∧ sn < M) :
    ∀ p ∈ l, decide (p.sn = sn) = true ↔ dist M base p.sn = dist M base sn := by
  intro p hp
  rw [decide_eq_true_iff]
  exact ⟨fun h => by rw [h], dist_inj (hl p hp).sn_range hsn⟩

theorem segmentsOf_eq_filter (hs : l.Pairwise (RxOrder M base)) (hl : ∀ p ∈ l, RxSegment M p)
    (sn : Int) : segmentsOf l sn = l.filter fun p => p.sn = sn := by
  rw [segmentsOf_eq_group]
  by_cases hsn : 0 ≤ sn ∧ sn < M
  · exact group_eq_filter (hs.imp RxOrder.dist_le) (sn_eq_iff_dist hl hsn)
  · have hne : ∀ p ∈ l, p.sn ≠ sn := fun p hp h => hsn (h ▸ (hl p hp).sn_range)
    have hfilter : l.filter (fun p => decide (p.sn = sn)) = [] :=
      List.filter_eq_nil_iff.2 fun p hp => by simp [hne p hp]
    rw [hfilter, group_eq_nil fun p hp => by simp [hne p hp]]

theorem RxList.segmentsOf_eq (h : RxList M base l) (sn : Int) :
    segmentsOf l sn = l.filter fun p => p.sn = sn :=
  segmentsOf_eq_filter h.sorted h.segment sn

theorem RxList.mem_segmentsOf (h : RxList M base l) {sn : Int} {p : NrRlcPdu} :
    p ∈ segmentsOf l sn ↔ p ∈ l ∧ p.sn = sn := by
  rw [h.segmentsOf_eq, List.mem_filter, decide_eq_true_iff]

theorem RxList.segmentsOf_eq_nil_iff (h : RxList M base l) {sn : Int} :
    segmentsOf l sn = [] ↔ ∀ p ∈ l, p.sn ≠ sn := by
  simp [h.segmentsOf_eq]

/-- The segments of an SDU are sorted by `so`. -/
theorem RxList.segmentsOf_sorted (h : RxList M base l) (sn : Int) :
    (segmentsOf l sn).Pairwise fun a b => a.so ≤ b.so := by
  rw [h.segmentsOf_eq, List.pairwise_filter]
  refine h.sorted.imp fun {a b} hab ha hb => ?_
  rw [decide_eq_true_iff] at ha hb
  rcases hab with hab | ⟨-, hab⟩
  · simp [ha, hb] at hab
  · exact hab

theorem sduDelivered_eq (l : List NrRlcPdu) (sn : Int) :
    sduDelivered l sn = (segmentsOf l sn).head?.any fun p => p.data.isNone := by
  unfold sduDelivered segmentsOf
  cases h : l.dropWhile fun p => p.sn ≠ sn with
  | nil => rfl
  | cons p rest =>
    have hp : p.sn = sn := by
      have := List.head?_dropWhile_not (fun p : NrRlcPdu => decide (p.sn ≠ sn)) l
      rw [h] at this
      simpa using this
    simp [hp]

theorem sduDelivered_congr {l' : List NrRlcPdu} (h : segmentsOf l sn = segmentsOf l' sn) :
    sduDelivered l sn = sduDelivered l' sn := by
  rw [sduDelivered_eq, sduDelivered_eq, h]

theorem sduFull_congr {l' : List NrRlcPdu} (h : segmentsOf l sn = segmentsOf l' sn) :
    sduFull l sn = sduFull l' sn := by
  rw [sduFull, sduFull, h]

theorem sduHasMissingBytes_congr {l' : List NrRlcPdu} (h : segmentsOf l sn = segmentsOf l' sn) :
    sduHasMissingBytes l sn = sduHasMissingBytes l' sn := by
  rw [sduHasMissingBytes, sduHasMissingBytes, h]

theorem sduDelivered_iff : sduDelivered l sn ↔
    ∃ p rest, segmentsOf l sn = p :: rest ∧ p.data = none := by
  rw [sduDelivered_eq]
  cases segmentsOf l sn <;> simp

theorem sduFull_iff : sduFull l sn ↔
    ∃ p rest, segmentsOf l sn = p :: rest ∧ p.data.isSome ∧ sduFullFrom (p :: rest) (-1) := by
  unfold sduFull
  cases segmentsOf l sn <;> simp

/-- An SN with no segment is neither full nor delivered. -/
theorem not_sduDelivered_of_nil (h : segmentsOf l sn = []) : ¬sduDelivered l sn := by
  simp [sduDelivered_iff, h]

theorem not_sduFull_of_nil (h : segmentsOf l sn = []) : ¬sduFull l sn := by
  simp [sduFull_iff, h]

theorem not_sduFull_of_sduDelivered (h : sduDelivered l sn) : ¬sduFull l sn := by
  obtain ⟨p, rest, hg, hp⟩ := sduDelivered_iff.1 h
  intro hf
  obtain ⟨q, rest', hg', hq, -⟩ := sduFull_iff.1 hf
  obtain ⟨rfl, -⟩ := List.cons.inj (hg.symm.trans hg')
  simp [hp] at hq

/-- Some segment of a delivered SDU is in the list. -/
theorem RxList.exists_of_sduDelivered (h : RxList M base l) (hd : sduDelivered l sn) :
    ∃ p ∈ l, p.sn = sn := by
  obtain ⟨p, rest, hg, -⟩ := sduDelivered_iff.1 hd
  exact ⟨p, h.mem_segmentsOf.1 (hg ▸ List.mem_cons_self ..)⟩

/-- An SDU that is not delivered has all its data. -/
theorem RxList.data_isSome (h : RxList M base l) (hd : ¬sduDelivered l sn) {p : NrRlcPdu}
    (hp : p ∈ l) (hsn : p.sn = sn) : p.data.isSome := by
  have hok := h.segments_ok sn
  have hmem : p ∈ segmentsOf l sn := h.mem_segmentsOf.2 ⟨hp, hsn⟩
  cases hg : segmentsOf l sn with
  | nil => simp [hg] at hmem
  | cons q rest =>
    rw [hg] at hok hmem
    rcases hok with ⟨hq, -⟩ | hall
    · exact absurd (sduDelivered_iff.2 ⟨q, rest, hg, hq⟩) hd
    · exact hall p hmem

/-! ## Sublists and new bases -/

theorem RxList.nil : RxList M base [] :=
  ⟨.nil, by simp, fun _ => trivial⟩

/-- Moving the base forward, not past a stored SN, keeps the order. -/
theorem RxList.rebase {base' : Int} (hM : 0 < M) (h : RxList M base l)
    (hle : ∀ p ∈ l, dist M base base' ≤ dist M base p.sn) : RxList M base' l := by
  refine ⟨List.Pairwise.imp_of_mem (fun {a b} ha hb hab => ?_) h.sorted, h.segment,
    h.segments_ok⟩
  unfold RxOrder at *
  rw [dist_rebase hM (hle a ha), dist_rebase hM (hle b hb)]
  omega

/-- Removing every segment of some SNs. -/
theorem RxList.filter {q : Int → Bool} (h : RxList M base l) :
    RxList M base (l.filter fun p => q p.sn) ∧ ∀ sn,
      segmentsOf (l.filter fun p => q p.sn) sn = if q sn then segmentsOf l sn else [] := by
  have hs := h.sorted.filter fun p => q p.sn
  have hl : ∀ p ∈ l.filter (fun p => q p.sn), RxSegment M p := fun p hp =>
    h.segment p (List.mem_of_mem_filter hp)
  have hseg : ∀ sn, segmentsOf (l.filter fun p => q p.sn) sn =
      if q sn then segmentsOf l sn else [] := by
    intro sn
    rw [segmentsOf_eq_filter hs hl, h.segmentsOf_eq, List.filter_filter]
    split_ifs with hq
    · exact List.filter_congr fun p _ => by
        by_cases hp : p.sn = sn <;> simp [hp, hq]
    · exact List.filter_eq_nil_iff.2 fun p _ => by
        by_cases hp : p.sn = sn <;> simp [hp, hq]
  refine ⟨⟨hs, hl, fun sn => ?_⟩, hseg⟩
  rw [hseg]
  split_ifs
  · exact h.segments_ok sn
  · trivial

/-! ## Insertion -/

theorem insertBefore_isSome {q : NrRlcPdu → Prop} [DecidablePred q] (hpdu : pdu.data.isSome)
    (hq : ∀ p, q p ↔ pdu.so < p.so) (hso : 0 ≤ pdu.so) :
    ∀ {g : List NrRlcPdu}, SegmentsOk g → SegmentsOk (insertBefore q pdu g) ∧
      ((insertBefore q pdu g).head?.any fun p => p.data.isNone) =
        g.head?.any fun p => p.data.isNone
  | [], _ => by simp [insertBefore, SegmentsOk, hpdu]
  | p :: rest, .inl ⟨hp, h0⟩ => by
    have : ¬q p := by rw [hq]; omega
    simp [insertBefore, this, SegmentsOk, hp, h0]
  | p :: rest, .inr hall => by
    have hall' : ∀ q' ∈ insertBefore q pdu (p :: rest), q'.data.isSome := by
      intro q' hq'
      rcases mem_insertBefore.1 hq' with rfl | hmem
      · exact hpdu
      · exact hall q' hmem
    cases hg : insertBefore q pdu (p :: rest) with
    | nil => exact absurd hg (insertBefore_ne_nil _)
    | cons a as =>
      have ha : a.data.isSome := hall' a (by simp [hg])
      have hp : p.data.isSome := hall p (by simp)
      exact ⟨.inr (hg ▸ hall'), by simp [Option.isNone_eq_false_iff.2 ha,
        Option.isNone_eq_false_iff.2 hp]⟩

/-- `nr_rlc_pdu_list_add` puts the segment among those of its SDU. -/
theorem RxList.add {snCompare : Int → Int → Int} (h : RxList M base l) (hpdu : RxSegment M pdu)
    (hdata : pdu.data.isSome)
    (hcmp : ∀ p ∈ l, snCompare p.sn pdu.sn > 0 ↔ dist M base pdu.sn < dist M base p.sn) :
    RxList M base (nrRlcPduListAdd snCompare l pdu) ∧
      (∀ sn, segmentsOf (nrRlcPduListAdd snCompare l pdu) sn =
        if sn = pdu.sn then insertBefore (fun p => pdu.so < p.so) pdu (segmentsOf l sn)
        else segmentsOf l sn) ∧
      ∀ sn, sduDelivered (nrRlcPduListAdd snCompare l pdu) sn = sduDelivered l sn := by
  have hsorted : (nrRlcPduListAdd snCompare l pdu).Pairwise (RxOrder M base) := by
    refine pairwise_insertBefore (fun a b c (hab : RxOrder M base a b) => hab.trans) h.sorted
      (fun c hc hq => ?_) fun c hc hq => ?_
    · rcases hq with hq | ⟨hsn, hso⟩
      · exact .inl ((hcmp c hc).1 hq)
      · exact .inr ⟨hsn.symm, by omega⟩
    · rw [not_or, hcmp c hc, not_and] at hq
      rcases (not_lt.1 hq.1).lt_or_eq with hlt | heq
      · exact .inl hlt
      · have hsn := dist_inj (h.segment c hc).sn_range hpdu.sn_range heq
        exact .inr ⟨hsn, not_lt.1 (hq.2 hsn)⟩
  have hseg : ∀ p ∈ nrRlcPduListAdd snCompare l pdu, RxSegment M p := by
    intro p hp
    rcases mem_insertBefore.1 hp with rfl | hp
    · exact hpdu
    · exact h.segment p hp
  have hof : ∀ sn, segmentsOf (nrRlcPduListAdd snCompare l pdu) sn =
      if sn = pdu.sn then insertBefore (fun p => pdu.so < p.so) pdu (segmentsOf l sn)
      else segmentsOf l sn := by
    intro sn
    rw [segmentsOf_eq_filter hsorted hseg, h.segmentsOf_eq]
    split_ifs with hsn
    · refine filter_insertBefore (by simp [hsn]) (fun p hp hpsn => ?_)
        (List.Pairwise.imp_of_mem (fun {a b} ha hb hab hq => ?_) h.sorted)
      · have hpsn : p.sn = pdu.sn := by simpa [hsn] using hpsn
        rw [hcmp p hp, hpsn]
        simp
      · have hle := hab.dist_le
        rw [hcmp a ha] at hq
        rw [hcmp b hb]
        rcases hq with hq | ⟨hsna, hso⟩
        · exact .inl (by omega)
        · rw [← hsna]
          rcases hab with hab | ⟨hsnab, hso'⟩
          · exact .inl hab
          · exact .inr ⟨hsnab.symm, by omega⟩
    · exact filter_insertBefore_of_neg (by simp [Ne.symm hsn]) l
  have hok : ∀ sn, SegmentsOk (segmentsOf (nrRlcPduListAdd snCompare l pdu) sn) ∧
      sduDelivered (nrRlcPduListAdd snCompare l pdu) sn = sduDelivered l sn := by
    intro sn
    rw [sduDelivered_eq, sduDelivered_eq, hof]
    split_ifs
    · exact insertBefore_isSome hdata (fun _ => Iff.rfl) hpdu.so_nonneg (h.segments_ok sn)
    · exact ⟨h.segments_ok sn, rfl⟩
  exact ⟨⟨hsorted, hseg, fun sn => (hok sn).1⟩, hof, fun sn => (hok sn).2⟩

/-! ## Processing an SDU -/

theorem RxList.mapSegments_eq (h : RxList M base l) (hsn : 0 ≤ sn ∧ sn < M)
    (f : NrRlcPdu → NrRlcPdu) :
    mapSegments f l sn = l.map fun p => if p.sn = sn then f p else p := by
  have := append_map_group_append f (h.sorted.imp RxOrder.dist_le)
    (sn_eq_iff_dist h.segment hsn)
  simpa [mapSegments, segmentsOf, group, afterGroup] using this

/-- The sum of a weight that processing takes away. -/
theorem sum_mapSegments {f : NrRlcPdu → NrRlcPdu} {w : NrRlcPdu → Int} (hw : ∀ p, w (f p) = 0)
    (l : List NrRlcPdu) (sn : Int) :
    ((mapSegments f l sn).map w).sum = (l.map w).sum - ((segmentsOf l sn).map w).sum := by
  have hsplit : (l.takeWhile fun p => p.sn ≠ sn) ++ segmentsOf l sn ++
      ((l.dropWhile fun p => p.sn ≠ sn).dropWhile fun p => p.sn = sn) = l := by
    rw [List.append_assoc, segmentsOf, List.takeWhile_append_dropWhile,
      List.takeWhile_append_dropWhile]
  have hzero : ((segmentsOf l sn).map (w ∘ f)).sum = 0 := by
    simp [Function.comp_def, hw]
  have hsum := congrArg (fun l => (l.map w).sum) hsplit
  simp only [List.map_append, List.sum_append] at hsum
  simp only [mapSegments, List.map_append, List.sum_append, List.map_map, hzero]
  omega

theorem sum_nrRlcPduListAdd {w : NrRlcPdu → Int} {snCompare : Int → Int → Int} :
    ((nrRlcPduListAdd snCompare l pdu).map w).sum = w pdu + (l.map w).sum := by
  rw [nrRlcPduListAdd, ((insertBefore_perm l).map w).sum_eq, List.map_cons, List.sum_cons]

/-- What processing does to a segment : its data is gone. -/
structure Processes (f : NrRlcPdu → NrRlcPdu) : Prop where
  sn : ∀ p, (f p).sn = p.sn
  so : ∀ p, (f p).so = p.so
  size : ∀ p, 0 ≤ p.size → 0 ≤ (f p).size
  data : ∀ p, (f p).data = none

/-- Processing an SDU that is full makes it a delivered one. -/
theorem RxList.process {f : NrRlcPdu → NrRlcPdu} (h : RxList M base l) (hf : Processes f)
    (hfull : sduFull l sn) :
    RxList M base (mapSegments f l sn) ∧
      (mapSegments f l sn = l.map fun p => if p.sn = sn then f p else p) ∧
      (∀ sn', segmentsOf (mapSegments f l sn) sn' =
        if sn' = sn then (segmentsOf l sn).map f else segmentsOf l sn') ∧
      sduDelivered (mapSegments f l sn) sn := by
  obtain ⟨p, rest, hg, -, hfrom⟩ := sduFull_iff.1 hfull
  have hp := h.mem_segmentsOf.1 (hg ▸ List.mem_cons_self .. : p ∈ segmentsOf l sn)
  have hsn : 0 ≤ sn ∧ sn < M := hp.2 ▸ (h.segment p hp.1).sn_range
  have heq := h.mapSegments_eq hsn f
  have hfsn : ∀ q : NrRlcPdu, (if q.sn = sn then f q else q).sn = q.sn := fun q => by
    split_ifs <;> simp [hf.sn]
  have hfso : ∀ q : NrRlcPdu, (if q.sn = sn then f q else q).so = q.so := fun q => by
    split_ifs <;> simp [hf.so]
  have hsorted : (mapSegments f l sn).Pairwise (RxOrder M base) := by
    rw [heq, List.pairwise_map]
    refine h.sorted.imp fun {a b} hab => ?_
    simpa only [RxOrder, hfsn, hfso] using hab
  have hseg : ∀ q ∈ mapSegments f l sn, RxSegment M q := by
    intro q hq
    rw [heq, List.mem_map] at hq
    obtain ⟨q, hq, rfl⟩ := hq
    obtain ⟨h1, h2, h3, h4⟩ := h.segment q hq
    refine ⟨by rwa [hfsn], by rwa [hfso], ?_, ?_⟩
    · split_ifs
      · exact hf.size q h3
      · exact h3
    · split_ifs
      · simp [hf.data]
      · exact h4
  have hof : ∀ sn', segmentsOf (mapSegments f l sn) sn' =
      if sn' = sn then (segmentsOf l sn).map f else segmentsOf l sn' := by
    intro sn'
    rw [segmentsOf_eq_filter hsorted hseg, h.segmentsOf_eq, h.segmentsOf_eq, heq,
      List.filter_map]
    have hcomp : ((fun q : NrRlcPdu => decide (q.sn = sn')) ∘
        fun q => if q.sn = sn then f q else q) = fun q => decide (q.sn = sn') := by
      funext q
      simp only [Function.comp_apply, hfsn]
    rw [hcomp]
    split_ifs with hsn'
    · subst hsn'
      exact List.map_congr_left fun q hq => by
        simp only [List.mem_filter, decide_eq_true_iff] at hq
        simp [hq.2]
    · refine (List.map_congr_left fun q hq => ?_).trans (List.map_id _)
      simp only [List.mem_filter, decide_eq_true_iff] at hq
      rw [if_neg fun h => hsn' (hq.2.symm.trans h), id]
  have hp0 : p.so = 0 := by
    have := (h.segment p hp.1).so_nonneg
    unfold sduFullFrom at hfrom
    split_ifs at hfrom <;> omega
  have hhead : segmentsOf (mapSegments f l sn) sn = f p :: rest.map f := by
    rw [hof, if_pos rfl, hg, List.map_cons]
  refine ⟨⟨hsorted, hseg, fun sn' => ?_⟩, heq, hof, sduDelivered_iff.2 ⟨_, _, hhead, hf.data p⟩⟩
  by_cases hsn' : sn' = sn
  · rw [hsn', hhead]
    exact .inl ⟨hf.data p, by rw [hf.so, hp0]⟩
  · rw [hof, if_neg hsn']
    exact h.segments_ok sn'

/-! ## Skipping delivered SDUs -/

theorem emod_add_one_add {a k : Int} : ((a + 1) % M + k) % M = (a + (k + 1)) % M := by
  rw [Int.emod_add_emod, add_assoc, add_comm 1 k]

/-- Where `skipDelivered` stops : everything before is delivered. -/
theorem skipDelivered_spec (l : List NrRlcPdu) : ∀ (n : Nat) (sn : Int), 0 ≤ sn ∧ sn < M →
    ∃ j : Nat, j ≤ n ∧ skipDelivered l M n sn = (sn + j) % M ∧
      (∀ i : Nat, i < j → sduDelivered l ((sn + i) % M)) ∧
      (j < n → ¬sduDelivered l ((sn + j) % M))
  | 0, sn, hsn => ⟨0, by simp [skipDelivered, Int.emod_eq_of_lt hsn.1 hsn.2]⟩
  | n + 1, sn, hsn => by
    have hmod : (sn + (0 : Nat)) % M = sn := by simpa using Int.emod_eq_of_lt hsn.1 hsn.2
    by_cases hd : sduDelivered l sn
    · have hM : 0 < M := by omega
      obtain ⟨j, hj, heq, hlt, hnot⟩ := skipDelivered_spec l n ((sn + 1) % M)
        ⟨Int.emod_nonneg _ hM.ne', Int.emod_lt_of_pos _ hM⟩
      simp only [emod_add_one_add] at heq hlt hnot
      refine ⟨j + 1, by omega, by simp [skipDelivered, hd, heq], fun i hi => ?_, fun h => ?_⟩
      · cases i with
        | zero => rwa [hmod]
        | succ i => exact_mod_cast hlt i (by omega)
      · exact_mod_cast hnot (by omega)
    · exact ⟨0, by omega, by rw [hmod]; simp [skipDelivered, hd], by simp, fun _ => by rwa [hmod]⟩

/-- With an SN that is not delivered ahead, `skipDelivered` stops there at the latest. -/
theorem skipDelivered_le (hsn : 0 ≤ sn ∧ sn < M) {stop : Int} (hstop : 0 ≤ stop ∧ stop < M)
    (hnot : ¬sduDelivered l stop) :
    ∃ j : Int, 0 ≤ j ∧ j ≤ dist M sn stop ∧
      skipDelivered l M M.toNat sn = (sn + j) % M ∧
      (∀ i, 0 ≤ i → i < j → sduDelivered l ((sn + i) % M)) ∧
      ¬sduDelivered l (skipDelivered l M M.toNat sn) := by
  have hM : 0 < M := by omega
  obtain ⟨j, hj, heq, hlt, hnd⟩ := skipDelivered_spec l M.toNat sn hsn
  have hd0 := dist_nonneg (b := sn) (a := stop) hM
  have hdM := dist_lt (b := sn) (a := stop) hM
  have hle : (j : Int) ≤ dist M sn stop := by
    by_contra hgt
    have hi := hlt (dist M sn stop).toNat (by omega)
    rw [Int.toNat_of_nonneg hd0, base_add_dist hstop] at hi
    exact hnot hi
  refine ⟨j, by omega, hle, heq, fun i h0 hi => ?_, heq ▸ hnd (by omega)⟩
  have := hlt i.toNat (by omega)
  rwa [Int.toNat_of_nonneg h0] at this

/-! ## What has been received -/

/-- The byte `b` is in one of the segments `g`. -/
def Covered (g : List NrRlcPdu) (b : Int) : Prop :=
  ∃ q ∈ g, q.so ≤ b ∧ b < q.so + q.size

/-- `sdu_full` looks for a last segment with every byte before its end received. -/
theorem sduFullFrom_iff : ∀ {g : List NrRlcPdu} (last : Int),
    (g.Pairwise fun a b => a.so ≤ b.so) → (∀ p ∈ g, 0 ≤ p.size) →
      (sduFullFrom g last ↔ ∃ p ∈ g, p.isLast ∧
        ∀ b, last < b → b < p.so + p.size → Covered g b)
  | [], last, _, _ => by simp [sduFullFrom]
  | l :: rest, last, hs, hsize => by
    obtain ⟨hl, hs'⟩ := List.pairwise_cons.1 hs
    have hsize' : ∀ p ∈ rest, 0 ≤ p.size := fun p hp => hsize p (by simp [hp])
    have hge : ∀ p ∈ l :: rest, l.so ≤ p.so := by
      intro p hp
      rcases List.mem_cons.1 hp with rfl | hp
      · exact le_rfl
      · exact hl p hp
    unfold sduFullFrom
    split_ifs with hgap hlast
    · -- a gap before `l` is a gap before every other segment
      refine iff_of_false (by simp) ?_
      rintro ⟨p, hp, -, hcov⟩
      obtain ⟨q, hq, hq1, -⟩ := hcov (last + 1) (by omega)
        (by have := hge p hp; have := hsize p hp; omega)
      have := hge q hq
      omega
    · exact iff_of_true rfl ⟨l, by simp, hlast, fun b h1 h2 => ⟨l, by simp, by omega, h2⟩⟩
    · rw [sduFullFrom_iff _ hs' hsize']
      constructor
      · rintro ⟨p, hp, hplast, hcov⟩
        refine ⟨p, by simp [hp], hplast, fun b h1 h2 => ?_⟩
        by_cases hb : b < l.so + l.size
        · exact ⟨l, by simp, by omega, hb⟩
        · obtain ⟨q, hq, hqb⟩ := hcov b (by omega) h2
          exact ⟨q, by simp [hq], hqb⟩
      · rintro ⟨p, hp, hplast, hcov⟩
        rcases List.mem_cons.1 hp with rfl | hp
        · exact absurd hplast hlast
        · refine ⟨p, hp, hplast, fun b h1 h2 => ?_⟩
          obtain ⟨q, hq, hq1, hq2⟩ := hcov b (by omega) h2
          rcases List.mem_cons.1 hq with rfl | hq
          · omega
          · exact ⟨q, hq, hq1, hq2⟩

/-- Every byte of the SDU `sn` is in the list, up to the end of a last segment. -/
def CompletelyReceived (l : List NrRlcPdu) (sn : Int) : Prop :=
  ∃ p ∈ l, p.sn = sn ∧ p.isLast ∧ ∀ b, 0 ≤ b → b < p.so + p.size →
    Covered (l.filter fun q => q.sn = sn) b

theorem RxList.sduFullFrom_iff (h : RxList M base l) (sn : Int) :
    sduFullFrom (segmentsOf l sn) (-1) ↔ CompletelyReceived l sn := by
  rw [NrStack.sduFullFrom_iff _ (h.segmentsOf_sorted sn) fun p hp =>
    (h.segment p (h.mem_segmentsOf.1 hp).1).size_nonneg, CompletelyReceived]
  simp only [h.segmentsOf_eq, List.mem_filter, decide_eq_true_iff, and_assoc]
  refine exists_congr fun p => and_congr_right fun _ => and_congr_right fun _ =>
    and_congr_right fun _ => forall_congr' fun b => ?_
  rw [show (-1 : Int) < b ↔ 0 ≤ b by omega]

/-- A completely received SDU is either delivered or full. -/
theorem RxList.delivered_or_full (h : RxList M base l) (hc : CompletelyReceived l sn) :
    sduDelivered l sn ∨ sduFull l sn := by
  obtain ⟨p, hp, hsn, -⟩ := id hc
  have hfrom := (h.sduFullFrom_iff sn).2 hc
  by_cases hd : sduDelivered l sn
  · exact .inl hd
  · refine .inr (sduFull_iff.2 ?_)
    have hmem : p ∈ segmentsOf l sn := h.mem_segmentsOf.2 ⟨hp, hsn⟩
    cases hg : segmentsOf l sn with
    | nil => simp [hg] at hmem
    | cons q rest =>
      have hq := h.mem_segmentsOf.1 (hg ▸ List.mem_cons_self .. : q ∈ segmentsOf l sn)
      exact ⟨q, rest, rfl, h.data_isSome hd hq.1 hq.2, hg ▸ hfrom⟩

/-- `sdu_has_missing_bytes` looks for a byte missing before a received one. -/
theorem sduMissingFrom_iff : ∀ {g : List NrRlcPdu} (last : Int),
    (g.Pairwise fun a b => a.so ≤ b.so) →
      (sduMissingFrom g last ↔ ∃ p ∈ g, ∃ b, last < b ∧ b < p.so ∧ ¬Covered g b)
  | [], last, _ => by simp [sduMissingFrom]
  | l :: rest, last, hs => by
    obtain ⟨hl, hs'⟩ := List.pairwise_cons.1 hs
    unfold sduMissingFrom
    split_ifs with hgap
    · refine iff_of_true rfl ⟨l, by simp, last + 1, by omega, by omega, ?_⟩
      rintro ⟨q, hq, hq1, -⟩
      rcases List.mem_cons.1 hq with rfl | hq
      · omega
      · have := hl q hq
        omega
    · rw [sduMissingFrom_iff _ hs']
      constructor
      · rintro ⟨p, hp, b, h1, h2, hcov⟩
        refine ⟨p, by simp [hp], b, by omega, h2, ?_⟩
        rintro ⟨q, hq, hq1, hq2⟩
        rcases List.mem_cons.1 hq with rfl | hq
        · omega
        · exact hcov ⟨q, hq, hq1, hq2⟩
      · rintro ⟨p, hp, b, h1, h2, hcov⟩
        have hb : ¬b < l.so + l.size := fun hb => hcov ⟨l, by simp, by omega, hb⟩
        rcases List.mem_cons.1 hp with rfl | hp
        · omega
        · exact ⟨p, hp, b, by omega, h2, fun ⟨q, hq, hqb⟩ => hcov ⟨q, by simp [hq], hqb⟩⟩

/-- `sdu_has_missing_bytes` of an SDU that is not delivered. -/
theorem RxList.sduHasMissingBytes_iff (h : RxList M base l) (hd : ¬sduDelivered l sn) :
    sduHasMissingBytes l sn ↔ ∃ p ∈ l, p.sn = sn ∧
      ∃ b, 0 ≤ b ∧ b < p.so ∧ ¬Covered (l.filter fun q => q.sn = sn) b := by
  have hfrom : sduHasMissingBytes l sn ↔ sduMissingFrom (segmentsOf l sn) (-1) := by
    unfold sduHasMissingBytes
    cases hg : segmentsOf l sn with
    | nil => simp [sduMissingFrom]
    | cons p rest =>
      have hp := h.mem_segmentsOf.1 (hg ▸ List.mem_cons_self .. : p ∈ segmentsOf l sn)
      simp [h.data_isSome hd hp.1 hp.2]
  rw [hfrom, sduMissingFrom_iff _ (h.segmentsOf_sorted _), h.segmentsOf_eq]
  simp only [List.mem_filter, decide_eq_true_iff, and_assoc]
  rfl

end NrStack
