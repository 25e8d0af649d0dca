import NrStack.Rlc.Sdu

/-!
# Counting the segments of an SDU

`SduHeap n heap l` relates the SDUs in memory to the segments `l` that the lists of an
entity hold : each segment has its SDU in memory, and an SDU has at least as many
references left to free as it has segments. A segment that is lost keeps its SDU in
memory for ever. `SduHeapFull` says that none is : the numbers are equal.

`l` is taken up to permutation, so a segment that moves from one list to another does not
change anything here.
-/

namespace NrStack

variable {n : Nat} {heap : List NrRlcSduEntry} {l l' : List NrRlcSduSegment}
  {g : NrRlcSduSegment} {d d' : NrRlcSduEntry} {id : Nat}

/-- How many segments of the SDU `id` there are. -/
def segmentCount (id : Nat) (l : List NrRlcSduSegment) : Nat :=
  l.countP fun g => g.sdu.id = id

/-- The bytes of the SDUs in memory. -/
def liveSize (heap : List NrRlcSduEntry) : Int :=
  (heap.map (·.sdu.size)).sum

theorem segmentCount_cons : segmentCount id (g :: l) =
    segmentCount id l + if g.sdu.id = id then 1 else 0 := by
  simp [segmentCount, List.countP_cons]

theorem segmentCount_perm (id : Nat) (h : l.Perm l') : segmentCount id l = segmentCount id l' :=
  h.countP_eq _

theorem segmentCount_pos (hg : g ∈ l) (hid : g.sdu.id = id) : 0 < segmentCount id l :=
  List.countP_pos_iff.2 ⟨g, hg, by simpa using hid⟩

/-- The SDUs in memory and the segments in the lists. -/
structure SduHeap (n : Nat) (heap : List NrRlcSduEntry) (l : List NrRlcSduSegment) : Prop where
  id_nodup : (heap.map (·.sdu.id)).Nodup
  id_lt : ∀ d ∈ heap, d.sdu.id < n
  entry : ∀ g ∈ l, ∃ d ∈ heap, d.sdu = g.sdu
  count_le : ∀ d ∈ heap, (segmentCount d.sdu.id l : Int) ≤ d.refCount - d.freeCount
  /-- An SDU that has no SN has not been segmented. -/
  unsent : ∀ d ∈ heap, d.sdu.sn = -1 → d.refCount = 1 ∧ d.freeCount = 0

/-- No segment is lost. -/
def SduHeapFull (heap : List NrRlcSduEntry) (l : List NrRlcSduSegment) : Prop :=
  ∀ d ∈ heap, (segmentCount d.sdu.id l : Int) = d.refCount - d.freeCount ∧
    0 < segmentCount d.sdu.id l

theorem mem_updateSdu {f : NrRlcSduEntry → NrRlcSduEntry} :
    d' ∈ updateSdu id f heap ↔ ∃ d ∈ heap, (if d.sdu.id = id then f d else d) = d' :=
  List.mem_map

variable (heap id) in
/-- An update that keeps the SDUs keeps what the segments refer to. -/
theorem map_sdu_updateSdu {f : NrRlcSduEntry → NrRlcSduEntry} (hf : ∀ d, (f d).sdu = d.sdu) :
    (updateSdu id f heap).map (·.sdu) = heap.map (·.sdu) := by
  rw [updateSdu, List.map_map]
  refine List.map_congr_left fun d _ => ?_
  simp only [Function.comp_apply]
  split_ifs
  · exact hf d
  · rfl

theorem liveSize_updateSdu {f : NrRlcSduEntry → NrRlcSduEntry} (hf : ∀ d, (f d).sdu = d.sdu) :
    liveSize (updateSdu id f heap) = liveSize heap := by
  have h := congrArg (List.map (·.size)) (map_sdu_updateSdu heap id hf)
  simp only [List.map_map, Function.comp_def] at h
  rw [liveSize, liveSize, h]

namespace SduHeap

/-- The SDU of a segment is found by its address. -/
theorem eq_of_id (h : SduHeap n heap l) (hd : d ∈ heap) (hd' : d' ∈ heap)
    (hid : d.sdu.id = d'.sdu.id) : d = d' :=
  List.inj_on_of_nodup_map h.id_nodup hd hd' hid

theorem find?_eq (h : SduHeap n heap l) (hd : d ∈ heap) :
    heap.find? (fun x => x.sdu.id = d.sdu.id) = some d := by
  cases hf : heap.find? fun x => decide (x.sdu.id = d.sdu.id) with
  | none => simpa using List.find?_eq_none.1 hf d hd
  | some x =>
    have hx := List.find?_some hf
    rw [decide_eq_true_iff] at hx
    rw [h.eq_of_id (List.mem_of_find?_eq_some hf) hd hx]

theorem nil : SduHeap n [] [] :=
  ⟨by simp, by simp, by simp, by simp, by simp⟩

theorem perm (h : SduHeap n heap l) (hl : l.Perm l') : SduHeap n heap l' :=
  ⟨h.id_nodup, h.id_lt, fun g hg => h.entry g (hl.mem_iff.2 hg),
    fun d hd => segmentCount_perm _ hl ▸ h.count_le d hd, h.unsent⟩

/-- Segments may get lost. -/
theorem sublist (h : SduHeap n heap l) (hl : l'.Sublist l) : SduHeap n heap l' := by
  refine ⟨h.id_nodup, h.id_lt, fun g hg => h.entry g (hl.subset hg), fun d hd => ?_, h.unsent⟩
  have hcount : segmentCount d.sdu.id l' ≤ segmentCount d.sdu.id l := hl.countP_le
  have := h.count_le d hd
  omega

/-- An update of one SDU that keeps what is fixed in it. -/
theorem update (h : SduHeap n heap l) {f : NrRlcSduEntry → NrRlcSduEntry}
    (hf : ∀ d, (f d).sdu = d.sdu) (hentry : ∀ g ∈ l', ∃ d ∈ heap, d.sdu = g.sdu)
    (hcount : ∀ d ∈ heap, (segmentCount d.sdu.id l' : Int) ≤
      if d.sdu.id = id then (f d).refCount - (f d).freeCount else d.refCount - d.freeCount)
    (hunsent : ∀ d ∈ heap, d.sdu.id = id → d.sdu.sn = -1 →
      (f d).refCount = 1 ∧ (f d).freeCount = 0) : SduHeap n (updateSdu id f heap) l' := by
  have hsdu : ∀ d : NrRlcSduEntry, (if d.sdu.id = id then f d else d).sdu = d.sdu := fun d => by
    split_ifs
    · exact hf d
    · rfl
  refine ⟨?_, ?_, fun g hg => ?_, ?_, ?_⟩
  · have hids := congrArg (List.map (·.id)) (map_sdu_updateSdu heap id hf)
    simp only [List.map_map, Function.comp_def] at hids
    rw [hids]
    exact h.id_nodup
  · intro d' hd'
    obtain ⟨d, hd, rfl⟩ := mem_updateSdu.1 hd'
    rw [hsdu]
    exact h.id_lt d hd
  · obtain ⟨d, hd, heq⟩ := hentry g hg
    exact ⟨_, mem_updateSdu.2 ⟨d, hd, rfl⟩, (hsdu d).trans heq⟩
  · intro d' hd'
    obtain ⟨d, hd, rfl⟩ := mem_updateSdu.1 hd'
    rw [hsdu]
    refine (hcount d hd).trans_eq ?_
    split_ifs <;> rfl
  · intro d' hd'
    obtain ⟨d, hd, rfl⟩ := mem_updateSdu.1 hd'
    rw [hsdu]
    intro hsn
    split_ifs with hid
    · exact hunsent d hd hid hsn
    · exact h.unsent d hd hsn

/-- `sdu->retx_count++`. -/
theorem retx (h : SduHeap n heap l) :
    SduHeap n (updateSdu id (fun d => { d with retxCount := d.retxCount + 1 }) heap) l :=
  h.update (fun _ => rfl) h.entry (fun d hd => by simpa using h.count_le d hd)
    fun d hd _ hsn => h.unsent d hd hsn

/-- A segment is split in two. -/
theorem split {a b : NrRlcSduSegment} (h : SduHeap n heap (g :: l)) (ha : a.sdu = g.sdu)
    (hb : b.sdu = g.sdu) (hsn : g.sdu.sn ≠ -1) :
    SduHeap n (updateSdu g.sdu.id (fun d => { d with refCount := d.refCount + 1 }) heap)
      (a :: b :: l) := by
  refine h.update (fun _ => rfl) (fun x hx => ?_) (fun d hd => ?_) fun d hd hid hsn' => ?_
  · rcases List.mem_cons.1 hx with rfl | hx
    · exact ha ▸ h.entry g (by simp)
    · rcases List.mem_cons.1 hx with rfl | hx
      · exact hb ▸ h.entry g (by simp)
      · exact h.entry x (by simp [hx])
  · have hle := h.count_le d hd
    rw [segmentCount_cons] at hle
    rw [segmentCount_cons, segmentCount_cons, ha, hb]
    split_ifs at hle ⊢ <;> simp_all
    omega
  · obtain ⟨d', hd', heq⟩ := h.entry g (by simp)
    rw [h.eq_of_id hd hd' (hid.trans (by rw [heq])), heq] at hsn'
    exact absurd hsn' hsn

/-- Freeing a segment, with the SDU it belongs to found in memory. -/
theorem free_eq (h : SduHeap n heap (g :: l)) : ∃ d ∈ heap, d.sdu = g.sdu ∧
    nrRlcFreeSduSegment heap g =
      if d.freeCount + 1 = d.refCount then (heap.filter fun d => d.sdu.id ≠ g.sdu.id, true)
      else (updateSdu g.sdu.id (fun d => { d with freeCount := d.freeCount + 1 }) heap, false) := by
  obtain ⟨d, hd, heq⟩ := h.entry g (by simp)
  refine ⟨d, hd, heq, ?_⟩
  have hfind := h.find?_eq hd
  rw [heq] at hfind
  simp only [nrRlcFreeSduSegment, hfind]

/-- The last segment of an SDU is freed only when no other one is left. -/
theorem count_eq_zero_of_free (h : SduHeap n heap (g :: l)) (hd : d ∈ heap) (hsdu : d.sdu = g.sdu)
    (hlast : d.freeCount + 1 = d.refCount) : segmentCount g.sdu.id l = 0 := by
  have hle := h.count_le d hd
  rw [hsdu, segmentCount_cons, if_pos rfl] at hle
  omega

theorem free (h : SduHeap n heap (g :: l)) : SduHeap n (nrRlcFreeSduSegment heap g).1 l := by
  obtain ⟨d, hd, hsdu, heq⟩ := h.free_eq
  rw [heq]
  split_ifs with hlast
  · have hzero := h.count_eq_zero_of_free hd hsdu hlast
    refine ⟨h.id_nodup.sublist (List.filter_sublist.map _),
      fun x hx => h.id_lt x (List.mem_filter.1 hx).1, fun x hx => ?_, fun x hx => ?_,
      fun x hx => h.unsent x (List.mem_filter.1 hx).1⟩
    · obtain ⟨d', hd', heq'⟩ := h.entry x (by simp [hx])
      refine ⟨d', List.mem_filter.2 ⟨hd', ?_⟩, heq'⟩
      have hne : x.sdu.id ≠ g.sdu.id := fun hid => (segmentCount_pos hx hid).ne' hzero
      simpa [heq'] using hne
    · have hle := h.count_le x (List.mem_filter.1 hx).1
      rw [segmentCount_cons] at hle
      split_ifs at hle <;> omega
  · refine h.update (fun _ => rfl) (fun x hx => h.entry x (by simp [hx])) (fun x hx => ?_)
      fun x hx hid hsn => ?_
    · have hle := h.count_le x hx
      rw [segmentCount_cons] at hle
      by_cases hid : g.sdu.id = x.sdu.id
      · rw [if_pos hid.symm]
        rw [if_pos hid] at hle
        simp only
        omega
      · rw [if_neg fun h => hid h.symm]
        rw [if_neg hid] at hle
        omega
    · obtain rfl := h.eq_of_id hx hd (hid.trans (by rw [hsdu]))
      obtain ⟨hr, hf⟩ := h.unsent x hx hsn
      omega

/-- The memory that is given back. -/
theorem liveSize_free (h : SduHeap n heap (g :: l)) : liveSize (nrRlcFreeSduSegment heap g).1 =
    liveSize heap - if (nrRlcFreeSduSegment heap g).2 then g.sdu.size else 0 := by
  obtain ⟨d, hd, hsdu, heq⟩ := h.free_eq
  by_cases hlast : d.freeCount + 1 = d.refCount
  · rw [heq, if_pos hlast]
    obtain ⟨before, after, rfl⟩ := List.append_of_mem hd
    have hne : ∀ x ∈ before ++ after, x.sdu.id ≠ g.sdu.id := by
      have hnodup := h.id_nodup
      rw [List.map_append, List.map_cons, List.nodup_middle, ← List.map_append, hsdu] at hnodup
      exact fun x hx hid => (List.nodup_cons.1 hnodup).1 (List.mem_map.2 ⟨x, hx, hid⟩)
    have hfilter : (before ++ d :: after).filter (fun x => x.sdu.id ≠ g.sdu.id) =
        before ++ after := by
      rw [List.filter_append, List.filter_cons_of_neg (by simp [hsdu]), ← List.filter_append]
      exact List.filter_eq_self.2 fun x hx => by simpa using hne x hx
    simp only [hfilter, if_true, liveSize, List.map_append, List.map_cons, List.sum_append,
      List.sum_cons, hsdu]
    omega
  · rw [heq, if_neg hlast]
    simp only [Bool.false_eq_true, if_false, sub_zero]
    exact liveSize_updateSdu fun _ => rfl

/-- A new SDU. -/
theorem new (h : SduHeap n heap l) {sdu : NrRlcSdu} (hid : sdu.id = n) (hg : g.sdu = sdu) :
    SduHeap (n + 1) (heap ++ [nrRlcNewSduEntry sdu]) (g :: l) := by
  have hfresh : ∀ x ∈ l, x.sdu.id ≠ n := by
    intro x hx heq
    obtain ⟨d, hd, hsdu⟩ := h.entry x hx
    have := h.id_lt d hd
    rw [hsdu] at this
    omega
  refine ⟨?_, fun d hd => ?_, fun x hx => ?_, fun d hd => ?_, fun d hd hsn => ?_⟩
  · rw [List.map_append, List.nodup_append']
    refine ⟨h.id_nodup, by simp, ?_⟩
    simp only [nrRlcNewSduEntry, List.map_cons, List.map_nil, List.disjoint_singleton,
      List.mem_map, not_exists, not_and]
    intro d hd
    have := h.id_lt d hd
    omega
  · rcases List.mem_append.1 hd with hd | hd
    · exact (h.id_lt d hd).trans (Nat.lt_succ_self n)
    · rw [List.mem_singleton.1 hd]
      exact hid ▸ Nat.lt_succ_self _
  · rcases List.mem_cons.1 hx with rfl | hx
    · exact ⟨nrRlcNewSduEntry sdu, by simp, hg.symm⟩
    · obtain ⟨d, hd, hsdu⟩ := h.entry x hx
      exact ⟨d, by simp [hd], hsdu⟩
  · rcases List.mem_append.1 hd with hd | hd
    · have hlt := h.id_lt d hd
      rw [segmentCount_cons, if_neg (by rw [hg, hid]; omega)]
      exact h.count_le d hd
    · rw [List.mem_singleton.1 hd]
      have hzero : segmentCount sdu.id l = 0 :=
        List.countP_eq_zero.2 fun x hx => by simpa [hid] using hfresh x hx
      simp [nrRlcNewSduEntry, segmentCount_cons, hg, hzero]
  · rcases List.mem_append.1 hd with hd | hd
    · exact h.unsent d hd hsn
    · rw [List.mem_singleton.1 hd]
      exact ⟨rfl, rfl⟩

/-- An SDU without an SN has one segment. -/
theorem count_eq_zero_of_unsent (h : SduHeap n heap (g :: l)) (hsn : g.sdu.sn = -1) :
    segmentCount g.sdu.id l = 0 := by
  obtain ⟨d, hd, hsdu⟩ := h.entry g (by simp)
  obtain ⟨hr, hf⟩ := h.unsent d hd (by rw [hsdu, hsn])
  have hle := h.count_le d hd
  rw [hsdu, segmentCount_cons, if_pos rfl] at hle
  omega

/-- `sdu->sn = sn`, for an SDU that has none. -/
def setSn (sn : Int) (d : NrRlcSduEntry) : NrRlcSduEntry :=
  { d with sdu := { d.sdu with sn } }

theorem assign {sn : Int} (h : SduHeap n heap (g :: l)) (hsn : g.sdu.sn = -1) (hne : sn ≠ -1) :
    SduHeap n (updateSdu g.sdu.id (setSn sn) heap)
      ({ g with sdu := { g.sdu with sn } } :: l) := by
  have hid : ∀ d : NrRlcSduEntry,
      (if d.sdu.id = g.sdu.id then setSn sn d else d).sdu.id = d.sdu.id := fun d => by
    split_ifs <;> rfl
  have hzero := h.count_eq_zero_of_unsent hsn
  refine ⟨?_, ?_, fun x hx => ?_, ?_, ?_⟩
  · have hids : (updateSdu g.sdu.id (setSn sn) heap).map (·.sdu.id) = heap.map (·.sdu.id) := by
      rw [updateSdu, List.map_map]
      exact List.map_congr_left fun d _ => hid d
    rw [hids]
    exact h.id_nodup
  · intro d' hd'
    obtain ⟨d, hd, rfl⟩ := mem_updateSdu.1 hd'
    rw [hid]
    exact h.id_lt d hd
  · rcases List.mem_cons.1 hx with rfl | hx
    · obtain ⟨d, hd, hsdu⟩ := h.entry g (by simp)
      exact ⟨_, mem_updateSdu.2 ⟨d, hd, rfl⟩, by rw [if_pos (by rw [hsdu]), setSn, hsdu]⟩
    · obtain ⟨d, hd, hsdu⟩ := h.entry x (by simp [hx])
      refine ⟨_, mem_updateSdu.2 ⟨d, hd, rfl⟩, ?_⟩
      rw [if_neg fun hid => (segmentCount_pos hx (hsdu ▸ hid)).ne' hzero, hsdu]
  · intro d' hd'
    obtain ⟨d, hd, rfl⟩ := mem_updateSdu.1 hd'
    have hle := h.count_le d hd
    rw [hid]
    rw [segmentCount_cons] at hle ⊢
    refine hle.trans_eq ?_
    split_ifs <;> rfl
  · intro d' hd'
    obtain ⟨d, hd, rfl⟩ := mem_updateSdu.1 hd'
    split_ifs with hidg
    · exact fun h => absurd h hne
    · exact h.unsent d hd

theorem liveSize_assign {sn : Int} : liveSize (updateSdu id (setSn sn) heap) = liveSize heap := by
  rw [liveSize, liveSize, updateSdu, List.map_map]
  congr 1
  refine List.map_congr_left fun d _ => ?_
  simp only [Function.comp_apply]
  split_ifs <;> rfl

end SduHeap

/-! ## No segment is lost -/

namespace SduHeapFull

theorem perm (h : SduHeapFull heap l) (hl : l.Perm l') : SduHeapFull heap l' := fun d hd =>
  segmentCount_perm d.sdu.id hl ▸ h d hd

theorem retx (h : SduHeapFull heap l) :
    SduHeapFull (updateSdu id (fun d => { d with retxCount := d.retxCount + 1 }) heap) l := by
  intro d' hd'
  obtain ⟨d, hd, rfl⟩ := mem_updateSdu.1 hd'
  split_ifs <;> exact h d hd

theorem split {a b : NrRlcSduSegment} (h : SduHeapFull heap (g :: l)) (ha : a.sdu = g.sdu)
    (hb : b.sdu = g.sdu) :
    SduHeapFull (updateSdu g.sdu.id (fun d => { d with refCount := d.refCount + 1 }) heap)
      (a :: b :: l) := by
  intro d' hd'
  obtain ⟨d, hd, rfl⟩ := mem_updateSdu.1 hd'
  obtain ⟨heq, hpos⟩ := h d hd
  rw [segmentCount_cons] at heq hpos
  by_cases hid : d.sdu.id = g.sdu.id
  · rw [if_pos hid]
    rw [if_pos hid.symm] at heq hpos
    simp only [segmentCount_cons, ha, hb, if_pos hid.symm]
    omega
  · rw [if_neg hid]
    rw [if_neg fun h => hid h.symm] at heq hpos
    simp only [segmentCount_cons, ha, hb, if_neg fun h : g.sdu.id = d.sdu.id => hid h.symm]
    omega

theorem free (h : SduHeap n heap (g :: l)) (hf : SduHeapFull heap (g :: l)) :
    SduHeapFull (nrRlcFreeSduSegment heap g).1 l := by
  obtain ⟨d, hd, hsdu, heq⟩ := h.free_eq
  rw [heq]
  split_ifs with hlast
  · intro x hx
    obtain ⟨hx, hne⟩ := List.mem_filter.1 hx
    have hx' := hf x hx
    rw [decide_eq_true_iff] at hne
    rwa [segmentCount_cons, if_neg fun h => hne h.symm] at hx'
  · intro x' hx'
    obtain ⟨x, hx, rfl⟩ := mem_updateSdu.1 hx'
    have hxf := hf x hx
    rw [segmentCount_cons] at hxf
    by_cases hid : x.sdu.id = g.sdu.id
    · obtain rfl := h.eq_of_id hx hd (hid.trans (by rw [hsdu]))
      rw [if_pos hid.symm] at hxf
      rw [if_pos hid]
      simp only
      omega
    · rw [if_neg fun h => hid h.symm] at hxf
      rw [if_neg hid]
      exact hxf

theorem new (h : SduHeap n heap l) (hf : SduHeapFull heap l) {sdu : NrRlcSdu} (hid : sdu.id = n)
    (hg : g.sdu = sdu) : SduHeapFull (heap ++ [nrRlcNewSduEntry sdu]) (g :: l) := by
  intro d hd
  have hcount := (h.new hid hg).count_le d hd
  rcases List.mem_append.1 hd with hd | hd
  · have hlt := h.id_lt d hd
    rw [segmentCount_cons, if_neg (by rw [hg, hid]; omega)]
    exact hf d hd
  · rw [List.mem_singleton.1 hd] at hcount ⊢
    simp only [nrRlcNewSduEntry, segmentCount_cons, hg, if_true] at hcount ⊢
    omega

theorem assign {sn : Int} (hf : SduHeapFull heap (g :: l)) :
    SduHeapFull (updateSdu g.sdu.id (SduHeap.setSn sn) heap)
      ({ g with sdu := { g.sdu with sn } } :: l) := by
  intro d' hd'
  obtain ⟨d, hd, rfl⟩ := mem_updateSdu.1 hd'
  have hcount := hf d hd
  rw [segmentCount_cons] at hcount
  split_ifs
  · show (segmentCount d.sdu.id (_ :: l) : Int) = d.refCount - d.freeCount ∧
      0 < segmentCount d.sdu.id (_ :: l)
    rw [segmentCount_cons]
    exact hcount
  · rw [segmentCount_cons]
    exact hcount

end SduHeapFull

end NrStack
