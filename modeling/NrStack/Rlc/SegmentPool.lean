import NrStack.Rlc.SduHeap

/-!
# The segments of an AM sender

`SegmentPool` is what holds of all the segments in the lists of a sender together, in
whatever list they are : their addresses are distinct, their SDUs are in memory
(`SduHeap`), those of one SDU do not overlap, and an SN belongs to one SDU only.

Each thing that happens to a segment has one lemma : it may be split, freed, lost or given
an SN, and new ones come.
-/

namespace NrStack

variable {n m : Nat} {heap : List NrRlcSduEntry} {l l' : List NrRlcSduSegment}
  {a b g : NrRlcSduSegment}

/-- A segment and its SDU agree. -/
structure SegmentOk (g : NrRlcSduSegment) : Prop where
  so_nonneg : 0 ≤ g.so
  size_nonneg : 0 ≤ g.size
  end_le : g.so + g.size ≤ g.sdu.size
  isFirst_iff : g.isFirst ↔ g.so = 0
  isLast_iff : g.isLast ↔ g.so + g.size = g.sdu.size
  data_length : (g.sdu.data.length : Int) = g.sdu.size
  sdu_size_le : g.sdu.size ≤ nrSduMax

/-- Two segments of one SDU begin at different bytes and do not overlap. -/
def Apart (a b : NrRlcSduSegment) : Prop :=
  a.sdu.id = b.sdu.id → (a.so < b.so ∧ a.so + a.size ≤ b.so) ∨ (b.so < a.so ∧ b.so + b.size ≤ a.so)

theorem Apart.symm (h : Apart a b) : Apart b a := fun hid => (h hid.symm).symm

/-- All the segments of a sender. -/
structure SegmentPool (n m : Nat) (heap : List NrRlcSduEntry) (l : List NrRlcSduSegment) :
    Prop where
  addr_nodup : (l.map (·.addr)).Nodup
  addr_lt : ∀ g ∈ l, g.addr < n
  heap : SduHeap m heap l
  apart : l.Pairwise Apart
  ok : ∀ g ∈ l, SegmentOk g
  id_of_sn : ∀ a ∈ l, ∀ b ∈ l, a.sdu.sn = b.sdu.sn → a.sdu.sn ≠ -1 → a.sdu.id = b.sdu.id

/-- The segment that ends at byte `k` of `g`, and the rest of it. -/
structure IsSplit (g a b : NrRlcSduSegment) : Prop where
  head_sdu : a.sdu = g.sdu
  next_sdu : b.sdu = g.sdu
  head_so : a.so = g.so
  head_size : 0 < a.size
  next_so : b.so = g.so + a.size
  next_size : 0 < b.size
  size_eq : a.size + b.size = g.size
  head_addr : a.addr = g.addr
  head_isFirst : a.isFirst = g.isFirst
  head_isLast : a.isLast = false
  next_isFirst : b.isFirst = false
  next_isLast : b.isLast = g.isLast

theorem IsSplit.ok (h : IsSplit g a b) (hg : SegmentOk g) : SegmentOk a ∧ SegmentOk b := by
  obtain ⟨h1, h2, h3, h4, h5, h6, h7⟩ := hg
  obtain ⟨s1, s2, s3, s4, s5, s6, s7, -, s9, s10, s11, s12⟩ := h
  refine ⟨⟨by omega, by omega, by rw [s1]; omega, by rw [s9, h4, s3], ?_, by rwa [s1], by rwa [s1]⟩,
    ⟨by omega, by omega, by rw [s2]; omega, ?_, ?_, by rwa [s2], by rwa [s2]⟩⟩
  · simp only [s10, s1, Bool.false_eq_true, false_iff]
    omega
  · simp only [s11, Bool.false_eq_true, false_iff]
    omega
  · rw [s12, h5, s2]
    omega

theorem IsSplit.apart (h : IsSplit g a b) {c : NrRlcSduSegment} (hc : Apart g c) :
    Apart a c ∧ Apart b c := by
  obtain ⟨s1, s2, s3, s4, s5, s6, s7, -⟩ := h
  refine ⟨fun hid => ?_, fun hid => ?_⟩
  · rcases hc (s1 ▸ hid) with hlt | hlt
    · exact .inl (by omega)
    · exact .inr (by omega)
  · rcases hc (s2 ▸ hid) with hlt | hlt
    · exact .inl (by omega)
    · exact .inr (by omega)

namespace SegmentPool

theorem nil : SegmentPool n m [] [] :=
  ⟨by simp, by simp, .nil, .nil, by simp, by simp⟩

theorem perm (h : SegmentPool n m heap l) (hl : l.Perm l') : SegmentPool n m heap l' :=
  ⟨(hl.map _).nodup_iff.1 h.addr_nodup, fun g hg => h.addr_lt g (hl.mem_iff.2 hg),
    h.heap.perm hl, hl.pairwise h.apart (fun h => h.symm), fun g hg => h.ok g (hl.mem_iff.2 hg),
    fun a ha b hb => h.id_of_sn a (hl.mem_iff.2 ha) b (hl.mem_iff.2 hb)⟩

theorem sublist (h : SegmentPool n m heap l) (hl : l'.Sublist l) : SegmentPool n m heap l' :=
  ⟨h.addr_nodup.sublist (hl.map _), fun g hg => h.addr_lt g (hl.subset hg), h.heap.sublist hl,
    h.apart.sublist hl, fun g hg => h.ok g (hl.subset hg),
    fun a ha b hb => h.id_of_sn a (hl.subset ha) b (hl.subset hb)⟩

/-- The memory changes, the segments do not. -/
theorem of_heap {heap' : List NrRlcSduEntry} (h : SegmentPool n m heap l)
    (hh : SduHeap m heap' l) : SegmentPool n m heap' l :=
  ⟨h.addr_nodup, h.addr_lt, hh, h.apart, h.ok, h.id_of_sn⟩

theorem retx {id : Nat} (h : SegmentPool n m heap l) :
    SegmentPool n m (updateSdu id (fun d => { d with retxCount := d.retxCount + 1 }) heap) l :=
  h.of_heap h.heap.retx

theorem free (h : SegmentPool n m heap (g :: l)) :
    SegmentPool n m (nrRlcFreeSduSegment heap g).1 l :=
  (h.sublist (List.sublist_cons_self g l)).of_heap h.heap.free

/-- A segment is split, with a new address for the rest. -/
theorem split (h : SegmentPool n m heap (g :: l)) (hs : IsSplit g a b) (hb : b.addr = n)
    (hsn : g.sdu.sn ≠ -1) : SegmentPool (n + 1) m
      (updateSdu g.sdu.id (fun d => { d with refCount := d.refCount + 1 }) heap) (a :: b :: l) := by
  obtain ⟨hga, hla⟩ := List.pairwise_cons.1 h.apart
  have hok := hs.ok (h.ok g (by simp))
  have hmem : ∀ x ∈ a :: b :: l, ∃ y ∈ g :: l, x.sdu = y.sdu := by
    intro x hx
    rcases List.mem_cons.1 hx with rfl | hx
    · exact ⟨g, by simp, hs.head_sdu⟩
    · rcases List.mem_cons.1 hx with rfl | hx
      · exact ⟨g, by simp, hs.next_sdu⟩
      · exact ⟨x, by simp [hx], rfl⟩
  refine ⟨?_, fun x hx => ?_, h.heap.split hs.head_sdu hs.next_sdu hsn, ?_, fun x hx => ?_,
    fun x hx y hy => ?_⟩
  · have hnodup := h.addr_nodup
    rw [List.map_cons, List.nodup_cons] at hnodup
    have hfresh : n ∉ (g :: l).map (·.addr) := by
      intro hmem
      obtain ⟨x, hx, heq⟩ := List.mem_map.1 hmem
      have := h.addr_lt x hx
      omega
    rw [List.map_cons, List.mem_cons, not_or] at hfresh
    rw [List.map_cons, List.map_cons, List.nodup_cons, List.nodup_cons, hb, hs.head_addr,
      List.mem_cons, not_or]
    exact ⟨⟨fun h => hfresh.1 h.symm, hnodup.1⟩, hfresh.2, hnodup.2⟩
  · rcases List.mem_cons.1 hx with rfl | hx
    · rw [hs.head_addr]
      exact (h.addr_lt g (by simp)).trans (Nat.lt_succ_self n)
    · rcases List.mem_cons.1 hx with rfl | hx
      · omega
      · exact (h.addr_lt x (by simp [hx])).trans (Nat.lt_succ_self n)
  · refine List.pairwise_cons.2 ⟨fun x hx => ?_, List.pairwise_cons.2 ⟨fun x hx => ?_, hla⟩⟩
    · rcases List.mem_cons.1 hx with rfl | hx
      · intro _
        have := hs.head_size
        have := hs.next_so
        have := hs.head_so
        exact .inl (by omega)
      · exact (hs.apart (hga x hx)).1
    · exact (hs.apart (hga x hx)).2
  · rcases List.mem_cons.1 hx with rfl | hx
    · exact hok.1
    · rcases List.mem_cons.1 hx with rfl | hx
      · exact hok.2
      · exact h.ok x (by simp [hx])
  · obtain ⟨x', hx', heq⟩ := hmem x hx
    obtain ⟨y', hy', heq'⟩ := hmem y hy
    rw [heq, heq']
    exact h.id_of_sn x' hx' y' hy'

/-- A new SDU, in one segment. -/
theorem new (h : SegmentPool n m heap l) (hg : g.addr = n) (hid : g.sdu.id = m)
    (hsn : g.sdu.sn = -1) (hok : SegmentOk g) :
    SegmentPool (n + 1) (m + 1) (heap ++ [nrRlcNewSduEntry g.sdu]) (g :: l) := by
  have hfresh : ∀ x ∈ l, x.sdu.id < m := by
    intro x hx
    obtain ⟨d, hd, hsdu⟩ := h.heap.entry x hx
    exact hsdu ▸ h.heap.id_lt d hd
  refine ⟨?_, fun x hx => ?_, h.heap.new hid rfl, ?_, fun x hx => ?_, fun x hx y hy hxy hne => ?_⟩
  · rw [List.map_cons, List.nodup_cons]
    refine ⟨fun hmem => ?_, h.addr_nodup⟩
    obtain ⟨x, hx, heq⟩ := List.mem_map.1 hmem
    have := h.addr_lt x hx
    omega
  · rcases List.mem_cons.1 hx with rfl | hx
    · omega
    · exact (h.addr_lt x hx).trans (Nat.lt_succ_self n)
  · refine List.pairwise_cons.2 ⟨fun x hx heq => ?_, h.apart⟩
    have := hfresh x hx
    omega
  · rcases List.mem_cons.1 hx with rfl | hx
    · exact hok
    · exact h.ok x hx
  · rcases List.mem_cons.1 hx with rfl | hx
    · exact absurd hsn hne
    · rcases List.mem_cons.1 hy with rfl | hy
      · exact absurd (hxy.trans hsn) hne
      · exact h.id_of_sn x hx y hy hxy hne

/-- An SDU gets an SN that no other one has. -/
theorem assign {sn : Int} (h : SegmentPool n m heap (g :: l)) (hsn : g.sdu.sn = -1)
    (hne : sn ≠ -1) (hfresh : ∀ x ∈ l, x.sdu.sn ≠ sn) :
    SegmentPool n m (updateSdu g.sdu.id (SduHeap.setSn sn) heap)
      ({ g with sdu := { g.sdu with sn } } :: l) := by
  obtain ⟨hga, hla⟩ := List.pairwise_cons.1 h.apart
  obtain ⟨h1, h2, h3, h4, h5, h6, h7⟩ := h.ok g (by simp)
  refine ⟨h.addr_nodup, fun x hx => ?_, h.heap.assign hsn hne,
    List.pairwise_cons.2 ⟨hga, hla⟩, fun x hx => ?_, fun x hx y hy hxy hx1 => ?_⟩
  · rcases List.mem_cons.1 hx with rfl | hx
    · exact h.addr_lt g (by simp)
    · exact h.addr_lt x (by simp [hx])
  · rcases List.mem_cons.1 hx with rfl | hx
    · exact ⟨h1, h2, h3, h4, h5, h6, h7⟩
    · exact h.ok x (by simp [hx])
  · rcases List.mem_cons.1 hx with rfl | hx
    · rcases List.mem_cons.1 hy with rfl | hy
      · rfl
      · exact absurd hxy.symm (hfresh y hy)
    · rcases List.mem_cons.1 hy with rfl | hy
      · exact absurd hxy (hfresh x hx)
      · exact h.id_of_sn x (by simp [hx]) y (by simp [hy]) hxy hx1

/-- All of a list is freed. -/
theorem freeList : ∀ {l l' : List NrRlcSduSegment} {heap : List NrRlcSduEntry},
    SegmentPool n m heap (l ++ l') → SegmentPool n m (nrRlcFreeSduSegmentList heap l) l'
  | [], _, _, h => h
  | g :: l, l', heap, h => by
    have hfree : SegmentPool n m (nrRlcFreeSduSegment heap g).1 (l ++ l') := h.free
    have hrest := freeList hfree
    exact hrest

/-- Segments of one SDU share it. -/
theorem sdu_eq_of_id (h : SegmentPool n m heap l) (ha : a ∈ l) (hb : b ∈ l)
    (hid : a.sdu.id = b.sdu.id) : a.sdu = b.sdu := by
  obtain ⟨d, hd, hda⟩ := h.heap.entry a ha
  obtain ⟨d', hd', hdb⟩ := h.heap.entry b hb
  rw [← hda, ← hdb, h.heap.eq_of_id hd hd' (by rw [hda, hdb, hid])]

/-- Segments with the same SN begin at different bytes. -/
theorem so_ne (h : SegmentPool n m heap (g :: l)) (ha : a ∈ l) (hsn : a.sdu.sn = g.sdu.sn)
    (hne : g.sdu.sn ≠ -1) : a.so ≠ g.so := by
  intro hso
  rcases (List.pairwise_cons.1 h.apart).1 a ha
    (h.id_of_sn a (by simp [ha]) g (by simp) hsn (hsn ▸ hne)).symm with hlt | hlt <;> omega

end SegmentPool

theorem SduHeapFull.freeList : ∀ {l l' : List NrRlcSduSegment} {heap : List NrRlcSduEntry},
    SegmentPool n m heap (l ++ l') → SduHeapFull heap (l ++ l') →
      SduHeapFull (nrRlcFreeSduSegmentList heap l) l'
  | [], _, _, _, hf => hf
  | g :: l, l', heap, h, hf => by
    have hfree : SegmentPool n m (nrRlcFreeSduSegment heap g).1 (l ++ l') := h.free
    have hrest := SduHeapFull.freeList hfree (SduHeapFull.free h.heap hf)
    exact hrest

/-- With no segment lost and none left, no SDU is left. -/
theorem SduHeapFull.eq_nil (h : SduHeapFull heap []) : heap = [] := by
  refine List.eq_nil_iff_forall_not_mem.2 fun d hd => ?_
  have hpos := (h d hd).2
  simp [segmentCount] at hpos

end NrStack
