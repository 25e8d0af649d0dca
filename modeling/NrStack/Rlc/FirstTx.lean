import NrStack.Library.Tiling
import NrStack.Rlc.SegmentPool
import NrStack.Rlc.UmPdu

/-!
# First transmissions

`TxLog` is an entity with the history of its TX list : the SDUs it took, and the segments it has
sent off that list, in that order. `Partitioned` : for each of these SDUs, what has been sent and
what is left in the TX list tile its bytes. Once nothing is left, what has been sent does.

AM and UM do the same to the TX list. `TxLogInv` has one lemma for each thing that is done.
-/

namespace NrStack

/-- An SDU : its number and its bytes. -/
abbrev TakenSdu :=
  Nat × List UInt8

/-- An entity with the history of its TX list. -/
structure TxLog (σ : Type) where
  entity : σ
  /-- The SDUs taken since the entity was last re-established, less those discarded. -/
  taken : List TakenSdu
  /-- What has been sent off the TX list in that time. -/
  first : List NrRlcSduSegment

/-- The segments of the SDU `id`. -/
def ofSdu (id : Nat) (l : List NrRlcSduSegment) : List NrRlcSduSegment :=
  l.filter fun g => g.sdu.id = id

/-- The segments tile the bytes from `a` to `b`. -/
abbrev TilesBytes : Int → List NrRlcSduSegment → Int → Prop :=
  Tiles NrRlcSduSegment.so NrRlcSduSegment.size

/-- What has been sent of each SDU that is not empty, and what is left of it, tile it. -/
def Partitioned (taken : List TakenSdu) (first txList : List NrRlcSduSegment) : Prop :=
  ∀ t ∈ taken, t.2 ≠ [] → TilesBytes 0 (ofSdu t.1 (first ++ txList)) t.2.length ∧
    ∀ g ∈ ofSdu t.1 (first ++ txList), g.sdu.data = t.2

instance (taken : List TakenSdu) (first txList : List NrRlcSduSegment) :
    Decidable (Partitioned taken first txList) :=
  inferInstanceAs (Decidable (∀ t ∈ taken, _ → _))

/-- The SDUs taken, less those that a call has removed from the TX list. -/
def dropDiscarded (before after : List NrRlcSduSegment) (taken : List TakenSdu) :
    List TakenSdu :=
  taken.filter fun t => ¬(t.1 ∈ before.map (·.sdu.id) ∧ t.1 ∉ after.map (·.sdu.id))

@[simp] theorem dropDiscarded_self (l : List NrRlcSduSegment) (taken : List TakenSdu) :
    dropDiscarded l l taken = taken :=
  List.filter_eq_self.2 fun _ _ => decide_eq_true and_not_self

/-- A segment to send. -/
structure TxSegment (g : NrRlcSduSegment) : Prop where
  piece : NrRlcEntityUm.IsPiece g
  length_le : (g.sdu.data.length : Int) ≤ nrSduMax
  size_nonneg : 0 ≤ g.size
  size_pos : g.sdu.data ≠ [] → 0 < g.size

variable {g h a b : NrRlcSduSegment} {l m : List NrRlcSduSegment} {id n : Nat}

/-! ## Segments -/

theorem txSegment_nrRlcNewSdu {addr : Nat} {buffer : List UInt8} {sduId : Int}
    (hsize : (buffer.length : Int) ≤ nrSduMax) : TxSegment (nrRlcNewSdu id addr buffer sduId) := by
  refine ⟨⟨le_rfl, ?_, ?_, fun _ => ?_⟩, hsize, Int.natCast_nonneg _, fun hne => ?_⟩
  · simp [nrRlcNewSdu]
  · simp [nrRlcNewSdu]
  · simp [nrRlcNewSdu]
  · have hpos := List.length_pos_of_ne_nil hne
    simpa [nrRlcNewSdu] using hpos

/-- Two segments alike but for their SN and address. -/
structure SameBytes (g h : NrRlcSduSegment) : Prop where
  id_eq : h.sdu.id = g.sdu.id
  data_eq : h.sdu.data = g.sdu.data
  so_eq : h.so = g.so
  size_eq : h.size = g.size
  isFirst_eq : h.isFirst = g.isFirst
  isLast_eq : h.isLast = g.isLast

theorem SameBytes.refl (g : NrRlcSduSegment) : SameBytes g g :=
  ⟨rfl, rfl, rfl, rfl, rfl, rfl⟩

theorem TxSegment.congr (hg : TxSegment g) (hs : SameBytes g h) : TxSegment h := by
  obtain ⟨⟨h1, h2, h3, h4⟩, h5, h6, h7⟩ := hg
  obtain ⟨s1, s2, s3, s4, s5, s6⟩ := hs
  refine ⟨⟨?_, ?_, ?_, ?_⟩, ?_, ?_, ?_⟩ <;> simp only [s2, s3, s4, s5, s6] <;> assumption

/-- The parts of a segment that is split. -/
theorem TxSegment.split (hg : TxSegment g) (hs : IsSplit g a b) : TxSegment a ∧ TxSegment b := by
  obtain ⟨⟨h1, h2, h3, h4⟩, h5, -, -⟩ := hg
  obtain ⟨s1, s2, s3, s4, s5, s6, s7, -, s8, s9, s10, s11⟩ := hs
  refine ⟨⟨⟨by omega, by rw [s1]; omega, by rw [s8, s3, h3], by simp [s9]⟩, by rwa [s1],
      s4.le, fun _ => s4⟩,
    ⟨⟨by omega, by rw [s2]; omega, ?_, fun hl => ?_⟩, by rwa [s2], s6.le, fun _ => s6⟩⟩
  · rw [s10]
    simp only [Bool.false_eq_true, false_iff]
    omega
  · have hend := h4 (s11 ▸ hl)
    rw [s2]
    omega

/-! ## The segments of one SDU -/

@[simp] theorem ofSdu_append : ofSdu id (l ++ m) = ofSdu id l ++ ofSdu id m :=
  List.filter_append ..

theorem ofSdu_cons_self (hg : g.sdu.id = id) : ofSdu id (g :: l) = g :: ofSdu id l :=
  List.filter_cons_of_pos (by simpa using hg)

theorem ofSdu_cons_of_ne (hg : g.sdu.id ≠ id) : ofSdu id (g :: l) = ofSdu id l :=
  List.filter_cons_of_neg (by simpa using hg)

theorem ofSdu_eq_nil (h : ∀ g ∈ l, g.sdu.id ≠ id) : ofSdu id l = [] :=
  List.filter_eq_nil_iff.2 (by simpa using h)

/-- An SDU of which nothing is left in the TX list : each of its bytes has been sent, and once. -/
theorem Partitioned.sent {taken : List TakenSdu} {first txList : List NrRlcSduSegment}
    (h : Partitioned taken first txList) {t : TakenSdu} (ht : t ∈ taken) (hne : t.2 ≠ [])
    (hleft : ofSdu t.1 txList = []) :
    (∀ i, (∃ g ∈ ofSdu t.1 first, g.so ≤ i ∧ i < g.so + g.size) ↔ 0 ≤ i ∧ i < t.2.length) ∧
      (ofSdu t.1 first).Pairwise fun a b => a.so + a.size ≤ b.so := by
  have htile := (h t ht hne).1
  rw [ofSdu_append, hleft, List.append_nil] at htile
  exact ⟨htile.covers_iff, htile.pairwise⟩

/-! ## What is done to the TX list -/

/-- The history fits the TX list. -/
structure TxLogInv (n : Nat) (taken : List TakenSdu) (first txList : List NrRlcSduSegment) :
    Prop where
  id_nodup : (txList.map (·.sdu.id)).Nodup
  tx_taken : ∀ g ∈ txList, (g.sdu.id, g.sdu.data) ∈ taken
  taken_nodup : (taken.map Prod.fst).Nodup
  taken_lt : ∀ t ∈ taken, t.1 < n
  first_lt : ∀ g ∈ first, g.sdu.id < n
  segment : ∀ g ∈ txList, TxSegment g
  partitioned : Partitioned taken first txList

namespace TxLogInv

variable {taken : List TakenSdu} {first rest before after : List NrRlcSduSegment}

theorem nil (n : Nat) : TxLogInv n [] [] [] :=
  ⟨by simp, by simp, by simp, by simp, by simp, by simp, by simp [Partitioned]⟩

/-- A new SDU at the end of the list. -/
theorem take (h : TxLogInv n taken first l) {addr : Nat} {buffer : List UInt8} {sduId : Int}
    (hsize : (buffer.length : Int) ≤ nrSduMax) :
    TxLogInv (n + 1) (taken ++ [(n, buffer)]) first
      (l ++ [nrRlcNewSdu n addr buffer sduId]) := by
  have hold : ∀ g ∈ l, g.sdu.id < n := fun g hg => h.taken_lt _ (h.tx_taken g hg)
  refine ⟨?_, ?_, ?_, ?_, fun g hg => (h.first_lt g hg).trans (Nat.lt_succ_self n), ?_, ?_⟩
  · rw [List.map_append, List.nodup_append']
    refine ⟨h.id_nodup, by simp, ?_⟩
    simp only [List.map_cons, List.map_nil, List.disjoint_singleton, List.mem_map, not_exists,
      not_and]
    exact fun g hg => Nat.ne_of_lt (hold g hg)
  · intro g hg
    rcases List.mem_append.1 hg with hg | hg
    · exact List.mem_append_left _ (h.tx_taken g hg)
    · rw [List.mem_singleton.1 hg]
      exact List.mem_append_right _ (by simp [nrRlcNewSdu])
  · rw [List.map_append, List.nodup_append']
    refine ⟨h.taken_nodup, by simp, ?_⟩
    simp only [List.map_cons, List.map_nil, List.disjoint_singleton, List.mem_map, not_exists,
      not_and]
    exact fun t ht => Nat.ne_of_lt (h.taken_lt t ht)
  · intro t ht
    rcases List.mem_append.1 ht with ht | ht
    · exact (h.taken_lt t ht).trans (Nat.lt_succ_self n)
    · rw [List.mem_singleton.1 ht]
      exact Nat.lt_succ_self n
  · intro g hg
    rcases List.mem_append.1 hg with hg | hg
    · exact h.segment g hg
    · rw [List.mem_singleton.1 hg]
      exact txSegment_nrRlcNewSdu hsize
  · intro t ht hne
    rw [← List.append_assoc, ofSdu_append]
    rcases List.mem_append.1 ht with ht | ht
    · have hnew : ofSdu t.1 [nrRlcNewSdu n addr buffer sduId] = [] :=
        ofSdu_eq_nil (by simpa [nrRlcNewSdu] using (Nat.ne_of_lt (h.taken_lt t ht)).symm)
      rw [hnew, List.append_nil]
      exact h.partitioned t ht hne
    · obtain rfl := List.mem_singleton.1 ht
      have hnone : ofSdu n (first ++ l) = [] := ofSdu_eq_nil fun g hg => by
        rcases List.mem_append.1 hg with hg | hg
        · exact Nat.ne_of_lt (h.first_lt g hg)
        · exact Nat.ne_of_lt (hold g hg)
      have hself : ofSdu n [nrRlcNewSdu n addr buffer sduId] =
          [nrRlcNewSdu n addr buffer sduId] := ofSdu_cons_self rfl
      have hpos := List.length_pos_of_ne_nil hne
      show TilesBytes 0 (ofSdu n (first ++ l) ++ ofSdu n [_]) _ ∧
        ∀ g ∈ ofSdu n (first ++ l) ++ ofSdu n [_], g.sdu.data = buffer
      rw [hnone, List.nil_append, hself]
      refine ⟨⟨rfl, ?_, ?_⟩, by simp [nrRlcNewSdu]⟩
      · simpa [nrRlcNewSdu] using hpos
      · simp [nrRlcNewSdu, Tiles]

/-- The head of the list is replaced by what is sent, in first, and what is left. -/
theorem replaceHead (h : TxLogInv n taken first (g :: rest)) (sent left : List NrRlcSduSegment)
    (hsdu : ∀ x ∈ sent ++ left, x.sdu.id = g.sdu.id ∧ x.sdu.data = g.sdu.data)
    (hleft : left = [] ∨ ∃ b, left = [b] ∧ TxSegment b)
    (htiles : g.sdu.data ≠ [] → ∀ c d,
      TilesBytes c [g] d → TilesBytes c (sent ++ left) d) :
    TxLogInv n taken (first ++ sent) (left ++ rest) := by
  have hg := h.tx_taken g (by simp)
  obtain ⟨hhead, htail⟩ := List.nodup_cons.1 h.id_nodup
  have hrest : ∀ x ∈ rest, x.sdu.id ≠ g.sdu.id := fun x hx heq =>
    hhead (List.mem_map.2 ⟨x, hx, heq⟩)
  refine ⟨?_, ?_, h.taken_nodup, h.taken_lt, ?_, ?_, ?_⟩
  · rcases hleft with rfl | ⟨b, rfl, -⟩
    · exact htail
    · refine List.nodup_cons.2 ⟨?_, htail⟩
      show b.sdu.id ∉ rest.map (·.sdu.id)
      rw [(hsdu b (by simp)).1]
      exact hhead
  · intro x hx
    rcases List.mem_append.1 hx with hx | hx
    · obtain ⟨hid, hdata⟩ := hsdu x (List.mem_append_right _ hx)
      rwa [hid, hdata]
    · exact h.tx_taken x (by simp [hx])
  · intro x hx
    rcases List.mem_append.1 hx with hx | hx
    · exact h.first_lt x hx
    · rw [(hsdu x (List.mem_append_left _ hx)).1]
      exact h.taken_lt _ hg
  · intro x hx
    rcases List.mem_append.1 hx with hx | hx
    · rcases hleft with rfl | ⟨b, rfl, hb⟩
      · simp at hx
      · rwa [List.mem_singleton.1 hx]
    · exact h.segment x (by simp [hx])
  · intro t ht hne
    have hold := h.partitioned t ht hne
    rw [ofSdu_append] at hold
    have hmid : first ++ sent ++ (left ++ rest) = first ++ ((sent ++ left) ++ rest) := by simp
    rw [hmid, ofSdu_append, ofSdu_append]
    by_cases hid : g.sdu.id = t.1
    · have hsame : ofSdu t.1 (sent ++ left) = sent ++ left :=
        List.filter_eq_self.2 fun x hx => by simpa [(hsdu x hx).1] using hid
      have hnone : ofSdu t.1 rest = [] :=
        ofSdu_eq_nil fun x hx heq => hrest x hx (heq.trans hid.symm)
      rw [ofSdu_cons_self hid, hnone] at hold
      rw [hsame, hnone, List.append_nil]
      obtain ⟨htile, hdata⟩ := hold
      have hgdata : g.sdu.data = t.2 := hdata g (by simp)
      obtain ⟨c, h1, h2⟩ := tiles_append.1 htile
      refine ⟨tiles_append.2 ⟨c, h1, htiles (hgdata ▸ hne) c _ h2⟩, fun x hx => ?_⟩
      rcases List.mem_append.1 hx with hx | hx
      · exact hdata x (by simp [hx])
      · exact (hsdu x hx).2.trans hgdata
    · have hnone : ofSdu t.1 (sent ++ left) = [] :=
        ofSdu_eq_nil fun x hx heq => hid ((hsdu x hx).1.symm.trans heq)
      rw [ofSdu_cons_of_ne hid] at hold
      rw [hnone, List.nil_append]
      exact hold

/-- The head of the list is sent whole. -/
theorem sendWhole (h : TxLogInv n taken first (g :: rest)) (hs : SameBytes g a) :
    TxLogInv n taken (first ++ [a]) rest :=
  h.replaceHead [a] [] (by simp [hs.id_eq, hs.data_eq]) (.inl rfl)
    fun _ c d htile => (tiles_cons_congr hs.so_eq hs.size_eq).2 htile

/-- The head of the list is sent in part. -/
theorem sendPart (h : TxLogInv n taken first (g :: rest)) {g' : NrRlcSduSegment}
    (hs : SameBytes g g') (hsplit : IsSplit g' a b) :
    TxLogInv n taken (first ++ [a]) (b :: rest) := by
  have hb : TxSegment b := (((h.segment g (by simp)).congr hs).split hsplit).2
  refine h.replaceHead [a] [b] ?_ (.inr ⟨b, rfl, hb⟩) fun _ c d htile => ?_
  · intro x hx
    have hsdu : x.sdu = g'.sdu := by
      rcases List.mem_append.1 hx with hx | hx
      · rw [List.mem_singleton.1 hx, hsplit.head_sdu]
      · rw [List.mem_singleton.1 hx, hsplit.next_sdu]
    rw [hsdu]
    exact ⟨hs.id_eq, hs.data_eq⟩
  · refine (tiles_cons_split (x := g') hsplit.head_so hsplit.head_size hsplit.next_size ?_
      hsplit.size_eq).2 ((tiles_cons_congr hs.so_eq hs.size_eq).2 htile)
    rw [hsplit.next_so, hsplit.head_so]

/-- A segment is discarded, and its SDU with it. -/
theorem discard (h : TxLogInv n taken first (before ++ g :: after)) :
    TxLogInv n (dropDiscarded (before ++ g :: after) (before ++ after) taken) first
      (before ++ after) := by
  have hsub : (before ++ after).Sublist (before ++ g :: after) :=
    (List.sublist_cons_self g after).append_left before
  have hother : ∀ x ∈ before ++ after, x.sdu.id ≠ g.sdu.id := by
    have hperm : (List.map (fun g => g.sdu.id) (before ++ g :: after)).Perm
        (g.sdu.id :: (before ++ after).map (·.sdu.id)) := by
      simp
    intro x hx heq
    exact (List.nodup_cons.1 (hperm.nodup_iff.1 h.id_nodup)).1 (List.mem_map.2 ⟨x, hx, heq⟩)
  have hmem : ∀ t, t ∈ dropDiscarded (before ++ g :: after) (before ++ after) taken →
      t ∈ taken ∧ t.1 ≠ g.sdu.id := by
    intro t ht
    obtain ⟨ht, hkeep⟩ := List.mem_filter.1 ht
    refine ⟨ht, fun heq => ?_⟩
    have hkeep' := of_decide_eq_true hkeep
    refine hkeep' ⟨List.mem_map.2 ⟨g, by simp, heq.symm⟩, fun hin => ?_⟩
    obtain ⟨x, hx, hx'⟩ := List.mem_map.1 hin
    exact hother x hx (hx'.trans heq)
  refine ⟨h.id_nodup.sublist (hsub.map _), fun x hx => ?_,
    h.taken_nodup.sublist (List.filter_sublist.map _), fun t ht => h.taken_lt t (hmem t ht).1,
    h.first_lt, fun x hx => h.segment x (hsub.subset hx), fun t ht hne => ?_⟩
  · refine List.mem_filter.2 ⟨h.tx_taken x (hsub.subset hx), decide_eq_true fun hno => ?_⟩
    exact hno.2 (List.mem_map.2 ⟨x, hx, rfl⟩)
  · obtain ⟨ht, hid⟩ := hmem t ht
    have hold := h.partitioned t ht hne
    rw [ofSdu_append, ofSdu_append, ofSdu_cons_of_ne (Ne.symm hid), ← ofSdu_append] at hold
    rwa [ofSdu_append]

/-- An SDU of which nothing has been sent is taken off the list : its bytes are not sent. -/
theorem not_partitioned_of_drop (h : TxLogInv n taken first (g :: rest)) (hso : g.so = 0)
    (hne : g.sdu.data ≠ []) : ¬Partitioned taken first rest := by
  intro hpart
  have hg := h.tx_taken g (by simp)
  have hhead := (List.nodup_cons.1 h.id_nodup).1
  have hnone : ofSdu g.sdu.id rest = [] := ofSdu_eq_nil fun x hx heq =>
    hhead (List.mem_map.2 ⟨x, hx, heq⟩)
  have hold := (h.partitioned _ hg hne).1
  have hnew := (hpart _ hg hne).1
  simp only [ofSdu_append, hnone, List.append_nil, ofSdu_cons_self rfl] at hold hnew
  obtain ⟨c, hfirst, hlo, hpos, hend⟩ := tiles_append.1 hold
  have heq := hnew.end_unique hfirst
  have hend' : c + g.size = g.sdu.data.length := hend
  omega

end TxLogInv

end NrStack
