import NrStack.Coding.PolarPattern

/-!
# The information bits of a polar code

The arrays of `nr_polar_info_bit_pattern` are large enough for the codes that `nr_polar_params` sets
up (`length_polarFrozen_le`). Puncturing leaves enough bits unfrozen, and shortening as many as are
sent (`room_iff`). So the patterns are right if the information and parity check bits fit into the
code and into what is sent, and no parity check bit is chosen by its weight (`infoBitPattern_iff`).
Otherwise `Q_Itmp_N` is read in front of its start, or an assertion fails.
-/

namespace NrStack

/-! ## Frozen bits -/

/-- `J`. -/
def polarJ (N : ℕ) : ℕ → ℕ :=
  blockInterleave nrPolarSubblockInterleaverPattern (N / 32)

/-- The bits that rate matching freezes, in 38.212, 5.4.1.1. -/
def RateMatchingFrozen (K N E j : ℕ) : Prop :=
  E < N ∧
    if (K / E : ℚ) ≤ 7 / 16 then
      (∃ n < N - E, j = polarJ N n) ∨
        if (E : ℚ) ≥ 3 * N / 4 then j < ⌈(3 * N / 4 - E / 2 : ℚ)⌉₊
        else j < ⌈(9 * N / 16 - E / 4 : ℚ)⌉₊
    else ∃ n, E ≤ n ∧ n < N ∧ j = polarJ N n

/-- The first bits that are frozen beside the punctured ones. -/
def frozenLimit (N E : ℕ) : ℕ :=
  if 3 * N ≤ 4 * E then (3 * N - 2 * E + 3) / 4 else (9 * N - 4 * E + 15) / 16

/-- `Q_Ftmp_N`, in order and with repetitions. -/
def polarFrozen (K N E : ℕ) : List ℕ :=
  if E < N then
    if 16 * K ≤ 7 * E then (List.range (N - E)).map (polarJ N) ++ List.range (frozenLimit N E)
    else (List.range' E (N - E)).map (polarJ N)
  else []

theorem ceil_natCast_div (m : ℕ) {k : ℕ} (hk : 0 < k) : ⌈(m / k : ℚ)⌉₊ = (m + k - 1) / k := by
  refine eq_of_forall_ge_iff fun c => ?_
  rw [Nat.ceil_le, div_le_iff₀ (by exact_mod_cast hk), ← Nat.cast_mul, Nat.cast_le,
    Nat.div_le_iff_le_mul hk]
  omega

theorem low_rate_iff {K E : ℕ} (hE : 0 < E) : (K / E : ℚ) ≤ 7 / 16 ↔ 16 * K ≤ 7 * E := by
  rw [div_le_div_iff₀ (by exact_mod_cast hE) (by norm_num), mul_comm (K : ℚ)]
  exact_mod_cast Iff.rfl

theorem three_quarters_iff {N E : ℕ} (hN : 0 < N) : (E / N : ℚ) ≥ 3 / 4 ↔ 3 * N ≤ 4 * E := by
  rw [ge_iff_le, div_le_div_iff₀ (by norm_num) (by exact_mod_cast hN), mul_comm (E : ℚ)]
  exact_mod_cast Iff.rfl

theorem limit_eq {N E : ℕ} (h : E < N) :
    (if (E / N : ℚ) ≥ 3 / 4 then ⌈(3 * N - 2 * E : ℚ) / 4⌉₊ else ⌈(9 * N - 4 * E : ℚ) / 16⌉₊) =
      frozenLimit N E := by
  have hthree : (3 * N - 2 * E : ℚ) / 4 = ((3 * N - 2 * E : ℕ) : ℚ) / (4 : ℕ) := by
    rw [Nat.cast_sub (by omega)]
    push_cast
    rfl
  have hnine : (9 * N - 4 * E : ℚ) / 16 = ((9 * N - 4 * E : ℕ) : ℚ) / (16 : ℕ) := by
    rw [Nat.cast_sub (by omega)]
    push_cast
    rfl
  rw [hthree, hnine, ceil_natCast_div _ (by omega), ceil_natCast_div _ (by omega), frozenLimit]
  simp only [three_quarters_iff (Nat.zero_lt_of_lt h)]
  rfl

/-- The list has the bits of the standard. -/
theorem mem_polarFrozen_iff {K N E j : ℕ} (hE : 0 < E) :
    j ∈ polarFrozen K N E ↔ RateMatchingFrozen K N E j := by
  unfold polarFrozen RateMatchingFrozen
  by_cases hlt : E < N
  · have hlimit : (if (E : ℚ) ≥ 3 * N / 4 then j < ⌈(3 * N / 4 - E / 2 : ℚ)⌉₊
        else j < ⌈(9 * N / 16 - E / 4 : ℚ)⌉₊) ↔ j < frozenLimit N E := by
      have hcase : (E : ℚ) ≥ 3 * N / 4 ↔ (E / N : ℚ) ≥ 3 / 4 := by
        rw [ge_iff_le, ge_iff_le, le_div_iff₀ (by exact_mod_cast Nat.zero_lt_of_lt hlt)]
        ring_nf
      have hthree : (3 * N / 4 - E / 2 : ℚ) = (3 * N - 2 * E) / 4 := by ring
      have hnine : (9 * N / 16 - E / 4 : ℚ) = (9 * N - 4 * E) / 16 := by ring
      rw [← limit_eq hlt, hthree, hnine]
      simp only [hcase]
      split_ifs <;> rfl
    simp only [hlt, if_true, true_and, low_rate_iff hE, hlimit]
    split_ifs
    · simp only [List.mem_append, List.mem_map, List.mem_range, eq_comm (a := j)]
    · simp only [List.mem_map, List.mem_range'_1, eq_comm (a := j)]
      constructor
      · rintro ⟨n, hn, rfl⟩
        exact ⟨n, hn.1, by omega, rfl⟩
      · rintro ⟨n, hn, hN, rfl⟩
        exact ⟨n, by omega, rfl⟩
  · simp [hlt]

/-! ## The arrays -/

variable {K N E : ℕ}

theorem polarJ_lt (hN : 32 ∣ N) {m : ℕ} (hm : m < N) : polarJ N m < N := by
  have hfront : ∀ i < 32, nrPolarSubblockInterleaverPattern.getD i 0 < 32 := by decide
  have hblocks : 32 * (N / 32) = N := Nat.mul_div_cancel' hN
  have hlt := blockInterleave_lt hfront (b := N / 32) (m := m) (by rwa [hblocks])
  rwa [hblocks] at hlt

theorem polarJ_injOn (hN : 32 ∣ N) : Set.InjOn (polarJ N) (Set.Iio N) := by
  have hinj := blockInterleave_injOn (p := nrPolarSubblockInterleaverPattern) (b := N / 32)
    (by decide)
  have hblocks : nrPolarSubblockInterleaverPattern.length * (N / 32) = N := Nat.mul_div_cancel' hN
  rwa [hblocks] at hinj

/-- `J` is a block interleaver. -/
theorem rateMatchingPattern_snd (hN : 32 ∣ N) (K E : ℕ) :
    (nrPolarRateMatchingPattern nrPolarSubblockInterleaverPattern K N E).2 =
      (List.range N).map (polarJ N) := by
  obtain ⟨b, rfl⟩ := hN
  refine List.map_congr_left fun m _ => ?_
  rw [polarJ, blockInterleave, Nat.mul_div_mul_left _ _ (by omega),
    Nat.mul_div_cancel_left _ (by omega)]

/-- Puncturing leaves room in the array, where more than half of the code is sent. -/
theorem length_polarFrozen_le (h : N < 2 * E) : (polarFrozen K N E).length ≤ N := by
  unfold polarFrozen frozenLimit
  split_ifs <;> simp <;> omega

/-- `Q_Ftmp_N` keeps the frozen bits. -/
theorem tally_qFtmpN (hN : 32 ∣ N) (hE : N < 2 * E) :
    ∃ a, qFtmpN (((List.range N).map (polarJ N)).map Nat.cast) K N E = .ok a ∧
      Tally N a ((polarFrozen K N E).map Nat.cast) := by
  have hroom := length_polarFrozen_le (K := K) hE
  have hfetch : ∀ n < N, fetch (((List.range N).map (polarJ N)).map Nat.cast) n =
      .ok (polarJ N n) := fun n hn => fetch_eq (by simp [hn])
  have hpush : ∀ n < N, ∀ a, (do
      tallyPush N a (← fetch (((List.range N).map (polarJ N)).map Nat.cast) n)) =
      tallyPush N a (polarJ N n) := fun n hn a => by
    rw [hfetch n hn]
    rfl
  unfold qFtmpN
  unfold polarFrozen at hroom ⊢
  by_cases hlt : E < N
  · simp only [if_pos hlt, low_rate_iff (show 0 < E by omega), limit_eq hlt] at hroom ⊢
    split_ifs at hroom ⊢ with hlow
    · rw [List.length_append, List.length_map, List.length_range, List.length_range] at hroom
      obtain ⟨a₁, hloop₁, h₁⟩ := (Tally.empty N).pushAll (f := fun n => (polarJ N n : ℤ))
        (List.range (N - E)) (fun n hn a => hpush n (by
          have hn := List.mem_range.1 hn
          omega) a) (by
            rw [List.length_nil, List.length_range]
            omega)
      obtain ⟨a₂, hloop₂, h₂⟩ := h₁.pushAll (f := fun n : ℕ => (n : ℤ))
        (List.range (frozenLimit N E)) (fun n _ a => rfl) (by
          simpa using hroom)
      refine ⟨a₂, ?_, ?_⟩
      · rw [hloop₁]
        exact hloop₂
      · simpa [Function.comp_def] using h₂
    · rw [List.length_map, List.length_range'] at hroom
      obtain ⟨a, hloop, h⟩ := (Tally.empty N).pushAll (f := fun n => (polarJ N n : ℤ))
        (List.range' E (N - E)) (fun n hn a => hpush n (by
          have hn := List.mem_range'_1.1 hn
          omega) a) (by
            rw [List.length_nil, List.length_range']
            omega)
      refine ⟨a, hloop, ?_⟩
      simpa [Function.comp_def] using h
  · rw [if_neg hlt, if_neg hlt]
    exact ⟨_, rfl, Tally.empty N⟩

/-- The elements of a list, one after the other. -/
theorem map_range_getD {α : Type*} (l : List α) (d : α) :
    (List.range l.length).map (l.getD · d) = l := by
  refine List.ext_getElem (by simp) fun i hi _ => ?_
  have hlt : i < l.length := by simpa using hi
  simp [List.getD_eq_getElem?_getD, hlt]

/-- A loop over the reliability sequence. -/
theorem tally_sequence {q0 a₀ : List ℤ} (hq : q0.length = N) (h₀ : Tally N a₀ [])
    (skip : ℤ → Bool) (step : List ℤ → ℕ → Except ArrayFault (List ℤ))
    (hstep : ∀ (n : ℕ) v a, fetch q0 n = .ok v →
      step a n = if skip v then .ok a else tallyPush N a v) :
    ∃ a, (List.range N).foldlM step a₀ = .ok a ∧ Tally N a (q0.filter fun v => !skip v) := by
  have hread : ∀ n ∈ List.range N, ∀ a, step a n =
      if skip (q0.getD n 0) then .ok a else tallyPush N a (q0.getD n 0) := by
    intro n hn a
    have hlt : n < q0.length := hq ▸ List.mem_range.1 hn
    exact hstep n _ a (fetch_eq (by simp [List.getD_eq_getElem?_getD, hlt]))
  obtain ⟨a, hloop, h⟩ := h₀.pushUnless (List.range N) hread (by simp)
  refine ⟨a, hloop, ?_⟩
  have hmap : ((List.range N).filter fun n => !skip (q0.getD n 0)).map (q0.getD · 0) =
      q0.filter fun v => !skip v := by
    conv_rhs => rw [← map_range_getD q0 0, hq, List.filter_map]
    rfl
  rwa [hmap, List.nil_append] at h

/-- `Q_Itmp_N` keeps what is not frozen. -/
theorem tally_qItmpN {a f q0 : List ℤ} (h : Tally N a f) (hq : q0.length = N) :
    ∃ a', qItmpN a q0 N = .ok a' ∧ Tally N a' (q0.filter (· ∉ f)) := by
  obtain ⟨a', hloop, h'⟩ := tally_sequence hq (Tally.empty N) (fun v => decide (v ∈ f))
    (fun acc n => do
      let v ← fetch q0 n
      if ← tallySearch N a v then return acc else tallyPush N acc v)
    (fun n v acc hv => by
      rw [hv]
      simp only [bind, Except.bind, h.search]
      rfl)
  refine ⟨a', hloop, ?_⟩
  simpa using h'

/-- `Q_I_N` has the last elements, if there are enough. -/
theorem qIN_eq {a l : List ℤ} {k : ℕ} (h : Tally N a l) (hk : k ≤ l.length) :
    qIN a N k = .ok (l.drop (l.length - k)) := by
  have hdrop : (List.range k).map (fun n => l.getD (l.length - k + n) 0) =
      l.drop (l.length - k) := by
    refine List.ext_getElem (by simp; omega) fun i hi _ => ?_
    have hlt : l.length - k + i < l.length := by
      have hik : i < k := by simpa using hi
      omega
    simp [List.getD_eq_getElem?_getD, hlt]
  rw [← hdrop]
  refine mapM_eq_map fun n hn => ?_
  have hlt : l.length - k + n < l.length := by
    have hnk := List.mem_range.1 hn
    omega
  have hind : ((l.length : ℤ) - 1 + n - (k - 1)) = (l.length - k + n : ℕ) := by omega
  simp only [h.fetch_last, bind, Except.bind, hind, h.fetch_of_lt hlt]
  rw [List.getD_eq_getElem?_getD, List.getElem?_eq_getElem hlt, Option.getD_some]

/-- Otherwise the first index is negative. -/
theorem qIN_error {a l : List ℤ} {k : ℕ} (h : Tally N a l) (hk : l.length < k) :
    qIN a N k = .error .outOfBounds := by
  obtain ⟨k, rfl⟩ := Nat.exists_eq_succ_of_ne_zero (Nat.ne_zero_of_lt hk)
  have hind : ((l.length : ℤ) - 1 + (0 : ℕ) - ((k + 1 : ℕ) - 1)) < 0 := by omega
  rw [qIN, List.range_succ_eq_map, List.mapM_cons]
  simp only [h.fetch_last, bind, Except.bind]
  rw [fetch_neg a hind]

/-- `Q_PC_N` has the first elements. -/
theorem qPCN_eq {qI : List ℤ} {nPc nPcWm : ℕ} (h : nPc = 0 ∨ nPcWm = 0)
    (hn : nPc ≤ qI.length) : qPCN qI nPc nPcWm = .ok (qI.take nPc) := by
  unfold qPCN
  split_ifs with hpos hwm
  · have htake : (List.range nPc).map (qI.getD · 0) = qI.take nPc := by
      refine List.ext_getElem (by simp [hn]) fun i hi _ => ?_
      have hlt : i < qI.length := by
        have hin : i < nPc := by simpa using hi
        omega
      simp [List.getD_eq_getElem?_getD, hlt]
    rw [← htake, hwm]
    refine mapM_eq_map fun n hn => fetch_eq ?_
    have hlt : n < qI.length := by
      have hnk := List.mem_range.1 hn
      omega
    simp [List.getD_eq_getElem?_getD, hlt]
  · exact absurd h (by omega)
  · rw [Nat.eq_zero_of_not_pos hpos, List.take_zero]

theorem qPCN_error (qI : List ℤ) {nPc nPcWm : ℕ} (h : ¬(nPc = 0 ∨ nPcWm = 0)) :
    qPCN qI nPc nPcWm = .error .assertion := by
  unfold qPCN
  rw [if_pos (by omega), if_neg (by omega)]

/-! ## Counts -/

/-- Puncturing, where the first `k` blocks stay in front and are among the first bits. -/
theorem card_punctured_le {b k : ℕ}
    (hfront : ∀ i < k, nrPolarSubblockInterleaverPattern.getD i 0 < k) {limit : ℕ}
    (hk : k * b ≤ limit) (m : ℕ) :
    ((List.range m).map (polarJ (32 * b)) ++ List.range limit).toFinset.card ≤
      limit + (m - k * b) := by
  have hJ : polarJ (32 * b) = blockInterleave nrPolarSubblockInterleaverPattern b := by
    rw [polarJ, Nat.mul_div_cancel_left b (by omega)]
  have hsub : ((List.range m).map (polarJ (32 * b)) ++ List.range limit).toFinset ⊆
      Finset.range limit ∪ (Finset.Ico (k * b) m).image (polarJ (32 * b)) := by
    intro j hj
    rw [List.mem_toFinset, List.mem_append, List.mem_map, List.mem_range] at hj
    rw [Finset.mem_union, Finset.mem_range, Finset.mem_image]
    rcases hj with ⟨n, hn, rfl⟩ | hj
    · by_cases hblock : n < k * b
      · have hlt := blockInterleave_lt hfront hblock
        rw [← hJ] at hlt
        exact .inl (hlt.trans_le hk)
      · exact .inr ⟨n, Finset.mem_Ico.2 ⟨not_lt.1 hblock, List.mem_range.1 hn⟩, rfl⟩
    · exact .inl hj
  refine (Finset.card_le_card hsub).trans ((Finset.card_union_le _ _).trans ?_)
  have himage : ((Finset.Ico (k * b) m).image (polarJ (32 * b))).card ≤ m - k * b :=
    Finset.card_image_le.trans (Nat.card_Ico _ _).le
  rw [Finset.card_range]
  omega

/-- The bits that are not frozen suffice exactly if the code and the rate matching have room. -/
theorem room_iff {q : List ℕ} {nPc : ℕ} (hN : 32 ∣ N) (hE : N < 2 * E) (hPc : nPc ≤ 3)
    (hq : q.Perm (List.range N)) :
    K + nPc ≤ (q.filter (· ∉ polarFrozen K N E)).length ↔ K + nPc ≤ min N E := by
  have hlen : q.length = N := hq.length_eq.trans List.length_range
  have hall : ∀ f : List ℕ, (∀ j ∈ f, j < N) → q.toFinset ∩ f.toFinset = f.toFinset := by
    intro f hf
    refine Finset.inter_eq_right.2 fun j hj => ?_
    rw [List.mem_toFinset] at hj ⊢
    exact hq.mem_iff.2 (List.mem_range.2 (hf j hj))
  have hcount := length_filter_not_mem (hq.nodup_iff.2 List.nodup_range) (polarFrozen K N E)
  rw [hlen] at hcount
  generalize hfree : (q.filter (· ∉ polarFrozen K N E)).length = free at hcount ⊢
  unfold polarFrozen at hcount
  split_ifs at hcount with hlt hlow
  · -- puncturing : the first blocks stay in front, where the bits are frozen anyway
    have hinter : ∀ f : Finset ℕ, (q.toFinset ∩ f).card ≤ f.card := fun f =>
      Finset.card_le_card Finset.inter_subset_right
    replace hinter := hinter
      ((List.range (N - E)).map (polarJ N) ++ List.range (frozenLimit N E)).toFinset
    obtain ⟨b, rfl⟩ := hN
    by_cases hhigh : 3 * (32 * b) ≤ 4 * E
    · have hlimit : frozenLimit (32 * b) E = (3 * (32 * b) - 2 * E + 3) / 4 := if_pos hhigh
      have hcard := card_punctured_le (k := 8) (by decide) (b := b)
        (show 8 * b ≤ frozenLimit (32 * b) E by omega) (32 * b - E)
      omega
    · have hlimit : frozenLimit (32 * b) E = (9 * (32 * b) - 4 * E + 15) / 16 := if_neg hhigh
      have hcard := card_punctured_le (k := 9) (by decide) (b := b)
        (show 9 * b ≤ frozenLimit (32 * b) E by omega) (32 * b - E)
      omega
  · -- shortening
    rw [hall _ (by
      intro j hj
      obtain ⟨n, hn, rfl⟩ := List.mem_map.1 hj
      have hn := List.mem_range'_1.1 hn
      exact polarJ_lt hN (by omega))] at hcount
    rw [List.toFinset_card_of_nodup, List.length_map, List.length_range'] at hcount
    · omega
    · refine (List.nodup_range' 1).map_on fun m hm n hn h => ?_
      have hm := List.mem_range'_1.1 hm
      have hn := List.mem_range'_1.1 hn
      exact polarJ_injOn hN (show m < N by omega) (show n < N by omega) h
  · rw [List.toFinset_nil, Finset.inter_empty, Finset.card_empty] at hcount
    omega

/-! ## The patterns -/

/-- The patterns have `K + nPc` information bits, and none of them is frozen by rate matching. -/
structure IsInfoBitPattern (K N E nPc : ℕ) (p : PolarPatterns) : Prop where
  length_ibp : p.ibp.length = N
  count_ibp : p.ibp.count 1 = K + nPc
  ibp_iff : ∀ j < N, p.ibp[j]? = some 1 ↔ (j : ℤ) ∈ p.qI
  partition : ∃ frozen, Tally N p.qF frozen ∧
    (p.qI ++ frozen).Perm ((List.range N).map Nat.cast)
  not_frozen : ∀ j : ℕ, (j : ℤ) ∈ p.qI → ¬RateMatchingFrozen K N E j

theorem natCast_mem_map_iff {n : ℕ} {s : List ℕ} :
    (n : ℤ) ∈ (s.map Nat.cast : List ℤ) ↔ n ∈ s :=
  List.mem_map_of_injective Nat.cast_injective

theorem filter_not_mem_map_cast (q f : List ℕ) :
    ((q.map Nat.cast : List ℤ).filter (· ∉ (f.map Nat.cast : List ℤ))) =
      (q.filter (· ∉ f)).map Nat.cast := by
  rw [List.filter_map]
  congr 1
  refine List.filter_congr fun j _ => ?_
  simp only [Function.comp_apply, natCast_mem_map_iff]

/-- The selection is marked. -/
theorem count_marks {s : List ℕ} (hs : s.Nodup) (hsub : s ⊆ List.range N) :
    ((List.range N).map fun n : ℕ =>
      if (n : ℤ) ∈ (s.map Nat.cast : List ℤ) then (1 : UInt8) else 0).count 1 = s.length := by
  have hmark : ∀ n : ℕ, ((if (n : ℤ) ∈ (s.map Nat.cast : List ℤ) then (1 : UInt8) else 0) == 1) =
      decide (n ∈ s) := by
    intro n
    simp only [natCast_mem_map_iff]
    split_ifs with hmem <;> simp [hmem]
  rw [List.count_eq_countP, List.countP_map, List.countP_eq_length_filter]
  simp only [Function.comp_def, hmark]
  exact (filter_mem_perm List.nodup_range hs hsub).length_eq

variable {q : List ℕ} {nPc nPcWm : ℕ}

/-- With room, and no parity check bit chosen by its weight, the patterns are right. -/
theorem infoBitPattern_ok (hN : 32 ∣ N) (hE : N < 2 * E) (hPc : nPc ≤ 3)
    (hq : q.Perm (List.range N)) (hroom : K + nPc ≤ min N E) (hwm : nPc = 0 ∨ nPcWm = 0) :
    ∃ p, nrPolarInfoBitPattern (List.replicate (N + 1) (-1))
      (((List.range N).map (polarJ N)).map Nat.cast) (q.map Nat.cast) K N E nPc nPcWm = .ok p ∧
      IsInfoBitPattern K N E nPc p := by
  have hlen : (q.map Nat.cast : List ℤ).length = N := by
    rw [List.length_map, hq.length_eq, List.length_range]
  have hnodup : q.Nodup := hq.nodup_iff.2 List.nodup_range
  obtain ⟨qFtmp, hFtmp, hfrozen⟩ := tally_qFtmpN (K := K) hN hE
  obtain ⟨qItmp, hItmp, hfree⟩ := tally_qItmpN hfrozen hlen
  rw [filter_not_mem_map_cast] at hfree
  have hk := (room_iff hN hE hPc hq).2 hroom
  set s := selectLast q (polarFrozen K N E) (K + nPc) with hs
  have hslen : s.length = K + nPc := length_selectLast hk
  have hsub : s.Sublist q := selectLast_sublist _ _ _
  have hI : qIN qItmp N (K + nPc) = .ok (s.map Nat.cast) := by
    rw [qIN_eq hfree (by rwa [List.length_map]), ← List.map_drop, List.length_map]
    rfl
  have hPC : qPCN (s.map Nat.cast) nPc nPcWm = .ok ((s.map Nat.cast).take nPc) :=
    qPCN_eq hwm (by
      rw [List.length_map, hslen]
      omega)
  obtain ⟨qF, hF, hrest⟩ := tally_sequence hlen (Tally.empty N)
    (fun v => decide (v ∈ (s.map Nat.cast : List ℤ))) (fun a n => do
      let toCmp ← fetch (q.map Nat.cast) n
      if toCmp ∈ (s.map Nat.cast : List ℤ) then return a else tallyPush N a toCmp)
    (fun n v a hv => by
      rw [hv]
      simp only [bind, Except.bind, decide_eq_true_iff]
      rfl)
  have hsnodup : (s.map Nat.cast : List ℤ).Nodup :=
    (hsub.nodup hnodup).map Nat.cast_injective
  have hcall : nrPolarInfoBitPattern (List.replicate (N + 1) (-1))
      (((List.range N).map (polarJ N)).map Nat.cast) (q.map Nat.cast) K N E nPc nPcWm = .ok
      ⟨(List.range N).map fun n : ℕ => if (n : ℤ) ∈ (s.map Nat.cast : List ℤ) then 1 else 0,
        (List.range N).map fun n : ℕ =>
          if (n : ℤ) ∈ (s.map Nat.cast : List ℤ).take nPc then 1 else 0,
        s.map Nat.cast, qF, (s.map Nat.cast : List ℤ).take nPc⟩ := by
    unfold nrPolarInfoBitPattern
    simp only [hFtmp, hItmp, hI, hPC, bind, Except.bind]
    simp only [bind, Except.bind] at hF
    rw [hF]
    rfl
  refine ⟨_, hcall, ?_⟩
  constructor
  · rw [List.length_map, List.length_range]
  · rw [count_marks (hsub.nodup hnodup) (fun j hj => hq.subset (hsub.subset hj)), hslen]
  · intro j hj
    rw [List.getElem?_map, List.getElem?_range hj, Option.map_some, Option.some_inj]
    split_ifs with hmem <;> simp [hmem]
  · refine ⟨_, hrest, ?_⟩
    have hpart := append_filter_perm (hnodup.map Nat.cast_injective) (hsub.map (Nat.cast : ℕ → ℤ))
    simp only [decide_not] at hpart
    exact hpart.trans (hq.map _)
  · intro j hj hfrozen
    exact not_mem_of_mem_selectLast (natCast_mem_map_iff.1 hj)
      ((mem_polarFrozen_iff (by omega)).2 hfrozen)

/-- Otherwise there is a fault. -/
theorem infoBitPattern_fault (hN : 32 ∣ N) (hE : N < 2 * E) (hPc : nPc ≤ 3)
    (hq : q.Perm (List.range N)) (h : ¬(K + nPc ≤ min N E ∧ (nPc = 0 ∨ nPcWm = 0))) :
    ∃ fault, nrPolarInfoBitPattern (List.replicate (N + 1) (-1))
      (((List.range N).map (polarJ N)).map Nat.cast) (q.map Nat.cast) K N E nPc nPcWm =
      .error fault := by
  have hlen : (q.map Nat.cast : List ℤ).length = N := by
    rw [List.length_map, hq.length_eq, List.length_range]
  obtain ⟨qFtmp, hFtmp, hfrozen⟩ := tally_qFtmpN (K := K) hN hE
  obtain ⟨qItmp, hItmp, hfree⟩ := tally_qItmpN hfrozen hlen
  rw [filter_not_mem_map_cast] at hfree
  unfold nrPolarInfoBitPattern
  simp only [hFtmp, hItmp, bind, Except.bind]
  by_cases hroom : K + nPc ≤ (q.filter (· ∉ polarFrozen K N E)).length
  · have hwm : ¬(nPc = 0 ∨ nPcWm = 0) := fun hwm => h ⟨(room_iff hN hE hPc hq).1 hroom, hwm⟩
    refine ⟨.assertion, ?_⟩
    rw [qIN_eq hfree (by rwa [List.length_map])]
    simp only [qPCN_error _ hwm]
  · refine ⟨.outOfBounds, ?_⟩
    rw [qIN_error hfree (by rwa [List.length_map, ← not_le])]

theorem infoBitPattern_iff (hN : 32 ∣ N) (hE : N < 2 * E) (hPc : nPc ≤ 3)
    (hq : q.Perm (List.range N)) :
    (∃ p, nrPolarInfoBitPattern (List.replicate (N + 1) (-1))
      (((List.range N).map (polarJ N)).map Nat.cast) (q.map Nat.cast) K N E nPc nPcWm = .ok p ∧
      IsInfoBitPattern K N E nPc p) ↔ K + nPc ≤ min N E ∧ (nPc = 0 ∨ nPcWm = 0) := by
  constructor
  · rintro ⟨p, hp, -⟩
    by_contra h
    obtain ⟨fault, hfault⟩ := infoBitPattern_fault hN hE hPc hq h
    cases hp.symm.trans hfault
  · rintro ⟨hroom, hwm⟩
    exact infoBitPattern_ok hN hE hPc hq hroom hwm

/-! ## The callers -/

theorem toNat_toUInt16_mul (level : UInt8) {k : UInt16} (hk : k.toNat ≤ 256) :
    (level.toUInt16 * k).toNat = level.toNat * k.toNat := by
  have hlevel := level.toNat_lt
  rw [UInt16.toNat_mul, UInt8.toNat_toUInt16, Nat.mod_eq_of_lt]
  exact (Nat.mul_le_mul (Nat.le_of_lt_succ hlevel) hk).trans_lt (by decide)

/-- What the codes have in common. -/
theorem nrPolarParams_bounds {messageType : PolarMessageType} {messageLength : UInt16}
    {aggregationLevel : UInt8} {p : NrPolarParams}
    (h : nrPolarParams messageType messageLength aggregationLevel = .ok p)
    (hlevel : messageType = .dci → aggregationLevel ≠ 0) :
    5 ≤ p.nMax.toNat ∧ p.nMax.toNat ≤ 10 ∧ p.nPc.toNat ≤ 3 ∧ 16 < p.encoderLength.toNat := by
  cases messageType with
  | pbch | psbch =>
    cases h
    decide
  | dci =>
    cases h
    have hpos : aggregationLevel.toNat ≠ 0 := fun hzero => hlevel rfl (UInt8.toNat_inj.1 hzero)
    have hmul := toNat_toUInt16_mul aggregationLevel (k := 108) (by decide)
    have hword : (108 : UInt16).toNat = 108 := rfl
    have hnine : 5 ≤ (9 : UInt8).toNat ∧ (9 : UInt8).toNat ≤ 10 ∧ (0 : UInt8).toNat ≤ 3 := by decide
    refine ⟨hnine.1, hnine.2.1, hnine.2.2, ?_⟩
    rw [hmul, hword]
    omega
  | uciPucch =>
    have hmul := toNat_toUInt16_mul aggregationLevel (k := 16) (by decide)
    have hword : (16 : UInt16).toNat = 16 := rfl
    have hten : 5 ≤ (10 : UInt8).toNat ∧ (10 : UInt8).toNat ≤ 10 ∧ (0 : UInt8).toNat ≤ 3 ∧
        (3 : UInt8).toNat ≤ 3 := by decide
    simp only [nrPolarParams] at h
    split_ifs at h with hpos
    all_goals
      cases h
      have hthree : 2 < aggregationLevel.toNat := UInt8.lt_iff_toNat_lt.1 hpos
      refine ⟨hten.1, hten.2.1, ?_, by rw [hmul, hword]; omega⟩
      first | exact hten.2.2.1 | exact hten.2.2.2

/-- The patterns of a code that `nr_polar_params` sets up are right exactly if its bits have room in
the code and in what is sent, and no parity check bit is chosen by its weight. -/
theorem polarPatterns_iff {messageType : PolarMessageType} {messageLength : UInt16}
    {aggregationLevel : UInt8} {p : NrPolarParams}
    (h : nrPolarParams messageType messageLength aggregationLevel = .ok p)
    (hlevel : messageType = .dci → aggregationLevel ≠ 0) :
    (∃ patterns, p.patterns = .ok patterns ∧
      IsInfoBitPattern p.K.toNat p.N p.encoderLength.toNat p.nPc.toNat patterns) ↔
      p.K.toNat + p.nPc.toNat ≤ min p.N p.encoderLength.toNat ∧ (p.nPc = 0 ∨ p.nPcWm = 0) := by
  obtain ⟨hmin, hmax, hPc, hE⟩ := nrPolarParams_bounds h hlevel
  obtain ⟨n, h5, hn, hpow, hlong⟩ := nrPolarOutputLength_pow p.K p.encoderLength p.nMax hE hmin
  have hN : p.N = 2 ^ n := hpow
  have hdvd : 32 ∣ p.N := hN ▸ pow_dvd_pow 2 h5
  have hq : (nrPolarSequencePattern (Nat.log 2 p.N)).Perm (List.range p.N) := by
    rw [hN, Nat.log_pow one_lt_two]
    exact nrPolarSequencePattern_perm (by omega) (hn.trans hmax)
  have hzero : ∀ x : UInt8, x = 0 ↔ x.toNat = 0 := fun x => UInt8.toNat_inj.symm
  rw [hzero, hzero, ← infoBitPattern_iff hdvd (hN ▸ hlong) hPc hq, NrPolarParams.patterns,
    ← rateMatchingPattern_snd hdvd p.K.toNat p.encoderLength.toNat]

/-- The PBCH. -/
theorem polarPatterns_iff_pbch : ∃ patterns,
    NrPolarParams.patterns ⟨9, 0, 0, 32, 864, 24⟩ = .ok patterns ∧
      IsInfoBitPattern 56 (NrPolarParams.N ⟨9, 0, 0, 32, 864, 24⟩) 864 0 patterns :=
  (polarPatterns_iff (show nrPolarParams .pbch 0 0 = .ok ⟨9, 0, 0, 32, 864, 24⟩ from rfl)
    (by decide)).2 (by decide +kernel)

/-- UCI of 64 bits on three resource blocks : 75 bits to encode are to be sent in 48. -/
theorem polarPatterns_uci :
    nrPolarParams .uciPucch 64 3 = .ok ⟨10, 0, 0, 64, 48, 11⟩ ∧
      NrPolarParams.patterns ⟨10, 0, 0, 64, 48, 11⟩ = .error .outOfBounds := by
  decide +kernel

end NrStack
