import NrStack.Library.Fuel
import NrStack.Library.Halving
import NrStack.Mac.ComputeTbs

/-!
# Resource blocks for a number of bytes

`nr_find_nb_rb` of `gNB_scheduler_primitives.c` halves an interval to find the smallest number of
blocks whose transport block is large enough. With transform precoding only numbers with the prime
factors 2, 3 and 5 are admissible. The test for these, `multiple_2_3_5`, does not end for 0, and the
halving goes wrong in the ways of `Clear` : it stops at any number with exactly the bytes, and where
no admissible number is between the middle and the end of an interval. `nrFindNbRb_iff` : when the
result is the right one.

All loops have fuel. The sizes of the blocks that `nr_compute_tbs` returns are monotone.
-/

namespace NrStack

/-- `while (rb % f == 0) rb /= f` -/
def divideOut (f : ℕ) : ℕ → ℕ → Option ℕ
  | 0, _ => none
  | fuel + 1, rb => if rb % f = 0 then divideOut f fuel (rb / f) else some rb

/-- `multiple_2_3_5` -/
def multiple235 (fuel rb : ℕ) : Option Bool :=
  (divideOut 2 fuel rb).bind fun rb =>
    (divideOut 3 fuel rb).bind fun rb =>
      (divideOut 5 fuel rb).bind fun rb => some (rb = 1)

/-- The condition of the loops over inadmissible numbers. It is enabled with 0. -/
def inadmissible (transformPrecoding : ℤ) (fuel rb : ℕ) : Option Bool :=
  if transformPrecoding = 0 then (multiple235 fuel rb).map (!·) else some false

/-- `nb_rb_max--` -/
def lowerNbRb (transformPrecoding : ℤ) : ℕ → ℕ → Option ℕ
  | 0, _ => none
  | fuel + 1, rb =>
    (inadmissible transformPrecoding fuel rb).bind fun skip =>
      if skip then lowerNbRb transformPrecoding fuel (rb - 1) else some rb

/-- `p++` -/
def raiseNbRb (transformPrecoding : ℤ) : ℕ → ℕ → Option ℕ
  | 0, _ => none
  | fuel + 1, rb =>
    (inadmissible transformPrecoding fuel rb).bind fun skip =>
      if skip then raiseNbRb transformPrecoding fuel (rb + 1) else some rb

/-- The binary search, with the sizes `TBS`. -/
def searchNbRb (TBS : ℕ → ℕ) (transformPrecoding : ℤ) (bytes : ℕ) : ℕ → ℕ → ℕ → Option ℕ
  | 0, _, _ => none
  | fuel + 1, lo, hi =>
    if lo + 1 < hi then
      (raiseNbRb transformPrecoding fuel ((hi + lo) / 2)).bind fun p =>
        if p = hi then some hi
        else if bytes = TBS p then some p
        else if bytes < TBS p then searchNbRb TBS transformPrecoding bytes fuel lo p
        else searchNbRb TBS transformPrecoding bytes fuel p hi
    else some hi

/-- What `nr_find_nb_rb` returns, and writes to `tbs` and `nb_rb`. -/
structure NbRbFound where
  success : Bool
  tbs : ℕ
  nbRb : ℕ
deriving DecidableEq, Repr

/-- The bytes of `nb_rb` blocks. -/
def tbsBytes (Qm R : UInt16) (nrOfLayers : UInt8) (nbSymbSch nbDmrsPrb : UInt16) (nbRb : ℕ) : ℕ :=
  (Id.run (nrComputeTbs (fun n => pure (uint32 n))
    ⟨Qm, R, UInt16.ofNat nbRb, nbSymbSch, nbDmrsPrb, 0, 0, nrOfLayers⟩)).nrTbs >>> 3

/-- `nr_find_nb_rb`, with the sizes `TBS`. -/
def findNbRb (TBS : ℕ → ℕ) (transformPrecoding : ℤ) (bytes nbRbMin nbRbMax fuel : ℕ) :
    Option NbRbFound :=
  (lowerNbRb transformPrecoding fuel nbRbMax).bind fun nbRbMax =>
    if TBS nbRbMax < bytes then some ⟨false, TBS nbRbMax, nbRbMax⟩
    else if bytes = TBS nbRbMax then some ⟨true, TBS nbRbMax, nbRbMax⟩
    else if bytes ≤ TBS nbRbMin then some ⟨true, TBS nbRbMin, nbRbMin⟩
    else (searchNbRb TBS transformPrecoding bytes fuel nbRbMin nbRbMax).bind fun hi =>
      some ⟨bytes ≤ TBS hi ∧ hi ≤ nbRbMax, TBS hi, hi⟩

/-- `nr_find_nb_rb` -/
def nrFindNbRb (Qm R : UInt16) (transformPrecoding : ℤ) (nrOfLayers : UInt8)
    (nbSymbSch nbDmrsPrb : UInt16) (bytes nbRbMin nbRbMax fuel : ℕ) : Option NbRbFound :=
  findNbRb (tbsBytes Qm R nrOfLayers nbSymbSch nbDmrsPrb) transformPrecoding bytes nbRbMin nbRbMax
    fuel

/-! ## Admissible numbers -/

/-- The numbers of blocks that the precoding allows. -/
def admissible (transformPrecoding : ℤ) : Set ℕ :=
  {m | transformPrecoding = 0 → ∃ a b c, m = 2 ^ a * 3 ^ b * 5 ^ c}

variable {transformPrecoding : ℤ} {f p m rb : ℕ}

/-- The factor is divided out of a number. -/
theorem divideOut_returns (hf : 1 < f) : ∀ {rb : ℕ}, rb ≠ 0 →
    ∃ k r, rb = f ^ k * r ∧ ¬f ∣ r ∧ Returns (fun fuel => divideOut f fuel rb) r := by
  intro rb
  induction rb using Nat.strong_induction_on with
  | _ rb ih =>
    intro hrb
    by_cases hdvd : f ∣ rb
    · obtain ⟨q, rfl⟩ := hdvd
      have hq : q ≠ 0 := right_ne_zero_of_mul hrb
      have hlt : q < f * q := lt_mul_of_one_lt_left (Nat.pos_of_ne_zero hq) hf
      obtain ⟨k, r, hk, hr, hret⟩ := ih q hlt hq
      refine ⟨k + 1, r, ?_, hr, hret.of_succ fun n => ?_⟩
      · rw [hk, pow_succ]
        ring
      · rw [divideOut, if_pos (Nat.mul_mod_right f q), Nat.mul_div_cancel_left _ (by omega)]
    · refine ⟨0, rb, by simp, hdvd,
        .of_succ (g := fun _ => some rb) (fun n => ?_) (.pure fun _ => rfl)⟩
      rw [divideOut, if_neg fun h => hdvd (Nat.dvd_of_mod_eq_zero h)]

/-- For 0 it goes on for ever. -/
theorem divideOut_zero (f fuel : ℕ) : divideOut f fuel 0 = none := by
  induction fuel with
  | zero => rfl
  | succ fuel ih => rw [divideOut, if_pos (Nat.zero_mod f), Nat.zero_div, ih]

theorem multiple235_returns (hrb : rb ≠ 0) :
    ∃ b : Bool, Returns (fun fuel => multiple235 fuel rb) b ∧
      (b = true ↔ ∃ i j k, rb = 2 ^ i * 3 ^ j * 5 ^ k) := by
  obtain ⟨i, r₂, hi, hr₂, h₂⟩ := divideOut_returns (f := 2) (by decide) hrb
  have hr₂0 : r₂ ≠ 0 := fun h => hr₂ (h ▸ dvd_zero 2)
  obtain ⟨j, r₃, hj, hr₃, h₃⟩ := divideOut_returns (f := 3) (by decide) hr₂0
  have hr₃0 : r₃ ≠ 0 := fun h => hr₃ (h ▸ dvd_zero 3)
  obtain ⟨k, r₅, hk, hr₅, h₅⟩ := divideOut_returns (f := 5) (by decide) hr₃0
  refine ⟨decide (r₅ = 1), h₂.bind (h₃.bind (h₅.bind (.pure fun _ => rfl))), ?_⟩
  rw [decide_eq_true_iff]
  constructor
  · rintro rfl
    exact ⟨i, j, k, by rw [hi, hj, hk]; ring⟩
  · rintro ⟨i', j', k', hrb'⟩
    -- what is left has none of the factors
    have h53 : r₅ ∣ r₃ := Dvd.intro_left _ hk.symm
    have h52 : r₅ ∣ r₂ := h53.trans (Dvd.intro_left _ hj.symm)
    have h5 : r₅ ∣ rb := h52.trans (Dvd.intro_left _ hi.symm)
    have hc2 : Nat.Coprime r₅ (2 ^ i') :=
      ((Nat.prime_two.coprime_iff_not_dvd.2 fun h => hr₂ (h.trans h52)).pow_left i').symm
    have hc3 : Nat.Coprime r₅ (3 ^ j') :=
      ((Nat.prime_three.coprime_iff_not_dvd.2 fun h => hr₃ (h.trans h53)).pow_left j').symm
    have hc5 : Nat.Coprime r₅ (5 ^ k') :=
      ((Nat.prime_five.coprime_iff_not_dvd.2 hr₅).pow_left k').symm
    exact ((hc2.mul_right hc3).mul_right hc5).eq_one_of_dvd (hrb' ▸ h5)

/-- Both loops ask for the admissible numbers. -/
theorem inadmissible_returns (hrb : transformPrecoding = 0 → rb ≠ 0) :
    ∃ b : Bool, Returns (fun fuel => inadmissible transformPrecoding fuel rb) b ∧
      (b = true ↔ rb ∉ admissible transformPrecoding) := by
  unfold inadmissible admissible
  by_cases htp : transformPrecoding = 0
  · obtain ⟨b, hb, hiff⟩ := multiple235_returns (hrb htp)
    obtain ⟨n, hn⟩ := hb
    refine ⟨!b, ⟨n, fun k hk => ?_⟩, ?_⟩
    · have hk' : multiple235 k rb = some b := hn k hk
      dsimp only
      rw [if_pos htp, hk', Option.map_some]
    · rw [Bool.not_eq_true', ← Bool.not_eq_true, hiff]
      simp [htp]
  · refine ⟨false, .pure fun n => if_neg htp, ?_⟩
    simp [htp]

theorem one_mem_admissible : 1 ∈ admissible transformPrecoding :=
  fun _ => ⟨0, 0, 0, rfl⟩

theorem zero_mem_admissible_iff : 0 ∈ admissible transformPrecoding ↔ transformPrecoding ≠ 0 := by
  constructor
  · rintro h htp
    obtain ⟨i, j, k, h0⟩ := h htp
    have hpos : 0 < 2 ^ i * 3 ^ j * 5 ^ k := by positivity
    omega
  · exact fun h htp => absurd htp h

/-- The largest admissible number below `nb_rb_max`. -/
theorem lowerNbRb_returns {max M : ℕ}
    (hM : IsGreatest {m | m ∈ admissible transformPrecoding ∧ m ≤ max} M) :
    Returns (fun fuel => lowerNbRb transformPrecoding fuel max) M := by
  induction max with
  | zero =>
    obtain rfl : M = 0 := Nat.le_zero.1 hM.1.2
    obtain ⟨b, hb, hiff⟩ := @inadmissible_returns transformPrecoding 0 fun htp =>
      absurd htp (zero_mem_admissible_iff.1 hM.1.1)
    obtain rfl : b = false := Bool.eq_false_of_not_eq_true fun h => hiff.1 h hM.1.1
    exact .of_succ (fun n => rfl) (hb.bind (.pure fun _ => rfl))
  | succ max ih =>
    obtain ⟨b, hb, hiff⟩ := @inadmissible_returns transformPrecoding (max + 1)
      fun _ => Nat.succ_ne_zero max
    refine .of_succ (fun n => rfl) (hb.bind ?_)
    by_cases hmem : max + 1 ∈ admissible transformPrecoding
    · obtain rfl : b = false := Bool.eq_false_of_not_eq_true fun h => hiff.1 h hmem
      obtain rfl : M = max + 1 := le_antisymm hM.1.2 (hM.2 ⟨hmem, le_rfl⟩)
      exact .pure fun _ => rfl
    · obtain rfl : b = true := hiff.2 hmem
      have hne : M ≠ max + 1 := fun h => hmem (h ▸ hM.1.1)
      exact ih ⟨⟨hM.1.1, Nat.le_of_lt_succ (lt_of_le_of_ne hM.1.2 hne)⟩,
        fun q hq => hM.2 ⟨hq.1, hq.2.trans (Nat.le_succ max)⟩⟩

/-- The first admissible number from `p` on. -/
theorem raiseNbRb_returns {q : ℕ} (hp : 0 < p)
    (hq : IsLeast {q | p ≤ q ∧ q ∈ admissible transformPrecoding} q) :
    Returns (fun fuel => raiseNbRb transformPrecoding fuel p) q := by
  obtain ⟨d, hd⟩ := Nat.exists_eq_add_of_le hq.1.1
  induction d generalizing p with
  | zero =>
    obtain rfl : q = p := hd
    obtain ⟨b, hb, hiff⟩ := @inadmissible_returns transformPrecoding q fun _ => hp.ne'
    obtain rfl : b = false := Bool.eq_false_of_not_eq_true fun h => hiff.1 h hq.1.2
    exact .of_succ (fun n => rfl) (hb.bind (.pure fun _ => rfl))
  | succ d ih =>
    obtain ⟨b, hb, hiff⟩ := @inadmissible_returns transformPrecoding p fun _ => hp.ne'
    have hmem : p ∉ admissible transformPrecoding := fun h => by
      have hle := hq.2 ⟨le_rfl, h⟩
      omega
    obtain rfl : b = true := hiff.2 hmem
    have hq' : IsLeast {q | p + 1 ≤ q ∧ q ∈ admissible transformPrecoding} q :=
      ⟨⟨by omega, hq.1.2⟩, fun r hr => hq.2 ⟨(Nat.le_succ p).trans hr.1, hr.2⟩⟩
    exact .of_succ (fun n => rfl) (hb.bind (ih (Nat.succ_pos p) hq' (by omega)))

/-! ## The search -/

section Search

variable {TBS : ℕ → ℕ} {bytes lo hi min max M : ℕ}

/-- What the search does at the middle of an interval. -/
theorem searchNbRb_of_middle (hgap : lo + 1 < hi)
    (hp : IsMiddle (admissible transformPrecoding) lo hi p) {r : ℕ}
    (h : Returns (fun fuel => if p = hi then some hi
      else if bytes = TBS p then some p
      else if bytes < TBS p then searchNbRb TBS transformPrecoding bytes fuel lo p
      else searchNbRb TBS transformPrecoding bytes fuel p hi) r) :
    Returns (fun fuel => searchNbRb TBS transformPrecoding bytes fuel lo hi) r := by
  have hp' : IsLeast {q | (hi + lo) / 2 ≤ q ∧ q ∈ admissible transformPrecoding} p := by
    rwa [Nat.add_comm hi lo]
  have hraise := raiseNbRb_returns (by omega) hp'
  exact .of_succ (fun n => by rw [searchNbRb, if_pos hgap]) (hraise.bind h)

/-- Halving ends with an admissible number of enough bytes, and with the smallest one if the way to
it is clear. -/
theorem searchNbRb_returns (hmono : ∀ a b, a ≤ b → b ≤ max → TBS a ≤ TBS b) (hhi : hi ≤ max)
    (hmem : hi ∈ admissible transformPrecoding) (hlt : lo < hi) (hlo : TBS lo < bytes)
    (hbytes : bytes < TBS hi)
    (hm : IsLeast {m | m ∈ admissible transformPrecoding ∧ lo < m ∧ bytes ≤ TBS m} m) :
    ∃ r, Returns (fun fuel => searchNbRb TBS transformPrecoding bytes fuel lo hi) r ∧
      r ≤ hi ∧ bytes ≤ TBS r ∧
      (r = m ↔ Clear (admissible transformPrecoding) {q | TBS q = bytes} m lo hi) := by
  obtain ⟨d, hd⟩ : ∃ d, d = hi - lo := ⟨_, rfl⟩
  induction d using Nat.strong_induction_on generalizing lo hi with
  | _ d ih =>
    have hmhi : m ≤ hi := hm.2 ⟨hmem, hlt, hbytes.le⟩
    by_cases hgap : lo + 1 < hi
    · obtain ⟨p, hp, hphi⟩ := exists_isMiddle hmem hlt
      have hplo : lo < p := by
        have hmid := hp.1.1
        omega
      have hturn := fun r => @searchNbRb_of_middle _ _ TBS bytes _ _ hgap hp r
      rcases Nat.eq_or_lt_of_le hphi with rfl | hphi
      · -- no number in the upper half
        refine ⟨p, hturn _ (.pure fun _ => if_pos rfl), le_rfl, hbytes.le, ?_⟩
        rcases Nat.eq_or_lt_of_le hmhi with rfl | hmlt
        · exact iff_of_true rfl (clear_self hlt)
        · rw [clear_iff hgap hmlt hp]
          exact iff_of_false hmlt.ne' fun h => lt_irrefl p h.1
      simp only [if_neg hphi.ne] at hturn
      rcases lt_trichotomy bytes (TBS p) with hsize | hsize | hsize
      · -- enough bytes at the middle
        have hmp : m ≤ p := hm.2 ⟨hp.1.2, hplo, hsize.le⟩
        obtain ⟨r, hr, hrp, hrbytes, hiff⟩ := ih (p - lo) (by omega) (hphi.le.trans hhi) hp.1.2 hplo
          hlo hsize hm rfl
        simp only [if_neg hsize.ne, if_pos hsize] at hturn
        refine ⟨r, hturn r hr, hrp.trans hphi.le, hrbytes, hiff.trans ?_⟩
        rw [clear_iff hgap (hmp.trans_lt hphi) hp]
        exact ⟨fun h => ⟨hphi, fun _ => hsize.ne', fun hlt => absurd hmp hlt.not_ge, fun _ => h⟩,
          fun h => h.2.2.2 hmp⟩
      · -- the search stops there
        have hmp : m ≤ p := hm.2 ⟨hp.1.2, hplo, hsize.le⟩
        simp only [if_pos hsize] at hturn
        refine ⟨p, hturn _ (.pure fun _ => rfl), hphi.le, hsize.le, ?_⟩
        rw [clear_iff hgap (hmp.trans_lt hphi) hp]
        constructor
        · rintro rfl
          exact ⟨hphi, fun h => absurd h (lt_irrefl p), fun h => absurd h (lt_irrefl p),
            fun _ => clear_self hplo⟩
        · intro h
          by_contra hne
          exact h.2.1 (lt_of_le_of_ne hmp fun heq => hne heq.symm) hsize.symm
      · have hpm : p < m := by
          by_contra hge
          have hle := hmono m p (Nat.le_of_not_lt hge) (hphi.le.trans hhi)
          have hmbytes := hm.1.2.2
          omega
        have hm' : IsLeast {m | m ∈ admissible transformPrecoding ∧ p < m ∧ bytes ≤ TBS m} m :=
          ⟨⟨hm.1.1, hpm, hm.1.2.2⟩, fun q hq => hm.2 ⟨hq.1, hplo.trans hq.2.1, hq.2.2⟩⟩
        obtain ⟨r, hr, hrhi, hrbytes, hiff⟩ := ih (hi - p) (by omega) hhi hmem hphi hsize hbytes hm'
          rfl
        simp only [if_neg hsize.ne', if_neg hsize.not_gt] at hturn
        refine ⟨r, hturn r hr, hrhi, hrbytes, hiff.trans ?_⟩
        rcases Nat.eq_or_lt_of_le hmhi with rfl | hmlt
        · exact iff_of_true (clear_self hphi) (clear_self hlt)
        · rw [clear_iff hgap hmlt hp]
          exact ⟨fun h => ⟨hphi, fun hlt => absurd hpm hlt.not_gt, fun _ => h,
            fun hle => absurd hpm hle.not_gt⟩, fun h => h.2.2.1 hpm⟩
    · -- one number is left
      obtain rfl : m = hi := by
        have hlom := hm.1.2.1
        omega
      refine ⟨m, .of_succ (g := fun _ => some m) (fun n => ?_) (.pure fun _ => rfl), le_rfl,
        hbytes.le, iff_of_true rfl (clear_self hlt)⟩
      rw [searchNbRb, if_neg hgap]

/-- Halving ends in the interval, whatever the sizes are. -/
theorem searchNbRb_ends (hmem : hi ∈ admissible transformPrecoding) (hlt : lo < hi) :
    ∃ r, Returns (fun fuel => searchNbRb TBS transformPrecoding bytes fuel lo hi) r ∧
      lo < r ∧ r ≤ hi := by
  obtain ⟨d, hd⟩ : ∃ d, d = hi - lo := ⟨_, rfl⟩
  induction d using Nat.strong_induction_on generalizing lo hi with
  | _ d ih =>
    by_cases hgap : lo + 1 < hi
    · obtain ⟨p, hp, hphi⟩ := exists_isMiddle hmem hlt
      have hplo : lo < p := by
        have hmid := hp.1.1
        omega
      have hturn := fun r => @searchNbRb_of_middle _ _ TBS bytes _ _ hgap hp r
      rcases Nat.eq_or_lt_of_le hphi with rfl | hphi
      · exact ⟨p, hturn _ (.pure fun _ => if_pos rfl), hplo, le_rfl⟩
      simp only [if_neg hphi.ne] at hturn
      rcases lt_trichotomy bytes (TBS p) with hsize | hsize | hsize
      · obtain ⟨r, hr, hlor, hrp⟩ := ih (p - lo) (by omega) hp.1.2 hplo rfl
        simp only [if_neg hsize.ne, if_pos hsize] at hturn
        exact ⟨r, hturn r hr, hlor, hrp.trans hphi.le⟩
      · simp only [if_pos hsize] at hturn
        exact ⟨p, hturn _ (.pure fun _ => rfl), hplo, hphi.le⟩
      · obtain ⟨r, hr, hpr, hrhi⟩ := ih (hi - p) (by omega) hmem hphi rfl
        simp only [if_neg hsize.ne', if_neg hsize.not_gt] at hturn
        exact ⟨r, hturn r hr, hplo.trans hpr, hrhi⟩
    · refine ⟨hi, .of_succ (g := fun _ => some hi) (fun n => ?_) (.pure fun _ => rfl), hlt, le_rfl⟩
      rw [searchNbRb, if_neg hgap]

/-- The smallest admissible number of enough bytes in the range, or else the largest one. -/
def NbRbFound.Correct (S : Set ℕ) (TBS : ℕ → ℕ) (bytes min max : ℕ) (r : NbRbFound) : Prop :=
  r.tbs = TBS r.nbRb ∧
    (r.success = true ∧
        IsLeast {m | m ∈ S ∧ (min ≤ m ∧ m ≤ max) ∧ bytes ≤ TBS m} r.nbRb ∨
      r.success = false ∧ (∀ m ∈ S, min ≤ m → m ≤ max → TBS m < bytes) ∧
        IsGreatest {m | m ∈ S ∧ m ≤ max} r.nbRb)

/-- What the search needs, where `M` is the largest admissible number. If `M` has exactly the bytes,
no smaller one has them. If the minimum has enough, it is admissible. Between them, the way to the
smallest number is clear. -/
structure SearchFinds (S : Set ℕ) (TBS : ℕ → ℕ) (bytes min M : ℕ) : Prop where
  exact : bytes = TBS M → min ≤ M ∧ ∀ m ∈ S, min ≤ m → m < M → TBS m ≠ bytes
  atMin : bytes < TBS M → bytes ≤ TBS min → min ∈ S
  halving : TBS min < bytes → bytes < TBS M → ∀ m,
    IsLeast {m | m ∈ S ∧ min < m ∧ bytes ≤ TBS m} m → Clear S {q | TBS q = bytes} m min M

theorem findNbRb_of_greatest (hM : IsGreatest {m | m ∈ admissible transformPrecoding ∧ m ≤ max} M)
    {r : NbRbFound} (h : Returns (fun fuel =>
      if TBS M < bytes then some ⟨false, TBS M, M⟩
      else if bytes = TBS M then some ⟨true, TBS M, M⟩
      else if bytes ≤ TBS min then some ⟨true, TBS min, min⟩
      else (searchNbRb TBS transformPrecoding bytes fuel min M).bind fun hi =>
        some ⟨bytes ≤ TBS hi ∧ hi ≤ M, TBS hi, hi⟩) r) :
    Returns (findNbRb TBS transformPrecoding bytes min max) r :=
  (lowerNbRb_returns hM).bind h

theorem correct_iff_of_success {S : Set ℕ} {r : ℕ} :
    (NbRbFound.mk true (TBS r) r).Correct S TBS bytes min max ↔
      IsLeast {m | m ∈ S ∧ (min ≤ m ∧ m ≤ max) ∧ bytes ≤ TBS m} r := by
  unfold NbRbFound.Correct
  simp

/-- With an admissible number below the maximum, a result is returned, and when it is correct. -/
theorem findNbRb_returns (hmono : ∀ a b, a ≤ b → b ≤ max → TBS a ≤ TBS b) (hrange : min ≤ max)
    (hM : IsGreatest {m | m ∈ admissible transformPrecoding ∧ m ≤ max} M) :
    ∃ r, Returns (findNbRb TBS transformPrecoding bytes min max) r ∧
      (r.Correct (admissible transformPrecoding) TBS bytes min max ↔
        SearchFinds (admissible transformPrecoding) TBS bytes min M) := by
  have hreturns := fun r => @findNbRb_of_greatest _ TBS bytes min _ _ hM r
  rcases lt_trichotomy (TBS M) bytes with hsize | hsize | hsize
  · refine ⟨⟨false, TBS M, M⟩, hreturns _ (.pure fun _ => if_pos hsize), ?_⟩
    refine iff_of_true ⟨rfl, Or.inr ⟨rfl, fun m hm _ hmax => ?_, hM⟩⟩
      ⟨fun h => ?_, fun h => ?_, fun _ h => ?_⟩
    · exact (hmono m M (hM.2 ⟨hm, hmax⟩) hM.1.2).trans_lt hsize
    all_goals omega
  · -- the largest number has exactly the bytes
    refine ⟨⟨true, TBS M, M⟩, hreturns _ (.pure fun _ => ?_), (correct_iff_of_success).trans ?_⟩
    · rw [if_neg hsize.not_lt, if_pos hsize.symm]
    · constructor
      · intro hleast
        refine ⟨fun _ => ⟨hleast.1.2.1.1, fun m hm hmin hlt heq => ?_⟩, fun h => ?_, fun _ h => ?_⟩
        · have hle := hleast.2 ⟨hm, ⟨hmin, hlt.le.trans hM.1.2⟩, heq.ge⟩
          omega
        all_goals omega
      · intro h
        obtain ⟨hmin, hsmaller⟩ := h.exact hsize.symm
        refine ⟨⟨hM.1.1, ⟨hmin, hM.1.2⟩, hsize.ge⟩, fun q hq => ?_⟩
        by_contra hlt
        have hle := hmono q M (Nat.le_of_not_le hlt) hM.1.2
        exact hsmaller q hq.1 hq.2.1.1 (Nat.lt_of_not_le hlt)
          (le_antisymm (hle.trans hsize.le) hq.2.2)
  · simp only [if_neg hsize.not_gt, if_neg hsize.ne] at hreturns
    rcases Nat.lt_or_ge (TBS min) bytes with hmin | hmin
    · -- the binary search
      simp only [if_neg hmin.not_ge] at hreturns
      have hlt : min < M := by
        by_contra hge
        have hle := hmono M min (Nat.le_of_not_lt hge) hrange
        omega
      obtain ⟨m, hm⟩ : ∃ m, IsLeast
          {m | m ∈ admissible transformPrecoding ∧ min < m ∧ bytes ≤ TBS m} m :=
        ⟨_, Nat.sInf_mem ⟨M, hM.1.1, hlt, hsize.le⟩, fun _ hq => Nat.sInf_le hq⟩
      have hm' : IsLeast {m | m ∈ admissible transformPrecoding ∧ (min ≤ m ∧ m ≤ max) ∧
          bytes ≤ TBS m} m := by
        refine ⟨⟨hm.1.1, ⟨hm.1.2.1.le, (hm.2 ⟨hM.1.1, hlt, hsize.le⟩).trans hM.1.2⟩, hm.1.2.2⟩,
          fun q hq => hm.2 ⟨hq.1, lt_of_le_of_ne hq.2.1.1 ?_, hq.2.2⟩⟩
        rintro rfl
        exact absurd hq.2.2 hmin.not_ge
      obtain ⟨r, hr, hrM, hrbytes, hiff⟩ := searchNbRb_returns hmono hM.1.2 hM.1.1 hlt hmin hsize hm
      refine ⟨⟨true, TBS r, r⟩, hreturns _ (hr.bind (.pure fun _ => ?_)),
        (correct_iff_of_success).trans ?_⟩
      · rw [decide_eq_true ⟨hrbytes, hrM⟩]
      · constructor
        · intro hleast
          refine ⟨fun h => ?_, fun _ h => ?_, fun _ _ m' hleast' => ?_⟩
          · omega
          · omega
          · rw [hleast'.unique hm]
            exact hiff.1 (hleast.unique hm')
        · intro h
          rw [hiff.2 (h.halving hmin hsize m hm)]
          exact hm'
    · simp only [if_pos hmin] at hreturns
      refine ⟨⟨true, TBS min, min⟩, hreturns _ (.pure fun _ => rfl),
        (correct_iff_of_success).trans ?_⟩
      constructor
      · intro hleast
        refine ⟨fun h => ?_, fun _ _ => hleast.1.1, fun h => ?_⟩ <;> omega
      · intro h
        exact ⟨⟨h.atMin hsize hmin, ⟨le_rfl, hrange⟩, hmin⟩, fun q hq => hq.2.1.1⟩

/-- There is a largest admissible number, unless there is precoding for no blocks. -/
theorem exists_greatest (h : transformPrecoding = 0 → max ≠ 0) :
    ∃ M, IsGreatest {m | m ∈ admissible transformPrecoding ∧ m ≤ max} M := by
  have hne : {m | m ∈ admissible transformPrecoding ∧ m ≤ max}.Nonempty := by
    by_cases hmax : max = 0
    · exact ⟨0, zero_mem_admissible_iff.2 fun htp => h htp hmax, Nat.zero_le _⟩
    · exact ⟨1, one_mem_admissible, Nat.one_le_iff_ne_zero.2 hmax⟩
  have hbdd : BddAbove {m | m ∈ admissible transformPrecoding ∧ m ≤ max} := ⟨max, fun _ hm => hm.2⟩
  exact ⟨_, Nat.sSup_mem hne hbdd, fun _ hm => le_csSup hbdd hm⟩

/-- With blocks, a number of them is returned, with its size. -/
theorem findNbRb_ends (hmin : 0 < min) (hrange : min ≤ max) :
    ∃ r, Returns (findNbRb TBS transformPrecoding bytes min max) r ∧ r.tbs = TBS r.nbRb ∧
      0 < r.nbRb ∧ r.nbRb ≤ max := by
  obtain ⟨M, hM⟩ := @exists_greatest transformPrecoding max fun _ => by omega
  have hpos : 0 < M := hM.2 ⟨one_mem_admissible, by omega⟩
  have hreturns := fun r => @findNbRb_of_greatest _ TBS bytes min _ _ hM r
  rcases lt_trichotomy (TBS M) bytes with hsize | hsize | hsize
  · exact ⟨⟨false, TBS M, M⟩, hreturns _ (.pure fun _ => if_pos hsize), rfl, hpos, hM.1.2⟩
  · refine ⟨⟨true, TBS M, M⟩, hreturns _ (.pure fun _ => ?_), rfl, hpos, hM.1.2⟩
    rw [if_neg hsize.not_lt, if_pos hsize.symm]
  · simp only [if_neg hsize.not_gt, if_neg hsize.ne] at hreturns
    rcases Nat.lt_or_ge (TBS min) bytes with hfew | hfew
    · simp only [if_neg hfew.not_ge] at hreturns
      rcases Nat.lt_or_ge min M with hlt | hge
      · obtain ⟨r, hr, hlo, hhi⟩ := @searchNbRb_ends _ TBS bytes _ _ hM.1.1 hlt
        exact ⟨_, hreturns _ (hr.bind (.pure fun _ => rfl)), rfl, by dsimp only; omega,
          hhi.trans hM.1.2⟩
      · have hsearch : Returns (fun fuel => searchNbRb TBS transformPrecoding bytes fuel min M) M :=
          .of_succ (g := fun _ => some M) (fun n => by rw [searchNbRb, if_neg (by omega)])
            (.pure fun _ => rfl)
        exact ⟨_, hreturns _ (hsearch.bind (.pure fun _ => rfl)), rfl, hpos, hM.1.2⟩
    · simp only [if_pos hfew] at hreturns
      exact ⟨⟨true, TBS min, min⟩, hreturns _ (.pure fun _ => rfl), rfl, hmin, hrange⟩

/-- Precoding for no blocks does not end. -/
theorem findNbRb_zero (fuel : ℕ) : findNbRb TBS 0 bytes min 0 fuel = none := by
  have hlower : lowerNbRb 0 fuel 0 = none := by
    cases fuel with
    | zero => rfl
    | succ fuel =>
      rw [lowerNbRb, inadmissible, if_pos rfl, multiple235, divideOut_zero]
      rfl
  rw [findNbRb, hlower, Option.bind_none]

end Search

/-- `nr_find_nb_rb` returns the right number exactly if there is an admissible number up to
`nb_rb_max` and the search finds the right one. -/
theorem nrFindNbRb_iff {Qm R : UInt16} {nrOfLayers : UInt8} {nbSymbSch nbDmrsPrb : UInt16}
    {bytes min max : ℕ} (hrange : min ≤ max)
    (hmono : ∀ a b, a ≤ b → b ≤ max → tbsBytes Qm R nrOfLayers nbSymbSch nbDmrsPrb a ≤
      tbsBytes Qm R nrOfLayers nbSymbSch nbDmrsPrb b) :
    (∃ r, Returns (nrFindNbRb Qm R transformPrecoding nrOfLayers nbSymbSch nbDmrsPrb bytes min max)
        r ∧ r.Correct (admissible transformPrecoding)
          (tbsBytes Qm R nrOfLayers nbSymbSch nbDmrsPrb) bytes min max) ↔
      ∃ M, IsGreatest {m | m ∈ admissible transformPrecoding ∧ m ≤ max} M ∧
        SearchFinds (admissible transformPrecoding) (tbsBytes Qm R nrOfLayers nbSymbSch nbDmrsPrb)
          bytes min M := by
  constructor
  · rintro ⟨r, hr, hcorrect⟩
    by_cases hend : transformPrecoding = 0 ∧ max = 0
    · obtain ⟨rfl, rfl⟩ := hend
      exact absurd hr (Returns.not_of_none findNbRb_zero)
    · obtain ⟨M, hM⟩ := @exists_greatest _ max fun htp hmax => hend ⟨htp, hmax⟩
      obtain ⟨r', hr', hiff⟩ := @findNbRb_returns _ _ bytes _ _ _ hmono hrange hM
      obtain rfl := hr'.unique hr
      exact ⟨M, hM, hiff.1 hcorrect⟩
  · rintro ⟨M, hM, hfinds⟩
    obtain ⟨r, hr, hiff⟩ := @findNbRb_returns _ _ bytes _ _ _ hmono hrange hM
    exact ⟨r, hr, hiff.2 hfinds⟩

/-- Sizes that do not decrease from one number to the next. -/
theorem le_of_steps {TBS : ℕ → ℕ} {max : ℕ} (h : ∀ n < max, TBS n ≤ TBS (n + 1)) {a b : ℕ}
    (hab : a ≤ b) (hb : b ≤ max) : TBS a ≤ TBS b := by
  induction b, hab using Nat.le_induction with
  | base => exact le_rfl
  | succ b _ ih => exact (ih (by omega)).trans (h b hb)

theorem nrFindNbRb_iff_eight :
    (∃ r, Returns (nrFindNbRb 2 1200 0 1 13 12 20 1 8) r ∧
        r.Correct (admissible 0) (tbsBytes 2 1200 1 13 12) 20 1 8) ↔
      ∃ M, IsGreatest {m | m ∈ admissible 0 ∧ m ≤ 8} M ∧
        SearchFinds (admissible 0) (tbsBytes 2 1200 1 13 12) 20 1 M :=
  nrFindNbRb_iff (by decide) fun _ _ => le_of_steps (by decide +kernel)

/-- With precoding there is no end for no blocks, as the scheduler of retransmissions asks for where
none are free. Without, 5 bytes of a low rate are in 20 blocks, where 19 are enough. -/
theorem not_nrFindNbRb : (∀ r, ¬Returns (nrFindNbRb 2 300 0 1 4 12 5 1 0) r) ∧
    ¬∃ r, Returns (nrFindNbRb 2 300 1 1 4 12 5 1 40) r ∧
      r.Correct (admissible 1) (tbsBytes 2 300 1 4 12) 5 1 40 := by
  refine ⟨fun r => Returns.not_of_none findNbRb_zero, ?_⟩
  rintro ⟨r, hr, hcorrect⟩
  have hall : ∀ m, m ∈ admissible 1 := fun m h => absurd h (by decide)
  have hmono : ∀ a b, a ≤ b → b ≤ 40 → tbsBytes 2 300 1 4 12 a ≤ tbsBytes 2 300 1 4 12 b :=
    fun _ _ => le_of_steps (by decide +kernel)
  have hM : IsGreatest {m | m ∈ admissible 1 ∧ m ≤ 40} 40 := ⟨⟨hall 40, le_rfl⟩, fun _ hm => hm.2⟩
  obtain ⟨r', hr', hiff⟩ := @findNbRb_returns _ _ 5 _ _ _ hmono (by decide : 1 ≤ 40) hM
  obtain rfl := hr'.unique hr
  have h18 : tbsBytes 2 300 1 4 12 18 = 4 := by decide +kernel
  have hleast : IsLeast {m | m ∈ admissible 1 ∧ 1 < m ∧ 5 ≤ tbsBytes 2 300 1 4 12 m} 19 := by
    refine ⟨⟨hall 19, by decide, by decide +kernel⟩, fun q hq => ?_⟩
    by_contra hlt
    have hle := hmono q 18 (by omega) (by decide)
    have hq5 : 5 ≤ tbsBytes 2 300 1 4 12 q := hq.2.2
    omega
  have hclear := (hiff.1 hcorrect).halving (by decide +kernel) (by decide +kernel) 19 hleast
  obtain ⟨p, hp, -, hexact⟩ := hclear 1 40 (.refl 1 40) (by decide)
  have hp20 : p = 20 := hp.unique ⟨⟨by decide, hall 20⟩, fun q hq => hq.1⟩
  subst hp20
  exact hexact (by decide) (by decide +kernel : tbsBytes 2 300 1 4 12 20 = 5)

end NrStack
