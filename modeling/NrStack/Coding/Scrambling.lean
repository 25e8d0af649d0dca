import NrStack.Coding.GoldCache

/-!
# Scrambling

`nr_scrambling.c` : the transmitter adds a Gold sequence to the bits of a codeword, the receiver
changes the signs of the soft bits where the sequence has a one. On x86 and ARM it multiplies eight
soft bits at a time with a row of `byte2m128i`, which is the same (`unscrambling_paths_agree`). A
receiver with the same parameters gets the signs of the bits before the scrambling
(`unscrambling_scrambling`), but for a soft bit of -32768, whose sign cannot be changed.

`gold_cache` returns the words of the sequence whatever its table holds, so they stand for its
answer here. -/

namespace NrStack

/-- `roundedSz` -/
def roundedSz (size : Nat) : Nat :=
  (size + 31) / 32

/-- The key for `gold_cache`. -/
def scramblingKey (q : BitVec 8) (nid nRnti : BitVec 32) : BitVec 32 :=
  nRnti <<< 15 + q.setWidth 32 <<< 14 + nid

/-- Bit `n` of words. -/
def wordsBit (words : List (BitVec 32)) (n : Nat) : Bool :=
  (words[n / 32]?.getD 0).getLsbD (n % 32)

/-- The words of the sequence. -/
def scramblingSeq (size : Nat) (q : BitVec 8) (nid nRnti : BitVec 32) : List (BitVec 32) :=
  goldWords (scramblingKey q nid nRnti) (roundedSz size)

/-- `nr_codeword_scrambling` -/
def nrCodewordScrambling (input : List (BitVec 32)) (size : Nat) (q : BitVec 8)
    (nid nRnti : BitVec 32) : List (BitVec 32) :=
  input.zipWith (· ^^^ ·) (scramblingSeq size q nid nRnti)

/-- A lane of the table of `init_byte2m128i`. -/
def byte2m128i (s : BitVec 8) (lane : Nat) : BitVec 16 :=
  1 - 2 * (s >>> lane &&& 1).setWidth 16

/-- `nr_codeword_unscrambling` with vectors, `llr[n]` in lane `n % 8` of vector `n / 8`. The last
vectors reach beyond `size`. -/
def unscramblingVector (llr : List (BitVec 16)) (size : Nat) (seq : List (BitVec 32)) :
    List (BitVec 16) :=
  llr.mapIdx fun n x =>
    if n < 32 * roundedSz size then
      x * byte2m128i ((seq[n / 32]?.getD 0 >>> (8 * (n / 8 % 4))).setWidth 8) (n % 8)
    else x

/-- `nr_codeword_unscrambling` without vectors. -/
def unscramblingPlain (llr : List (BitVec 16)) (size : Nat) (seq : List (BitVec 32)) :
    List (BitVec 16) :=
  llr.mapIdx fun n x => if n < size ∧ wordsBit seq n then -x else x

/-- `nr_codeword_unscrambling` -/
def nrCodewordUnscrambling (llr : List (BitVec 16)) (size : Nat) (q : BitVec 8)
    (nid nRnti : BitVec 32) : List (BitVec 16) :=
  unscramblingVector llr size (scramblingSeq size q nid nRnti)

/-- The soft bit has the sign of the bit, negative for a one, and an opposite. -/
def Decides (x : BitVec 16) (b : Bool) : Prop :=
  x ≠ BitVec.intMin 16 ∧ if b then x.toInt < 0 else 0 < x.toInt

/-! ## The two ways to change signs -/

theorem byte2m128i_eq (s : BitVec 8) {lane : Nat} (h : lane < 8) :
    byte2m128i s lane = if s.getLsbD lane then -1 else 1 := by
  revert s
  interval_cases lane <;> decide +kernel

theorem mul_byte2m128i (x : BitVec 16) (w : BitVec 32) (n : Nat) :
    x * byte2m128i ((w >>> (8 * (n / 8 % 4))).setWidth 8) (n % 8) =
      if w.getLsbD (n % 32) then -x else x := by
  have hbit : ((w >>> (8 * (n / 8 % 4))).setWidth 8).getLsbD (n % 8) = w.getLsbD (n % 32) := by
    have hpos : 8 * (n / 8 % 4) + n % 8 = n % 32 := by omega
    have hlane : n % 8 < 8 := Nat.mod_lt _ (by decide)
    rw [BitVec.getLsbD_setWidth, BitVec.getLsbD_ushiftRight, hpos]
    simp [hlane]
  rw [byte2m128i_eq _ (Nat.mod_lt _ (by decide)), hbit]
  split_ifs
  · rw [BitVec.mul_comm]
    exact (BitVec.neg_eq_neg_one_mul x).symm
  · exact BitVec.mul_one x

/-- Below `size` the vectors do what the plain loop does. -/
theorem unscrambling_paths_agree (llr : List (BitVec 16)) (size : Nat) (seq : List (BitVec 32)) :
    (unscramblingVector llr size seq).take size = (unscramblingPlain llr size seq).take size := by
  refine List.ext_getElem? fun n => ?_
  rw [List.getElem?_take, List.getElem?_take]
  split_ifs with hn
  · rw [unscramblingVector, unscramblingPlain, List.getElem?_mapIdx, List.getElem?_mapIdx]
    have hround : n < 32 * roundedSz size := by
      unfold roundedSz
      omega
    simp only [hround, if_true, mul_byte2m128i, hn, true_and, wordsBit]
  · rfl

/-! ## Transmitter and receiver -/

theorem wordsBit_scrambling {input : List (BitVec 32)} {size : Nat} {q : BitVec 8}
    {nid nRnti : BitVec 32} (hin : roundedSz size ≤ input.length) {n : Nat} (hn : n < size) :
    wordsBit (nrCodewordScrambling input size q nid nRnti) n =
      (wordsBit input n ^^ wordsBit (scramblingSeq size q nid nRnti) n) := by
  have hword : n / 32 < roundedSz size := by
    unfold roundedSz
    omega
  have hseq : n / 32 < (scramblingSeq size q nid nRnti).length := by
    rw [scramblingSeq, length_goldWords]
    exact hword
  unfold wordsBit nrCodewordScrambling
  rw [List.getElem?_zipWith, List.getElem?_eq_getElem (hword.trans_le hin),
    List.getElem?_eq_getElem hseq]
  exact BitVec.getLsbD_xor

theorem Decides.neg {x : BitVec 16} {b : Bool} (h : Decides x b) : Decides (-x) !b := by
  obtain ⟨hmin, hsign⟩ := h
  have hneg : (-x).toInt = -x.toInt := BitVec.toInt_neg_of_ne_intMin hmin
  refine ⟨fun heq => hmin ?_, ?_⟩
  · rw [← BitVec.neg_neg (x := x), heq]
    decide
  · rw [hneg]
    cases b
    · simpa using hsign
    · simpa using hsign

/-- A receiver whose soft bits have the signs of the scrambled bits gets those of the codeword, on
either path. -/
theorem unscrambling_scrambling {input : List (BitVec 32)} {size : Nat} {q : BitVec 8}
    {nid nRnti : BitVec 32} {llr : List (BitVec 16)} (hin : roundedSz size ≤ input.length)
    (hllr : ∀ n < size, ∃ x, llr[n]? = some x ∧
      Decides x (wordsBit (nrCodewordScrambling input size q nid nRnti) n)) :
    ∀ n < size, ∃ x, (nrCodewordUnscrambling llr size q nid nRnti)[n]? = some x ∧
      Decides x (wordsBit input n) := by
  intro n hn
  obtain ⟨x, hx, hd⟩ := hllr n hn
  have hround : n < 32 * roundedSz size := by
    unfold roundedSz
    omega
  rw [wordsBit_scrambling hin hn] at hd
  rw [nrCodewordUnscrambling, unscramblingVector, List.getElem?_mapIdx, hx]
  refine ⟨_, rfl, ?_⟩
  dsimp only
  rw [if_pos hround, mul_byte2m128i]
  unfold wordsBit at hd ⊢
  cases hbit : ((scramblingSeq size q nid nRnti)[n / 32]?.getD 0).getLsbD (n % 32) with
  | false =>
    rw [hbit, Bool.xor_false] at hd
    simpa using hd
  | true =>
    rw [hbit, Bool.xor_true] at hd
    simpa using hd.neg

/-- The second of three bits of a word, with soft bits that have the signs of the scrambled ones. -/
theorem unscrambling_scrambling_three : ∃ x,
    (nrCodewordUnscrambling [-100, -3, 50] 3 0 7 9)[1]? = some x ∧ Decides x (wordsBit [5] 1) := by
  refine unscrambling_scrambling (by decide) (fun n hn => ?_) 1 (by decide)
  unfold Decides
  interval_cases n
  · exact ⟨-100, rfl, by decide +kernel⟩
  · exact ⟨-3, rfl, by decide +kernel⟩
  · exact ⟨50, rfl, by decide +kernel⟩

end NrStack
