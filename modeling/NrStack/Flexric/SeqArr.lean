import NrStack.Library.Block

/-!
# The growing array

`seq_arr.c` : elements of one size in an allocated block, which doubles when one place is left and
halves when less than a quarter is used. The half is allocated with `calloc(tmp.cap, tmp.cap)`, so
it has as many bytes for an element as it has places : too few for large elements in a short array.
As long as no such array shrinks, the array holds its list, and nothing is written outside the block
(`seqArr_runs`).

None of the sizes wraps : a block has less than `2 ^ 63` bytes, a larger allocation fails.
-/

namespace NrStack

/-- A failed assertion, or an access outside the block. -/
inductive SeqArrFault
  | assertion
  | outOfBlock
deriving DecidableEq, Repr

/-- `seq_arr_t`, with the allocated block. -/
structure SeqArr where
  data : List UInt8
  size : Nat
  eltSize : Nat
  cap : Nat
deriving DecidableEq, Repr

/-- `(float)n` : 24 significant bits, to the even one between two. -/
def toFloat (n : Nat) : Nat :=
  let ulp := 2 ^ (n.log2 - 23)
  let q := n / ulp
  let r := n % ulp
  (if 2 * r < ulp ∨ 2 * r = ulp ∧ q % 2 = 0 then q else q + 1) * ulp

/-- A number of bytes in an `int`. -/
def toInt (n : Int) : Int :=
  n.bmod (2 ^ 32)

/-- The number in a `size_t`. -/
def toSize (n : Int) : Nat :=
  (n % 2 ^ 64).toNat

/-- Read `n` bytes from `off` on. -/
def load (off n : Nat) : BlockM UInt8 SeqArrFault (List UInt8) := fun b =>
  if off + n ≤ b.length then .ok ((b.drop off).take n, b) else .error .outOfBlock

/-- `calloc` of `n` bytes, and the assertion that follows it. -/
def calloc (n : Nat) : Except SeqArrFault (List UInt8) :=
  if n < 2 ^ 63 then .ok (List.replicate n 0) else .error .assertion

/-- `realloc` to `n` bytes, and the assertion. -/
def realloc (b : List UInt8) (n : Nat) : Except SeqArrFault (List UInt8) :=
  if n < 2 ^ 63 then .ok (b.take n ++ List.replicate (n - b.length) 0) else .error .assertion

namespace SeqArr

/-- `seq_arr_init` -/
def init (eltSize : Nat) : Except SeqArrFault SeqArr := do
  let data ← calloc (8 * eltSize)
  return { data := data, size := 0, eltSize := eltSize, cap := 8 }

/-- `maybe_expand` -/
def maybeExpand (arr : SeqArr) : Except SeqArrFault SeqArr :=
  if arr.size + 1 = arr.cap then do
    let data ← realloc arr.data (2 * arr.cap * arr.eltSize)
    return { arr with data := data, cap := 2 * arr.cap }
  else return arr

/-- The test of `maybe_shrink`. The capacity is a power of two, so the quotient is exact. -/
def sparse (arr : SeqArr) : Bool :=
  8 < arr.size ∧ 4 * toFloat arr.size < toFloat arr.cap

/-- `maybe_shrink` -/
def maybeShrink (arr : SeqArr) : Except SeqArrFault SeqArr :=
  if arr.sparse then
    if arr.cap ≤ 8 then .error .assertion
    else do
      let cap := arr.cap / 2
      -- `tmp.cap` twice, in place of the size of an element
      let data ← calloc (cap * cap)
      if cap < arr.size then .error .assertion
      else do
        let (bytes, _) ← load 0 (arr.size * arr.eltSize) arr.data
        let (_, data) ← store .outOfBlock 0 bytes data
        return { arr with data := data, cap := cap }
  else return arr

/-- `seq_arr_push_back` -/
def pushBack (arr : SeqArr) (elt : List UInt8) : Except SeqArrFault SeqArr :=
  if elt.length ≠ arr.eltSize then .error .assertion
  else do
    let arr ← arr.maybeExpand
    let (_, data) ← store .outOfBlock (arr.size * arr.eltSize) elt arr.data
    return { arr with data := data, size := arr.size + 1 }

/-- `seq_arr_erase`, from the iterator at element `i` to the one at `j`. -/
def erase (arr : SeqArr) (i j : Nat) : Except SeqArrFault SeqArr :=
  if j < i then .error .assertion
  else if i = j then return arr
  else do
    let numBytesMove := toInt ((arr.size * arr.eltSize : Nat) - (j * arr.eltSize : Nat))
    if numBytesMove ≤ -1 then .error .assertion
    else do
      let (bytes, _) ← load (j * arr.eltSize) numBytesMove.toNat arr.data
      let (_, data) ← store .outOfBlock (i * arr.eltSize) bytes arr.data
      let numBytesErase := toInt ((j * arr.eltSize : Nat) - (i * arr.eltSize : Nat))
      let numEltErase := toInt (toSize numBytesErase / arr.eltSize : Nat)
      if numEltErase ≤ 0 then .error .assertion
      else do
        let size := toSize (arr.size - numEltErase)
        let (_, data) ← store .outOfBlock (size * arr.eltSize)
          (List.replicate (toSize numBytesErase) 0) data
        maybeShrink { arr with data := data, size := size }

/-- The elements, as iterators reach them. -/
def contents (arr : SeqArr) : List (List UInt8) :=
  (List.range arr.size).map fun k => (arr.data.drop (k * arr.eltSize)).take arr.eltSize

end SeqArr

/-! ## Rounding -/

/-- A power of two below a number is not above its rounding. -/
theorem two_pow_le_toFloat {n m : Nat} (h : 2 ^ m ≤ n) : 2 ^ m ≤ toFloat n := by
  have hn : n ≠ 0 := (Nat.two_pow_pos m).trans_le h |>.ne'
  have hm : m ≤ n.log2 := (Nat.le_log2 hn).2 h
  have hlog : 2 ^ n.log2 ≤ n := Nat.log2_self_le hn
  have hq : 2 ^ n.log2 ≤ n / 2 ^ (n.log2 - 23) * 2 ^ (n.log2 - 23) := by
    rcases Nat.le_total n.log2 23 with hle | hge
    · rwa [Nat.sub_eq_zero_of_le hle, pow_zero, Nat.div_one, Nat.mul_one]
    · have hsplit : 2 ^ n.log2 = 2 ^ 23 * 2 ^ (n.log2 - 23) := by
        rw [← pow_add]
        congr 1
        omega
      have hdiv : 2 ^ 23 ≤ n / 2 ^ (n.log2 - 23) :=
        (Nat.le_div_iff_mul_le (Nat.two_pow_pos _)).2 (hsplit ▸ hlog)
      calc 2 ^ n.log2 = 2 ^ 23 * 2 ^ (n.log2 - 23) := hsplit
        _ ≤ _ := Nat.mul_le_mul_right _ hdiv
  refine (Nat.pow_le_pow_right (by decide) hm).trans (hq.trans ?_)
  unfold toFloat
  dsimp only
  split_ifs
  · exact le_rfl
  · exact Nat.mul_le_mul_right _ (Nat.le_succ _)

/-- A power of two is its own rounding. -/
theorem toFloat_two_pow (m : Nat) : toFloat (2 ^ m) = 2 ^ m := by
  have hdvd : 2 ^ (m - 23) ∣ 2 ^ m := Nat.pow_dvd_pow 2 (Nat.sub_le m 23)
  unfold toFloat
  dsimp only
  rw [Nat.log2_two_pow, Nat.mod_eq_zero_of_dvd hdvd, if_pos (Or.inl (by positivity)),
    Nat.div_mul_cancel hdvd]

/-! ## Allocations -/

theorem calloc_ends (n : Nat) :
    EndsIn (· = .assertion) (fun b => n < 2 ^ 63 ∧ b = List.replicate n 0) (calloc n) := by
  unfold calloc
  split_ifs with h
  · exact ⟨h, rfl⟩
  · rfl

theorem realloc_ends (b : List UInt8) (n : Nat) :
    EndsIn (· = .assertion)
      (fun b' => n < 2 ^ 63 ∧ b' = b.take n ++ List.replicate (n - b.length) 0) (realloc b n) := by
  unfold realloc
  split_ifs with h
  · exact ⟨h, rfl⟩
  · rfl

theorem load_eq {b : List UInt8} {off n : Nat} (h : off + n ≤ b.length) :
    load off n b = .ok ((b.drop off).take n, b) :=
  if_pos h

/-! ## The invariant -/

/-- The elements in a row at the front of a block that has room for the capacity. -/
structure SeqArrInv (arr : SeqArr) (l : List (List UInt8)) : Prop where
  eltSize_pos : 0 < arr.eltSize
  elts : ∀ e ∈ l, e.length = arr.eltSize
  size_eq : arr.size = l.length
  size_lt : arr.size < arr.cap
  cap_le : arr.cap * arr.eltSize ≤ arr.data.length
  data_lt : arr.data.length < 2 ^ 63
  bytes : arr.data.take (arr.size * arr.eltSize) = l.flatten
  cap_eq : ∃ k, arr.cap = 2 ^ (k + 3)

section Flatten

variable {n : Nat} {l : List (List UInt8)}

theorem length_flatten_of_forall (h : ∀ e ∈ l, e.length = n) : l.flatten.length = l.length * n := by
  have hmap : l.map List.length = List.replicate (l.map List.length).length n :=
    List.eq_replicate_of_mem (by simpa using h)
  rw [List.length_flatten, hmap]
  simp

/-- Element `k` of a row of elements of `n` bytes. -/
theorem take_drop_flatten (h : ∀ e ∈ l, e.length = n) {k : Nat} (hk : k < l.length) :
    (l.flatten.drop (k * n)).take n = l[k] := by
  induction l generalizing k with
  | nil => exact absurd hk (Nat.not_lt_zero _)
  | cons e l ih =>
    have he : e.length = n := h e List.mem_cons_self
    have hl : ∀ e ∈ l, e.length = n := fun e' he' => h e' (List.mem_cons_of_mem _ he')
    cases k with
    | zero => simp [← he]
    | succ k =>
      have hlen : e.length ≤ (k + 1) * n := by
        rw [he, Nat.add_mul]
        omega
      have hsub : (k + 1) * n - e.length = k * n := by
        rw [he, Nat.add_mul]
        omega
      rw [List.flatten_cons, List.drop_append, List.drop_eq_nil_of_le hlen, List.nil_append, hsub]
      exact ih hl (Nat.lt_of_succ_lt_succ hk)

end Flatten

namespace SeqArrInv

variable {arr : SeqArr} {l : List (List UInt8)}

theorem contents (h : SeqArrInv arr l) : arr.contents = l := by
  refine List.ext_getElem (by simp [SeqArr.contents, h.size_eq]) fun k hk hk' => ?_
  have hroom : k * arr.eltSize + arr.eltSize ≤ arr.size * arr.eltSize := by
    rw [← Nat.succ_mul, h.size_eq]
    exact Nat.mul_le_mul_right _ hk'
  have helt := take_drop_flatten h.elts hk'
  rw [← h.bytes, List.drop_take, List.take_take, min_eq_left (by omega)] at helt
  rw [← helt]
  simp [SeqArr.contents]

/-- All the elements are in the block. -/
theorem size_mul_le (h : SeqArrInv arr l) : arr.size * arr.eltSize ≤ arr.data.length :=
  (Nat.mul_le_mul_right _ h.size_lt.le).trans h.cap_le

theorem init {eltSize : Nat} (hpos : 0 < eltSize) :
    EndsIn (· = .assertion) (SeqArrInv · []) (SeqArr.init eltSize) := by
  refine (calloc_ends _).bind ?_
  rintro data ⟨hlt, rfl⟩
  exact {
    eltSize_pos := hpos
    elts := by simp
    size_eq := rfl
    size_lt := Nat.zero_lt_succ _
    cap_le := by simp
    data_lt := by simpa using hlt
    bytes := by simp
    cap_eq := ⟨0, rfl⟩ }

/-! ## Pushing -/

/-- After `maybe_expand` there are two places. -/
theorem maybeExpand (h : SeqArrInv arr l) :
    EndsIn (· = .assertion) (fun arr' => SeqArrInv arr' l ∧ arr'.eltSize = arr.eltSize ∧
      arr'.size + 1 < arr'.cap) arr.maybeExpand := by
  have hlt := h.size_lt
  unfold SeqArr.maybeExpand
  split_ifs with hfull
  · refine (realloc_ends _ _).bind ?_
    rintro data ⟨hbig, rfl⟩
    obtain ⟨k, hk⟩ := h.cap_eq
    have hle : arr.size * arr.eltSize ≤ 2 * arr.cap * arr.eltSize :=
      Nat.mul_le_mul_right _ (by omega)
    have hlen : (arr.data.take (2 * arr.cap * arr.eltSize) ++ List.replicate
        (2 * arr.cap * arr.eltSize - arr.data.length) 0).length = 2 * arr.cap * arr.eltSize := by
      rw [List.length_append, List.length_take, List.length_replicate]
      omega
    refine ⟨{ h with
      size_lt := ?_
      cap_le := hlen.ge
      data_lt := hlen.trans_lt hbig
      bytes := ?_
      cap_eq := ⟨k + 1, ?_⟩ }, rfl, ?_⟩
    · dsimp only
      omega
    · have htake : arr.size * arr.eltSize ≤ (arr.data.take (2 * arr.cap * arr.eltSize)).length := by
        rw [List.length_take]
        exact le_min hle h.size_mul_le
      dsimp only
      rw [List.take_append_of_le_length htake, List.take_take, min_eq_left hle, h.bytes]
    · dsimp only
      rw [hk]
      ring
    · dsimp only
      omega
  · exact ⟨h, rfl, by omega⟩

/-- An element goes to the end, inside the block. -/
theorem pushBack (h : SeqArrInv arr l) (elt : List UInt8) :
    EndsIn (· = .assertion) (fun arr' => SeqArrInv arr' (l ++ [elt]) ∧ arr'.eltSize = arr.eltSize)
      (arr.pushBack elt) := by
  unfold SeqArr.pushBack
  split_ifs with hlen
  · rfl
  refine h.maybeExpand.bind fun arr' h' => ?_
  obtain ⟨hinv, helt, hroom⟩ := h'
  have hlen' : elt.length = arr'.eltSize := by
    rw [helt]
    exact not_not.1 hlen
  have hnext : (arr'.size + 1) * arr'.eltSize = arr'.size * arr'.eltSize + elt.length := by
    rw [Nat.add_mul, Nat.one_mul, hlen']
  have hfit : arr'.size * arr'.eltSize + elt.length ≤ arr'.data.length := by
    rw [← hnext]
    exact (Nat.mul_le_mul_right _ (by omega)).trans hinv.cap_le
  rw [store_eq _ hfit]
  refine ⟨{ hinv with
    elts := ?_
    size_eq := ?_
    size_lt := hroom
    cap_le := ?_
    data_lt := ?_
    bytes := ?_ }, helt⟩
  · intro e he
    rcases List.mem_append.1 he with he | he
    · exact hinv.elts e he
    · rw [List.mem_singleton.1 he, hlen']
  · dsimp only
    rw [hinv.size_eq, List.length_append, List.length_singleton]
  · dsimp only
    rw [length_overwrite hfit]
    exact hinv.cap_le
  · dsimp only
    rw [length_overwrite hfit]
    exact hinv.data_lt
  · dsimp only
    rw [hnext, take_overwrite_add hfit, hinv.bytes, List.flatten_append, List.flatten_singleton]

/-! ## Erasing -/

/-- Less than a quarter of the places is used. -/
theorem lt_of_sparse_of_cap (hcap : ∃ k, arr.cap = 2 ^ (k + 3)) (hsparse : arr.sparse) :
    8 < arr.size ∧ 4 * arr.size < arr.cap := by
  obtain ⟨k, hk⟩ := hcap
  obtain ⟨h8, hocc⟩ : 8 < arr.size ∧ 4 * toFloat arr.size < toFloat arr.cap :=
    of_decide_eq_true hsparse
  refine ⟨h8, ?_⟩
  by_contra hge
  have hcap : arr.cap = 4 * 2 ^ (k + 1) := by
    rw [hk]
    ring
  have hround : 2 ^ (k + 1) ≤ toFloat arr.size := two_pow_le_toFloat (by omega)
  rw [hk, toFloat_two_pow, ← hk] at hocc
  omega

theorem lt_of_sparse (h : SeqArrInv arr l) (hsparse : arr.sparse) :
    8 < arr.size ∧ 4 * arr.size < arr.cap :=
  lt_of_sparse_of_cap h.cap_eq hsparse

/-- `maybe_shrink` copies all the elements, if the half has room for its capacity. -/
theorem maybeShrink (h : SeqArrInv arr l) (hroom : arr.sparse → arr.eltSize ≤ arr.cap / 2) :
    EndsIn (· = .assertion) (fun arr' => SeqArrInv arr' l ∧ arr'.eltSize = arr.eltSize)
      arr.maybeShrink := by
  unfold SeqArr.maybeShrink
  split_ifs with hsparse hcap
  · rfl
  · obtain ⟨h8, hquarter⟩ := h.lt_of_sparse hsparse
    have hhalf : arr.size < arr.cap / 2 := by omega
    have hcopy : arr.size * arr.eltSize ≤ arr.cap / 2 * (arr.cap / 2) :=
      Nat.mul_le_mul hhalf.le (hroom hsparse)
    have hflat : l.flatten.length = arr.size * arr.eltSize := by
      rw [length_flatten_of_forall h.elts, h.size_eq]
    refine (calloc_ends _).bind ?_
    rintro data ⟨hlt, rfl⟩
    have hload : load 0 (arr.size * arr.eltSize) arr.data = .ok (l.flatten, arr.data) := by
      rw [load_eq (by rw [Nat.zero_add]; exact h.size_mul_le), List.drop_zero, h.bytes]
    have hfit : 0 + l.flatten.length ≤
        (List.replicate (arr.cap / 2 * (arr.cap / 2)) (0 : UInt8)).length := by
      rw [List.length_replicate, hflat, Nat.zero_add]
      exact hcopy
    rw [if_neg (by omega), hload]
    refine EndsIn.bind (P := fun x => x = (l.flatten, arr.data)) rfl ?_
    rintro _ rfl
    dsimp only
    rw [store_eq _ hfit]
    refine ⟨{ h with
      size_lt := hhalf
      cap_le := ?_
      data_lt := ?_
      bytes := ?_
      cap_eq := ?_ }, rfl⟩
    · dsimp only
      rw [length_overwrite hfit, List.length_replicate]
      exact Nat.mul_le_mul_left _ (hroom hsparse)
    · dsimp only
      rwa [length_overwrite hfit, List.length_replicate]
    · dsimp only
      rw [← hflat]
      exact take_overwrite_zero (by simpa using hfit)
    · obtain ⟨k, hk⟩ := h.cap_eq
      cases k with
      | zero => omega
      | succ k =>
        refine ⟨k, ?_⟩
        dsimp only
        rw [hk, Nat.add_right_comm, pow_succ, Nat.mul_div_cancel _ (by decide)]
  · exact ⟨h, rfl⟩

end SeqArrInv

/-- The bytes of `seq_arr_erase` fit in an `int`, and what is left over does not go to a block that
is too small for it. -/
structure EraseFits (arr : SeqArr) (i j : Nat) : Prop where
  move : (arr.size - j) * arr.eltSize < 2 ^ 31
  erased : (j - i) * arr.eltSize < 2 ^ 31
  shrink : { arr with size := arr.size - (j - i) }.sparse → arr.eltSize ≤ arr.cap / 2

namespace SeqArrInv

variable {arr : SeqArr} {l : List (List UInt8)} {i j : Nat}

theorem toInt_eq {n : Nat} (h : n < 2 ^ 31) : toInt n = n := by
  exact Int.bmod_eq_of_le (by omega) (by omega)

theorem toSize_eq {n : Nat} (h : n < 2 ^ 64) : toSize n = n := by
  unfold toSize
  omega

theorem not_le_neg_one (n : ℕ) : ¬(n : ℤ) ≤ -1 := by
  omega

/-- The numbers of `seq_arr_erase`, when none is cut. -/
theorem erase_eq (h : SeqArrInv arr l) (hij : i < j) (hj : j ≤ l.length)
    (hfit : EraseFits arr i j) :
    arr.erase i j = (do
      let (bytes, _) ← load (j * arr.eltSize) ((arr.size - j) * arr.eltSize) arr.data
      let (_, data) ← store .outOfBlock (i * arr.eltSize) bytes arr.data
      let (_, data) ← store .outOfBlock ((arr.size - (j - i)) * arr.eltSize)
        (List.replicate ((j - i) * arr.eltSize) 0) data
      SeqArr.maybeShrink { arr with data := data, size := arr.size - (j - i) }) := by
  have hpos := h.eltSize_pos
  have hsize := h.size_eq
  have hmove : (((arr.size * arr.eltSize : ℕ) : ℤ) - (j * arr.eltSize : ℕ)) =
      ((arr.size - j) * arr.eltSize : ℕ) := by
    rw [Nat.sub_mul, Nat.cast_sub (Nat.mul_le_mul_right _ (by omega))]
  have herased : (((j * arr.eltSize : ℕ) : ℤ) - (i * arr.eltSize : ℕ)) =
      ((j - i) * arr.eltSize : ℕ) := by
    rw [Nat.sub_mul, Nat.cast_sub (Nat.mul_le_mul_right _ hij.le)]
  have hsz : toSize ((j - i) * arr.eltSize : ℕ) = (j - i) * arr.eltSize :=
    toSize_eq (hfit.erased.trans (by norm_num))
  have hidx : toInt ((toSize ((j - i) * arr.eltSize : ℕ) / arr.eltSize : ℕ) : ℤ) = (j - i : ℕ) := by
    rw [hsz, Nat.mul_div_cancel _ hpos,
      toInt_eq ((Nat.le_mul_of_pos_right _ hpos).trans_lt hfit.erased)]
  have hleft : toSize ((arr.size : ℤ) - (j - i : ℕ)) = arr.size - (j - i) := by
    have hlt : arr.size < 2 ^ 63 :=
      ((Nat.le_mul_of_pos_right _ hpos).trans h.size_mul_le).trans_lt h.data_lt
    rw [← Nat.cast_sub (by omega), toSize_eq]
    exact (Nat.sub_le _ _).trans_lt (hlt.trans (by norm_num))
  have hone : ¬((j - i : ℕ) : ℤ) ≤ 0 := by omega
  unfold SeqArr.erase
  rw [if_neg hij.not_gt, if_neg hij.ne, hmove, herased, toInt_eq hfit.move, toInt_eq hfit.erased]
  dsimp only
  rw [hidx, hleft, hsz, if_neg (not_le_neg_one _), Int.toNat_natCast]
  simp only [if_neg hone]

/-- Where the elements of a part of the list start. -/
theorem length_flatten_take (h : SeqArrInv arr l) (hi : i ≤ l.length) :
    (l.take i).flatten.length = i * arr.eltSize := by
  rw [length_flatten_of_forall fun e he => h.elts e (List.mem_of_mem_take he), List.length_take,
    min_eq_left hi]

theorem length_flatten_drop (h : SeqArrInv arr l) :
    (l.drop j).flatten.length = (arr.size - j) * arr.eltSize := by
  rw [length_flatten_of_forall fun e he => h.elts e (List.mem_of_mem_drop he), List.length_drop,
    h.size_eq]

/-- The bytes of the first elements. -/
theorem take_data (h : SeqArrInv arr l) (hi : i ≤ l.length) :
    arr.data.take (i * arr.eltSize) = (l.take i).flatten := by
  have hle : i * arr.eltSize ≤ arr.size * arr.eltSize := Nat.mul_le_mul_right _ (h.size_eq ▸ hi)
  have hsplit : l.flatten = (l.take i).flatten ++ (l.drop i).flatten := by
    rw [← List.flatten_append, List.take_append_drop]
  have htake := congrArg (List.take (i * arr.eltSize)) h.bytes
  rw [List.take_take, min_eq_left hle, hsplit] at htake
  rw [htake, List.take_left' (h.length_flatten_take hi)]

/-- The bytes of the last ones. -/
theorem load_drop (h : SeqArrInv arr l) (hj : j ≤ l.length) :
    load (j * arr.eltSize) ((arr.size - j) * arr.eltSize) arr.data =
      .ok ((l.drop j).flatten, arr.data) := by
  have hsplit : j * arr.eltSize + (arr.size - j) * arr.eltSize = arr.size * arr.eltSize := by
    rw [← Nat.add_mul, Nat.add_sub_cancel' (h.size_eq ▸ hj)]
  rw [load_eq (hsplit.trans_le h.size_mul_le)]
  have hparts : l.flatten = (l.take j).flatten ++ (l.drop j).flatten := by
    rw [← List.flatten_append, List.take_append_drop]
  have hdrop := congrArg (List.drop (j * arr.eltSize)) h.bytes
  rw [hparts, List.drop_left' (h.length_flatten_take hj), ← hsplit, List.drop_take,
    Nat.add_sub_cancel_left] at hdrop
  rw [hdrop]

/-- The elements between the iterators are gone, and the others stay. -/
theorem erase (h : SeqArrInv arr l) (hij : i ≤ j) (hj : j ≤ l.length)
    (hfits : i < j → EraseFits arr i j) :
    EndsIn (· = .assertion)
      (fun arr' => SeqArrInv arr' (l.take i ++ l.drop j) ∧ arr'.eltSize = arr.eltSize)
      (arr.erase i j) := by
  rcases Nat.eq_or_lt_of_le hij with rfl | hlt
  · have hnop : arr.erase i i = .ok arr := by
      unfold SeqArr.erase
      rw [if_neg (lt_irrefl i), if_pos rfl]
      rfl
    rw [hnop, List.take_append_drop]
    exact ⟨h, rfl⟩
  have hi : i ≤ l.length := hij.trans hj
  have hsize := h.size_eq
  have hlen := h.length_flatten_drop (j := j)
  have hnew : (arr.size - (j - i)) * arr.eltSize =
      i * arr.eltSize + (l.drop j).flatten.length := by
    rw [hlen, ← Nat.add_mul]
    congr 1
    omega
  have hold : (arr.size - (j - i)) * arr.eltSize + (j - i) * arr.eltSize =
      arr.size * arr.eltSize := by
    rw [← Nat.add_mul, Nat.sub_add_cancel (by omega)]
  have hroom := h.size_mul_le
  have hfit₁ : i * arr.eltSize + (l.drop j).flatten.length ≤ arr.data.length := by omega
  have hlen₁ := length_overwrite hfit₁
  have hfit₂ : (arr.size - (j - i)) * arr.eltSize +
      (List.replicate ((j - i) * arr.eltSize) (0 : UInt8)).length ≤
        (overwrite arr.data (i * arr.eltSize) (l.drop j).flatten).length := by
    rw [List.length_replicate, hlen₁]
    omega
  rw [h.erase_eq hlt hj (hfits hlt), h.load_drop hj]
  refine EndsIn.bind (P := fun x => x = ((l.drop j).flatten, arr.data)) rfl ?_
  rintro _ rfl
  dsimp only
  rw [store_eq _ hfit₁]
  refine EndsIn.bind
    (P := fun x => x = ((), overwrite arr.data (i * arr.eltSize) (l.drop j).flatten)) rfl ?_
  rintro _ rfl
  dsimp only
  rw [store_eq _ hfit₂]
  refine EndsIn.bind (P := fun x => x = ((), overwrite
    (overwrite arr.data (i * arr.eltSize) (l.drop j).flatten) ((arr.size - (j - i)) * arr.eltSize)
    (List.replicate ((j - i) * arr.eltSize) 0))) rfl ?_
  rintro _ rfl
  refine maybeShrink { h with
    elts := ?_
    size_eq := ?_
    size_lt := ?_
    cap_le := ?_
    data_lt := ?_
    bytes := ?_ } (hfits hlt).shrink
  · intro e he
    rcases List.mem_append.1 he with he | he
    · exact h.elts e (List.mem_of_mem_take he)
    · exact h.elts e (List.mem_of_mem_drop he)
  · dsimp only
    rw [List.length_append, List.length_take, List.length_drop, min_eq_left hi]
    omega
  · exact (Nat.sub_le _ _).trans_lt h.size_lt
  · dsimp only
    rw [length_overwrite hfit₂, hlen₁]
    exact h.cap_le
  · dsimp only
    rw [length_overwrite hfit₂, hlen₁]
    exact h.data_lt
  · dsimp only
    rw [take_overwrite hfit₂, hnew, take_overwrite_add hfit₁, h.take_data hi, List.flatten_append]

end SeqArrInv

/-! ## Runs -/

/-- Pushes and erasures of ranges that `ok` admits, from an empty array, and the list they make. -/
inductive SeqArrRun (ok : SeqArr → Nat → Nat → Prop) (eltSize : Nat) :
    SeqArr → List (List UInt8) → Prop
  | init {arr : SeqArr} (hop : SeqArr.init eltSize = .ok arr) : SeqArrRun ok eltSize arr []
  | push {arr arr' : SeqArr} {l : List (List UInt8)} {elt : List UInt8}
      (h : SeqArrRun ok eltSize arr l) (hop : arr.pushBack elt = .ok arr') :
      SeqArrRun ok eltSize arr' (l ++ [elt])
  | erase {arr arr' : SeqArr} {l : List (List UInt8)} {i j : Nat}
      (h : SeqArrRun ok eltSize arr l) (hij : i ≤ j) (hj : j ≤ l.length) (hok : i < j → ok arr i j)
      (hop : arr.erase i j = .ok arr') : SeqArrRun ok eltSize arr' (l.take i ++ l.drop j)

variable {arr : SeqArr} {l : List (List UInt8)} {eltSize : Nat}

theorem SeqArrRun.inv (hpos : 1 ≤ eltSize) (h : SeqArrRun EraseFits eltSize arr l) :
    SeqArrInv arr l ∧ arr.eltSize = eltSize := by
  induction h with
  | init hop =>
    refine ⟨(SeqArrInv.init hpos).of_ok hop, ?_⟩
    unfold SeqArr.init calloc at hop
    split_ifs at hop
    · cases hop
      rfl
    · cases hop
  | push _ hop ih =>
    obtain ⟨hinv, helt⟩ := (ih.1.pushBack _).of_ok hop
    exact ⟨hinv, helt.trans ih.2⟩
  | erase _ hij hj hfits hop ih =>
    obtain ⟨hinv, helt⟩ := (ih.1.erase hij hj hfits).of_ok hop
    exact ⟨hinv, helt.trans ih.2⟩

/-- As long as no erasure shrinks to a block that is too small, the array holds its list with a
place left, the block has room for the capacity, and no operation writes outside it. -/
theorem seqArr_runs (hpos : 1 ≤ eltSize) (h : SeqArrRun EraseFits eltSize arr l) :
    arr.contents = l ∧ arr.size = l.length ∧ arr.size < arr.cap ∧
      arr.cap * eltSize ≤ arr.data.length ∧
      (∀ elt, arr.pushBack elt ≠ .error .outOfBlock) ∧
      ∀ i j, i ≤ j → j ≤ l.length → (i < j → EraseFits arr i j) →
        arr.erase i j ≠ .error .outOfBlock := by
  obtain ⟨hinv, rfl⟩ := h.inv hpos
  refine ⟨hinv.contents, hinv.size_eq, hinv.size_lt, hinv.cap_le, fun elt herr => ?_,
    fun i j hij hj hfits herr => ?_⟩
  · exact absurd ((hinv.pushBack elt).of_error herr) (by decide)
  · exact absurd ((hinv.erase hij hj hfits).of_error herr) (by decide)

/-- `n` pushes of one element. -/
def pushTimes (elt : List UInt8) (n : Nat) : Except SeqArrFault SeqArr :=
  n.fold (fun _ _ r => r.bind fun arr => arr.pushBack elt) (SeqArr.init elt.length)

theorem pushTimes_run {ok : SeqArr → Nat → Nat → Prop} {elt : List UInt8} {n : Nat}
    (h : pushTimes elt n = .ok arr) : SeqArrRun ok elt.length arr (List.replicate n elt) := by
  induction n generalizing arr with
  | zero => exact .init h
  | succ n ih =>
    rw [List.replicate_succ']
    have hstep : (pushTimes elt n).bind (fun arr => arr.pushBack elt) = .ok arr := by
      unfold pushTimes at h ⊢
      rwa [Nat.fold_succ] at h
    obtain ⟨prev, hprev, hpush⟩ := exists_of_bind_ok hstep
    exact .push (ih hprev) hpush

/-- An array of 32 elements of 33 bytes, all but 12 of which are erased. -/
def shrunk : Except SeqArrFault SeqArr :=
  (pushTimes (List.replicate 33 0) 32).bind fun arr => arr.erase 0 20

theorem seqArr_runs_two : ∃ arr, pushTimes [1, 2] 2 = .ok arr ∧
    arr.contents = [[1, 2], [1, 2]] ∧ arr.size = 2 ∧ arr.size < arr.cap ∧
      arr.cap * 2 ≤ arr.data.length ∧
      (∀ elt, arr.pushBack elt ≠ .error .outOfBlock) ∧
      ∀ i j, i ≤ j → j ≤ 2 → (i < j → EraseFits arr i j) → arr.erase i j ≠ .error .outOfBlock := by
  obtain ⟨arr, harr⟩ : ∃ arr, pushTimes [1, 2] 2 = .ok arr := ⟨_, rfl⟩
  exact ⟨arr, harr, seqArr_runs (by decide) (pushTimes_run harr)⟩

/-- The block has 1024 bytes then, for a capacity of 32. -/
theorem not_seqArr_block : ¬∀ eltSize arr l, 1 ≤ eltSize →
    SeqArrRun (fun _ _ _ => True) eltSize arr l → arr.cap * eltSize ≤ arr.data.length := by
  intro hall
  have hrun : shrunk.toOption.map (fun arr => (arr.cap, arr.data.length)) = some (32, 1024) := by
    decide +kernel
  cases hshrunk : shrunk with
  | error e => simp [hshrunk, Except.toOption] at hrun
  | ok arr =>
    obtain ⟨full, hfull, herase⟩ := exists_of_bind_ok hshrunk
    have hsize := hall 33 arr _ (by decide)
      (.erase (pushTimes_run hfull) (Nat.zero_le 20) (by simp) (fun _ => trivial) herase)
    simp only [hshrunk, Except.toOption, Option.map_some, Option.some.injEq, Prod.mk.injEq] at hrun
    omega

end NrStack
