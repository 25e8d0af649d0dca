import NrStack.Flexric.SeqArr
import NrStack.Library.Ring

/-!
# The growing ring

`seq_ring.c` : a circular buffer with a place left, whose counters are only masked when the array is
accessed, and which doubles when it is full. Its elements from front to end are the list of a queue
(`seqRing_runs`) as long as it has fewer than `2 ^ 31` of them. `seq_ring_dist` takes two equal
iterators to be a whole turn apart, and `seq_ring_erase` takes them to be an empty range.

An iterator is the position it points to. The positions are cut to a `uint32_t` as in the code.
-/

namespace NrStack

/-- `seq_ring_t`, with the elements of the array. -/
structure SeqRing (α : Type) where
  array : List α
  cap : Nat
  head : Nat
  tail : Nat
deriving DecidableEq, Repr

/-- `n` elements of `src` from `i` on, to `dst` from `off` on. -/
def memcpy {α : Type} (dst : List α) (off : Nat) (src : List α) (i n : Nat) : Option (List α) :=
  if off + n ≤ dst.length ∧ i + n ≤ src.length then
    some (overwrite dst off ((src.drop i).take n))
  else none

/-- `n` elements from `off` on become `x`. -/
def memset {α : Type} (dst : List α) (off : Nat) (x : α) (n : Nat) : Option (List α) :=
  if off + n ≤ dst.length then some (overwrite dst off (List.replicate n x)) else none

/-- The number in a `uint32_t`. -/
def toU32 (n : Nat) : Nat :=
  n % 2 ^ 32

/-- `val & (cap - 1)`, of two `uint32_t`. -/
def mask (cap val : Nat) : Nat :=
  toU32 val &&& toU32 (toU32 cap + 2 ^ 32 - 1)

namespace SeqRing

variable {α : Type} (zero : α) (r : SeqRing α)

/-- `seq_ring_init` -/
def init : SeqRing α :=
  { array := List.replicate 32 zero, cap := 32, head := 0, tail := 0 }

/-- `seq_ring_size` -/
def size : Nat :=
  toU32 (r.head + 2 ^ 32 - r.tail)

/-- `full` -/
def full : Bool :=
  r.size = r.cap - 1

/-- `seq_ring_front` -/
def front : Nat :=
  mask r.cap r.tail

/-- `seq_ring_end` -/
def end' : Nat :=
  mask r.cap r.head

/-- `seq_ring_next` -/
def next (it : Nat) : Nat :=
  if toU32 (it + 1) = r.cap then 0 else it + 1

/-- `seq_ring_at` -/
def at' (pos : Nat) : Nat :=
  mask r.cap (r.tail + pos)

/-- `seq_ring_dist` -/
def dist (first last : Nat) : Int :=
  let lastPos := toU32 last
  let firstPos := toU32 first
  if firstPos < lastPos then toInt (lastPos - firstPos : Nat)
  else toInt ((r.cap - firstPos) + lastPos : Nat)

/-- `enlarge_buffer` -/
def enlargeBuffer : Option (SeqRing α) := do
  let tmpBuffer := List.replicate (r.cap * 2) zero
  let headPos := mask r.cap r.head
  let tailPos := mask r.cap r.tail
  let tmpBuffer ←
    if tailPos < headPos then memcpy tmpBuffer 0 r.array tailPos (headPos - tailPos)
    else do
      let tmpBuffer ← memcpy tmpBuffer 0 r.array tailPos (r.cap - tailPos)
      memcpy tmpBuffer (r.cap - tailPos) r.array 0 headPos
  let cap := r.cap * 2
  return { array := tmpBuffer, cap := cap, tail := 0, head := toU32 (cap / 2 - 1) }

/-- `seq_ring_push_back` -/
def pushBack (x : α) : Option (SeqRing α) :=
  (if r.full then r.enlargeBuffer zero else some r).bind fun r =>
    let pos := mask r.cap r.head
    if pos < r.array.length then
      some { r with array := r.array.set pos x, head := toU32 (r.head + 1) }
    else none

/-- `seq_ring_erase` -/
def erase (itStart itEnd : Nat) : Option (SeqRing α) :=
  if itStart ≠ r.front then none
  else if itStart = itEnd then some r
  else
    let startPos := toU32 itStart
    let endPos := toU32 itEnd
    if r.cap < endPos then none
    else
      (if startPos < endPos then do
        let array ← memset r.array startPos zero (endPos - startPos)
        return { r with array := array, tail := toU32 (r.tail + (endPos - startPos)) }
      else do
        let array ← memset r.array startPos zero (r.cap - startPos)
        let array ← memset array 0 zero endPos
        return { r with array := array, tail := toU32 (r.tail + (r.cap - startPos + endPos)) }
      ).bind fun r => if mask r.cap r.tail = endPos then some r else none

/-- The elements that a loop from an iterator to the end meets, as in `seq_ring_free`. -/
def walk : Nat → Nat → Option (List α)
  | 0, _ => none
  | fuel + 1, it =>
    if it = r.end' then some []
    else do
      let x ← r.array[it]?
      let xs ← walk fuel (r.next it)
      return x :: xs

end SeqRing

/-! ## Copies -/

section Copies

variable {α : Type}

theorem memcpy_spec (dst src : List α) (off i n : Nat) (hdst : off + n ≤ dst.length)
    (hsrc : i + n ≤ src.length) :
    ∃ dst', memcpy dst off src i n = some dst' ∧ dst'.length = dst.length ∧
      (∀ j < n, dst'[off + j]? = src[i + j]?) ∧
      ∀ j, j < off ∨ off + n ≤ j → dst'[j]? = dst[j]? := by
  have hlen : ((src.drop i).take n).length = n := by
    rw [List.length_take, List.length_drop]
    omega
  have hfit : off + ((src.drop i).take n).length ≤ dst.length := hlen.symm ▸ hdst
  refine ⟨_, if_pos ⟨hdst, hsrc⟩, length_overwrite hfit, fun j hj => ?_, fun j hj => ?_⟩
  · rw [getElem?_overwrite hfit (hlen.symm ▸ hj), List.getElem?_take_of_lt hj, List.getElem?_drop]
  · rcases hj with hj | hj
    · exact getElem?_overwrite_of_lt hfit hj
    · exact getElem?_overwrite_of_ge hfit (hlen.symm ▸ hj)

theorem memset_spec (dst : List α) (off : Nat) (x : α) (n : Nat) (hdst : off + n ≤ dst.length) :
    ∃ dst', memset dst off x n = some dst' ∧ dst'.length = dst.length ∧
      ∀ j, j < off ∨ off + n ≤ j → dst'[j]? = dst[j]? := by
  have hlen : (List.replicate n x).length = n := List.length_replicate
  have hfit : off + (List.replicate n x).length ≤ dst.length := hlen.symm ▸ hdst
  refine ⟨_, if_pos hdst, length_overwrite hfit, fun j hj => ?_⟩
  rcases hj with hj | hj
  · exact getElem?_overwrite_of_lt hfit hj
  · exact getElem?_overwrite_of_ge hfit (hlen.symm ▸ hj)

end Copies

/-! ## Positions -/

/-- The capacities of less than `2 ^ 31` elements. -/
def IsCap (cap : Nat) : Prop :=
  ∃ k, 5 ≤ k ∧ k ≤ 31 ∧ cap = 2 ^ k

section Caps

variable {cap : Nat}

theorem IsCap.le (h : IsCap cap) : 32 ≤ cap ∧ cap ≤ 2 ^ 31 := by
  obtain ⟨k, hk, hk', rfl⟩ := h
  have h32 : 2 ^ 5 ≤ 2 ^ k := Nat.pow_le_pow_right (by decide) hk
  exact ⟨h32, Nat.pow_le_pow_right (by decide) hk'⟩

theorem IsCap.dvd (h : IsCap cap) : cap ∣ 2 ^ 32 := by
  obtain ⟨k, -, hk, rfl⟩ := h
  exact Nat.pow_dvd_pow 2 (hk.trans (by decide))

/-- The capacity divides the range of the counters, so they may wrap. -/
theorem IsCap.toU32_mod (h : IsCap cap) (n : Nat) : toU32 n % cap = n % cap :=
  Nat.mod_mod_of_dvd n h.dvd

theorem IsCap.mask_eq (h : IsCap cap) (n : Nat) : mask cap n = n % cap := by
  obtain ⟨h32, h31⟩ := h.le
  have hcap : toU32 (toU32 cap + 2 ^ 32 - 1) = cap - 1 := by
    unfold toU32
    omega
  rw [mask, hcap, ← h.toU32_mod]
  obtain ⟨k, -, -, rfl⟩ := h
  exact Nat.and_two_pow_sub_one_eq_mod _ k

end Caps

namespace SeqRing

variable {α : Type} {zero : α} {r : SeqRing α} {j : Nat}

/-- The slots behind the ring. -/
def toRing (r : SeqRing α) : Ring (Option α) where
  slots i := r.array[i]?
  start := r.tail % r.cap
  length := r.size

end SeqRing

/-- The ring holds the list `l`. -/
structure SeqRingInv {α : Type} (r : SeqRing α) (l : List α) : Prop where
  isCap : IsCap r.cap
  length_array : r.array.length = r.cap
  head_lt : r.head < 2 ^ 32
  tail_lt : r.tail < 2 ^ 32
  size_lt : r.size < r.cap
  contents : r.toRing.contents r.cap = l.map some

namespace SeqRingInv

variable {α : Type} {zero : α} {r r' : SeqRing α} {l : List α} {i j k : Nat}

theorem toInt_ne_zero {n : Nat} (hpos : 0 < n) (hle : n ≤ 2 ^ 31) : toInt n ≠ 0 := by
  intro hzero
  have hdvd : ((2 ^ 32 : ℕ) : ℤ) ∣ n := Int.dvd_of_bmod_eq_zero hzero
  omega

theorem size_eq (h : SeqRingInv r l) : r.size = l.length := by
  have hlen := congrArg List.length h.contents
  rwa [Ring.length_contents, List.length_map] at hlen

theorem cap_pos (h : SeqRingInv r l) : 0 < r.cap :=
  (Nat.zero_lt_succ 31).trans_le h.isCap.le.1

theorem start_lt (h : SeqRingInv r l) : r.toRing.start < r.cap :=
  Nat.mod_lt _ h.cap_pos

/-- Element `k` of the list. -/
theorem getElem?_slot (h : SeqRingInv r l) (hk : k < l.length) :
    r.array[r.toRing.slot r.cap k]? = l[k]? := by
  have hring := Ring.getElem?_contents (n := r.cap) (r := r.toRing) (h.size_eq.symm ▸ hk)
  rw [h.contents, List.getElem?_map] at hring
  rw [List.getElem?_eq_getElem hk, Option.map_some, Option.some.injEq] at hring
  rw [List.getElem?_eq_getElem hk]
  exact hring.symm

/-- The head, from the tail. -/
theorem head_eq (h : SeqRingInv r l) : r.head = toU32 (r.tail + r.size) := by
  have hhead := h.head_lt
  have htail := h.tail_lt
  unfold SeqRing.size toU32
  omega

theorem at_eq (h : SeqRingInv r l) (k : Nat) : r.at' k = r.toRing.slot r.cap k := by
  rw [SeqRing.at', h.isCap.mask_eq, Ring.slot, SeqRing.toRing, Nat.mod_add_mod]

theorem front_eq (h : SeqRingInv r l) : r.front = r.toRing.slot r.cap 0 := by
  rw [← h.at_eq, SeqRing.front, SeqRing.at', Nat.add_zero]

theorem end_eq (h : SeqRingInv r l) : r.end' = r.toRing.slot r.cap l.length := by
  rw [SeqRing.end', h.isCap.mask_eq, h.head_eq, h.isCap.toU32_mod, ← h.size_eq, Ring.slot,
    SeqRing.toRing, Nat.mod_add_mod]

theorem next_eq (h : SeqRingInv r l) (k : Nat) :
    r.next (r.toRing.slot r.cap k) = r.toRing.slot r.cap (k + 1) := by
  have hlt : r.toRing.slot r.cap k < r.cap := Ring.slot_lt h.cap_pos
  have hcap := h.isCap.le.2
  have hcut : toU32 (r.toRing.slot r.cap k + 1) = r.toRing.slot r.cap k + 1 := by
    unfold toU32
    omega
  rw [SeqRing.next, hcut, Ring.slot_succ h.cap_pos]

/-- `seq_ring_next`, as often as `seq_ring_at` counts. -/
theorem iterate_next (h : SeqRingInv r l) (k : Nat) : r.next^[k] r.front = r.at' k := by
  induction k with
  | zero => rw [Function.iterate_zero_apply, h.front_eq, h.at_eq]
  | succ k ih => rw [Function.iterate_succ_apply', ih, h.at_eq, h.next_eq, h.at_eq]

/-- Slots of elements, and the end, are different. -/
theorem slot_inj (h : SeqRingInv r l) (hi : i ≤ l.length) (hj : j ≤ l.length) :
    r.toRing.slot r.cap i = r.toRing.slot r.cap j ↔ i = j := by
  have hlt := h.size_eq ▸ h.size_lt
  exact ⟨fun heq => Ring.slot_inj (hi.trans_lt hlt) (hj.trans_lt hlt) heq, fun heq => heq ▸ rfl⟩

/-- The loop from element `k` on meets the rest of the list. -/
theorem walk_eq (h : SeqRingInv r l) (hk : k ≤ l.length) {fuel : Nat}
    (hfuel : l.length < k + fuel) :
    r.walk fuel (r.toRing.slot r.cap k) = some (l.drop k) := by
  induction fuel generalizing k with
  | zero => omega
  | succ fuel ih =>
    rw [SeqRing.walk, h.end_eq]
    rcases Nat.eq_or_lt_of_le hk with rfl | hlt
    · rw [if_pos rfl, List.drop_length]
    · have hne : r.toRing.slot r.cap k ≠ r.toRing.slot r.cap l.length := fun heq =>
        hlt.ne ((h.slot_inj hk le_rfl).1 heq)
      rw [if_neg hne, h.getElem?_slot hlt, List.getElem?_eq_getElem hlt, h.next_eq,
        ih hlt (by omega), List.drop_eq_getElem_cons hlt]
      rfl

/-- The distance between two iterators, except for equal ones. -/
theorem dist_iff (h : SeqRingInv r l) (hij : i ≤ j) (hj : j ≤ l.length) :
    r.dist (r.at' i) (r.at' j) = (j - i : Nat) ↔ i ≠ j := by
  have hcap := h.isCap.le
  have hlen := h.size_eq ▸ h.size_lt
  have hstart := h.start_lt
  have hpos := Ring.slot_eq hstart (j := i) (by omega)
  have hpos' := Ring.slot_eq hstart (j := j) (by omega)
  have hcut : ∀ k, toU32 (r.toRing.slot r.cap k) = r.toRing.slot r.cap k := fun k =>
    Nat.mod_eq_of_lt ((Ring.slot_lt h.cap_pos).trans_le (hcap.2.trans (by norm_num)))
  have hlt : r.toRing.slot r.cap i < r.cap := Ring.slot_lt h.cap_pos
  rw [h.at_eq, h.at_eq, SeqRing.dist, hcut, hcut]
  rcases Nat.eq_or_lt_of_le hij with rfl | hne
  · -- a whole turn
    rw [if_neg (lt_irrefl _), Nat.sub_add_cancel hlt.le, Nat.sub_self]
    exact iff_of_false (toInt_ne_zero (by omega) hcap.2) (not_not.2 rfl)
  · refine iff_of_true ?_ hne.ne
    split_ifs at hpos hpos' <;> split_ifs
    all_goals
      rw [SeqArrInv.toInt_eq (by omega), Nat.cast_inj]
      omega

/-! ## Operations -/

theorem size_init : (SeqRing.init zero).size = 0 := by
  simp [SeqRing.init, SeqRing.size, toU32]

theorem init : SeqRingInv (SeqRing.init zero) [] where
  isCap := ⟨5, le_rfl, by decide, rfl⟩
  length_array := List.length_replicate
  head_lt := Nat.two_pow_pos 32
  tail_lt := Nat.two_pow_pos 32
  size_lt := size_init.trans_lt (Nat.zero_lt_succ 31)
  contents := by
    refine List.eq_nil_of_length_eq_zero ?_
    rw [Ring.length_contents]
    exact size_init

/-- The positions of the tail and the head. -/
theorem mask_tail (h : SeqRingInv r l) : mask r.cap r.tail = r.toRing.start :=
  h.isCap.mask_eq _

theorem mask_head (h : SeqRingInv r l) : mask r.cap r.head = r.toRing.slot r.cap r.size := by
  rw [h.size_eq]
  exact h.end_eq

theorem mask_head_lt (h : SeqRingInv r l) : mask r.cap r.head < r.array.length := by
  rw [h.mask_head, h.length_array]
  exact Ring.slot_lt h.cap_pos

/-- The elements go to the front of the new array, in order. -/
theorem enlargeBuffer_eq (h : SeqRingInv r l) (zero : α) (hfull : r.size + 1 = r.cap) :
    ∃ array, r.enlargeBuffer zero =
        some ⟨array, r.cap * 2, toU32 (r.cap * 2 / 2 - 1), 0⟩ ∧ array.length = r.cap * 2 ∧
      ∀ j < r.size, array[j]? = r.array[r.toRing.slot r.cap j]? := by
  have hstart := h.start_lt
  have hcap := h.isCap.le.1
  have hsize := h.size_lt
  have hlen := h.length_array
  have hnew : (List.replicate (r.cap * 2) zero).length = r.cap * 2 := List.length_replicate
  have hslot : ∀ j ≤ r.size, r.toRing.slot r.cap j =
      if r.toRing.start + j < r.cap then r.toRing.start + j else r.toRing.start + j - r.cap :=
    fun j hj => Ring.slot_eq hstart (hj.trans hsize.le)
  unfold SeqRing.enlargeBuffer
  dsimp only
  rw [h.mask_tail, h.mask_head, hslot _ le_rfl]
  by_cases hturn : r.toRing.start + r.size < r.cap
  · rw [if_pos hturn]
    -- one piece
    obtain ⟨array, hcopy, hlen', hcopied, -⟩ := memcpy_spec
      (List.replicate (r.cap * 2) zero) r.array 0 r.toRing.start
      (r.toRing.start + r.size - r.toRing.start) (by omega) (by omega)
    rw [if_pos (by omega), hcopy]
    refine ⟨array, rfl, hlen'.trans hnew, fun j hj => ?_⟩
    have hj' := hcopied j (by omega)
    rw [hslot j hj.le, if_pos (by omega), ← hj', Nat.zero_add]
  · -- the piece up to the end of the array, and the one at its front
    rw [if_neg hturn, if_neg (by omega)]
    obtain ⟨tmp, hcopy₁, hlen₁, hcopied₁, -⟩ := memcpy_spec
      (List.replicate (r.cap * 2) zero) r.array 0 r.toRing.start (r.cap - r.toRing.start)
      (by omega) (by omega)
    obtain ⟨array, hcopy₂, hlen₂, hcopied₂, hframe⟩ := memcpy_spec
      tmp r.array (r.cap - r.toRing.start) 0 (r.toRing.start + r.size - r.cap)
      (by omega) (by omega)
    rw [hcopy₁, Option.bind_eq_bind, Option.bind_some, hcopy₂]
    refine ⟨array, rfl, hlen₂.trans (hlen₁.trans hnew), fun j hj => ?_⟩
    rw [hslot j hj.le]
    split_ifs with hj'
    · have hfirst := hcopied₁ j (by omega)
      rw [Nat.zero_add] at hfirst
      rw [hframe j (Or.inl (by omega)), hfirst]
    · have hsecond := hcopied₂ (j - (r.cap - r.toRing.start)) (by omega)
      rwa [Nat.add_sub_cancel' (by omega), Nat.zero_add,
        show j - (r.cap - r.toRing.start) = r.toRing.start + j - r.cap by omega] at hsecond

/-- A full ring of less than `2 ^ 31 - 1` elements has twice the places afterwards. -/
theorem enlargeBuffer (h : SeqRingInv r l) (zero : α) (hfull : r.full) (hlt : r.size + 1 < 2 ^ 31) :
    ∃ r', r.enlargeBuffer zero = some r' ∧ SeqRingInv r' l ∧ r'.size + 1 < r'.cap := by
  have hcap := h.isCap.le
  have hsize : r.size + 1 = r.cap := by
    have := of_decide_eq_true hfull
    omega
  obtain ⟨array, henlarge, hlen, hcopied⟩ := h.enlargeBuffer_eq zero hsize
  have hhead : toU32 (r.cap * 2 / 2 - 1) = r.size := by
    unfold toU32
    omega
  rw [hhead] at henlarge
  have hsize' : (⟨array, r.cap * 2, r.size, 0⟩ : SeqRing α).size = r.size := by
    unfold SeqRing.size toU32
    dsimp only
    omega
  refine ⟨_, henlarge, ⟨?_, hlen, ?_, Nat.two_pow_pos 32, ?_, ?_⟩, ?_⟩
  · obtain ⟨k, hk, hk', hcapk⟩ := h.isCap
    have hk31 : k ≠ 31 := by
      rintro rfl
      omega
    exact ⟨k + 1, by omega, by omega, by rw [hcapk, pow_succ]⟩
  · dsimp only
    omega
  · rw [hsize']
    dsimp only
    omega
  · rw [← h.contents]
    refine Ring.contents_congr hsize' fun j hj => ?_
    replace hj : j < r.size := hj
    have hslot : (SeqRing.toRing ⟨array, r.cap * 2, r.size, 0⟩).slot (r.cap * 2) j = j := by
      rw [Ring.slot, SeqRing.toRing]
      dsimp only
      rw [Nat.zero_mod, Nat.zero_add]
      exact Nat.mod_eq_of_lt (hj.trans (by omega))
    rw [hslot]
    exact hcopied j hj
  · rw [hsize']
    dsimp only
    omega

/-- The counters may wrap between them. -/
theorem size_of_head {tail n : Nat} (htail : tail < 2 ^ 32) (hn : n + 1 < 2 ^ 32) :
    toU32 (toU32 (toU32 (tail + n) + 1) + 2 ^ 32 - tail) = n + 1 := by
  unfold toU32
  omega

theorem size_of_tail (tail : Nat) {n k : Nat} (hn : n < 2 ^ 32) (hk : k ≤ n) :
    toU32 (toU32 (tail + n) + 2 ^ 32 - toU32 (tail + k)) = n - k := by
  unfold toU32
  omega

/-- With a place left, an element goes to the slot of the end. -/
theorem set_head (h : SeqRingInv r l) (hroom : r.size + 1 < r.cap) (x : α) :
    SeqRingInv { r with array := r.array.set (mask r.cap r.head) x, head := toU32 (r.head + 1) }
      (l ++ [x]) := by
  have hcap := h.isCap.le
  have hhead := h.head_eq
  have htail := h.tail_lt
  have hsize : SeqRing.size
      { r with array := r.array.set (mask r.cap r.head) x, head := toU32 (r.head + 1) } =
        r.size + 1 := by
    rw [hhead]
    exact size_of_head htail (by omega)
  have hslots : (fun i => (r.array.set (mask r.cap r.head) x)[i]?) =
      (r.toRing.push r.cap (some x)).slots := by
    funext i
    have hupdate : (r.toRing.push r.cap (some x)).slots i =
        if i = mask r.cap r.head then some x else r.array[i]? := by
      rw [h.mask_head]
      exact Function.update_apply _ _ _ _
    rw [hupdate, List.getElem?_set, if_pos h.mask_head_lt]
    simp only [eq_comm]
  refine ⟨h.isCap, ?_, Nat.mod_lt _ (Nat.two_pow_pos 32), htail, hsize.trans_lt hroom, ?_⟩
  · dsimp only
    rw [List.length_set, h.length_array]
  · have hpush := Ring.contents_push (n := r.cap) (x := some x) (r := r.toRing) h.size_lt
    rw [h.contents, ← List.map_singleton, ← List.map_append] at hpush
    rw [← hpush]
    refine Ring.contents_congr hsize fun j _ => ?_
    exact congrFun hslots _

theorem pushBack (h : SeqRingInv r l) (zero : α) (hlt : r.size + 1 < 2 ^ 31) (x : α) :
    ∃ r', r.pushBack zero x = some r' ∧ SeqRingInv r' (l ++ [x]) := by
  obtain ⟨r₁, hr₁, hinv, hroom⟩ : ∃ r₁,
      (if r.full then r.enlargeBuffer zero else some r) = some r₁ ∧
        SeqRingInv r₁ l ∧ r₁.size + 1 < r₁.cap := by
    split_ifs with hfull
    · exact h.enlargeBuffer zero hfull hlt
    · have hne : r.size ≠ r.cap - 1 := of_decide_eq_false (Bool.eq_false_of_not_eq_true hfull)
      have hsize := h.size_lt
      exact ⟨r, rfl, h, by omega⟩
  unfold SeqRing.pushBack
  rw [hr₁, Option.bind_some]
  dsimp only
  rw [if_pos hinv.mask_head_lt]
  exact ⟨_, rfl, hinv.set_head hroom x⟩

/-- What is left behind the first `k` elements, when the others keep their places. -/
theorem move_tail (h : SeqRingInv r l) (hk : k ≤ l.length) {array : List α}
    (hlen : array.length = r.cap)
    (hkept : ∀ j < r.size - k, array[r.toRing.slot r.cap (k + j)]? =
      r.array[r.toRing.slot r.cap (k + j)]?) :
    SeqRingInv { r with array := array, tail := toU32 (r.tail + k) } (l.drop k) := by
  have hcap := h.isCap.le
  have hhead := h.head_eq
  have htail := h.tail_lt
  have hsize := h.size_lt
  have hsize32 : r.size < 2 ^ 32 := hsize.trans_le (hcap.2.trans (by norm_num))
  have hsize' : SeqRing.size { r with array := array, tail := toU32 (r.tail + k) } =
      r.size - k := by
    have hmoved := size_of_tail r.tail hsize32 (h.size_eq.symm ▸ hk)
    rw [← hhead] at hmoved
    exact hmoved
  refine ⟨h.isCap, hlen, h.head_lt, Nat.mod_lt _ (Nat.two_pow_pos 32),
    hsize'.trans_lt ((Nat.sub_le _ _).trans_lt hsize), ?_⟩
  rw [List.map_drop, ← h.contents]
  refine Ring.contents_drop hsize' fun j hj => ?_
  have hslot : (SeqRing.toRing { r with array := array, tail := toU32 (r.tail + k) }).slot r.cap j =
      r.toRing.slot r.cap (k + j) := by
    rw [Ring.slot, Ring.slot, SeqRing.toRing, SeqRing.toRing]
    dsimp only
    rw [h.isCap.toU32_mod, Nat.mod_add_mod, Nat.mod_add_mod, Nat.add_assoc]
  rw [hslot]
  exact hkept j hj

/-- The first `k` elements are gone, in one piece or in two. -/
theorem erase (h : SeqRingInv r l) (zero : α) (hk : k ≤ l.length) :
    ∃ r', r.erase zero r.front (r.at' k) = some r' ∧ SeqRingInv r' (l.drop k) := by
  have hcap := h.isCap.le
  have hsize := h.size_lt
  have hlen := h.length_array
  have hstart := h.start_lt
  have hk' : k ≤ r.size := h.size_eq.symm ▸ hk
  have hslot : ∀ j ≤ r.size, r.toRing.slot r.cap j =
      if r.toRing.start + j < r.cap then r.toRing.start + j else r.toRing.start + j - r.cap :=
    fun j hj => Ring.slot_eq hstart (hj.trans hsize.le)
  have hlt : r.toRing.slot r.cap k < r.cap := Ring.slot_lt h.cap_pos
  have hfront : r.front = r.toRing.start := h.mask_tail
  have hcut : ∀ n < r.cap, toU32 n = n := fun n hn =>
    Nat.mod_eq_of_lt (hn.trans_le (hcap.2.trans (by norm_num)))
  unfold SeqRing.erase
  rw [if_neg (not_not.2 rfl), h.at_eq, hfront]
  rcases Nat.eq_zero_or_pos k with rfl | hpos
  · rw [hslot 0 (Nat.zero_le _), Nat.add_zero, if_pos hstart, if_pos rfl]
    exact ⟨r, rfl, h⟩
  have hend := hslot k hk'
  -- the tail comes to the end of the range
  have htail : mask r.cap (toU32 (r.tail + k)) = r.toRing.slot r.cap k := by
    rw [h.isCap.mask_eq, h.isCap.toU32_mod, Ring.slot, SeqRing.toRing, Nat.mod_add_mod]
  have hne : r.toRing.start ≠ r.toRing.slot r.cap k := by
    rw [hend]
    split_ifs <;> omega
  rw [if_neg hne, hcut _ hstart, hcut _ hlt, if_neg hlt.le.not_gt]
  by_cases hturn : r.toRing.start + k < r.cap
  · rw [if_pos hturn] at hend
    have hdiff : r.toRing.slot r.cap k - r.toRing.start = k := by omega
    obtain ⟨array, hset, hlen', hframe⟩ := memset_spec r.array r.toRing.start zero k (by omega)
    rw [if_pos (by omega), hdiff, hset]
    refine ⟨_, if_pos htail, h.move_tail hk (hlen'.trans hlen) fun j hj => hframe _ ?_⟩
    rw [hslot _ (by omega)]
    split_ifs <;> omega
  · rw [if_neg hturn] at hend
    have hdiff : r.cap - r.toRing.start + r.toRing.slot r.cap k = k := by omega
    obtain ⟨array₁, hset₁, hlen₁, hframe₁⟩ := memset_spec r.array r.toRing.start zero
      (r.cap - r.toRing.start) (by omega)
    obtain ⟨array₂, hset₂, hlen₂, hframe₂⟩ := memset_spec array₁ 0 zero
      (r.toRing.slot r.cap k) (by omega)
    rw [if_neg (by omega), hset₁, Option.bind_eq_bind, Option.bind_some, hset₂, hdiff]
    refine ⟨_, if_pos htail,
      h.move_tail hk ((hlen₂.trans hlen₁).trans hlen) fun j hj => ?_⟩
    have hkept := hslot (k + j) (by omega)
    rw [if_neg (by omega)] at hkept
    rw [hframe₂ _ (by omega), hframe₁ _ (by omega)]

end SeqRingInv

/-! ## Runs -/

/-- Pushes to rings that `ok` admits and erasures of the first elements, from an empty ring, and the
list they make. -/
inductive SeqRingRun {α : Type} (zero : α) (ok : SeqRing α → Prop) : SeqRing α → List α → Prop
  | init : SeqRingRun zero ok (SeqRing.init zero) []
  | push {r r' : SeqRing α} {l : List α} {x : α} (h : SeqRingRun zero ok r l) (hok : ok r)
      (hop : r.pushBack zero x = some r') : SeqRingRun zero ok r' (l ++ [x])
  | erase {r r' : SeqRing α} {l : List α} {k : Nat} (h : SeqRingRun zero ok r l)
      (hk : k ≤ l.length) (hop : r.erase zero r.front (r.next^[k] r.front) = some r') :
      SeqRingRun zero ok r' (l.drop k)

/-- The ring has less than `2 ^ 31` elements after the next one. -/
def FewElements {α : Type} (r : SeqRing α) : Prop :=
  r.size + 1 < 2 ^ 31

instance {α : Type} (r : SeqRing α) : Decidable (FewElements r) :=
  inferInstanceAs (Decidable (_ < _))

variable {α : Type} {zero : α} {r : SeqRing α} {l : List α}

theorem SeqRingRun.inv (h : SeqRingRun zero FewElements r l) : SeqRingInv r l := by
  induction h with
  | init => exact SeqRingInv.init
  | push _ hok hop ih =>
    obtain ⟨r', hr', hinv⟩ := ih.pushBack zero hok _
    rw [hop, Option.some.injEq] at hr'
    exact hr' ▸ hinv
  | erase _ hk hop ih =>
    obtain ⟨r', hr', hinv⟩ := ih.erase zero hk
    rw [ih.iterate_next, hr', Option.some.injEq] at hop
    exact hop ▸ hinv

/-- As long as a ring has less than `2 ^ 31` elements, it is a queue, whatever its counters have
wrapped to, and the distance between two of its iterators is right unless they are equal. -/
theorem seqRing_runs (h : SeqRingRun zero FewElements r l) :
    r.size = l.length ∧ r.walk (l.length + 1) r.front = some l ∧ (r.front = r.end' ↔ l = []) ∧
      (∀ k ≤ l.length, r.next^[k] r.front = r.at' k ∧
        ∃ r', r.erase zero r.front (r.at' k) = some r') ∧
      (FewElements r → ∀ x, ∃ r', r.pushBack zero x = some r') ∧
      ∀ i j, i ≤ j → j ≤ l.length →
        (r.dist (r.next^[i] r.front) (r.next^[j] r.front) = (j - i : Nat) ↔ i ≠ j) := by
  have hinv := h.inv
  refine ⟨hinv.size_eq, ?_, ?_, fun k hk => ⟨hinv.iterate_next k, ?_⟩, fun hfew x => ?_,
    fun i j hij hj => ?_⟩
  · rw [hinv.front_eq]
    exact hinv.walk_eq (Nat.zero_le _) (by omega)
  · rw [hinv.front_eq, hinv.end_eq, hinv.slot_inj (Nat.zero_le _) le_rfl, eq_comm,
      List.length_eq_zero_iff]
  · obtain ⟨r', hr', -⟩ := hinv.erase zero hk
    exact ⟨r', hr'⟩
  · obtain ⟨r', hr', -⟩ := hinv.pushBack zero hfew x
    exact ⟨r', hr'⟩
  · rw [hinv.iterate_next, hinv.iterate_next]
    exact hinv.dist_iff hij hj

/-- A ring of one element. -/
theorem seqRing_runs_one : ∃ r, (SeqRing.init 0).pushBack 0 7 = some r ∧
    r.size = 1 ∧ r.walk 2 r.front = some [7] ∧ (r.front = r.end' ↔ [7] = []) ∧
      (∀ k ≤ 1, r.next^[k] r.front = r.at' k ∧ ∃ r', r.erase 0 r.front (r.at' k) = some r') ∧
      (FewElements r → ∀ x, ∃ r', r.pushBack 0 x = some r') ∧
      ∀ i j, i ≤ j → j ≤ 1 →
        (r.dist (r.next^[i] r.front) (r.next^[j] r.front) = (j - i : Nat) ↔ i ≠ j) := by
  obtain ⟨r, hr, -⟩ := SeqRingInv.pushBack (r := SeqRing.init 0) .init 0 (by decide) 7
  exact ⟨r, hr, seqRing_runs (.push .init (by decide) hr)⟩

/-- The end of an empty ring is 32 elements from its front. -/
theorem not_seqRing_dist : ¬∀ (r : SeqRing Nat) (l : List Nat),
    SeqRingRun 0 (fun _ => True) r l → ∀ i j, i ≤ j → j ≤ l.length →
      r.dist (r.next^[i] r.front) (r.next^[j] r.front) = (j - i : Nat) := by
  intro hall
  have hdist := hall (SeqRing.init 0) [] .init 0 0 le_rfl le_rfl
  exact absurd hdist (by decide)

end NrStack
