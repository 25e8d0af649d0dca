import NrStack.Mac.UeLists

/-!
# What the allocator of uids and the lists do

A new uid is a bit that was not set (`uidLinearAllocatorNew_spec`), and its release clears this bit
alone (`uidBit_free`).

A list without a gap is `padded`. A UE is added at its end if there is room (`addUeToList_padded`).
`remove_UE_from_list` stops at the RNTI or at the end of its array, not at the end of the list : it
takes out the UE it finds (`removeUeFromList_of_mem`), and for an RNTI that is not there it returns
only if the array is full (`removeUeFromList_of_none`).
-/

namespace NrStack

/-! ## The allocator -/

/-- The bit of a uid. -/
def uidBit (bitmap : List (BitVec 32)) (uid : ℕ) : Bool :=
  (bitmap.getD (uid / 32) 0).getLsbD (uid % 32)

theorem uidBit_cons_of_lt {word : BitVec 32} {bitmap : List (BitVec 32)} {uid : ℕ}
    (h : uid < 32) : uidBit (word :: bitmap) uid = word.getLsbD uid := by
  rw [uidBit, Nat.div_eq_of_lt h, Nat.mod_eq_of_lt h, List.getD_cons_zero]

theorem uidBit_cons_add (word : BitVec 32) (bitmap : List (BitVec 32)) (uid : ℕ) :
    uidBit (word :: bitmap) (uid + 32) = uidBit bitmap uid := by
  rw [uidBit, Nat.add_div_right _ (by norm_num), Nat.add_mod_right, List.getD_cons_succ, uidBit]

theorem getLsbD_one_shiftLeft {k j : ℕ} (hj : j < 32) :
    (1#32 <<< k).getLsbD j = decide (j = k) := by
  rw [BitVec.getLsbD_shiftLeft, BitVec.getLsbD_one]
  simp only [hj, decide_true, Bool.true_and]
  by_cases hlt : j < k
  · simp [hlt, hlt.ne]
  · rcases (not_lt.1 hlt).eq_or_lt with rfl | hgt
    · simp
    · simp [hlt, hgt.ne', Nat.sub_eq_zero_iff_le, hgt]

theorem and_one_shiftLeft_iff {word : BitVec 32} {k : ℕ} (hk : k < 32) :
    word &&& (1#32 <<< k) = 1#32 <<< k ↔ word.getLsbD k = true := by
  constructor
  · intro h
    have := congrArg (·.getLsbD k) h
    simpa [BitVec.getLsbD_and, getLsbD_one_shiftLeft hk] using this
  · intro h
    refine BitVec.eq_of_getLsbD_eq fun j hj => ?_
    rw [BitVec.getLsbD_and, getLsbD_one_shiftLeft hj]
    by_cases hjk : j = k
    · simp [hjk, h]
    · simp [hjk]

/-- The loop stops at a bit that is not set, with all bits below it set. -/
theorem lowestFreeBit_spec {word : BitVec 32} : ∀ {fuel uid : ℕ}, uid + fuel = 32 →
    (∀ j < uid, word.getLsbD j = true) → word ≠ BitVec.allOnes 32 →
      lowestFreeBit word fuel uid < 32 ∧ word.getLsbD (lowestFreeBit word fuel uid) = false
  | 0, uid, hfuel, hlow, hne => by
    refine absurd (BitVec.eq_of_getLsbD_eq fun j hj => ?_) hne
    rw [hlow j (by omega), BitVec.getLsbD_allOnes, decide_eq_true hj]
  | fuel + 1, uid, hfuel, hlow, hne => by
    rw [lowestFreeBit]
    split_ifs with hbit
    · rw [and_one_shiftLeft_iff (by omega)] at hbit
      refine lowestFreeBit_spec (by omega) (fun j hj => ?_) hne
      rcases Nat.lt_succ_iff_lt_or_eq.1 hj with hj | rfl
      · exact hlow j hj
      · exact hbit
    · rw [and_one_shiftLeft_iff (by omega), Bool.not_eq_true] at hbit
      exact ⟨by omega, hbit⟩

/-- Either no bit is left, or the uid is new : its bit was not set, and is set now. -/
theorem uidLinearAllocatorNew_spec : ∀ (bitmap : List (BitVec 32)) (i : ℕ),
    uidLinearAllocatorNew i bitmap = (2 ^ 32 - 1, bitmap) ∨
    ∃ uid, (uidLinearAllocatorNew i bitmap).1 = uid + i * 32 ∧ uid / 32 < bitmap.length ∧
      uidBit bitmap uid = false ∧
      ∀ v, uidBit (uidLinearAllocatorNew i bitmap).2 v = (decide (v = uid) || uidBit bitmap v)
  | [], i => .inl rfl
  | word :: bitmap, i => by
    rw [uidLinearAllocatorNew]
    by_cases hword : word = BitVec.allOnes 32
    · rw [if_neg (not_not.2 hword)]
      rcases uidLinearAllocatorNew_spec bitmap (i + 1) with hall | ⟨uid, huid, hlt, hbit, hset⟩
      · exact .inl (by rw [hall])
      refine .inr ⟨uid + 32, ?_, ?_, by rw [uidBit_cons_add, hbit], fun v => ?_⟩
      · simp only [huid]
        ring
      · rw [List.length_cons]
        omega
      · rcases lt_or_ge v 32 with hv | hv
        · rw [uidBit_cons_of_lt hv, uidBit_cons_of_lt hv, decide_eq_false (by omega),
            Bool.false_or]
        · obtain ⟨v, rfl⟩ := Nat.exists_eq_add_of_le' hv
          rw [uidBit_cons_add, uidBit_cons_add, hset]
          simp
    · rw [if_pos hword]
      obtain ⟨hlt, hbit⟩ := @lowestFreeBit_spec word 32 0 rfl
        (fun j hj => absurd hj (Nat.not_lt_zero j)) hword
      generalize lowestFreeBit word 32 0 = uid at hlt hbit ⊢
      refine .inr ⟨uid, by simp only; ring, ?_, by rw [uidBit_cons_of_lt hlt, hbit], fun v => ?_⟩
      · rw [List.length_cons]
        omega
      · rcases lt_or_ge v 32 with hv | hv
        · rw [uidBit_cons_of_lt hv, uidBit_cons_of_lt hv, BitVec.getLsbD_or,
            getLsbD_one_shiftLeft hv, Bool.or_comm]
        · obtain ⟨v, rfl⟩ := Nat.exists_eq_add_of_le' hv
          rw [uidBit_cons_add, uidBit_cons_add, decide_eq_false (by omega), Bool.false_or]

theorem length_uidLinearAllocatorNew : ∀ (bitmap : List (BitVec 32)) (i : ℕ),
    (uidLinearAllocatorNew i bitmap).2.length = bitmap.length
  | [], _ => rfl
  | word :: bitmap, i => by
    rw [uidLinearAllocatorNew]
    split_ifs
    · rfl
    · exact congrArg (· + 1) (length_uidLinearAllocatorNew bitmap (i + 1))

theorem uidBit_free {bitmap : List (BitVec 32)} {uid : ℕ} (h : uid / 32 < bitmap.length) (v : ℕ) :
    uidBit (uidLinearAllocatorFree bitmap uid) v = (decide (v ≠ uid) && uidBit bitmap v) := by
  have hmod : v % 32 < 32 := Nat.mod_lt _ (by norm_num)
  rw [uidBit, uidLinearAllocatorFree, Nat.div_div_eq_div_mul, List.getD_eq_getElem?_getD]
  by_cases hword : uid / 32 = v / 32
  · have hv : v / 32 < bitmap.length := hword ▸ h
    rw [show uid / (4 * 8) = v / 32 from hword, List.getElem?_modify_eq,
      List.getElem?_eq_getElem hv]
    change ((bitmap[v / 32] &&& ~~~(1#32 <<< (uid % 32))).getLsbD (v % 32)) = _
    rw [BitVec.getLsbD_and, BitVec.getLsbD_not, getLsbD_one_shiftLeft hmod, uidBit,
      List.getD_eq_getElem?_getD, List.getElem?_eq_getElem hv, Option.getD_some]
    have hiff : v % 32 = uid % 32 ↔ v = uid := by omega
    simp only [hiff, hmod, decide_true, Bool.true_and, ne_eq, decide_not, Bool.and_comm]
  · have hne : v ≠ uid := fun heq => hword (heq ▸ rfl)
    rw [List.getElem?_modify_ne _ _ hword, decide_eq_true hne, Bool.true_and, uidBit,
      List.getD_eq_getElem?_getD]

theorem uidLinearAllocatorFree_of_ge {bitmap : List (BitVec 32)} {uid : ℕ}
    (h : bitmap.length ≤ uid / 32) : uidLinearAllocatorFree bitmap uid = bitmap := by
  rw [uidLinearAllocatorFree, Nat.div_div_eq_div_mul]
  refine List.ext_getElem? fun j => ?_
  by_cases hj : uid / 32 = j
  · rw [← hj, List.getElem?_eq_none h, List.getElem?_eq_none (by rwa [List.length_modify])]
  · exact List.getElem?_modify_ne _ _ hj

theorem length_uidLinearAllocatorFree (bitmap : List (BitVec 32)) (uid : ℕ) :
    (uidLinearAllocatorFree bitmap uid).length = bitmap.length :=
  List.length_modify ..

/-! ## The lists -/

/-- An array of `n` pointers that holds `es`. -/
def padded (n : ℕ) (es : List ℕ) : List (Option ℕ) :=
  es.map some ++ List.replicate (n - es.length) none

theorem take_padded {size n : ℕ} {es : List ℕ} (hes : es.length ≤ size) (hn : size ≤ n) :
    (padded n es).take size = padded size es := by
  rw [padded, padded, List.take_append, List.length_map, List.take_of_length_le (by simpa),
    List.take_replicate]
  congr 3
  omega

theorem drop_padded {size n : ℕ} {es : List ℕ} (hes : es.length ≤ size) :
    (padded n es).drop size = List.replicate (n - size) none := by
  rw [padded, List.drop_append, List.length_map, List.drop_of_length_le (by simpa),
    List.drop_replicate, List.nil_append]
  congr 1
  omega

/-- A UE is added at the end, if there is room. -/
theorem addUeToList_padded (ue : ℕ) : ∀ {size n : ℕ} {es : List ℕ}, size ≤ n →
    addUeToList ue size (padded n es) =
      if es.length < size then (true, padded n (es ++ [ue])) else (false, padded n es)
  | 0, n, es, hn => by rw [addUeToList, if_neg (Nat.not_lt_zero _)]
  | size + 1, n, [], hn => by
    obtain ⟨n, rfl⟩ := Nat.exists_eq_add_of_le' (Nat.le_of_add_left_le hn : 1 ≤ n)
    exact (if_pos (Nat.succ_pos size)).symm
  | size + 1, n, e :: es, hn => by
    obtain ⟨n, rfl⟩ := Nat.exists_eq_add_of_le' (Nat.le_of_add_left_le hn : 1 ≤ n)
    have hcons (es : List ℕ) : padded (n + 1) (e :: es) = some e :: padded n es := by
      rw [padded, padded, List.length_cons, Nat.add_sub_add_right]
      rfl
    rw [hcons, addUeToList, addUeToList_padded ue (Nat.le_of_succ_le_succ hn)]
    simp only [List.length_cons, Nat.add_lt_add_iff_right, List.cons_append, hcons]
    split_ifs <;> rfl

section Find

variable {heap : ℕ → Option UeContext} {rnti : UInt16}

/-- No entry with the RNTI : the loop goes on to the NULL pointer behind the last. -/
theorem findRnti_of_none {k : ℕ} : ∀ {es : List ℕ} {i : ℕ}, (∀ ue ∈ es, (heap ue).isSome) →
    (∀ ue ∈ es, (heap ue).map UeContext.rnti ≠ some rnti) →
    findRnti heap rnti (es.map some ++ List.replicate k none) i = if k = 0 then some none else none
  | [], i, _, _ => by
    cases k <;> rfl
  | ue :: es, i, hlive, hno => by
    obtain ⟨context, hc⟩ := Option.isSome_iff_exists.1 (hlive ue List.mem_cons_self)
    have hne : context.rnti ≠ rnti := by
      intro heq
      exact hno ue List.mem_cons_self (by rw [hc, Option.map_some, heq])
    rw [List.map_cons, List.cons_append, findRnti, hc]
    simp only [hne, ne_eq, not_false_eq_true, if_true]
    exact findRnti_of_none (fun ue h => hlive ue (List.mem_cons_of_mem _ h))
      fun ue h => hno ue (List.mem_cons_of_mem _ h)

/-- The first entry with the RNTI is found. -/
theorem findRnti_of_mem {rest : List (Option ℕ)} {ue : ℕ} {after : List ℕ} : ∀ {before : List ℕ}
    {i : ℕ}, (∀ u ∈ before, (heap u).isSome) →
    (∀ u ∈ before, (heap u).map UeContext.rnti ≠ some rnti) →
    (heap ue).map UeContext.rnti = some rnti →
      findRnti heap rnti ((before ++ ue :: after).map some ++ rest) i =
        some (some (i + before.length, ue))
  | [], i, _, _, hue => by
    obtain ⟨context, hc, heq⟩ := Option.map_eq_some_iff.1 hue
    rw [List.nil_append, List.map_cons, List.cons_append, findRnti, hc]
    simp only [heq, ne_eq, not_true_eq_false, if_false, List.length_nil, Nat.add_zero]
  | u :: before, i, hlive, hno, hue => by
    obtain ⟨context, hc⟩ := Option.isSome_iff_exists.1 (hlive u List.mem_cons_self)
    have hne : context.rnti ≠ rnti := by
      intro heq
      exact hno u List.mem_cons_self (by rw [hc, Option.map_some, heq])
    rw [List.cons_append, List.map_cons, List.cons_append, findRnti, hc]
    simp only [hne, ne_eq, not_false_eq_true, if_true]
    rw [findRnti_of_mem (fun u h => hlive u (List.mem_cons_of_mem _ h))
      (fun u h => hno u (List.mem_cons_of_mem _ h)) hue, List.length_cons]
    simp only [Option.some.injEq, Prod.mk.injEq, and_true]
    omega

/-- An RNTI that is not in the list : the function returns only if the array is full. -/
theorem removeUeFromList_of_none {size n : ℕ} {es : List ℕ} (hes : es.length ≤ size) (hn : size ≤ n)
    (hlive : ∀ ue ∈ es, (heap ue).isSome)
    (hno : ∀ ue ∈ es, (heap ue).map UeContext.rnti ≠ some rnti) :
    removeUeFromList heap size (padded n es) rnti =
      if es.length = size then some (none, padded n es) else none := by
  rw [removeUeFromList, take_padded hes hn, padded, findRnti_of_none hlive hno]
  by_cases hfull : es.length = size
  · rw [if_pos (by omega), if_pos hfull]
  · rw [if_neg (by omega), if_neg hfull]

/-- An RNTI in the list : the UE is taken out, the others move up. -/
theorem removeUeFromList_of_mem {size n : ℕ} {before after : List ℕ} {ue : ℕ}
    (hes : (before ++ ue :: after).length ≤ size) (hn : size ≤ n)
    (hlive : ∀ u ∈ before, (heap u).isSome)
    (hno : ∀ u ∈ before, (heap u).map UeContext.rnti ≠ some rnti)
    (hue : (heap ue).map UeContext.rnti = some rnti) :
    removeUeFromList heap size (padded n (before ++ ue :: after)) rnti =
      some (some ue, padded n (before ++ after)) := by
  rw [removeUeFromList, take_padded hes hn, padded, findRnti_of_mem hlive hno hue, Nat.zero_add]
  simp only [Option.some.injEq, Prod.mk.injEq, true_and]
  rw [drop_padded hes]
  simp only [List.length_append, List.length_cons] at hes
  have htake : (padded n (before ++ ue :: after)).take before.length = before.map some := by
    rw [padded, List.map_append, List.append_assoc, List.take_left' (List.length_map _)]
  have hdrop (rest : List (Option ℕ)) : ((before ++ ue :: after).map some ++ rest).drop
      (before.length + 1) = after.map some ++ rest := by
    rw [List.append_cons, List.map_append, List.append_assoc]
    exact List.drop_left' (by rw [List.length_map, List.length_append, List.length_singleton])
  have hpad : List.replicate (size - (before ++ ue :: after).length) none ++
      none :: List.replicate (n - size) (none : Option ℕ) =
        List.replicate (n - (before ++ after).length) none := by
    rw [← List.replicate_succ, List.replicate_append_replicate]
    simp only [List.length_append, List.length_cons]
    congr 1
    omega
  rw [htake, hdrop, padded, List.map_append, List.append_assoc, List.append_assoc, hpad,
    List.append_assoc]

end Find

end NrStack
