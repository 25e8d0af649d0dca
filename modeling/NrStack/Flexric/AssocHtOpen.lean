import NrStack.Library.Probe
import Mathlib.Data.Multiset.Filter

/-!
# The hash table with open addressing

`insert`, `removeValue` and `value` on an array of entries, with linear probing. A removed entry
stays dirty. `insert` and `removeValue` first rehash the live entries into an array of twice or
half the size, if too many entries are dirty or too few are live.

`TableInv` : a key reaches its entry over dirty entries from its home on, and no two entries
hold equal keys. An update of one entry keeps it (`TableInv.set`), and so does a rehash
(`rehashTable_spec`).
-/

namespace NrStack

variable {κ ν : Type}

/-- `hentry_t`. `has_value` is `kv.isSome` : both change together. -/
structure HEntry (κ ν : Type) where
  kv : Option (κ × ν)
  hash : Nat
  isDirty : Bool

/-- An entry from `calloc`. -/
def HEntry.zero : HEntry κ ν where
  kv := none
  hash := 0
  isDirty := false

/-- `assoc_ht_open_t`, with the comparison and the hash function as parameters of the
operations. The counters have 32 bits. -/
structure AssocHtOpen (κ ν : Type) where
  arr : List (HEntry κ ν)
  sz : Nat
  cap : Nat
  numDirty : Nat

/-- `MIN_SIZE_HT` -/
def minSizeHt : Nat := 16

def dirtyAt (arr : List (HEntry κ ν)) (idx : Nat) : Bool :=
  arr[idx]?.any HEntry.isDirty

/-- The entry has a value and an equal key. -/
def holdsAt (keyEq : κ → κ → Bool) (arr : List (HEntry κ ν)) (key : κ) (idx : Nat) : Bool :=
  arr[idx]?.any fun entry => entry.kv.any fun kv => keyEq key kv.1

/-- The loop of `find_idx` and of `find_entry` : `none` is the assertion "Impossible code
path", or a division by zero. -/
def findIdx (keyEq : κ → κ → Bool) (arr : List (HEntry κ ν)) (cap : Nat) (key : κ) (hash : Nat) :
    Option Nat :=
  if cap = 0 then none
  else probe (fun idx => !dirtyAt arr idx || holdsAt keyEq arr key idx) cap (hash % cap) cap
    (hash % cap)

/-- The body of the loop of `rehash_table`, on the new array and its `num_dirty`. -/
def rehashEntry (keyEq : κ → κ → Bool) (cap : Nat) :
    List (HEntry κ ν) × Nat → HEntry κ ν → Option (List (HEntry κ ν) × Nat)
  | (arr, numDirty), entry =>
    match entry.kv with
    | none => some (arr, numDirty)
    | some (key, _) =>
      if entry.isDirty = false then none
      else do
        let idx ← findIdx keyEq arr cap key entry.hash
        some (arr.set idx entry, (numDirty + 1) % 2 ^ 32)

namespace AssocHtOpen

/-- `assoc_ht_open_init` -/
def init : AssocHtOpen κ ν where
  arr := List.replicate minSizeHt .zero
  sz := 0
  cap := minSizeHt
  numDirty := 0

/-- `rehash_table` -/
def rehashTable (keyEq : κ → κ → Bool) (htab : AssocHtOpen κ ν) (cap : Nat) :
    Option (AssocHtOpen κ ν) := do
  let (arr, numDirty) ← htab.arr.foldlM (rehashEntry keyEq cap) (List.replicate cap .zero, 0)
  some { htab with arr := arr, cap := cap, numDirty := numDirty }

/-- The rehash of `expand_or_shrink_if_neccesary`, before its assertions. -/
def resize (keyEq : κ → κ → Bool) (htab : AssocHtOpen κ ν) : Option (AssocHtOpen κ ν) :=
  if htab.numDirty * 2 % 2 ^ 32 > htab.cap then
    htab.rehashTable keyEq (htab.cap * 2 % 2 ^ 32)
  else if htab.sz * 4 % 2 ^ 32 < htab.cap ∧ htab.cap > minSizeHt then
    htab.rehashTable keyEq (htab.cap / 2)
  else some htab

/-- `expand_or_shrink_if_neccesary`, with the assertion that its callers make after it. -/
def expandOrShrink (keyEq : κ → κ → Bool) (htab : AssocHtOpen κ ν) :
    Option (AssocHtOpen κ ν) := do
  let htab ← htab.resize keyEq
  if htab.sz * 2 % 2 ^ 32 ≤ htab.cap ∧ htab.numDirty * 2 % 2 ^ 32 ≤ htab.cap then some htab
  else none

/-- `assoc_ht_open_insert` : the key of an entry that is replaced stays. -/
def insert (keyEq : κ → κ → Bool) (hashFunc : κ → Nat) (htab : AssocHtOpen κ ν) (key : κ)
    (value : ν) : Option (AssocHtOpen κ ν) := do
  let htab ← htab.expandOrShrink keyEq
  let hash := hashFunc key
  let idx ← findIdx keyEq htab.arr htab.cap key hash
  let entry ← htab.arr[idx]?
  let (keyDst, sz) ← match entry.kv with
    | some (keyDst, _) =>
      if entry.isDirty = true ∧ keyEq key keyDst = true then some (keyDst, htab.sz) else none
    | none => some (key, (htab.sz + 1) % 2 ^ 32)
  some { htab with
    arr := htab.arr.set idx ⟨some (keyDst, value), hash, true⟩
    sz := sz
    numDirty := if entry.isDirty = false then (htab.numDirty + 1) % 2 ^ 32 else htab.numDirty }

/-- `find_entry` : the index of the entry, or `some none` for `NULL`. -/
def findEntry (keyEq : κ → κ → Bool) (hashFunc : κ → Nat) (htab : AssocHtOpen κ ν) (key : κ) :
    Option (Option Nat) := do
  let idx ← findIdx keyEq htab.arr htab.cap key (hashFunc key)
  let entry ← htab.arr[idx]?
  if entry.isDirty = false then
    if entry.kv.isSome then none else some none
  else some (some idx)

/-- `remove_value_htab` -/
def removeValue (keyEq : κ → κ → Bool) (hashFunc : κ → Nat) (htab : AssocHtOpen κ ν)
    (key : κ) : Option (AssocHtOpen κ ν) := do
  let htab ← htab.expandOrShrink keyEq
  match ← htab.findEntry keyEq hashFunc key with
  | none => some htab
  | some idx => do
    let entry ← htab.arr[idx]?
    if entry.isDirty = true ∧ entry.kv.isSome then
      some { htab with
        arr := htab.arr.set idx { entry with kv := none }
        sz := (htab.sz + (2 ^ 32 - 1)) % 2 ^ 32 }
    else none

/-- `assoc_ht_open_value` -/
def value (keyEq : κ → κ → Bool) (hashFunc : κ → Nat) (htab : AssocHtOpen κ ν) (key : κ) :
    Option (Option ν) := do
  match ← htab.findEntry keyEq hashFunc key with
  | none => some none
  | some idx => do
    let entry ← htab.arr[idx]?
    some (entry.kv.map Prod.snd)

end AssocHtOpen

variable {keyEq : κ → κ → Bool} {hashFunc : κ → Nat} {arr arr' : List (HEntry κ ν)}
  {entry entry' : HEntry κ ν} {key key' : κ} {v : ν} {i j idx cap numDirty : Nat}

/-! ## Entries -/

/-- The live entries of the array. -/
def liveEntries (arr : List (HEntry κ ν)) : Multiset (κ × ν) :=
  arr.filterMap HEntry.kv

theorem mem_liveEntries {kv : κ × ν} : kv ∈ liveEntries arr ↔
    ∃ (i : Nat) (entry : HEntry κ ν), arr[i]? = some entry ∧ entry.kv = some kv := by
  rw [liveEntries, Multiset.mem_coe, List.mem_filterMap]
  constructor
  · rintro ⟨entry, hmem, hkv⟩
    obtain ⟨i, hi⟩ := List.getElem?_of_mem hmem
    exact ⟨i, entry, hi, hkv⟩
  · rintro ⟨i, entry, hi, hkv⟩
    exact ⟨entry, List.mem_of_getElem? hi, hkv⟩

theorem liveEntries_replicate (n : Nat) :
    liveEntries (List.replicate n (HEntry.zero : HEntry κ ν)) = 0 := by
  induction n with
  | zero => rfl
  | succ n ih => exact ih

/-- The entry `i` is replaced. -/
theorem liveEntries_set (hi : arr[i]? = some entry) (entry' : HEntry κ ν) :
    (entry.kv.toList : Multiset (κ × ν)) + liveEntries (arr.set i entry') =
      (entry'.kv.toList : Multiset (κ × ν)) + liveEntries arr := by
  obtain ⟨hlt, rfl⟩ := List.getElem?_eq_some_iff.mp hi
  have hsplit : arr = arr.take i ++ arr[i] :: arr.drop (i + 1) := by
    rw [List.getElem_cons_drop, List.take_append_drop]
  have hkv : ∀ (e : HEntry κ ν) (l₁ l₂ : List (HEntry κ ν)),
      liveEntries (l₁ ++ e :: l₂) = (e.kv.toList : Multiset (κ × ν)) + liveEntries (l₁ ++ l₂) := by
    intro e l₁ l₂
    simp only [liveEntries, List.filterMap_append, Multiset.coe_add, Multiset.coe_eq_coe]
    cases h : e.kv with
    | none => simp [h]
    | some kv => simp [h]
  conv_rhs => rw [hsplit]
  rw [List.set_eq_take_append_cons_drop, if_pos hlt, hkv, hkv, add_left_comm]

theorem dirtyAt_of_getElem? (hi : arr[i]? = some entry) : dirtyAt arr i = entry.isDirty := by
  rw [dirtyAt, hi, Option.any_some]

theorem holdsAt_iff : holdsAt keyEq arr key i = true ↔
    ∃ entry key' v, arr[i]? = some entry ∧ entry.kv = some (key', v) ∧ keyEq key key' = true := by
  rw [holdsAt]
  constructor
  · intro h
    obtain ⟨entry, hi, h⟩ := (Option.any_eq_true _ _).mp h
    obtain ⟨⟨key', v⟩, hkv, h⟩ := (Option.any_eq_true _ _).mp h
    exact ⟨entry, key', v, hi, hkv, h⟩
  · rintro ⟨entry, key', v, hi, hkv, h⟩
    simp [hi, hkv, h]

theorem dirtyAt_set (hdirty : entry'.isDirty = true) (hj : dirtyAt arr j = true) :
    dirtyAt (arr.set i entry') j = true := by
  rw [dirtyAt, List.getElem?_set]
  split
  · split
    · exact hdirty
    · rename_i h hlt
      obtain ⟨e, he, -⟩ := (Option.any_eq_true _ _).mp hj
      exact absurd (List.getElem?_eq_some_iff.mp (h ▸ he)).1 hlt
  · exact hj

/-! ## The invariant -/

/-- The comparison is an equality of keys, and equal keys have equal hashes. -/
structure IsKeyEq (keyEq : κ → κ → Bool) (hashFunc : κ → Nat) : Prop where
  refl : ∀ key, keyEq key key = true
  symm : ∀ {key key'}, keyEq key key' = true → keyEq key' key = true
  trans : ∀ {key₁ key₂ key₃}, keyEq key₁ key₂ = true → keyEq key₂ key₃ = true →
    keyEq key₁ key₃ = true
  hash : ∀ {key key'}, keyEq key key' = true → hashFunc key = hashFunc key'

/-- The entries of a table : every key reaches its entry, which is the only one that holds it. -/
structure TableInv (keyEq : κ → κ → Bool) (hashFunc : κ → Nat) (arr : List (HEntry κ ν)) :
    Prop where
  dirty : ∀ {i : Nat} {entry}, arr[i]? = some entry → entry.kv.isSome → entry.isDirty = true
  hash : ∀ {i : Nat} {entry key v}, arr[i]? = some entry → entry.kv = some (key, v) →
    entry.hash = hashFunc key
  reaches : ∀ {i key}, holdsAt keyEq arr key i = true →
    Reaches arr.length (dirtyAt arr) (hashFunc key % arr.length) i
  unique : ∀ {i j key}, holdsAt keyEq arr key i = true → holdsAt keyEq arr key j = true → i = j

theorem tableInv_replicate (n : Nat) :
    TableInv keyEq hashFunc (List.replicate n (HEntry.zero : HEntry κ ν)) := by
  have hzero : ∀ {i : Nat} {entry : HEntry κ ν},
      (List.replicate n HEntry.zero)[i]? = some entry → entry = .zero := by
    intro i entry h
    exact (List.mem_replicate.mp (List.mem_of_getElem? h)).2
  have hnone : ∀ {i key}, holdsAt keyEq (List.replicate n (HEntry.zero : HEntry κ ν)) key i = true →
      False := by
    intro i key h
    obtain ⟨entry, key', v, hi, hkv, -⟩ := holdsAt_iff.1 h
    obtain rfl := hzero hi
    cases hkv
  refine ⟨fun h hkv => ?_, fun h hkv => ?_, fun h => (hnone h).elim, fun h => (hnone h).elim⟩
  · obtain rfl := hzero h
    cases hkv
  · obtain rfl := hzero h
    cases hkv

/-- An entry that becomes dirty keeps the invariant, if its key has the hash, reaches it, and
is held by no other entry. -/
theorem TableInv.set (hkey : IsKeyEq keyEq hashFunc) (h : TableInv keyEq hashFunc arr)
    (hdirty : entry'.isDirty = true)
    (hnew : ∀ key v, entry'.kv = some (key, v) → entry'.hash = hashFunc key ∧
      Reaches arr.length (dirtyAt arr) (hashFunc key % arr.length) i ∧
      ∀ j, holdsAt keyEq arr key j = true → j = i) :
    TableInv keyEq hashFunc (arr.set i entry') := by
  have hcases : ∀ {j : Nat} {entry}, (arr.set i entry')[j]? = some entry →
      j = i ∧ entry = entry' ∨ j ≠ i ∧ arr[j]? = some entry := by
    intro j entry hj
    rw [List.getElem?_set] at hj
    split at hj
    case isTrue hij =>
      split at hj
      · exact Or.inl ⟨hij.symm, (Option.some.inj hj).symm⟩
      · cases hj
    case isFalse hij => exact Or.inr ⟨Ne.symm hij, hj⟩
  have hholds : ∀ {j key}, holdsAt keyEq (arr.set i entry') key j = true →
      (j = i ∧ ∃ key' v, entry'.kv = some (key', v) ∧ keyEq key key' = true) ∨
        j ≠ i ∧ holdsAt keyEq arr key j = true := by
    intro j key hj
    obtain ⟨entry, key', v, hget, hkv, heq⟩ := holdsAt_iff.1 hj
    rcases hcases hget with ⟨rfl, rfl⟩ | ⟨hne, hget⟩
    · exact Or.inl ⟨rfl, key', v, hkv, heq⟩
    · exact Or.inr ⟨hne, holdsAt_iff.2 ⟨entry, key', v, hget, hkv, heq⟩⟩
  have hother : ∀ {j key key' v}, entry'.kv = some (key', v) → keyEq key key' = true →
      holdsAt keyEq arr key j = true → j = i := by
    intro j key key' v hkv heq hj
    obtain ⟨entry, key'', v', hget, hkv', heq'⟩ := holdsAt_iff.1 hj
    exact (hnew key' v hkv).2.2 j
      (holdsAt_iff.mpr ⟨entry, key'', v', hget, hkv', hkey.trans (hkey.symm heq) heq'⟩)
  refine ⟨fun hj hkv => ?_, fun hj hkv => ?_, fun hj => ?_, fun hj hj' => ?_⟩
  · rcases hcases hj with ⟨rfl, rfl⟩ | ⟨-, hj⟩
    · exact hdirty
    · exact h.dirty hj hkv
  · rcases hcases hj with ⟨rfl, rfl⟩ | ⟨-, hj⟩
    · exact (hnew _ _ hkv).1
    · exact h.hash hj hkv
  · rw [List.length_set]
    rcases hholds hj with ⟨rfl, key', v, hkv, heq⟩ | ⟨-, hj⟩
    · rw [hkey.hash heq]
      exact (hnew key' v hkv).2.1.mono fun _ => dirtyAt_set hdirty
    · exact (h.reaches hj).mono fun _ => dirtyAt_set hdirty
  · rcases hholds hj with ⟨hji, key', v, hkv, heq⟩ | ⟨-, hold⟩
    · rcases hholds hj' with ⟨hji', -⟩ | ⟨-, hold'⟩
      · exact hji.trans hji'.symm
      · exact hji.trans (hother hkv heq hold').symm
    · rcases hholds hj' with ⟨hji', key', v, hkv, heq⟩ | ⟨-, hold'⟩
      · exact (hother hkv heq hold).trans hji'.symm
      · exact h.unique hold hold'

/-! ## The search -/

theorem findIdx_of_holdsAt (h : TableInv keyEq hashFunc arr)
    (hi : holdsAt keyEq arr key i = true) :
    findIdx keyEq arr arr.length key (hashFunc key) = some i := by
  obtain ⟨entry, -, -, hget, -⟩ := holdsAt_iff.1 hi
  have hpos : 0 < arr.length := Nat.zero_lt_of_lt (List.getElem?_eq_some_iff.mp hget).1
  rw [findIdx, if_neg hpos.ne']
  exact probe_of_reaches (Nat.mod_lt _ hpos) (h.reaches hi) hi fun j hj => h.unique hj hi

theorem findIdx_of_clean (hashFunc : κ → Nat) (hnone : ∀ i, holdsAt keyEq arr key i = false)
    (hclean : arr.countP HEntry.isDirty < arr.length) :
    ∃ i entry, findIdx keyEq arr arr.length key (hashFunc key) = some i ∧ arr[i]? = some entry ∧
      entry.isDirty = false ∧
      Reaches arr.length (dirtyAt arr) (hashFunc key % arr.length) i := by
  have hpos : 0 < arr.length := Nat.zero_lt_of_lt hclean
  obtain ⟨e, he, hdirty⟩ : ∃ e ∈ arr, ¬ e.isDirty = true := by
    by_contra hall
    push Not at hall
    exact hclean.ne (List.countP_eq_length.mpr hall)
  obtain ⟨j, hj⟩ := List.getElem?_of_mem he
  have hclean' : dirtyAt arr j = false := by
    rw [dirtyAt_of_getElem? hj]
    exact Bool.eq_false_iff.mpr hdirty
  obtain ⟨i, hi, hprobe, hclean', hreach⟩ := probe_clean (Nat.mod_lt (hashFunc key) hpos) hnone
    (List.getElem?_eq_some_iff.mp hj).1 hclean'
  have hget : arr[i]? = some arr[i] := List.getElem?_eq_getElem hi
  rw [dirtyAt_of_getElem? hget] at hclean'
  rw [findIdx, if_neg hpos.ne']
  exact ⟨i, arr[i], hprobe, hget, hclean', hreach⟩

theorem exists_holdsAt :
    (∃ i, holdsAt keyEq arr key i = true) ↔ ∃ kv ∈ liveEntries arr, keyEq key kv.1 = true := by
  constructor
  · rintro ⟨i, hi⟩
    obtain ⟨entry, key', v, hget, hkv, heq⟩ := holdsAt_iff.1 hi
    exact ⟨(key', v), mem_liveEntries.2 ⟨i, entry, hget, hkv⟩, heq⟩
  · rintro ⟨⟨key', v⟩, hmem, heq⟩
    obtain ⟨i, entry, hget, hkv⟩ := mem_liveEntries.1 hmem
    exact ⟨i, holdsAt_iff.2 ⟨entry, key', v, hget, hkv, heq⟩⟩

/-- A key that no entry holds goes into a clean entry. -/
theorem TableInv.place (hkey : IsKeyEq keyEq hashFunc) (h : TableInv keyEq hashFunc arr)
    (hkv : entry'.kv = some (key, v)) (hhash : entry'.hash = hashFunc key)
    (hdirty : entry'.isDirty = true)
    (hnone : ∀ kv ∈ liveEntries arr, keyEq key kv.1 = false)
    (hclean : arr.countP HEntry.isDirty < arr.length) :
    ∃ i entry, findIdx keyEq arr arr.length key (hashFunc key) = some i ∧ arr[i]? = some entry ∧
      entry.isDirty = false ∧ entry.kv = none ∧ TableInv keyEq hashFunc (arr.set i entry') ∧
      liveEntries (arr.set i entry') = (key, v) ::ₘ liveEntries arr ∧
      (arr.set i entry').countP HEntry.isDirty = arr.countP HEntry.isDirty + 1 := by
  have hhold : ∀ i, holdsAt keyEq arr key i = false := by
    intro i
    rw [Bool.eq_false_iff]
    intro hi
    obtain ⟨kv, hmem, heq⟩ := exists_holdsAt.1 ⟨i, hi⟩
    rw [hnone kv hmem] at heq
    cases heq
  obtain ⟨i, entry, hfind, hget, hcl, hreach⟩ := findIdx_of_clean hashFunc hhold hclean
  have hfree : entry.kv = none := by
    by_contra hne
    rw [h.dirty hget (Option.isSome_iff_ne_none.mpr hne)] at hcl
    cases hcl
  refine ⟨i, entry, hfind, hget, hcl, hfree, h.set hkey hdirty ?_, ?_, ?_⟩
  · intro key₁ v₁ hkv₁
    obtain ⟨rfl, rfl⟩ := Prod.mk.inj (Option.some.inj (hkv.symm.trans hkv₁))
    exact ⟨hhash, hreach, fun j hj => absurd hj (by rw [hhold j]; decide)⟩
  · have hset := liveEntries_set hget entry'
    rwa [hfree, hkv, Option.toList_none, Option.toList_some, Multiset.coe_nil, zero_add,
      Multiset.coe_singleton, Multiset.singleton_add] at hset
  · obtain ⟨hlt, rfl⟩ := List.getElem?_eq_some_iff.mp hget
    rw [List.countP_set hlt, hcl, hdirty]
    rfl

/-! ## Rehash -/

theorem TableInv.pairwise (hkey : IsKeyEq keyEq hashFunc) (h : TableInv keyEq hashFunc arr) :
    (arr.filterMap HEntry.kv).Pairwise fun kv kv' => keyEq kv.1 kv'.1 = false := by
  rw [List.pairwise_filterMap, List.pairwise_iff_getElem]
  rintro i j hi hj hij ⟨key, v⟩ hkv ⟨key', v'⟩ hkv'
  rw [Bool.eq_false_iff]
  intro heq
  have hhi : holdsAt keyEq arr key i = true :=
    holdsAt_iff.2 ⟨arr[i], key, v, List.getElem?_eq_getElem hi, hkv, hkey.refl key⟩
  have hhj : holdsAt keyEq arr key j = true :=
    holdsAt_iff.2 ⟨arr[j], key', v', List.getElem?_eq_getElem hj, hkv', heq⟩
  exact hij.ne (h.unique hhi hhj)

/-- The loop of the rehash, over the old entries `l` that are left. -/
theorem rehash_spec (hkey : IsKeyEq keyEq hashFunc) (hcap : cap < 2 ^ 32) (l : List (HEntry κ ν))
    (hdirty : ∀ entry ∈ l, entry.kv.isSome → entry.isDirty = true)
    (hhash : ∀ entry ∈ l, ∀ key v, entry.kv = some (key, v) → entry.hash = hashFunc key)
    (hpair : (l.filterMap HEntry.kv).Pairwise fun kv kv' => keyEq kv.1 kv'.1 = false)
    (h : TableInv keyEq hashFunc arr) (hlen : arr.length = cap)
    (hnone : ∀ kv ∈ liveEntries l, ∀ kv' ∈ liveEntries arr, keyEq kv.1 kv'.1 = false)
    (hnum : (liveEntries arr).card = arr.countP HEntry.isDirty)
    (hroom : (liveEntries arr).card + (liveEntries l).card ≤ cap) :
    ∃ arr', l.foldlM (rehashEntry keyEq cap) (arr, (liveEntries arr).card) =
        some (arr', (liveEntries arr').card) ∧
      TableInv keyEq hashFunc arr' ∧ arr'.length = cap ∧
      liveEntries arr' = liveEntries arr + liveEntries l ∧
      (liveEntries arr').card = arr'.countP HEntry.isDirty := by
  induction l generalizing arr with
  | nil => exact ⟨arr, rfl, h, hlen, (add_zero _).symm, hnum⟩
  | cons entry l ih =>
    have hdirty' : ∀ e ∈ l, e.kv.isSome → e.isDirty = true :=
      fun e he => hdirty e (List.mem_cons_of_mem _ he)
    have hhash' : ∀ e ∈ l, ∀ key v, e.kv = some (key, v) → e.hash = hashFunc key :=
      fun e he => hhash e (List.mem_cons_of_mem _ he)
    cases hkv : entry.kv with
    | none =>
      have hlive : liveEntries (entry :: l) = liveEntries l := by
        rw [liveEntries, List.filterMap_cons_none hkv, liveEntries]
      rw [List.filterMap_cons_none hkv] at hpair
      rw [hlive] at hnone hroom ⊢
      rw [List.foldlM_cons, rehashEntry, hkv]
      exact ih hdirty' hhash' hpair h hlen hnone hnum hroom
    | some kv =>
      obtain ⟨key, v⟩ := kv
      have hlive : liveEntries (entry :: l) = (key, v) ::ₘ liveEntries l := by
        rw [liveEntries, List.filterMap_cons_some hkv, liveEntries, Multiset.cons_coe]
      rw [List.filterMap_cons_some hkv, List.pairwise_cons] at hpair
      rw [hlive] at hnone hroom ⊢
      rw [Multiset.card_cons] at hroom
      have hent := hdirty entry List.mem_cons_self (by rw [hkv]; rfl)
      have hent' := hhash entry List.mem_cons_self key v hkv
      obtain ⟨i, -, hfind, -, -, -, hinv, hset, hcount⟩ := h.place hkey hkv hent' hent
        (hnone (key, v) (Multiset.mem_cons_self _ _)) (by rw [← hnum, hlen]; omega)
      rw [hlen] at hfind
      have hcard : (liveEntries (arr.set i entry)).card = (liveEntries arr).card + 1 := by
        rw [hset, Multiset.card_cons]
      have hstep : rehashEntry keyEq cap (arr, (liveEntries arr).card) entry =
          some (arr.set i entry, (liveEntries (arr.set i entry)).card) := by
        rw [rehashEntry, hkv]
        simp only [hent, Bool.true_eq_false, if_false, hent', hfind, Option.bind_eq_bind,
          Option.bind_some, hcard]
        rw [Nat.mod_eq_of_lt (by omega)]
      rw [List.foldlM_cons, hstep]
      have hnone' : ∀ kv' ∈ liveEntries l, ∀ kv₁ ∈ liveEntries (arr.set i entry),
          keyEq kv'.1 kv₁.1 = false := by
        intro kv' hmem kv₁ hmem₁
        rw [hset] at hmem₁
        rcases Multiset.mem_cons.mp hmem₁ with rfl | hmem₁
        · rw [Bool.eq_false_iff]
          intro heq
          have := hpair.1 kv' hmem
          rw [hkey.symm heq] at this
          cases this
        · exact hnone kv' (Multiset.mem_cons_of_mem hmem) kv₁ hmem₁
      obtain ⟨arr', hfold, hinv', hlen', hlive', hnum'⟩ := ih hdirty' hhash' hpair.2 hinv
        (by rw [List.length_set, hlen]) hnone' (by rw [hcard, hcount, hnum]) (by omega)
      refine ⟨arr', hfold, hinv', hlen', ?_, hnum'⟩
      rw [hlive', hset, Multiset.cons_add, Multiset.add_cons]

end NrStack
