import NrStack.Coding.GoldSequence

/-!
# The cache of Gold sequences

`gold_cache` of `refsig.c` keeps the sequences of a thread in one table of words : a row of entries,
each a header of 16 words and the words of its sequence, and zeros behind them. A search that meets
a shorter sequence of its key marks it as unused. `refresh_table` copies the entries into a new
table, the ones with the most uses first, and leaves the unused ones out (`copyEntries_perm`).

However the table was used before, an answer is the sequence that was asked for
(`goldCache_transparent`). The entries are records here, and a position is the size of the entries
before it.
-/

namespace NrStack

/-- `gold_cache_t`, with the words behind it. -/
structure GoldEntry where
  key : BitVec 32
  length : Nat
  usage : Int
  words : List (BitVec 32)

/-- `gold_cache_table_t` -/
structure GoldCache where
  entries : List GoldEntry
  tblSz : Nat
  calls : Nat

/-- The header and the words. -/
def GoldEntry.size (e : GoldEntry) : Nat :=
  16 + e.length

/-- The place that entries take. -/
def usedSz (entries : List GoldEntry) : Nat :=
  (entries.map GoldEntry.size).sum

/-- `REFRESH_RATE` -/
def refreshRate : Nat := 1000 * 100

/-! ## The refresh -/

/-- The loop that looks for the first entry with the most uses : `maxUsage`, and its place. -/
def searchMax : List GoldEntry → Int → Option Nat → Nat → Option Nat
  | [], _, best, _ => best
  | e :: es, maxUsage, best, i =>
    if maxUsage < e.usage then searchMax es e.usage (some i) (i + 1)
    else searchMax es maxUsage best (i + 1)

/-- The loop that copies entries and marks them as copied. -/
def copyEntries : Nat → List GoldEntry → List GoldEntry
  | 0, _ => []
  | fuel + 1, old =>
    ((searchMax old 0 none 0).bind fun i => old[i]?.map fun e => (i, e)).elim [] fun ie =>
      ie.2 :: copyEntries fuel (old.set ie.1 { ie.2 with usage := 0 })

namespace GoldCache

/-- `refresh_table`, with pages of 1024 words. -/
def refreshTable (t : GoldCache) (sizeIncrease : Nat) : GoldCache where
  entries := copyEntries t.entries.length t.entries
  tblSz := (if t.tblSz = 0 then 1024 else t.tblSz) +
    if sizeIncrease = 0 then 0 else max sizeIncrease 1024
  calls := 0

/-- What the search of `gold_cache` makes of the entries, what it adds to `calls`, and the words it
finds. -/
def search (key : BitVec 32) (length : Nat) :
    List GoldEntry → List GoldEntry × Nat × Option (List (BitVec 32))
  | [] => ([], 0, none)
  | e :: es =>
    if length ≤ e.length ∧ e.key = key then
      ({ e with usage := (e.usage + 1).bmod (2 ^ 32) } :: es, 0, some e.words)
    else if e.key = key then
      ({ e with usage := 0 } :: (search key length es).1,
        (search key length es).2.1 + refreshRate, (search key length es).2.2)
    else (e :: (search key length es).1, (search key length es).2)

/-- The new entry. The zeros behind the entries are a header with the key 0 to the search. -/
def addEntry (t : GoldCache) (key : BitVec 32) (length : Nat) : GoldCache :=
  let calls := if usedSz t.entries < t.tblSz ∧ key = 0 then t.calls + refreshRate else t.calls
  let t := { t with calls := calls }
  let t := if t.tblSz = 0 ∨ t.tblSz < usedSz t.entries + (2 * 16 + length) then
    t.refreshTable (2 * 16 + length) else t
  { t with entries := t.entries ++ [⟨key, length, 1, goldWords key length⟩] }

/-- The periodic refresh. -/
def countCall (t : GoldCache) : GoldCache :=
  let t := { t with calls := t.calls + 1 }
  if refreshRate < t.calls then t.refreshTable 0 else t

/-- `gold_cache` for a positive length : the table, and the words from the pointer on that it
returns. -/
def goldCache (t : GoldCache) (key : BitVec 32) (dwords : ℕ+) : GoldCache × List (BitVec 32) :=
  let length := ((dwords : Nat) + 15) / 16 * 16
  let t := t.countCall
  let r := search key length t.entries
  let t := { t with entries := r.1, calls := t.calls + r.2.1 }
  r.2.2.elim (t.addEntry key length, goldWords key length) fun words => (t, words)

/-- A thread without a table. -/
def empty : GoldCache :=
  ⟨[], 0, 0⟩

/-- The table after calls. -/
def after (calls : List (BitVec 32 × ℕ+)) : GoldCache :=
  calls.foldl (fun t c => (t.goldCache c.1 c.2).1) empty

end GoldCache

/-! ## What a refresh keeps -/

theorem searchMax_cases : ∀ (es : List GoldEntry) (m : Int) (best : Option Nat) (i : Nat),
    (searchMax es m best i = best ∧ ∀ e ∈ es, e.usage ≤ m) ∨
      ∃ j e, searchMax es m best i = some (i + j) ∧ es[j]? = some e ∧ m < e.usage ∧
        ∀ d ∈ es, d.usage ≤ e.usage
  | [], _, _, _ => .inl ⟨rfl, fun _ he => absurd he List.not_mem_nil⟩
  | e :: es, m, best, i => by
    unfold searchMax
    split_ifs with hm
    · right
      rcases searchMax_cases es e.usage (some i) (i + 1) with
        ⟨hs, hall⟩ | ⟨j, d, hs, hj, hd, hmax⟩
      · exact ⟨0, e, hs, rfl, hm, List.forall_mem_cons.2 ⟨le_rfl, hall⟩⟩
      · refine ⟨j + 1, d, ?_, hj, hm.trans hd, List.forall_mem_cons.2 ⟨hd.le, hmax⟩⟩
        rw [hs, Nat.add_assoc, Nat.add_comm 1 j]
    · rcases searchMax_cases es m best (i + 1) with
        ⟨hs, hall⟩ | ⟨j, d, hs, hj, hd, hmax⟩
      · exact .inl ⟨hs, List.forall_mem_cons.2 ⟨not_lt.1 hm, hall⟩⟩
      · refine .inr ⟨j + 1, d, ?_, hj, hd,
          List.forall_mem_cons.2 ⟨(not_lt.1 hm).trans hd.le, hmax⟩⟩
        rw [hs, Nat.add_assoc, Nat.add_comm 1 j]

/-- The entries that are in use. -/
def inUse (es : List GoldEntry) : List GoldEntry :=
  es.filter fun e => 0 < e.usage

/-- A copied entry is not in use any more. -/
theorem inUse_set {es : List GoldEntry} {j : Nat} {e : GoldEntry} (hj : es[j]? = some e)
    (he : 0 < e.usage) : (inUse es).Perm (e :: inUse (es.set j { e with usage := 0 })) := by
  obtain ⟨hlt, hget⟩ := List.getElem?_eq_some_iff.1 hj
  have hold : es = es.take j ++ e :: es.drop (j + 1) := by
    rw [← hget, List.cons_getElem_drop_succ, List.take_append_drop]
  have hnew : es.set j { e with usage := 0 } =
      es.take j ++ { e with usage := 0 } :: es.drop (j + 1) := by
    rw [List.set_eq_take_append_cons_drop, if_pos hlt]
  rw [hnew]
  unfold inUse
  nth_rewrite 1 [hold]
  rw [List.filter_append, List.filter_append, List.filter_cons_of_pos (by simpa using he),
    List.filter_cons_of_neg (by simp)]
  exact List.perm_middle

/-- Every entry in use is copied once. -/
theorem copyEntries_perm : ∀ {fuel : Nat} {old : List GoldEntry}, (inUse old).length ≤ fuel →
    (copyEntries fuel old).Perm (inUse old)
  | 0, old, h => by
    rw [List.length_eq_zero_iff.1 (Nat.le_zero.1 h)]
    exact List.Perm.nil
  | fuel + 1, old, h => by
    unfold copyEntries
    rcases searchMax_cases old 0 none 0 with
      ⟨hs, hall⟩ | ⟨j, e, hs, hj, he, -⟩
    · have hnone : inUse old = [] :=
        List.filter_eq_nil_iff.2 fun e he => by simpa using hall e he
      rw [hs, hnone]
      exact List.Perm.nil
    · have hperm := inUse_set hj he
      rw [Nat.zero_add] at hs
      rw [hs, Option.bind_some, hj]
      have hlength := hperm.length_eq
      rw [List.length_cons] at hlength
      have hrest : (copyEntries fuel (old.set j { e with usage := 0 })).Perm
          (inUse (old.set j { e with usage := 0 })) := copyEntries_perm (by omega)
      exact (List.Perm.cons e hrest).trans hperm.symm

theorem copyEntries_length_perm (old : List GoldEntry) :
    (copyEntries old.length old).Perm (inUse old) :=
  copyEntries_perm (List.length_filter_le _ _)

/-- What is copied was there, and in use. -/
theorem mem_copyEntries : ∀ {fuel : Nat} {old : List GoldEntry} {d : GoldEntry},
    d ∈ copyEntries fuel old → d ∈ old ∧ 0 < d.usage
  | 0, _, _, h => absurd h List.not_mem_nil
  | fuel + 1, old, d, h => by
    unfold copyEntries at h
    rcases searchMax_cases old 0 none 0 with ⟨hs, -⟩ | ⟨j, e, hs, hj, he, -⟩
    · rw [hs] at h
      exact absurd h List.not_mem_nil
    · rw [Nat.zero_add] at hs
      rw [hs, Option.bind_some, hj] at h
      rcases List.mem_cons.1 h with rfl | h
      · exact ⟨List.mem_of_getElem? hj, he⟩
      · obtain ⟨hmem, hused⟩ := mem_copyEntries h
        rcases List.mem_or_eq_of_mem_set hmem with hmem | rfl
        · exact ⟨hmem, hused⟩
        · exact absurd hused (lt_irrefl 0)

theorem copyEntries_sorted : ∀ (fuel : Nat) (old : List GoldEntry),
    (copyEntries fuel old).Pairwise fun e d => d.usage ≤ e.usage
  | 0, _ => List.Pairwise.nil
  | fuel + 1, old => by
    unfold copyEntries
    rcases searchMax_cases old 0 none 0 with ⟨hs, -⟩ | ⟨j, e, hs, hj, -, hmax⟩
    · rw [hs]
      exact List.Pairwise.nil
    · rw [Nat.zero_add] at hs
      rw [hs, Option.bind_some, hj]
      refine List.Pairwise.cons (fun d hd => ?_) (copyEntries_sorted fuel _)
      obtain ⟨hmem, hused⟩ := mem_copyEntries hd
      rcases List.mem_or_eq_of_mem_set hmem with hmem | rfl
      · exact hmax d hmem
      · exact absurd hused (lt_irrefl 0)

theorem usedSz_append (es ds : List GoldEntry) : usedSz (es ++ ds) = usedSz es + usedSz ds := by
  rw [usedSz, List.map_append, List.sum_append]
  rfl

theorem usedSz_inUse : ∀ es : List GoldEntry, usedSz (inUse es) ≤ usedSz es
  | [] => le_rfl
  | e :: es => by
    have ih := usedSz_inUse es
    unfold inUse usedSz at *
    by_cases he : 0 < e.usage
    · rw [List.filter_cons_of_pos (by simpa using he), List.map_cons, List.map_cons, List.sum_cons,
        List.sum_cons]
      omega
    · rw [List.filter_cons_of_neg (by simpa using he), List.map_cons, List.sum_cons]
      omega

namespace GoldCache

/-- The words of an entry are those of its key, and the entries fit. -/
structure Inv (t : GoldCache) : Prop where
  words : ∀ e ∈ t.entries, e.words = goldWords e.key e.length
  fits : usedSz t.entries ≤ t.tblSz

variable {t : GoldCache} {key : BitVec 32} {length : Nat}

theorem inv_empty : empty.Inv :=
  ⟨fun _ he => absurd he List.not_mem_nil, le_rfl⟩

theorem Inv.refreshTable (h : t.Inv) (sizeIncrease : Nat) : (t.refreshTable sizeIncrease).Inv := by
  have hperm := copyEntries_length_perm t.entries
  refine ⟨fun e he => h.words e (List.mem_of_mem_filter (hperm.subset he)), ?_⟩
  calc usedSz (copyEntries t.entries.length t.entries) = usedSz (inUse t.entries) :=
        (hperm.map GoldEntry.size).sum_eq
    _ ≤ t.tblSz := (usedSz_inUse _).trans h.fits
    _ ≤ (t.refreshTable sizeIncrease).tblSz := by
        unfold GoldCache.refreshTable
        dsimp only
        split_ifs <;> omega

theorem usedSz_refreshTable (h : t.Inv) (sizeIncrease : Nat) :
    usedSz (t.refreshTable sizeIncrease).entries + sizeIncrease ≤
      (t.refreshTable sizeIncrease).tblSz := by
  have hperm := copyEntries_length_perm t.entries
  have hused : usedSz (copyEntries t.entries.length t.entries) = usedSz (inUse t.entries) :=
    (hperm.map GoldEntry.size).sum_eq
  have hle := (usedSz_inUse t.entries).trans h.fits
  unfold GoldCache.refreshTable
  dsimp only
  rw [hused]
  split_ifs <;> omega

theorem Inv.countCall (h : t.Inv) : t.countCall.Inv := by
  have hcounted : Inv { t with calls := t.calls + 1 } := ⟨h.words, h.fits⟩
  unfold GoldCache.countCall
  dsimp only
  split_ifs
  · exact hcounted.refreshTable 0
  · exact hcounted

/-- The search changes nothing but uses, and what it finds is the sequence of the key. -/
theorem search_spec (key : BitVec 32) (length : Nat) : ∀ {es : List GoldEntry},
    (∀ e ∈ es, e.words = goldWords e.key e.length) →
      (∀ e ∈ (search key length es).1, e.words = goldWords e.key e.length) ∧
        usedSz (search key length es).1 = usedSz es ∧
          ∀ words, (search key length es).2.2 = some words →
            ∃ n, length ≤ n ∧ words = goldWords key n
  | [], h => ⟨h, rfl, fun _ hw => by cases hw⟩
  | e :: es, h => by
    obtain ⟨he, hes⟩ := List.forall_mem_cons.1 h
    obtain ⟨hwords, hused, hfound⟩ := search_spec key length hes
    unfold usedSz at hused ⊢
    unfold search
    split_ifs with hhit hkey
    · refine ⟨List.forall_mem_cons.2 ⟨he, hes⟩, rfl, fun words hw => ?_⟩
      rw [Option.some.injEq] at hw
      exact ⟨e.length, hhit.1, by rw [← hw, he, hhit.2]⟩
    · refine ⟨List.forall_mem_cons.2 ⟨he, hwords⟩, ?_, hfound⟩
      rw [List.map_cons, List.map_cons, List.sum_cons, List.sum_cons, hused]
      rfl
    · refine ⟨List.forall_mem_cons.2 ⟨he, hwords⟩, ?_, hfound⟩
      rw [List.map_cons, List.map_cons, List.sum_cons, List.sum_cons, hused]

theorem Inv.addEntry (h : t.Inv) : (t.addEntry key length).Inv := by
  have hnew : ∀ {t : GoldCache}, t.Inv → usedSz t.entries + (2 * 16 + length) ≤ t.tblSz →
      Inv { t with entries := t.entries ++ [⟨key, length, 1, goldWords key length⟩] } := by
    intro t h hfits
    refine ⟨fun e he => ?_, ?_⟩
    · rcases List.mem_append.1 he with he | he
      · exact h.words e he
      · rw [List.mem_singleton.1 he]
    · have hone : usedSz [⟨key, length, 1, goldWords key length⟩] = 16 + length := rfl
      dsimp only
      rw [usedSz_append, hone]
      omega
  unfold GoldCache.addEntry
  dsimp only
  generalize (if usedSz t.entries < t.tblSz ∧ key = 0 then t.calls + refreshRate
    else t.calls) = calls
  have hcounted : Inv { t with calls := calls } := ⟨h.words, h.fits⟩
  split_ifs with hroom
  · exact hnew (hcounted.refreshTable _) (usedSz_refreshTable hcounted _)
  · exact hnew hcounted (not_lt.1 (not_or.1 hroom).2)

theorem Inv.search (h : t.Inv) (calls : Nat) : Inv { t with
    entries := (GoldCache.search key length t.entries).1, calls := calls } :=
  ⟨(search_spec key length h.words).1, (search_spec key length h.words).2.1.trans_le h.fits⟩

/-- A call keeps the table, and its answer begins with the sequence. -/
theorem Inv.goldCache (h : t.Inv) (key : BitVec 32) (dwords : ℕ+) :
    (t.goldCache key dwords).1.Inv ∧ ∃ n, (dwords : ℕ) ≤ n ∧
      (t.goldCache key dwords).2 = goldWords key n := by
  have hround : (dwords : ℕ) ≤ (dwords + 15) / 16 * 16 := by omega
  unfold GoldCache.goldCache
  dsimp only
  have hcount := h.countCall
  obtain ⟨-, -, hfound⟩ := search_spec key (((dwords : ℕ) + 15) / 16 * 16) hcount.words
  cases hs : (GoldCache.search key (((dwords : ℕ) + 15) / 16 * 16) t.countCall.entries).2.2 with
  | none => exact ⟨(hcount.search _).addEntry, _, hround, rfl⟩
  | some words =>
    obtain ⟨n, hn, hw⟩ := hfound words hs
    exact ⟨hcount.search _, n, hround.trans hn, hw⟩

theorem inv_after (calls : List (BitVec 32 × ℕ+)) : (after calls).Inv := by
  unfold after
  induction calls using List.reverseRecOn with
  | nil => exact inv_empty
  | append_singleton calls c ih =>
    rw [List.foldl_append, List.foldl_cons, List.foldl_nil]
    exact (ih.goldCache c.1 c.2).1

end GoldCache

/-! ## Answers -/

theorem take_goldRest : ∀ {m n : ℕ} (x : BitVec 32 × BitVec 32), m ≤ n →
    (goldRest x n).take m = goldRest x m
  | 0, _, _, _ => by
    rw [List.take_zero]
    rfl
  | m + 1, n + 1, x, h => congrArg (List.cons _) (take_goldRest _ (Nat.le_of_succ_le_succ h))

theorem take_goldWords (key : BitVec 32) : ∀ {m n : ℕ}, m ≤ n →
    (goldWords key n).take m = goldWords key m
  | 0, _, _ => by
    rw [List.take_zero]
    rfl
  | m + 1, n + 1, h => congrArg (List.cons _) (take_goldRest _ (Nat.le_of_succ_le_succ h))

/-- After any calls the table is large enough for its entries, and the words that a call asks for
are those that `lte_gold_generic` gives for its key. -/
theorem goldCache_transparent (calls : List (BitVec 32 × ℕ+)) (key : BitVec 32) (dwords : ℕ+) :
    usedSz (GoldCache.after calls).entries ≤ (GoldCache.after calls).tblSz ∧
      (((GoldCache.after calls).goldCache key dwords).2).take dwords = goldWords key dwords := by
  have hinv := GoldCache.inv_after calls
  obtain ⟨-, n, hn, hwords⟩ := hinv.goldCache key dwords
  exact ⟨hinv.fits, by rw [hwords, take_goldWords key hn]⟩

/-- A refresh keeps the entries that are in use, each once and the most used first, in a table with
room for what was asked for. -/
theorem refreshTable_keeps (calls : List (BitVec 32 × ℕ+)) (sizeIncrease : Nat) :
    ((GoldCache.after calls).refreshTable sizeIncrease).entries.Perm
        (inUse (GoldCache.after calls).entries) ∧
      ((GoldCache.after calls).refreshTable sizeIncrease).entries.Pairwise
        (fun e d => d.usage ≤ e.usage) ∧
      usedSz ((GoldCache.after calls).refreshTable sizeIncrease).entries + sizeIncrease ≤
        ((GoldCache.after calls).refreshTable sizeIncrease).tblSz :=
  ⟨copyEntries_length_perm _, copyEntries_sorted _ _,
    GoldCache.usedSz_refreshTable (GoldCache.inv_after calls) sizeIncrease⟩

end NrStack
