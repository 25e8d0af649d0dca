import Mathlib.Algebra.BigOperators.Group.Finset.Basic
import Mathlib.Algebra.Order.Group.Multiset
import NrStack.Common.Hashtable

/-!
# The hash table is a finite map

Every call works on the bucket of its key, so what it does is said of that bucket (`Holds.split`), and
carries over to the table because the other buckets have other nodes (`Holds.notMem`,
`Holds.update`). The values are counted : the freed ones and the ones in the buckets are the stored
ones, each as often as it was stored (`HashTable.Refines`).
-/

namespace NrStack

namespace HashTable

variable {A D : Type} [DecidableEq A] {hashfunc : UInt64 → UInt64} {t : HashTable A D}
  {map : UInt64 → Option (Option D)} {bucket : ℕ → List (A × HashNode D)} {key : UInt64}
  {l l₁ l₂ : List (A × HashNode D)} {a : A} {v : HashNode D}

/-! ## Looking for a key -/

theorem findNode_of_mem {m : Memory A (HashNode D)} (hv : v.key = key) :
    ∀ {l₁ : List (A × HashNode D)} {p prevnode : Option A},
      Chain m p (l₁ ++ (a, v) :: l₂) none → (∀ e ∈ l₁, e.2.key ≠ key) →
        Returns (fun n => findNode m key n prevnode p)
          ((l₁.getLast?.map Prod.fst).or prevnode, some a)
  | [], _, _, ⟨hp, r, hr, _⟩, _ => by
    subst hp
    refine ⟨1, fun n hn => ?_⟩
    obtain ⟨n, rfl⟩ := Nat.exists_eq_add_of_le' hn
    simp [findNode, hr, hv]
  | (b, w) :: l₁, _, prevnode, ⟨hp, r, hr, h⟩, hne => by
    subst hp
    have hlast : (((b, w) :: l₁).getLast?.map Prod.fst).or prevnode =
        (l₁.getLast?.map Prod.fst).or (some b) := by
      rw [List.getLast?_cons]
      cases l₁.getLast? <;> rfl
    rw [hlast]
    refine Returns.of_succ (fun n => ?_)
      (findNode_of_mem hv h fun e he => hne e (List.mem_cons_of_mem _ he))
    simp [findNode, hr, hne (b, w) List.mem_cons_self]

theorem findNode_of_notMem {m : Memory A (HashNode D)} :
    ∀ {l : List (A × HashNode D)} {p prevnode : Option A}, Chain m p l none →
      (∀ e ∈ l, e.2.key ≠ key) →
        ∃ prevnode', Returns (fun n => findNode m key n prevnode p) (prevnode', none)
  | [], _, prevnode, h, _ => by
    rw [show _ = none from h]
    refine ⟨prevnode, 1, fun n hn => ?_⟩
    obtain ⟨n, rfl⟩ := Nat.exists_eq_add_of_le' hn
    rfl
  | (b, w) :: l, _, prevnode, ⟨hp, r, hr, h⟩, hne => by
    subst hp
    obtain ⟨prevnode', hret⟩ := @findNode_of_notMem m l r (some b) h
      fun e he => hne e (List.mem_cons_of_mem _ he)
    refine ⟨prevnode', Returns.of_succ (fun n => ?_) hret⟩
    simp [findNode, hr, hne (b, w) List.mem_cons_self]

/-! ## The bucket of a key -/

/-- The bucket of a key. -/
def slot (hashfunc : UInt64 → UInt64) (t : HashTable A D) (key : UInt64) : ℕ :=
  (hashfunc key).toNat % t.size

theorem hash_eq (hsize : 0 < t.size) (key : UInt64) :
    t.hash hashfunc key = some (t.slot hashfunc key) :=
  if_neg hsize.ne'

theorem slot_lt (hashfunc : UInt64 → UInt64) (hsize : 0 < t.size) (key : UInt64) :
    t.slot hashfunc key < t.size :=
  Nat.mod_lt _ hsize

namespace Holds

theorem lookup_slot (h : t.Holds hashfunc map bucket) (hsize : 0 < t.size) (key : UInt64)
    (data : Option D) :
    map key = some data ↔ ∃ e ∈ bucket (t.slot hashfunc key), e.2 = ⟨key, data⟩ := by
  rw [h.lookup]
  refine ⟨fun ⟨n, hn, e, he, heq⟩ => ⟨e, ?_, heq⟩, fun ⟨e, he, heq⟩ =>
    ⟨_, slot_lt hashfunc hsize key, e, he, heq⟩⟩
  rw [slot, ← show e.2.key = key from congrArg HashNode.key heq, h.hash n hn e he]
  exact he

/-- The key is in its bucket, or it is not in the map. -/
theorem split (h : t.Holds hashfunc map bucket) (hsize : 0 < t.size) (key : UInt64) :
    (∃ data l₁ a l₂, map key = some data ∧
      bucket (t.slot hashfunc key) = l₁ ++ (a, ⟨key, data⟩) :: l₂ ∧
      (∀ e ∈ l₁, e.2.key ≠ key) ∧ ∀ e ∈ l₂, e.2.key ≠ key) ∨
    map key = none ∧ ∀ e ∈ bucket (t.slot hashfunc key), e.2.key ≠ key := by
  cases hmap : map key with
  | some data =>
    obtain ⟨⟨a, v⟩, he, rfl⟩ := (h.lookup_slot hsize key data).1 hmap
    obtain ⟨l₁, l₂, hl⟩ := List.append_of_mem he
    have hnodup := h.nodup _ (slot_lt hashfunc hsize key)
    rw [hl, List.map_append, List.map_cons, List.nodup_middle, List.nodup_cons, List.mem_append,
      not_or] at hnodup
    refine Or.inl ⟨data, l₁, a, l₂, rfl, hl, fun e he heq => hnodup.1.1 ?_,
      fun e he heq => hnodup.1.2 ?_⟩
    · exact List.mem_map.2 ⟨e, he, heq⟩
    · exact List.mem_map.2 ⟨e, he, heq⟩
  | none =>
    refine Or.inr ⟨rfl, fun e he heq => ?_⟩
    have hsome := (h.lookup_slot hsize key e.2.data).2 ⟨e, he, by rw [← heq]⟩
    rw [hmap] at hsome
    cases hsome

/-- The nodes of a bucket are not those of another one. -/
theorem notMem (h : t.Holds hashfunc map bucket) {n i : ℕ} (hn : n < t.size) (hi : i < t.size)
    (hne : i ≠ n) {e : A × HashNode D} (he : e ∈ bucket n) : e.1 ∉ (bucket i).map Prod.fst := by
  intro hmem
  obtain ⟨e', he', heq⟩ := List.mem_map.1 hmem
  obtain ⟨l₁, l₂, hl⟩ := List.append_of_mem he
  obtain ⟨l₁', l₂', hl'⟩ := List.append_of_mem he'
  obtain ⟨r, hr, -⟩ := Chain.node (hl ▸ h.chain n hn)
  obtain ⟨r', hr', -⟩ := Chain.node (hl' ▸ h.chain i hi)
  rw [heq, hr, Option.some.injEq, Node.mk.injEq] at hr'
  -- one node has one key, and one hash
  exact hne ((h.hash i hi e' he').symm.trans (hr'.1 ▸ h.hash n hn e he))

/-- One bucket changes, and the map for one key of it. -/
theorem update (h : t.Holds hashfunc map bucket) (t' : HashTable A D) (hsize : t'.size = t.size)
    (hpos : 0 < t.size) (key : UInt64) (x : Option (Option D)) (l : List (A × HashNode D))
    (hchain : Chain t'.memory (t'.nodes (t.slot hashfunc key)) l none)
    (hother : ∀ i < t.size, i ≠ t.slot hashfunc key → Chain t'.memory (t'.nodes i) (bucket i) none)
    (hnodup : (l.map fun e => e.2.key).Nodup)
    (hkeep : ∀ e : A × HashNode D, e.2.key ≠ key → (e ∈ l ↔ e ∈ bucket (t.slot hashfunc key)))
    (hkey : ∀ data, x = some data ↔ ∃ e ∈ l, e.2 = ⟨key, data⟩) :
    t'.Holds hashfunc (Function.update map key x)
      (Function.update bucket (t.slot hashfunc key) l) := by
  have hn := slot_lt hashfunc hpos key
  have hhash : ∀ e ∈ l, t.slot hashfunc e.2.key = t.slot hashfunc key := by
    intro e he
    by_cases heq : e.2.key = key
    · rw [heq]
    · exact h.hash _ hn e ((hkeep e heq).1 he)
  refine ⟨fun i hi => ?_, fun i hi e he => ?_, fun i hi => ?_, fun key' data => ?_⟩
  · by_cases heq : i = t.slot hashfunc key
    · subst heq
      rwa [Function.update_self]
    · rw [Function.update_of_ne heq]
      exact hother i (hsize ▸ hi) heq
  · rw [hsize]
    by_cases heq : i = t.slot hashfunc key
    · subst heq
      rw [Function.update_self] at he
      exact hhash e he
    · rw [Function.update_of_ne heq] at he
      exact h.hash i (hsize ▸ hi) e he
  · by_cases heq : i = t.slot hashfunc key
    · subst heq
      rwa [Function.update_self]
    · rw [Function.update_of_ne heq]
      exact h.nodup i (hsize ▸ hi)
  · rw [hsize]
    have hiff : Function.update map key x key' = some data ↔
        ∃ e ∈ Function.update bucket (t.slot hashfunc key) l (t.slot hashfunc key'),
          e.2 = ⟨key', data⟩ := by
      by_cases heq : key' = key
      · subst heq
        rw [Function.update_self, Function.update_self, hkey]
      · rw [Function.update_of_ne heq, h.lookup_slot hpos]
        by_cases hslot : t.slot hashfunc key' = t.slot hashfunc key
        · rw [hslot, Function.update_self]
          refine exists_congr fun e => and_congr_left fun hdata => (hkeep e ?_).symm
          rwa [show e.2.key = key' from congrArg HashNode.key hdata]
        · rw [Function.update_of_ne hslot]
    rw [hiff]
    refine ⟨fun ⟨e, he, heq⟩ => ⟨_, slot_lt hashfunc hpos key', e, he, heq⟩,
      fun ⟨i, hi, e, he, heq⟩ => ⟨e, ?_, heq⟩⟩
    have hkey' : e.2.key = key' := congrArg HashNode.key heq
    by_cases hin : i = t.slot hashfunc key
    · subst hin
      rw [Function.update_self] at he
      rwa [← hkey', hhash e he, Function.update_self]
    · rw [Function.update_of_ne hin] at he
      have hslot : t.slot hashfunc key' = i := hkey' ▸ h.hash i hi e he
      rwa [hslot, Function.update_of_ne hin]

/-- The loop of the calls, on the bucket of the key. -/
theorem find (h : t.Holds hashfunc map bucket) (hsize : 0 < t.size) (key : UInt64) :
    (∃ data l₁ a l₂, map key = some data ∧
      bucket (t.slot hashfunc key) = l₁ ++ (a, ⟨key, data⟩) :: l₂ ∧
      (∀ e ∈ l₁, e.2.key ≠ key) ∧ (∀ e ∈ l₂, e.2.key ≠ key) ∧
      Returns (fun n => findNode t.memory key n none (t.nodes (t.slot hashfunc key)))
        (l₁.getLast?.map Prod.fst, some a)) ∨
    map key = none ∧ (∀ e ∈ bucket (t.slot hashfunc key), e.2.key ≠ key) ∧
      ∃ prevnode, Returns (fun n => findNode t.memory key n none (t.nodes (t.slot hashfunc key)))
        (prevnode, none) := by
  have hn := slot_lt hashfunc hsize key
  rcases h.split hsize key with ⟨data, l₁, a, l₂, hmap, hl, hne₁, hne₂⟩ | ⟨hmap, hne⟩
  · refine Or.inl ⟨data, l₁, a, l₂, hmap, hl, hne₁, hne₂, ?_⟩
    have hfind := @findNode_of_mem A D _ key l₂ a ⟨key, data⟩ t.memory rfl l₁ _ none
      (hl ▸ h.chain _ hn) hne₁
    rwa [Option.or_none] at hfind
  · exact Or.inr ⟨hmap, hne, findNode_of_notMem (h.chain _ hn) hne⟩

end Holds

/-! ## Counting the values -/

/-- The values in a bucket that are not null. -/
def values (l : List (A × HashNode D)) : Multiset D :=
  (l.filterMap fun e => e.2.data : List D)

omit [DecidableEq A] in
@[simp] theorem values_nil : values ([] : List (A × HashNode D)) = 0 :=
  rfl

omit [DecidableEq A] in
@[simp] theorem values_cons (e : A × HashNode D) (l : List (A × HashNode D)) :
    values (e :: l) = (e.2.data.toList : Multiset D) + values l := by
  rcases e with ⟨a, k, _ | d⟩ <;> simp [values]

omit [DecidableEq A] in
@[simp] theorem values_append (l₁ l₂ : List (A × HashNode D)) :
    values (l₁ ++ l₂) = values l₁ + values l₂ := by
  simp [values]

/-- The table is the map, and every value that was stored was freed or is in a bucket. -/
def Refines (hashfunc : UInt64 → UInt64) (size : ℕ) (t : HashTable A D) (r : HashMapRef D) : Prop :=
  ∃ bucket, t.size = size ∧ t.Holds hashfunc r.map bucket ∧ t.freed = r.freed ∧
    (r.freed : Multiset D) + ∑ n ∈ Finset.range size, values (bucket n) = r.stored

/-- One bucket changes, and with it what is freed and stored. -/
theorem count_update {size n : ℕ} (hn : n < size) {freed freed' stored stored' : List D}
    (h : (freed : Multiset D) + ∑ i ∈ Finset.range size, values (bucket i) = stored)
    (hcount : (freed' : Multiset D) + values l + stored = freed + values (bucket n) + stored') :
    (freed' : Multiset D) + ∑ i ∈ Finset.range size, values (Function.update bucket n l i) =
      stored' := by
  have hmem : n ∈ Finset.range size := Finset.mem_range.2 hn
  have hnew : ∑ i ∈ Finset.range size, values (Function.update bucket n l i) =
      values l + ∑ i ∈ Finset.range size \ {n}, values (bucket i) := by
    rw [← Finset.sum_update_of_mem hmem]
    refine Finset.sum_congr rfl fun i _ => ?_
    by_cases hi : i = n
    · subst hi
      simp
    · simp [hi]
  have hold : ∑ i ∈ Finset.range size, values (bucket i) =
      values (bucket n) + ∑ i ∈ Finset.range size \ {n}, values (bucket i) :=
    Finset.sum_eq_add_sum_sdiff_singleton_of_mem hmem _
  rw [hnew]
  rw [hold] at h
  refine add_right_cancel (b := (stored : Multiset D)) ?_
  calc _ = freed' + values l + stored + ∑ i ∈ Finset.range size \ {n}, values (bucket i) := by abel
    _ = freed + values (bucket n) + stored' + ∑ i ∈ Finset.range size \ {n}, values (bucket i) := by
      rw [hcount]
    _ = stored' + stored := by rw [← h]; abel

/-! ## The calls -/

omit [DecidableEq A] in
/-- The one entry with the key. -/
theorem exists_key_iff {data d : Option D} (hne₁ : ∀ e ∈ l₁, e.2.key ≠ key)
    (hne₂ : ∀ e ∈ l₂, e.2.key ≠ key) :
    (∃ e ∈ l₁ ++ (a, ⟨key, data⟩) :: l₂, e.2 = ⟨key, d⟩) ↔ some data = some d := by
  constructor
  · rintro ⟨e, he, heq⟩
    rcases List.mem_append.1 he with he | he
    · exact absurd (congrArg HashNode.key heq) (hne₁ e he)
    · rcases List.mem_cons.1 he with rfl | he
      · exact congrArg some (congrArg HashNode.data heq)
      · exact absurd (congrArg HashNode.key heq) (hne₂ e he)
  · rintro ⟨rfl⟩
    exact ⟨(a, ⟨key, data⟩), by simp, rfl⟩

omit [DecidableEq A] in
/-- An entry with another key stays where it is. -/
theorem mem_other_iff {data : Option D} {e : A × HashNode D} (he : e.2.key ≠ key) :
    e ∈ l₁ ++ (a, ⟨key, data⟩) :: l₂ ↔ e ∈ l₁ ++ l₂ := by
  have hne : e ≠ (a, ⟨key, data⟩) := by
    rintro rfl
    exact he rfl
  simp [hne]

namespace Holds

/-- The value of the node is replaced. -/
theorem replace (h : t.Holds hashfunc map bucket) (hsize : 0 < t.size) {old : Option D}
    (hl : bucket (t.slot hashfunc key) = l₁ ++ (a, ⟨key, old⟩) :: l₂)
    (hne₁ : ∀ e ∈ l₁, e.2.key ≠ key) (hne₂ : ∀ e ∈ l₂, e.2.key ≠ key) (data : Option D) :
    ∃ p, t.memory a = some ⟨⟨key, old⟩, p⟩ ∧ ∀ freed, Holds hashfunc
      ⟨t.size, t.nodes, Function.update t.memory a (some ⟨⟨key, data⟩, p⟩), freed⟩
      (Function.update map key (some data))
      (Function.update bucket (t.slot hashfunc key) (l₁ ++ (a, ⟨key, data⟩) :: l₂)) := by
  have hn : t.slot hashfunc key < t.size := slot_lt hashfunc hsize key
  have hchain := h.chain _ hn
  have hnodup := h.nodup _ hn
  rw [hl] at hchain hnodup
  obtain ⟨p, hp, hchain'⟩ := hchain.setVal ⟨key, data⟩
  refine ⟨p, hp, fun freed => h.update ⟨_, _, _, freed⟩ rfl hsize key (some data) _ hchain' ?_ ?_ ?_ ?_⟩
  · intro i hi hne
    have he : (a, ⟨key, old⟩) ∈ bucket (t.slot hashfunc key) := by simp [hl]
    exact (h.chain i hi).update (h.notMem hn hi hne he)
  · simpa only [List.map_append, List.map_cons] using hnodup
  · intro e he
    rw [hl, mem_other_iff he, mem_other_iff he]
  · exact fun d => (exists_key_iff hne₁ hne₂).symm

/-- A new node is put at the head of the bucket. -/
theorem push (h : t.Holds hashfunc map bucket) (hsize : 0 < t.size) (ha : t.memory a = none)
    (hne : ∀ e ∈ bucket (t.slot hashfunc key), e.2.key ≠ key) (data : Option D) :
    Holds hashfunc ⟨t.size, Function.update t.nodes (t.slot hashfunc key) (some a),
        Function.update t.memory a (some ⟨⟨key, data⟩, t.nodes (t.slot hashfunc key)⟩), t.freed⟩
      (Function.update map key (some data))
      (Function.update bucket (t.slot hashfunc key)
        ((a, ⟨key, data⟩) :: bucket (t.slot hashfunc key))) := by
  have hn : t.slot hashfunc key < t.size := slot_lt hashfunc hsize key
  have hnot : ∀ i < t.size, a ∉ (bucket i).map Prod.fst := by
    intro i hi hmem
    obtain ⟨⟨a, v⟩, he, rfl⟩ := List.mem_map.1 hmem
    obtain ⟨l₁, l₂, hl⟩ := List.append_of_mem he
    obtain ⟨q, hq, -⟩ := Chain.node (hl ▸ h.chain i hi)
    rw [ha] at hq
    cases hq
  refine h.update ⟨t.size, Function.update t.nodes (t.slot hashfunc key) (some a),
    Function.update t.memory a (some ⟨⟨key, data⟩, t.nodes (t.slot hashfunc key)⟩), t.freed⟩
    rfl hsize key (some data) _ ?_ ?_ ?_ ?_ ?_
  · exact ⟨Function.update_self .., _, Function.update_self .., (h.chain _ hn).update (hnot _ hn)⟩
  · intro i hi hne
    dsimp only
    rw [Function.update_of_ne hne]
    exact (h.chain i hi).update (hnot i hi)
  · rw [List.map_cons, List.nodup_cons]
    refine ⟨fun hmem => ?_, h.nodup _ hn⟩
    obtain ⟨e, he, heq⟩ := List.mem_map.1 hmem
    exact hne e he heq
  · exact fun e he => @mem_other_iff A D key [] _ a data e he
  · exact fun d => (@exists_key_iff A D key [] _ a data d (by simp) hne).symm

/-- The bucket without the node. -/
theorem erase (h : t.Holds hashfunc map bucket) (hsize : 0 < t.size) {data : Option D}
    (hl : bucket (t.slot hashfunc key) = l₁ ++ (a, ⟨key, data⟩) :: l₂)
    (hne₁ : ∀ e ∈ l₁, e.2.key ≠ key) (hne₂ : ∀ e ∈ l₂, e.2.key ≠ key) (t' : HashTable A D)
    (hsize' : t'.size = t.size)
    (hchain : Chain t'.memory (t'.nodes (t.slot hashfunc key)) (l₁ ++ l₂) none)
    (hother : ∀ i < t.size, i ≠ t.slot hashfunc key →
      Chain t'.memory (t'.nodes i) (bucket i) none) :
    Holds hashfunc t' (Function.update map key none)
      (Function.update bucket (t.slot hashfunc key) (l₁ ++ l₂)) := by
  have hnodup := h.nodup _ (slot_lt hashfunc hsize key)
  rw [hl, List.map_append, List.map_cons, List.nodup_middle, List.nodup_cons,
    ← List.map_append] at hnodup
  refine h.update t' hsize' hsize key none _ hchain hother hnodup.2 ?_ fun d => ?_
  · intro e he
    rw [hl, mem_other_iff he]
  · refine ⟨fun hd => (nomatch hd), fun ⟨e, he, heq⟩ => ?_⟩
    rcases List.mem_append.1 he with he | he
    · exact absurd (congrArg HashNode.key heq) (hne₁ e he)
    · exact absurd (congrArg HashNode.key heq) (hne₂ e he)

end Holds

section

variable {size : ℕ} {r : HashMapRef D}

namespace Refines

theorem insert (h : t.Refines hashfunc size r) (hsize : 0 < size)
    (malloc : Malloc A (HashNode D)) (key : UInt64) (data : Option D) :
    ∃ rc t' r', Returns (fun fuel => t.insert hashfunc malloc key data fuel) (rc, t') ∧
      (HashOp.insert malloc key data).Spec r (.rc rc) r' ∧ t'.Refines hashfunc size r' := by
  obtain ⟨bucket, rfl, hholds, hfreed, hcount⟩ := h
  have hn : t.slot hashfunc key < t.size := slot_lt hashfunc hsize key
  rcases hholds.find hsize key with ⟨old, l₁, a, l₂, hmap, hl, hne₁, hne₂, n₀, hfind⟩ |
    ⟨hmap, hne, prevnode, n₀, hfind⟩
  · obtain ⟨p, hp, hholds'⟩ := hholds.replace hsize hl hne₁ hne₂ data
    refine ⟨.insertOverwrittenData, ⟨t.size, t.nodes,
        Function.update t.memory a (some ⟨⟨key, data⟩, p⟩), t.freed ++ old.toList⟩,
      ⟨Function.update r.map key (some data), r.stored ++ data.toList, r.freed ++ old.toList⟩,
      ⟨n₀, fun n hle => ?_⟩, ?_, _, rfl, hholds' (t.freed ++ old.toList), ?_,
      count_update hn hcount ?_⟩
    · simp only [HashTable.insert, hash_eq hsize, hfind n hle, Option.bind_eq_bind,
        Option.bind_some, hp]
      rfl
    · simp only [HashOp.Spec, hmap, and_self]
    · rw [hfreed]
    · rw [hl]
      simp only [values_append, values_cons, ← Multiset.coe_add]
      abel
  · cases hanswer : malloc.answer t.memory with
    | none =>
      refine ⟨.invalid, t, r, ⟨n₀, fun n hle => ?_⟩, ?_, bucket, rfl, hholds, hfreed, hcount⟩
      · simp only [HashTable.insert, hash_eq hsize, hfind n hle, Option.bind_eq_bind,
          Option.bind_some, hanswer]
      · simp only [HashOp.Spec, hmap]
        exact Or.inr ⟨trivial, trivial, _, hanswer⟩
    | some a =>
      refine ⟨.ok, ⟨t.size, Function.update t.nodes (t.slot hashfunc key) (some a),
          Function.update t.memory a (some ⟨⟨key, data⟩, t.nodes (t.slot hashfunc key)⟩), t.freed⟩,
        ⟨Function.update r.map key (some data), r.stored ++ data.toList, r.freed⟩,
        ⟨n₀, fun n hle => ?_⟩, ?_, _, rfl, hholds.push hsize (malloc.fresh _ _ hanswer) hne data,
        hfreed, count_update hn hcount ?_⟩
      · simp only [HashTable.insert, hash_eq hsize, hfind n hle, Option.bind_eq_bind,
          Option.bind_some, hanswer]
      · simp only [HashOp.Spec, hmap]
        exact Or.inl ⟨trivial, trivial⟩
      · simp only [values_cons, ← Multiset.coe_add]
        abel

theorem remove (h : t.Refines hashfunc size r) (hsize : 0 < size) (key : UInt64) :
    ∃ rc t' r', Returns (fun fuel => t.remove hashfunc key fuel) (rc, t') ∧
      (HashOp.remove key : HashOp A D).Spec r (.rc rc) r' ∧ t'.Refines hashfunc size r' := by
  obtain ⟨bucket, rfl, hholds, hfreed, hcount⟩ := h
  have hn : t.slot hashfunc key < t.size := slot_lt hashfunc hsize key
  rcases hholds.find hsize key with ⟨data, l₁, a, l₂, hmap, hl, hne₁, hne₂, n₀, hfind⟩ |
    ⟨hmap, hne, prevnode, n₀, hfind⟩
  · have hchain := hholds.chain _ hn
    rw [hl] at hchain
    have hmem : ∀ e ∈ l₁ ++ (a, ⟨key, data⟩) :: l₂, ∀ i < t.size, i ≠ t.slot hashfunc key →
        e.1 ∉ (bucket i).map Prod.fst :=
      fun e he i hi hne => hholds.notMem hn hi hne (hl ▸ he)
    have hcount' : ((r.freed ++ data.toList : List D) : Multiset D) + values (l₁ ++ l₂) + r.stored =
        r.freed + values (bucket (t.slot hashfunc key)) + r.stored := by
      rw [hl]
      simp only [values_append, values_cons, ← Multiset.coe_add]
      abel
    rcases List.eq_nil_or_concat' l₁ with rfl | ⟨l₁, ⟨b, w⟩, rfl⟩
    · -- at the head of the bucket
      have hhead : t.nodes (t.slot hashfunc key) = some a := hchain.head
      rw [hhead] at hchain
      obtain ⟨p, hp, hrest⟩ := Chain.unlink_head hchain
      refine ⟨.ok, ⟨t.size, Function.update t.nodes (t.slot hashfunc key) p, t.memory.free a,
          t.freed ++ data.toList⟩,
        ⟨Function.update r.map key none, r.stored, r.freed ++ data.toList⟩,
        ⟨n₀, fun n hle => ?_⟩, ?_, _, rfl, hholds.erase hsize hl hne₁ hne₂ _ rfl ?_ ?_, ?_,
        count_update hn hcount hcount'⟩
      · simp only [HashTable.remove, hash_eq hsize, hfind n hle, Option.bind_eq_bind,
          Option.bind_some, hp, List.getLast?_nil, Option.map_none]
        rfl
      · simp only [HashOp.Spec, hmap, and_self]
      · dsimp only
        rwa [Function.update_self, List.nil_append]
      · intro i hi hne
        dsimp only
        rw [Function.update_of_ne hne]
        exact (hholds.chain i hi).update (hmem (a, ⟨key, data⟩) (by simp) i hi hne)
      · rw [hfreed]
    · -- behind another node
      rw [List.append_assoc] at hchain
      obtain ⟨p, m, hp, hset, hp', hrest⟩ := Chain.unlink hchain
      refine ⟨.ok, ⟨t.size, t.nodes, m.free a, t.freed ++ data.toList⟩,
        ⟨Function.update r.map key none, r.stored, r.freed ++ data.toList⟩,
        ⟨n₀, fun n hle => ?_⟩, ?_, _, rfl, hholds.erase hsize hl hne₁ hne₂ _ rfl ?_ ?_, ?_,
        count_update hn hcount hcount'⟩
      · simp only [HashTable.remove, hash_eq hsize, hfind n hle, Option.bind_eq_bind,
          Option.bind_some, hp, List.getLast?_concat, Option.map_some, hset]
        rfl
      · simp only [HashOp.Spec, hmap, and_self]
      · rw [List.append_assoc]
        exact hrest
      · intro i hi hne
        have hb := hmem (b, w) (by simp) i hi hne
        refine ((hholds.chain i hi).congr fun c hc => ?_).update
          (hmem (a, ⟨key, data⟩) (by simp) i hi hne)
        exact Memory.setNext_of_ne hset (ne_of_mem_of_not_mem hc hb)
      · rw [hfreed]
  · refine ⟨.keyNotExists, t, r, ⟨n₀, fun n hle => ?_⟩, ?_, bucket, rfl, hholds, hfreed, hcount⟩
    · simp only [HashTable.remove, hash_eq hsize, hfind n hle, Option.bind_eq_bind,
        Option.bind_some]
    · simp only [HashOp.Spec, hmap, and_self]

theorem get (h : t.Refines hashfunc size r) (hsize : 0 < size) (key : UInt64) :
    ∃ rc data, Returns (fun fuel => t.get hashfunc key fuel) (rc, data) ∧
      (HashOp.get key : HashOp A D).Spec r (.data rc data) r := by
  obtain ⟨bucket, rfl, hholds, hfreed, hcount⟩ := h
  rcases hholds.find hsize key with ⟨data, l₁, a, l₂, hmap, hl, -, -, n₀, hfind⟩ |
    ⟨hmap, -, prevnode, n₀, hfind⟩
  · obtain ⟨p, hp, -⟩ := Chain.node (hl ▸ hholds.chain _ (slot_lt hashfunc hsize key))
    refine ⟨.ok, data, ⟨n₀, fun n hle => ?_⟩, ?_⟩
    · simp only [HashTable.get, hash_eq hsize, hfind n hle, Option.bind_eq_bind, Option.bind_some,
        hp]
    · simp only [HashOp.Spec, hmap, and_self]
  · refine ⟨.keyNotExists, none, ⟨n₀, fun n hle => ?_⟩, ?_⟩
    · simp only [HashTable.get, hash_eq hsize, hfind n hle, Option.bind_eq_bind, Option.bind_some]
    · simp only [HashOp.Spec, hmap, and_self]

theorem isKeyExists (h : t.Refines hashfunc size r) (hsize : 0 < size) (key : UInt64) :
    ∃ rc, Returns (fun fuel => t.isKeyExists hashfunc key fuel) rc ∧
      (HashOp.isKeyExists key : HashOp A D).Spec r (.rc rc) r := by
  obtain ⟨bucket, rfl, hholds, hfreed, hcount⟩ := h
  rcases hholds.find hsize key with ⟨data, l₁, a, l₂, hmap, -, -, -, n₀, hfind⟩ |
    ⟨hmap, -, prevnode, n₀, hfind⟩
  · refine ⟨.ok, ⟨n₀, fun n hle => ?_⟩, ?_⟩
    · simp only [HashTable.isKeyExists, hash_eq hsize, hfind n hle, Option.bind_eq_bind,
        Option.bind_some, Option.isSome_some, if_true]
    · simp only [HashOp.Spec, hmap, Option.isSome_some, if_true, and_self]
  · refine ⟨.keyNotExists, ⟨n₀, fun n hle => ?_⟩, ?_⟩
    · simp [HashTable.isKeyExists, hash_eq hsize, hfind n hle]
    · simp [HashOp.Spec, hmap]

end Refines

end

/-! ## The iteration -/

/-- What an iterator has before it : the list from its node, and the buckets behind its index. -/
def ahead (bucket : ℕ → List (A × HashNode D)) (size i : ℕ) (l : List (A × HashNode D)) :
    List (A × HashNode D) :=
  l ++ (List.range' (i + 1) (size - (i + 1))).flatMap bucket

namespace Holds

/-- The iterator finds the next node, in its bucket or in one behind it. -/
theorem getnext (h : t.Holds hashfunc map bucket) (hint : t.size < 2 ^ 31) :
    ∀ {k i : ℕ} {p : Option A} {l : List (A × HashNode D)}, t.size = i + 1 + k →
      Chain t.memory p l none →
      (ahead bucket t.size i l = [] ∧
        ∃ it, Returns (fun n => t.iteratorGetnext ⟨i, p⟩ n) (none, it)) ∨
      ∃ e i' p' l', i' < t.size ∧ Chain t.memory p' l' none ∧
        ahead bucket t.size i l = e :: ahead bucket t.size i' l' ∧
        Returns (fun n => t.iteratorGetnext ⟨i, p⟩ n) (some e.2.data, ⟨i', p'⟩)
  | k, i, p, (a, v) :: l, hk, ⟨hp, q, hq, hl⟩ => by
    subst hp
    refine Or.inr ⟨(a, v), i, q, l, by omega, hl, rfl, 1, fun n hn => ?_⟩
    obtain ⟨n, rfl⟩ := Nat.exists_eq_add_of_le' hn
    simp [iteratorGetnext, nextIndex, hq]
  | 0, i, p, [], hk, hnil => by
    rw [show p = none from hnil]
    refine Or.inl ⟨by simp [ahead, hk], ⟨i + 1, none⟩, 1, fun n hn => ?_⟩
    obtain ⟨n, rfl⟩ := Nat.exists_eq_add_of_le' hn
    have hlt : i + 1 < 2 ^ 31 := by omega
    have hge : i + 1 ≥ t.size := by omega
    simp only [iteratorGetnext, nextIndex, hlt, hge, if_true, Option.bind_eq_bind, Option.bind_some]
    rfl
  | k + 1, i, p, [], hk, hnil => by
    rw [show p = none from hnil]
    have hlt : i + 1 < 2 ^ 31 := by omega
    have hge : ¬i + 1 ≥ t.size := by omega
    have hahead : ahead bucket t.size i [] = ahead bucket t.size (i + 1) (bucket (i + 1)) := by
      rw [ahead, ahead, show t.size - (i + 1) = t.size - (i + 1 + 1) + 1 by omega,
        List.range'_succ, List.flatMap_cons, List.nil_append]
    have hstep : ∀ n, t.iteratorGetnext ⟨i, none⟩ (n + 1) =
        t.iteratorGetnext ⟨i + 1, t.nodes (i + 1)⟩ n := by
      intro n
      simp only [iteratorGetnext, nextIndex, hlt, hge, if_true, if_false]
    rw [hahead]
    rcases getnext h hint (by omega : t.size = i + 1 + 1 + k) (h.chain (i + 1) (by omega)) with
      ⟨hnone, it, hret⟩ | ⟨e, i', p', l', hi', hl', heq, hret⟩
    · exact Or.inl ⟨hnone, it, hret.of_succ hstep⟩
    · exact Or.inr ⟨e, i', p', l', hi', hl', heq, hret.of_succ hstep⟩

/-- The iteration visits what is before the iterator. -/
theorem visit (h : t.Holds hashfunc map bucket) (hint : t.size < 2 ^ 31) :
    ∀ {rest : List (A × HashNode D)} {i : ℕ} {p : Option A} {l : List (A × HashNode D)},
      i < t.size → Chain t.memory p l none → ahead bucket t.size i l = rest →
        Returns (fun n => t.visit n ⟨i, p⟩) (rest.map fun e => e.2.data)
  | [], i, p, l, hi, hl, hrest => by
    rcases h.getnext hint (by omega : t.size = i + 1 + (t.size - (i + 1))) hl with
      ⟨-, it, hret⟩ | ⟨e, i', p', l', -, -, heq, -⟩
    · refine Returns.of_succ (fun n => rfl) (hret.bind ?_)
      exact Returns.pure fun _ => rfl
    · rw [hrest] at heq
      cases heq
  | e :: rest, i, p, l, hi, hl, hrest => by
    rcases h.getnext hint (by omega : t.size = i + 1 + (t.size - (i + 1))) hl with
      ⟨hnone, -⟩ | ⟨e', i', p', l', hi', hl', heq, hret⟩
    · rw [hrest] at hnone
      cases hnone
    · rw [hrest, List.cons.injEq] at heq
      obtain ⟨rfl, hrest'⟩ := heq
      refine Returns.of_succ (fun n => rfl) (hret.bind ?_)
      exact (visit h hint hi' hl' hrest'.symm).map (e.2.data :: ·)

/-- The nodes of all buckets list the map. -/
theorem lists (h : t.Holds hashfunc map bucket) :
    Lists (((List.range t.size).flatMap bucket).map fun e => (e.2.key, e.2.data)) map := by
  constructor
  · rw [List.map_map, List.map_flatMap, List.nodup_flatMap]
    refine ⟨fun n hn => h.nodup n (List.mem_range.1 hn), ?_⟩
    refine List.nodup_range.pairwise_of_forall_ne fun n hn i hi hne => ?_
    rintro key hkey hkey'
    obtain ⟨e, he, rfl⟩ := List.mem_map.1 hkey
    obtain ⟨e', he', heq⟩ := List.mem_map.1 hkey'
    rw [List.mem_range] at hn hi
    refine hne ((h.hash n hn e he).symm.trans ?_)
    rw [← h.hash i hi e' he']
    exact congrArg (fun key => (hashfunc key).toNat % t.size) heq.symm
  · intro key data
    rw [h.lookup, List.mem_map]
    constructor
    · rintro ⟨e, he, heq⟩
      obtain ⟨n, hn, he⟩ := List.mem_flatMap.1 he
      rw [Prod.mk.injEq] at heq
      exact ⟨n, List.mem_range.1 hn, e, he, by rw [← heq.1, ← heq.2]⟩
    · rintro ⟨n, hn, e, he, heq⟩
      exact ⟨e, List.mem_flatMap.2 ⟨n, List.mem_range.2 hn, he⟩, by rw [heq]⟩

end Holds

theorem Refines.iterate {size : ℕ} {r : HashMapRef D} (h : t.Refines hashfunc size r)
    (hsize : 0 < size) (hint : size < 2 ^ 31) :
    ∃ data, Returns (fun fuel => t.iterate fuel) data ∧
      (HashOp.iterate : HashOp A D).Spec r (.visited data) r := by
  obtain ⟨bucket, rfl, hholds, hfreed, hcount⟩ := h
  have hahead : ahead bucket t.size 0 (bucket 0) = (List.range t.size).flatMap bucket := by
    obtain ⟨n, hn⟩ := Nat.exists_eq_add_of_le' hsize
    rw [ahead, hn, List.range_eq_range', List.range'_succ, List.flatMap_cons]
    rfl
  have hvisit := hholds.visit hint hsize (hholds.chain 0 hsize) hahead
  refine ⟨_, ?_, rfl, _, hholds.lists, rfl⟩
  rw [List.map_map]
  refine (Returns.pure fun _ => ?_).bind hvisit
  exact if_pos hsize

/-! ## The end of the table -/

theorem destroyNodes_spec : ∀ {l : List (A × HashNode D)} {t : HashTable A D} {p : Option A},
    Chain t.memory p l none → ∃ t', Returns (fun fuel => destroyNodes fuel t p) t' ∧
      t'.nodes = t.nodes ∧ (t'.freed : Multiset D) = t.freed + values l ∧
        ∀ c ∉ l.map Prod.fst, t'.memory c = t.memory c
  | [], t, p, h => by
    rw [show p = none from h]
    refine ⟨t, ⟨1, fun n hn => ?_⟩, rfl, by simp, fun _ _ => rfl⟩
    obtain ⟨n, rfl⟩ := Nat.exists_eq_add_of_le' hn
    rfl
  | (a, v) :: l, t, p, h => by
    obtain rfl : p = some a := h.head
    obtain ⟨q, hq, hl⟩ := Chain.unlink_head h
    obtain ⟨t', hret, hnodes, hfreed, hmem⟩ :=
      @destroyNodes_spec l ⟨t.size, t.nodes, t.memory.free a, t.freed ++ v.data.toList⟩ q hl
    refine ⟨t', hret.of_succ fun n => ?_, hnodes, ?_, fun c hc => ?_⟩
    · simp only [destroyNodes, hq, Option.bind_eq_bind, Option.bind_some, freeData]
    · rw [hfreed, values_cons, ← Multiset.coe_add, add_assoc]
    · rw [List.map_cons, List.mem_cons, not_or] at hc
      exact (hmem c hc.2).trans (Function.update_of_ne hc.1 _ _)

theorem destroyBuckets_spec : ∀ {ns : List ℕ} {t : HashTable A D}, ns.Nodup →
    (∀ n ∈ ns, Chain t.memory (t.nodes n) (bucket n) none) →
    (∀ n ∈ ns, ∀ i ∈ ns, i ≠ n → ∀ e ∈ bucket n, e.1 ∉ (bucket i).map Prod.fst) →
      ∃ t', Returns (fun fuel => destroyBuckets fuel ns t) t' ∧
        (t'.freed : Multiset D) = t.freed + (ns.map fun n => values (bucket n)).sum
  | [], t, _, _, _ => ⟨t, Returns.pure fun _ => rfl, by simp⟩
  | n :: ns, t, hnodup, hchain, hother => by
    rw [List.nodup_cons] at hnodup
    obtain ⟨t₁, hret₁, hnodes, hfreed₁, hmem⟩ := destroyNodes_spec (hchain n List.mem_cons_self)
    have hchain₁ : ∀ i ∈ ns, Chain t₁.memory (t₁.nodes i) (bucket i) none := by
      intro i hi
      rw [hnodes]
      refine (hchain i (List.mem_cons_of_mem n hi)).congr fun c hc => hmem c fun hcn => ?_
      obtain ⟨e, he, rfl⟩ := List.mem_map.1 hcn
      exact hother n List.mem_cons_self i (List.mem_cons_of_mem n hi)
        (ne_of_mem_of_not_mem hi hnodup.1) e he hc
    obtain ⟨t', hret, hfreed⟩ := destroyBuckets_spec hnodup.2 hchain₁ fun i hi j hj =>
      hother i (List.mem_cons_of_mem n hi) j (List.mem_cons_of_mem n hj)
    refine ⟨t', hret₁.bind hret, ?_⟩
    rw [hfreed, hfreed₁, List.map_cons, List.sum_cons, add_assoc]

theorem Refines.destroy {size : ℕ} {r : HashMapRef D} (h : t.Refines hashfunc size r) :
    ∃ t', Returns (fun fuel => t.destroy fuel) t' ∧ t'.freed.Perm r.stored := by
  obtain ⟨bucket, rfl, hholds, hfreed, hcount⟩ := h
  obtain ⟨t', hret, hsum⟩ := @destroyBuckets_spec A D _ bucket (List.range t.size) t
    List.nodup_range (fun n hn => hholds.chain n (List.mem_range.1 hn)) fun n hn i hi hne e he =>
      hholds.notMem (List.mem_range.1 hn) (List.mem_range.1 hi) hne he
  refine ⟨t', hret, Multiset.coe_eq_coe.1 ?_⟩
  rw [hsum, hfreed, ← hcount]
  rfl

end HashTable

/-! ## Runs -/

section

open HashTable

variable {A D : Type} [DecidableEq A] {hashfunc : UInt64 → UInt64} {size : ℕ}

theorem HashOp.run_spec {t : HashTable A D} {r : HashMapRef D} (h : t.Refines hashfunc size r)
    (hsize : 0 < size) (hint : size < 2 ^ 31) (op : HashOp A D) :
    ∃ out t' r', Returns (fun fuel => op.run hashfunc fuel t) (out, t') ∧ op.Spec r out r' ∧
      t'.Refines hashfunc size r' := by
  cases op with
  | insert malloc key data =>
    obtain ⟨rc, t', r', hret, hspec, h'⟩ := h.insert hsize malloc key data
    exact ⟨.rc rc, t', r', hret.map fun x : _ × HashTable A D => (HashOut.rc x.1, x.2), hspec, h'⟩
  | remove key =>
    obtain ⟨rc, t', r', hret, hspec, h'⟩ := h.remove hsize key
    exact ⟨.rc rc, t', r', hret.map fun x : _ × HashTable A D => (HashOut.rc x.1, x.2), hspec, h'⟩
  | get key =>
    obtain ⟨rc, data, hret, hspec⟩ := h.get hsize key
    exact ⟨.data rc data, t, r, hret.map fun x : _ × _ => (HashOut.data x.1 x.2, t), hspec, h⟩
  | isKeyExists key =>
    obtain ⟨rc, hret, hspec⟩ := h.isKeyExists hsize key
    exact ⟨.rc rc, t, r, hret.map fun x => (HashOut.rc x, t), hspec, h⟩
  | iterate =>
    obtain ⟨data, hret, hspec⟩ := h.iterate hsize hint
    exact ⟨.visited data, t, r, hret.map fun x => (HashOut.visited x, t), hspec, h⟩

theorem HashOp.runAll_spec (hsize : 0 < size) (hint : size < 2 ^ 31) :
    ∀ (ops : List (HashOp A D)) {t : HashTable A D} {r : HashMapRef D},
      t.Refines hashfunc size r → ∃ outs t' r',
        Returns (fun fuel => HashOp.runAll hashfunc fuel ops t) (outs, t') ∧
          HashOp.SpecAll ops outs r r' ∧ t'.Refines hashfunc size r'
  | [], t, r, h => ⟨[], t, r, Returns.pure fun _ => rfl, ⟨rfl, rfl⟩, h⟩
  | op :: ops, t, r, h => by
    obtain ⟨out, t₁, r₁, hret₁, hspec₁, h₁⟩ := op.run_spec h hsize hint
    obtain ⟨outs, t', r', hret, hspec, h'⟩ := HashOp.runAll_spec hsize hint ops h₁
    exact ⟨out :: outs, t', r', hret₁.bind (hret.map fun x => (out :: x.1, x.2)),
      ⟨out, outs, r₁, rfl, hspec₁, hspec⟩, h'⟩

/-- The empty table is the empty map. -/
theorem refines_create (A D : Type) [DecidableEq A] (hashfunc : UInt64 → UInt64) (size : ℕ) :
    (HashTable.create A D size).Refines hashfunc size (HashMapRef.empty D) :=
  ⟨fun _ => [], rfl, ⟨fun _ _ => rfl, by simp, by simp, by simp [HashMapRef.empty]⟩, rfl,
    by simp [HashMapRef.empty]⟩

/-- The index overflows before the iterator is at the end of an empty table. -/
theorem nextIndex_create (A D : Type) {size : ℕ} (hsize : 2 ^ 31 ≤ size) :
    ∀ (fuel i : ℕ), (HashTable.create A D size).nextIndex fuel ⟨i, none⟩ = none
  | 0, _ => rfl
  | fuel + 1, i => by
    rw [nextIndex]
    by_cases hint : i + 1 < 2 ^ 31
    · have hlt : ¬i + 1 ≥ (HashTable.create A D size).size :=
        Nat.not_le.2 (Nat.lt_of_lt_of_le hint hsize)
      rw [if_pos hint, if_neg hlt]
      exact nextIndex_create A D hsize fuel (i + 1)
    · rw [if_neg hint]

/-- Without buckets, the hash is taken modulo 0. -/
theorem not_refines_zero (A D : Type) [DecidableEq A] (hashfunc : UInt64 → UInt64) :
    ¬HashtableRefines A D hashfunc 0 := by
  intro h
  obtain ⟨outs, t, r, hret, -⟩ := h [.get 0]
  refine Returns.not_of_none (fun fuel => ?_) hret
  simp [HashOp.runAll, HashOp.run, HashTable.get, HashTable.hash, HashTable.create]

/-- With too many buckets, an iteration over the empty table fails. -/
theorem not_refines_of_le (A D : Type) [DecidableEq A] (hashfunc : UInt64 → UInt64)
    (hsize : 2 ^ 31 ≤ size) : ¬HashtableRefines A D hashfunc size := by
  intro h
  obtain ⟨outs, t, r, hret, -⟩ := h [.iterate]
  refine Returns.not_of_none (fun fuel => ?_) hret
  have hpos : 0 < (HashTable.create A D size).size := Nat.lt_of_lt_of_le (by norm_num) hsize
  have hvisit : ∀ n, (HashTable.create A D size).visit n ⟨0, none⟩ = none := by
    intro n
    cases n with
    | zero => rfl
    | succ n =>
      rw [visit, iteratorGetnext, nextIndex_create A D hsize]
      rfl
  have hiterate : (HashTable.create A D size).iterate fuel = none := by
    rw [iterate, getIterator, if_pos hpos]
    exact hvisit fuel
  rw [HashOp.runAll, HashOp.run, hiterate]
  rfl

/-- The table is a finite map over every run, exactly when it has a bucket and an `int` counts its
buckets. -/
theorem hashtableRefines_iff (A D : Type) [DecidableEq A] (hashfunc : UInt64 → UInt64) (size : ℕ) :
    HashtableRefines A D hashfunc size ↔ 0 < size ∧ size < 2 ^ 31 := by
  refine ⟨fun h => ?_, fun ⟨hsize, hint⟩ ops => ?_⟩
  · refine ⟨Nat.pos_of_ne_zero ?_, Nat.lt_of_not_le fun hle =>
      not_refines_of_le A D hashfunc hle h⟩
    rintro rfl
    exact not_refines_zero A D hashfunc h
  · obtain ⟨outs, t, r, hret, hspec, href⟩ :=
      HashOp.runAll_spec hsize hint ops (refines_create A D hashfunc size)
    obtain ⟨t', hdestroy, hperm⟩ := href.destroy
    obtain ⟨bucket, hsz, hholds, hfreed, -⟩ := href
    exact ⟨outs, t, r, hret, hspec, ⟨bucket, hsz, hholds⟩, hfreed, t', hdestroy, hperm⟩

/-- An iteration over the empty table with one bucket more than an `int` counts. -/
theorem not_hashtableRefines : ¬HashtableRefines ℕ ℕ id (2 ^ 31) :=
  not_refines_of_le ℕ ℕ id le_rfl

end

end NrStack
