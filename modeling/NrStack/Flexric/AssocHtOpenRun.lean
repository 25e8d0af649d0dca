import NrStack.Flexric.AssocHtOpen

/-!
# Runs of the hash table

`htab_iff` : in every run of the table a lookup returns the value last inserted under an equal
key, every live key has one entry, the counters are right, and every search ends. The next
operation goes through exactly if the table has room for a resize : with 2^31 entries the
capacity cannot be doubled in its 32 bits, and with 2^30 live ones `sz * 4` is 0, so that the
table is shrunk.
-/

namespace NrStack

variable {κ ν : Type} {keyEq : κ → κ → Bool} {hashFunc : κ → Nat} {arr : List (HEntry κ ν)}
  {entry : HEntry κ ν} {key : κ} {v : ν} {i cap : Nat} {htab htab' : AssocHtOpen κ ν}

/-! ## Resize -/

/-- The invariant of a table between two operations. -/
structure HtabInv (keyEq : κ → κ → Bool) (hashFunc : κ → Nat) (htab : AssocHtOpen κ ν) :
    Prop where
  cap : ∃ e, 4 ≤ e ∧ e ≤ 31 ∧ htab.cap = 2 ^ e
  length : htab.arr.length = htab.cap
  table : TableInv keyEq hashFunc htab.arr
  sz : htab.sz = (liveEntries htab.arr).card
  numDirty : htab.numDirty = htab.arr.countP HEntry.isDirty
  load : htab.numDirty * 2 ≤ htab.cap + 2

/-- The next operation can resize the table. -/
def AssocHtOpen.CanResize (htab : AssocHtOpen κ ν) : Prop :=
  ¬ (htab.cap = 2 ^ 31 ∧ (2 ^ 30 < htab.numDirty ∨ 2 ^ 30 ≤ htab.sz))

theorem card_liveEntries_le (h : TableInv keyEq hashFunc arr) :
    (liveEntries arr).card ≤ arr.countP HEntry.isDirty := by
  rw [liveEntries, Multiset.coe_card, List.length_filterMap_eq_countP]
  refine List.countP_mono_left fun entry hmem hkv => ?_
  obtain ⟨i, hi⟩ := List.getElem?_of_mem hmem
  exact h.dirty hi hkv

namespace HtabInv

variable (hkey : IsKeyEq keyEq hashFunc) (h : HtabInv keyEq hashFunc htab)

include h

theorem sz_le : htab.sz ≤ htab.numDirty := by
  rw [h.sz, h.numDirty]
  exact card_liveEntries_le h.table

theorem cap_ge : 16 ≤ htab.cap := by
  obtain ⟨e, he, -, hcap⟩ := h.cap
  rw [hcap]
  calc 16 = 2 ^ 4 := by norm_num
    _ ≤ 2 ^ e := Nat.pow_le_pow_right (by decide) he

theorem cap_le : htab.cap ≤ 2 ^ 31 := by
  obtain ⟨e, -, he, hcap⟩ := h.cap
  rw [hcap]
  exact Nat.pow_le_pow_right (by decide) he

/-- Some entry is clean. -/
theorem clean : htab.arr.countP HEntry.isDirty < htab.arr.length := by
  have := h.load
  have := h.cap_ge
  rw [h.length, ← h.numDirty]
  omega

include hkey

theorem rehashTable (hsz : htab.sz * 2 ≤ cap) (hcap : ∃ e, 4 ≤ e ∧ e ≤ 31 ∧ cap = 2 ^ e) :
    ∃ htab', htab.rehashTable keyEq cap = some htab' ∧ HtabInv keyEq hashFunc htab' ∧
      htab'.cap = cap ∧ htab'.numDirty = htab.sz ∧ htab'.sz = htab.sz ∧
      liveEntries htab'.arr = liveEntries htab.arr := by
  have hlt : cap < 2 ^ 32 := by
    obtain ⟨e, -, he, rfl⟩ := hcap
    exact Nat.pow_lt_pow_right (by decide) (by omega)
  have hzero := liveEntries_replicate (κ := κ) (ν := ν) cap
  have hnum : (List.replicate cap (HEntry.zero : HEntry κ ν)).countP HEntry.isDirty = 0 := by
    rw [List.countP_replicate]
    rfl
  have hsz' := h.sz
  obtain ⟨arr', hfold, hinv, hlen, hlive, hnum'⟩ := rehash_spec hkey hlt htab.arr
    (fun entry hmem hkv => by
      obtain ⟨i, hi⟩ := List.getElem?_of_mem hmem
      exact h.table.dirty hi hkv)
    (fun entry hmem key v hkv => by
      obtain ⟨i, hi⟩ := List.getElem?_of_mem hmem
      exact h.table.hash hi hkv)
    (h.table.pairwise hkey) (tableInv_replicate cap) (List.length_replicate ..)
    (by simp [hzero]) (by simp [hzero, hnum]) (by rw [hzero, Multiset.card_zero]; omega)
  rw [hzero, zero_add] at hlive
  rw [hzero, Multiset.card_zero] at hfold
  have hcard : (liveEntries arr').card = htab.sz := by rw [hlive, h.sz]
  refine ⟨{ htab with arr := arr', cap := cap, numDirty := htab.sz }, ?_,
    ⟨hcap, hlen, hinv, hcard.symm, by rw [← hnum', hcard], by simp only; omega⟩, rfl, rfl, rfl,
    hlive⟩
  rw [AssocHtOpen.rehashTable, hfold, hcard]
  rfl

theorem resize (hroom : htab.CanResize) :
    ∃ htab', htab.expandOrShrink keyEq = some htab' ∧ HtabInv keyEq hashFunc htab' ∧
      htab'.numDirty * 2 ≤ htab'.cap ∧ htab'.sz = htab.sz ∧
      (htab'.numDirty = htab.numDirty ∨ htab'.numDirty = htab.sz) ∧
      liveEntries htab'.arr = liveEntries htab.arr := by
  obtain ⟨e, he₄, he₃₁, hcap⟩ := h.cap
  have hload := h.load
  have hle := h.sz_le
  have hge := h.cap_ge
  have hcap31 := h.cap_le
  unfold AssocHtOpen.CanResize at hroom
  have hdirty : htab.numDirty * 2 % 2 ^ 32 = htab.numDirty * 2 := Nat.mod_eq_of_lt (by omega)
  have hdone : ∀ {t : AssocHtOpen κ ν}, HtabInv keyEq hashFunc t → t.numDirty * 2 ≤ t.cap →
      (if t.sz * 2 % 2 ^ 32 ≤ t.cap ∧ t.numDirty * 2 % 2 ^ 32 ≤ t.cap then some t else none) =
        some t := by
    intro t ht hlt
    have := ht.sz_le
    exact if_pos ⟨(Nat.mod_le _ _).trans (by omega), (Nat.mod_le _ _).trans hlt⟩
  rw [AssocHtOpen.expandOrShrink, AssocHtOpen.resize, hdirty]
  split
  case isTrue hexp =>
    have he : e ≠ 31 := by
      rintro rfl
      omega
    have hmod : htab.cap * 2 % 2 ^ 32 = 2 ^ (e + 1) := by
      rw [hcap, ← Nat.pow_succ]
      exact Nat.mod_eq_of_lt (Nat.pow_lt_pow_right (by decide) (by omega))
    have htwice : htab.cap * 2 = 2 ^ (e + 1) := by rw [hcap, Nat.pow_succ]
    obtain ⟨t, ht, hinv, hc, hnum, hsz, hlive⟩ :=
      h.rehashTable hkey (by omega : htab.sz * 2 ≤ 2 ^ (e + 1)) ⟨e + 1, by omega, by omega, rfl⟩
    have hlt : t.numDirty * 2 ≤ t.cap := by omega
    refine ⟨t, ?_, hinv, hlt, hsz, Or.inr hnum, hlive⟩
    rw [hmod, ht]
    exact hdone hinv hlt
  case isFalse hexp =>
    split
    case isTrue hshr =>
      obtain ⟨hshr, hmin⟩ := hshr
      have he : e ≠ 4 := by
        rintro rfl
        rw [hcap] at hmin
        exact absurd hmin (by decide)
      have htwice : htab.cap = 2 ^ (e - 1) * 2 := by
        rw [hcap, ← Nat.pow_succ, Nat.succ_eq_add_one, Nat.sub_add_cancel (by omega)]
      have hhalf : htab.cap / 2 = 2 ^ (e - 1) := by omega
      -- `sz * 4` has not wrapped to a small value
      have hfour : htab.sz * 4 < htab.cap := by
        by_cases h31 : e = 31
        · subst h31
          omega
        · have : htab.cap ≤ 2 ^ 30 := by
            rw [hcap]
            exact Nat.pow_le_pow_right (by decide) (by omega)
          omega
      obtain ⟨t, ht, hinv, hc, hnum, hsz, hlive⟩ :=
        h.rehashTable hkey (by omega : htab.sz * 2 ≤ 2 ^ (e - 1)) ⟨e - 1, by omega, by omega, rfl⟩
      have hlt : t.numDirty * 2 ≤ t.cap := by omega
      refine ⟨t, ?_, hinv, hlt, hsz, Or.inr hnum, hlive⟩
      rw [hhalf, ht]
      exact hdone hinv hlt
    case isFalse hshr =>
      have hlt : htab.numDirty * 2 ≤ htab.cap := by omega
      exact ⟨htab, hdone h hlt, h, hlt, rfl, Or.inl rfl, rfl⟩

end HtabInv

/-! ## The dictionary -/

/-- `f` gives the value of every key that is equal to one of `m`. -/
def Holds (keyEq : κ → κ → Bool) (m : Multiset (κ × ν)) (f : κ → Option ν) : Prop :=
  ∀ key v, f key = some v ↔ ∃ kv ∈ m, keyEq key kv.1 = true ∧ kv.2 = v

/-- `m` is `r` and at most one entry for the key, which `r` has none for. -/
def WithoutKey (keyEq : κ → κ → Bool) (m : Multiset (κ × ν)) (key : κ) (r : Multiset (κ × ν)) :
    Prop :=
  (∀ kv ∈ r, keyEq key kv.1 = false) ∧ (m = r ∨ ∃ kv, keyEq key kv.1 = true ∧ m = kv ::ₘ r)

section

variable {m r : Multiset (κ × ν)} {f : κ → Option ν} (hkey : IsKeyEq keyEq hashFunc)

include hkey

theorem Holds.without (h : Holds keyEq m f) (hr : WithoutKey keyEq m key r) :
    Holds keyEq r fun k => if keyEq k key = true then none else f k := by
  obtain ⟨hne, hm⟩ := hr
  intro k v
  by_cases hk : keyEq k key = true
  · simp only [if_pos hk]
    refine iff_of_false (fun h => nomatch h) ?_
    rintro ⟨kv, hmem, heq, -⟩
    have := hne kv hmem
    rw [hkey.trans (hkey.symm hk) heq] at this
    cases this
  · simp only [if_neg hk]
    rw [h k v]
    rcases hm with rfl | ⟨kv₀, heq₀, rfl⟩
    · rfl
    · constructor
      · rintro ⟨kv, hmem, heq, hv⟩
        rcases Multiset.mem_cons.mp hmem with rfl | hmem
        · exact absurd (hkey.trans heq (hkey.symm heq₀)) hk
        · exact ⟨kv, hmem, heq, hv⟩
      · rintro ⟨kv, hmem, heq, hv⟩
        exact ⟨kv, Multiset.mem_cons_of_mem hmem, heq, hv⟩

theorem Holds.cons (h : Holds keyEq m f) (hr : WithoutKey keyEq m key r) {key₀ : κ}
    (heq₀ : keyEq key key₀ = true) (v : ν) :
    Holds keyEq ((key₀, v) ::ₘ r) fun k => if keyEq k key = true then some v else f k := by
  have hwithout := h.without hkey hr
  intro k w
  have hr' := hwithout k w
  by_cases hk : keyEq k key = true
  · simp only [if_pos hk] at hr' ⊢
    constructor
    · rintro ⟨⟩
      exact ⟨(key₀, v), Multiset.mem_cons_self _ _, hkey.trans hk heq₀, rfl⟩
    · rintro ⟨kv, hmem, heq, rfl⟩
      rcases Multiset.mem_cons.mp hmem with rfl | hmem
      · rfl
      · exact absurd (hr'.mpr ⟨kv, hmem, heq, rfl⟩) (by simp)
  · simp only [if_neg hk] at hr' ⊢
    rw [hr']
    constructor
    · rintro ⟨kv, hmem, heq, hv⟩
      exact ⟨kv, Multiset.mem_cons_of_mem hmem, heq, hv⟩
    · rintro ⟨kv, hmem, heq, hv⟩
      rcases Multiset.mem_cons.mp hmem with rfl | hmem
      · exact absurd (hkey.trans heq (hkey.symm heq₀)) hk
      · exact ⟨kv, hmem, heq, hv⟩

end

/-! ## Operations -/

/-- What `find_entry` meets : the entry of the key, or no entry at all. -/
theorem TableInv.lookup (h : TableInv keyEq hashFunc arr) (key : κ) :
    (∀ kv ∈ liveEntries arr, keyEq key kv.1 = false) ∨
      ∃ i entry key₀ v₀, arr[i]? = some entry ∧ entry.kv = some (key₀, v₀) ∧
        keyEq key key₀ = true ∧ entry.isDirty = true ∧ holdsAt keyEq arr key i = true := by
  by_cases hex : ∃ i, holdsAt keyEq arr key i = true
  · obtain ⟨i, hi⟩ := hex
    obtain ⟨entry, key₀, v₀, hget, hkv, heq⟩ := holdsAt_iff.1 hi
    exact Or.inr ⟨i, entry, key₀, v₀, hget, hkv, heq, h.dirty hget (by rw [hkv]; rfl), hi⟩
  · rw [exists_holdsAt] at hex
    push Not at hex
    exact Or.inl fun kv hmem => Bool.eq_false_iff.mpr (hex kv hmem)

/-- The entry of the key is removed. -/
theorem TableInv.clear (hkey : IsKeyEq keyEq hashFunc) (h : TableInv keyEq hashFunc arr)
    (hget : arr[i]? = some entry) {key₀ : κ} {v₀ : ν} (hkv : entry.kv = some (key₀, v₀))
    (hi : holdsAt keyEq arr key i = true) :
    TableInv keyEq hashFunc (arr.set i { entry with kv := none }) ∧
      liveEntries arr = (key₀, v₀) ::ₘ liveEntries (arr.set i { entry with kv := none }) ∧
      ∀ kv ∈ liveEntries (arr.set i { entry with kv := none }), keyEq key kv.1 = false := by
  have hset := liveEntries_set hget { entry with kv := none }
  rw [hkv, Option.toList_some, Multiset.coe_singleton, Multiset.singleton_add, Option.toList_none,
    Multiset.coe_nil, zero_add] at hset
  have hdirty : entry.isDirty = true := h.dirty hget (by rw [hkv]; rfl)
  refine ⟨h.set hkey hdirty fun _ _ h => (nomatch h), hset.symm, ?_⟩
  intro kv hmem
  rw [Bool.eq_false_iff]
  intro heq
  obtain ⟨j, e, hj, hkv'⟩ := mem_liveEntries.1 hmem
  rw [List.getElem?_set] at hj
  split at hj
  · split at hj
    · obtain rfl := Option.some.inj hj
      cases hkv'
    · cases hj
  · rename_i hne
    exact hne (h.unique hi (holdsAt_iff.mpr ⟨e, kv.1, kv.2, hj, hkv', heq⟩))

namespace HtabInv

variable (hkey : IsKeyEq keyEq hashFunc) (h : HtabInv keyEq hashFunc htab)

include h

/-- `find_entry` ends, with the entry of the key if there is one. -/
theorem findEntry (key : κ) :
    ((∀ kv ∈ liveEntries htab.arr, keyEq key kv.1 = false) ∧
      htab.findEntry keyEq hashFunc key = some none) ∨
    ∃ i entry key₀ v₀, htab.arr[i]? = some entry ∧ entry.kv = some (key₀, v₀) ∧
      keyEq key key₀ = true ∧ entry.isDirty = true ∧ holdsAt keyEq htab.arr key i = true ∧
      htab.findEntry keyEq hashFunc key = some (some i) := by
  rw [AssocHtOpen.findEntry, ← h.length]
  rcases h.table.lookup key with hnone | ⟨i, entry, key₀, v₀, hget, hkv, heq, hdirty, hi⟩
  · refine Or.inl ⟨hnone, ?_⟩
    have hhold : ∀ i, holdsAt keyEq htab.arr key i = false := by
      intro i
      rw [Bool.eq_false_iff]
      intro hi
      obtain ⟨kv, hmem, heq⟩ := exists_holdsAt.1 ⟨i, hi⟩
      rw [hnone kv hmem] at heq
      cases heq
    obtain ⟨i, entry, hfind, hget, hclean, -⟩ :=
      findIdx_of_clean hashFunc hhold h.clean
    have hfree : entry.kv = none := by
      by_contra hne
      rw [h.table.dirty hget (Option.isSome_iff_ne_none.mpr hne)] at hclean
      cases hclean
    simp [hfind, hget, hclean, hfree]
  · refine Or.inr ⟨i, entry, key₀, v₀, hget, hkv, heq, hdirty, hi, ?_⟩
    simp [findIdx_of_holdsAt h.table hi, hget, hdirty]

theorem value {f : κ → Option ν} (hf : Holds keyEq (liveEntries htab.arr) f) (key : κ) :
    htab.value keyEq hashFunc key = some (f key) := by
  rw [AssocHtOpen.value]
  rcases h.findEntry key with ⟨hnone, hfind⟩ | ⟨i, entry, key₀, v₀, hget, hkv, heq, -, -, hfind⟩
  · have hf' : f key = none := by
      rw [Option.eq_none_iff_forall_ne_some]
      intro v hv
      obtain ⟨kv, hmem, heq, -⟩ := (hf key v).mp hv
      rw [hnone kv hmem] at heq
      cases heq
    simp [hfind, hf']
  · have hf' : f key = some v₀ :=
      (hf key v₀).mpr ⟨(key₀, v₀), mem_liveEntries.2 ⟨i, entry, hget, hkv⟩, heq, rfl⟩
    simp [hfind, hget, hkv, hf']

include hkey

theorem removeValue (hroom : htab.CanResize) (key : κ) :
    ∃ htab', htab.removeValue keyEq hashFunc key = some htab' ∧ HtabInv keyEq hashFunc htab' ∧
      WithoutKey keyEq (liveEntries htab.arr) key (liveEntries htab'.arr) := by
  obtain ⟨t, hres, hinv, hload, -, -, hlive⟩ := h.resize hkey hroom
  rw [AssocHtOpen.removeValue, hres, ← hlive]
  rcases hinv.findEntry key with ⟨hnone, hfind⟩ | ⟨i, entry, key₀, v₀, hget, hkv, heq, hdirty, hi,
    hfind⟩
  · exact ⟨t, by simp [hfind], hinv, hnone, Or.inl rfl⟩
  · obtain ⟨htab, hcons, hother⟩ := hinv.table.clear hkey hget hkv hi
    have hcard : (liveEntries t.arr).card =
        (liveEntries (t.arr.set i { entry with kv := none })).card + 1 := by
      rw [hcons, Multiset.card_cons]
    have hsz := hinv.sz
    have hle := hinv.sz_le
    have hcap := hinv.cap_le
    have hmod : (t.sz + 4294967295) % 4294967296 = t.sz - 1 := by omega
    obtain ⟨hlt, rfl⟩ := List.getElem?_eq_some_iff.mp hget
    refine ⟨{ t with arr := t.arr.set i { t.arr[i] with kv := none }, sz := t.sz - 1 }, ?_,
      ⟨hinv.cap, by rw [List.length_set]; exact hinv.length, htab, ?_, ?_, hinv.load⟩, hother,
      Or.inr ⟨_, heq, hcons⟩⟩
    · simp [hfind, hdirty, hkv, hlt, hmod]
    · simp only
      omega
    · simp only
      rw [List.countP_set hlt, hinv.numDirty]
      simp only [hdirty, if_true]
      have : 0 < t.arr.countP HEntry.isDirty :=
        List.countP_pos_iff.mpr ⟨_, List.getElem_mem hlt, hdirty⟩
      omega

theorem insert (hroom : htab.CanResize) (key : κ) (value : ν) :
    ∃ htab' key₀ r, htab.insert keyEq hashFunc key value = some htab' ∧
      HtabInv keyEq hashFunc htab' ∧ keyEq key key₀ = true ∧
      WithoutKey keyEq (liveEntries htab.arr) key r ∧
      liveEntries htab'.arr = (key₀, value) ::ₘ r ∧
      (htab.numDirty = htab.sz → htab'.numDirty = htab'.sz) := by
  obtain ⟨t, hres, hinv, hload, hsz, hnum, hlive⟩ := h.resize hkey hroom
  have hlen := hinv.length
  have hcap := hinv.cap_le
  have hge := hinv.cap_ge
  have hle := hinv.sz_le
  have hsame : htab.numDirty = htab.sz → t.numDirty = t.sz := by
    intro heq
    rcases hnum with hnum | hnum <;> rw [hnum, hsz]
    exact heq
  rw [AssocHtOpen.insert, hres, ← hlive]
  rcases hinv.table.lookup key with hnone | ⟨i, entry, key₀, v₀, hget, hkv, heq, hdirty, hi⟩
  · have hkv : (⟨some (key, value), hashFunc key, true⟩ : HEntry κ ν).kv = some (key, value) := rfl
    obtain ⟨i, entry, hfind, hget, hclean, hfree, htab, hset, hcount⟩ :=
      hinv.table.place hkey hkv rfl rfl hnone hinv.clean
    rw [hlen] at hfind
    have hsz' : (t.sz + 1) % 2 ^ 32 = t.sz + 1 := Nat.mod_eq_of_lt (by omega)
    have hnum' : (t.numDirty + 1) % 2 ^ 32 = t.numDirty + 1 := Nat.mod_eq_of_lt (by omega)
    refine ⟨{ t with arr := t.arr.set i ⟨some (key, value), hashFunc key, true⟩
                     sz := t.sz + 1, numDirty := t.numDirty + 1 }, key, liveEntries t.arr, ?_,
      ⟨hinv.cap, by rw [List.length_set]; exact hlen, htab, ?_, ?_, by simp only; omega⟩,
      hkey.refl key, ⟨hnone, Or.inl rfl⟩, hset, fun heq => by simp only [hsame heq]⟩
    · simp only [Option.bind_eq_bind, Option.bind_some, hfind, hget, hfree, hclean, if_true, hsz',
        hnum']
    · simp only
      rw [hset, Multiset.card_cons, hinv.sz]
    · simp only
      rw [hcount, hinv.numDirty]
  · obtain ⟨-, hcons, hother⟩ := hinv.table.clear hkey hget hkv hi
    have hfind := findIdx_of_holdsAt hinv.table hi
    rw [hlen] at hfind
    have hi₀ : holdsAt keyEq t.arr key₀ i = true :=
      holdsAt_iff.2 ⟨entry, key₀, v₀, hget, hkv, hkey.refl key₀⟩
    have htab : TableInv keyEq hashFunc (t.arr.set i ⟨some (key₀, value), hashFunc key, true⟩) := by
      refine hinv.table.set hkey rfl fun key₁ v₁ hkv₁ => ?_
      obtain ⟨rfl, rfl⟩ := Prod.mk.inj (Option.some.inj hkv₁)
      exact ⟨hkey.hash heq, hinv.table.reaches hi₀, fun j hj => hinv.table.unique hj hi₀⟩
    have hset := liveEntries_set hget ⟨some (key₀, value), hashFunc key, true⟩
    rw [hkv, Option.toList_some, Option.toList_some, Multiset.coe_singleton,
      Multiset.coe_singleton, Multiset.singleton_add, Multiset.singleton_add, hcons,
      Multiset.cons_swap, Multiset.cons_inj_right] at hset
    refine ⟨{ t with arr := t.arr.set i ⟨some (key₀, value), hashFunc key, true⟩ }, key₀, _, ?_,
      ⟨hinv.cap, by rw [List.length_set]; exact hlen, htab, ?_, ?_, hinv.load⟩, heq,
      ⟨hother, Or.inr ⟨(key₀, v₀), heq, hcons⟩⟩, hset, hsame⟩
    · simp only [Option.bind_eq_bind, Option.bind_some, hfind, hget, hkv, hdirty, heq, and_self,
        if_true, Bool.true_eq_false, if_false]
    · simp only
      rw [hset, Multiset.card_cons, hinv.sz, hcons, Multiset.card_cons]
    · obtain ⟨hlt, rfl⟩ := List.getElem?_eq_some_iff.mp hget
      simp only
      rw [List.countP_set hlt, hinv.numDirty]
      simp only [hdirty, if_true]
      have : 0 < t.arr.countP HEntry.isDirty :=
        List.countP_pos_iff.mpr ⟨_, List.getElem_mem hlt, hdirty⟩
      omega

end HtabInv

/-! ## No room -/

theorem rehashTable_fields (h : htab.rehashTable keyEq cap = some htab') :
    htab'.cap = cap ∧ htab'.sz = htab.sz := by
  obtain ⟨st, -, h⟩ := Option.bind_eq_some_iff.mp h
  obtain rfl := Option.some.inj h
  exact ⟨rfl, rfl⟩

/-- Without room the capacity becomes 0, or the assertion on `sz` fails. -/
theorem HtabInv.cap_eq_zero (h : HtabInv keyEq hashFunc htab) (hroom : ¬ htab.CanResize)
    (hres : htab.expandOrShrink keyEq = some htab') : htab'.cap = 0 := by
  unfold AssocHtOpen.CanResize at hroom
  push Not at hroom
  obtain ⟨hcap, hfull⟩ := hroom
  have hload := h.load
  have hle := h.sz_le
  obtain ⟨t, ht, hres⟩ := Option.bind_eq_some_iff.mp hres
  rw [AssocHtOpen.resize] at ht
  split at ht
  case isTrue =>
    have hzero : htab.cap * 2 % 2 ^ 32 = 0 := by omega
    rw [hzero] at ht
    split at hres
    · obtain rfl := Option.some.inj hres
      exact (rehashTable_fields ht).1
    · cases hres
  case isFalse hexp =>
    have hnum : htab.numDirty = 2 ^ 30 := by omega
    have hsz : htab.sz = 2 ^ 30 := by omega
    have hmin : htab.cap > minSizeHt := by
      rw [hcap]
      decide
    rw [if_pos ⟨by omega, hmin⟩] at ht
    obtain ⟨hcap', hsz'⟩ := rehashTable_fields ht
    split at hres
    case isTrue hassert => omega
    case isFalse => cases hres

theorem findIdx_zero {hash : Nat} : findIdx keyEq arr 0 key hash = none :=
  if_pos rfl

theorem HtabInv.insert_eq_none (h : HtabInv keyEq hashFunc htab) (hroom : ¬ htab.CanResize)
    (key : κ) (value : ν) : htab.insert keyEq hashFunc key value = none := by
  rw [AssocHtOpen.insert]
  cases hres : htab.expandOrShrink keyEq with
  | none => rfl
  | some t =>
    simp only [Option.bind_eq_bind, Option.bind_some, h.cap_eq_zero hroom hres, findIdx_zero,
      Option.bind_none]

theorem HtabInv.removeValue_eq_none (h : HtabInv keyEq hashFunc htab) (hroom : ¬ htab.CanResize)
    (key : κ) : htab.removeValue keyEq hashFunc key = none := by
  rw [AssocHtOpen.removeValue]
  cases hres : htab.expandOrShrink keyEq with
  | none => rfl
  | some t =>
    simp only [Option.bind_eq_bind, Option.bind_some, AssocHtOpen.findEntry,
      h.cap_eq_zero hroom hres, findIdx_zero, Option.bind_none]

/-! ## Runs -/

/-- A run of the table, with the value last inserted for every key that is not removed. -/
inductive HtabRun (keyEq : κ → κ → Bool) (hashFunc : κ → Nat) :
    AssocHtOpen κ ν → (κ → Option ν) → Prop
  | init : HtabRun keyEq hashFunc .init fun _ => none
  | insert {htab htab' : AssocHtOpen κ ν} {f : κ → Option ν} {key : κ} {value : ν} :
      HtabRun keyEq hashFunc htab f → htab.insert keyEq hashFunc key value = some htab' →
      HtabRun keyEq hashFunc htab' fun k => if keyEq k key = true then some value else f k
  | remove {htab htab' : AssocHtOpen κ ν} {f : κ → Option ν} {key : κ} :
      HtabRun keyEq hashFunc htab f → htab.removeValue keyEq hashFunc key = some htab' →
      HtabRun keyEq hashFunc htab' fun k => if keyEq k key = true then none else f k

theorem htabInv_init : HtabInv keyEq hashFunc (.init : AssocHtOpen κ ν) where
  cap := ⟨4, le_rfl, by decide, rfl⟩
  length := List.length_replicate ..
  table := tableInv_replicate _
  sz := by simp [AssocHtOpen.init, liveEntries_replicate]
  numDirty := by simp [AssocHtOpen.init, List.countP_replicate, HEntry.zero]
  load := by simp [AssocHtOpen.init]

theorem HtabRun.inv {f : κ → Option ν} (hkey : IsKeyEq keyEq hashFunc)
    (h : HtabRun keyEq hashFunc htab f) :
    HtabInv keyEq hashFunc htab ∧ Holds keyEq (liveEntries htab.arr) f := by
  induction h with
  | init =>
    refine ⟨htabInv_init, fun key v => ?_⟩
    simp [AssocHtOpen.init, liveEntries_replicate]
  | @insert htab htab' f key value _ hop ih =>
    obtain ⟨hinv, hf⟩ := ih
    by_cases hroom : htab.CanResize
    · obtain ⟨t, key₀, r, hins, hinv', heq, hr, hlive, -⟩ := hinv.insert hkey hroom key value
      obtain rfl := Option.some.inj (hins.symm.trans hop)
      rw [hlive]
      exact ⟨hinv', hf.cons hkey hr heq value⟩
    · rw [hinv.insert_eq_none hroom] at hop
      cases hop
  | @remove htab htab' f key _ hop ih =>
    obtain ⟨hinv, hf⟩ := ih
    by_cases hroom : htab.CanResize
    · obtain ⟨t, hrem, hinv', hr⟩ := hinv.removeValue hkey hroom key
      obtain rfl := Option.some.inj (hrem.symm.trans hop)
      exact ⟨hinv', hf.without hkey hr⟩
    · rw [hinv.removeValue_eq_none hroom] at hop
      cases hop

/-- In every run the lookups are right, a key with a value is in exactly one entry, and the
counters are those of the live and of the dirty entries. The next insert or remove ends without
a failed assertion exactly if there is room for a resize. -/
theorem htab_iff {f : κ → Option ν} (hkey : IsKeyEq keyEq hashFunc)
    (h : HtabRun keyEq hashFunc htab f) :
    (∀ key, htab.value keyEq hashFunc key = some (f key)) ∧
    (∀ key, (f key).isSome → ∃! i, holdsAt keyEq htab.arr key i = true) ∧
    htab.sz = htab.arr.countP (fun entry => entry.kv.isSome) ∧
    htab.numDirty = htab.arr.countP HEntry.isDirty ∧
    (∀ key value, (htab.insert keyEq hashFunc key value).isSome ↔ htab.CanResize) ∧
    ∀ key, (htab.removeValue keyEq hashFunc key).isSome ↔ htab.CanResize := by
  obtain ⟨hinv, hf⟩ := h.inv hkey
  refine ⟨hinv.value hf, fun key hsome => ?_, ?_, hinv.numDirty, fun key value => ?_, fun key => ?_⟩
  · obtain ⟨v, hv⟩ := Option.isSome_iff_exists.mp hsome
    obtain ⟨kv, hmem, heq, -⟩ := (hf key v).mp hv
    obtain ⟨i, hi⟩ := exists_holdsAt.2 ⟨kv, hmem, heq⟩
    exact ⟨i, hi, fun j hj => hinv.table.unique hj hi⟩
  · rw [hinv.sz, liveEntries, Multiset.coe_card, List.length_filterMap_eq_countP]
  · by_cases hroom : htab.CanResize
    · obtain ⟨t, -, -, hins, -⟩ := hinv.insert hkey hroom key value
      exact iff_of_true (by rw [hins]; rfl) hroom
    · exact iff_of_false (by rw [hinv.insert_eq_none hroom]; exact Bool.false_ne_true) hroom
  · by_cases hroom : htab.CanResize
    · obtain ⟨t, hrem, -⟩ := hinv.removeValue hkey hroom key
      exact iff_of_true (by rw [hrem]; rfl) hroom
    · exact iff_of_false (by rw [hinv.removeValue_eq_none hroom]; exact Bool.false_ne_true) hroom

theorem isKeyEq_nat : IsKeyEq (fun k k' : Nat => k == k') (fun k => k) where
  refl := by simp
  symm := by simp
  trans := by simp
  hash := by simp

theorem htab_iff_oneInsert : ∃ htab,
    AssocHtOpen.insert (fun k k' : Nat => k == k') (fun k => k) .init 21 true = some htab ∧
    htab.value (fun k k' => k == k') (fun k => k) 21 = some (some true) := by
  have hroom : (AssocHtOpen.init : AssocHtOpen Nat Bool).CanResize := by
    simp [AssocHtOpen.CanResize, AssocHtOpen.init, minSizeHt]
  obtain ⟨htab, -, -, hins, -⟩ := htabInv_init.insert isKeyEq_nat hroom 21 true
  refine ⟨htab, hins, ?_⟩
  simpa using (htab_iff isKeyEq_nat (.insert .init hins)).1 21

/-- A run that inserts the keys below `n`. -/
theorem exists_htabRun {n : Nat} (hn : n ≤ 2 ^ 30) : ∃ htab : AssocHtOpen Nat Unit,
    HtabRun (fun k k' => k == k') (fun k => k) htab (fun k => if k < n then some () else none) ∧
      htab.numDirty = htab.sz ∧ htab.sz = n := by
  induction n with
  | zero => exact ⟨.init, by simpa using .init, rfl, rfl⟩
  | succ n ih =>
    obtain ⟨htab, hrun, hnum, hsz⟩ := ih (Nat.le_of_succ_le hn)
    obtain ⟨hinv, hf⟩ := hrun.inv isKeyEq_nat
    have hroom : htab.CanResize := by
      rintro ⟨-, hfull⟩
      omega
    obtain ⟨t, key₀, r, hins, hinv', -, ⟨-, hr⟩, hlive, hsame⟩ :=
      hinv.insert isKeyEq_nat hroom n ()
    have hnew : liveEntries htab.arr = r := by
      refine hr.resolve_right ?_
      rintro ⟨kv, heq, hcons⟩
      have hsome := (hf n ()).mpr ⟨kv, hcons ▸ Multiset.mem_cons_self _ _, heq, rfl⟩
      simp at hsome
    refine ⟨t, ?_, hsame hnum, ?_⟩
    · have hstep := hrun.insert hins
      have hext : (fun k => if (k == n) = true then some () else if k < n then some () else none) =
          fun k => if k < n + 1 then some () else none := by
        funext k
        by_cases hk : k = n
        · simp [hk]
        · have hiff : k < n ↔ k < n + 1 := by omega
          simp [hk, hiff]
      rwa [hext] at hstep
    · rw [hinv'.sz, hlive, Multiset.card_cons, ← hnew, ← hinv.sz, hsz]

/-- After 2^30 inserts of different keys the next one fails its assertion. -/
theorem not_insert_isSome : ¬ ∀ (htab : AssocHtOpen Nat Unit) (f : Nat → Option Unit),
    HtabRun (fun k k' => k == k') (fun k => k) htab f → ∀ key value,
      (htab.insert (fun k k' => k == k') (fun k => k) key value).isSome := by
  intro hall
  obtain ⟨htab, hrun, hnum, hsz⟩ := exists_htabRun le_rfl
  obtain ⟨hinv, -⟩ := hrun.inv isKeyEq_nat
  have hcap : htab.cap = 2 ^ 31 := by
    obtain ⟨e, -, he, hcap⟩ := hinv.cap
    have hload := hinv.load
    by_contra hne
    have hlt : e ≤ 30 := by
      rcases Nat.lt_or_ge e 31 with h | h
      · omega
      · exact absurd (hcap.trans (by rw [le_antisymm he h])) hne
    have := Nat.pow_le_pow_right (by decide : 0 < 2) hlt
    omega
  have hfull : ¬ htab.CanResize := fun hroom => hroom ⟨hcap, Or.inr hsz.ge⟩
  have := hall htab _ hrun 0 ()
  rw [hinv.insert_eq_none hfull] at this
  cases this

end NrStack
