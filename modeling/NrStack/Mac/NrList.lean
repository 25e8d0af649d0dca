import NrStack.Library.Fuel
import NrStack.Mac.Harq

/-!
# The lists of ids of the gNB

`NR_list_t` : the list is threaded through an array, `next[id]` is the id behind `id`, and -1 stands
for none. `NrList.Refines l ids` : from the head the links run through `ids` and end, the tail is the
last one, and every other entry is -1. The pointers of the source, to `head` or to an entry of
`next`, are an `NrSlot`.

Every operation but `create_nr_list` writes the slot behind a stretch of the list, so the proofs rest
on what is there (`read_lastSlot`) and on what the write does (`write_lastSlot`). A run of operations
is one of operations on the list of ids (`nrList_runs`). It also justifies the lists of the HARQ
processes (`NrList.Refines.addTail_harq`, `NrList.Refines.remove_harq`).
-/

namespace NrStack

/-! ## The list in its array -/

/-- `NR_list_t` ; `next` is the array as long as it was allocated. -/
structure NrList where
  head : ℤ
  next : List ℤ
  tail : ℤ
  len : ℕ
  deriving DecidableEq, Repr

/-- What the local pointers of the operations point to. -/
inductive NrSlot where
  | head
  | next (id : ℤ)
  deriving DecidableEq, Repr

namespace NrList

/-- `none` is a read outside of the array. -/
def read (l : NrList) : NrSlot → Option ℤ
  | .head => some l.head
  | .next id => if 0 ≤ id then l.next[id.toNat]? else none

/-- `none` is a write outside of the array. -/
def write (l : NrList) (slot : NrSlot) (v : ℤ) : Option NrList :=
  match slot with
  | .head => some { l with head := v }
  | .next id =>
    if 0 ≤ id ∧ id.toNat < l.next.length then some { l with next := l.next.set id.toNat v }
    else none

/-! ## The operations

`none` is a failed assertion, an access outside of the array or, for a loop, too little fuel. `alloc`
says whether there is memory for so many entries. -/

section

variable (alloc : ℕ → Bool)

/-- `create_nr_list` -/
def create (len : ℕ) : Option NrList :=
  if alloc len then some { head := -1, next := List.replicate len (-1), tail := -1, len := len }
  else none

/-- `resize_nr_list` -/
def resize (l : NrList) (newLen : ℕ) : Option NrList :=
  if newLen = l.len then some l
  else if newLen > l.len then
    if alloc newLen then
      some { l with next := l.next ++ List.replicate (newLen - l.len) (-1), len := newLen }
    else none
  else if ¬l.head < newLen then none
  else if ¬l.tail < newLen then none
  else if ¬∀ n ∈ l.next.take l.len, n < newLen then none
  else if alloc newLen then some { l with next := l.next.take newLen, len := newLen }
  else none

end

/-- The loop of `add_nr_list`. -/
def addLoop (l : NrList) (id : ℤ) : ℕ → NrSlot → Option NrSlot
  | 0, _ => none
  | n + 1, cur => do
    let c ← l.read cur
    if c ≥ 0 then
      if c ≠ id then addLoop l id n (.next c) else none
    else some cur

/-- `add_nr_list` -/
def add (l : NrList) (id : ℤ) (fuel : ℕ) : Option NrList := do
  let cur ← l.addLoop id fuel .head
  let l ← l.write cur id
  let n ← l.read (.next id)
  some (if n < 0 then { l with tail := id } else l)

/-- The loop of `remove_nr_list`, with the slots `cur` and `prev`. -/
def removeLoop (l : NrList) (id : ℤ) : ℕ → NrSlot → NrSlot → Option (NrSlot × NrSlot)
  | 0, _, _ => none
  | n + 1, cur, prev => do
    let c ← l.read cur
    if c ≠ -1 ∧ c ≠ id then removeLoop l id n (.next c) cur else some (cur, prev)

/-- `remove_nr_list` -/
def remove (l : NrList) (id : ℤ) (fuel : ℕ) : Option NrList := do
  let (cur, prev) ← l.removeLoop id fuel .head .head
  let c ← l.read cur
  if c = -1 then none
  else
    let n ← l.read (.next c)
    let l ← l.write cur n
    let l ← l.write (.next c) (-1)
    let p ← l.read prev
    if p ≥ 0 then
      let n ← l.read (.next p)
      some { l with tail := if n ≥ 0 then l.tail else p }
    else some { l with tail := p }

/-- `add_tail_nr_list` -/
def addTail (l : NrList) (id : ℤ) : Option NrList := do
  let last := if l.tail < 0 then NrSlot.head else .next l.tail
  let l ← l.write last id
  let l ← l.write (.next id) (-1)
  some { l with tail := id }

/-- `add_front_nr_list` -/
def addFront (l : NrList) (id : ℤ) : Option NrList := do
  let ohead := l.head
  let l ← l.write .head id
  let l ← l.write (.next id) ohead
  some (if l.tail < 0 then { l with tail := id } else l)

/-- `remove_front_nr_list` -/
def removeFront (l : NrList) : Option NrList :=
  if ¬l.head ≥ 0 then none
  else do
    let ohead := l.head
    let n ← l.read (.next ohead)
    let l ← l.write .head n
    let l ← l.write (.next ohead) (-1)
    some (if l.head < 0 then { l with tail := -1 } else l)

end NrList

/-! ## Links -/

/-- From `p` on, the links run through `ids` and then to `q`. -/
def Links (next : List ℤ) : ℤ → List ℕ → ℤ → Prop
  | p, [], q => p = q
  | p, id :: ids, q => p = id ∧ ∃ r, next[id]? = some r ∧ Links next r ids q

namespace Links

variable {next next' : List ℤ} {p q : ℤ} {id : ℕ} {ids ids₁ ids₂ : List ℕ}

theorem append_iff : ∀ {ids₁ : List ℕ} {p : ℤ},
    Links next p (ids₁ ++ ids₂) q ↔ ∃ r, Links next p ids₁ r ∧ Links next r ids₂ q
  | [], _ => by simp [Links]
  | id :: ids₁, p => by
    simp only [List.cons_append, Links, append_iff]
    constructor
    · rintro ⟨hp, r, hr, s, h₁, h₂⟩
      exact ⟨s, ⟨hp, r, hr, h₁⟩, h₂⟩
    · rintro ⟨s, ⟨hp, r, hr, h₁⟩, h₂⟩
      exact ⟨hp, r, hr, s, h₁, h₂⟩

/-- Only the entries of the ids matter. -/
theorem congr : ∀ {ids : List ℕ} {p : ℤ}, (∀ id ∈ ids, next'[id]? = next[id]?) →
    Links next p ids q → Links next' p ids q
  | [], _, _, h => h
  | id :: ids, p, heq, ⟨hp, r, hr, h⟩ =>
    ⟨hp, r, (heq id List.mem_cons_self).trans hr,
      congr (fun i hi => heq i (List.mem_cons_of_mem id hi)) h⟩

theorem set (h : Links next p ids q) (hid : id ∉ ids) (v : ℤ) :
    Links (next.set id v) p ids q :=
  h.congr fun _ hi => List.getElem?_set_ne (ne_of_mem_of_not_mem hi hid).symm

theorem lt_length (h : Links next p ids q) (hid : id ∈ ids) : id < next.length := by
  obtain ⟨ids₁, ids₂, rfl⟩ := List.append_of_mem hid
  obtain ⟨_, -, -, r, hr, -⟩ := append_iff.1 h
  exact (List.getElem?_eq_some_iff.1 hr).1

/-- The first id of the list, or -1 behind it. -/
theorem nonneg_iff (h : Links next p ids (-1)) : 0 ≤ p ↔ ids ≠ [] := by
  cases ids with
  | nil => simp [show p = -1 from h]
  | cons id ids => simp [h.1]

end Links

namespace NrList

/-- The tail of a list. -/
def lastId (ids : List ℕ) : ℤ :=
  (ids.getLast?).elim (-1) fun id => (id : ℤ)

/-- The slot behind a stretch of the list. -/
def lastSlot (ids : List ℕ) : NrSlot :=
  (ids.getLast?).elim .head fun id => .next id

/-- The list of ids that is threaded through the array. -/
structure Refines (l : NrList) (ids : List ℕ) : Prop where
  links : Links l.next l.head ids (-1)
  nodup : ids.Nodup
  tail : l.tail = lastId ids
  others : ∀ id < l.len, id ∉ ids → l.next[id]? = some (-1)
  length : l.next.length = l.len

@[simp] theorem lastId_nil : lastId [] = -1 :=
  rfl

@[simp] theorem lastId_concat (ids : List ℕ) (id : ℕ) : lastId (ids ++ [id]) = id := by
  simp [lastId]

@[simp] theorem lastSlot_nil : lastSlot [] = .head :=
  rfl

@[simp] theorem lastSlot_concat (ids : List ℕ) (id : ℕ) : lastSlot (ids ++ [id]) = .next id := by
  simp [lastSlot]

theorem lastId_append_of_ne (ids₁ : List ℕ) {ids₂ : List ℕ} (h : ids₂ ≠ []) :
    lastId (ids₁ ++ ids₂) = lastId ids₂ := by
  obtain ⟨ids, id, rfl⟩ := (List.eq_nil_or_concat' ids₂).resolve_left h
  rw [← List.append_assoc, lastId_concat, lastId_concat]

@[simp] theorem read_next (l : NrList) (id : ℕ) : l.read (.next id) = l.next[id]? := by
  simp [read]

theorem write_next (l : NrList) {id : ℕ} (v : ℤ) (h : id < l.next.length) :
    l.write (.next id) v = some { l with next := l.next.set id v } := by
  simp [write, h]

/-- What is in the slot behind a stretch of the list. -/
theorem read_lastSlot {l : NrList} {ids₁ ids₂ : List ℕ} {q : ℤ}
    (h : Links l.next l.head (ids₁ ++ ids₂) q) :
    ∃ p, l.read (lastSlot ids₁) = some p ∧ Links l.next p ids₂ q := by
  rcases List.eq_nil_or_concat' ids₁ with rfl | ⟨ids, id, rfl⟩
  · exact ⟨l.head, rfl, h⟩
  · rw [List.append_assoc] at h
    obtain ⟨_, -, -, p, hp, hlinks⟩ := Links.append_iff.1 h
    exact ⟨p, by rw [lastSlot_concat, read_next, hp], hlinks⟩

/-- The stretch is linked to something else. -/
theorem write_lastSlot {l : NrList} {ids : List ℕ} {q : ℤ} (h : Links l.next l.head ids q)
    (hnodup : ids.Nodup) (v : ℤ) :
    ∃ l', l.write (lastSlot ids) v = some l' ∧ Links l'.next l'.head ids v ∧
      l'.tail = l.tail ∧ l'.len = l.len ∧ l'.next.length = l.next.length ∧
      ∀ id, id ∉ ids → l'.next[id]? = l.next[id]? := by
  rcases List.eq_nil_or_concat' ids with rfl | ⟨ids, last, rfl⟩
  · exact ⟨{ l with head := v }, rfl, rfl, rfl, rfl, rfl, fun _ _ => rfl⟩
  · obtain ⟨r, hids, hr, -⟩ := Links.append_iff.1 h
    have hlast : last < l.next.length := h.lt_length (by simp)
    have hnot : last ∉ ids := by
      rw [List.nodup_append'] at hnodup
      exact fun hmem => hnodup.2.2 hmem (List.mem_singleton_self last)
    refine ⟨{ l with next := l.next.set last v }, ?_, ?_, rfl, rfl, List.length_set,
      fun id hid => ?_⟩
    · rw [lastSlot_concat, write_next l v hlast]
    · exact Links.append_iff.2 ⟨r, hids.set hnot v, hr, v, List.getElem?_set_self hlast, rfl⟩
    · exact List.getElem?_set_ne fun heq => hid (by simp [heq])

/-! ## What one operation does -/

section

variable {alloc : ℕ → Bool} {l : NrList} {ids : List ℕ} {id : ℕ}

theorem refines_create {len : ℕ} (halloc : alloc len) :
    ∃ l, create alloc len = some l ∧ l.Refines [] ∧ l.len = len := by
  refine ⟨_, if_pos halloc, ⟨rfl, List.nodup_nil, rfl, fun id hid _ => ?_, ?_⟩, rfl⟩
  · exact List.getElem?_replicate_of_lt hid
  · exact List.length_replicate

namespace Refines

theorem lt_len (h : l.Refines ids) (hid : id ∈ ids) : id < l.len :=
  h.length ▸ h.links.lt_length hid

/-- A link leads to a member, or nowhere. -/
theorem mem_or_neg {next : List ℤ} {p : ℤ} (h : Links next p ids (-1)) :
    p = -1 ∨ ∃ id ∈ ids, p = (id : ℤ) := by
  cases ids with
  | nil => exact Or.inl h
  | cons id ids => exact Or.inr ⟨id, List.mem_cons_self, h.1⟩

theorem next_mem (h : l.Refines ids) {n : ℤ} (hn : n ∈ l.next) :
    n = -1 ∨ ∃ id ∈ ids, n = (id : ℤ) := by
  obtain ⟨i, hi, rfl⟩ := List.getElem_of_mem hn
  by_cases hmem : i ∈ ids
  · obtain ⟨ids₁, ids₂, rfl⟩ := List.append_of_mem hmem
    obtain ⟨_, -, -, r, hr, hlinks⟩ := Links.append_iff.1 h.links
    rw [List.getElem?_eq_getElem hi, Option.some.injEq] at hr
    rw [hr]
    exact (mem_or_neg hlinks).imp_right fun ⟨id, hid, heq⟩ => ⟨id, by simp [hid], heq⟩
  · have hother := h.others i (h.length ▸ hi) hmem
    rw [List.getElem?_eq_getElem hi, Option.some.injEq] at hother
    exact Or.inl hother

theorem tail_mem (h : l.Refines ids) : l.tail = -1 ∨ ∃ id ∈ ids, l.tail = (id : ℤ) := by
  rw [h.tail]
  rcases List.eq_nil_or_concat' ids with rfl | ⟨ids, id, rfl⟩
  · exact Or.inl rfl
  · exact Or.inr ⟨id, by simp, lastId_concat ids id⟩

theorem resize (h : l.Refines ids) {newLen : ℕ} (halloc : newLen ≠ l.len → alloc newLen)
    (hlt : ∀ id ∈ ids, id < newLen) :
    ∃ l', l.resize alloc newLen = some l' ∧ l'.Refines ids ∧ l'.len = newLen := by
  unfold NrList.resize
  by_cases heq : newLen = l.len
  · exact ⟨l, if_pos heq, h, heq.symm⟩
  rw [if_neg heq]
  by_cases hgt : newLen > l.len
  · refine ⟨{ l with next := l.next ++ List.replicate (newLen - l.len) (-1), len := newLen }, ?_,
      ⟨?_, h.nodup, h.tail, ?_, ?_⟩, rfl⟩
    · rw [if_pos hgt, if_pos (halloc heq)]
    · exact h.links.congr fun id hid => List.getElem?_append_left (h.links.lt_length hid)
    · intro id hid hmem
      dsimp only at hid ⊢
      by_cases hold : id < l.len
      · rw [List.getElem?_append_left (h.length.symm ▸ hold), h.others id hold hmem]
      · have hlength := h.length
        rw [List.getElem?_append_right (by omega), List.getElem?_replicate_of_lt (by omega)]
    · simp [h.length]
      omega
  · have hbelow : ∀ {n : ℤ}, (n = -1 ∨ ∃ id ∈ ids, n = (id : ℤ)) → n < newLen := by
      rintro n (rfl | ⟨id, hid, rfl⟩)
      · omega
      · exact Int.ofNat_lt.2 (hlt id hid)
    have hnext : ∀ n ∈ l.next.take l.len, n < newLen :=
      fun n hn => hbelow (h.next_mem (List.mem_of_mem_take hn))
    refine ⟨{ l with next := l.next.take newLen, len := newLen }, ?_, ⟨?_, h.nodup, h.tail, ?_, ?_⟩,
      rfl⟩
    · rw [if_neg hgt, if_neg (not_not.2 (hbelow (mem_or_neg h.links))),
        if_neg (not_not.2 (hbelow h.tail_mem)), if_neg (not_not.2 hnext), if_pos (halloc heq)]
    · exact h.links.congr fun id hid => List.getElem?_take_of_lt (hlt id hid)
    · intro id hid hmem
      dsimp only at hid ⊢
      rw [List.getElem?_take_of_lt hid, h.others id (by omega) hmem]
    · simp [h.length]
      omega

/-- The id is linked behind the last one. -/
theorem append {l' : NrList} (h : l.Refines ids) (hid : id ∉ ids) (hlt : id < l.len)
    (hlinks : Links l'.next l'.head ids id)
    (hsame : ∀ i, i ∉ ids → l'.next[i]? = l.next[i]?) (htail : l'.tail = id)
    (hlen : l'.len = l.len) (hlength : l'.next.length = l.next.length) :
    l'.Refines (ids ++ [id]) where
  links := Links.append_iff.2 ⟨id, hlinks, rfl, -1, by rw [hsame id hid, h.others id hlt hid], rfl⟩
  nodup := List.nodup_append'.2 ⟨h.nodup, List.nodup_singleton id, by simpa using hid⟩
  tail := by rw [htail, lastId_concat]
  others i hi hmem := by
    rw [List.mem_append, not_or] at hmem
    rw [hsame i hmem.1, h.others i (hlen ▸ hi) hmem.1]
  length := by rw [hlength, hlen, h.length]

/-- The loop of `add_nr_list` goes on to the end of the list. -/
theorem addLoop_eq (hlinks : Links l.next l.head ids (-1)) (hid : id ∉ ids) :
    ∀ {ids₂ ids₁ : List ℕ} {n : ℕ}, ids = ids₁ ++ ids₂ → ids₂.length < n →
      l.addLoop id n (lastSlot ids₁) = some (lastSlot ids)
  | [], ids₁, n + 1, heq, _ => by
    obtain ⟨c, hc, hrest⟩ := read_lastSlot (heq ▸ hlinks)
    rw [addLoop, hc, Option.bind_eq_bind, Option.bind_some, show c = -1 from hrest, heq,
      List.append_nil]
    rfl
  | x :: ids₂, ids₁, n + 1, heq, hn => by
    obtain ⟨c, hc, rfl, -⟩ := read_lastSlot (heq ▸ hlinks)
    have hne : (x : ℤ) ≠ id := by
      rintro hx
      exact hid (by simp [heq, Int.ofNat.inj hx])
    have hih : l.addLoop id n (lastSlot (ids₁ ++ [x])) = some (lastSlot ids) :=
      addLoop_eq hlinks hid (by simp [heq]) (Nat.lt_of_succ_lt_succ hn)
    rw [lastSlot_concat] at hih
    rw [addLoop, hc, Option.bind_eq_bind, Option.bind_some, if_pos (Int.natCast_nonneg x),
      if_pos hne, hih]

theorem add (h : l.Refines ids) (hid : id ∉ ids) (hlt : id < l.len) :
    ∃ l', Returns (fun fuel => l.add id fuel) l' ∧ l'.Refines (ids ++ [id]) ∧ l'.len = l.len := by
  obtain ⟨l₁, hwrite, hlinks, htail, hlen, hlength, hsame⟩ := write_lastSlot h.links h.nodup id
  refine ⟨{ l₁ with tail := id }, ⟨ids.length + 1, fun n hn => ?_⟩, ?_, hlen⟩
  · have hloop : l.addLoop id n (lastSlot []) = some (lastSlot ids) :=
      addLoop_eq h.links hid rfl hn
    have hnext : l₁.read (.next id) = some (-1) := by
      rw [read_next, hsame id hid, h.others id hlt hid]
    rw [lastSlot_nil] at hloop
    simp only [NrList.add, hloop, hwrite, hnext, Option.bind_eq_bind, Option.bind_some]
    rfl
  · exact h.append hid hlt hlinks hsame rfl hlen hlength

/-- A member is not added again. -/
theorem add_of_mem (h : l.Refines ids) (hid : id ∈ ids) (fuel : ℕ) : l.add id fuel = none := by
  have hloop : ∀ (n : ℕ) (ids₁ ids₂ : List ℕ), ids = ids₁ ++ ids₂ → id ∈ ids₂ →
      l.addLoop id n (lastSlot ids₁) = none := by
    intro n
    induction n with
    | zero => exact fun _ _ _ _ => rfl
    | succ n ih =>
      intro ids₁ ids₂ heq hmem
      cases ids₂ with
      | nil => simp at hmem
      | cons x ids₂ =>
        obtain ⟨c, hc, rfl, -⟩ := read_lastSlot (heq ▸ h.links)
        rw [addLoop, hc, Option.bind_eq_bind, Option.bind_some, if_pos (Int.natCast_nonneg x)]
        by_cases hx : (x : ℤ) = id
        · rw [if_neg (not_not.2 hx)]
        · have hmem' : id ∈ ids₂ :=
            (List.mem_cons.1 hmem).resolve_left fun heq => hx (by rw [heq])
          have hih := ih (ids₁ ++ [x]) ids₂ (by simp [heq]) hmem'
          rw [lastSlot_concat] at hih
          rw [if_pos hx, hih]
  have hnone := hloop fuel [] ids rfl hid
  rw [lastSlot_nil] at hnone
  simp only [NrList.add, hnone, Option.bind_eq_bind, Option.bind_none]

theorem addTail (h : l.Refines ids) (hid : id ∉ ids) (hlt : id < l.len) :
    ∃ l', l.addTail id = some l' ∧ l'.Refines (ids ++ [id]) ∧ l'.len = l.len := by
  have hslot : (if l.tail < 0 then NrSlot.head else .next l.tail) = lastSlot ids := by
    rw [h.tail]
    rcases List.eq_nil_or_concat' ids with rfl | ⟨ids, last, rfl⟩
    · rfl
    · rw [lastId_concat, lastSlot_concat, if_neg (by omega)]
  obtain ⟨l₁, hwrite, hlinks, htail, hlen, hlength, hsame⟩ := write_lastSlot h.links h.nodup id
  have hlt₁ : id < l₁.next.length := by rw [hlength, h.length]; exact hlt
  refine ⟨{ l₁ with next := l₁.next.set id (-1), tail := id }, ?_, ?_, hlen⟩
  · simp only [NrList.addTail, hslot, hwrite, write_next l₁ (-1) hlt₁, Option.bind_eq_bind,
      Option.bind_some]
  · refine h.append hid hlt (hlinks.set hid _) (fun i hi => ?_) rfl hlen (by simp [hlength])
    dsimp only
    by_cases heq : id = i
    · subst heq
      rw [List.getElem?_set_self hlt₁, h.others id hlt hid]
    · rw [List.getElem?_set_ne heq, hsame i hi]

theorem addFront (h : l.Refines ids) (hid : id ∉ ids) (hlt : id < l.len) :
    ∃ l', l.addFront id = some l' ∧ l'.Refines (id :: ids) ∧ l'.len = l.len := by
  have hlt' : id < l.next.length := h.length.symm ▸ hlt
  have hlinks : Links (l.next.set id l.head) id (id :: ids) (-1) :=
    ⟨rfl, l.head, List.getElem?_set_self hlt', h.links.set hid _⟩
  have htail : (if l.tail < 0 then (id : ℤ) else l.tail) = lastId (id :: ids) := by
    rw [h.tail]
    rcases List.eq_nil_or_concat' ids with rfl | ⟨ids, last, rfl⟩
    · rfl
    · rw [lastId_concat, ← List.cons_append, lastId_concat, if_neg (by omega)]
  refine ⟨{ l with
    head := id, next := l.next.set id l.head, tail := if l.tail < 0 then (id : ℤ) else l.tail },
    ?_, ⟨hlinks, List.nodup_cons.2 ⟨hid, h.nodup⟩, htail, fun i hi hmem => ?_, ?_⟩, rfl⟩
  · simp only [NrList.addFront, write, Int.natCast_nonneg, Int.toNat_natCast, hlt', and_self,
      if_true, Option.bind_eq_bind, Option.bind_some]
    split <;> rfl
  · rw [List.mem_cons, not_or] at hmem
    exact (List.getElem?_set_ne (Ne.symm hmem.1)).trans (h.others i hi hmem.2)
  · simp [h.length]

theorem removeFront (h : l.Refines (id :: ids)) :
    ∃ l', l.removeFront = some l' ∧ l'.Refines ids ∧ l'.len = l.len := by
  obtain ⟨hhead, r, hr, hlinks⟩ := h.links
  have hlt : id < l.next.length := h.links.lt_length List.mem_cons_self
  have hnot := (List.nodup_cons.1 h.nodup).1
  have htail : (if r < 0 then -1 else l.tail) = lastId ids := by
    rcases ids with _ | ⟨x, ids⟩
    · rw [show r = -1 from hlinks]
      rfl
    · rw [if_neg (by rw [hlinks.1]; omega), h.tail]
      exact lastId_append_of_ne [id] (List.cons_ne_nil x ids)
  refine ⟨{ l with
    head := r, next := l.next.set id (-1), tail := if r < 0 then -1 else l.tail },
    ?_, ⟨?_, (List.nodup_cons.1 h.nodup).2, htail, fun i hi hmem => ?_, ?_⟩, rfl⟩
  · simp only [NrList.removeFront, write, hhead, read_next, hr, Int.natCast_nonneg, ge_iff_le,
      not_true_eq_false, if_false, Int.toNat_natCast, hlt, and_self, if_true, Option.bind_eq_bind,
      Option.bind_some]
    split <;> rfl
  · exact hlinks.set hnot _
  · by_cases heq : id = i
    · subst heq
      exact List.getElem?_set_self hlt
    · refine (List.getElem?_set_ne heq).trans (h.others i hi ?_)
      simp [Ne.symm heq, hmem]
  · simp [h.length]

/-- The loop of `remove_nr_list` stops at the id, and the slot before is that of the id before. -/
theorem removeLoop_eq (hlinks : Links l.next l.head ids (-1)) :
    ∀ {ids₂ ids₁ ids₃ : List ℕ} {n : ℕ} {prev : NrSlot}, ids = ids₁ ++ (ids₂ ++ id :: ids₃) →
      id ∉ ids₂ → ids₂.length < n → l.removeLoop id n (lastSlot ids₁) prev =
        some (lastSlot (ids₁ ++ ids₂),
          if ids₂ = [] then prev else lastSlot (ids₁ ++ ids₂.dropLast))
  | [], ids₁, ids₃, n + 1, prev, heq, _, _ => by
    obtain ⟨c, hc, rfl, -⟩ := read_lastSlot (heq ▸ hlinks)
    rw [removeLoop, hc, Option.bind_eq_bind, Option.bind_some, if_neg fun h => h.2 rfl,
      List.append_nil, if_pos rfl]
  | x :: ids₂, ids₁, ids₃, n + 1, prev, heq, hid, hn => by
    obtain ⟨c, hc, rfl, -⟩ := read_lastSlot (heq ▸ hlinks)
    have hne : (x : ℤ) ≠ -1 ∧ (x : ℤ) ≠ id := by
      refine ⟨by omega, fun hx => hid ?_⟩
      rw [Int.ofNat.inj hx]
      exact List.mem_cons_self
    have heq' : ids = ids₁ ++ [x] ++ (ids₂ ++ id :: ids₃) := by simp [heq]
    have hih := @removeLoop_eq hlinks ids₂ (ids₁ ++ [x]) ids₃ n (lastSlot ids₁) heq'
      (fun hmem => hid (List.mem_cons_of_mem x hmem)) (Nat.lt_of_succ_lt_succ hn)
    rw [lastSlot_concat] at hih
    rw [removeLoop, hc, Option.bind_eq_bind, Option.bind_some, if_pos hne, hih]
    cases ids₂ with
    | nil => simp
    | cons y ids₂ => simp

/-- The tail is the id before the one that is removed, unless more follows. -/
theorem setTail {zs : List ℕ} {p : ℤ} (hlinks : Links l.next p zs (-1))
    (htail : zs.tail ≠ [] → l.tail = lastId zs) :
    (if p ≥ 0 then do
      let n ← l.read (.next p)
      some { l with tail := if n ≥ 0 then l.tail else p }
    else some { l with tail := p }) = some { l with tail := lastId zs } := by
  rcases zs with _ | ⟨x, zs⟩
  · rw [show p = -1 from hlinks]
    rfl
  · obtain ⟨rfl, r, hr, hrest⟩ := hlinks
    rw [if_pos (Int.natCast_nonneg x), read_next, hr, Option.bind_eq_bind, Option.bind_some]
    by_cases hzs : zs = []
    · subst hzs
      rw [show r = -1 from hrest]
      rfl
    · rw [if_pos (hrest.nonneg_iff.2 hzs), htail hzs]

theorem remove (h : l.Refines ids) (hid : id ∈ ids) :
    ∃ l', Returns (fun fuel => l.remove id fuel) l' ∧ l'.Refines (ids.erase id) ∧
      l'.len = l.len := by
  obtain ⟨ids₁, ids₂, rfl⟩ := List.append_of_mem hid
  have hnodup := h.nodup
  rw [List.nodup_middle, List.nodup_cons, List.mem_append, not_or] at hnodup
  obtain ⟨⟨hid₁, hid₂⟩, hnodup⟩ := hnodup
  obtain ⟨hnodup₁, -, hdisjoint⟩ := List.nodup_append'.1 hnodup
  have herase : (ids₁ ++ id :: ids₂).erase id = ids₁ ++ ids₂ := by
    rw [List.erase_append_right _ hid₁, List.erase_cons_head]
  obtain ⟨c, hlinks₁, rfl, r, hr, hlinks₂⟩ := Links.append_iff.1 h.links
  have hlt : id < l.next.length := h.links.lt_length hid
  -- the id before is linked to the one behind, and the id to none
  obtain ⟨l₁, hwrite, hlinks₁', htail, hlen, hlength, hsame⟩ := write_lastSlot hlinks₁ hnodup₁ r
  have hlt₁ : id < l₁.next.length := hlength.symm ▸ hlt
  have hlinks : Links (l₁.next.set id (-1)) l₁.head (ids₁ ++ ids₂) (-1) := by
    refine Links.append_iff.2 ⟨r, hlinks₁'.set hid₁ _, Links.set (hlinks₂.congr fun i hi => ?_) hid₂ _⟩
    exact hsame i fun hmem => hdisjoint hmem hi
  -- the list from the slot before the one that was written
  obtain ⟨zs, hzs, hlast, htail'⟩ : ∃ zs, ids₁ ++ ids₂ = ids₁.dropLast ++ zs ∧
      lastId zs = lastId (ids₁ ++ ids₂) ∧ (zs.tail ≠ [] → ids₂ ≠ []) := by
    rcases List.eq_nil_or_concat' ids₁ with rfl | ⟨ids, x, rfl⟩
    · exact ⟨ids₂, rfl, rfl, by rintro htl rfl; exact htl rfl⟩
    · refine ⟨x :: ids₂, by simp, ?_, fun htl => htl⟩
      rw [List.append_assoc, lastId_append_of_ne ids (by simp)]
      rfl
  obtain ⟨p, hp, hplinks⟩ := @read_lastSlot { l₁ with next := l₁.next.set id (-1) }
    ids₁.dropLast zs (-1) (hzs ▸ hlinks)
  have hset := @setTail { l₁ with next := l₁.next.set id (-1) } zs p hplinks fun htl => by
    rw [htail, h.tail, hlast, lastId_append_of_ne ids₁ (htail' htl),
      lastId_append_of_ne ids₁ (List.cons_ne_nil id ids₂)]
    exact lastId_append_of_ne [id] (htail' htl)
  refine ⟨{ l₁ with next := l₁.next.set id (-1), tail := lastId zs },
    ⟨ids₁.length + 1, fun n hn => ?_⟩, ?_, hlen⟩
  · have hloop : l.removeLoop id n (lastSlot []) .head = some (lastSlot ids₁,
        if ids₁ = [] then .head else lastSlot ids₁.dropLast) :=
      removeLoop_eq h.links rfl hid₁ hn
    have hprev : (if ids₁ = [] then NrSlot.head else lastSlot ids₁.dropLast) =
        lastSlot ids₁.dropLast := by
      split
      · next hnil => rw [hnil]; rfl
      · rfl
    obtain ⟨c, hc, rfl, -⟩ := read_lastSlot h.links
    rw [lastSlot_nil, hprev] at hloop
    simp only [NrList.remove, hloop, hc, Option.bind_eq_bind, Option.bind_some, read_next, hr,
      hwrite, write_next l₁ (-1) hlt₁, hp]
    rw [if_neg (by omega)]
    exact hset
  · rw [herase]
    refine ⟨hlinks, hnodup, hlast, fun i hi hmem => ?_, ?_⟩
    · rw [List.mem_append, not_or] at hmem
      by_cases heq : id = i
      · subst heq
        exact List.getElem?_set_self hlt₁
      · refine ((List.getElem?_set_ne heq).trans (hsame i hmem.1)).trans
          (h.others i (hlen ▸ hi) ?_)
        simp [hmem.1, hmem.2, Ne.symm heq]
    · simp [hlength, hlen, h.length]

/-- `addTailNrList`, which the HARQ processes use, is this one. -/
theorem addTail_harq (h : l.Refines ids) (hid : id ∉ ids) (hlt : id < l.len) :
    ∃ l', l.addTail id = some l' ∧ l'.Refines (addTailNrList ids id) := by
  obtain ⟨l', hadd, hrefines, -⟩ := h.addTail hid hlt
  exact ⟨l', hadd, by rwa [addTailNrList_of_notMem hid]⟩

/-- So is `removeNrList`. -/
theorem remove_harq (h : l.Refines ids) {ids' : List ℕ} (hremove : removeNrList ids id = .ok ids') :
    ∃ l', Returns (fun fuel => l.remove id fuel) l' ∧ l'.Refines ids' := by
  unfold removeNrList at hremove
  split at hremove
  · next hid =>
    cases hremove
    obtain ⟨l', hret, hrefines, -⟩ := h.remove hid
    exact ⟨l', hret, hrefines⟩
  · cases hremove

end Refines

end

end NrList

/-! ## Runs -/

/-- A call of one of the functions. -/
inductive NrListOp where
  | create (len : ℕ)
  | resize (newLen : ℕ)
  | add (id : ℕ)
  | addFront (id : ℕ)
  | addTail (id : ℕ)
  | remove (id : ℕ)
  | removeFront

/-- The list of ids, and the length of its array. -/
structure NrIds where
  ids : List ℕ
  len : ℕ

namespace NrListOp

variable (alloc : ℕ → Bool)

/-- The call, with the fuel for its loop. -/
def run (fuel : ℕ) (l : NrList) : NrListOp → Option NrList
  | create len => NrList.create alloc len
  | resize newLen => l.resize alloc newLen
  | add id => l.add id fuel
  | addFront id => l.addFront id
  | addTail id => l.addTail id
  | remove id => l.remove id fuel
  | removeFront => l.removeFront

/-- What it does to the list of ids. -/
def spec (r : NrIds) : NrListOp → NrIds
  | create len => ⟨[], len⟩
  | resize newLen => ⟨r.ids, newLen⟩
  | add id => ⟨r.ids ++ [id], r.len⟩
  | addFront id => ⟨id :: r.ids, r.len⟩
  | addTail id => ⟨r.ids ++ [id], r.len⟩
  | remove id => ⟨r.ids.erase id, r.len⟩
  | removeFront => ⟨r.ids.tail, r.len⟩

/-- When it is called : ids are in range, the ones that are added are not in the list, the ones that
are removed are, no member is cut off, and there is memory for an array of another length. -/
def Allowed (r : NrIds) : NrListOp → Prop
  | create len => alloc len
  | resize newLen => (newLen ≠ r.len → alloc newLen) ∧ ∀ id ∈ r.ids, id < newLen
  | add id => id < r.len ∧ id ∉ r.ids
  | addFront id => id < r.len ∧ id ∉ r.ids
  | addTail id => id < r.len ∧ id ∉ r.ids
  | remove id => id ∈ r.ids
  | removeFront => r.ids ≠ []

/-- One call after the other. -/
def runAll (fuel : ℕ) : List NrListOp → NrList → Option NrList
  | [], l => some l
  | op :: ops, l => (op.run alloc fuel l).bind (runAll fuel ops)

/-- Each one is called when it may be. -/
def AllowedAll : List NrListOp → NrIds → Prop
  | [], _ => True
  | op :: ops, r => op.Allowed alloc r ∧ AllowedAll ops (op.spec r)

variable {alloc} {l : NrList} {r : NrIds}

theorem run_spec (h : l.Refines r.ids) (hlen : l.len = r.len) {op : NrListOp}
    (hop : op.Allowed alloc r) :
    ∃ l', Returns (fun fuel => op.run alloc fuel l) l' ∧ l'.Refines (op.spec r).ids ∧
      l'.len = (op.spec r).len := by
  -- only the two loops need fuel
  have hpure : ∀ {f : ℕ → Option NrList} {ids : List ℕ} {len : ℕ},
      (∃ l', (∀ n, f n = some l') ∧ l'.Refines ids ∧ l'.len = len) →
        ∃ l', Returns f l' ∧ l'.Refines ids ∧ l'.len = len :=
    fun ⟨l', hf, h'⟩ => ⟨l', Returns.pure hf, h'⟩
  cases op with
  | create len =>
    obtain ⟨l', hl', h'⟩ := NrList.refines_create hop
    exact hpure ⟨l', fun _ => hl', h'⟩
  | resize newLen =>
    obtain ⟨l', hl', h'⟩ := h.resize (fun hne => hop.1 (hlen ▸ hne)) hop.2
    exact hpure ⟨l', fun _ => hl', h'⟩
  | add id =>
    obtain ⟨l', hl', h', hlen'⟩ := h.add hop.2 (hlen.symm ▸ hop.1)
    exact ⟨l', hl', h', hlen'.trans hlen⟩
  | addFront id =>
    obtain ⟨l', hl', h', hlen'⟩ := h.addFront hop.2 (hlen.symm ▸ hop.1)
    exact hpure ⟨l', fun _ => hl', h', hlen'.trans hlen⟩
  | addTail id =>
    obtain ⟨l', hl', h', hlen'⟩ := h.addTail hop.2 (hlen.symm ▸ hop.1)
    exact hpure ⟨l', fun _ => hl', h', hlen'.trans hlen⟩
  | remove id =>
    obtain ⟨l', hl', h', hlen'⟩ := h.remove hop
    exact ⟨l', hl', h', hlen'.trans hlen⟩
  | removeFront =>
    obtain ⟨id, ids, hids⟩ := List.exists_cons_of_ne_nil hop
    obtain ⟨l', hl', h', hlen'⟩ := NrList.Refines.removeFront (hids ▸ h)
    exact hpure ⟨l', fun _ => hl', by simpa only [spec, hids, List.tail_cons] using h',
      hlen'.trans hlen⟩

theorem runAll_spec : ∀ {ops : List NrListOp} {l : NrList} {r : NrIds}, l.Refines r.ids →
    l.len = r.len → AllowedAll alloc ops r →
      ∃ l', Returns (fun fuel => runAll alloc fuel ops l) l' ∧ l'.Refines (ops.foldl spec r).ids ∧
        l'.len = (ops.foldl spec r).len
  | [], l, _, h, hlen, _ => ⟨l, Returns.pure fun _ => rfl, h, hlen⟩
  | op :: ops, l, r, h, hlen, hops => by
    obtain ⟨l₁, hl₁, h₁, hlen₁⟩ := run_spec h hlen hops.1
    obtain ⟨l', hl', h', hlen'⟩ := runAll_spec h₁ hlen₁ hops.2
    exact ⟨l', hl₁.bind hl', h', hlen'⟩

end NrListOp

/-- From the creation of a list on, any run of calls returns, and the array threads the list of ids
that the same calls give. -/
theorem nrList_runs (alloc : ℕ → Bool) (l : NrList) (len : ℕ) (ops : List NrListOp)
    (halloc : alloc len) (hops : NrListOp.AllowedAll alloc ops ⟨[], len⟩) :
    ∃ l', Returns (fun fuel => NrListOp.runAll alloc fuel (.create len :: ops) l) l' ∧
      l'.Refines (ops.foldl NrListOp.spec ⟨[], len⟩).ids ∧
        l'.len = (ops.foldl NrListOp.spec ⟨[], len⟩).len := by
  obtain ⟨l₁, hcreate, h₁, hlen₁⟩ := NrList.refines_create halloc
  obtain ⟨l', hrun, h', hlen'⟩ := NrListOp.runAll_spec (r := ⟨[], len⟩) h₁ hlen₁ hops
  exact ⟨l', (Returns.pure fun _ => hcreate).bind hrun, h', hlen'⟩

/-- Members are taken out of the middle, at the front and at the tail, the array is made longer in
between. -/
theorem nrList_runs_sample : ∃ l', Returns (fun fuel => NrListOp.runAll (fun n => 0 < n) fuel
    (.create 4 :: [.addTail 2, .add 0, .addFront 3, .remove 2, .addTail 2, .removeFront, .resize 8,
      .add 7, .remove 7]) ⟨0, [], 0, 0⟩) l' ∧ l'.Refines [0, 2] ∧ l'.len = 8 :=
  nrList_runs (fun n => 0 < n) ⟨0, [], 0, 0⟩ 4 [.addTail 2, .add 0, .addFront 3, .remove 2,
    .addTail 2, .removeFront, .resize 8, .add 7, .remove 7] rfl
    (by simp [NrListOp.AllowedAll, NrListOp.Allowed, NrListOp.spec])

end NrStack
