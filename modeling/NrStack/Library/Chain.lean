import Mathlib.Data.List.Basic
import Mathlib.Data.List.Nodup
import Mathlib.Logic.Function.Basic

/-!
# Linked lists in memory

A memory maps addresses to nodes, a node is a value and the pointer to the next one, and a pointer
is an address or null. `Chain m p l q` : from `p` on, the nodes are those of `l`, with their
addresses, and the last one points to `q`. A list is a chain to null.

The memory decides which list starts at a pointer (`Chain.unique`), so a list never comes back to an
address (`Chain.nodup`). A node is taken out at the head of a list (`Chain.unlink_head`), or by the
node before it (`Chain.unlink`).
-/

namespace NrStack

/-- A value and the pointer to the next node. -/
structure Node (A α : Type*) where
  val : α
  next : Option A

/-- The nodes that are allocated. -/
abbrev Memory (A α : Type*) := A → Option (Node A α)

variable {A α : Type*}

namespace Memory

/-- The node at a pointer; `none` if there is none, as at null. -/
def read (m : Memory A α) (p : Option A) : Option (Node A α) :=
  p.bind m

@[simp] theorem read_some (m : Memory A α) (a : A) : m.read (some a) = m a :=
  rfl

variable [DecidableEq A]

def free (m : Memory A α) (a : A) : Memory A α :=
  Function.update m a none

/-- Write the pointer of the node at `p`. -/
def setNext (m : Memory A α) (p q : Option A) : Option (Memory A α) :=
  p.bind fun a => (m a).map fun n => Function.update m a (some { n with next := q })

/-- Only the node at `b` is written. -/
theorem setNext_of_ne {m m' : Memory A α} {b c : A} {q : Option A}
    (h : m.setNext (some b) q = some m') (hne : c ≠ b) : m' c = m c := by
  obtain ⟨n, -, rfl⟩ := Option.map_eq_some_iff.1 h
  exact Function.update_of_ne hne _ _

end Memory

/-- The nodes from a pointer to another. -/
def Chain (m : Memory A α) : Option A → List (A × α) → Option A → Prop
  | p, [], q => p = q
  | p, (a, v) :: l, q => p = some a ∧ ∃ r, m a = some ⟨v, r⟩ ∧ Chain m r l q

namespace Chain

variable {m : Memory A α} {p q : Option A} {a b : A} {v w : α} {l l' l₁ l₂ : List (A × α)}

theorem append_iff : ∀ {l₁ : List (A × α)} {p : Option A},
    Chain m p (l₁ ++ l₂) q ↔ ∃ r, Chain m p l₁ r ∧ Chain m r l₂ q
  | [], _ => by simp [Chain]
  | (a, v) :: l₁, p => by
    simp only [List.cons_append, Chain, append_iff]
    constructor
    · rintro ⟨hp, r, hr, s, h₁, h₂⟩
      exact ⟨s, ⟨hp, r, hr, h₁⟩, h₂⟩
    · rintro ⟨s, ⟨hp, r, hr, h₁⟩, h₂⟩
      exact ⟨hp, r, hr, s, h₁, h₂⟩

/-- The list from a pointer is what the memory says. -/
theorem unique : ∀ {l l' : List (A × α)} {p : Option A},
    Chain m p l none → Chain m p l' none → l = l'
  | [], [], _, _, _ => rfl
  | [], _ :: _, _, h, h' => by
    have hnull := h.symm.trans h'.1
    cases hnull
  | _ :: _, [], _, h, h' => by
    have hnull := h'.symm.trans h.1
    cases hnull
  | (a, v) :: l, (b, w) :: l', p, ⟨hp, r, hr, h⟩, ⟨hp', r', hr', h'⟩ => by
    cases hp.symm.trans hp'
    cases hr.symm.trans hr'
    rw [unique h h']

theorem nodup : ∀ {l : List (A × α)} {p : Option A}, Chain m p l none → (l.map Prod.fst).Nodup
  | [], _, _ => List.nodup_nil
  | (a, v) :: l, p, h => by
    obtain ⟨-, r, hr, hl⟩ := h
    rw [List.map_cons, List.nodup_cons]
    refine ⟨fun hmem => ?_, nodup hl⟩
    -- a second visit of the address would give it a shorter list
    obtain ⟨⟨a', w⟩, haw, rfl⟩ := List.mem_map.1 hmem
    obtain ⟨l₁, l₂, rfl⟩ := List.append_of_mem haw
    obtain ⟨s, -, hs⟩ := append_iff.1 hl
    have hfirst : Chain m (some a') ((a', v) :: (l₁ ++ (a', w) :: l₂)) none := ⟨rfl, r, hr, hl⟩
    have hagain : Chain m (some a') ((a', w) :: l₂) none := ⟨rfl, hs.2⟩
    have hlength := congrArg List.length (unique hfirst hagain)
    simp only [List.length_cons, List.length_append] at hlength
    omega

theorem head {x : A × α} (h : Chain m p (x :: l) q) : p = some x.1 :=
  h.1

/-- The first node of a list, and the list behind it. -/
theorem head_node {x : A × α} (h : Chain m p (x :: l) q) :
    ∃ r, m x.1 = some ⟨x.2, r⟩ ∧ Chain m r l q :=
  h.2

/-- The node in the middle of a list, and the list behind it. -/
theorem node (h : Chain m p (l₁ ++ (b, w) :: l₂) q) : ∃ r, m b = some ⟨w, r⟩ ∧ Chain m r l₂ q := by
  obtain ⟨_, -, -, hnode⟩ := append_iff.1 h
  exact hnode

/-- Only the nodes of the list matter. -/
theorem congr {m' : Memory A α} : ∀ {l : List (A × α)} {p : Option A},
    (∀ a ∈ l.map Prod.fst, m' a = m a) → Chain m p l q → Chain m' p l q
  | [], _, _, h => h
  | (b, v) :: l, p, heq, ⟨hp, r, hr, h⟩ =>
    ⟨hp, r, (heq b List.mem_cons_self).trans hr,
      congr (fun a ha => heq a (List.mem_cons_of_mem b ha)) h⟩

variable [DecidableEq A]

/-- A write elsewhere. -/
theorem update {x : Option (Node A α)} {l : List (A × α)} {p : Option A}
    (ha : a ∉ l.map Prod.fst) (h : Chain m p l q) : Chain (Function.update m a x) p l q :=
  h.congr fun _ hb => Function.update_of_ne (ne_of_mem_of_not_mem hb ha) _ _

/-- The value of a node is written. -/
theorem setVal (h : Chain m p (l₁ ++ (a, v) :: l₂) none) (w : α) :
    ∃ r, m a = some ⟨v, r⟩ ∧
      Chain (Function.update m a (some ⟨w, r⟩)) p (l₁ ++ (a, w) :: l₂) none := by
  have hnodup := nodup h
  simp only [List.map_append, List.map_cons, List.nodup_append', List.nodup_cons,
    List.disjoint_cons_right] at hnodup
  obtain ⟨-, ⟨ha₂, -⟩, ha₁, -⟩ := hnodup
  obtain ⟨s, h₁, hs, r, hr, h₂⟩ := append_iff.1 h
  exact ⟨r, hr, append_iff.2 ⟨s, update ha₁ h₁, hs, r, Function.update_self .., update ha₂ h₂⟩⟩

/-- The first node is taken out. -/
theorem unlink_head (h : Chain m (some a) ((a, v) :: l) none) :
    ∃ r, m a = some ⟨v, r⟩ ∧ Chain (m.free a) r l none := by
  have hnodup := nodup h
  rw [List.map_cons, List.nodup_cons] at hnodup
  obtain ⟨-, r, hr, hl⟩ := h
  exact ⟨r, hr, update hnodup.1 hl⟩

/-- A node is taken out by the one before it. -/
theorem unlink (h : Chain m p (l₁ ++ (b, w) :: (a, v) :: l₂) none) :
    ∃ r m', m a = some ⟨v, r⟩ ∧ m.setNext (some b) r = some m' ∧ m' a = some ⟨v, r⟩ ∧
      Chain (m'.free a) p (l₁ ++ (b, w) :: l₂) none := by
  have hnodup := nodup h
  simp only [List.map_append, List.map_cons, List.nodup_append', List.nodup_cons, List.mem_cons,
    not_or, List.disjoint_cons_right] at hnodup
  obtain ⟨-, ⟨⟨hba, hb₂⟩, ha₂, -⟩, hb₁, ha₁, -⟩ := hnodup
  obtain ⟨s, h₁, hs, t, hb, ht, r, ha, h₂⟩ := append_iff.1 h
  refine ⟨r, Function.update m b (some ⟨w, r⟩), ha, ?_, ?_, ?_⟩
  · rw [Memory.setNext, Option.bind_some, hb]
    rfl
  · rw [Function.update_of_ne (Ne.symm hba), ha]
  · refine append_iff.2 ⟨s, update ha₁ (update hb₁ h₁), hs, r, ?_, update ha₂ (update hb₂ h₂)⟩
    rw [Memory.free, Function.update_of_ne hba, Function.update_self]

end Chain

end NrStack
