import NrStack.Flexric.SeqRing

/-!
# The rings of tasks

`bounded_notified_fifo.h` and `task_manager.c` each keep their own copy of the growing ring of
`seq_ring.c`, the same functions with another first capacity. What the ring module proves of it
holds from any capacity on (`SeqRingInv.empty`); the first of them adds `pop_seq_ring_task`.
-/

namespace NrStack

/-- `task_t` : two pointers, NULL is 0. -/
structure Task where
  args : Nat
  func : Nat
deriving DecidableEq, Repr

/-- A task of NULL pointers. -/
def Task.null : Task :=
  ⟨0, 0⟩

/-- A call that pushes a task : the task, the ticket of the call, and the number of queues it has
tried. -/
structure PushCall where
  task : Task
  index : Nat
  tried : Nat
deriving DecidableEq, Repr

/-- The task in the hands of a caller. -/
def PushCall.hand (c : Option PushCall) : List Task :=
  (c.map PushCall.task).toList

/-- The thread is not there or waits; an assertion fails; a NULL function is called; the ring does
not grow any more. -/
inductive TaskFault
  | waits
  | assertion
  | nullFunction
  | memory
deriving DecidableEq, Repr

/-- What was asked for, or a fault. -/
def TaskFault.unless {α : Type} (f : TaskFault) : Option α → Except TaskFault α
  | some a => .ok a
  | none => .error f

namespace TaskFault

theorem map_eq_ok {α β : Type} {x : Except TaskFault α} {g : α → β} {b : β}
    (h : x.map g = .ok b) : ∃ a, x = .ok a ∧ b = g a := by
  cases x with
  | error _ => cases h
  | ok a =>
    cases h
    exact ⟨a, rfl, rfl⟩

theorem map_unless_eq_ok {α β : Type} {f : TaskFault} {o : Option α} {g : α → β} {b : β}
    (h : (f.unless o).map g = .ok b) : ∃ a, o = some a ∧ b = g a := by
  obtain ⟨a, ha, hb⟩ := map_eq_ok h
  cases o with
  | none => cases ha
  | some _ =>
    cases ha
    exact ⟨_, rfl, hb⟩

theorem ok_of_toOption {α : Type} {x : Except TaskFault α} {a : α} (h : x.toOption = some a) :
    x = .ok a := by
  cases x with
  | error f => cases h
  | ok a₁ =>
    cases h
    rfl

end TaskFault

namespace SeqRing

variable {α : Type} (r : SeqRing α)

/-- A ring of empty places. -/
def empty (zero : α) (cap : Nat) : SeqRing α :=
  { array := List.replicate cap zero, cap := cap, head := 0, tail := 0 }

/-- The elements from front to end. -/
def elements : List α :=
  (r.walk (r.size + 1) r.front).getD []

/-- `pop_seq_ring_task`. The slot keeps its value. -/
def popFront : Option (α × SeqRing α) :=
  if r.size = 0 then none
  else do
    let t ← r.array[mask r.cap r.tail]?
    return (t, { r with tail := toU32 (r.tail + 1) })

/-- One of several rings is replaced. -/
theorem elements_update {ι : Type} [DecidableEq ι] (queues : ι → SeqRing α) (i : ι) :
    (fun j => (Function.update queues i r j).elements) =
      Function.update (fun j => (queues j).elements) i r.elements :=
  funext (Function.apply_update (fun _ => SeqRing.elements) queues i r)

end SeqRing

namespace SeqRingInv

variable {α : Type} {zero : α} {r : SeqRing α} {l : List α} {cap : Nat}

theorem empty (h : IsCap cap) : SeqRingInv (SeqRing.empty zero cap) [] := by
  have hsize : (SeqRing.empty zero cap).size = 0 := by simp [SeqRing.empty, SeqRing.size, toU32]
  refine ⟨h, List.length_replicate, Nat.two_pow_pos 32, Nat.two_pow_pos 32, ?_, ?_⟩
  · exact hsize.trans_lt ((Nat.zero_lt_succ 31).trans_le h.le.1)
  · refine List.eq_nil_of_length_eq_zero ?_
    rw [Ring.length_contents]
    exact hsize

theorem elements_eq (h : SeqRingInv r l) : r.elements = l := by
  rw [SeqRing.elements, h.front_eq, h.walk_eq (Nat.zero_le _) (by rw [h.size_eq]; omega),
    Option.getD_some, List.drop_zero]

theorem size_eq_zero_iff (h : SeqRingInv r l) : r.size = 0 ↔ l = [] := by
  rw [h.size_eq, List.length_eq_zero_iff]

theorem popFront_nil (h : SeqRingInv r []) : r.popFront = none := by
  rw [SeqRing.popFront, if_pos (h.size_eq_zero_iff.2 rfl)]

/-- The first element goes. -/
theorem popFront {x : α} (h : SeqRingInv r (x :: l)) :
    ∃ r', r.popFront = some (x, r') ∧ SeqRingInv r' l := by
  have hsize : r.size ≠ 0 := by
    rw [h.size_eq]
    exact Nat.succ_ne_zero _
  have hslot : mask r.cap r.tail = r.toRing.slot r.cap 0 := h.front_eq
  have hfirst : r.array[mask r.cap r.tail]? = some x := by
    rw [hslot, h.getElem?_slot (Nat.succ_pos _)]
    rfl
  have hrest := h.move_tail (Nat.succ_le_succ (Nat.zero_le l.length)) h.length_array
    fun _ _ => rfl
  refine ⟨_, ?_, hrest⟩
  rw [SeqRing.popFront, if_neg hsize, hfirst]
  rfl

theorem pushBack_inv {x : α} {r' : SeqRing α} (h : SeqRingInv r l) (hfew : FewElements r)
    (hr : r.pushBack zero x = some r') : SeqRingInv r' (l ++ [x]) := by
  obtain ⟨r₁, hr₁, hinv⟩ := h.pushBack zero hfew x
  rw [hr, Option.some.injEq] at hr₁
  exact hr₁ ▸ hinv

theorem popFront_inv {x : α} {r' : SeqRing α} (h : SeqRingInv r l)
    (hr : r.popFront = some (x, r')) : ∃ l', l = x :: l' ∧ SeqRingInv r' l' := by
  cases l with
  | nil =>
    rw [h.popFront_nil] at hr
    cases hr
  | cons y l =>
    obtain ⟨r₁, hr₁, hinv⟩ := h.popFront
    rw [hr, Option.some.injEq, Prod.mk.injEq] at hr₁
    obtain ⟨rfl, rfl⟩ := hr₁
    exact ⟨l, rfl, hinv⟩

end SeqRingInv

end NrStack
