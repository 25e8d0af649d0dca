import Mathlib.Tactic

/-!
# Programs that write into one block of memory

A block is a list of bytes of fixed length. A program reads and writes it and may fault; a
write that leaves the block faults.

`Stores m lo hi a` : given a block of `hi` bytes at least, `m` returns `a` and changes no byte
outside `[lo, hi)`. `Writes m off xs a` says also what it writes, from `off` on and nothing else.
The rules build these triples along the program text : `pure`, `bind`, `store`. `EndsIn stop P r` is
a postcondition for a result : `P` for a value, and a fault is one of those in `stop`.
-/

namespace NrStack

variable {β ε α γ : Type}

/-- A program over one block. -/
abbrev BlockM (β ε α : Type) : Type :=
  StateT (List β) (Except ε) α

/-- Overwrite the elements from `off` on. -/
def overwrite (b : List β) (off : Nat) (xs : List β) : List β :=
  b.take off ++ xs ++ b.drop (off + xs.length)

theorem length_overwrite {b xs : List β} {off : Nat} (h : off + xs.length ≤ b.length) :
    (overwrite b off xs).length = b.length := by
  simp only [overwrite, List.length_append, List.length_take, List.length_drop]
  omega

theorem getElem?_overwrite_of_lt {b xs : List β} {off i : Nat} (h : off + xs.length ≤ b.length)
    (hi : i < off) : (overwrite b off xs)[i]? = b[i]? := by
  rw [overwrite, List.append_assoc, List.getElem?_append_left (by rw [List.length_take]; omega),
    List.getElem?_take_of_lt hi]

theorem getElem?_overwrite_of_ge {b xs : List β} {off i : Nat} (h : off + xs.length ≤ b.length)
    (hi : off + xs.length ≤ i) : (overwrite b off xs)[i]? = b[i]? := by
  have hlen : (b.take off ++ xs).length = off + xs.length := by
    rw [List.length_append, List.length_take, min_eq_left (by omega)]
  rw [overwrite, List.getElem?_append_right (by omega), hlen, List.getElem?_drop]
  congr 1
  omega

theorem getElem?_overwrite {b xs : List β} {off i : Nat} (h : off + xs.length ≤ b.length)
    (hi : i < xs.length) : (overwrite b off xs)[off + i]? = xs[i]? := by
  have hlen : (b.take off).length = off := by
    rw [List.length_take, min_eq_left (by omega)]
  rw [overwrite, List.append_assoc, List.getElem?_append_right (by omega), hlen,
    Nat.add_sub_cancel_left, List.getElem?_append_left hi]

theorem take_overwrite {b xs : List β} {off : Nat} (h : off + xs.length ≤ b.length) :
    (overwrite b off xs).take off = b.take off := by
  rw [overwrite, List.append_assoc]
  exact List.take_left' (by rw [List.length_take]; omega)

theorem drop_overwrite {b xs : List β} {off : Nat} (h : off + xs.length ≤ b.length) :
    (overwrite b off xs).drop off = xs ++ b.drop (off + xs.length) := by
  rw [overwrite, List.append_assoc]
  exact List.drop_left' (by rw [List.length_take]; omega)

theorem drop_overwrite_of_ge {b xs : List β} {off i : Nat} (h : off + xs.length ≤ b.length)
    (hi : off + xs.length ≤ i) : (overwrite b off xs).drop i = b.drop i := by
  refine List.ext_getElem? fun j => ?_
  rw [List.getElem?_drop, List.getElem?_drop, getElem?_overwrite_of_ge h (by omega)]

theorem take_drop_overwrite {b xs : List β} {off : Nat} (h : off + xs.length ≤ b.length) :
    ((overwrite b off xs).drop off).take xs.length = xs := by
  rw [drop_overwrite h]
  exact List.take_left' rfl

theorem take_overwrite_add {b xs : List β} {off : Nat} (h : off + xs.length ≤ b.length) :
    (overwrite b off xs).take (off + xs.length) = b.take off ++ xs := by
  have hlen : (b.take off ++ xs).length = off + xs.length := by
    rw [List.length_append, List.length_take, min_eq_left (by omega)]
  rw [overwrite, ← hlen, List.take_left' rfl]

theorem take_overwrite_zero {b xs : List β} (h : xs.length ≤ b.length) :
    (overwrite b 0 xs).take xs.length = xs := by
  have htake := @take_drop_overwrite _ b xs 0 (by omega)
  rwa [List.drop_zero] at htake

/-- Write `xs` from `off` on. -/
def store (fault : ε) (off : Nat) (xs : List β) : BlockM β ε Unit := fun b =>
  if off + xs.length ≤ b.length then .ok ((), overwrite b off xs) else .error fault

theorem store_eq (fault : ε) {b xs : List β} {off : Nat} (h : off + xs.length ≤ b.length) :
    store fault off xs b = .ok ((), overwrite b off xs) :=
  if_pos h

/-- The first step of a program, known. -/
theorem bind_of_ok {m : BlockM β ε α} {f : α → BlockM β ε γ} {a : α} {b b' : List β}
    (h : m b = .ok (a, b')) : (m >>= f) b = f a b' := by
  change Except.bind (m b) _ = _
  rw [h]
  rfl

/-- The first step of a program, at fault. -/
theorem bind_of_error {m : BlockM β ε α} {f : α → BlockM β ε γ} {fault : ε} {b : List β}
    (h : m b = .error fault) : (m >>= f) b = .error fault := by
  change Except.bind (m b) _ = _
  rw [h]
  rfl

/-- The program returns `a` in every block of `hi` elements, and keeps all but `[lo, hi)`. -/
def Stores (m : BlockM β ε α) (lo hi : Nat) (a : α) : Prop :=
  ∀ b : List β, hi ≤ b.length → ∃ b', m b = .ok (a, b') ∧ b'.length = b.length ∧
    ∀ i, i < lo ∨ hi ≤ i → b'[i]? = b[i]?

namespace Stores

variable {m : BlockM β ε α} {f : α → BlockM β ε γ} {lo hi lo' hi' : Nat} {a : α} {c : γ}

theorem pure (lo hi : Nat) (a : α) : Stores (Pure.pure a : BlockM β ε α) lo hi a :=
  fun b _ => ⟨b, rfl, rfl, fun _ _ => rfl⟩

theorem mono (h : Stores m lo hi a) (hlo : lo' ≤ lo) (hhi : hi ≤ hi') : Stores m lo' hi' a := by
  intro b hb
  obtain ⟨b', hm, hlen, hframe⟩ := h b (hhi.trans hb)
  exact ⟨b', hm, hlen, fun i hi => hframe i (hi.imp (fun h => h.trans_le hlo) hhi.trans)⟩

theorem bind (h : Stores m lo hi a) (hf : Stores (f a) lo hi c) : Stores (m >>= f) lo hi c := by
  intro b hb
  obtain ⟨b₁, hm, hlen₁, hframe₁⟩ := h b hb
  obtain ⟨b₂, hf, hlen₂, hframe₂⟩ := hf b₁ (hlen₁ ▸ hb)
  exact ⟨b₂, (bind_of_ok hm).trans hf, hlen₂.trans hlen₁,
    fun i hi => (hframe₂ i hi).trans (hframe₁ i hi)⟩

theorem store (fault : ε) {off : Nat} {xs : List β} (hlo : lo ≤ off)
    (hhi : off + xs.length ≤ hi) : Stores (NrStack.store fault off xs) lo hi () := by
  intro b hb
  have hfit : off + xs.length ≤ b.length := hhi.trans hb
  refine ⟨overwrite b off xs, if_pos hfit, length_overwrite hfit, fun i hi => ?_⟩
  rcases hi with hi | hi
  · exact getElem?_overwrite_of_lt hfit (by omega)
  · exact getElem?_overwrite_of_ge hfit (by omega)

/-- A `store` followed by the rest of the program. -/
theorem store_bind {fault : ε} {off : Nat} {xs : List β} {f : Unit → BlockM β ε γ}
    (hlo : lo ≤ off) (hhi : off + xs.length ≤ hi) (hf : Stores (f ()) lo hi c) :
    Stores (NrStack.store fault off xs >>= f) lo hi c :=
  (store fault hlo hhi).bind hf

end Stores

/-- What is written in two steps can be written in one. -/
theorem overwrite_append {b xs ys : List β} {off : Nat}
    (h : off + (xs ++ ys).length ≤ b.length) :
    overwrite (overwrite b off xs) (off + xs.length) ys = overwrite b off (xs ++ ys) := by
  rw [List.length_append] at h
  have hxs : off + xs.length ≤ b.length := by omega
  have htake := take_overwrite_add hxs
  have hdrop : (overwrite b off xs).drop (off + xs.length + ys.length) =
      b.drop (off + (xs ++ ys).length) := by
    rw [drop_overwrite_of_ge hxs (by omega), List.length_append, ← Nat.add_assoc]
  rw [overwrite, htake, hdrop, overwrite]
  simp only [List.append_assoc]

theorem overwrite_prepend {b xs ys : List β} {off : Nat}
    (h : off + (xs ++ ys).length ≤ b.length) :
    overwrite (overwrite b (off + xs.length) ys) off xs = overwrite b off (xs ++ ys) := by
  rw [List.length_append] at h
  have hys : off + xs.length + ys.length ≤ b.length := by omega
  have htake : (overwrite b (off + xs.length) ys).take off = b.take off := by
    have hshort := congrArg (List.take off) (take_overwrite hys)
    rwa [List.take_take, List.take_take, min_eq_left (by omega)] at hshort
  rw [overwrite, htake, drop_overwrite hys, overwrite, List.length_append, Nat.add_assoc]
  simp only [List.append_assoc]

/-- The program returns `a` and writes `xs` from `off` on, in every block these fit in. -/
def Writes (m : BlockM β ε α) (off : Nat) (xs : List β) (a : α) : Prop :=
  ∀ b : List β, off + xs.length ≤ b.length → m b = .ok (a, overwrite b off xs)

namespace Writes

variable {m : BlockM β ε α} {f : α → BlockM β ε γ} {off : Nat} {xs ys : List β} {a : α} {c : γ}

theorem pure (off : Nat) (a : α) : Writes (Pure.pure a : BlockM β ε α) off [] a := by
  intro b _
  have : overwrite b off [] = b := by simp [overwrite]
  rw [this]
  rfl

theorem bind (h : Writes m off xs a) (hf : Writes (f a) (off + xs.length) ys c) :
    Writes (m >>= f) off (xs ++ ys) c := by
  intro b hb
  have hxs : off + xs.length ≤ b.length := by
    rw [List.length_append] at hb
    omega
  have hys : off + xs.length + ys.length ≤ (overwrite b off xs).length := by
    rw [length_overwrite hxs, Nat.add_assoc, ← List.length_append]
    exact hb
  rw [bind_of_ok (h b hxs), hf _ hys, overwrite_append hb]

/-- The second program writes in front of the first. -/
theorem bind_front (h : Writes m (off + xs.length) ys a) (hf : Writes (f a) off xs c) :
    Writes (m >>= f) off (xs ++ ys) c := by
  intro b hb
  have hys : off + xs.length + ys.length ≤ b.length := by
    rwa [List.length_append, ← Nat.add_assoc] at hb
  rw [bind_of_ok (h b hys), hf _ (by rw [length_overwrite hys]; omega), overwrite_prepend hb]

/-- What is written at the beginning of a block, as a reader of the block gets it. -/
theorem exists_take_iff {m : BlockM β ε Int} {b : List β} {P : Nat → List β → Prop}
    (h : Writes m 0 xs (xs.length : Int)) (hb : xs.length ≤ b.length) :
    (∃ n b', m b = .ok (((n : Nat) : Int), b') ∧ P n (b'.take n)) ↔ P xs.length xs := by
  have hm := h b (by omega)
  have htake := take_overwrite_zero hb
  constructor
  · rintro ⟨n, b', hok, hP⟩
    rw [hm] at hok
    cases hok
    rwa [htake] at hP
  · intro hP
    exact ⟨xs.length, _, hm, by rwa [htake]⟩

theorem store (fault : ε) (off : Nat) (xs : List β) :
    Writes (NrStack.store fault off xs) off xs () :=
  fun _ hb => if_pos hb

end Writes

/-! ## Results -/

/-- A value with `P`, or a fault that may stop the program. -/
def EndsIn (stop : ε → Prop) (P : α → Prop) : Except ε α → Prop
  | .ok a => P a
  | .error fault => stop fault

namespace EndsIn

variable {stop : ε → Prop} {P : α → Prop} {Q : γ → Prop} {r : Except ε α} {f : α → Except ε γ}

theorem of_ok {a : α} (h : EndsIn stop P r) (hr : r = .ok a) : P a := by
  rw [hr] at h
  exact h

theorem of_error {fault : ε} (h : EndsIn stop P r) (hr : r = .error fault) : stop fault := by
  rw [hr] at h
  exact h

theorem bind (h : EndsIn stop P r) (hf : ∀ a, P a → EndsIn stop Q (f a)) :
    EndsIn stop Q (r >>= f) := by
  cases r with
  | ok a => exact hf a h
  | error fault => exact h

end EndsIn

/-- A value of a program is one of its second step. -/
theorem exists_of_bind_ok {r : Except ε α} {f : α → Except ε γ} {c : γ} (h : r >>= f = .ok c) :
    ∃ a, r = .ok a ∧ f a = .ok c := by
  cases r with
  | ok a => exact ⟨a, rfl, h⟩
  | error fault => cases h

end NrStack
