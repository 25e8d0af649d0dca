import Mathlib.Tactic

/-!
# Formats that a reader follows octet by octet

A `Wire` is what a value looks like in a buffer : its octets, the places where the buffer must go on,
and the place where an unknown tag ends it. A `Reader` takes octets from a buffer that it does not
know the length of : it may come to a value, stop on an assertion, or leave the buffer.

`Finds d E N` : on every buffer, `d` finds the values with property `N` by their format `E`, and stops
where the format of one of them does. `Finds.bind` composes formats, so a reader written field by
field is described field by field; it stays inside exactly the buffers that begin with a format
(`Finds.outside_iff`).
-/

namespace NrStack

variable {α β : Type}

/-! ## Formats -/

/-- An octet, a place where the buffer must go on, or the end of what is known. -/
inductive WireItem
  | octet (b : UInt8)
  | room
  | unknown
deriving DecidableEq, Repr

/-- The format of a value. -/
abbrev Wire :=
  List WireItem

namespace Wire

/-- The format of octets. -/
def ofOctets (bs : List UInt8) : Wire :=
  bs.map .octet

/-- The octets of a format. -/
def octets : Wire → List UInt8
  | [] => []
  | .octet b :: w => b :: octets w
  | .room :: w => octets w
  | .unknown :: w => octets w

/-- `bs` is of the format, up to `rest`. -/
def Passes : Wire → List UInt8 → List UInt8 → Prop
  | [], bs, rest => bs = rest
  | .octet b :: w, bs, rest => ∃ tail, bs = b :: tail ∧ Passes w tail rest
  | .room :: w, bs, rest => bs ≠ [] ∧ Passes w bs rest
  | .unknown :: _, _, _ => False

/-- `bs` is of the format up to a place where it ends but must go on, or to an unknown tag. -/
def Halts : Wire → List UInt8 → Prop
  | [], _ => False
  | .octet b :: w, bs => ∃ tail, bs = b :: tail ∧ Halts w tail
  | .room :: w, bs => bs = [] ∨ Halts w bs
  | .unknown :: _, _ => True

/-- `bs` begins with the format. -/
def Begins (w : Wire) (bs : List UInt8) : Prop :=
  w.Halts bs ∨ ∃ rest, w.Passes bs rest

theorem passes_append {w w' : Wire} : ∀ {bs rest : List UInt8},
    Passes (w ++ w') bs rest ↔ ∃ mid, w.Passes bs mid ∧ w'.Passes mid rest := by
  induction w with
  | nil =>
    intro bs rest
    exact ⟨fun h => ⟨bs, rfl, h⟩, fun ⟨_, h, h'⟩ => h ▸ h'⟩
  | cons item w ih =>
    intro bs rest
    cases item with
    | octet b =>
      constructor
      · rintro ⟨tail, rfl, h⟩
        obtain ⟨mid, hw, hw'⟩ := ih.1 h
        exact ⟨mid, ⟨tail, rfl, hw⟩, hw'⟩
      · rintro ⟨mid, ⟨tail, rfl, hw⟩, hw'⟩
        exact ⟨tail, rfl, ih.2 ⟨mid, hw, hw'⟩⟩
    | room =>
      constructor
      · rintro ⟨hne, h⟩
        obtain ⟨mid, hw, hw'⟩ := ih.1 h
        exact ⟨mid, ⟨hne, hw⟩, hw'⟩
      · rintro ⟨mid, ⟨hne, hw⟩, hw'⟩
        exact ⟨hne, ih.2 ⟨mid, hw, hw'⟩⟩
    | unknown => exact ⟨fun h => h.elim, fun ⟨_, h, _⟩ => h.elim⟩

theorem halts_append {w w' : Wire} : ∀ {bs : List UInt8},
    Halts (w ++ w') bs ↔ w.Halts bs ∨ ∃ mid, w.Passes bs mid ∧ w'.Halts mid := by
  induction w with
  | nil =>
    intro bs
    exact ⟨fun h => .inr ⟨bs, rfl, h⟩, fun h => h.elim False.elim fun ⟨_, h, h'⟩ => h ▸ h'⟩
  | cons item w ih =>
    intro bs
    cases item with
    | octet b =>
      constructor
      · rintro ⟨tail, rfl, h⟩
        obtain h | ⟨mid, hw, hw'⟩ := ih.1 h
        · exact .inl ⟨tail, rfl, h⟩
        · exact .inr ⟨mid, ⟨tail, rfl, hw⟩, hw'⟩
      · rintro (⟨tail, rfl, h⟩ | ⟨mid, ⟨tail, rfl, hw⟩, hw'⟩)
        · exact ⟨tail, rfl, ih.2 (.inl h)⟩
        · exact ⟨tail, rfl, ih.2 (.inr ⟨mid, hw, hw'⟩)⟩
    | room =>
      constructor
      · rintro (h | h)
        · exact .inl (.inl h)
        · obtain h | ⟨mid, hw, hw'⟩ := ih.1 h
          · exact .inl (.inr h)
          · by_cases hne : bs = []
            · exact .inl (.inl hne)
            · exact .inr ⟨mid, ⟨hne, hw⟩, hw'⟩
      · rintro ((h | h) | ⟨mid, ⟨-, hw⟩, hw'⟩)
        · exact .inl h
        · exact .inr (ih.2 (.inl h))
        · exact .inr (ih.2 (.inr ⟨mid, hw, hw'⟩))
    | unknown => exact ⟨fun _ => .inl trivial, fun _ => trivial⟩

theorem passes_ofOctets {bs : List UInt8} : ∀ {buffer rest : List UInt8},
    (ofOctets bs).Passes buffer rest ↔ buffer = bs ++ rest := by
  induction bs with
  | nil => exact Iff.rfl
  | cons b bs ih =>
    intro buffer rest
    constructor
    · rintro ⟨tail, rfl, h⟩
      rw [ih.1 h, List.cons_append]
    · rintro rfl
      exact ⟨bs ++ rest, rfl, ih.2 rfl⟩

theorem not_halts_ofOctets {bs : List UInt8} : ∀ {buffer : List UInt8},
    ¬ (ofOctets bs).Halts buffer := by
  induction bs with
  | nil => exact id
  | cons b bs ih =>
    rintro buffer ⟨tail, -, h⟩
    exact ih h

end Wire

/-! ## Readers -/

/-- What becomes of a reader. -/
inductive ReadResult (α : Type)
  | ok (v : α) (rest : List UInt8)
  | stop
  | outside
deriving DecidableEq, Repr

/-- A reader of a buffer. -/
def Reader (α : Type) :=
  List UInt8 → ReadResult α

instance : Monad Reader where
  pure v := fun bs => .ok v bs
  bind d f := fun bs =>
    match d bs with
    | .ok v rest => f v rest
    | .stop => .stop
    | .outside => .outside

/-- Take `n` octets. -/
def readOctets (n : Nat) : Reader (List UInt8) := fun bs =>
  if n ≤ bs.length then .ok (bs.take n) (bs.drop n) else .outside

/-- The assertion that the buffer goes on. -/
def assertRoom : Reader Unit := fun bs =>
  if bs = [] then .stop else .ok () bs

/-- The assertion that the buffer ends. -/
def assertEnd : Reader Unit := fun bs =>
  if bs = [] then .ok () bs else .stop

/-- The assertion that fails on an unknown tag. -/
def unknownTag : Reader α := fun _ =>
  .stop

/-- A copy that leaves the memory it is for. -/
def overrun : Reader α := fun _ =>
  .outside

/-- `n` values, one after the other. -/
def readMany (d : Reader α) : Nat → Reader (List α)
  | 0 => pure []
  | n + 1 => do
    let v ← d
    let vs ← readMany d n
    return v :: vs

theorem bind_apply {d : Reader α} {f : α → Reader β} (bs : List UInt8) : (d >>= f) bs =
    match d bs with
    | .ok v rest => f v rest
    | .stop => .stop
    | .outside => .outside :=
  rfl

/-- `d` reads the values with `N`, by their format `E`. -/
structure Finds (d : Reader α) (E : α → Wire) (N : α → Prop) : Prop where
  ok : ∀ bs v rest, d bs = .ok v rest ↔ N v ∧ (E v).Passes bs rest
  stop : ∀ bs, d bs = .stop ↔ ∃ v, N v ∧ (E v).Halts bs
  exists_value : ∃ v, N v

namespace Finds

variable {d : Reader α} {E : α → Wire} {N : α → Prop}

/-- A reader stays inside exactly the buffers that begin with a format. -/
theorem outside_iff (h : Finds d E N) (bs : List UInt8) :
    d bs ≠ .outside ↔ ∃ v, N v ∧ (E v).Begins bs := by
  constructor
  · intro hne
    cases hd : d bs with
    | ok v rest =>
      obtain ⟨hv, hpass⟩ := (h.ok bs v rest).1 hd
      exact ⟨v, hv, .inr ⟨rest, hpass⟩⟩
    | stop =>
      obtain ⟨v, hv, hhalt⟩ := (h.stop bs).1 hd
      exact ⟨v, hv, .inl hhalt⟩
    | outside => exact absurd hd hne
  · rintro ⟨v, hv, hhalt | ⟨rest, hpass⟩⟩ hd
    · rw [(h.stop bs).2 ⟨v, hv, hhalt⟩] at hd
      cases hd
    · rw [(h.ok bs v rest).2 ⟨hv, hpass⟩] at hd
      cases hd

/-- With a check of the end, a reader finds a value in exactly the octets of its format. -/
theorem end_ok_iff (h : Finds d E N) (bs : List UInt8) (v : α) (rest : List UInt8) :
    (do let v ← d; assertEnd; return v : Reader α) bs = .ok v rest ↔
      N v ∧ (E v).Passes bs [] ∧ rest = [] := by
  rw [bind_apply]
  constructor
  · intro hd
    cases hdv : d bs with
    | ok a mid =>
      rw [hdv] at hd
      obtain ⟨ha, hpass⟩ := (h.ok bs a mid).1 hdv
      change (assertEnd >>= fun _ => Pure.pure a) mid = _ at hd
      rw [bind_apply, assertEnd] at hd
      split_ifs at hd with hmid
      cases hd
      subst hmid
      exact ⟨ha, hpass, rfl⟩
    | stop =>
      rw [hdv] at hd
      cases hd
    | outside =>
      rw [hdv] at hd
      cases hd
  · rintro ⟨hv, hpass, rfl⟩
    rw [(h.ok bs v []).2 ⟨hv, hpass⟩]
    rfl

/-- The check of the end does not leave the buffer. -/
theorem end_outside_iff (h : Finds d E N) (bs : List UInt8) :
    (do let v ← d; assertEnd; return v : Reader α) bs ≠ .outside ↔
      ∃ v, N v ∧ (E v).Begins bs := by
  rw [← h.outside_iff bs, bind_apply]
  cases d bs with
  | ok v rest =>
    refine iff_of_true ?_ nofun
    change (assertEnd >>= fun _ => Pure.pure v) rest ≠ _
    rw [bind_apply, assertEnd]
    split_ifs <;> exact nofun
  | stop => exact Iff.rfl
  | outside => exact Iff.rfl

theorem congr {E' : α → Wire} {N' : α → Prop} (h : Finds d E N) (hN : ∀ v, N v ↔ N' v)
    (hE : ∀ v, N v → E v = E' v) : Finds d E' N' := by
  refine ⟨fun bs v rest => ?_, fun bs => ?_, ?_⟩
  · rw [h.ok, ← hN]
    exact and_congr_right fun hv => by rw [hE v hv]
  · rw [h.stop]
    exact exists_congr fun v => by rw [← hN]; exact and_congr_right fun hv => by rw [hE v hv]
  · obtain ⟨v, hv⟩ := h.exists_value
    exact ⟨v, (hN v).1 hv⟩

theorem pure {v : α} (hN : ∀ a, N a ↔ a = v) : Finds (Pure.pure v) (fun _ => []) N := by
  refine ⟨fun bs a rest => ?_, fun bs => ⟨nofun, fun ⟨_, _, h⟩ => h.elim⟩, v, (hN v).2 rfl⟩
  constructor
  · intro h
    cases h
    exact ⟨(hN v).2 rfl, rfl⟩
  · rintro ⟨ha, rfl⟩
    rw [(hN a).1 ha]
    rfl

/-- Reading on, where the rest of the format may depend on what has been read. -/
theorem bind {f : α → Reader β} {E' : β → Wire} {N' : β → Prop} (fst : β → α) (h : Finds d E N)
    (hN : ∀ b, N' b → N (fst b)) (hf : ∀ a, N a → Finds (f a) E' fun b => fst b = a ∧ N' b) :
    Finds (d >>= f) (fun b => E (fst b) ++ E' b) N' := by
  refine ⟨fun bs b rest => ?_, fun bs => ?_, ?_⟩
  · rw [bind_apply, Wire.passes_append]
    constructor
    · intro hd
      cases hda : d bs with
      | ok a mid =>
        rw [hda] at hd
        obtain ⟨ha, hpass⟩ := (h.ok bs a mid).1 hda
        obtain ⟨⟨rfl, hb⟩, hpass'⟩ := ((hf a ha).ok mid b rest).1 hd
        exact ⟨hb, mid, hpass, hpass'⟩
      | stop =>
        rw [hda] at hd
        cases hd
      | outside =>
        rw [hda] at hd
        cases hd
    · rintro ⟨hb, mid, hpass, hpass'⟩
      rw [(h.ok bs (fst b) mid).2 ⟨hN b hb, hpass⟩]
      exact ((hf _ (hN b hb)).ok mid b rest).2 ⟨⟨rfl, hb⟩, hpass'⟩
  · simp only [bind_apply, Wire.halts_append]
    constructor
    · intro hd
      cases hda : d bs with
      | ok a mid =>
        rw [hda] at hd
        obtain ⟨ha, hpass⟩ := (h.ok bs a mid).1 hda
        obtain ⟨b, ⟨rfl, hb⟩, hhalt⟩ := ((hf a ha).stop mid).1 hd
        exact ⟨b, hb, .inr ⟨mid, hpass, hhalt⟩⟩
      | stop =>
        obtain ⟨a, ha, hhalt⟩ := (h.stop bs).1 hda
        obtain ⟨b, rfl, hb⟩ := (hf a ha).exists_value
        exact ⟨b, hb, .inl hhalt⟩
      | outside =>
        rw [hda] at hd
        cases hd
    · rintro ⟨b, hb, hhalt | ⟨mid, hpass, hhalt⟩⟩
      · rw [(h.stop bs).2 ⟨fst b, hN b hb, hhalt⟩]
      · rw [(h.ok bs (fst b) mid).2 ⟨hN b hb, hpass⟩]
        exact ((hf _ (hN b hb)).stop mid).2 ⟨b, ⟨rfl, hb⟩, hhalt⟩
  · obtain ⟨a, ha⟩ := h.exists_value
    obtain ⟨b, -, hb⟩ := (hf a ha).exists_value
    exact ⟨b, hb⟩

/-- Reading a value as another. -/
theorem map {c : α → β} {E' : β → Wire} {N' : β → Prop} (h : Finds d E N)
    (hN : ∀ b, N' b ↔ ∃ a, N a ∧ b = c a) (hE : ∀ a, N a → E' (c a) = E a) :
    Finds (d >>= fun a => Pure.pure (c a)) E' N' := by
  refine ⟨fun bs b rest => ?_, fun bs => ?_, ?_⟩
  · rw [bind_apply]
    constructor
    · intro hd
      cases hda : d bs with
      | ok a mid =>
        rw [hda] at hd
        cases hd
        obtain ⟨ha, hpass⟩ := (h.ok bs a rest).1 hda
        exact ⟨(hN _).2 ⟨a, ha, rfl⟩, hE a ha ▸ hpass⟩
      | stop =>
        rw [hda] at hd
        cases hd
      | outside =>
        rw [hda] at hd
        cases hd
    · rintro ⟨hb, hpass⟩
      obtain ⟨a, ha, rfl⟩ := (hN b).1 hb
      rw [(h.ok bs a rest).2 ⟨ha, hE a ha ▸ hpass⟩]
      rfl
  · rw [bind_apply]
    constructor
    · intro hd
      cases hda : d bs with
      | ok a mid =>
        rw [hda] at hd
        cases hd
      | stop =>
        obtain ⟨a, ha, hhalt⟩ := (h.stop bs).1 hda
        exact ⟨c a, (hN _).2 ⟨a, ha, rfl⟩, (hE a ha).symm ▸ hhalt⟩
      | outside =>
        rw [hda] at hd
        cases hd
    · rintro ⟨b, hb, hhalt⟩
      obtain ⟨a, ha, rfl⟩ := (hN b).1 hb
      rw [(h.stop bs).2 ⟨a, ha, hE a ha ▸ hhalt⟩]
  · obtain ⟨a, ha⟩ := h.exists_value
    exact ⟨c a, (hN _).2 ⟨a, ha, rfl⟩⟩

/-- Reading a field of any value. -/
theorem field {f : α → Reader β} {E' : β → Wire} {N' : β → Prop} (fst : β → α)
    (h : Finds d E fun _ => True) (hf : ∀ a, Finds (f a) E' fun b => fst b = a ∧ N' b) :
    Finds (d >>= f) (fun b => E (fst b) ++ E' b) N' :=
  h.bind fst (fun _ _ => trivial) fun a _ => hf a

/-- Reading the last field. -/
theorem last {c : α → β} {N' : β → Prop} (fst : β → α) (h : Finds d E N)
    (hN : ∀ b, N' b ↔ N (fst b) ∧ b = c (fst b)) (hfst : ∀ a, fst (c a) = a) :
    Finds (d >>= fun a => Pure.pure (c a)) (fun b => E (fst b)) N' := by
  refine h.map (fun b => ?_) fun a _ => by rw [hfst]
  rw [hN]
  constructor
  · exact fun hb => ⟨fst b, hb.1, hb.2⟩
  · rintro ⟨a, ha, rfl⟩
    rw [hfst]
    exact ⟨ha, rfl⟩

/-- Reading a case of any value. -/
theorem case {c : α → β} {E' : β → Wire} {N' : β → Prop} (h : Finds d E fun _ => True)
    (hN : ∀ b, N' b ↔ ∃ a, b = c a) (hE : ∀ a, E' (c a) = E a) :
    Finds (d >>= fun a => Pure.pure (c a)) E' N' :=
  h.map (fun b => (hN b).trans ⟨fun ⟨a, hb⟩ => ⟨a, trivial, hb⟩, fun ⟨a, _, hb⟩ => ⟨a, hb⟩⟩)
    fun a _ => hE a

theorem octets (n : Nat) : Finds (readOctets n) Wire.ofOctets fun bs => bs.length = n := by
  refine ⟨fun bs v rest => ?_, fun bs => ?_, List.replicate n 0, List.length_replicate⟩
  · rw [Wire.passes_ofOctets, readOctets]
    constructor
    · intro h
      split_ifs at h with hn
      cases h
      exact ⟨List.length_take_of_le hn, (List.take_append_drop n bs).symm⟩
    · rintro ⟨rfl, rfl⟩
      rw [if_pos (by rw [List.length_append]; omega), List.take_left, List.drop_left]
  · constructor
    · intro h
      unfold readOctets at h
      split_ifs at h
    · rintro ⟨v, -, h⟩
      exact absurd h Wire.not_halts_ofOctets

theorem room : Finds assertRoom (fun _ => [.room]) fun _ => True := by
  refine ⟨fun bs v rest => ?_, fun bs => ?_, (), trivial⟩
  · unfold assertRoom
    constructor
    · intro h
      split_ifs at h with hne
      cases h
      exact ⟨trivial, hne, rfl⟩
    · rintro ⟨-, hne, rfl⟩
      exact if_neg hne
  · unfold assertRoom
    constructor
    · intro h
      split_ifs at h with hne
      exact ⟨(), trivial, .inl hne⟩
    · rintro ⟨v, -, h | h⟩
      · exact if_pos h
      · exact h.elim

/-- Reading on behind an assertion that the buffer goes on. -/
theorem afterRoom (h : Finds d E N) :
    Finds (assertRoom >>= fun _ => d) (fun v => .room :: E v) N :=
  Finds.room.bind (fun _ => ()) (fun _ _ => trivial) fun _ _ =>
    h.congr (fun _ => ⟨fun hv => ⟨rfl, hv⟩, And.right⟩) fun _ _ => rfl

theorem unknown (hE : ∀ v, N v → E v = [.unknown]) (hex : ∃ v, N v) :
    Finds (unknownTag : Reader α) E N := by
  refine ⟨fun bs v rest => ⟨nofun, fun ⟨hv, hpass⟩ => ?_⟩, fun bs => ⟨fun _ => ?_, fun _ => rfl⟩,
    hex⟩
  · rw [hE v hv] at hpass
    exact hpass.elim
  · obtain ⟨v, hv⟩ := hex
    exact ⟨v, hv, by rw [hE v hv]; trivial⟩

/-- Reading octets that must have a property. -/
theorem guarded {p : α → Prop} [DecidablePred p] (h : Finds d E N)
    (hE : ∀ v bs, ¬ (E v).Halts bs) (hex : ∃ v, N v ∧ p v) :
    Finds (d >>= fun v => if p v then Pure.pure v else overrun) E fun v => N v ∧ p v := by
  refine ⟨fun bs v rest => ?_, fun bs => ⟨fun hd => ?_, fun ⟨v, _, hhalt⟩ => absurd hhalt (hE v bs)⟩,
    hex⟩
  · rw [bind_apply]
    constructor
    · intro hd
      cases hda : d bs with
      | ok a mid =>
        simp only [hda] at hd
        split_ifs at hd with hp
        · cases hd
          obtain ⟨hv, hpass⟩ := (h.ok bs v rest).1 hda
          exact ⟨⟨hv, hp⟩, hpass⟩
        · cases hd
      | stop =>
        rw [hda] at hd
        cases hd
      | outside =>
        rw [hda] at hd
        cases hd
    · rintro ⟨⟨hv, hp⟩, hpass⟩
      simp only [(h.ok bs v rest).2 ⟨hv, hpass⟩, if_pos hp]
      rfl
  · rw [bind_apply] at hd
    cases hda : d bs with
    | ok a mid =>
      simp only [hda] at hd
      split_ifs at hd
      cases hd
    | stop =>
      obtain ⟨v, -, hhalt⟩ := (h.stop bs).1 hda
      exact absurd hhalt (hE v bs)
    | outside =>
      rw [hda] at hd
      cases hd

theorem many (h : Finds d E N) : ∀ n : Nat,
    Finds (readMany d n) (fun vs => vs.flatMap E) fun vs => vs.length = n ∧ ∀ v ∈ vs, N v
  | 0 => by
    refine Finds.congr (Finds.pure fun vs => ?_) (fun _ => Iff.rfl) fun vs hvs => ?_
    · exact ⟨fun h => List.length_eq_zero_iff.1 h.1, fun h => h ▸ ⟨rfl, fun _ h => nomatch h⟩⟩
    · rw [List.length_eq_zero_iff.1 hvs.1]
      rfl
  | n + 1 => by
    obtain ⟨v₀, hv₀⟩ := h.exists_value
    have htail : ∀ a, N a → Finds (do let vs ← readMany d n; return a :: vs)
        (fun vs => vs.tail.flatMap E)
        fun vs => vs.headD v₀ = a ∧ vs.length = n + 1 ∧ ∀ v ∈ vs, N v := by
      intro a ha
      refine (many h n).map (fun vs => ?_) fun vs _ => rfl
      constructor
      · rintro ⟨rfl, hlen, hvs⟩
        cases vs with
        | nil => cases hlen
        | cons v vs =>
          exact ⟨vs, ⟨Nat.succ.inj hlen, fun x hx => hvs x (List.mem_cons_of_mem _ hx)⟩, rfl⟩
      · rintro ⟨ws, ⟨hlen, hws⟩, rfl⟩
        refine ⟨rfl, by rw [List.length_cons, hlen], ?_⟩
        rintro v (_ | ⟨_, hv⟩)
        · exact ha
        · exact hws v hv
    refine (h.bind (fun vs : List α => vs.headD v₀) ?_ htail).congr (fun _ => Iff.rfl) ?_
    · rintro (_ | ⟨v, vs⟩) ⟨hlen, hvs⟩
      · cases hlen
      · exact hvs v List.mem_cons_self
    · rintro (_ | ⟨v, vs⟩) ⟨hlen, -⟩
      · cases hlen
      · rfl

end Finds

/-! ## Words and arrays -/

/-- The `n` octets of a number, the low one first. -/
def leOctets : Nat → Nat → List UInt8
  | 0, _ => []
  | n + 1, k => UInt8.ofNat k :: leOctets n (k / 256)

/-- The number of octets, the low one first. -/
def ofLeOctets : List UInt8 → Nat
  | [] => 0
  | b :: bs => b.toNat + 256 * ofLeOctets bs

theorem length_leOctets : ∀ n k : Nat, (leOctets n k).length = n
  | 0, _ => rfl
  | n + 1, k => congrArg Nat.succ (length_leOctets n (k / 256))

theorem ofLeOctets_leOctets : ∀ n k : Nat, k < 256 ^ n → ofLeOctets (leOctets n k) = k
  | 0, k, h => (Nat.lt_one_iff.1 h).symm
  | n + 1, k, h => by
    have hdiv : k / 256 < 256 ^ n := by
      rw [Nat.pow_succ] at h
      omega
    rw [leOctets, ofLeOctets, ofLeOctets_leOctets n _ hdiv, UInt8.toNat_ofNat']
    omega

theorem leOctets_ofLeOctets : ∀ bs : List UInt8, leOctets bs.length (ofLeOctets bs) = bs
  | [] => rfl
  | b :: bs => by
    have hb : b.toNat < 256 := b.toNat_lt
    rw [ofLeOctets, List.length_cons, leOctets, Nat.add_mul_div_left _ _ (by decide),
      Nat.div_eq_of_lt hb, Nat.zero_add, leOctets_ofLeOctets bs]
    refine congrArg (· :: bs) (UInt8.toNat_inj.1 ?_)
    rw [UInt8.toNat_ofNat']
    omega

theorem ofLeOctets_lt : ∀ bs : List UInt8, ofLeOctets bs < 256 ^ bs.length
  | [] => Nat.one_pos
  | b :: bs => by
    have hb : b.toNat < 256 := b.toNat_lt
    have ih := ofLeOctets_lt bs
    rw [ofLeOctets, List.length_cons, Nat.pow_succ]
    omega

/-- The format of a word of `n` octets. -/
def wordWire (n k : Nat) : Wire :=
  .ofOctets (leOctets n k)

/-- Words of a type with `256 ^ n` values. -/
theorem Finds.word {n : Nat} {c : Nat → α} {toNat : α → Nat} (hlt : ∀ a, toNat a < 256 ^ n)
    (hc : ∀ a, c (toNat a) = a) (htoNat : ∀ k < 256 ^ n, toNat (c k) = k) :
    Finds (readOctets n >>= fun bs => Pure.pure (c (ofLeOctets bs)))
      (fun a => wordWire n (toNat a)) fun _ => True := by
  refine (Finds.octets n).map (fun a => ?_) fun bs hbs => ?_
  · refine iff_of_true trivial ⟨leOctets n (toNat a), length_leOctets _ _, ?_⟩
    rw [ofLeOctets_leOctets n _ (hlt a), hc]
  · subst hbs
    rw [wordWire, htoNat _ (ofLeOctets_lt bs), leOctets_ofLeOctets]

/-- Read a `uint8_t`. -/
def readU8 : Reader UInt8 := do
  let bs ← readOctets 1
  return .ofNat (ofLeOctets bs)

/-- Read a `uint16_t`. -/
def readU16 : Reader UInt16 := do
  let bs ← readOctets 2
  return .ofNat (ofLeOctets bs)

/-- Read a `uint32_t`. -/
def readU32 : Reader UInt32 := do
  let bs ← readOctets 4
  return .ofNat (ofLeOctets bs)

/-- Read a `uint64_t`. -/
def readU64 : Reader UInt64 := do
  let bs ← readOctets 8
  return .ofNat (ofLeOctets bs)

/-- The format of a `uint8_t`. -/
def u8Wire (x : UInt8) : Wire :=
  wordWire 1 x.toNat

/-- The format of a `uint16_t`. -/
def u16Wire (x : UInt16) : Wire :=
  wordWire 2 x.toNat

/-- The format of a `uint32_t`. -/
def u32Wire (x : UInt32) : Wire :=
  wordWire 4 x.toNat

/-- The format of a `uint64_t`. -/
def u64Wire (x : UInt64) : Wire :=
  wordWire 8 x.toNat

theorem Finds.u8 : Finds readU8 u8Wire fun _ => True :=
  .word (fun x => x.toNat_lt) (fun _ => UInt8.ofNat_toNat) fun _ h => UInt8.toNat_ofNat_of_lt' h

theorem Finds.u16 : Finds readU16 u16Wire fun _ => True :=
  .word (fun x => x.toNat_lt) (fun _ => UInt16.ofNat_toNat) fun _ h => UInt16.toNat_ofNat_of_lt' h

theorem Finds.u32 : Finds readU32 u32Wire fun _ => True :=
  .word (fun x => x.toNat_lt) (fun _ => UInt32.ofNat_toNat) fun _ h => UInt32.toNat_ofNat_of_lt' h

theorem Finds.u64 : Finds readU64 u64Wire fun _ => True :=
  .word (fun x => x.toNat_lt) (fun _ => UInt64.ofNat_toNat) fun _ h => UInt64.toNat_ofNat_of_lt' h

/-- Reading what is behind a tag. -/
theorem Finds.tagged {f : UInt32 → Reader α} {E : α → Wire} {N : α → Prop} (tag : α → UInt32)
    (hE : ∀ v, u32Wire (tag v) <+: E v)
    (hf : ∀ t, Finds (f t) (fun v => (E v).drop 4) fun v => tag v = t ∧ N v) :
    Finds (readU32 >>= f) E N := by
  refine (Finds.u32.field tag hf).congr (fun _ => Iff.rfl) fun v _ => ?_
  obtain ⟨w, hw⟩ := hE v
  rw [← hw]
  rfl

/-- An array whose length is a `uint32_t`. -/
structure WireArray (α : Type) where
  contents : List α
  length_lt : contents.length < 2 ^ 32
deriving DecidableEq, Repr

namespace WireArray

/-- The length field. -/
def len (a : WireArray α) : UInt32 :=
  .ofNat a.contents.length

theorem toNat_len (a : WireArray α) : a.len.toNat = a.contents.length :=
  UInt32.toNat_ofNat_of_lt' a.length_lt

/-- The array of what has been read. A length field is never too large. -/
def ofList (vs : List α) : WireArray α :=
  if h : vs.length < 2 ^ 32 then ⟨vs, h⟩ else ⟨[], Nat.two_pow_pos 32⟩

instance : Inhabited (WireArray α) :=
  ⟨⟨[], Nat.two_pow_pos 32⟩⟩

end WireArray

/-- Read an array behind its length. -/
def readArray (d : Reader α) : Reader (WireArray α) := do
  let len ← readU32
  let contents ← readMany d len.toNat
  return .ofList contents

/-- The format of an array behind its length. -/
def arrayWire (E : α → Wire) (a : WireArray α) : Wire :=
  u32Wire a.len ++ a.contents.flatMap E

/-- Reading as many values as a length field has said. -/
theorem Finds.contents {d : Reader α} {E : α → Wire} {N : α → Prop} (h : Finds d E N)
    (len : UInt32) :
    Finds (readMany d len.toNat >>= fun contents => Pure.pure (WireArray.ofList contents))
      (fun a => a.contents.flatMap E) fun a => a.len = len ∧ ∀ v ∈ a.contents, N v := by
  refine (h.many len.toNat).map (fun a => ?_) fun vs hvs => ?_
  · constructor
    · rintro ⟨rfl, ha⟩
      exact ⟨a.contents, ⟨a.toNat_len.symm, ha⟩, by rw [WireArray.ofList, dif_pos a.length_lt]⟩
    · rintro ⟨vs, ⟨hlen, hvs⟩, rfl⟩
      have hlt : vs.length < 2 ^ 32 := hlen ▸ len.toNat_lt
      rw [WireArray.ofList, dif_pos hlt]
      exact ⟨by rw [WireArray.len, hlen, UInt32.ofNat_toNat], hvs⟩
  · rw [WireArray.ofList, dif_pos (hvs.1 ▸ len.toNat_lt)]

theorem Finds.array {d : Reader α} {E : α → Wire} {N : α → Prop} (h : Finds d E N) :
    Finds (readArray d) (arrayWire E) fun a => ∀ v ∈ a.contents, N v :=
  Finds.u32.field WireArray.len h.contents

/-- An array of any values. -/
theorem Finds.arrayOf {d : Reader α} {E : α → Wire} (h : Finds d E fun _ => True) :
    Finds (readArray d) (arrayWire E) fun _ => True :=
  h.array.congr (fun _ => iff_of_true (fun _ _ => trivial) trivial) fun _ _ => rfl

/-! ## Writing -/

namespace Wire

/-- What the code writes into a buffer of `sz` octets from `pos` on. It checks that the buffer goes
on where the format says so, and that it ends with the format. -/
def writeFrom (sz : Nat) : Nat → Wire → Option (List UInt8)
  | pos, [] => if pos = sz then some [] else none
  | pos, .octet b :: w => if pos < sz then (writeFrom sz (pos + 1) w).map (b :: ·) else none
  | pos, .room :: w => if pos < sz then writeFrom sz pos w else none
  | _, .unknown :: _ => none

/-- The octets go on where the format says so. -/
def GoesOn : Wire → Prop
  | [] => True
  | .octet _ :: w => GoesOn w
  | .room :: w => octets w ≠ [] ∧ GoesOn w
  | .unknown :: w => GoesOn w

/-- No tag is unknown. -/
def Known (w : Wire) : Prop :=
  .unknown ∉ w

@[simp] theorem octets_append (w w' : Wire) : octets (w ++ w') = octets w ++ octets w' := by
  induction w with
  | nil => rfl
  | cons item w ih =>
    cases item with
    | octet b => exact congrArg (b :: ·) ih
    | room => exact ih
    | unknown => exact ih

@[simp] theorem octets_ofOctets (bs : List UInt8) : octets (ofOctets bs) = bs := by
  induction bs with
  | nil => rfl
  | cons b bs ih => exact congrArg (b :: ·) ih

theorem writeFrom_eq {sz : Nat} : ∀ {w : Wire} {pos : Nat}, w.Known → w.GoesOn →
    pos + w.octets.length = sz → writeFrom sz pos w = some w.octets
  | [], pos, _, _, h => if_pos h
  | .octet b :: w, pos, hknown, hgoes, h => by
    rw [octets, List.length_cons] at h
    rw [writeFrom, if_pos (by omega), writeFrom_eq (fun hw => hknown (.tail _ hw)) hgoes (by omega)]
    rfl
  | .room :: w, pos, hknown, hgoes, h => by
    have hpos := List.length_pos_iff.2 hgoes.1
    rw [octets] at h
    rw [writeFrom, if_pos (by omega), writeFrom_eq (fun hw => hknown (.tail _ hw)) hgoes.2 h]
    rfl
  | .unknown :: w, pos, hknown, _, _ => absurd List.mem_cons_self hknown

/-- What is written is of the format. -/
theorem passes_octets : ∀ {w : Wire} {rest : List UInt8}, w.Known → w.GoesOn →
    w.Passes (w.octets ++ rest) rest
  | [], _, _, _ => rfl
  | .octet _ :: w, _, hknown, hgoes =>
    ⟨_, rfl, passes_octets (fun hw => hknown (.tail _ hw)) hgoes⟩
  | .room :: w, _, hknown, hgoes => by
    refine ⟨?_, passes_octets (fun hw => hknown (.tail _ hw)) hgoes.2⟩
    exact fun h => hgoes.1 (List.append_eq_nil_iff.1 h).1
  | .unknown :: _, _, hknown, _ => absurd List.mem_cons_self hknown

theorem GoesOn.append {w w' : Wire} (hw : w.GoesOn) (hw' : w'.GoesOn) : (w ++ w').GoesOn := by
  induction w with
  | nil => exact hw'
  | cons item w ih =>
    cases item with
    | octet b => exact ih hw
    | room =>
      refine ⟨?_, ih hw.2⟩
      change octets (w ++ w') ≠ []
      rw [octets_append]
      exact fun h => hw.1 (List.append_eq_nil_iff.1 h).1
    | unknown => exact ih hw

/-- Before octets there is always room. -/
theorem GoesOn.of_octets {w w' : Wire} (hw' : w'.GoesOn) (hne : w'.octets ≠ []) :
    (w ++ w').GoesOn := by
  induction w with
  | nil => exact hw'
  | cons item w ih =>
    cases item with
    | octet b => exact ih
    | room =>
      refine ⟨?_, ih⟩
      change octets (w ++ w') ≠ []
      rw [octets_append]
      exact fun h => hne (List.append_eq_nil_iff.1 h).2
    | unknown => exact ih

theorem GoesOn.ofOctets (bs : List UInt8) : (ofOctets bs).GoesOn := by
  induction bs with
  | nil => trivial
  | cons b bs ih => exact ih

theorem GoesOn.flatMap {E : α → Wire} : ∀ {vs : List α}, (∀ v ∈ vs, (E v).GoesOn) →
    GoesOn (vs.flatMap E)
  | [], _ => trivial
  | v :: vs, h => by
    rw [List.flatMap_cons]
    exact (h v List.mem_cons_self).append (GoesOn.flatMap fun x hx => h x (List.mem_cons_of_mem _ hx))

theorem known_append {w w' : Wire} : (w ++ w').Known ↔ w.Known ∧ w'.Known := by
  unfold Known
  rw [List.mem_append, not_or]

theorem known_ofOctets (bs : List UInt8) : (ofOctets bs).Known := fun h => by
  obtain ⟨b, -, hb⟩ := List.mem_map.1 h
  cases hb

theorem known_flatMap {E : α → Wire} {vs : List α} :
    Known (vs.flatMap E) ↔ ∀ v ∈ vs, (E v).Known := by
  unfold Known
  rw [List.mem_flatMap, not_exists]
  exact forall_congr' fun v => not_and

/-- The format for a reader that does not check that the buffer goes on. -/
def dropRooms (w : Wire) : Wire :=
  w.filter (· ≠ .room)

@[simp] theorem dropRooms_append (w w' : Wire) :
    dropRooms (w ++ w') = dropRooms w ++ dropRooms w' :=
  List.filter_append _ _

@[simp] theorem dropRooms_ofOctets (bs : List UInt8) : dropRooms (ofOctets bs) = ofOctets bs :=
  List.filter_eq_self.2 fun item h => by
    obtain ⟨b, -, rfl⟩ := List.mem_map.1 h
    rfl

@[simp] theorem dropRooms_flatMap (E : α → Wire) (vs : List α) :
    dropRooms (vs.flatMap E) = vs.flatMap fun v => dropRooms (E v) := by
  induction vs with
  | nil => rfl
  | cons v vs ih => rw [List.flatMap_cons, List.flatMap_cons, dropRooms_append, ih]

theorem octets_dropRooms (w : Wire) : octets (dropRooms w) = octets w := by
  induction w with
  | nil => rfl
  | cons item w ih =>
    cases item with
    | octet b => exact congrArg (b :: ·) ih
    | room => exact ih
    | unknown => exact ih

theorem Known.dropRooms {w : Wire} (h : w.Known) : w.dropRooms.Known := fun hw =>
  h (List.mem_of_mem_filter hw)

theorem goesOn_dropRooms (w : Wire) : w.dropRooms.GoesOn := by
  induction w with
  | nil => trivial
  | cons item w ih =>
    cases item with
    | octet b => exact ih
    | room => exact ih
    | unknown => exact ih

@[simp] theorem length_octets_wordWire (n k : Nat) : (wordWire n k).octets.length = n := by
  rw [wordWire, octets_ofOctets, length_leOctets]

@[simp] theorem length_octets_u8Wire (x : UInt8) : (u8Wire x).octets.length = 1 :=
  length_octets_wordWire _ _

@[simp] theorem length_octets_u16Wire (x : UInt16) : (u16Wire x).octets.length = 2 :=
  length_octets_wordWire _ _

@[simp] theorem length_octets_u32Wire (x : UInt32) : (u32Wire x).octets.length = 4 :=
  length_octets_wordWire _ _

@[simp] theorem length_octets_u64Wire (x : UInt64) : (u64Wire x).octets.length = 8 :=
  length_octets_wordWire _ _

@[simp] theorem dropRooms_wordWire (n k : Nat) : (wordWire n k).dropRooms = wordWire n k :=
  dropRooms_ofOctets _

@[simp] theorem dropRooms_u8Wire (x : UInt8) : (u8Wire x).dropRooms = u8Wire x :=
  dropRooms_wordWire _ _

@[simp] theorem dropRooms_u16Wire (x : UInt16) : (u16Wire x).dropRooms = u16Wire x :=
  dropRooms_wordWire _ _

@[simp] theorem dropRooms_u32Wire (x : UInt32) : (u32Wire x).dropRooms = u32Wire x :=
  dropRooms_wordWire _ _

theorem u32Wire_prefix_dropRooms (x : UInt32) (w : Wire) :
    u32Wire x <+: (u32Wire x ++ w).dropRooms :=
  ⟨dropRooms w, by rw [dropRooms_append, dropRooms_u32Wire]⟩

@[simp] theorem dropRooms_u64Wire (x : UInt64) : (u64Wire x).dropRooms = u64Wire x :=
  dropRooms_wordWire _ _

@[simp] theorem dropRooms_room (w : Wire) : dropRooms (.room :: w) = dropRooms w :=
  rfl

@[simp] theorem dropRooms_unknown : dropRooms [.unknown] = [.unknown] :=
  rfl

@[simp] theorem dropRooms_arrayWire (E : α → Wire) (a : WireArray α) :
    (arrayWire E a).dropRooms = arrayWire (fun v => (E v).dropRooms) a := by
  rw [arrayWire, dropRooms_append, dropRooms_u32Wire, dropRooms_flatMap, arrayWire]

theorem goesOn_wordWire (n k : Nat) : (wordWire n k).GoesOn :=
  .ofOctets _

/-- Before a word there is room. -/
theorem GoesOn.room_word {n k : Nat} {w : Wire} (hw : w.GoesOn) :
    GoesOn (.room :: (wordWire (n + 1) k ++ w)) := by
  refine ⟨fun h => ?_, (goesOn_wordWire (n + 1) k).append hw⟩
  have hlen := congrArg List.length h
  rw [octets_append, List.length_append, length_octets_wordWire, List.length_nil] at hlen
  omega

theorem GoesOn.array {E : α → Wire} {a : WireArray α} (h : ∀ v ∈ a.contents, (E v).GoesOn) :
    (arrayWire E a).GoesOn :=
  (goesOn_wordWire 4 _).append (GoesOn.flatMap h)

/-- The format has `n` octets, and no unknown tag. -/
structure Sized (n : Nat) (w : Wire) : Prop where
  length : w.octets.length = n
  known : w.Known

namespace Sized

variable {n m : Nat} {w w' : Wire}

theorem of_eq (h : Sized n w) (hnm : n = m) : Sized m w :=
  hnm ▸ h

theorem nil : Sized 0 [] :=
  ⟨rfl, fun h => nomatch h⟩

theorem append (h : Sized n w) (h' : Sized m w') : Sized (n + m) (w ++ w') :=
  ⟨by rw [octets_append, List.length_append, h.length, h'.length],
    known_append.2 ⟨h.known, h'.known⟩⟩

theorem room (h : Sized n w) : Sized n (.room :: w) :=
  ⟨h.length, fun hw => h.known (by cases hw; assumption)⟩

theorem ofOctets (bs : List UInt8) : Sized bs.length (Wire.ofOctets bs) :=
  ⟨by rw [octets_ofOctets], known_ofOctets bs⟩

theorem word (n k : Nat) : Sized n (wordWire n k) :=
  ⟨length_octets_wordWire n k, known_ofOctets _⟩

theorem u16 (x : UInt16) : Sized 2 (u16Wire x) :=
  word _ _

theorem u32 (x : UInt32) : Sized 4 (u32Wire x) :=
  word _ _

theorem u64 (x : UInt64) : Sized 8 (u64Wire x) :=
  word _ _

theorem flatMap {E : α → Wire} {sz : α → Nat} : ∀ {vs : List α},
    (∀ v ∈ vs, Sized (sz v) (E v)) → Sized (vs.map sz).sum (vs.flatMap E)
  | [], _ => nil
  | v :: vs, h => by
    rw [List.flatMap_cons, List.map_cons, List.sum_cons]
    exact (h v List.mem_cons_self).append (flatMap fun x hx => h x (List.mem_cons_of_mem _ hx))

theorem array {E : α → Wire} {sz : α → Nat} {a : WireArray α}
    (h : ∀ v ∈ a.contents, Sized (sz v) (E v)) :
    Sized (4 + (a.contents.map sz).sum) (arrayWire E a) :=
  (u32 a.len).append (flatMap h)

/-- An array of words. -/
theorem words {n : Nat} {toNat : α → Nat} (a : WireArray α) :
    Sized (4 + a.contents.length * n) (arrayWire (fun x => wordWire n (toNat x)) a) :=
  (array fun _ _ => word n _).of_eq (by rw [List.map_const', List.sum_replicate, smul_eq_mul])

/-- A buffer of the size takes the octets, where they go on. -/
theorem write (h : Sized n w) (hgoes : w.GoesOn) : writeFrom n 0 w = some w.octets :=
  writeFrom_eq h.known hgoes (by rw [Nat.zero_add, h.length])

end Sized

end Wire

/-- A value comes back from its encoding, which has the size computed beforehand. -/
def RoundTrips (cal : α → Option Nat) (enc : α → Option (List UInt8)) (dec : Reader α) (v : α) :
    Prop :=
  ∃ bs, enc v = some bs ∧ cal v = some bs.length ∧ dec bs = .ok v []

theorem Finds.round_trip {d : Reader α} {E : α → Wire} {N : α → Prop} {v : α} (h : Finds d E N)
    (hv : N v) (hknown : (E v).Known) (hgoes : (E v).GoesOn) :
    (do let v ← d; assertEnd; return v : Reader α) (E v).octets = .ok v [] := by
  refine (h.end_ok_iff _ _ _).2 ⟨hv, ?_, rfl⟩
  have hpass : (E v).Passes ((E v).octets ++ []) [] := Wire.passes_octets hknown hgoes
  rwa [List.append_nil] at hpass

/-- Nothing but the values with `N` is found. -/
theorem Finds.of_round_trip {cal : α → Option Nat} {enc : α → Option (List UInt8)} {d : Reader α}
    {E : α → Wire} {N : α → Prop} {v : α} (h : Finds d E N)
    (hv : RoundTrips cal enc (do let v ← d; assertEnd; return v) v) : N v := by
  obtain ⟨bs, -, -, hdec⟩ := hv
  exact ((h.end_ok_iff _ _ _).1 hdec).1

end NrStack
