import NrStack.Rlc.AmTxAck

/-!
# The two passes over a STATUS PDU

`process_control_pdu` parses a STATUS PDU twice. The first pass tests the error flag of the
decoder after each field and checks the values, the second one trusts the buffer and applies
what it reads. `RawPduDecoder` is the decoder as the source has it, with the flag and with
the bytes of the buffer that have been read as history.

The parse of a NACK is written once (`parseNack`), over what a field is : checked, unchecked,
or the field of `NrRlcPduDecoder`. `Checks` relates the first to the third and `Rereads` the
second, each with one rule for each construct. From there the source's function is
`processControlPdu`, ends, and reads inside the buffer (`runControlPdu_eq`).
-/

namespace NrStack

/-! ## The decoder -/

/-- `nr_rlc_pdu_decoder_t`. -/
structure RawPduDecoder extends NrRlcPduDecoder where
  error : Bool
  /-- History : the bytes of the buffer that have been read. -/
  read : List Nat

namespace RawPduDecoder

/-- `nr_rlc_pdu_decoder_init`. -/
def init (read : List Nat) (buffer : List UInt8) : RawPduDecoder :=
  { NrRlcPduDecoder.init buffer with error := false, read }

/-- `get_bit`. -/
def getBit (d : RawPduDecoder) : Bool × RawPduDecoder :=
  if d.byte ≥ d.buffer.length then (false, { d with error := true })
  else
    let ret := (d.buffer.getD d.byte 0).toNat.testBit (7 - d.bit)
    let d := { d with read := d.read ++ [d.byte] }
    if d.bit + 1 = 8 then (ret, { d with bit := 0, byte := d.byte + 1 })
    else (ret, { d with bit := d.bit + 1 })

/-- The loop of `nr_rlc_pdu_decoder_get_bits`, with the bits read so far in `ret`. -/
def getBitsFrom (ret : Nat) : Nat → RawPduDecoder → Int × RawPduDecoder
  | 0, d => (ret, d)
  | count + 1, d =>
    if d.getBit.2.error then (-1, d.getBit.2)
    else getBitsFrom (2 * ret + d.getBit.1.toNat) count d.getBit.2

/-- `nr_rlc_pdu_decoder_get_bits`. -/
def getBits (d : RawPduDecoder) (count : Nat) : Int × RawPduDecoder :=
  getBitsFrom 0 count d

/-- Nothing has been read outside `buffer`. -/
structure InBuffer (d : RawPduDecoder) (buffer : List UInt8) : Prop where
  buffer_eq : d.buffer = buffer
  read_lt : ∀ i ∈ d.read, i < buffer.length

/-- As `InBuffer`, and no error so far. -/
structure Good (d : RawPduDecoder) (buffer : List UInt8) : Prop extends d.InBuffer buffer where
  error_eq : d.error = false

theorem InBuffer.init {d : RawPduDecoder} {buffer : List UInt8} (h : d.InBuffer buffer) :
    (init d.read buffer).Good buffer :=
  ⟨⟨rfl, h.read_lt⟩, rfl⟩

theorem good_init (buffer : List UInt8) : (init [] buffer).Good buffer :=
  ⟨⟨rfl, by simp [init]⟩, rfl⟩

/-- A bit is read inside the buffer, or the flag is set. -/
theorem getBit_cases {d : RawPduDecoder} {buffer : List UInt8} (h : d.Good buffer) :
    (d.toNrRlcPduDecoder.getBit = none ∧ d.getBit.2.error = true ∧
      d.getBit.2.InBuffer buffer) ∨
    (d.toNrRlcPduDecoder.getBit = some (d.getBit.1, d.getBit.2.toNrRlcPduDecoder) ∧
      d.getBit.2.Good buffer) := by
  obtain ⟨⟨rfl, hread⟩, herr⟩ := h
  rcases Nat.lt_or_ge d.byte d.buffer.length with hlt | hge
  · right
    have hread' : ∀ i ∈ d.read ++ [d.byte], i < d.buffer.length := by
      intro i hi
      rcases List.mem_append.1 hi with hi | hi
      · exact hread i hi
      · rwa [List.mem_singleton.1 hi]
    have hbyte : d.buffer.getD d.byte 0 = d.buffer[d.byte] := by
      simp [List.getD_eq_getElem?_getD, hlt]
    unfold NrRlcPduDecoder.getBit getBit
    rw [if_neg (Nat.not_le.2 hlt), List.getElem?_eq_getElem hlt, hbyte]
    simp only
    split_ifs <;> exact ⟨rfl, ⟨rfl, hread'⟩, herr⟩
  · left
    unfold NrRlcPduDecoder.getBit getBit
    rw [if_pos hge, List.getElem?_eq_none hge]
    exact ⟨rfl, rfl, rfl, hread⟩

theorem getBitsFrom_cases {buffer : List UInt8} : ∀ (count ret : Nat) {d : RawPduDecoder},
    d.Good buffer →
      (NrRlcPduDecoder.getBitsFrom ret count d.toNrRlcPduDecoder = none ∧
        (getBitsFrom ret count d).2.error = true ∧
        (getBitsFrom ret count d).2.InBuffer buffer) ∨
      ∃ v : Nat, NrRlcPduDecoder.getBitsFrom ret count d.toNrRlcPduDecoder =
          some (v, (getBitsFrom ret count d).2.toNrRlcPduDecoder) ∧
        (getBitsFrom ret count d).1 = v ∧ (getBitsFrom ret count d).2.Good buffer
  | 0, ret, d, h => .inr ⟨ret, rfl, rfl, h⟩
  | count + 1, ret, d, h => by
    rcases getBit_cases h with ⟨hnone, herr, hin⟩ | ⟨hsome, hgood⟩
    · refine .inl ⟨by simp [NrRlcPduDecoder.getBitsFrom, hnone], ?_⟩
      rw [getBitsFrom, if_pos herr]
      exact ⟨herr, hin⟩
    · rw [getBitsFrom, if_neg (by simp [hgood.error_eq]), NrRlcPduDecoder.getBitsFrom, hsome]
      exact getBitsFrom_cases count _ hgood

/-- A field is read inside the buffer as `NrRlcPduDecoder` reads it, or the flag is set. -/
theorem Good.getBits_cases {d : RawPduDecoder} {buffer : List UInt8} (h : d.Good buffer)
    (count : Nat) :
    (d.toNrRlcPduDecoder.getBits count = none ∧ (d.getBits count).2.error = true ∧
      (d.getBits count).2.InBuffer buffer) ∨
    ∃ v : Nat, d.toNrRlcPduDecoder.getBits count =
        some (v, (d.getBits count).2.toNrRlcPduDecoder) ∧
      (d.getBits count).1 = v ∧ (d.getBits count).2.Good buffer :=
  getBitsFrom_cases count 0 h

end RawPduDecoder

/-! ## Fields -/

/-- Why a pass stops. -/
inductive ParseFault
  /-- The labels `err` and the `return` of the first pass. -/
  | discard
  /-- The model ran out of fuel. -/
  | outOfFuel
deriving DecidableEq

/-- A pass that does not look at the error flag. -/
abbrev Unchecked := StateM RawPduDecoder

/-- A pass that stops at an error. -/
abbrev Checked := ExceptT ParseFault Unchecked

/-- The parse in terms of `NrRlcPduDecoder`. -/
abbrev Parse := StateT NrRlcPduDecoder Option

/-- `nr_rlc_pdu_decoder_get_bits` on its own. -/
def uncheckedField (count : Nat) : Unchecked Int := fun d =>
  d.getBits count

/-- `nr_rlc_pdu_decoder_get_bits` followed by `R(decoder)`. -/
def checkedField (count : Nat) : Checked Int := fun d =>
  let r := d.getBits count
  (if r.2.error then .error .discard else .ok r.1, r.2)

/-- A field in terms of `NrRlcPduDecoder`. -/
def parseField (count : Nat) : Parse Int := fun d =>
  (d.getBits count).map fun r => (r.1, r.2)

/-- The pass `x` parses as `y` does, inside the buffer, and discards what `y` cannot parse. -/
def Checks (buffer : List UInt8) {α : Type} (x : Checked α) (y : Parse α) : Prop :=
  ∀ d : RawPduDecoder, d.Good buffer →
    (y d.toNrRlcPduDecoder = none ∧ (x d).1 = .error .discard ∧ (x d).2.InBuffer buffer) ∨
    ∃ a, y d.toNrRlcPduDecoder = some (a, (x d).2.toNrRlcPduDecoder) ∧ (x d).1 = .ok a ∧
      (x d).2.Good buffer

/-- The pass `x` reads what `y` has parsed, inside the buffer. -/
def Rereads (buffer : List UInt8) {α : Type} (x : Unchecked α) (y : Parse α) : Prop :=
  ∀ (d : RawPduDecoder) (a : α) (d' : NrRlcPduDecoder), d.Good buffer →
    y d.toNrRlcPduDecoder = some (a, d') →
      (x d).1 = a ∧ (x d).2.toNrRlcPduDecoder = d' ∧ (x d).2.Good buffer

section Rules

variable {buffer : List UInt8} {α β : Type}

theorem Checks.pure (a : α) : Checks buffer (pure a) (pure a) := fun _ h =>
  .inr ⟨a, rfl, rfl, h⟩

theorem Checks.field (count : Nat) : Checks buffer (checkedField count) (parseField count) := by
  intro d h
  rcases h.getBits_cases count with ⟨hnone, herr, hin⟩ | ⟨v, hsome, hv, hgood⟩
  · exact .inl ⟨by simp [parseField, hnone], by simp [checkedField, herr], hin⟩
  · exact .inr ⟨v, by simp [parseField, hsome, checkedField],
      by simp [checkedField, hgood.error_eq, hv], hgood⟩

theorem checked_bind (x : Checked α) (f : α → Checked β) (d : RawPduDecoder) :
    (x >>= f) d = match (x d).1 with
      | .ok a => f a (x d).2
      | .error err => (.error err, (x d).2) := by
  show ExceptT.bindCont f (x d).1 (x d).2 = _
  cases (x d).1 <;> rfl

theorem Checks.bind {x : Checked α} {y : Parse α} {f : α → Checked β} {g : α → Parse β}
    (h : Checks buffer x y) (hf : ∀ a, Checks buffer (f a) (g a)) :
    Checks buffer (x >>= f) (y >>= g) := by
  intro d hd
  have hbind := checked_bind x f d
  have hparse : (y >>= g) d.toNrRlcPduDecoder =
      (y d.toNrRlcPduDecoder).bind fun r => g r.1 r.2 := rfl
  rcases h d hd with ⟨hnone, herr, hin⟩ | ⟨a, hsome, hok, hgood⟩
  · exact .inl ⟨by rw [hparse, hnone]; rfl, by rw [hbind, herr], by rw [hbind, herr]; exact hin⟩
  · rw [hbind, hparse, hok, hsome]
    exact hf a _ hgood

theorem Checks.ite {c : Prop} [Decidable c] {x x' : Checked α} {y y' : Parse α}
    (h : Checks buffer x y) (h' : Checks buffer x' y') :
    Checks buffer (if c then x else x') (if c then y else y') := by
  split_ifs
  · exact h
  · exact h'

theorem Rereads.pure (a : α) : Rereads buffer (pure a) (pure a) := by
  rintro d _ _ h heq
  obtain ⟨rfl, rfl⟩ := Prod.mk.inj (Option.some.inj heq)
  exact ⟨rfl, rfl, h⟩

theorem Rereads.field (count : Nat) :
    Rereads buffer (uncheckedField count) (parseField count) := by
  intro d a d' h heq
  rcases h.getBits_cases count with ⟨hnone, -, -⟩ | ⟨v, hsome, hv, hgood⟩
  · simp [parseField, hnone] at heq
  · rw [parseField, hsome] at heq
    obtain ⟨rfl, rfl⟩ := Prod.mk.inj (Option.some.inj heq)
    exact ⟨hv, rfl, hgood⟩

theorem unchecked_bind (x : Unchecked α) (f : α → Unchecked β) (d : RawPduDecoder) :
    (x >>= f) d = f (x d).1 (x d).2 :=
  rfl

theorem Rereads.bind {x : Unchecked α} {y : Parse α} {f : α → Unchecked β} {g : α → Parse β}
    (h : Rereads buffer x y) (hf : ∀ a, Rereads buffer (f a) (g a)) :
    Rereads buffer (x >>= f) (y >>= g) := by
  intro d b d' hd heq
  have hparse : (y >>= g) d.toNrRlcPduDecoder =
      (y d.toNrRlcPduDecoder).bind fun r => g r.1 r.2 := rfl
  rw [hparse] at heq
  obtain ⟨⟨a, d₁⟩, hy, hg⟩ := Option.bind_eq_some_iff.1 heq
  obtain ⟨rfl, rfl, hgood⟩ := h d a d₁ hd hy
  rw [unchecked_bind]
  exact hf _ _ b d' hgood hg

theorem Rereads.ite {c : Prop} [Decidable c] {x x' : Unchecked α} {y y' : Parse α}
    (h : Rereads buffer x y) (h' : Rereads buffer x' y') :
    Rereads buffer (if c then x else x') (if c then y else y') := by
  split_ifs
  · exact h
  · exact h'

/-- An unchecked field that is there, ahead of the rest of a pass. -/
theorem uncheckedField_bind {f : Int → Unchecked α} {d : RawPduDecoder} {d' : NrRlcPduDecoder}
    {v count : Nat} (hd : d.Good buffer)
    (h : d.toNrRlcPduDecoder.getBits count = some (v, d')) :
    ∃ r : RawPduDecoder, r.Good buffer ∧ r.toNrRlcPduDecoder = d' ∧
      (uncheckedField count >>= f) d = f v r := by
  obtain ⟨hv, hd', hgood⟩ :=
    Rereads.field count d v d' hd (by rw [parseField, h]; rfl)
  refine ⟨_, hgood, hd', ?_⟩
  rw [unchecked_bind, hv]

/-- What the first pass does with a PDU that is parsed as `y` and may be `valid`. -/
def Judges (buffer : List UInt8) (valid : α → Prop) (r : Except ParseFault Unit × RawPduDecoder)
    (y : Option α) : Prop :=
  r.2.InBuffer buffer ∧ ((r.1 = .ok () ∧ ∃ a, y = some a ∧ valid a) ∨
    (r.1 = .error .discard ∧ ∀ a, y = some a → ¬valid a))

theorem Judges.discard {valid : α → Prop} {d : RawPduDecoder} {y : Option α}
    (hd : d.InBuffer buffer) (hno : ∀ a, y = some a → ¬valid a) :
    Judges buffer valid (.error .discard, d) y :=
  ⟨hd, .inr ⟨rfl, hno⟩⟩

/-- A checked field ahead of the rest of the pass. -/
theorem Judges.field {f : Int → Checked Unit} {g : Nat × NrRlcPduDecoder → Option α}
    {valid : α → Prop} {d : RawPduDecoder} (hd : d.Good buffer) (count : Nat)
    (h : ∀ (v : Nat) (d' : RawPduDecoder),
      d.toNrRlcPduDecoder.getBits count = some (v, d'.toNrRlcPduDecoder) → d'.Good buffer →
        Judges buffer valid (f v d') (g (v, d'.toNrRlcPduDecoder))) :
    Judges buffer valid ((checkedField count >>= f) d)
      ((d.toNrRlcPduDecoder.getBits count).bind g) := by
  rw [checked_bind]
  rcases hd.getBits_cases count with ⟨hget, herr, hin⟩ | ⟨v, hget, hv, hgood⟩
  · simp only [checkedField, herr, if_true]
    exact .discard hin (by simp [hget])
  · simp only [checkedField, hgood.error_eq, hv, Bool.false_eq_true, if_false, hget,
      Option.bind_some]
    exact h v _ hget hgood

end Rules

namespace NrRlcPduDecoder

/-- A field of one bit is 0 or 1. -/
theorem getBits_one_lt {d d' : NrRlcPduDecoder} {v : Nat} (h : d.getBits 1 = some (v, d')) :
    v < 2 := by
  obtain ⟨r, -, hr⟩ := Option.bind_eq_some_iff.1 h
  obtain ⟨rfl, -⟩ := Prod.mk.inj (Option.some.inj hr)
  have hbit := Bool.toNat_lt r.1
  omega

/-- A field that may be absent takes no bit back. -/
theorem reads_getBitsIf {d d' : NrRlcPduDecoder} {buffer : List UInt8} {bs : List Bool} {b : Bool}
    {n v : Nat} (h : d.Reads buffer bs) (hd : d.getBitsIf b n = some (v, d')) :
    ∃ bs', d'.Reads buffer bs' ∧ bs'.length ≤ bs.length := by
  cases b with
  | true => exact ⟨_, (getBits_eq_some h hd).2.2, by simp⟩
  | false =>
    obtain ⟨-, rfl⟩ : 0 = v ∧ d = d' := by simpa using hd
    exact ⟨bs, h, le_rfl⟩

end NrRlcPduDecoder

namespace NrRlcEntityAm

variable {e : NrRlcEntityAm} {buffer : List UInt8}

/-! ## One NACK -/

section Parser

variable {m : Type → Type} [Monad m] (e) (field : Nat → m Int)

/-- A field that is there only if `present`. -/
def fieldIf (present : Prop) [Decidable present] (count : Nat) (absent : Int) : m Int :=
  if present then field count else pure absent

/-- The parse of a NACK, with its E1 bit : the same text in both passes. -/
def parseNack : m (Nack × Bool) := do
  let nackSn ← field e.snFieldLength
  let e1 ← field 1
  let e2 ← field 1
  let e3 ← field 1
  let _ ← field (if e.snFieldLength = 18 then 3 else 1)
  let soStart ← fieldIf field (e2 ≠ 0) 16 0
  let soEnd ← fieldIf field (e2 ≠ 0) 16 0xffff
  let range ← fieldIf field (e3 ≠ 0) 8 1
  pure ({ nackSn, soStart, soEnd := if soEnd = 0xffff then -1 else soEnd, range := range.toNat },
    e1 ≠ 0)

end Parser

theorem parseField_bind {α : Type} (count : Nat) (f : Int → Parse α) (d : NrRlcPduDecoder) :
    (parseField count >>= f) d = (d.getBits count).bind fun r => f r.1 r.2 := by
  show ((d.getBits count).map _).bind _ = _
  cases d.getBits count <;> rfl

theorem fieldIf_bind {α : Type} {v : Nat} (f : Int → Parse α) (hv : (v : Int) ≠ 0 ↔ v = 1)
    (count : Nat) (absent : Int) (d : NrRlcPduDecoder) :
    (fieldIf parseField ((v : Int) ≠ 0) count absent >>= f) d =
      (d.getBitsIf (v = 1) count).bind fun r => f (if v = 1 then r.1 else absent) r.2 := by
  unfold fieldIf
  by_cases h : v = 1
  · rw [if_pos (hv.2 h), parseField_bind]
    simp [h]
  · rw [if_neg (mt hv.1 h)]
    simp only [h, decide_false, NrRlcPduDecoder.getBitsIf_false, if_false]
    rfl

theorem checks_parseNack :
    Checks buffer (e.parseNack checkedField) (e.parseNack parseField) :=
  .bind (.field _) fun _ => .bind (.field _) fun _ => .bind (.field _) fun _ =>
    .bind (.field _) fun _ => .bind (.field _) fun _ =>
      .bind (.ite (.field _) (.pure _)) fun _ => .bind (.ite (.field _) (.pure _)) fun _ =>
        .bind (.ite (.field _) (.pure _)) fun _ => .pure _

theorem rereads_parseNack :
    Rereads buffer (e.parseNack uncheckedField) (e.parseNack parseField) :=
  .bind (.field _) fun _ => .bind (.field _) fun _ => .bind (.field _) fun _ =>
    .bind (.field _) fun _ => .bind (.field _) fun _ =>
      .bind (.ite (.field _) (.pure _)) fun _ => .bind (.ite (.field _) (.pure _)) fun _ =>
        .bind (.ite (.field _) (.pure _)) fun _ => .pure _

/-- It is the parse of the model. -/
theorem parseNack_parseField (d : NrRlcPduDecoder) :
    e.parseNack parseField d = (e.decodeNack d).map fun r => ((r.1, r.2.1), r.2.2) := by
  have hone : ∀ {v : Nat} {d d' : NrRlcPduDecoder}, d.getBits 1 = some (v, d') →
      ((v : Int) ≠ 0 ↔ v = 1) := by
    intro v d d' h
    have := NrRlcPduDecoder.getBits_one_lt h
    omega
  unfold parseNack decodeNack
  simp only [parseField_bind, Option.bind_eq_bind, Option.map_bind, Function.comp_def,
    Option.map_some]
  refine Option.bind_congr fun nackSn _ => Option.bind_congr fun e1 h1 =>
    Option.bind_congr fun e2 h2 => Option.bind_congr fun e3 h3 => Option.bind_congr fun _ _ => ?_
  rw [fieldIf_bind _ (hone h2)]
  refine Option.bind_congr fun soStart hstart => ?_
  rw [fieldIf_bind _ (hone h2)]
  refine Option.bind_congr fun soEnd _ => ?_
  rw [fieldIf_bind _ (hone h3)]
  refine Option.bind_congr fun range _ => ?_
  have hstart' : (if e2.1 = 1 then (soStart.1 : Int) else 0) = soStart.1 := by
    split_ifs with h
    · rfl
    · obtain rfl : (0, _) = soStart := by simpa [h] using hstart
      rfl
  have hend : (if (if e2.1 = 1 then (soEnd.1 : Int) else 0xffff) = 0xffff then (-1 : Int)
      else if e2.1 = 1 then soEnd.1 else 0xffff) =
        if e2.1 = 1 ∧ soEnd.1 ≠ 0xffff then (soEnd.1 : Int) else -1 := by
    split_ifs <;> omega
  have hrange : (if e3.1 = 1 then (range.1 : Int) else 1).toNat =
      if e3.1 = 1 then range.1 else 1 := by
    split_ifs <;> simp
  simp only [hstart', hend, hrange, hone h1]
  rfl

/-- A NACK takes bits off the buffer. -/
theorem decodeNack_consumes {d d' : NrRlcPduDecoder} {bs : List Bool} {nack : Nack} {b : Bool}
    (h : d.Reads buffer bs) (hd : e.decodeNack d = some (nack, b, d')) :
    ∃ bs', d'.Reads buffer bs' ∧ bs'.length < bs.length := by
  unfold decodeNack at hd
  simp only [Option.bind_eq_bind, Option.bind_eq_some_iff] at hd
  obtain ⟨⟨_, d₁⟩, h₁, ⟨_, d₂⟩, h₂, ⟨_, d₃⟩, h₃, ⟨_, d₄⟩, h₄, ⟨_, d₅⟩, h₅, ⟨_, d₆⟩, h₆,
    ⟨_, d₇⟩, h₇, ⟨_, d₈⟩, h₈, heq⟩ := hd
  obtain ⟨-, -, hr₁⟩ := NrRlcPduDecoder.getBits_eq_some h h₁
  obtain ⟨hle, -, hr₂⟩ := NrRlcPduDecoder.getBits_eq_some hr₁ h₂
  obtain ⟨-, -, hr₃⟩ := NrRlcPduDecoder.getBits_eq_some hr₂ h₃
  obtain ⟨-, -, hr₄⟩ := NrRlcPduDecoder.getBits_eq_some hr₃ h₄
  obtain ⟨-, -, hr₅⟩ := NrRlcPduDecoder.getBits_eq_some hr₄ h₅
  obtain ⟨bs₆, hr₆, hle₆⟩ := NrRlcPduDecoder.reads_getBitsIf hr₅ h₆
  obtain ⟨bs₇, hr₇, hle₇⟩ := NrRlcPduDecoder.reads_getBitsIf hr₆ h₇
  obtain ⟨bs₈, hr₈, hle₈⟩ := NrRlcPduDecoder.reads_getBitsIf hr₇ h₈
  obtain ⟨-, -, rfl⟩ : _ ∧ _ ∧ d₈ = d' := by simpa using heq
  refine ⟨bs₈, hr₈, ?_⟩
  simp only [List.length_drop] at hle hle₆
  omega

/-! ## The first pass -/

/-- `while (e1)` of the first pass. -/
def validateNacks (e : NrRlcEntityAm) (ackSn : Int) : Nat → Bool → Checked Unit
  | _, false => pure ()
  | 0, true => throw .outOfFuel
  | n + 1, true => do
    let r ← e.parseNack checkedField
    if ∀ p ∈ r.1.pieces e.snModulus, e.validNackPiece none ackSn p then
      validateNacks e ackSn n r.2
    else throw .discard

/-- The first pass. -/
def validatePass (e : NrRlcEntityAm) (fuel : Nat) : Checked Unit := do
  let _ ← checkedField 1
  let cpt ← checkedField 3
  if cpt ≠ 0 then throw .discard
  else do
    let ackSn ← checkedField e.snFieldLength
    let e1 ← checkedField 1
    let _ ← checkedField (if e.snFieldLength = 18 then 1 else 7)
    if e.snCompareTx ackSn e.txNext > 0 then throw .discard
    else e.validateNacks ackSn fuel (e1 ≠ 0)

/-- NACKs that the first pass lets through. -/
def AcceptsNacks (e : NrRlcEntityAm) (ackSn : Int) (nacks : List Nack) : Prop :=
  ∀ p ∈ nacks.flatMap (Nack.pieces e.snModulus), e.validNackPiece none ackSn p

theorem acceptsNacks_cons {ackSn : Int} {nack : Nack} {nacks : List Nack} :
    e.AcceptsNacks ackSn (nack :: nacks) ↔
      (∀ p ∈ nack.pieces e.snModulus, e.validNackPiece none ackSn p) ∧
        e.AcceptsNacks ackSn nacks := by
  unfold AcceptsNacks
  rw [List.flatMap_cons]
  exact List.forall_mem_append

/-- The loop of the first pass ends inside the buffer, and lets through what it can parse and
accepts. -/
theorem validateNacks_judges (ackSn : Int) : ∀ (n : Nat) (b : Bool) {d : RawPduDecoder}
    {bs : List Bool}, d.Good buffer → d.toNrRlcPduDecoder.Reads buffer bs → bs.length < n →
      Judges buffer (e.AcceptsNacks ackSn) (e.validateNacks ackSn n b d)
        (e.decodeNacks n b d.toNrRlcPduDecoder)
  | n, false, d, bs, hd, _, _ => by
    cases n <;> exact ⟨hd.toInBuffer, .inl ⟨rfl, [], rfl, by simp [AcceptsNacks]⟩⟩
  | n + 1, true, d, bs, hd, hr, hlt => by
    rw [validateNacks, checked_bind, decodeNacks]
    rcases checks_parseNack (e := e) d hd with ⟨hnone, herr, hin⟩ | ⟨r, hsome, hok, hgood⟩
    · rw [parseNack_parseField, Option.map_eq_none_iff] at hnone
      simp only [herr, hnone]
      exact .discard hin (by simp)
    · rw [parseNack_parseField] at hsome
      obtain ⟨⟨nack, b', d'⟩, hdec, heq⟩ := Option.map_eq_some_iff.1 hsome
      obtain ⟨rfl, hd'⟩ : (nack, b') = r ∧ d' = _ := Prod.mk.inj heq
      subst hd'
      obtain ⟨bs', hr', hlt'⟩ := decodeNack_consumes hr hdec
      simp only [hok, hdec, Option.bind_some]
      split_ifs with hv
      · obtain ⟨hin, hcases⟩ := validateNacks_judges ackSn n b' hgood hr' (by omega)
        refine ⟨hin, ?_⟩
        rcases hcases with ⟨hres, nacks, hns, hacc⟩ | ⟨hres, hno⟩
        · refine .inl ⟨hres, nack :: nacks, by rw [hns]; rfl, ?_⟩
          exact acceptsNacks_cons.2 ⟨hv, hacc⟩
        · refine .inr ⟨hres, fun nacks hns hacc => ?_⟩
          obtain ⟨rest, hrest, rfl⟩ := Option.map_eq_some_iff.1 hns
          exact hno rest hrest (acceptsNacks_cons.1 hacc).2
      · refine .discard hgood.toInBuffer fun nacks hns hacc => hv ?_
        obtain ⟨rest, -, rfl⟩ := Option.map_eq_some_iff.1 hns
        exact (acceptsNacks_cons.1 hacc).1

/-! ## The second pass -/

/-- `while (e1)` of the second pass; `none` : the model ran out of fuel. -/
def applyNacks (e : NrRlcEntityAm) (ackSn : Int) : Nat → Bool → AckScan →
    Unchecked (Option AckScan)
  | _, false, s => pure (some s)
  | 0, true, _ => pure none
  | n + 1, true, s => do
    let r ← e.parseNack uncheckedField
    applyNacks e ackSn n r.2 (s.processNack ackSn r.1)

/-- What follows the NACKs. -/
def finishControlPdu (ackSn : Int) (s : AckScan) : NrRlcEntityAm :=
  let s := AckScan.finishWait ackSn s.curWait s
  ((AckScan.finishRetransmit ackSn s.curRetransmit s).linkRetransmit.toEntity).updateTxNextAck
    ackSn

/-- The second pass. -/
def applyPass (e : NrRlcEntityAm) (fuel : Nat) : Unchecked (Option NrRlcEntityAm) := do
  let _ ← uncheckedField 1
  let _ ← uncheckedField 3
  let ackSn ← uncheckedField e.snFieldLength
  let e1 ← uncheckedField 1
  let _ ← uncheckedField (if e.snFieldLength = 18 then 1 else 7)
  let s ← e.applyNacks ackSn fuel (e1 ≠ 0)
    (e.stopPollRetransmitIf (e.snCompareTx e.pollSn ackSn < 0)).startScan
  pure (s.map (finishControlPdu ackSn))

/-- `process_control_pdu` with the two passes of the source, after the bytes `read` have been
read. `none` : the model ran out of fuel. -/
def runControlPdu (e : NrRlcEntityAm) (fuel : Nat) (read : List Nat) (buffer : List UInt8) :
    Option NrRlcEntityAm × RawPduDecoder :=
  match e.validatePass fuel (.init read buffer) with
  | (.error .discard, d) => (some e, d)
  | (.error .outOfFuel, d) => (none, d)
  | (.ok (), d) => e.applyPass fuel (.init d.read buffer)

/-- More fuel than bits left makes no difference. -/
theorem decodeNacks_fuel : ∀ (n m : Nat) (b : Bool) {d : NrRlcPduDecoder} {bs : List Bool},
    d.Reads buffer bs → bs.length < n → bs.length < m → e.decodeNacks n b d = e.decodeNacks m b d
  | n, m, false, d, bs, _, _, _ => by cases n <;> cases m <;> rfl
  | n + 1, m + 1, true, d, bs, h, hn, hm => by
    refine Option.bind_congr fun r hr => ?_
    obtain ⟨bs', h', hlt⟩ := decodeNack_consumes h hr
    rw [decodeNacks_fuel n m r.2.1 h' (by omega) (by omega)]

/-- After the header there are bits for the first NACK at most. -/
theorem reads_header {d₁ d₂ d₃ d₄ d₅ : NrRlcPduDecoder} {dc cpt ackSn e1 r n m : Nat}
    (h₁ : (NrRlcPduDecoder.init buffer).getBits 1 = some (dc, d₁))
    (h₂ : d₁.getBits 3 = some (cpt, d₂)) (h₃ : d₂.getBits n = some (ackSn, d₃))
    (h₄ : d₃.getBits 1 = some (e1, d₄)) (h₅ : d₄.getBits m = some (r, d₅)) :
    ∃ bs, d₅.Reads buffer bs ∧ bs.length < 8 * buffer.length := by
  obtain ⟨hle, -, hr₁⟩ := NrRlcPduDecoder.getBits_eq_some (NrRlcPduDecoder.reads_init _) h₁
  obtain ⟨-, -, hr₂⟩ := NrRlcPduDecoder.getBits_eq_some hr₁ h₂
  obtain ⟨-, -, hr₃⟩ := NrRlcPduDecoder.getBits_eq_some hr₂ h₃
  obtain ⟨-, -, hr₄⟩ := NrRlcPduDecoder.getBits_eq_some hr₃ h₄
  obtain ⟨-, -, hr₅⟩ := NrRlcPduDecoder.getBits_eq_some hr₄ h₅
  rw [length_bitsOf] at hle
  refine ⟨_, hr₅, ?_⟩
  simp only [List.length_drop, length_bitsOf]
  omega

/-- The first pass ends inside the buffer. It lets through what the model decodes and finds
valid. -/
theorem validatePass_judges {fuel : Nat} (hfuel : 8 * buffer.length ≤ fuel) {read : List Nat}
    (hread : (RawPduDecoder.init read buffer).Good buffer) :
    Judges buffer e.validControlPdu (e.validatePass fuel (.init read buffer))
      (e.decodeControlPdu buffer) := by
  unfold validatePass decodeControlPdu
  refine .field hread 1 fun dc d₁ h₁ hd₁ => .field hd₁ 3 fun cpt d₂ h₂ hd₂ => ?_
  simp only [ne_eq, Int.natCast_eq_zero]
  by_cases hcpt : cpt = 0
  · simp only [hcpt, not_true_eq_false, if_false]
    refine .field hd₂ _ fun ackSn d₃ h₃ hd₃ => .field hd₃ 1 fun e1 d₄ h₄ hd₄ =>
      .field hd₄ _ fun r d₅ h₅ hd₅ => ?_
    have he1 : decide ((e1 : Int) ≠ 0) = decide (e1 = 1) := by
      have := NrRlcPduDecoder.getBits_one_lt h₄
      exact decide_eq_decide.2 (by omega)
    obtain ⟨bs, hr₅, hlt⟩ := reads_header h₁ h₂ h₃ h₄ h₅
    simp only [he1]
    rw [decodeNacks_fuel (8 * buffer.length) fuel _ hr₅ hlt (by omega)]
    split_ifs with hack
    · refine .discard hd₅.toInBuffer fun pdu hpdu hv => ?_
      obtain ⟨nacks, -, heq⟩ := Option.bind_eq_some_iff.1 hpdu
      obtain rfl := Option.some.inj heq
      exact absurd hv.1 (by simpa using hack)
    · obtain ⟨hin, hcases⟩ := validateNacks_judges (e := e) (ackSn : Int) fuel (e1 = 1) hd₅ hr₅
        (by omega)
      refine ⟨hin, ?_⟩
      rcases hcases with ⟨hres, nacks, hns, hacc⟩ | ⟨hres, hno⟩
      · exact .inl ⟨hres, ⟨ackSn, nacks⟩, by rw [hns]; rfl, by simpa using hack, hacc⟩
      · refine .inr ⟨hres, fun pdu hpdu hv => ?_⟩
        obtain ⟨nacks, hns, heq⟩ := Option.bind_eq_some_iff.1 hpdu
        obtain rfl := Option.some.inj heq
        exact hno nacks hns hv.2
  · simp only [hcpt, not_false_eq_true, if_true]
    exact .discard hd₂.toInBuffer (by simp)

/-- The loop of the second pass applies the NACKs that the first one has parsed. -/
theorem applyNacks_eq (ackSn : Int) {n : Nat} {b : Bool} {s : AckScan} {d : RawPduDecoder}
    {nacks : List Nack} (hd : d.Good buffer)
    (h : e.decodeNacks n b d.toNrRlcPduDecoder = some nacks) :
    (e.applyNacks ackSn n b s d).1 = some (nacks.foldl (fun s n => s.processNack ackSn n) s) ∧
      (e.applyNacks ackSn n b s d).2.InBuffer buffer := by
  induction n generalizing b s d nacks with
  | zero =>
    cases b with
    | false =>
      obtain rfl : [] = nacks := Option.some.inj h
      exact ⟨rfl, hd.toInBuffer⟩
    | true => cases h
  | succ n ih =>
    cases b with
    | false =>
      obtain rfl : [] = nacks := Option.some.inj h
      exact ⟨rfl, hd.toInBuffer⟩
    | true =>
      obtain ⟨⟨nack, b', d'⟩, hdec, hrest⟩ := Option.bind_eq_some_iff.1 h
      obtain ⟨rest, hns, rfl⟩ := Option.map_eq_some_iff.1 hrest
      obtain ⟨hr, hd', hgood⟩ := rereads_parseNack (e := e) d (nack, b') d' hd (by
        rw [parseNack_parseField, hdec]
        rfl)
      subst hd'
      rw [applyNacks, unchecked_bind, hr]
      exact ih hgood hns

/-- The second pass applies what the first one has parsed, inside the buffer. -/
theorem applyPass_eq {fuel : Nat} (hfuel : 8 * buffer.length ≤ fuel) {read : List Nat}
    (hread : (RawPduDecoder.init read buffer).Good buffer) {pdu : ControlPdu}
    (h : e.decodeControlPdu buffer = some pdu) :
    (e.applyPass fuel (.init read buffer)).1 = some (e.applyControlPdu pdu) ∧
      (e.applyPass fuel (.init read buffer)).2.InBuffer buffer := by
  unfold decodeControlPdu at h
  simp only [Option.bind_eq_bind, Option.bind_eq_some_iff] at h
  obtain ⟨⟨dc, d₁⟩, h₁, ⟨cpt, d₂⟩, h₂, h⟩ := h
  split at h
  · cases h
  simp only [Option.bind_eq_some_iff] at h
  obtain ⟨⟨ackSn, d₃⟩, h₃, ⟨e1, d₄⟩, h₄, ⟨r, d₅⟩, h₅, nacks, hns, heq⟩ := h
  obtain rfl := Option.some.inj heq
  have he1 : decide ((e1 : Int) ≠ 0) = decide (e1 = 1) := by
    have := NrRlcPduDecoder.getBits_one_lt h₄
    exact decide_eq_decide.2 (by omega)
  obtain ⟨r₁, hg₁, rfl, hb₁⟩ := uncheckedField_bind hread h₁
  obtain ⟨r₂, hg₂, rfl, hb₂⟩ := uncheckedField_bind hg₁ h₂
  obtain ⟨r₃, hg₃, rfl, hb₃⟩ := uncheckedField_bind hg₂ h₃
  obtain ⟨r₄, hg₄, rfl, hb₄⟩ := uncheckedField_bind hg₃ h₄
  obtain ⟨r₅, hg₅, rfl, hb₅⟩ := uncheckedField_bind hg₄ h₅
  rw [applyPass, hb₁, hb₂, hb₃, hb₄, hb₅, unchecked_bind, he1]
  obtain ⟨bs, hr, hlt⟩ := reads_header h₁ h₂ h₃ h₄ h₅
  rw [decodeNacks_fuel _ fuel _ hr hlt (by omega)] at hns
  obtain ⟨hres, hin⟩ := applyNacks_eq (e := e) (ackSn : Int) (b := decide (e1 = 1))
    (s := (e.stopPollRetransmitIf (e.snCompareTx e.pollSn ackSn < 0)).startScan) hg₅ hns
  rw [hres]
  exact ⟨rfl, hin⟩

/-- `process_control_pdu` ends, is `processControlPdu`, and reads inside the buffer. -/
theorem runControlPdu_eq {fuel : Nat} (hfuel : 8 * buffer.length ≤ fuel) {read : List Nat}
    (hread : ∀ i ∈ read, i < buffer.length) :
    (e.runControlPdu fuel read buffer).1 = some (e.processControlPdu buffer) ∧
      ∀ i ∈ (e.runControlPdu fuel read buffer).2.read, i < buffer.length := by
  have hinit : (RawPduDecoder.init read buffer).Good buffer := ⟨⟨rfl, hread⟩, rfl⟩
  obtain ⟨hin, hcases⟩ := validatePass_judges (e := e) hfuel hinit
  unfold runControlPdu processControlPdu
  rcases hv : e.validatePass fuel (.init read buffer) with ⟨res, d⟩
  rw [hv] at hin hcases
  rcases hcases with ⟨rfl, pdu, hdec, hvalid⟩ | ⟨rfl, hno⟩
  · obtain ⟨happly, hin'⟩ := applyPass_eq (e := e) hfuel hin.init hdec
    simp only [hdec, if_pos hvalid]
    exact ⟨happly, hin'.read_lt⟩
  · refine ⟨?_, hin.read_lt⟩
    cases hdec : e.decodeControlPdu buffer with
    | none => rfl
    | some pdu => simp only [if_neg (hno pdu hdec)]

end NrRlcEntityAm

end NrStack
