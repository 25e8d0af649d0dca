import NrStack.Library.Bits
import NrStack.Library.Insert

/-!
# Received segments and the PDU bit coder

The data structures of `nr_rlc_pdu.c`. A list of received segments is a Lean list : the
`next` pointers are its order. `NrRlcPduDecoder` reads a buffer bit by bit and stops at
its end, `NrRlcPduEncoder` writes one.

The two are related to bit strings here, once : the decoder reads the front of
`NrRlcPduDecoder.rest` (`getBits_eq`), the encoder appends to `NrRlcPduEncoder.written`
(`written_putBits`). No later proof looks at positions in a byte.
-/

namespace NrStack

/-- `nr_rlc_pdu_t`. `data` is `none` once the segment has been processed (`NULL`). -/
structure NrRlcPdu where
  sn : Int
  /-- SDU bytes only, no PDU header. -/
  data : Option (List UInt8)
  size : Int
  so : Int
  isFirst : Bool
  isLast : Bool
deriving DecidableEq, Repr

/-- `nr_rlc_new_pdu`. -/
def nrRlcNewPdu (sn so : Int) (isFirst isLast : Bool) (data : List UInt8) (size : Int) :
    NrRlcPdu :=
  { sn, data := some data, size, so, isFirst, isLast }

/-- `nr_rlc_pdu_list_add`. The order is by `sn`, then by `so`. -/
def nrRlcPduListAdd (snCompare : Int → Int → Int) (list : List NrRlcPdu) (pdu : NrRlcPdu) :
    List NrRlcPdu :=
  insertBefore (fun cur => snCompare cur.sn pdu.sn > 0 ∨ (cur.sn = pdu.sn ∧ cur.so > pdu.so))
    pdu list

/-! ## Decoder -/

/-- `nr_rlc_pdu_decoder_t`. The error flag is the `none` of `getBits`. -/
structure NrRlcPduDecoder where
  /-- Next byte to decode. -/
  byte : Nat
  /-- Next bit in that byte. -/
  bit : Nat
  buffer : List UInt8
deriving DecidableEq, Repr

namespace NrRlcPduDecoder

/-- `nr_rlc_pdu_decoder_init`. -/
def init (buffer : List UInt8) : NrRlcPduDecoder :=
  { byte := 0, bit := 0, buffer }

/-- `get_bit`. -/
def getBit (d : NrRlcPduDecoder) : Option (Bool × NrRlcPduDecoder) :=
  match d.buffer[d.byte]? with
  | none => none
  | some b =>
    let ret := b.toNat.testBit (7 - d.bit)
    if d.bit + 1 = 8 then some (ret, { d with bit := 0, byte := d.byte + 1 })
    else some (ret, { d with bit := d.bit + 1 })

/-- The loop of `nr_rlc_pdu_decoder_get_bits`, with the bits read so far in `ret`. -/
def getBitsFrom (ret : Nat) : Nat → NrRlcPduDecoder → Option (Nat × NrRlcPduDecoder)
  | 0, d => some (ret, d)
  | count + 1, d => d.getBit.bind fun r => getBitsFrom (2 * ret + r.1.toNat) count r.2

/-- `nr_rlc_pdu_decoder_get_bits`. -/
def getBits (d : NrRlcPduDecoder) (count : Nat) : Option (Nat × NrRlcPduDecoder) :=
  getBitsFrom 0 count d

/-- A field that is there only if `present` : 0 if it is not. -/
def getBitsIf (d : NrRlcPduDecoder) (present : Bool) (count : Nat) :
    Option (Nat × NrRlcPduDecoder) :=
  if present then d.getBits count else some (0, d)

/-- The bits not decoded yet. -/
def rest (d : NrRlcPduDecoder) : List Bool :=
  (bitsOf d.buffer).drop (8 * d.byte + d.bit)

/-- The decoder is inside `buffer` with the bits `bs` left. -/
structure Reads (d : NrRlcPduDecoder) (buffer : List UInt8) (bs : List Bool) : Prop where
  buffer_eq : d.buffer = buffer
  bit_lt : d.bit < 8
  rest_eq : d.rest = bs
  pos_add : 8 * d.byte + d.bit + bs.length = 8 * buffer.length

theorem reads_init (buffer : List UInt8) : (init buffer).Reads buffer (bitsOf buffer) :=
  ⟨rfl, by simp [init], by simp [init, rest], by simp [init]⟩

theorem getBit_of_reads {d : NrRlcPduDecoder} {buffer : List UInt8} {b : Bool} {bs : List Bool}
    (h : d.Reads buffer (b :: bs)) : ∃ d', d.getBit = some (b, d') ∧ d'.Reads buffer bs := by
  obtain ⟨rfl, hbit, hrest, hpos⟩ := h
  have hlt : d.byte < d.buffer.length := by simp at hpos; omega
  have hbits : natBits (8 - d.bit) (d.buffer[d.byte]).toNat ++
      bitsOf (d.buffer.drop (d.byte + 1)) = b :: bs := by
    rw [← hrest, rest, drop_bitsOf, List.drop_eq_getElem_cons hlt, bitsOf_cons,
      List.drop_append_of_le_length (by rw [length_natBits]; omega), drop_natBits]
  obtain ⟨k, hk⟩ : ∃ k, 8 - d.bit = k + 1 := ⟨7 - d.bit, by omega⟩
  rw [hk, natBits, List.cons_append, List.cons.injEq] at hbits
  obtain ⟨rfl, hbs⟩ := hbits
  have hk7 : 7 - d.bit = k := by omega
  simp only [List.length_cons] at hpos
  simp only [getBit, List.getElem?_eq_getElem hlt, hk7]
  split_ifs with h8
  · refine ⟨_, rfl, rfl, by simp, ?_, by simp only; omega⟩
    obtain rfl : k = 0 := by omega
    simpa [rest, ← hbs, natBits] using drop_bitsOf d.buffer (d.byte + 1) 0
  · refine ⟨_, rfl, rfl, by simp only; omega, ?_, by simp only; omega⟩
    simp only [rest]
    rw [drop_bitsOf, List.drop_eq_getElem_cons hlt, bitsOf_cons,
      List.drop_append_of_le_length (by rw [length_natBits]; omega), drop_natBits, ← hbs,
      show 8 - (d.bit + 1) = k by omega]

theorem getBit_of_reads_nil {d : NrRlcPduDecoder} {buffer : List UInt8} (h : d.Reads buffer []) :
    d.getBit = none := by
  obtain ⟨rfl, hbit, -, hpos⟩ := h
  have hle : d.buffer.length ≤ d.byte := by simp at hpos; omega
  simp [getBit, List.getElem?_eq_none hle]

theorem getBitsFrom_of_reads {buffer : List UInt8} {cs : List Bool} :
    ∀ {bs : List Bool} {d : NrRlcPduDecoder} (r : Nat), d.Reads buffer (bs ++ cs) →
      ∃ d', getBitsFrom r bs.length d = some (bitsNatFrom r bs, d') ∧ d'.Reads buffer cs
  | [], d, r, h => ⟨d, rfl, h⟩
  | b :: bs, d, r, h => by
    obtain ⟨d₁, hd₁, h₁⟩ := getBit_of_reads h
    obtain ⟨d₂, hd₂, h₂⟩ := getBitsFrom_of_reads (2 * r + b.toNat) h₁
    exact ⟨d₂, by simp [getBitsFrom, hd₁, hd₂, bitsNatFrom], h₂⟩

/-- The next field of a bit string is decoded as the number it spells. -/
theorem getBits_of_reads {d : NrRlcPduDecoder} {buffer : List UInt8} {n : Nat}
    {bs cs : List Bool} (h : d.Reads buffer (bs ++ cs)) (hn : bs.length = n) :
    ∃ d', d.getBits n = some (bitsNat bs, d') ∧ d'.Reads buffer cs :=
  hn ▸ getBitsFrom_of_reads 0 h

theorem getBitsFrom_eq_none {buffer : List UInt8} :
    ∀ {n : Nat} {bs : List Bool} {d : NrRlcPduDecoder} (r : Nat), d.Reads buffer bs →
      bs.length < n → getBitsFrom r n d = none
  | n + 1, [], d, r, h, _ => by simp [getBitsFrom, getBit_of_reads_nil h]
  | n + 1, b :: bs, d, r, h, hlt => by
    obtain ⟨d₁, hd₁, h₁⟩ := getBit_of_reads h
    simp [getBitsFrom, hd₁, getBitsFrom_eq_none _ h₁ (by simpa using hlt)]

/-- What a successful read does : it needed `n` more bits, and took them off the front. -/
theorem getBits_eq_some {d d' : NrRlcPduDecoder} {buffer : List UInt8} {bs : List Bool} {n v : Nat}
    (h : d.Reads buffer bs) (hd : d.getBits n = some (v, d')) :
    n ≤ bs.length ∧ v = bitsNat (bs.take n) ∧ d'.Reads buffer (bs.drop n) := by
  rcases Nat.lt_or_ge bs.length n with hlt | hle
  · simp [getBits, getBitsFrom_eq_none 0 h hlt] at hd
  · rw [← List.take_append_drop n bs] at h
    obtain ⟨d₁, hd₁, h₁⟩ := getBits_of_reads h (List.length_take_of_le hle)
    rw [hd, Option.some.injEq, Prod.mk.injEq] at hd₁
    exact ⟨hle, hd₁.1, hd₁.2 ▸ h₁⟩

/-- A decoded field of `n` bits is below `2 ^ n`. -/
theorem getBits_lt {d d' : NrRlcPduDecoder} {buffer : List UInt8} {bs : List Bool} {n v : Nat}
    (h : d.Reads buffer bs) (hd : d.getBits n = some (v, d')) : v < 2 ^ n := by
  obtain ⟨hle, rfl, -⟩ := getBits_eq_some h hd
  calc bitsNat (bs.take n) < 2 ^ (bs.take n).length := bitsNat_lt _
    _ = 2 ^ n := by rw [List.length_take, Nat.min_eq_left hle]

@[simp] theorem getBitsIf_true (d : NrRlcPduDecoder) (n : Nat) : d.getBitsIf true n = d.getBits n :=
  rfl

@[simp] theorem getBitsIf_false (d : NrRlcPduDecoder) (n : Nat) :
    d.getBitsIf false n = some (0, d) :=
  rfl

theorem getBitsIf_eq_some {d d' : NrRlcPduDecoder} {buffer : List UInt8} {bs : List Bool}
    {b : Bool} {n v : Nat} (h : d.Reads buffer bs) (hd : d.getBitsIf b n = some (v, d')) :
    v < 2 ^ n ∧ ∃ bs', d'.Reads buffer bs' := by
  cases b with
  | true => exact ⟨getBits_lt h hd, _, (getBits_eq_some h hd).2.2⟩
  | false =>
    obtain ⟨rfl, rfl⟩ : 0 = v ∧ d = d' := by simpa using hd
    exact ⟨Nat.two_pow_pos n, bs, h⟩

/-- With whole bytes left the decoder is at a byte boundary. -/
theorem Reads.byte_eq {d : NrRlcPduDecoder} {buffer : List UInt8} {bs : List Bool} {k : Nat}
    (h : d.Reads buffer bs) (hk : bs.length = 8 * k) : d.byte + k = buffer.length := by
  have := h.pos_add
  have := h.bit_lt
  omega

end NrRlcPduDecoder

/-! ## Encoder -/

/-- `nr_rlc_pdu_encoder_t`. The bytes before the next one to encode are complete; the bits
already put into that one are the low `bit` bits of `part`. -/
structure NrRlcPduEncoder where
  buffer : List UInt8
  part : UInt8
  /-- Next bit to encode. -/
  bit : Nat
  size : Int
deriving DecidableEq, Repr

namespace NrRlcPduEncoder

/-- `nr_rlc_pdu_encoder_init`. -/
def init (size : Int) : NrRlcPduEncoder :=
  { buffer := [], part := 0, bit := 0, size }

/-- The next byte to encode. -/
def byte (enc : NrRlcPduEncoder) : Nat :=
  enc.buffer.length

/-- The byte being encoded, shifted left with `bit` put in. -/
def shiftIn (part : UInt8) (bit : Bool) : UInt8 :=
  if bit then (part <<< 1) ||| 1 else part <<< 1

/-- `put_bit`. The source ends the program on a full buffer; callers leave room. -/
def putBit (enc : NrRlcPduEncoder) (bit : Bool) : NrRlcPduEncoder :=
  if enc.bit + 1 = 8 then
    { enc with buffer := enc.buffer ++ [shiftIn enc.part bit], part := 0, bit := 0 }
  else { enc with part := shiftIn enc.part bit, bit := enc.bit + 1 }

/-- `nr_rlc_pdu_encoder_put_bits`. -/
def putBits (enc : NrRlcPduEncoder) (value : Nat) : Nat → NrRlcPduEncoder
  | 0 => enc
  | count + 1 => putBits (enc.putBit (value.testBit count)) value count

/-- The bits written so far. -/
def written (enc : NrRlcPduEncoder) : List Bool :=
  bitsOf enc.buffer ++ natBits enc.bit enc.part.toNat

@[simp] theorem written_init (size : Int) : (init size).written = [] :=
  rfl

theorem putBit_size (enc : NrRlcPduEncoder) (b : Bool) : (enc.putBit b).size = enc.size := by
  unfold putBit
  split_ifs <;> rfl

theorem natBits_toNat_shiftIn (part : UInt8) (b : Bool) {n : Nat} (hn : n < 8) :
    natBits (n + 1) (shiftIn part b).toNat = natBits n part.toNat ++ [b] := by
  have hmod : ∀ i, (part.toNat <<< 1 % 256).testBit i =
      (decide (i < 8) && (decide (1 ≤ i) && part.toNat.testBit (i - 1))) := fun i => by
    rw [show 256 = 2 ^ 8 from rfl, Nat.testBit_mod_two_pow, Nat.testBit_shiftLeft]
  refine natBits_shiftIn ?_ n fun i hi => ?_
  · cases b <;> simp [shiftIn, UInt8.toNat_shiftLeft, hmod, Nat.testBit_or, -Nat.testBit_zero,
      Nat.testBit_one_zero]
  · have hone : Nat.testBit 1 (i + 1) = false := by simp [Nat.testBit_add_one]
    cases b <;>
      simp [shiftIn, UInt8.toNat_shiftLeft, hmod, hone, show i + 1 < 8 by omega]

theorem written_putBit {enc : NrRlcPduEncoder} (h : enc.bit < 8) (b : Bool) :
    (enc.putBit b).written = enc.written ++ [b] ∧ (enc.putBit b).bit < 8 := by
  have hpart := natBits_toNat_shiftIn enc.part b h
  unfold putBit
  split_ifs with h8
  · rw [h8] at hpart
    refine ⟨?_, by simp⟩
    rw [written, written, bitsOf_append, bitsOf_cons, hpart]
    simp only [bitsOf_nil, natBits, List.append_nil, List.append_assoc]
  · refine ⟨?_, by simp only; omega⟩
    simp only [written, hpart, List.append_assoc]

/-- A field is appended to the bits written so far. -/
theorem written_putBits (value : Nat) : ∀ (n : Nat) {enc : NrRlcPduEncoder}, enc.bit < 8 →
    (enc.putBits value n).written = enc.written ++ natBits n value ∧
      (enc.putBits value n).bit < 8 ∧ (enc.putBits value n).size = enc.size
  | 0, enc, h => by simp [putBits, natBits, h]
  | n + 1, enc, h => by
    obtain ⟨hw, hb⟩ := written_putBit h (value.testBit n)
    obtain ⟨hw', hb', hs'⟩ := written_putBits value n hb
    refine ⟨?_, hb', hs'.trans (putBit_size _ _)⟩
    rw [putBits, hw', hw, natBits, List.append_assoc, List.singleton_append]

/-- After whole bytes the buffer holds exactly the bits written. -/
theorem bitsOf_buffer {enc : NrRlcPduEncoder} {k : Nat} (h : enc.bit < 8)
    (hk : enc.written.length = 8 * k) :
    bitsOf enc.buffer = enc.written ∧ enc.buffer.length = k ∧ enc.bit = 0 := by
  have hlen : 8 * enc.buffer.length + enc.bit = 8 * k := by
    rw [← hk, written, List.length_append, length_bitsOf, length_natBits]
  have h0 : enc.bit = 0 := by omega
  exact ⟨by simp [written, h0, natBits], by omega, h0⟩

end NrRlcPduEncoder

/-- The encoder has written the bits `bs`. -/
structure NrRlcPduEncoder.HasWritten (enc : NrRlcPduEncoder) (bs : List Bool) : Prop where
  written_eq : enc.written = bs
  bit_lt : enc.bit < 8

namespace NrRlcPduEncoder.HasWritten

variable {enc : NrRlcPduEncoder} {bs : List Bool}

theorem init (size : Int) : (NrRlcPduEncoder.init size).HasWritten [] :=
  ⟨written_init size, by simp [NrRlcPduEncoder.init]⟩

theorem putBits (h : enc.HasWritten bs) (value n : Nat) :
    (enc.putBits value n).HasWritten (bs ++ natBits n value) := by
  obtain ⟨hw, hb, -⟩ := written_putBits value n h.bit_lt
  exact ⟨by rw [hw, h.written_eq], hb⟩

/-- Whole bytes are in the buffer. -/
theorem buffer_eq (h : enc.HasWritten bs) {k : Nat} (hk : bs.length = 8 * k) :
    bitsOf enc.buffer = bs ∧ enc.buffer.length = k := by
  obtain ⟨hbits, hlen, -⟩ := bitsOf_buffer h.bit_lt (k := k) (by rw [h.written_eq, hk])
  exact ⟨hbits.trans h.written_eq, hlen⟩

theorem length_lt (h : enc.HasWritten bs) : bs.length < 8 * enc.buffer.length + 8 := by
  have hbit := h.bit_lt
  rw [← h.written_eq, written, List.length_append, length_bitsOf, length_natBits]
  omega

end NrRlcPduEncoder.HasWritten

/-! ## SN space -/

/-- The SN space of an entity : the SN length, the modulus and the window size. -/
structure SnSpace (n : Nat) (M W : Int) : Prop where
  length_valid : n = 6 ∨ n = 12 ∨ n = 18
  modulus_eq : M = 2 ^ n
  window_eq : W = M / 2

theorem SnSpace.two_mul_window {n : Nat} {M W : Int} (h : SnSpace n M W) :
    2 * W = M ∧ 32 ≤ W := by
  have hw := h.window_eq
  have hm := h.modulus_eq
  rcases h.length_valid with hl | hl | hl <;> rw [hl] at hm <;> norm_num at hm <;> omega

theorem SnSpace.modulus_pos {n : Nat} {M W : Int} (h : SnSpace n M W) : 0 < M := by
  have := h.two_mul_window
  omega

/-- A value of the SN space. -/
def IsSn (M a : Int) : Prop :=
  0 ≤ a ∧ a < M

theorem SnSpace.isSn_emod {n : Nat} {M W : Int} (h : SnSpace n M W) (a : Int) :
    IsSn M (a % M) :=
  ⟨Int.emod_nonneg _ h.modulus_pos.ne', Int.emod_lt_of_pos _ h.modulus_pos⟩

end NrStack
