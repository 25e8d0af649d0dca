import NrStack.Rlc.ReassemblyData

/-!
# UM data PDUs

What `serialize_sdu` writes is what `nr_rlc_entity_um_recv_pdu` reads : a segment arrives
with its SN, its place in the SDU and its bytes, a whole SDU with its bytes.
-/

namespace NrStack

namespace NrRlcEntityUm

variable {e e' : NrRlcEntityUm} {g : NrRlcSduSegment} {size : Int}

/-! ## Headers as bits -/

/-- The SI : not the first segment, not the last one. -/
def siBits (g : NrRlcSduSegment) : List Bool :=
  natBits 1 (!g.isFirst).toNat ++ natBits 1 (!g.isLast).toNat

/-- The R bits of a 12 bits SN. -/
def reservedBits (n : Nat) : List Bool :=
  if n = 12 then natBits 2 0 else []

/-- The SO, which the first segment does not have. -/
def soBits (g : NrRlcSduSegment) : List Bool :=
  if g.isFirst then [] else natBits 16 g.so.toNat

/-- The header of a segment. -/
def segmentBits (n : Nat) (g : NrRlcSduSegment) : List Bool :=
  siBits g ++ (reservedBits n ++ (natBits n g.sdu.sn.toNat ++ soBits g))

variable (size) in
theorem hasWritten_dataHeader (hwhole : ¬(g.isFirst && g.isLast)) :
    (e.dataHeader g size).HasWritten (segmentBits e.snFieldLength g) := by
  have hsi := ((NrRlcPduEncoder.HasWritten.init size).putBits (!g.isFirst).toNat 1).putBits
    (!g.isLast).toNat 1
  rw [List.nil_append] at hsi
  have hsn : ∀ {enc : NrRlcPduEncoder} {bs : List Bool}, enc.HasWritten bs →
      ((if e.snFieldLength = 12 then enc.putBits 0 2 else enc).putBits g.sdu.sn.toNat
        e.snFieldLength).HasWritten
          (bs ++ reservedBits e.snFieldLength ++ natBits e.snFieldLength g.sdu.sn.toNat) := by
    intro enc bs h
    refine NrRlcPduEncoder.HasWritten.putBits ?_ _ _
    unfold reservedBits
    split_ifs
    · exact h.putBits 0 2
    · rwa [List.append_nil]
  unfold dataHeader segmentBits soBits
  simp only [hwhole, if_false, Bool.false_eq_true]
  cases hf : g.isFirst with
  | true => simpa [hf, siBits] using hsn hsi
  | false => simpa [hf, siBits] using (hsn hsi).putBits g.so.toNat 16

/-- The header of a whole SDU. -/
theorem dataHeader_whole (hwhole : g.isFirst && g.isLast) :
    (e.dataHeader g size).buffer = [0] := by
  obtain ⟨hf, hl⟩ := Bool.and_eq_true_iff.1 hwhole
  unfold dataHeader
  simp only [hf, hl, Bool.and_self, if_true, Bool.not_true, Bool.toNat_false, Bool.false_eq_true,
    if_false]
  rfl

/-- A header takes whole bytes. -/
theorem exists_length_segmentBits {n : Nat} (hn : n = 6 ∨ n = 12) (g : NrRlcSduSegment) :
    ∃ k, (segmentBits n g).length = 8 * k := by
  unfold segmentBits siBits reservedBits soBits
  rcases hn with rfl | rfl
  · cases g.isFirst with
    | true => exact ⟨1, by simp⟩
    | false => exact ⟨3, by simp⟩
  · cases g.isFirst with
    | true => exact ⟨2, by simp⟩
    | false => exact ⟨4, by simp⟩

/-! ## Pieces of an SDU -/

/-- A segment to send is a piece of its SDU. -/
structure IsPiece (g : NrRlcSduSegment) : Prop where
  so_nonneg : 0 ≤ g.so
  end_le : g.so + g.size ≤ g.sdu.data.length
  isFirst_iff : g.isFirst ↔ g.so = 0
  end_eq : g.isLast → g.so + g.size = g.sdu.data.length

/-- A segment that is not a whole SDU as the receiver sees it. -/
def receivedPiece (g : NrRlcSduSegment) : NrRlcPdu :=
  nrRlcNewPdu g.sdu.sn g.so g.isFirst g.isLast
    ((g.sdu.data.drop g.so.toNat).take g.size.toNat) g.size

theorem IsPiece.sliceOf (hg : IsPiece g) (hpos : 0 < g.size) :
    SliceOf g.sdu.data (receivedPiece g) :=
  ⟨hg.so_nonneg, hpos, hg.end_le, rfl⟩

theorem IsPiece.length_data (hg : IsPiece g) (hpos : 0 < g.size) :
    (((g.sdu.data.drop g.so.toNat).take g.size.toNat).length : Int) = g.size := by
  have hnn := hg.so_nonneg
  have hend := hg.end_le
  rw [List.length_take, List.length_drop]
  omega

theorem bitsNat_siBits (g : NrRlcSduSegment) :
    (bitsNat (siBits g)).testBit 1 = !g.isFirst ∧ (bitsNat (siBits g)).testBit 0 = !g.isLast := by
  unfold siBits
  cases g.isFirst <;> cases g.isLast <;> decide

variable (size) in
/-- The PDU of a segment : its header in whole bytes, then its data. -/
theorem exists_serializeSdu (hn : e.snFieldLength = 6 ∨ e.snFieldLength = 12)
    (hwhole : ¬(g.isFirst && g.isLast)) :
    ∃ header, e.serializeSdu g size =
        header ++ (g.sdu.data.drop g.so.toNat).take g.size.toNat ∧
      bitsOf header = segmentBits e.snFieldLength g := by
  obtain ⟨k, hk⟩ := exists_length_segmentBits hn g
  obtain ⟨hbits, -⟩ := (hasWritten_dataHeader (e := e) size hwhole).buffer_eq hk
  exact ⟨_, rfl, hbits⟩

/-- What follows the SI of a segment is read as it was written, in UM and in AM : the R bits,
which are there if `r`, the SN and the SO. The data is left. -/
theorem exists_reads_segment {header payload : List UInt8} {d : NrRlcPduDecoder} {n : Nat}
    {r : Bool} (hg : IsPiece g) (hso : g.sdu.data.length < 2 ^ 16) (hpos : 0 < g.size)
    (hsn : 0 ≤ g.sdu.sn ∧ g.sdu.sn < 2 ^ n)
    (hd : d.Reads (header ++ payload) ((if r then natBits 2 0 else []) ++
      (natBits n g.sdu.sn.toNat ++ (soBits g ++ bitsOf payload)))) :
    ∃ v d₁ d₂ d₃, d.getBitsIf r 2 = some (v, d₁) ∧ d₁.getBits n = some (g.sdu.sn.toNat, d₂) ∧
      d₂.getBitsIf (!g.isFirst) 16 = some (g.so.toNat, d₃) ∧
      d₃.buffer = header ++ payload ∧ d₃.byte = header.length ∧
      ¬((!g.isFirst) = true ∧ g.so.toNat = 0) := by
  have hnn := hg.so_nonneg
  have hend := hg.end_le
  obtain ⟨v, d₁, hr, h₁⟩ : ∃ v d₁, d.getBitsIf r 2 = some (v, d₁) ∧
      d₁.Reads (header ++ payload)
        (natBits n g.sdu.sn.toNat ++ (soBits g ++ bitsOf payload)) := by
    cases r with
    | true =>
      obtain ⟨d₁, hr, h₁⟩ := NrRlcPduDecoder.getBits_of_reads (n := 2) hd (by simp)
      exact ⟨_, d₁, hr, h₁⟩
    | false => exact ⟨0, d, rfl, hd⟩
  obtain ⟨d₂, hsnread, h₂⟩ := NrRlcPduDecoder.getBits_of_reads (n := n) h₁ (by simp)
  rw [bitsNat_natBits ((Int.toNat_lt hsn.1).2 (by exact_mod_cast hsn.2))] at hsnread
  obtain ⟨d₃, hsoread, h₃⟩ : ∃ d₃, d₂.getBitsIf (!g.isFirst) 16 = some (g.so.toNat, d₃) ∧
      d₃.Reads (header ++ payload) (bitsOf payload) := by
    unfold soBits at h₂
    cases hf : g.isFirst with
    | true =>
      have h0 : g.so = 0 := hg.isFirst_iff.1 hf
      exact ⟨d₂, by simp [h0], by simpa [hf] using h₂⟩
    | false =>
      simp only [hf, if_false, Bool.false_eq_true] at h₂
      obtain ⟨d₃, hread, h₃⟩ := NrRlcPduDecoder.getBits_of_reads (n := 16) h₂ (by simp)
      rw [bitsNat_natBits (by omega)] at hread
      exact ⟨d₃, by simpa using hread, h₃⟩
  have hbyte : d₃.byte = header.length := by
    have := h₃.byte_eq (length_bitsOf payload)
    rw [List.length_append] at this
    omega
  refine ⟨v, d₁, d₂, d₃, hr, hsnread, hsoread, h₃.buffer_eq, hbyte, ?_⟩
  -- a segment that is not the first has a positive SO
  rintro ⟨hf, h0⟩
  rw [hg.isFirst_iff.2 (by omega)] at hf
  exact absurd hf (by decide)

/-- The segment that these fields make. -/
theorem nrRlcNewPdu_eq_receivedPiece {payload : List UInt8} (hg : IsPiece g) (hpos : 0 < g.size)
    (hsn : 0 ≤ g.sdu.sn) (hpayload : payload = (g.sdu.data.drop g.so.toNat).take g.size.toNat)
    (header : List UInt8) :
    nrRlcNewPdu g.sdu.sn.toNat g.so.toNat g.isFirst g.isLast payload
      (header.length + payload.length - header.length : Nat) = receivedPiece g := by
  have hlen : (payload.length : Int) = g.size := hpayload ▸ hg.length_data hpos
  rw [receivedPiece, ← hpayload, Int.toNat_of_nonneg hsn, Int.toNat_of_nonneg hg.so_nonneg,
    Nat.add_sub_cancel_left, hlen]

/-- Decoding from the R bits on. -/
theorem decodeSegment_of_reads {header payload : List UInt8} {d : NrRlcPduDecoder}
    (hg : IsPiece g) (hso : g.sdu.data.length < 2 ^ 16) (hpos : 0 < g.size)
    (hsn : 0 ≤ g.sdu.sn ∧ g.sdu.sn < 2 ^ e.snFieldLength)
    (hpayload : payload = (g.sdu.data.drop g.so.toNat).take g.size.toNat)
    (hd : d.Reads (header ++ payload) (reservedBits e.snFieldLength ++
      (natBits e.snFieldLength g.sdu.sn.toNat ++ (soBits g ++ bitsOf payload)))) :
    e.decodeSegment g.isFirst g.isLast d = some (receivedPiece g) := by
  have hlen : (payload.length : Int) = g.size := hpayload ▸ hg.length_data hpos
  obtain ⟨v, d₁, d₂, d₃, hr, hsnread, hsoread, hbuffer, hbyte, hso0⟩ :=
    exists_reads_segment (r := decide (e.snFieldLength = 12)) hg hso hpos hsn
      (by simpa [reservedBits] using hd)
  rw [decodeSegment]
  simp only [Option.bind_eq_bind, hr, Option.bind_some, hsnread, hsoread, if_neg hso0]
  rw [hbuffer, hbyte, List.drop_left, List.length_append, if_neg (by omega), Option.some.injEq]
  exact nrRlcNewPdu_eq_receivedPiece hg hpos hsn.1 hpayload header

/-- A segment arrives as it was sent. -/
theorem receivedPdu_serializeSdu (hn : e.snFieldLength = 6 ∨ e.snFieldLength = 12)
    (he' : e'.snFieldLength = e.snFieldLength) (hwhole : ¬(g.isFirst && g.isLast))
    (hg : IsPiece g) (hso : g.sdu.data.length < 2 ^ 16) (hpos : 0 < g.size)
    (hsn : 0 ≤ g.sdu.sn ∧ g.sdu.sn < 2 ^ e.snFieldLength) :
    e'.receivedPdu (e.serializeSdu g size) = some (receivedPiece g) := by
  obtain ⟨header, hbytes, hbits⟩ := exists_serializeSdu size hn hwhole
  have hinit := NrRlcPduDecoder.reads_init (e.serializeSdu g size)
  rw [hbytes, bitsOf_append, hbits, segmentBits, List.append_assoc, List.append_assoc,
    List.append_assoc, ← he'] at hinit
  obtain ⟨d, hsi, hd⟩ := NrRlcPduDecoder.getBits_of_reads (n := 2) hinit (by simp [siBits])
  obtain ⟨hfirst, hlast⟩ := bitsNat_siBits g
  have hdecode := decodeSegment_of_reads (e := e') hg hso hpos (he' ▸ hsn) rfl hd
  rw [receivedPdu, hbytes, hsi]
  simp only [Option.bind_eq_bind, Option.bind_some, hfirst, hlast, Bool.not_not, hwhole, if_false,
    Bool.false_eq_true]
  exact hdecode

/-- A whole SDU is delivered as it was sent, if it is not empty. -/
theorem recvPdu_serializeSdu_whole (hwhole : g.isFirst && g.isLast) (hg : IsPiece g) :
    e'.recvPdu (e.serializeSdu g size) = if g.sdu.data = [] then e'
      else { e' with out := e'.out ++ [.deliverSdu (g.sdu.data.map some)] } := by
  obtain ⟨hf, hl⟩ := Bool.and_eq_true_iff.1 hwhole
  have hso : g.so = 0 := hg.isFirst_iff.1 hf
  have hend := hg.end_eq hl
  have hbytes : e.serializeSdu g size = 0 :: g.sdu.data := by
    rw [serializeSdu, dataHeader_whole hwhole, hso, Int.toNat_zero, List.drop_zero,
      List.take_of_length_le (by omega), List.singleton_append]
  have hinit : (NrRlcPduDecoder.init (0 :: g.sdu.data)).Reads (0 :: g.sdu.data)
      ([false, false] ++ (natBits 6 0 ++ bitsOf g.sdu.data)) :=
    NrRlcPduDecoder.reads_init (0 :: g.sdu.data)
  obtain ⟨d, hd, -⟩ := NrRlcPduDecoder.getBits_of_reads (n := 2) hinit rfl
  rw [hbytes, recvPdu, hd]
  cases g.sdu.data with
  | nil => simp [bitsNat, bitsNatFrom]
  | cons b l => simp [bitsNat, bitsNatFrom]

end NrRlcEntityUm

end NrStack
