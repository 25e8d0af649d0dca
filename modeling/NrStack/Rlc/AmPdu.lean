import NrStack.Rlc.AmRxRun
import NrStack.Rlc.UmPdu

/-!
# AM data PDUs

What `serialize_sdu` writes is what `nr_rlc_entity_am_recv_pdu` reads : a segment arrives with its
SN, its place in the SDU and its bytes, whether the P bit is set or not.
-/

namespace NrStack

namespace NrRlcEntityAm

open NrRlcEntityUm (IsPiece receivedPiece siBits soBits bitsNat_siBits)

variable {e e' : NrRlcEntityAm} {g : NrRlcSduSegment} {size : Int}

/-! ## Headers as bits -/

/-- The R bits of an 18 bits SN. -/
def reservedBits (n : Nat) : List Bool :=
  if n = 18 then natBits 2 0 else []

/-- The header of a segment after its D/C and P bits. -/
def segmentBits (n : Nat) (g : NrRlcSduSegment) : List Bool :=
  siBits g ++ (reservedBits n ++ (natBits n g.sdu.sn.toNat ++ soBits g))

variable (size) in
theorem hasWritten_dataHeader :
    (e.dataHeader g size).HasWritten ([true, false] ++ segmentBits e.snFieldLength g) := by
  have hsi := ((((NrRlcPduEncoder.HasWritten.init size).putBits 1 1).putBits 0 1).putBits
    (!g.isFirst).toNat 1).putBits (!g.isLast).toNat 1
  have hsn : ∀ {enc : NrRlcPduEncoder} {bs : List Bool}, enc.HasWritten bs →
      ((if e.snFieldLength = 18 then enc.putBits 0 2 else enc).putBits g.sdu.sn.toNat
        e.snFieldLength).HasWritten
          (bs ++ reservedBits e.snFieldLength ++ natBits e.snFieldLength g.sdu.sn.toNat) := by
    intro enc bs h
    refine NrRlcPduEncoder.HasWritten.putBits ?_ _ _
    unfold reservedBits
    split_ifs
    · exact h.putBits 0 2
    · rwa [List.append_nil]
  unfold dataHeader segmentBits soBits siBits
  cases hf : g.isFirst with
  | true => simpa [hf, natBits] using hsn hsi
  | false => simpa [hf, natBits] using (hsn hsi).putBits g.so.toNat 16

/-- The length of a header, in bytes. -/
theorem length_segmentBits (hn : e.snFieldLength = 12 ∨ e.snFieldLength = 18)
    (g : NrRlcSduSegment) : ∃ k : Nat, (k : Int) = e.computePduHeaderSize g ∧
      ([true, false] ++ segmentBits e.snFieldLength g).length = 8 * k := by
  unfold segmentBits siBits reservedBits soBits computePduHeaderSize
  rcases hn with hn | hn
  · cases g.isFirst with
    | true => exact ⟨2, by simp [hn], by simp [hn]⟩
    | false => exact ⟨4, by simp [hn], by simp [hn]⟩
  · cases g.isFirst with
    | true => exact ⟨3, by simp [hn], by simp [hn]⟩
    | false => exact ⟨5, by simp [hn], by simp [hn]⟩

/-! ## PDUs -/

/-- The D/C bit and the P bit. -/
def dataBits (p : Bool) : List Bool :=
  [true, p]

/-- The PDU of a segment : its header in whole bytes, then its data. -/
theorem exists_sendPdu (hn : e.snFieldLength = 12 ∨ e.snFieldLength = 18)
    (g : NrRlcSduSegment) (size : Int) (p : Bool) :
    ∃ header q, (e.sendPdu g size p).pdu =
        header ++ (g.sdu.data.drop g.so.toNat).take g.size.toNat ∧
      (header.length : Int) = e.computePduHeaderSize g ∧
      bitsOf header = dataBits q ++ segmentBits e.snFieldLength g := by
  obtain ⟨k, hk, hlen⟩ := length_segmentBits hn g
  obtain ⟨hbits, hbytes⟩ := (hasWritten_dataHeader (e := e) (g := g) size).buffer_eq hlen
  have hheader : ({ e with forcePoll := false }.dataHeader g size).buffer =
      (e.dataHeader g size).buffer := rfl
  unfold sendPdu serializeSdu
  rw [hheader]
  split_ifs with hp
  · obtain ⟨b, rest, hcons⟩ : ∃ b rest, (e.dataHeader g size).buffer = b :: rest :=
      List.exists_cons_of_ne_nil fun hnil => by
        rw [hnil] at hbits
        simp at hbits
    refine ⟨(e.dataHeader g size).buffer.modify 0 (· ||| 0x40), true, ?_, ?_, ?_⟩
    · simp [hcons]
    · rw [List.length_modify, hbytes, hk]
    · have hset := bitsOf_modify_or (k := 6) (by omega) (e.dataHeader g size).buffer 0
      rw [hbits] at hset
      exact hset
  · exact ⟨_, false, rfl, by rw [hbytes, hk], hbits⟩

/-- Decoding from the SI on. -/
theorem decodeDataPdu_of_reads {header payload : List UInt8} {d : NrRlcPduDecoder}
    (hg : IsPiece g) (hso : g.sdu.data.length < 2 ^ 16) (hpos : 0 < g.size)
    (hsn : 0 ≤ g.sdu.sn ∧ g.sdu.sn < 2 ^ e.snFieldLength)
    (hpayload : payload = (g.sdu.data.drop g.so.toNat).take g.size.toNat)
    (hd : d.Reads (header ++ payload) (segmentBits e.snFieldLength g ++ bitsOf payload)) :
    e.decodeDataPdu d = some (receivedPiece g) := by
  have hlen : (payload.length : Int) = g.size := hpayload ▸ hg.length_data hpos
  rw [segmentBits, List.append_assoc, List.append_assoc, List.append_assoc] at hd
  obtain ⟨d₀, hsi, h₀⟩ := NrRlcPduDecoder.getBits_of_reads (n := 2) hd (by simp [siBits])
  obtain ⟨hfirst, hlast⟩ := bitsNat_siBits g
  obtain ⟨v, d₁, d₂, d₃, hr, hsnread, hsoread, hbuffer, hbyte, hso0⟩ :=
    NrRlcEntityUm.exists_reads_segment (r := decide (e.snFieldLength = 18)) hg hso hpos hsn
      (by simpa [reservedBits] using h₀)
  rw [decodeDataPdu, hsi]
  simp only [Option.bind_eq_bind, Option.bind_some, hfirst, hlast, Bool.not_not, hr, hsnread,
    hsoread, if_neg hso0]
  rw [hbuffer, hbyte, List.drop_left, List.length_append, if_neg (by omega), Option.some.injEq]
  exact NrRlcEntityUm.nrRlcNewPdu_eq_receivedPiece hg hpos hsn.1 hpayload header

/-- A segment arrives as it was sent. -/
theorem receivedPdu_sendPdu (hn : e.snFieldLength = 12 ∨ e.snFieldLength = 18)
    (he' : e'.snFieldLength = e.snFieldLength) (hg : IsPiece g)
    (hso : g.sdu.data.length < 2 ^ 16) (hpos : 0 < g.size)
    (hsn : 0 ≤ g.sdu.sn ∧ g.sdu.sn < 2 ^ e.snFieldLength) (size : Int) (p : Bool) :
    e'.receivedPdu (e.sendPdu g size p).pdu = some (receivedPiece g) := by
  obtain ⟨header, q, hbytes, -, hbits⟩ := exists_sendPdu hn g size p
  have hinit := NrRlcPduDecoder.reads_init (e.sendPdu g size p).pdu
  rw [hbytes, bitsOf_append, hbits, dataBits, ← he', List.append_assoc] at hinit
  obtain ⟨d₁, hdc, h₁⟩ := NrRlcPduDecoder.getBits_of_reads (n := 1)
    (show NrRlcPduDecoder.Reads _ _ ([true] ++ _) from hinit) rfl
  obtain ⟨d₂, hp, h₂⟩ := NrRlcPduDecoder.getBits_of_reads (n := 1)
    (show NrRlcPduDecoder.Reads _ _ ([q] ++ _) from h₁) rfl
  rw [receivedPdu, hbytes]
  simp only [Option.bind_eq_bind, hdc, hp, Option.bind_some]
  exact decodeDataPdu_of_reads hg hso hpos (he' ▸ hsn) rfl h₂

/-- A PDU is as long as its header and its data. -/
theorem length_sendPdu (hn : e.snFieldLength = 12 ∨ e.snFieldLength = 18) (hg : IsPiece g)
    (hnn : 0 ≤ g.size) (size : Int) (p : Bool) :
    ((e.sendPdu g size p).pdu.length : Int) = e.pduSize g := by
  obtain ⟨header, q, hbytes, hlen, -⟩ := exists_sendPdu hn g size p
  have hso := hg.so_nonneg
  have hend := hg.end_le
  rw [hbytes, List.length_append, List.length_take, List.length_drop, pduSize]
  omega

end NrRlcEntityAm

end NrStack
