import NrStack.Gtpu.ReceiverSafety
import NrStack.Library.Fuel

/-!
# What is sent over GTP-U, and received

`gtpv1uSendDirect` sends an SDU in a G-PDU, with the QFI of the bearer in a PDU session container if
it has one. `gtpv1uReceiver` gives the SDU and the QFI to the tunnel, unless the SDU is empty
(`gtpuRoundTrip_iff`).

The three extension headers are built octet by octet. The loop that appends them goes on until the
last octet of the buffer says that there is no other one (`IsExtHeader`).

The sequence number is written as it is in memory, on a little-endian host, while it is read in
network order : an echo response has its octets the other way round.
-/

namespace NrStack

/-! ## What is sent -/

/-- Octet `k` of a number, from the least significant one on. -/
def octetAt (n k : ℕ) : UInt8 :=
  UInt8.ofNat (n / 256 ^ k)

/-- `gtpv1uCreateAndSendMsg`, up to the datagram that is sent. -/
def gtpv1uCreateAndSendMsg (msgType : UInt8) (teid : UInt32) (msg : List UInt8)
    (seqNumFlag npduNumFlag : Bool) (seqNum : UInt16) (npduNum extHdrType : UInt8)
    (extensionHeaderBuffer : List UInt8) (fuel : ℕ) : Option (List UInt8) :=
  let flags : ℕ := 32 + 16 + (if extHdrType ≠ 0 then 4 else 0) + (if seqNumFlag then 2 else 0) +
    if npduNumFlag then 1 else 0
  let optional : List UInt8 :=
    if seqNumFlag ∨ extHdrType ≠ 0 ∨ npduNumFlag then
      let seq := if seqNumFlag then seqNum.toNat else 0
      [octetAt seq 0, octetAt seq 1, if npduNumFlag then npduNum else 0, extHdrType]
    else []
  (GtpuContext.putExtensionHeaders extensionHeaderBuffer fuel extHdrType optional).bind
    fun optional =>
      let msgLength := (optional ++ msg).length
      -- an assertion
      if 256 ≤ sizeofGtpv1uMsgHeader + optional.length then none
      else some ([UInt8.ofNat flags, msgType, octetAt msgLength 1, octetAt msgLength 0,
        octetAt teid.toNat 3, octetAt teid.toNat 2, octetAt teid.toNat 1, octetAt teid.toNat 0] ++
          optional ++ msg)

namespace GtpuBearer

variable (tmp : GtpuBearer)

/-- `ext` : `ExtHeaderLen`, the two octets of `pdusession_cntr` and `NextExtHeaderType`. The QFI is
a field of 6 bits. -/
def ext : List UInt8 :=
  [1, 0x10, UInt8.ofNat (tmp.outgoingQfi.toInt % 64).toNat, 0]

/-- The end of `gtpv1uSendDirect`, with the copy `tmp` of the bearer. -/
def gtpv1uSendDirect (buf : List UInt8) (seqNumFlag npduNumFlag : Bool) (fuel : ℕ) :
    Option (List UInt8) :=
  if tmp.outgoingQfi ≠ -1 then
    gtpv1uCreateAndSendMsg 255 tmp.teidOutgoing buf seqNumFlag npduNumFlag tmp.seqNum tmp.npduNum
      0x85 tmp.ext fuel
  else
    gtpv1uCreateAndSendMsg 255 tmp.teidOutgoing buf seqNumFlag npduNumFlag tmp.seqNum tmp.npduNum
      0 [] fuel

/-- The octets of the headers that `gtpv1uSendDirect` puts before the SDU. -/
def headerLength (seqNumFlag npduNumFlag : Bool) : ℕ :=
  sizeofGtpv1uMsgHeader +
    (if seqNumFlag ∨ tmp.outgoingQfi ≠ -1 ∨ npduNumFlag then 4 else 0) +
    if tmp.outgoingQfi ≠ -1 then 4 else 0

end GtpuBearer

/-- `extensionHeader_t` -/
structure ExtensionHeader where
  buffer : List UInt8
  length : ℕ

/-- `calloc` -/
def ExtensionHeader.calloc : ExtensionHeader :=
  ⟨List.replicate 500 0, 0⟩

/-- The octets that `gtpv1uCreateAndSendMsg` is given. -/
def ExtensionHeader.octets (h : ExtensionHeader) : List UInt8 :=
  h.buffer.take h.length

/-- `fillDlDeliveryStatusReport`. With a SN, the padding and the last octet that is written are the
same one. -/
def fillDlDeliveryStatusReport (uninitialized : UInt8 × UInt8) (extensionHeader : ExtensionHeader)
    (rlcBufferAvailability nrPdcpPduSn : UInt32) : ExtensionHeader :=
  let size : ℕ := 1 + 6 + (if nrPdcpPduSn > 0 then 3 else 0) +
    (if nrPdcpPduSn > 0 then 1 else 0) + 1
  let flags : UInt8 := 0x10 ||| (if nrPdcpPduSn > 0 then 8 else 0) ||| (uninitialized.1 &&& 3)
  let buffer := extensionHeader.buffer.set 0 (UInt8.ofNat (size / 4))
  let buffer := (buffer.set 1 flags).set 2 uninitialized.2
  let buffer := (((buffer.set 3 (octetAt rlcBufferAvailability.toNat 3)).set 4
    (octetAt rlcBufferAvailability.toNat 2)).set 5 (octetAt rlcBufferAvailability.toNat 1)).set 6
      (octetAt rlcBufferAvailability.toNat 0)
  let offset := 7
  let buffer :=
    if nrPdcpPduSn > 0 then
      (((buffer.set offset (octetAt nrPdcpPduSn.toNat 2)).set (offset + 1)
        (octetAt nrPdcpPduSn.toNat 1)).set (offset + 2) (octetAt nrPdcpPduSn.toNat 0)).set
          (offset + 3) 0
    else buffer
  let offset := if nrPdcpPduSn > 0 then offset + 3 else offset
  ⟨buffer.set offset 0, size⟩

/-- The extension headers that the code builds. -/
inductive BuiltExtHeader : List UInt8 → Prop
  | pduSession (tmp : GtpuBearer) : BuiltExtHeader tmp.ext
  | dlDeliveryStatus (uninitialized : UInt8 × UInt8) (rlcBufferAvailability nrPdcpPduSn : UInt32) :
      BuiltExtHeader (fillDlDeliveryStatusReport uninitialized .calloc rlcBufferAvailability
        nrPdcpPduSn).octets
  | gpdu (g : GtpuContext) (txSpace : UInt32) (nrPdcpPduSn : ℕ) :
      BuiltExtHeader (g.deliveryStatus txSpace nrPdcpPduSn)

/-! ## What is asked for -/

/-- A multiple of 4 octets, 4 times the length octet, with no other header after it, so that the
loop that appends the headers ends. -/
structure IsExtHeader (h : List UInt8) : Prop where
  dvd_length : 4 ∣ h.length
  length_eq : h.length = 4 * (h.headD 0).toNat
  last : h.getLast? = some 0
  ends : ∀ (type : UInt8) (out : List UInt8), type ≠ 0 →
    Returns (fun fuel => GtpuContext.putExtensionHeaders h fuel type out) (out ++ h)

namespace GtpuContext

variable (g : GtpuContext)

/-- The receiver has a tunnel for the TEID of the bearer, with a callback for a QFI if there is
one. -/
def Knows (tmp : GtpuBearer) : Prop :=
  ∃ originInstance tunnel, g.inst? = some originInstance ∧
    g.endPoints.handleGpdu tmp.teidOutgoing = some tunnel ∧
      (tmp.outgoingQfi ≠ -1 → tunnel.callBackSDAP ≠ 0)

/-- The datagram for an SDU passes the check of its length, and exactly one callback is called :
that of the tunnel, with the SDU and the QFI of the bearer, or without one. -/
def RoundTrip (tmp : GtpuBearer) (buf : List UInt8) (seqNumFlag npduNumFlag : Bool) : Prop :=
  ∃ packet, Returns (tmp.gtpv1uSendDirect buf seqNumFlag npduNumFlag) packet ∧
    ∀ b : UdpData, b.datagram = packet →
      b.msgHeader.msgLength + sizeofGtpv1uMsgHeader = b.length ∧
        ∃ s originInstance tunnel q, Returns (fun fuel => g.gtpv1uReceiver fuel b) s ∧
          g.inst? = some originInstance ∧
          g.endPoints.handleGpdu tmp.teidOutgoing = some tunnel ∧
          s.events = [tunnel.delivery originInstance buf q] ∧
          (q ≠ none → tunnel.callBackSDAP ≠ 0) ∧
          q.map (fun q => (q.1.toNat : ℤ)) =
            if tmp.outgoingQfi = -1 then none else some tmp.outgoingQfi.toInt

/-- The response to an echo request has the same octets of the sequence number. -/
def Echoes (b : UdpData) : Prop :=
  ∃ s packet, Returns (fun fuel => g.gtpv1uReceiver fuel b) s ∧
    s.events = [.sendto g.peerIp g.peerPort packet] ∧
      packet[8]? = some (b.octet 8) ∧ packet[9]? = some (b.octet 9)

end GtpuContext

/-- An echo request with a sequence number. -/
structure UdpData.EchoRequest (b : UdpData) : Prop where
  size_le : sizeofGtpv1uMsgHeader ≤ b.length
  length_eq : b.msgHeader.msgLength + sizeofGtpv1uMsgHeader = b.length
  msgType_eq : b.msgHeader.msgType = 1
  version_eq : b.msgHeader.version = 1
  pt : b.msgHeader.pt = true
  s : b.msgHeader.s = true

/-! ## Extension headers -/

/-- The loop ends after a header that says that it is the last one. -/
theorem putExtensionHeaders_returns {h : List UInt8} (hlast : h.getLast? = some 0) {type : UInt8}
    (htype : type ≠ 0) (out : List UInt8) :
    Returns (fun fuel => GtpuContext.putExtensionHeaders h fuel type out) (out ++ h) := by
  have hend : Returns (fun fuel => GtpuContext.putExtensionHeaders h fuel 0 (out ++ h))
      (out ++ h) := .of_succ (g := fun _ => some _) (fun n => if_pos rfl) (.pure fun _ => rfl)
  refine .of_succ (fun n => ?_) hend
  rw [GtpuContext.putExtensionHeaders, if_neg htype, hlast]

theorem isExtHeader_of {h : List UInt8} (hlength : h.length = 4 * (h.headD 0).toNat)
    (hlast : h.getLast? = some 0) : IsExtHeader h :=
  ⟨hlength ▸ dvd_mul_right 4 _, hlength, hlast,
    fun _ out htype => putExtensionHeaders_returns hlast htype out⟩

/-- With the octet after the padding as `calloc` left it, the last octet is 0 also with a SN. -/
theorem octets_fillDlDeliveryStatusReport (uninitialized : UInt8 × UInt8)
    (rlcBufferAvailability nrPdcpPduSn : UInt32) :
    IsExtHeader (fillDlDeliveryStatusReport uninitialized .calloc rlcBufferAvailability
      nrPdcpPduSn).octets := by
  have hbuffer : ExtensionHeader.calloc.buffer = List.replicate 12 0 ++ List.replicate 488 0 :=
    (List.replicate_append_replicate (n := 12) (m := 488)).symm
  unfold fillDlDeliveryStatusReport ExtensionHeader.octets
  dsimp only
  rw [hbuffer]
  by_cases hsn : nrPdcpPduSn > 0
  · simp only [if_pos hsn]
    exact isExtHeader_of rfl rfl
  · simp only [if_neg hsn]
    exact isExtHeader_of rfl rfl

theorem BuiltExtHeader.isExtHeader {h : List UInt8} (hh : BuiltExtHeader h) : IsExtHeader h := by
  cases hh with
  | pduSession tmp => exact isExtHeader_of rfl rfl
  | dlDeliveryStatus u avail sn => exact octets_fillDlDeliveryStatusReport u avail sn
  | gpdu g txSpace sn => exact isExtHeader_of rfl rfl

/-! ## The datagram -/

theorem toNat_octetAt (n k : ℕ) : (octetAt n k).toNat = n / 256 ^ k % 256 := by
  rw [octetAt, UInt8.toNat_ofNat']

theorem octetAt_two {n : ℕ} (hn : n < 2 ^ 16) :
    (octetAt n 1).toNat * 256 + (octetAt n 0).toNat = n := by
  rw [toNat_octetAt, toNat_octetAt]
  omega

theorem octetAt_four {n : ℕ} (hn : n < 2 ^ 32) :
    (((octetAt n 3).toNat * 256 + (octetAt n 2).toNat) * 256 + (octetAt n 1).toNat) * 256 +
      (octetAt n 0).toNat = n := by
  simp only [toNat_octetAt]
  omega

/-- The first octet of a header. -/
def flagsOctet (e s pn : Bool) : UInt8 :=
  UInt8.ofNat (32 + 16 + (if e then 4 else 0) + (if s then 2 else 0) + if pn then 1 else 0)

theorem flagsOctet_bits : ∀ e s pn : Bool, (flagsOctet e s pn).toNat.testBit 0 = pn ∧
    (flagsOctet e s pn).toNat.testBit 1 = s ∧ (flagsOctet e s pn).toNat.testBit 2 = e ∧
      (flagsOctet e s pn).toNat.testBit 4 = true ∧ (flagsOctet e s pn).toNat / 32 = 1 := by
  decide

/-- The header is read as it was written. -/
theorem msgHeader_of_datagram {b : UdpData} {e s pn : Bool} {msgType : UInt8} {teid : UInt32}
    {rest : List UInt8} (hrest : rest.length < 2 ^ 16)
    (hb : b.datagram = [flagsOctet e s pn, msgType, octetAt rest.length 1, octetAt rest.length 0,
      octetAt teid.toNat 3, octetAt teid.toNat 2, octetAt teid.toNat 1, octetAt teid.toNat 0] ++
        rest) : b.msgHeader = ⟨pn, s, e, true, 1, msgType, rest.length, teid⟩ := by
  have hoctet : ∀ i (hi : i < 8), b.octet i = [flagsOctet e s pn, msgType, octetAt rest.length 1,
      octetAt rest.length 0, octetAt teid.toNat 3, octetAt teid.toNat 2, octetAt teid.toNat 1,
      octetAt teid.toNat 0][i] := fun i hi => by
    rw [UdpData.octet, hb, List.getD_eq_getElem?_getD, List.getElem?_append_left hi,
      List.getElem?_eq_getElem hi, Option.getD_some]
  obtain ⟨hpn, hs, he, hpt, hversion⟩ := flagsOctet_bits e s pn
  unfold UdpData.msgHeader
  rw [hoctet 0 (by decide), hoctet 1 (by decide), hoctet 2 (by decide), hoctet 3 (by decide),
    hoctet 4 (by decide), hoctet 5 (by decide), hoctet 6 (by decide), hoctet 7 (by decide)]
  simp only [List.getElem_cons_zero, List.getElem_cons_succ, hpn, hs, he, hpt, hversion,
    octetAt_two hrest, octetAt_four teid.toNat_lt, UInt32.ofNat_toNat]

/-- `gtpv1uCreateAndSendMsg` returns once the loop over the extension headers does. -/
theorem gtpv1uCreateAndSendMsg_returns {msgType : UInt8} {teid : UInt32} {msg : List UInt8}
    {seqNumFlag npduNumFlag : Bool} {seqNum : UInt16} {npduNum extHdrType : UInt8}
    {buffer out : List UInt8} (hout : Returns (fun fuel =>
      GtpuContext.putExtensionHeaders buffer fuel extHdrType
        (if seqNumFlag ∨ extHdrType ≠ 0 ∨ npduNumFlag then
          [octetAt (if seqNumFlag then seqNum.toNat else 0) 0,
            octetAt (if seqNumFlag then seqNum.toNat else 0) 1,
            if npduNumFlag then npduNum else 0, extHdrType]
        else [])) out) (hlen : out.length < 248) :
    Returns (gtpv1uCreateAndSendMsg msgType teid msg seqNumFlag npduNumFlag seqNum npduNum
      extHdrType buffer) ([flagsOctet (extHdrType ≠ 0) seqNumFlag npduNumFlag, msgType,
        octetAt (out ++ msg).length 1, octetAt (out ++ msg).length 0, octetAt teid.toNat 3,
        octetAt teid.toNat 2, octetAt teid.toNat 1, octetAt teid.toNat 0] ++ (out ++ msg)) := by
  refine hout.bind (.pure fun _ => ?_)
  have hsize : ¬256 ≤ sizeofGtpv1uMsgHeader + out.length := by
    unfold sizeofGtpv1uMsgHeader
    omega
  dsimp only
  rw [if_neg hsize, List.append_assoc]
  simp [flagsOctet]

namespace GtpuBearer

variable (tmp : GtpuBearer) (seqNumFlag npduNumFlag : Bool)

/-- The octets between the header and the SDU. -/
def optional : List UInt8 :=
  (if seqNumFlag ∨ tmp.outgoingQfi ≠ -1 ∨ npduNumFlag then
    [octetAt (if seqNumFlag then tmp.seqNum.toNat else 0) 0,
      octetAt (if seqNumFlag then tmp.seqNum.toNat else 0) 1,
      if npduNumFlag then tmp.npduNum else 0, if tmp.outgoingQfi ≠ -1 then 0x85 else 0]
  else []) ++ if tmp.outgoingQfi ≠ -1 then tmp.ext else []

theorem length_optional : sizeofGtpv1uMsgHeader + (tmp.optional seqNumFlag npduNumFlag).length =
    tmp.headerLength seqNumFlag npduNumFlag := by
  unfold optional headerLength
  rw [List.length_append, ← Nat.add_assoc]
  split_ifs <;> rfl

theorem length_optional_le : (tmp.optional seqNumFlag npduNumFlag).length ≤ 8 := by
  unfold optional
  rw [List.length_append]
  split_ifs <;> simp [ext]

/-- The datagram. -/
theorem gtpv1uSendDirect_returns (buf : List UInt8) :
    Returns (tmp.gtpv1uSendDirect buf seqNumFlag npduNumFlag)
      ([flagsOctet (tmp.outgoingQfi ≠ -1) seqNumFlag npduNumFlag, 255,
        octetAt (tmp.optional seqNumFlag npduNumFlag ++ buf).length 1,
        octetAt (tmp.optional seqNumFlag npduNumFlag ++ buf).length 0,
        octetAt tmp.teidOutgoing.toNat 3, octetAt tmp.teidOutgoing.toNat 2,
        octetAt tmp.teidOutgoing.toNat 1, octetAt tmp.teidOutgoing.toNat 0] ++
          (tmp.optional seqNumFlag npduNumFlag ++ buf)) := by
  have hlen := tmp.length_optional_le seqNumFlag npduNumFlag
  unfold gtpv1uSendDirect
  by_cases hqfi : tmp.outgoingQfi ≠ -1
  · have hput := (BuiltExtHeader.pduSession tmp).isExtHeader.ends 0x85
      (if seqNumFlag ∨ tmp.outgoingQfi ≠ -1 ∨ npduNumFlag then
        [octetAt (if seqNumFlag then tmp.seqNum.toNat else 0) 0,
          octetAt (if seqNumFlag then tmp.seqNum.toNat else 0) 1,
          if npduNumFlag then tmp.npduNum else 0, 0x85] else []) (by decide)
    have heq : (if seqNumFlag ∨ tmp.outgoingQfi ≠ -1 ∨ npduNumFlag then
        [octetAt (if seqNumFlag then tmp.seqNum.toNat else 0) 0,
          octetAt (if seqNumFlag then tmp.seqNum.toNat else 0) 1,
          if npduNumFlag then tmp.npduNum else 0, 0x85] else []) ++ tmp.ext =
        tmp.optional seqNumFlag npduNumFlag := by
      rw [optional, if_pos hqfi, if_pos hqfi]
    rw [heq] at hput
    simp only [if_pos hqfi]
    have hsend := @gtpv1uCreateAndSendMsg_returns 255 tmp.teidOutgoing buf seqNumFlag npduNumFlag
      tmp.seqNum tmp.npduNum 0x85 tmp.ext _ (by simpa [hqfi] using hput) (by omega)
    simpa [hqfi] using hsend
  · have hput : Returns (fun fuel => GtpuContext.putExtensionHeaders [] fuel 0
        (tmp.optional seqNumFlag npduNumFlag)) (tmp.optional seqNumFlag npduNumFlag) :=
      .of_succ (g := fun _ => some _) (fun n => if_pos rfl) (.pure fun _ => rfl)
    simp only [if_neg hqfi]
    have hsend := @gtpv1uCreateAndSendMsg_returns 255 tmp.teidOutgoing buf seqNumFlag npduNumFlag
      tmp.seqNum tmp.npduNum 0 [] (tmp.optional seqNumFlag npduNumFlag)
      (by simpa [hqfi, optional] using hput) (by omega)
    simpa [hqfi] using hsend

end GtpuBearer

/-! ## The receiver -/

section Receive

variable {b : UdpData} {s : GtpuRx} {offset : ℕ}

/-- A chain of one PDU session container. -/
theorem walkExtensions_pduSession (hlen : 16 ≤ b.length) (h12 : b.octet 12 = 1)
    (h15 : b.octet 15 = 0) (s : GtpuRx) : ∃ s', s'.events = s.events ∧
      Returns (fun fuel => b.walkExtensions fuel 0x85 12 .init s)
        (s', some (16, ⟨some (b.octet 14 &&& 0x3f), (b.octet 14).toNat.testBit 6, 0⟩)) := by
  obtain ⟨s', hs'⟩ : ∃ s', s' = (((s.readOctet b 12).2.readOctet b 14).2.readOctet b 15).2 :=
    ⟨_, rfl⟩
  have hend : Returns (fun fuel => b.walkExtensions fuel 0 16
      ⟨some (b.octet 14 &&& 0x3f), (b.octet 14).toNat.testBit 6, 0⟩ s')
      (s', some (16, ⟨some (b.octet 14 &&& 0x3f), (b.octet 14).toNat.testBit 6, 0⟩)) :=
    .of_succ (g := fun _ => some _) (fun n => if_pos rfl) (.pure fun _ => rfl)
  refine ⟨s', by rw [hs']; rfl, .of_succ (fun n => ?_) hend⟩
  have hfirst : (s.readOctet b 12).1 = 1 := h12
  have hext : b.extension 0x85 12 .init (s.readOctet b 12).2 =
      (((s.readOctet b 12).2.readOctet b 14).2,
        some ⟨some (b.octet 14 &&& 0x3f), (b.octet 14).toNat.testBit 6, 0⟩) := by
    rw [UdpData.extension, if_pos rfl, UdpData.pduSessionContainer, if_neg (by omega)]
    rfl
  have hlast : (((s.readOctet b 12).2.readOctet b 14).2.readOctet b 15).1 = 0 := h15
  rw [UdpData.walkExtensions, if_neg (by decide)]
  dsimp only
  rw [hext, hfirst]
  dsimp only
  rw [if_neg (by simpa using hlen), hs']
  exact congrArg (fun type => b.walkExtensions n type 16 _ _) hlast

/-- The octets after the headers are given to the tunnel, if there are any. -/
theorem events_deliver {x : ExtInfo} {q : Option (UInt8 × Bool)} (hx : x.Tells q)
    (originInstance : Int64) (tunnel : UeidData) (s : GtpuRx) :
    (GtpuContext.deliver b originInstance tunnel offset x s).events = s.events ++
      if b.datagram.drop offset = [] then []
      else [tunnel.delivery originInstance (b.datagram.drop offset) q] := by
  split_ifs with hnil
  · rw [GtpuContext.deliver_of_ge originInstance tunnel (List.drop_eq_nil_iff.1 hnil),
      List.append_nil]
  · have hlt : offset < b.length := Nat.lt_of_not_le fun hge => hnil (List.drop_eq_nil_iff.2 hge)
    exact GtpuContext.events_deliver_of_lt originInstance tunnel hx hlt s

/-- The QFI that is received, without the RQI. -/
def GtpuBearer.received (tmp : GtpuBearer) : Option (UInt8 × Bool) :=
  if tmp.outgoingQfi = -1 then none
  else some (UInt8.ofNat (tmp.outgoingQfi.toInt % 64).toNat, false)

theorem low_bits_qfi : ∀ k < 64, (UInt8.ofNat k &&& 0x3f) = UInt8.ofNat k ∧
    (UInt8.ofNat k).toNat.testBit 6 = false := by
  decide

variable (g : GtpuContext) in
/-- The extension headers of a datagram of `gtpv1uSendDirect`, and what they tell. -/
theorem extensionHeaders_returns {tmp : GtpuBearer} {seqNumFlag npduNumFlag : Bool}
    {buf head : List UInt8} (hhead : head.length = 8)
    (hb : b.datagram = head ++ (tmp.optional seqNumFlag npduNumFlag ++ buf))
    (he : b.msgHeader.e = (tmp.outgoingQfi ≠ -1 : Bool)) (hs : b.msgHeader.s = seqNumFlag)
    (hpn : b.msgHeader.pn = npduNumFlag) (s : GtpuRx) :
    ∃ s' x, s'.events = s.events ∧ x.Tells tmp.received ∧ x.nrPdcpPduSn = 0 ∧
      Returns (fun fuel => b.extensionHeaders fuel (sizeofGtpv1uMsgHeader +
        if b.msgHeader.e ∨ b.msgHeader.s ∨ b.msgHeader.pn then 4 else 0) s)
          (s', some (tmp.headerLength seqNumFlag npduNumFlag, x)) := by
  by_cases hqfi : tmp.outgoingQfi = -1
  · have he' : b.msgHeader.e = false := by simp [he, hqfi]
    refine ⟨s, .init, rfl, ?_, rfl, .pure fun n => ?_⟩
    · rw [GtpuBearer.received, if_pos hqfi]
      exact ⟨rfl, rfl⟩
    · rw [UdpData.extensionHeaders, if_neg (by simp [he'])]
      simp [GtpuBearer.headerLength, hs, hpn, he', hqfi]
  · have he' : b.msgHeader.e = true := by simp [he, hqfi]
    have hopt : tmp.optional seqNumFlag npduNumFlag =
        [octetAt (if seqNumFlag then tmp.seqNum.toNat else 0) 0,
          octetAt (if seqNumFlag then tmp.seqNum.toNat else 0) 1,
          if npduNumFlag then tmp.npduNum else 0, 0x85] ++ tmp.ext := by
      simp [GtpuBearer.optional, hqfi]
    have hlen : 16 ≤ b.length := by
      have hcount := congrArg List.length hb
      simp only [hopt, List.length_append, hhead, GtpuBearer.ext, List.length_cons,
        List.length_nil] at hcount
      unfold UdpData.length
      omega
    have hdrop : b.datagram.drop 8 = tmp.optional seqNumFlag npduNumFlag ++ buf := by
      rw [hb, List.drop_left' hhead]
    have h11 : b.octet 11 = 0x85 := by rw [b.octet_add 8 3, hdrop, hopt]; rfl
    have h12 : b.octet 12 = 1 := by rw [b.octet_add 8 4, hdrop, hopt]; rfl
    have h14 : b.octet 14 = UInt8.ofNat (tmp.outgoingQfi.toInt % 64).toNat := by
      rw [b.octet_add 8 6, hdrop, hopt]
      rfl
    have h15 : b.octet 15 = 0 := by rw [b.octet_add 8 7, hdrop, hopt]; rfl
    obtain ⟨s', hevents, hwalk⟩ := walkExtensions_pduSession hlen h12 h15 (s.readOctet b 11).2
    obtain ⟨hlow, hbit⟩ := low_bits_qfi (tmp.outgoingQfi.toInt % 64).toNat (by omega)
    refine ⟨s', ⟨some (b.octet 14 &&& 0x3f), (b.octet 14).toNat.testBit 6, 0⟩, hevents, ?_, rfl, ?_⟩
    · rw [h14, hlow, hbit, GtpuBearer.received, if_neg hqfi]
      exact ⟨rfl, rfl⟩
    · obtain ⟨n₀, hn⟩ := hwalk
      refine ⟨n₀, fun n hle => ?_⟩
      have hheader : tmp.headerLength seqNumFlag npduNumFlag = 16 := by
        simp [GtpuBearer.headerLength, sizeofGtpv1uMsgHeader, hqfi]
      dsimp only
      rw [hheader, if_pos (.inl he'), UdpData.extensionHeaders, if_pos he']
      have hread : (s.readOctet b (sizeofGtpv1uMsgHeader + 4 - 1)).1 = 0x85 := h11
      dsimp only
      rw [hread]
      exact hn n hle

/-- Exactly one callback is called for a datagram of `gtpv1uSendDirect`, unless the SDU is empty. -/
theorem gtpv1uReceiver_returns {g : GtpuContext} {tmp : GtpuBearer} {seqNumFlag npduNumFlag : Bool}
    {buf packet : List UInt8}
    (hpacket : Returns (tmp.gtpv1uSendDirect buf seqNumFlag npduNumFlag) packet)
    (hsize : tmp.headerLength seqNumFlag npduNumFlag + buf.length < 2 ^ 16)
    (hb : b.datagram = packet) {originInstance : Int64} {tunnel : UeidData}
    (hinst : g.inst? = some originInstance)
    (htunnel : g.endPoints.handleGpdu tmp.teidOutgoing = some tunnel) :
    b.msgHeader.msgLength + sizeofGtpv1uMsgHeader = b.length ∧
      ∃ s, Returns (fun fuel => g.gtpv1uReceiver fuel b) s ∧
        s.events = if buf = [] then [] else [tunnel.delivery originInstance buf tmp.received] := by
  obtain rfl := (tmp.gtpv1uSendDirect_returns seqNumFlag npduNumFlag buf).unique hpacket
  have hopt := tmp.length_optional seqNumFlag npduNumFlag
  have hlen : b.length = tmp.headerLength seqNumFlag npduNumFlag + buf.length := by
    rw [UdpData.length, hb, ← hopt]
    simp [sizeofGtpv1uMsgHeader]
    omega
  have hrest : (tmp.optional seqNumFlag npduNumFlag ++ buf).length < 2 ^ 16 := by
    rw [List.length_append]
    omega
  have hheader := msgHeader_of_datagram hrest hb
  have hlength : b.msgHeader.msgLength + sizeofGtpv1uMsgHeader = b.length := by
    rw [hheader, hlen, ← hopt]
    dsimp only
    rw [List.length_append]
    omega
  have hlong : sizeofGtpv1uMsgHeader ≤ b.length := hlength ▸ Nat.le_add_left _ _
  refine ⟨hlength, ?_⟩
  obtain ⟨s₁, hs₁⟩ : ∃ s₁, s₁ = ((GtpuRx.init.readHeader b).2.readHeader b).2.lock := ⟨_, rfl⟩
  have hrun : ∀ fuel, g.gtpv1uReceiver fuel b =
      g.handleTunnelGpdu fuel b originInstance tunnel s₁ := fun fuel => by
    have hread : ∀ s : GtpuRx, (s.readHeader b).1 = b.msgHeader := fun _ => rfl
    unfold GtpuContext.gtpv1uReceiver GtpuContext.gtpv1uHandleGpdu
    dsimp only
    rw [if_neg (by unfold sizeofGtpv1uMsgHeader at hlong; omega), if_neg hlong.not_gt, hread, hread,
      if_neg (not_not.2 hlength), hheader]
    dsimp only
    rw [if_neg (by decide), if_neg (by decide), if_pos rfl, if_neg (by decide), hinst, htunnel, hs₁]
  obtain ⟨s', x, hevents, htells, hsn, n₀, hwalk⟩ := extensionHeaders_returns rfl hb
    (by rw [hheader]) (by rw [hheader]) (by rw [hheader]) s₁
  have hbuf : b.datagram.drop (tmp.headerLength seqNumFlag npduNumFlag) = buf := by
    rw [hb, ← List.append_assoc]
    exact List.drop_left' (by rw [List.length_append, ← hopt]; rfl)
  refine ⟨GtpuContext.deliver b originInstance tunnel (tmp.headerLength seqNumFlag npduNumFlag) x
    s'.unlock, ⟨n₀, fun n hle => ?_⟩, ?_⟩
  · have hwalk' := hwalk n hle
    dsimp only at hwalk' ⊢
    rw [hrun]
    unfold GtpuContext.handleTunnelGpdu
    dsimp only
    rw [hwalk']
    dsimp only
    rw [if_neg (by rw [hsn]; omega)]
  · rw [events_deliver htells, hbuf]
    have hnone : s'.unlock.events = [] := by
      rw [GtpuRx.unlock, hevents, hs₁]
      rfl
    rw [hnone, List.nil_append]

/-! ## Echo -/

/-- What the receiver sends is what `gtpv1uCreateAndSendMsg` builds. -/
theorem createAndSendMsg_returns {g : GtpuContext} {msgType : UInt8} {teid : UInt32}
    {msg buffer packet : List UInt8} {seqNumFlag : Bool} {seqNum : UInt16} {extHdrType : UInt8}
    (h : Returns (gtpv1uCreateAndSendMsg msgType teid msg seqNumFlag false seqNum 0 extHdrType
      buffer) packet) :
    Returns (fun fuel => g.createAndSendMsg fuel msgType teid msg seqNumFlag seqNum extHdrType
      buffer s) (s.event (.sendto g.peerIp g.peerPort packet)) := by
  obtain ⟨n₀, hn⟩ := h
  refine ⟨n₀, fun n hle => ?_⟩
  obtain ⟨out, hput, hout⟩ := Option.bind_eq_some_iff.1 (hn n hle)
  dsimp only at hout
  have hsize : ¬256 ≤ sizeofGtpv1uMsgHeader + out.length := fun hlong => by
    rw [if_pos hlong] at hout
    cases hout
  rw [if_neg hsize] at hout
  obtain rfl := Option.some.inj hout
  have hput' : GtpuContext.putExtensionHeaders buffer n extHdrType
      (if seqNumFlag ∨ extHdrType ≠ 0 then
        [UInt8.ofNat ((if seqNumFlag then seqNum.toNat else 0) / 256 ^ 0),
          UInt8.ofNat ((if seqNumFlag then seqNum.toNat else 0) / 256 ^ 1), 0, extHdrType]
      else []) = some out := by
    simpa [octetAt] using hput
  unfold GtpuContext.createAndSendMsg
  dsimp only
  rw [hput']
  rfl

/-- The octets of the sequence number are the other way round in the response. -/
theorem echoes_iff {g : GtpuContext} (h : b.EchoRequest) : g.Echoes b ↔ b.octet 8 = b.octet 9 := by
  obtain ⟨seq, hseq⟩ : ∃ seq, seq = UInt16.ofNat ((b.octet 8).toNat * 256 + (b.octet 9).toNat) :=
    ⟨_, rfl⟩
  have hseqNat : seq.toNat = (b.octet 8).toNat * 256 + (b.octet 9).toNat := by
    have h8 := (b.octet 8).toNat_lt
    have h9 := (b.octet 9).toNat_lt
    rw [hseq, UInt16.toNat_ofNat']
    omega
  have hlow : octetAt seq.toNat 0 = b.octet 9 := by
    have h9 := (b.octet 9).toNat_lt
    rw [← UInt8.toNat_inj, toNat_octetAt, hseqNat]
    omega
  have hhigh : octetAt seq.toNat 1 = b.octet 8 := by
    have h8 := (b.octet 8).toNat_lt
    have h9 := (b.octet 9).toNat_lt
    rw [← UInt8.toNat_inj, toNat_octetAt, hseqNat]
    omega
  have hput : Returns (fun fuel => GtpuContext.putExtensionHeaders [] fuel 0
      [b.octet 9, b.octet 8, 0, 0]) [b.octet 9, b.octet 8, 0, 0] :=
    .of_succ (g := fun _ => some _) (fun n => if_pos rfl) (.pure fun _ => rfl)
  have hsend := @gtpv1uCreateAndSendMsg_returns 2 b.msgHeader.teid [14, 0] true false seq 0 0 []
    [b.octet 9, b.octet 8, 0, 0] (by simpa [hlow, hhigh] using hput) (by simp)
  obtain ⟨s₁, hs₁⟩ : ∃ s₁, s₁ = ((((GtpuRx.init.readHeader b).2.readHeader b).2.readOctet b
    sizeofGtpv1uMsgHeader).2.readOctet b (sizeofGtpv1uMsgHeader + 1)).2 := ⟨_, rfl⟩
  have hrun : ∀ fuel, g.gtpv1uReceiver fuel b =
      g.createAndSendMsg fuel 2 b.msgHeader.teid [14, 0] true seq 0 [] s₁ := fun fuel => by
    have hread : ∀ s : GtpuRx, (s.readHeader b).1 = b.msgHeader := fun _ => rfl
    have hlong := h.size_le
    unfold GtpuContext.gtpv1uReceiver GtpuContext.gtpv1uHandleEchoReq
    dsimp only
    rw [if_neg (by unfold sizeofGtpv1uMsgHeader at hlong; omega), if_neg hlong.not_gt, hread, hread,
      if_neg (not_not.2 h.length_eq), if_pos h.msgType_eq,
      if_neg (by rw [h.version_eq, h.pt]; decide), if_neg (by rw [h.s]; decide), hs₁, hseq]
    rfl
  have hevents : s₁.events = [] := by
    rw [hs₁]
    rfl
  have hreturns := createAndSendMsg_returns (g := g) (s := s₁) hsend
  simp only [← hrun] at hreturns
  constructor
  · rintro ⟨s, packet, hret, hpacket, h8, -⟩
    obtain rfl := hreturns.unique hret
    rw [GtpuRx.event, hevents] at hpacket
    obtain ⟨-, -, rfl⟩ := GtpuEvent.sendto.inj (List.cons.inj hpacket).1
    exact (Option.some.inj h8).symm
  · intro heq
    refine ⟨_, _, hreturns, by rw [GtpuRx.event, hevents]; rfl, ?_, ?_⟩
    · exact congrArg some heq.symm
    · exact congrArg some heq

end Receive

/-! ## The round trip -/

/-- A QFI, or none. -/
def GtpuBearer.ValidQfi (tmp : GtpuBearer) : Prop :=
  tmp.outgoingQfi = -1 ∨ 0 ≤ tmp.outgoingQfi.toInt ∧ tmp.outgoingQfi.toInt < 64

/-- The QFI that is received is that of the bearer if it is one. -/
theorem GtpuBearer.received_map (tmp : GtpuBearer) :
    tmp.received.map (fun q => (q.1.toNat : ℤ)) =
        (if tmp.outgoingQfi = -1 then none else some tmp.outgoingQfi.toInt) ↔ tmp.ValidQfi := by
  unfold received ValidQfi
  by_cases hqfi : tmp.outgoingQfi = -1
  · simp [hqfi]
  · have hlow : (UInt8.ofNat (tmp.outgoingQfi.toInt % 64).toNat).toNat =
        (tmp.outgoingQfi.toInt % 64).toNat := by
      rw [UInt8.toNat_ofNat']
      omega
    rw [if_neg hqfi, if_neg hqfi, Option.map_some, Option.some.injEq, hlow, or_iff_right hqfi]
    omega

/-- With a callback for a QFI, the call tells which QFI there is. -/
theorem delivery_inj {tunnel : UeidData} {originInstance : Int64} {buf : List UInt8}
    {q q' : Option (UInt8 × Bool)} (hq : q ≠ none → tunnel.callBackSDAP ≠ 0)
    (hq' : q' ≠ none → tunnel.callBackSDAP ≠ 0)
    (h : tunnel.delivery originInstance buf q = tunnel.delivery originInstance buf q') :
    q = q' := by
  rcases q with _ | ⟨qfi, rqi⟩ <;> rcases q' with _ | ⟨qfi', rqi'⟩
  · rfl
  · rw [UeidData.delivery, UeidData.delivery, if_pos (hq' (by simp))] at h
    cases h
  · rw [UeidData.delivery, UeidData.delivery, if_pos (hq (by simp))] at h
    cases h
  · rw [UeidData.delivery, UeidData.delivery, if_pos (hq (by simp)), if_pos (hq (by simp))] at h
    obtain ⟨-, -, -, -, -, rfl, rfl, -⟩ := GtpuEvent.callBackSDAP.inj h
    rfl

theorem roundTrip_iff {g : GtpuContext} {tmp : GtpuBearer} {buf : List UInt8}
    {seqNumFlag npduNumFlag : Bool}
    (hsize : tmp.headerLength seqNumFlag npduNumFlag + buf.length < 2 ^ 16) (hknows : g.Knows tmp) :
    g.RoundTrip tmp buf seqNumFlag npduNumFlag ↔ buf ≠ [] ∧ tmp.ValidQfi := by
  obtain ⟨originInstance, tunnel, hinst, htunnel, hsdap⟩ := hknows
  have hreceived : tmp.received ≠ none → tunnel.callBackSDAP ≠ 0 := fun h =>
    hsdap fun hqfi => h (if_pos hqfi)
  have hpacket := tmp.gtpv1uSendDirect_returns seqNumFlag npduNumFlag buf
  constructor
  · rintro ⟨packet, hpacket', hall⟩
    obtain rfl := hpacket.unique hpacket'
    have hlen := tmp.length_optional seqNumFlag npduNumFlag
    obtain ⟨-, s, origin', tunnel', q, hret, hinst', htunnel', hevents, hq, hmap⟩ := hall
      ⟨_, fun _ => 0, by simp [sizeofGtpv1uMsgHeader] at hlen ⊢; omega⟩ rfl
    obtain ⟨-, s', hret', hevents'⟩ :=
      gtpv1uReceiver_returns hpacket hsize (b := ⟨_, fun _ => 0, _⟩) rfl hinst htunnel
    obtain rfl := hret.unique hret'
    obtain rfl := Option.some.inj (hinst.symm.trans hinst')
    obtain rfl := Option.some.inj (htunnel.symm.trans htunnel')
    rw [hevents] at hevents'
    split_ifs at hevents' with hnil
    refine ⟨hnil, ?_⟩
    obtain rfl := delivery_inj hq hreceived (List.cons.inj hevents').1
    exact tmp.received_map.1 hmap
  · rintro ⟨hbuf, hvalid⟩
    refine ⟨_, hpacket, fun b hb => ?_⟩
    obtain ⟨hlength, s, hret, hevents⟩ := gtpv1uReceiver_returns hpacket hsize hb hinst htunnel
    exact ⟨hlength, s, originInstance, tunnel, tmp.received, hret, hinst, htunnel,
      hevents.trans (if_neg hbuf), hreceived, tmp.received_map.2 hvalid⟩

/-- The round trip of an SDU, the shape of every extension header, and the sequence number of an
echo response : all hold if and only if the SDU is not empty and the sequence number has two equal
octets. -/
theorem gtpuRoundTrip_iff (g : GtpuContext) (tmp : GtpuBearer) (buf : List UInt8)
    (seqNumFlag npduNumFlag : Bool) (b : UdpData)
    (hsize : tmp.headerLength seqNumFlag npduNumFlag + buf.length < 2 ^ 16) :
    ((g.Knows tmp → g.RoundTrip tmp buf seqNumFlag npduNumFlag) ∧
      (∀ h, BuiltExtHeader h → IsExtHeader h) ∧ (b.EchoRequest → g.Echoes b)) ↔
        (g.Knows tmp → buf ≠ [] ∧ tmp.ValidQfi) ∧ (b.EchoRequest → b.octet 8 = b.octet 9) := by
  refine and_congr (forall_congr' fun hknows => roundTrip_iff hsize hknows) ?_
  rw [and_iff_right fun h hh => BuiltExtHeader.isExtHeader hh]
  exact forall_congr' fun h => echoes_iff h

/-- A bearer to the tunnel of `oneTunnelContext`. -/
def sampleBearer : GtpuBearer :=
  ⟨7, 1, .replicate 4 0, .replicate 16 0, 2152, 258, 3, 5⟩

/-- An echo request with the sequence number 0x0102. -/
def sampleEcho : UdpData where
  datagram := [0x32, 1, 0, 4, 0, 0, 0, 0, 1, 2, 0, 0]
  stale := fun _ => 0
  length_le := by decide

theorem gtpuRoundTrip_iff_sample :
    ((GtpuContext.oneTunnelContext.Knows sampleBearer →
        GtpuContext.oneTunnelContext.RoundTrip sampleBearer [0xab, 0xcd] true false) ∧
      (∀ h, BuiltExtHeader h → IsExtHeader h) ∧
        (sampleEcho.EchoRequest → GtpuContext.oneTunnelContext.Echoes sampleEcho)) ↔
      (GtpuContext.oneTunnelContext.Knows sampleBearer →
          ([0xab, 0xcd] : List UInt8) ≠ [] ∧ sampleBearer.ValidQfi) ∧
        (sampleEcho.EchoRequest → sampleEcho.octet 8 = sampleEcho.octet 9) :=
  gtpuRoundTrip_iff GtpuContext.oneTunnelContext sampleBearer [0xab, 0xcd] true false sampleEcho
    (by decide)

/-- The echo response has the sequence number 0x0201. -/
theorem not_gtpuEcho : sampleEcho.EchoRequest ∧
    ¬GtpuContext.oneTunnelContext.Echoes sampleEcho := by
  have hrequest : sampleEcho.EchoRequest := ⟨by decide, by decide, by decide, by decide, by decide,
    by decide⟩
  exact ⟨hrequest, fun h => absurd ((echoes_iff hrequest).1 h) (by decide)⟩

end NrStack
