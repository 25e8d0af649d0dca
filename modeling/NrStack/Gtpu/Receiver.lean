import NrStack.Gtpu.Tunnels

/-!
# The GTP-U receiver

`gtpv1uReceiver` and what it calls : the messages of a socket are told apart by their type, and for
a G-PDU the chain of extension headers is walked, with `gtp_lock` held (`walkExtensions`).

`GtpuRx` is what is seen of a run : the octets of `udpData` that were read, whether the lock is
held, and what was called or sent. A loop that does not end is `none` for every fuel.
-/

namespace NrStack

open Std

/-! ## The datagram -/

/-- `udpData` after `recvfrom`. What follows the datagram is what was there before. -/
structure UdpData where
  datagram : List UInt8
  stale : ℕ → UInt8
  length_le : datagram.length ≤ 65536

namespace UdpData

variable (b : UdpData)

/-- `udpDataLen`. -/
def length : ℕ :=
  b.datagram.length

/-- `msgBuf[i]`. -/
def octet (i : ℕ) : UInt8 :=
  b.datagram.getD i (b.stale i)

end UdpData

/-- `Gtpv1uMsgHeaderT`. -/
structure Gtpv1uMsgHeader where
  pn : Bool
  s : Bool
  e : Bool
  pt : Bool
  version : ℕ
  msgType : UInt8
  msgLength : ℕ
  teid : UInt32
deriving DecidableEq

/-- `sizeof(Gtpv1uMsgHeaderT)`. -/
def sizeofGtpv1uMsgHeader : ℕ :=
  8

/-- The header at the start of the datagram. -/
def UdpData.msgHeader (b : UdpData) : Gtpv1uMsgHeader where
  pn := (b.octet 0).toNat.testBit 0
  s := (b.octet 0).toNat.testBit 1
  e := (b.octet 0).toNat.testBit 2
  pt := (b.octet 0).toNat.testBit 4
  version := (b.octet 0).toNat / 32
  msgType := b.octet 1
  msgLength := (b.octet 2).toNat * 256 + (b.octet 3).toNat
  teid := UInt32.ofNat ((((b.octet 4).toNat * 256 + (b.octet 5).toNat) * 256 +
    (b.octet 6).toNat) * 256 + (b.octet 7).toNat)

/-! ## A run -/

/-- A call of a callback, with what it is given that is not constant, or a datagram that is sent. -/
inductive GtpuEvent
  | callBack (f : UInt64) (originInstance : Int64) (rntiMaybeUEid : UInt64) (rbId : UInt8)
      (sduBuffer : List UInt8)
  | callBackSDAP (f : UInt64) (originInstance : Int64) (ueId : UInt64) (rbId : UInt8)
      (sduBuffer : List UInt8) (qfi : UInt8) (rqi : Bool) (pdusessionId : Int32)
  | sendto (peerIp : UInt32) (peerPort : UInt16) (packet : List UInt8)
deriving DecidableEq

/-- What is seen of a run. -/
structure GtpuRx where
  reads : List ℕ
  locked : Bool
  events : List GtpuEvent

namespace GtpuRx

/-- Nothing has been done. -/
def init : GtpuRx :=
  ⟨[], false, []⟩

variable (s : GtpuRx)

/-- Read `msgBuf[i]`. -/
def readOctet (b : UdpData) (i : ℕ) : UInt8 × GtpuRx :=
  (b.octet i, { s with reads := s.reads ++ [i] })

/-- Read the header. -/
def readHeader (b : UdpData) : Gtpv1uMsgHeader × GtpuRx :=
  (b.msgHeader, { s with reads := s.reads ++ List.range sizeofGtpv1uMsgHeader })

/-- `pthread_mutex_lock`. -/
def lock : GtpuRx :=
  { s with locked := true }

/-- `pthread_mutex_unlock`. -/
def unlock : GtpuRx :=
  { s with locked := false }

/-- A call, or a datagram that is sent. -/
def event (a : GtpuEvent) : GtpuRx :=
  { s with events := s.events ++ [a] }

end GtpuRx

/-- What a run depends on besides the datagram : the socket and the endpoints, the sender's address,
`nr_rlc_get_available_tx_space`, and the flags that are not set in a delivery status. -/
structure GtpuContext where
  h : Int32
  legacyInstanceMapping : Int64
  /-- `originInstance` of the endpoints. -/
  instances : ExtTreeMap UInt64 Int64
  endPoints : GtpEndPoints
  peerPort : UInt16
  peerIp : UInt32
  nrRlcGetAvailableTxSpace : UInt32 → UInt32 → UInt32
  /-- The two octets of `DlDataDeliveryStatus_flagsT` that are flags, before any is set. -/
  uninitialized : UInt8 × UInt8

namespace GtpuContext

variable (g : GtpuContext)

/-- `getInstRetInt(h)`, with `compatInst`. -/
def inst? : Option Int64 :=
  g.instances[(if g.h = 0 ∨ g.h = 65534 then g.legacyInstanceMapping else g.h.toInt64).toUInt64]?

/-! ## What is sent -/

/-- The loop of `gtpv1uCreateAndSendMsg` over the extension headers, all of them in one buffer. -/
def putExtensionHeaders (extensionHeaderBuffer : List UInt8) :
    (fuel : ℕ) → (extHdrType : UInt8) → (out : List UInt8) → Option (List UInt8)
  | 0, _, _ => none
  | fuel + 1, extHdrType, out =>
    if extHdrType = 0 then some out
    else
      match extensionHeaderBuffer.getLast? with
      | some next =>
        putExtensionHeaders extensionHeaderBuffer fuel next (out ++ extensionHeaderBuffer)
      | none => putExtensionHeaders extensionHeaderBuffer fuel extHdrType out

/-- `gtpv1uCreateAndSendMsg`, with no N-PDU number. The sequence number is written as it is in
memory. -/
def createAndSendMsg (fuel : ℕ) (msgType : UInt8) (teid : UInt32) (msg : List UInt8)
    (seqNumFlag : Bool) (seqNum : UInt16) (extHdrType : UInt8)
    (extensionHeaderBuffer : List UInt8) (s : GtpuRx) : Option GtpuRx :=
  let octet (n k : ℕ) : UInt8 := UInt8.ofNat (n / 256 ^ k)
  let optional : List UInt8 :=
    if seqNumFlag ∨ extHdrType ≠ 0 then
      let seq := if seqNumFlag then seqNum.toNat else 0
      [octet seq 0, octet seq 1, 0, extHdrType]
    else []
  (putExtensionHeaders extensionHeaderBuffer fuel extHdrType optional).map fun optional =>
    let flags : ℕ := 32 + 16 + (if extHdrType ≠ 0 then 4 else 0) + (if seqNumFlag then 2 else 0)
    let msgLength := (optional ++ msg).length
    s.event (.sendto g.peerIp g.peerPort ([UInt8.ofNat flags, msgType, octet msgLength 1,
      octet msgLength 0, octet teid.toNat 3, octet teid.toNat 2, octet teid.toNat 1,
      octet teid.toNat 0] ++ optional ++ msg))

/-! ## Echo requests and end markers -/

/-- `Gtpv1uHandleEchoReq`. -/
def gtpv1uHandleEchoReq (fuel : ℕ) (b : UdpData) (s : GtpuRx) : Option GtpuRx :=
  let (msgHdr, s) := s.readHeader b
  if msgHdr.version ≠ 1 ∨ msgHdr.pt = false then some s
  else if msgHdr.s = false then some s
  else
    let (seq1, s) := s.readOctet b sizeofGtpv1uMsgHeader
    let (seq2, s) := s.readOctet b (sizeofGtpv1uMsgHeader + 1)
    g.createAndSendMsg fuel 2 msgHdr.teid [14, 0] true
      (UInt16.ofNat (seq1.toNat * 256 + seq2.toNat)) 0 [] s

/-- `Gtpv1uHandleEndMarker`. -/
def gtpv1uHandleEndMarker (b : UdpData) (s : GtpuRx) : GtpuRx :=
  let (msgHdr, s) := s.readHeader b
  if msgHdr.version ≠ 1 ∨ msgHdr.pt = false then s
  else
    let s := s.lock
    match g.inst?, g.endPoints.handleGpdu msgHdr.teid with
    | none, _ => s.unlock
    | some _, none => s.unlock
    | some originInstance, some tunnel =>
      s.unlock.event (.callBack tunnel.callBack originInstance tunnel.ueId tunnel.incomingRbId [])

end GtpuContext

/-! ## Extension headers -/

/-- What the extension headers tell : `qfi`, with `none` for -1, `rqi` and `NR_PDCP_PDU_SN`. -/
structure ExtInfo where
  qfi : Option UInt8
  rqi : Bool
  nrPdcpPduSn : ℕ
deriving DecidableEq

/-- Before the first extension header. -/
def ExtInfo.init : ExtInfo :=
  ⟨none, false, 0⟩

namespace UdpData

variable (b : UdpData)

/-- The case of a PDU session container. The check is made from the length octet. -/
def pduSessionContainer (offset : ℕ) (x : ExtInfo) (s : GtpuRx) : GtpuRx × Option ExtInfo :=
  if offset + 2 > b.length then (s, none)
  else
    let (octet, s) := s.readOctet b (offset + 1 + 1)
    (s, some { x with qfi := some (octet &&& 0x3f), rqi := octet.toNat.testBit 6 })

/-- Where the SN is in a DL USER DATA frame with these flags, from the length octet. -/
def additionalOffset (flags : UInt8) : ℕ :=
  6 + (if flags.toNat.testBit 2 then 9 else 0) + (if flags.toNat.testBit 1 then 3 else 0)

/-- The case of a NR RAN container. -/
def nrRanContainer (offset : ℕ) (x : ExtInfo) (s : GtpuRx) : GtpuRx × Option ExtInfo :=
  if offset + 1 > b.length then (s, none)
  else
    let (flags, s) := s.readOctet b (offset + 1)
    if flags >>> 4 = 0 then
      let (report, s) := s.readOctet b (offset + 2)
      if report.toNat.testBit 3 then
        let (sn1, s) := s.readOctet b (offset + additionalOffset flags)
        let (sn2, s) := s.readOctet b (offset + additionalOffset flags + 1)
        let (sn3, s) := s.readOctet b (offset + additionalOffset flags + 2)
        (s, some { x with nrPdcpPduSn := (sn1.toNat * 256 + sn2.toNat) * 256 + sn3.toNat })
      else (s, some x)
    else (s, some x)

/-- The `switch` over the type; `none` is a return, with the lock held. -/
def extension (type : UInt8) (offset : ℕ) (x : ExtInfo) (s : GtpuRx) : GtpuRx × Option ExtInfo :=
  if type = 0x85 then b.pduSessionContainer offset x s
  else if type = 0x84 then b.nrRanContainer offset x s
  else (s, some x)

/-- The loop over the extension headers, with `fuel` turns left. -/
def walkExtensions : (fuel : ℕ) → (type : UInt8) → (offset : ℕ) → ExtInfo → GtpuRx →
    Option (GtpuRx × Option (ℕ × ExtInfo))
  | 0, _, _, _, _ => none
  | fuel + 1, type, offset, x, s =>
    if type = 0 then some (s, some (offset, x))
    else
      let (extensionHeaderLength, s) := s.readOctet b offset
      match b.extension type offset x s with
      | (s, none) => some (s, none)
      | (s, some x) =>
        let offset := offset + extensionHeaderLength.toNat * 4
        if offset > b.length then some (s, none)
        else
          let (type, s) := s.readOctet b (offset - 1)
          walkExtensions fuel type offset x s

/-- The extension headers, if there are any. -/
def extensionHeaders (fuel : ℕ) (offset : ℕ) (s : GtpuRx) :
    Option (GtpuRx × Option (ℕ × ExtInfo)) :=
  if b.msgHeader.e then
    let (type, s) := s.readOctet b (offset - 1)
    b.walkExtensions fuel type offset .init s
  else some (s, some (offset, .init))

end UdpData

/-! ## G-PDUs -/

namespace GtpuContext

variable (g : GtpuContext)

/-- The DL DATA DELIVERY STATUS for a PDCP SN. -/
def deliveryStatus (txSpace : UInt32) (nrPdcpPduSn : ℕ) : List UInt8 :=
  let octet (n k : ℕ) : UInt8 := UInt8.ofNat (n / 256 ^ k)
  [3, 0x18 ||| (g.uninitialized.1 &&& 3), g.uninitialized.2] ++
    [octet txSpace.toNat 3, octet txSpace.toNat 2, octet txSpace.toNat 1, octet txSpace.toNat 0] ++
    [octet nrPdcpPduSn 2, octet nrPdcpPduSn 1, octet nrPdcpPduSn 0, 0, 0]

/-- The call for the SDU that follows the extension headers. -/
def deliver (b : UdpData) (originInstance : Int64) (tunnel : UeidData) (offset : ℕ) (x : ExtInfo)
    (s : GtpuRx) : GtpuRx :=
  let sduBufferSize : Int := b.length - offset
  let sduBuffer := (List.range sduBufferSize.toNat).map fun i => b.octet (offset + i)
  if sduBufferSize > 0 then
    match x.qfi with
    | some qfi =>
      if tunnel.callBackSDAP ≠ 0 then
        s.event (.callBackSDAP tunnel.callBackSDAP originInstance tunnel.ueId tunnel.incomingRbId
          sduBuffer qfi x.rqi tunnel.pdusessionId)
      else
        s.event (.callBack tunnel.callBack originInstance tunnel.ueId tunnel.incomingRbId sduBuffer)
    | none =>
      s.event (.callBack tunnel.callBack originInstance tunnel.ueId tunnel.incomingRbId sduBuffer)
  else s

/-- What is done with a G-PDU of a tunnel, `gtp_lock` being held. -/
def handleTunnelGpdu (fuel : ℕ) (b : UdpData) (originInstance : Int64) (tunnel : UeidData)
    (s : GtpuRx) : Option GtpuRx :=
  let offset := sizeofGtpv1uMsgHeader +
    if b.msgHeader.e ∨ b.msgHeader.s ∨ b.msgHeader.pn then 4 else 0
  match b.extensionHeaders fuel offset s with
  | none => none
  -- the header is malformed : the packet is ignored
  | some (s, none) => some s
  | some (s, some (offset, x)) =>
    let s := deliver b originInstance tunnel offset x s.unlock
    if x.nrPdcpPduSn > 0 ∧ x.nrPdcpPduSn % 5 = 0 then
      let txSpace :=
        g.nrRlcGetAvailableTxSpace tunnel.ueId.toUInt32 (tunnel.incomingRbId.toUInt32 + 3)
      g.createAndSendMsg fuel 255 tunnel.outgoingTeid [] false 0 0x84
        (g.deliveryStatus txSpace x.nrPdcpPduSn) s
    else some s

/-- `Gtpv1uHandleGpdu`. -/
def gtpv1uHandleGpdu (fuel : ℕ) (b : UdpData) (s : GtpuRx) : Option GtpuRx :=
  let (msgHdr, s) := s.readHeader b
  if msgHdr.version ≠ 1 ∨ msgHdr.pt = false then some s
  else
    let s := s.lock
    match g.inst?, g.endPoints.handleGpdu msgHdr.teid with
    | none, _ => some s.unlock
    | some _, none => some s.unlock
    | some originInstance, some tunnel => g.handleTunnelGpdu fuel b originInstance tunnel s

/-- `gtpv1uReceiver`, for a datagram that was received. -/
def gtpv1uReceiver (fuel : ℕ) (b : UdpData) : Option GtpuRx :=
  let s := GtpuRx.init
  if b.length = 0 then some s
  else if b.length < sizeofGtpv1uMsgHeader then some s
  else
    let (msg, s) := s.readHeader b
    if msg.msgLength + sizeofGtpv1uMsgHeader ≠ b.length then some s
    else if msg.msgType = 1 then g.gtpv1uHandleEchoReq fuel b s
    else if msg.msgType = 254 then some (g.gtpv1uHandleEndMarker b s)
    else if msg.msgType = 255 then g.gtpv1uHandleGpdu fuel b s
    -- an echo response, an error indication, supported extension headers, or an unknown type
    else some s

end GtpuContext

end NrStack
