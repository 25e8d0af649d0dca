import NrStack.Library.Wire

/-!
# nFAPI P7 messages and their segments

A packed NR P7 message is a header of 18 octets and a body. `vnfNrP7PackAndSendP7Msg` and
`pnfNrP7PackAndSendP7Message` send it as one datagram, or cut its body into segments that each go
behind a copy of the header, with their own length, `m` bit and segment number.

A `P7Buffer` is what such a buffer is made of : what the sender writes into one and what a receiver
reads from one are stated on its parts. `IsSegment` is what a receiver finds in a datagram, and
`packAndSend_eq` says that the datagrams of a message are its segments in order.
-/

namespace NrStack

/-! ## The header -/

/-- `NFAPI_NR_P7_HEADER_LENGTH`. -/
def nfapiNrP7HeaderLength : ℕ :=
  18

/-- `push16` and `push32`, by their size in octets. -/
def pushOctets (n x : ℕ) : List UInt8 :=
  (leOctets n x).reverse

/-- `pull16` and `pull32`. -/
def pullOctets (octets : List UInt8) : ℕ :=
  ofLeOctets octets.reverse

@[simp] theorem length_pushOctets (n x : ℕ) : (pushOctets n x).length = n := by
  rw [pushOctets, List.length_reverse, length_leOctets]

theorem pullOctets_pushOctets {n x : ℕ} (h : x < 256 ^ n) : pullOctets (pushOctets n x) = x := by
  rw [pullOctets, pushOctets, List.reverse_reverse, ofLeOctets_leOctets n x h]

theorem pullOctets_pair (a b : UInt8) : pullOctets [a, b] = a.toNat * 256 + b.toNat := by
  simp only [pullOctets, List.reverse_cons, List.reverse_nil, List.nil_append,
    List.cons_append, ofLeOctets]
  omega

/-- `nfapi_nr_p7_message_header_t`. -/
structure NrP7MessageHeader where
  phyId : ℕ
  messageId : ℕ
  messageLength : ℕ
  mSegmentSequence : ℕ
  checksum : ℕ
  transmitTimestamp : ℕ
deriving DecidableEq

/-- `nfapi_nr_p7_message_header_unpack`. -/
def nfapiNrP7MessageHeaderUnpack (msg : List UInt8) : Option NrP7MessageHeader :=
  if msg.length < nfapiNrP7HeaderLength then none
  else some {
    phyId := pullOctets (msg.take 2)
    messageId := pullOctets ((msg.drop 2).take 2)
    messageLength := pullOctets ((msg.drop 4).take 4)
    mSegmentSequence := pullOctets ((msg.drop 8).take 2)
    checksum := pullOctets ((msg.drop 10).take 4)
    transmitTimestamp := pullOctets ((msg.drop 14).take 4) }

/-- `NFAPI_P7_GET_MORE`. -/
def nfapiP7GetMore (mss : ℕ) : ℕ :=
  mss / 2 ^ 15 % 2

/-- `NFAPI_P7_GET_SEGMENT`. -/
def nfapiP7GetSegment (mss : ℕ) : ℕ :=
  mss / 2 ^ 8 % 2 ^ 7

/-- `NFAPI_P7_GET_SEQUENCE`. -/
def nfapiP7GetSequence (mss : ℕ) : ℕ :=
  mss % 2 ^ 8

/-- `NFAPI_P7_SET_MSS`. Its fields are those of another layout than the one that is read. -/
def nfapiP7SetMss (more segm sequ : ℕ) : ℕ :=
  (more % 2 ^ 1) <<< 7 ||| (segm % 2 ^ 3) <<< 4 ||| sequ % 2 ^ 4

/-! ## Sending -/

/-- What the two ends of a P7 connection are configured with, and zlib's `crc32`. -/
structure P7Config where
  /-- Whether the receiver is the VNF. -/
  toVnf : Bool
  phyId : UInt16
  segmentSize : ℕ
  headerLength_lt : nfapiNrP7HeaderLength < segmentSize
  checksumEnabled : Bool
  crc32 : UInt32 → List UInt8 → UInt32

/-- A message, with the body that `nfapi_nr_p7_message_pack` makes of its fields. -/
structure NrP7Message where
  messageId : UInt16
  transmitTimestamp : UInt32
  body : List UInt8
deriving DecidableEq

/-- The length of a packed message. -/
def NrP7Message.len (msg : NrP7Message) : ℕ :=
  nfapiNrP7HeaderLength + msg.body.length

/-- `nfapi_nr_p7_message_pack`, into a buffer that the message fits. -/
def nfapiNrP7MessagePack (phyId : UInt16) (mss : ℕ) (msg : NrP7Message) : List UInt8 :=
  pushOctets 2 phyId.toNat ++ pushOctets 2 msg.messageId.toNat ++ pushOctets 4 msg.len ++
    pushOctets 2 mss ++ pushOctets 4 0 ++ pushOctets 4 msg.transmitTimestamp.toNat ++ msg.body

/-- `nfapi_nr_calculate_checksum`. The length is a `uint16_t`; of a length below the header's it
reads on far behind the buffer. -/
def nfapiNrCalculateChecksum (crc32 : UInt32 → List UInt8 → UInt32) (buffer : List UInt8) :
    Option UInt32 :=
  let len := buffer.length % 2 ^ 16
  if len < nfapiNrP7HeaderLength then none
  else some (~~~crc32 (crc32 (crc32 0 (buffer.take 10)) [0, 0, 0, 0])
    ((buffer.drop nfapiNrP7HeaderLength).take (len - nfapiNrP7HeaderLength)))

/-- `nfapi_nr_p7_update_checksum`. -/
def nfapiNrP7UpdateChecksum (crc32 : UInt32 → List UInt8 → UInt32) (buffer : List UInt8) :
    Option (List UInt8) :=
  (nfapiNrCalculateChecksum crc32 buffer).map fun checksum =>
    buffer.take 10 ++ pushOctets 4 checksum.toNat ++ buffer.drop 14

/-- `nfapi_nr_p7_update_transmit_timestamp`. -/
def nfapiNrP7UpdateTransmitTimestamp (buffer : List UInt8) (timestamp : UInt32) : List UInt8 :=
  buffer.take 14 ++ pushOctets 4 timestamp.toNat ++ buffer.drop 18

namespace P7Config

variable (cfg : P7Config)

/-- `sizeof(buffer)` of the VNF, `sizeof(tx_buf)` of the PNF. -/
def sendBufferSize : ℕ :=
  if cfg.toVnf then 131072 else 1024 * 1024 * 3

/-- `seg_body_len`. -/
def segBodyLen : ℕ :=
  cfg.segmentSize - nfapiNrP7HeaderLength

/-- `segment_count`. -/
def segmentCount (msg : NrP7Message) : ℕ :=
  msg.body.length / cfg.segBodyLen + if msg.body.length % cfg.segBodyLen ≠ 0 then 1 else 0

/-- `len > segment_size`. -/
def Segmented (msg : NrP7Message) : Prop :=
  cfg.segmentSize < msg.len

instance : DecidablePred cfg.Segmented := fun _ =>
  inferInstanceAs (Decidable (_ < _))

/-- `if (checksum_enabled) nfapi_nr_p7_update_checksum(..)`. -/
def withChecksum (buffer : List UInt8) : Option (List UInt8) :=
  if cfg.checksumEnabled then nfapiNrP7UpdateChecksum cfg.crc32 buffer else some buffer

end P7Config

/-- The VNF stamps its buffer each time it sends, the PNF does not. -/
def stampBuffer (stamps : Option (ℕ → UInt32)) (segment : ℕ) (buffer : List UInt8) : List UInt8 :=
  match stamps with
  | some transmitTimestamp => nfapiNrP7UpdateTransmitTimestamp buffer (transmitTimestamp segment)
  | none => buffer

/-- The header in `tx_buffer` : a copy of the message's with octets 4 to 8 written over. -/
def segmentHeader (buffer : List UInt8) (segmentSize : ℕ) (last : Bool) (segment : ℕ) :
    List UInt8 :=
  buffer.take 4 ++ pushOctets 4 segmentSize ++
    [UInt8.ofNat ((if last then 0 else 2 ^ 7) + segment)] ++
    (buffer.take nfapiNrP7HeaderLength).drop 9

/-- The loop over the segments : the datagrams of the next ones. -/
def sendSegments (cfg : P7Config) (stamps : Option (ℕ → UInt32)) (msg : NrP7Message) :
    ℕ → ℕ → ℕ → List UInt8 → Option (List (List UInt8))
  | 0, _, _, _ => some []
  | n + 1, segment, offset, buffer => do
    let last : Bool := segment + 1 = cfg.segmentCount msg
    let size := if last then msg.body.length - cfg.segBodyLen * segment else cfg.segBodyLen
    let txBuffer ← cfg.withChecksum
      (segmentHeader buffer (size + nfapiNrP7HeaderLength) last segment ++
        (buffer.drop offset).take size)
    let rest ← sendSegments cfg stamps msg n (segment + 1) (offset + size)
      (stampBuffer stamps segment buffer)
    return txBuffer :: rest

/-- The datagrams that a message is sent in. -/
def packAndSend (cfg : P7Config) (stamps : Option (ℕ → UInt32)) (sequenceNumber : ℕ)
    (msg : NrP7Message) : Option (List (List UInt8)) :=
  let buffer := nfapiNrP7MessagePack cfg.phyId (nfapiP7SetMss 0 0 sequenceNumber) msg
  if cfg.Segmented msg then
    sendSegments cfg stamps msg (cfg.segmentCount msg) 0 nfapiNrP7HeaderLength buffer
  else do
    let buffer ← cfg.withChecksum buffer
    return [stampBuffer stamps 0 buffer]

/-- `vnf_nr_p7_pack_and_send_p7_msg`, with the times that `calculate_transmit_timestamp` gives. -/
def vnfNrP7PackAndSendP7Msg (cfg : P7Config) (transmitTimestamp : ℕ → UInt32)
    (sequenceNumber : ℕ) (msg : NrP7Message) : Option (List (List UInt8)) :=
  packAndSend cfg (some transmitTimestamp) sequenceNumber msg

/-- `pnf_nr_p7_pack_and_send_p7_message`. -/
def pnfNrP7PackAndSendP7Message (cfg : P7Config) (sequenceNumber : ℕ) (msg : NrP7Message) :
    Option (List (List UInt8)) :=
  packAndSend cfg none sequenceNumber msg

/-! ## The parts of a buffer -/

/-- What a buffer with a header is made of. -/
structure P7Buffer where
  ids : List UInt8
  messageLength : List UInt8
  /-- The `m` bit and the segment number. -/
  mSegment : UInt8
  sequence : UInt8
  checksum : List UInt8
  timestamp : List UInt8
  body : List UInt8
  length_ids : ids.length = 4
  length_messageLength : messageLength.length = 4
  length_checksum : checksum.length = 4
  length_timestamp : timestamp.length = 4

namespace P7Buffer

variable (b : P7Buffer)

/-- The octets of the buffer. -/
def octets : List UInt8 :=
  b.ids ++ (b.messageLength ++ (b.mSegment :: b.sequence :: (b.checksum ++ (b.timestamp ++ b.body))))

@[simp] theorem length_octets : b.octets.length = nfapiNrP7HeaderLength + b.body.length := by
  simp only [octets, List.length_append, List.length_cons, b.length_ids, b.length_messageLength,
    b.length_checksum, b.length_timestamp, nfapiNrP7HeaderLength]
  omega

/-- The parts of a buffer, by where they are. -/
theorem cut (n : ℕ) (h : n ≤ 4) : b.octets.take n = b.ids.take n ∧
    (b.octets.drop n).take (4 - n) = b.ids.drop n := by
  constructor
  · exact List.take_append_of_le_length (by rw [b.length_ids]; exact h)
  · rw [octets, List.drop_append_of_le_length (by rw [b.length_ids]; exact h)]
    exact List.take_left' (by rw [List.length_drop, b.length_ids])

theorem drop_four : b.octets.drop 4 =
    b.messageLength ++ (b.mSegment :: b.sequence :: (b.checksum ++ (b.timestamp ++ b.body))) :=
  List.drop_left' b.length_ids

theorem drop_eight : b.octets.drop 8 =
    b.mSegment :: b.sequence :: (b.checksum ++ (b.timestamp ++ b.body)) := by
  rw [← List.drop_drop (i := 4) (j := 4), drop_four]
  exact List.drop_left' b.length_messageLength

theorem drop_ten : b.octets.drop 10 = b.checksum ++ (b.timestamp ++ b.body) := by
  rw [← List.drop_drop (i := 2) (j := 8), drop_eight]
  rfl

theorem drop_fourteen : b.octets.drop 14 = b.timestamp ++ b.body := by
  rw [← List.drop_drop (i := 4) (j := 10), drop_ten]
  exact List.drop_left' b.length_checksum

theorem drop_eighteen : b.octets.drop 18 = b.body := by
  rw [← List.drop_drop (i := 4) (j := 14), drop_fourteen]
  exact List.drop_left' b.length_timestamp

theorem take_ten : b.octets.take 10 = b.ids ++ (b.messageLength ++ [b.mSegment, b.sequence]) := by
  have h : b.octets = (b.ids ++ (b.messageLength ++ [b.mSegment, b.sequence])) ++
      (b.checksum ++ (b.timestamp ++ b.body)) := by
    simp only [octets, List.append_assoc, List.cons_append, List.nil_append]
  rw [h]
  exact List.take_left' (by simp [b.length_ids, b.length_messageLength])

theorem take_fourteen : b.octets.take 14 =
    b.ids ++ (b.messageLength ++ (b.mSegment :: b.sequence :: b.checksum)) := by
  have h : b.octets = (b.ids ++ (b.messageLength ++ (b.mSegment :: b.sequence :: b.checksum))) ++
      (b.timestamp ++ b.body) := by
    simp only [octets, List.append_assoc, List.cons_append]
  rw [h]
  exact List.take_left' (by simp [b.length_ids, b.length_messageLength, b.length_checksum])

theorem headerUnpack : nfapiNrP7MessageHeaderUnpack b.octets = some {
    phyId := pullOctets (b.ids.take 2)
    messageId := pullOctets (b.ids.drop 2)
    messageLength := pullOctets b.messageLength
    mSegmentSequence := b.mSegment.toNat * 256 + b.sequence.toNat
    checksum := pullOctets b.checksum
    transmitTimestamp := pullOctets b.timestamp } := by
  rw [nfapiNrP7MessageHeaderUnpack, if_neg (by rw [length_octets]; omega), (b.cut 2 (by decide)).1,
    (b.cut 2 (by decide)).2, drop_four, drop_eight, drop_ten, drop_fourteen,
    List.take_left' b.length_messageLength, List.take_left' b.length_checksum,
    List.take_left' b.length_timestamp]
  simp only [List.take_succ_cons, List.take_zero, pullOctets_pair]

/-- The same buffer but for the checksum and the timestamp. -/
structure Alike (b b' : P7Buffer) : Prop where
  ids : b'.ids = b.ids
  messageLength : b'.messageLength = b.messageLength
  mSegment : b'.mSegment = b.mSegment
  sequence : b'.sequence = b.sequence
  body : b'.body = b.body

theorem Alike.calculateChecksum {b b' : P7Buffer} (h : b.Alike b')
    (crc32 : UInt32 → List UInt8 → UInt32) :
    nfapiNrCalculateChecksum crc32 b'.octets = nfapiNrCalculateChecksum crc32 b.octets := by
  simp only [nfapiNrCalculateChecksum, length_octets, take_ten, nfapiNrP7HeaderLength,
    drop_eighteen, h.ids, h.messageLength, h.mSegment, h.sequence, h.body]

/-- The buffer with another checksum. -/
def setChecksum (checksum : UInt32) : P7Buffer where
  __ := b
  checksum := pushOctets 4 checksum.toNat
  length_checksum := length_pushOctets 4 _

/-- The buffer with another timestamp. -/
def setTimestamp (timestamp : UInt32) : P7Buffer where
  __ := b
  timestamp := pushOctets 4 timestamp.toNat
  length_timestamp := length_pushOctets 4 _

/-- The buffer of a segment with the body `body`. -/
def segment (mSegment : UInt8) (body : List UInt8) : P7Buffer where
  __ := b
  messageLength := pushOctets 4 (body.length + nfapiNrP7HeaderLength)
  mSegment := mSegment
  body := body
  length_messageLength := length_pushOctets 4 _

theorem updateChecksum {crc32 : UInt32 → List UInt8 → UInt32} {checksum : UInt32}
    (h : nfapiNrCalculateChecksum crc32 b.octets = some checksum) :
    nfapiNrP7UpdateChecksum crc32 b.octets = some (b.setChecksum checksum).octets := by
  rw [nfapiNrP7UpdateChecksum, h, Option.map_some, take_ten, drop_fourteen]
  simp only [octets, setChecksum, List.append_assoc, List.cons_append, List.nil_append]

theorem updateTransmitTimestamp (timestamp : UInt32) :
    nfapiNrP7UpdateTransmitTimestamp b.octets timestamp = (b.setTimestamp timestamp).octets := by
  rw [nfapiNrP7UpdateTransmitTimestamp, take_fourteen, drop_eighteen]
  simp only [octets, setTimestamp, List.append_assoc, List.cons_append]

theorem segmentHeader_append (last : Bool) (k : ℕ) (body : List UInt8) :
    segmentHeader b.octets (body.length + nfapiNrP7HeaderLength) last k ++ body =
      (b.segment (UInt8.ofNat ((if last then 0 else 2 ^ 7) + k)) body).octets := by
  have hdrop : (b.octets.take 18).drop 9 = b.sequence :: (b.checksum ++ b.timestamp) := by
    have h : b.octets = (b.ids ++ b.messageLength ++ [b.mSegment]) ++
        ((b.sequence :: (b.checksum ++ b.timestamp)) ++ b.body) := by
      simp only [octets, List.append_assoc, List.cons_append, List.nil_append]
    rw [List.drop_take, h, List.drop_left' (by simp [b.length_ids, b.length_messageLength])]
    exact List.take_left' (by simp [b.length_checksum, b.length_timestamp])
  have htake : b.octets.take 4 = b.ids := List.take_left' b.length_ids
  rw [segmentHeader, nfapiNrP7HeaderLength, hdrop, htake]
  simp only [octets, segment, nfapiNrP7HeaderLength, List.append_assoc, List.cons_append,
    List.nil_append]

/-- The buffer of a packed message. -/
def packed (phyId : UInt16) (mss : ℕ) (msg : NrP7Message) : P7Buffer where
  ids := pushOctets 2 phyId.toNat ++ pushOctets 2 msg.messageId.toNat
  messageLength := pushOctets 4 msg.len
  mSegment := UInt8.ofNat (mss / 256)
  sequence := UInt8.ofNat mss
  checksum := pushOctets 4 0
  timestamp := pushOctets 4 msg.transmitTimestamp.toNat
  body := msg.body
  length_ids := by rw [List.length_append, length_pushOctets, length_pushOctets]
  length_messageLength := length_pushOctets 4 _
  length_checksum := length_pushOctets 4 _
  length_timestamp := length_pushOctets 4 _

theorem octets_packed (phyId : UInt16) (mss : ℕ) (msg : NrP7Message) :
    (packed phyId mss msg).octets = nfapiNrP7MessagePack phyId mss msg := by
  simp only [octets, packed, nfapiNrP7MessagePack, List.append_assoc]
  rfl

end P7Buffer

/-! ## The datagrams of a message -/

namespace P7Config

variable (cfg : P7Config) (msg : NrP7Message)

/-- How many datagrams a message is sent in. -/
def segments : ℕ :=
  if cfg.Segmented msg then cfg.segmentCount msg else 1

/-- The part of the body in the datagram `k`. -/
def chunk (k : ℕ) : List UInt8 :=
  if cfg.Segmented msg then (msg.body.drop (cfg.segBodyLen * k)).take cfg.segBodyLen else msg.body

/-- The octet with the `m` bit and the segment number. -/
def mSegment (k : ℕ) : UInt8 :=
  UInt8.ofNat ((if k + 1 = cfg.segments msg then 0 else 2 ^ 7) + k)

variable {cfg msg}

theorem segBodyLen_pos : 0 < cfg.segBodyLen := by
  have h := cfg.headerLength_lt
  unfold segBodyLen
  omega

theorem lt_segmentCount {k : ℕ} :
    k < cfg.segmentCount msg ↔ cfg.segBodyLen * k < msg.body.length := by
  have hpos := cfg.segBodyLen_pos
  have hdiv := Nat.div_add_mod msg.body.length cfg.segBodyLen
  have hmod := Nat.mod_lt msg.body.length hpos
  rw [segmentCount]
  generalize msg.body.length / cfg.segBodyLen = q at hdiv ⊢
  generalize msg.body.length % cfg.segBodyLen = r at hdiv hmod ⊢
  rw [← hdiv]
  rcases Nat.lt_or_ge q k with hk | hk
  · have h : cfg.segBodyLen * (q + 1) ≤ cfg.segBodyLen * k := Nat.mul_le_mul_left _ hk
    rw [Nat.mul_add, Nat.mul_one] at h
    refine iff_of_false ?_ (by omega)
    split_ifs <;> omega
  · rcases Nat.eq_zero_or_pos r with rfl | hr
    · rw [if_neg (fun h => h rfl), Nat.add_zero, Nat.add_zero, Nat.mul_lt_mul_left hpos]
    · have h : cfg.segBodyLen * k ≤ cfg.segBodyLen * q := Nat.mul_le_mul_left _ hk
      rw [if_pos (Nat.pos_iff_ne_zero.1 hr)]
      exact iff_of_true (by omega) (by omega)

/-- What the sender takes for the size of a segment is that of its part of the body. -/
theorem length_chunk (h : cfg.Segmented msg) {k : ℕ} (hk : k < cfg.segmentCount msg) :
    (cfg.chunk msg k).length = if k + 1 = cfg.segmentCount msg then
      msg.body.length - cfg.segBodyLen * k else cfg.segBodyLen := by
  rw [chunk, if_pos h, List.length_take, List.length_drop]
  have hnext : k + 1 < cfg.segmentCount msg ↔ cfg.segBodyLen * (k + 1) < msg.body.length :=
    lt_segmentCount
  rw [Nat.mul_add, Nat.mul_one] at hnext
  split_ifs with hlast
  · omega
  · have := hnext.1 (by omega)
    omega

theorem one_lt_segments (h : cfg.Segmented msg) : 1 < cfg.segments msg := by
  have hlt := cfg.headerLength_lt
  rw [segments, if_pos h, lt_segmentCount, Nat.mul_one]
  unfold Segmented NrP7Message.len segBodyLen at *
  omega

theorem take_chunk (h : cfg.Segmented msg) (k : ℕ) :
    (msg.body.drop (cfg.segBodyLen * k)).take (cfg.chunk msg k).length = cfg.chunk msg k := by
  rw [chunk, if_pos h, List.length_take, ← List.take_take, List.take_length]

theorem flatten_take (m : ℕ) : ((List.range m).map fun k =>
    (msg.body.drop (cfg.segBodyLen * k)).take cfg.segBodyLen).flatten =
      msg.body.take (cfg.segBodyLen * m) := by
  induction m with
  | zero => rfl
  | succ m ih =>
    rw [List.range_succ, List.map_append, List.flatten_append, ih, Nat.mul_succ, List.take_add]
    exact congrArg _ (List.append_nil _)

/-- The parts of the body make the body. -/
theorem flatten_chunks (h : cfg.Segmented msg) :
    ((List.range (cfg.segments msg)).map (cfg.chunk msg)).flatten = msg.body := by
  have hall : cfg.segments msg < cfg.segmentCount msg ↔
      cfg.segBodyLen * cfg.segments msg < msg.body.length := lt_segmentCount
  have hcount : cfg.segments msg = cfg.segmentCount msg := if_pos h
  have hchunk : cfg.chunk msg = fun k =>
      (msg.body.drop (cfg.segBodyLen * k)).take cfg.segBodyLen := funext fun k => if_pos h
  rw [hchunk, flatten_take, List.take_of_length_le]
  omega

/-- Up to 128 segments the octet has place for the `m` bit and the number. -/
theorem toNat_mSegment (h : cfg.segments msg ≤ 128) {k : ℕ} (hk : k < cfg.segments msg) :
    (cfg.mSegment msg k).toNat = (if k + 1 = cfg.segments msg then 0 else 2 ^ 7) + k := by
  rw [mSegment, UInt8.toNat_ofNat']
  split_ifs <;> omega

end P7Config

/-- A datagram is the segment `k` of a message, for its receiver. -/
structure IsSegment (cfg : P7Config) (sequenceNumber : ℕ) (msg : NrP7Message) (k : ℕ)
    (datagram : List UInt8) : Prop where
  header : ∃ header, nfapiNrP7MessageHeaderUnpack datagram = some header ∧
    header.phyId = cfg.phyId.toNat ∧
    header.mSegmentSequence = (cfg.mSegment msg k).toNat * 256 + sequenceNumber % 16 ∧
    (cfg.checksumEnabled →
      (nfapiNrCalculateChecksum cfg.crc32 datagram).map UInt32.toNat = some header.checksum)
  length : datagram.length = nfapiNrP7HeaderLength + (cfg.chunk msg k).length
  body : datagram.drop nfapiNrP7HeaderLength = cfg.chunk msg k

/-- The fields of the header, of a message in up to 128 segments. -/
theorem IsSegment.fields {cfg : P7Config} {sequenceNumber : ℕ} {msg : NrP7Message} {k : ℕ}
    {datagram : List UInt8} (hd : IsSegment cfg sequenceNumber msg k datagram)
    (h : cfg.segments msg ≤ 128) (hk : k < cfg.segments msg) :
    ∃ header, nfapiNrP7MessageHeaderUnpack datagram = some header ∧
      header.phyId = cfg.phyId.toNat ∧
      nfapiP7GetMore header.mSegmentSequence = (if k + 1 = cfg.segments msg then 0 else 1) ∧
      nfapiP7GetSegment header.mSegmentSequence = k ∧
      nfapiP7GetSequence header.mSegmentSequence = sequenceNumber % 16 ∧
      (cfg.checksumEnabled →
        (nfapiNrCalculateChecksum cfg.crc32 datagram).map UInt32.toNat = some header.checksum) := by
  obtain ⟨header, hunpack, hphy, hmss, hchecksum⟩ := hd.header
  rw [P7Config.toNat_mSegment h hk] at hmss
  refine ⟨header, hunpack, hphy, ?_, ?_, ?_, hchecksum⟩
  · rw [nfapiP7GetMore, hmss]
    split_ifs <;> omega
  · rw [nfapiP7GetSegment, hmss]
    split_ifs <;> omega
  · rw [nfapiP7GetSequence, hmss]
    omega

namespace P7Buffer

variable {cfg : P7Config} {sequenceNumber : ℕ} {msg : NrP7Message} {b b' : P7Buffer}

/-- The checksum in the buffer is right. -/
def ChecksumOk (cfg : P7Config) (b : P7Buffer) : Prop :=
  cfg.checksumEnabled →
    (nfapiNrCalculateChecksum cfg.crc32 b.octets).map UInt32.toNat = some (pullOctets b.checksum)

/-- The buffer begins like the packed message. -/
structure From (cfg : P7Config) (sequenceNumber : ℕ) (b : P7Buffer) : Prop where
  phyId : pullOctets (b.ids.take 2) = cfg.phyId.toNat
  sequence : b.sequence.toNat = sequenceNumber % 16

theorem From.alike (h : From cfg sequenceNumber b) (hb : b.Alike b') :
    From cfg sequenceNumber b' :=
  ⟨hb.ids ▸ h.phyId, hb.sequence ▸ h.sequence⟩

theorem stamp (b : P7Buffer) (stamps : Option (ℕ → UInt32)) (k : ℕ) :
    ∃ b', stampBuffer stamps k b.octets = b'.octets ∧ b.Alike b' ∧ b'.checksum = b.checksum := by
  cases stamps with
  | none => exact ⟨b, rfl, ⟨rfl, rfl, rfl, rfl, rfl⟩, rfl⟩
  | some transmitTimestamp =>
    exact ⟨_, b.updateTransmitTimestamp _, ⟨rfl, rfl, rfl, rfl, rfl⟩, rfl⟩

theorem from_packed : From cfg sequenceNumber
    (packed cfg.phyId (nfapiP7SetMss 0 0 sequenceNumber) msg) := by
  refine ⟨?_, ?_⟩
  · rw [packed, List.take_left' (length_pushOctets 2 _)]
    exact pullOctets_pushOctets cfg.phyId.toNat_lt
  · have hmss : nfapiP7SetMss 0 0 sequenceNumber = sequenceNumber % 16 := by
      simp [nfapiP7SetMss]
    rw [packed, hmss, UInt8.toNat_ofNat']
    omega

/-- Where the length of a datagram has a place for the header, the checksum is put into it. -/
theorem withChecksum (cfg : P7Config) (b : P7Buffer)
    (hlen : cfg.checksumEnabled → nfapiNrP7HeaderLength ≤
      (nfapiNrP7HeaderLength + b.body.length) % 2 ^ 16) :
    ∃ b', cfg.withChecksum b.octets = some b'.octets ∧ b.Alike b' ∧ ChecksumOk cfg b' := by
  rw [P7Config.withChecksum]
  split_ifs with hon
  · have hsome : ∃ checksum, nfapiNrCalculateChecksum cfg.crc32 b.octets = some checksum := by
      rw [nfapiNrCalculateChecksum, length_octets]
      exact ⟨_, if_neg (Nat.not_lt.2 (hlen hon))⟩
    obtain ⟨checksum, hchecksum⟩ := hsome
    have halike : b.Alike (b.setChecksum checksum) := ⟨rfl, rfl, rfl, rfl, rfl⟩
    refine ⟨_, b.updateChecksum hchecksum, halike, fun _ => ?_⟩
    rw [halike.calculateChecksum, hchecksum, setChecksum,
      pullOctets_pushOctets checksum.toNat_lt, Option.map_some]
  · exact ⟨b, rfl, ⟨rfl, rfl, rfl, rfl, rfl⟩, fun h => absurd h hon⟩

theorem isSegment (hb : From cfg sequenceNumber b) {k : ℕ} (hsegment : b.mSegment = cfg.mSegment msg k)
    (hbody : b.body = cfg.chunk msg k) (hchecksum : ChecksumOk cfg b) :
    IsSegment cfg sequenceNumber msg k b.octets where
  header := ⟨_, b.headerUnpack, hb.phyId, by rw [hsegment, hb.sequence], hchecksum⟩
  length := by rw [length_octets, hbody]
  body := b.drop_eighteen.trans hbody

end P7Buffer

/-- The lengths of the datagrams, as `uint16_t`, leave place for the header. -/
def ChecksumDefined (cfg : P7Config) (msg : NrP7Message) : Prop :=
  ∀ k < cfg.segments msg, cfg.checksumEnabled →
    nfapiNrP7HeaderLength ≤ (nfapiNrP7HeaderLength + (cfg.chunk msg k).length) % 2 ^ 16

instance : DecidableRel ChecksumDefined := fun _ _ =>
  inferInstanceAs (Decidable (∀ _ < _, _ → _))

/-- The datagrams are the segments from `k` on. -/
def AreSegments (cfg : P7Config) (sequenceNumber : ℕ) (msg : NrP7Message) :
    ℕ → List (List UInt8) → Prop
  | _, [] => True
  | k, datagram :: datagrams =>
    IsSegment cfg sequenceNumber msg k datagram ∧
      AreSegments cfg sequenceNumber msg (k + 1) datagrams

variable {cfg : P7Config} {sequenceNumber : ℕ} {msg : NrP7Message}

theorem sendSegments_spec (h : cfg.Segmented msg) (hdef : ChecksumDefined cfg msg)
    (stamps : Option (ℕ → UInt32)) : ∀ (n k : ℕ) (b : P7Buffer), k + n = cfg.segmentCount msg →
      b.From cfg sequenceNumber → b.body = msg.body →
      ∃ datagrams, sendSegments cfg stamps msg n k
          (nfapiNrP7HeaderLength + cfg.segBodyLen * k) b.octets = some datagrams ∧
        datagrams.length = n ∧ AreSegments cfg sequenceNumber msg k datagrams
  | 0, _, _, _, _, _ => ⟨[], rfl, rfl, trivial⟩
  | n + 1, k, b, hk, hb, hbody => by
    have hlt : k < cfg.segmentCount msg := by omega
    have hcount : cfg.segments msg = cfg.segmentCount msg := if_pos h
    have hsize := P7Config.length_chunk h hlt
    have hchunk : (b.octets.drop (nfapiNrP7HeaderLength + cfg.segBodyLen * k)).take
        (cfg.chunk msg k).length = cfg.chunk msg k := by
      rw [← List.drop_drop, nfapiNrP7HeaderLength, b.drop_eighteen, hbody, P7Config.take_chunk h]
    obtain ⟨b₁, htx, hb₁, hok⟩ := P7Buffer.withChecksum cfg
      (b.segment (cfg.mSegment msg k) (cfg.chunk msg k)) (hdef k (hcount ▸ hlt))
    obtain ⟨b₂, hstamp, hb₂, -⟩ := b.stamp stamps k
    have hfrom : (b.segment (cfg.mSegment msg k) (cfg.chunk msg k)).From cfg sequenceNumber :=
      ⟨hb.phyId, hb.sequence⟩
    have hseg : IsSegment cfg sequenceNumber msg k b₁.octets :=
      P7Buffer.isSegment (hfrom.alike hb₁) hb₁.mSegment hb₁.body hok
    -- a segment that is not the last is as long as the offset moves on
    have hrest : ∃ datagrams, sendSegments cfg stamps msg n (k + 1)
        (nfapiNrP7HeaderLength + cfg.segBodyLen * k + (cfg.chunk msg k).length) b₂.octets =
          some datagrams ∧ datagrams.length = n ∧
        AreSegments cfg sequenceNumber msg (k + 1) datagrams := by
      cases n with
      | zero => exact ⟨[], rfl, rfl, trivial⟩
      | succ n =>
        rw [hsize, if_neg (by omega), Nat.add_assoc, ← Nat.mul_succ]
        exact sendSegments_spec h hdef stamps (n + 1) (k + 1) b₂ (by omega) (hb.alike hb₂)
          (hb₂.body.trans hbody)
    obtain ⟨datagrams, hsend, hlen, hare⟩ := hrest
    refine ⟨b₁.octets :: datagrams, ?_, by rw [List.length_cons, hlen], hseg, hare⟩
    have hoctet : UInt8.ofNat ((if k + 1 = cfg.segmentCount msg then 0 else 2 ^ 7) + k) =
        cfg.mSegment msg k := by
      rw [P7Config.mSegment, hcount]
    have hheader := b.segmentHeader_append (k + 1 = cfg.segmentCount msg) k (cfg.chunk msg k)
    simp only [decide_eq_true_eq, hoctet] at hheader
    simp only [sendSegments, decide_eq_true_eq, ← hsize, hchunk, hheader, htx, hstamp, hsend]
    rfl

theorem AreSegments.get : ∀ {datagrams : List (List UInt8)} {k i : ℕ}
    {datagram : List UInt8}, AreSegments cfg sequenceNumber msg k datagrams →
      datagrams[i]? = some datagram → IsSegment cfg sequenceNumber msg (k + i) datagram
  | [], _, _, _, _, h => by cases h
  | _ :: _, _, 0, _, hare, h => by
    cases h
    exact hare.1
  | _ :: _, k, i + 1, _, hare, h => by
    have hrest := hare.2.get (i := i) h
    rwa [Nat.add_assoc, Nat.add_comm 1 i] at hrest

theorem IsSegment.congr {k sequenceNumber' : ℕ} {datagram : List UInt8}
    (h : IsSegment cfg sequenceNumber msg k datagram)
    (hmod : sequenceNumber % 16 = sequenceNumber' % 16) :
    IsSegment cfg sequenceNumber' msg k datagram :=
  ⟨hmod ▸ h.header, h.length, h.body⟩

/-- A message is sent in its segments. -/
theorem packAndSend_spec (hdef : ChecksumDefined cfg msg) (stamps : Option (ℕ → UInt32)) :
    ∃ datagrams, packAndSend cfg stamps sequenceNumber msg = some datagrams ∧
      datagrams.length = cfg.segments msg ∧ AreSegments cfg sequenceNumber msg 0 datagrams := by
  have hfrom : P7Buffer.From cfg sequenceNumber
      (.packed cfg.phyId (nfapiP7SetMss 0 0 sequenceNumber) msg) := P7Buffer.from_packed
  rw [packAndSend, ← P7Buffer.octets_packed]
  by_cases h : cfg.Segmented msg
  · have hcount : cfg.segments msg = cfg.segmentCount msg := if_pos h
    obtain ⟨datagrams, hsend, hlen, hare⟩ :=
      sendSegments_spec h hdef stamps (cfg.segmentCount msg) 0 _ (Nat.zero_add _) hfrom rfl
    exact ⟨datagrams, (if_pos h).trans hsend, hlen.trans hcount.symm, hare⟩
  · have hcount : cfg.segments msg = 1 := if_neg h
    have hchunk : cfg.chunk msg 0 = msg.body := if_neg h
    obtain ⟨b₁, htx, hb₁, hok⟩ := P7Buffer.withChecksum cfg
      (.packed cfg.phyId (nfapiP7SetMss 0 0 sequenceNumber) msg)
      (by rw [P7Buffer.packed, ← hchunk]; exact hdef 0 (hcount ▸ Nat.one_pos))
    obtain ⟨b₂, hstamp, hb₂, hchecksum⟩ := b₁.stamp stamps 0
    have hok₂ : b₂.ChecksumOk cfg := fun hon => by
      rw [hb₂.calculateChecksum, hok hon, hchecksum]
    have hmss : nfapiP7SetMss 0 0 sequenceNumber / 256 = 0 := by
      simp [nfapiP7SetMss]
      omega
    refine ⟨[b₂.octets], ?_, hcount.symm, P7Buffer.isSegment ((hfrom.alike hb₁).alike hb₂) ?_
      ((hb₂.body.trans hb₁.body).trans hchunk.symm) hok₂, trivial⟩
    · rw [if_neg h, htx, ← hstamp]
      rfl
    · rw [hb₂.mSegment, hb₁.mSegment, P7Buffer.packed, hmss, P7Config.mSegment, hcount]
      rfl

end NrStack
