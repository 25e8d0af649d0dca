import NrStack.Library.Insert

/-!
# The PDCP entity

`nr_pdcp_entity_t` with its functions, those of `nr_pdcp_sdu.c` included. A `uint32_t` is
a `Nat`, reduced modulo `2^32` where the code computes with it. The statistics and what is
only stored (the discard timer, the PDU session) are left out.

The ciphering and integrity algorithms are a parameter, `PdcpCrypto`. A context is the
algorithm and the key it was initialized with.

`out` is history, never read by the code : the SDUs delivered to the upper layer, the
COUNT of each SDU processed, the ciphering keys installed and the resets of TX_NEXT.
-/

namespace NrStack

/-- `uint32_t` arithmetic is modulo this. -/
def uint32Modulus : Nat :=
  2 ^ 32

/-- `SHORT_SN_SIZE`. -/
def shortSnSize : Nat :=
  12

/-- `LONG_SN_SIZE`. -/
def longSnSize : Nat :=
  18

/-- `SHORT_PDCP_HEADER_SIZE`. -/
def shortPdcpHeaderSize : Nat :=
  2

/-- `LONG_PDCP_HEADER_SIZE`. -/
def longPdcpHeaderSize : Nat :=
  3

/-- `PDCP_INTEGRITY_SIZE`. -/
def pdcpIntegritySize : Nat :=
  4

/-- `nr_pdcp_entity_type_t`. -/
inductive NrPdcpEntityType
  | drbAm
  | drbUm
  | srb
deriving DecidableEq, Repr

/-- `nr_pdcp_entity_security_keys_and_algos_t`. The algorithm `-1` keeps the current one
and its key. -/
structure NrPdcpSecurityKeysAndAlgos where
  integrityAlgorithm : Int
  cipheringAlgorithm : Int
  integrityKey : List UInt8
  cipheringKey : List UInt8
deriving DecidableEq, Repr

/-- `stream_security_context_t` : what it was initialized with. -/
structure StreamSecurityContext where
  algorithm : Int
  key : List UInt8
deriving DecidableEq, Repr

/-- `nr_pdcp_integrity_data_t`. -/
structure NrPdcpIntegrityData where
  count : Nat
  mac : List UInt8
  headerSize : Nat
  header : List UInt8
deriving DecidableEq, Repr

/-- `nr_pdcp_sdu_t`. -/
structure NrPdcpSdu where
  count : Nat
  buffer : List UInt8
  msgIntegrity : NrPdcpIntegrityData
deriving DecidableEq, Repr

/-- The algorithms : a keystream and a MAC that depend on the context, the bearer, COUNT
and the direction. -/
structure PdcpCrypto where
  keystream : StreamSecurityContext → Int → Nat → Nat → Nat → List UInt8
  keystream_length : ∀ c bearer count direction n,
    (keystream c bearer count direction n).length = n
  mac : StreamSecurityContext → Int → Nat → Nat → List UInt8 → List UInt8
  mac_length : ∀ c bearer count direction message,
    (mac c bearer count direction message).length = pdcpIntegritySize

/-- Encrypt or decrypt : XOR with the keystream. -/
def PdcpCrypto.cipher (k : PdcpCrypto) (c : StreamSecurityContext) (bearer : Int)
    (count direction : Nat) (buffer : List UInt8) : List UInt8 :=
  List.zipWith (· ^^^ ·) buffer (k.keystream c bearer count direction buffer.length)

/-- The null algorithms : a keystream and a MAC of zeros. -/
def PdcpCrypto.null : PdcpCrypto where
  keystream _ _ _ _ n := List.replicate n 0
  keystream_length := by simp
  mac _ _ _ _ _ := List.replicate pdcpIntegritySize 0
  mac_length := by simp

/-- What an entity has done, for the history. -/
inductive PdcpEvent
  | deliverSdu (sdu : NrPdcpSdu)
  | processSdu (count : Nat) (ciphered : Bool)
  | cipheringKey (context : StreamSecurityContext)
  | resetTxNext
deriving DecidableEq, Repr

/-- `nr_pdcp_entity_t`. -/
structure NrPdcpEntity where
  type : NrPdcpEntityType
  isGnb : Bool
  rbId : Int
  hasSdapRx : Bool
  hasSdapTx : Bool
  snSize : Nat
  /-- `-1` means infinity. -/
  tReordering : Int
  snMax : Nat
  windowSize : Nat
  txNext : Nat
  rxNext : Nat
  rxDeliv : Nat
  rxReord : Nat
  tCurrent : UInt64
  /-- The time the timer was started at, `0` when it is not running. -/
  tReorderingStart : UInt64
  hasCiphering : Bool
  hasIntegrity : Bool
  securityContext : StreamSecurityContext
  integrityContext : StreamSecurityContext
  rxList : List NrPdcpSdu
  rxSize : Int
  entitySuspended : Bool
  out : List PdcpEvent
deriving DecidableEq, Repr

/-! ## Lists of SDUs -/

/-- The bytes of a list of SDUs. -/
def sduBytes (l : List NrPdcpSdu) : Int :=
  (l.map fun sdu => (sdu.buffer.length : Int)).sum

/-- `nr_pdcp_sdu_list_add`. -/
def nrPdcpSduListAdd (l : List NrPdcpSdu) (sdu : NrPdcpSdu) : List NrPdcpSdu :=
  insertBefore (fun cur => sdu.count < cur.count) sdu l

/-- `nr_pdcp_sdu_in_list`. -/
def nrPdcpSduInList (l : List NrPdcpSdu) (count : Nat) : Prop :=
  ∃ sdu ∈ l, sdu.count = count

instance (l : List NrPdcpSdu) (count : Nat) : Decidable (nrPdcpSduInList l count) :=
  inferInstanceAs (Decidable (∃ sdu ∈ l, _))

/-- The SDUs at the head of the list that follow each other from `count` on, the rest of
the list, and the COUNT after them. -/
def takeInOrder : List NrPdcpSdu → Nat → List NrPdcpSdu × List NrPdcpSdu × Nat
  | [], count => ([], [], count)
  | cur :: rest, count =>
    if count = cur.count then
      let r := takeInOrder rest ((count + 1) % uint32Modulus)
      (cur :: r.1, r.2)
    else ([], cur :: rest, count)

namespace NrPdcpEntity

variable (e : NrPdcpEntity)

/-! ## Security -/

/-- The integrity part of `nr_pdcp_entity_set_security`; `none` is `exit`. -/
def setIntegrity (algorithm : Int) (key : List UInt8) : Option NrPdcpEntity :=
  if algorithm = -1 then some e
  else if algorithm = 0 then some { e with hasIntegrity := false }
  else if algorithm = 2 ∨ algorithm = 1 then
    some { e with hasIntegrity := true, integrityContext := ⟨algorithm, key⟩ }
  else none

/-- The ciphering part of `nr_pdcp_entity_set_security`; `none` is `exit`. -/
def setCiphering (algorithm : Int) (key : List UInt8) : Option NrPdcpEntity :=
  if algorithm = -1 then some e
  else if algorithm = 0 then some { e with hasCiphering := false }
  else if algorithm = 2 ∨ algorithm = 1 then
    some { e with
      hasCiphering := true
      securityContext := ⟨algorithm, key⟩
      out := e.out ++ [.cipheringKey ⟨algorithm, key⟩] }
  else none

/-- `nr_pdcp_entity_set_security`. -/
def setSecurity (parameters : NrPdcpSecurityKeysAndAlgos) : Option NrPdcpEntity :=
  (e.setIntegrity parameters.integrityAlgorithm parameters.integrityKey).bind fun e =>
    e.setCiphering parameters.cipheringAlgorithm parameters.cipheringKey

/-! ## Headers -/

/-- `header_size`. -/
def headerSize : Nat :=
  if e.snSize = shortSnSize then shortPdcpHeaderSize else longPdcpHeaderSize

/-- `integrity_size`. SRBs always have a MAC-I. -/
def integritySize : Nat :=
  if e.hasIntegrity ∨ e.type = .srb then pdcpIntegritySize else 0

/-- The header of a data PDU. -/
def dataHeader (sn : Nat) : List UInt8 :=
  let dcBit : Nat := if e.type = .drbAm ∨ e.type = .drbUm then 0x80 else 0
  if e.snSize = shortSnSize then [.ofNat (dcBit ||| ((sn >>> 8) &&& 0xf)), .ofNat (sn &&& 0xff)]
  else [.ofNat (dcBit ||| ((sn >>> 16) &&& 0x3)), .ofNat ((sn >>> 8) &&& 0xff),
    .ofNat (sn &&& 0xff)]

/-- `rcvd_sn`. -/
def rcvdSn (buffer : List UInt8) : Nat :=
  let byte := fun i => (buffer.getD i 0).toNat
  if e.snSize = shortSnSize then ((byte 0 &&& 0xf) <<< 8) ||| byte 1
  else ((byte 0 &&& 0x3) <<< 16) ||| (byte 1 <<< 8) ||| byte 2

/-! ## Transmission -/

/-- `nr_max_pdcp_pdu_size`. -/
def nrMaxPdcpPduSize (sduSize : Nat) : Nat :=
  sduSize + longPdcpHeaderSize + pdcpIntegritySize

/-- The direction bit of what the entity sends. -/
def txDirection : Nat :=
  if e.isGnb then 1 else 0

/-- The direction bit of what the entity receives. -/
def rxDirection : Nat :=
  if e.isGnb then 0 else 1

/-- The MAC-I of the PDU, `0` for an SRB without integrity. -/
def macI (k : PdcpCrypto) (count : Nat) (message : List UInt8) : List UInt8 :=
  if e.hasIntegrity then k.mac e.integrityContext e.rbId count e.txDirection message
  else List.replicate e.integritySize 0

/-- Cipher a buffer after its first `n` bytes, if ciphering is on. -/
def cipherAfter (k : PdcpCrypto) (n count direction : Nat) (buffer : List UInt8) : List UInt8 :=
  if e.hasCiphering then
    buffer.take n ++ k.cipher e.securityContext e.rbId count direction (buffer.drop n)
  else buffer

/-- The PDU of an SDU. The SDAP header is not ciphered. -/
def buildPdu (k : PdcpCrypto) (buffer : List UInt8) : List UInt8 :=
  let message := e.dataHeader (e.txNext &&& e.snMax) ++ buffer
  e.cipherAfter k (e.headerSize + e.hasSdapTx.toNat) e.txNext e.txDirection
    (message ++ e.macI k e.txNext message)

/-- A length the ciphering function takes. NEA2 asserts that there is something to cipher,
NEA1 only needs an array size. -/
def cipherLengthOk (length : Int) : Prop :=
  e.hasCiphering → if e.securityContext.algorithm = 2 then 0 < length else 0 ≤ length

instance (length : Int) : Decidable (e.cipherLengthOk length) :=
  inferInstanceAs (Decidable (_ → _))

/-- `nr_pdcp_entity_process_sdu`, with the PDU if one is returned. `none` is a failed
assertion. -/
def processSdu (k : PdcpCrypto) (buffer : List UInt8) (pduMaxSize : Int) :
    Option (NrPdcpEntity × Option (List UInt8)) :=
  if (nrMaxPdcpPduSize buffer.length : Int) > pduMaxSize then none
  else if e.entitySuspended then some (e, none)
  else if ¬e.cipherLengthOk (buffer.length + e.integritySize - e.hasSdapTx.toNat) then none
  else
    some ({ e with
      txNext := (e.txNext + 1) % uint32Modulus
      out := e.out ++ [.processSdu e.txNext e.hasCiphering] }, some (e.buildPdu k buffer))

/-! ## Reception -/

/-- The D/C bit is set in the PDUs of a DRB, whatever its value. -/
def setDcBit (buffer : List UInt8) : List UInt8 :=
  if e.type ≠ .srb then buffer.modify 0 (· ||| 0x80) else buffer

/-- The smallest size of a PDU that is not bad. -/
def minPduSize : Nat :=
  e.headerSize + e.hasSdapRx.toNat + e.integritySize + 1

/-- `rcvd_hfn`. -/
def rcvdHfn (sn : Nat) : Nat :=
  let rxDelivSn : Int := (e.rxDeliv &&& e.snMax : Nat)
  let rxDelivHfn := e.rxDeliv >>> e.snSize
  if (sn : Int) < rxDelivSn - e.windowSize then (rxDelivHfn + 1) % uint32Modulus
  else if (sn : Int) ≥ rxDelivSn + e.windowSize then
    (rxDelivHfn + (uint32Modulus - 1)) % uint32Modulus
  else rxDelivHfn

/-- `rcvd_count`. -/
def rcvdCount (sn : Nat) : Nat :=
  (e.rcvdHfn sn <<< e.snSize) % uint32Modulus ||| sn

/-- `msg_integrity`, of the PDU before it is deciphered. -/
def msgIntegrity (buffer : List UInt8) (count : Nat) : NrPdcpIntegrityData :=
  if e.hasIntegrity ∨ e.type = .srb then
    { count
      mac := buffer.drop (buffer.length - 4)
      headerSize := e.headerSize
      header := buffer.take e.headerSize }
  else { count := 0, mac := List.replicate 4 0, headerSize := 0, header := List.replicate 3 0 }

/-- The PDU after deciphering. -/
def decipher (k : PdcpCrypto) (count : Nat) (buffer : List UInt8) : List UInt8 :=
  e.cipherAfter k (e.headerSize + e.hasSdapRx.toNat) count e.rxDirection buffer

/-- The MAC-I of a deciphered PDU is right. -/
def integrityOk (k : PdcpCrypto) (count : Nat) (buffer : List UInt8) : Prop :=
  e.hasIntegrity → k.mac e.integrityContext e.rbId count e.rxDirection
    (buffer.take (buffer.length - e.integritySize)) = buffer.drop (buffer.length - e.integritySize)

instance (k : PdcpCrypto) (count : Nat) (buffer : List UInt8) :
    Decidable (e.integrityOk k count buffer) :=
  inferInstanceAs (Decidable (_ → _))

/-- The SDU of a PDU, once deciphered, of size at least `minPduSize`. -/
def sduOf (k : PdcpCrypto) (buffer : List UInt8) : NrPdcpSdu :=
  let count := e.rcvdCount (e.rcvdSn buffer)
  { count
    buffer := ((e.decipher k count buffer).drop e.headerSize).take
      (buffer.length - e.headerSize - e.integritySize)
    msgIntegrity := e.msgIntegrity buffer count }

/-- The checks before an SDU is stored, on the PDU with its D/C bit set. -/
def acceptsPdu (k : PdcpCrypto) (buffer : List UInt8) : Prop :=
  e.minPduSize ≤ buffer.length ∧
    e.integrityOk k (e.rcvdCount (e.rcvdSn buffer))
      (e.decipher k (e.rcvdCount (e.rcvdSn buffer)) buffer) ∧
    e.rxDeliv ≤ e.rcvdCount (e.rcvdSn buffer) ∧
    ¬nrPdcpSduInList e.rxList (e.rcvdCount (e.rcvdSn buffer))

instance (k : PdcpCrypto) (buffer : List UInt8) : Decidable (e.acceptsPdu k buffer) :=
  inferInstanceAs (Decidable (_ ∧ _))

/-- Store an SDU, and update RX_NEXT. The size added is that of the PDU after its header. -/
def storeSdu (sdu : NrPdcpSdu) : NrPdcpEntity :=
  { e with
    rxList := nrPdcpSduListAdd e.rxList sdu
    rxSize := e.rxSize + (sdu.buffer.length + e.integritySize)
    rxNext := if sdu.count ≥ e.rxNext then (sdu.count + 1) % uint32Modulus else e.rxNext }

/-- Deliver what follows in the list from `count` on, which moves RX_DELIV. -/
def deliverFrom (count : Nat) : NrPdcpEntity :=
  let r := takeInOrder e.rxList count
  { e with
    rxList := r.2.1
    rxSize := e.rxSize - sduBytes r.1
    rxDeliv := r.2.2
    out := e.out ++ r.1.map .deliverSdu }

/-- Stop t-Reordering once RX_DELIV has reached RX_REORD. -/
def stopReordering : NrPdcpEntity :=
  if e.tReorderingStart ≠ 0 ∧ e.rxDeliv ≥ e.rxReord then { e with tReorderingStart := 0 } else e

/-- Start t-Reordering if something before RX_NEXT is missing. -/
def startReordering : NrPdcpEntity :=
  if e.tReorderingStart = 0 ∧ e.rxDeliv < e.rxNext then
    { e with rxReord := e.rxNext, tReorderingStart := e.tCurrent }
  else e

/-- Deliver from RX_DELIV on if that is the COUNT received. -/
def deliverIfNext (count : Nat) : NrPdcpEntity :=
  if count = e.rxDeliv then e.deliverFrom e.rxDeliv else e

/-- What follows the storing of an SDU : delivery and the timer. -/
def receptionActions (count : Nat) : NrPdcpEntity :=
  (e.deliverIfNext count).stopReordering.startReordering

/-- `nr_pdcp_entity_recv_pdu`. -/
def recvPdu (k : PdcpCrypto) (buffer : List UInt8) : NrPdcpEntity :=
  if e.entitySuspended then e
  else if buffer.length < 1 then e
  else if e.acceptsPdu k (e.setDcBit buffer) then
    (e.storeSdu (e.sduOf k (e.setDcBit buffer))).receptionActions
      (e.sduOf k (e.setDcBit buffer)).count
  else e

/-- `nr_pdcp_entity_check_integrity`. -/
def checkIntegrity (k : PdcpCrypto) (buffer : List UInt8) (msgIntegrity : NrPdcpIntegrityData) :
    Bool :=
  e.hasIntegrity && decide (k.mac e.integrityContext e.rbId msgIntegrity.count e.rxDirection
    (msgIntegrity.header.take msgIntegrity.headerSize ++ buffer) = msgIntegrity.mac)

/-! ## t-Reordering -/

/-- Deliver the SDUs with COUNT below RX_REORD. -/
def deliverBeforeReord : NrPdcpEntity :=
  { e with
    rxList := e.rxList.dropWhile fun cur => cur.count < e.rxReord
    rxSize := e.rxSize - sduBytes (e.rxList.takeWhile fun cur => cur.count < e.rxReord)
    out := e.out ++ (e.rxList.takeWhile fun cur => cur.count < e.rxReord).map .deliverSdu }

/-- What `check_t_reordering` does when the timer has expired. -/
def expireReordering : NrPdcpEntity :=
  ({ e with tReorderingStart := 0 }.deliverBeforeReord.deliverFrom e.rxReord).startReordering

/-- `check_t_reordering`. -/
def checkTReordering : NrPdcpEntity :=
  if e.tReordering = -1 then e
  else if e.tReorderingStart = 0 ∨ e.tCurrent ≤ e.tReorderingStart + .ofInt e.tReordering then e
  else e.expireReordering

/-- `nr_pdcp_entity_set_time`. -/
def setTime (now : UInt64) : NrPdcpEntity :=
  { e with tCurrent := now }.checkTReordering

/-! ## Suspend, re-establishment and release -/

/-- `deliver_all_sdus`. -/
def deliverAllSdus : NrPdcpEntity :=
  { e with
    rxList := []
    rxSize := e.rxSize - sduBytes e.rxList
    out := e.out ++ e.rxList.map .deliverSdu }

/-- `free_rx_list`. -/
def freeRxList : NrPdcpEntity :=
  { e with rxList := [], rxSize := 0 }

/-- Stop t-Reordering if it is running, and deliver all stored SDUs. -/
def flushReordering : NrPdcpEntity :=
  if e.tReorderingStart ≠ 0 then { e.deliverAllSdus with tReorderingStart := 0 } else e

/-- Set the state variables to their initial value. -/
def resetCounters : NrPdcpEntity :=
  { e with
    txNext := 0
    rxNext := 0
    rxDeliv := 0
    out := e.out ++ [.resetTxNext] }

/-- `nr_pdcp_entity_suspend`. -/
def suspend : NrPdcpEntity :=
  { e.flushReordering.resetCounters with entitySuspended := true }

/-- The end of each re-establishment. -/
def resume (parameters : NrPdcpSecurityKeysAndAlgos) : Option NrPdcpEntity :=
  (e.setSecurity parameters).map fun e => { e with entitySuspended := false }

/-- `nr_pdcp_entity_reestablish_drb_am`. -/
def reestablishDrbAm (parameters : NrPdcpSecurityKeysAndAlgos) : Option NrPdcpEntity :=
  e.resume parameters

/-- `nr_pdcp_entity_reestablish_drb_um`. -/
def reestablishDrbUm (parameters : NrPdcpSecurityKeysAndAlgos) : Option NrPdcpEntity :=
  e.flushReordering.resetCounters.resume parameters

/-- `nr_pdcp_entity_reestablish_srb`. -/
def reestablishSrb (parameters : NrPdcpSecurityKeysAndAlgos) : Option NrPdcpEntity :=
  { e.freeRxList with tReorderingStart := 0 }.resetCounters.resume parameters

/-- `reestablish_entity`. -/
def reestablish (parameters : NrPdcpSecurityKeysAndAlgos) : Option NrPdcpEntity :=
  match e.type with
  | .drbAm => e.reestablishDrbAm parameters
  | .drbUm => e.reestablishDrbUm parameters
  | .srb => e.reestablishSrb parameters

/-- `nr_pdcp_entity_release`. -/
def release : NrPdcpEntity :=
  e.deliverAllSdus

end NrPdcpEntity

/-! ## The entity as a state machine -/

/-- The arguments of `new_nr_pdcp_entity`. The callers give an SN size of 12 or 18 bits. -/
structure PdcpConfig where
  type : NrPdcpEntityType
  isGnb : Bool
  rbId : Int
  hasSdapRx : Bool
  hasSdapTx : Bool
  snSize : Nat
  tReordering : Int
  securityParameters : NrPdcpSecurityKeysAndAlgos
  snSize_valid : snSize = 12 ∨ snSize = 18

/-- `new_nr_pdcp_entity`; `none` is `exit`. -/
def newNrPdcpEntity (c : PdcpConfig) : Option NrPdcpEntity :=
  NrPdcpEntity.setSecurity
    { type := c.type
      isGnb := c.isGnb
      rbId := c.rbId
      hasSdapRx := c.hasSdapRx
      hasSdapTx := c.hasSdapTx
      snSize := c.snSize
      tReordering := c.tReordering
      snMax := 2 ^ c.snSize - 1
      windowSize := 2 ^ (c.snSize - 1)
      txNext := 0
      rxNext := 0
      rxDeliv := 0
      rxReord := 0
      tCurrent := 0
      tReorderingStart := 0
      hasCiphering := false
      hasIntegrity := false
      securityContext := ⟨0, []⟩
      integrityContext := ⟨0, []⟩
      rxList := []
      rxSize := 0
      entitySuspended := false
      out := [] } c.securityParameters

/-- A call of a function of the entity. -/
inductive PdcpOp
  | processSdu (buffer : List UInt8) (pduMaxSize : Int)
  | recvPdu (buffer : List UInt8)
  | setTime (now : UInt64)
  | setSecurity (parameters : NrPdcpSecurityKeysAndAlgos)
  | suspend
  | reestablish (parameters : NrPdcpSecurityKeysAndAlgos)
  | release

/-- One call; `none` is `exit` or a failed assertion. -/
def pdcpStep (k : PdcpCrypto) (e : NrPdcpEntity) : PdcpOp → Option NrPdcpEntity
  | .processSdu buffer pduMaxSize => (e.processSdu k buffer pduMaxSize).map (·.1)
  | .recvPdu buffer => some (e.recvPdu k buffer)
  | .setTime now => some (e.setTime now)
  | .setSecurity parameters => e.setSecurity parameters
  | .suspend => some e.suspend
  | .reestablish parameters => e.reestablish parameters
  | .release => some e.release

end NrStack
