import NrStack.Rlc.AmTransmit

/-!
# STATUS PDUs generated by the AM receiver

`generate_status` walks the reception list : `next_missing` finds the next missing part,
from `sn_start`/`so_start` to `sn_end`/`so_end`, and `generate_missing` encodes it as
NACKs of at most 255 SDUs. The E1 bit of a NACK is set when the next one is written, and
ACK_SN at the end.
-/

namespace NrStack

/-- `missing_data_t`, when there is something to report (`sn_start` is not `-1`). -/
structure MissingData where
  snStart : Int
  soStart : Int
  snEnd : Int
  soEnd : Int
  /-- The list from the PDU to use for the next call on. -/
  next : List NrRlcPdu
deriving DecidableEq, Repr

/-- The local variables of `generate_status`, those of `generate_missing` that outlive a
call included. -/
structure StatusEncoder where
  encoder : NrRlcPduEncoder
  /-- The position of the E1 bit to set if a NACK follows. -/
  e1Byte : Nat
  e1Bit : Nat
  /-- The position of the SOend field of the last NACK, if it has one. -/
  soEndAddress : Option Nat
  lastNack : Int
  generationTruncated : Bool
deriving DecidableEq, Repr

namespace NrRlcEntityAm

variable (e : NrRlcEntityAm)

/-! ## Missing parts -/

/-- Where the missing part after `cur` starts. -/
def missingStart (cur : NrRlcPdu) (maxSo : Int) (lastReached : Bool) : Int × Int :=
  if lastReached then ((cur.sn + 1) % e.snModulus, 0) else (cur.sn, maxSo + 1)

/-- The SN before RX_Highest_Status. -/
def highestMissing : Int :=
  (e.rxHighestStatus - 1 + e.snModulus) % e.snModulus

/-- The missing part from `start` to RX_Highest_Status, if `start` is in the reporting
window. -/
def missingToHighest (start : Int × Int) : Option MissingData :=
  if e.snCompareRx e.rxHighestStatus start.1 ≤ 0 then none
  else some { snStart := start.1, soStart := start.2, snEnd := e.highestMissing, soEnd := 0xffff,
              next := [] }

/-- `set_end_different_sdu` : the missing part from `start` to the PDU `cur`. -/
def missingToPdu (start : Int × Int) (cur : NrRlcPdu) (rest : List NrRlcPdu) : MissingData :=
  let snEnd := if cur.isFirst then (cur.sn - 1 + e.snModulus) % e.snModulus else cur.sn
  let soEnd := if cur.isFirst then 0xffff else cur.so - 1
  if e.snCompareRx e.rxHighestStatus snEnd ≤ 0 then
    { snStart := start.1, soStart := start.2, snEnd := e.highestMissing, soEnd := 0xffff,
      next := [] }
  else { snStart := start.1, soStart := start.2, snEnd, soEnd, next := cur :: rest }

/-- The loop `next_pdu` from `cur` on, with the end of what has been reached in the SDU. -/
def nextMissingFrom (maxSo : Int) (lastReached : Bool) (cur : NrRlcPdu) :
    List NrRlcPdu → Option MissingData
  | [] =>
    let maxSo := max maxSo (cur.so + cur.size - 1)
    let lastReached := lastReached || cur.isLast
    if cur.data = none then e.missingToHighest ((cur.sn + 1) % e.snModulus, 0)
    else e.missingToHighest (e.missingStart cur maxSo lastReached)
  | p :: rest =>
    let maxSo := max maxSo (cur.so + cur.size - 1)
    let lastReached := lastReached || cur.isLast
    if p.sn = cur.sn ∧ maxSo ≥ p.so - 1 then nextMissingFrom maxSo lastReached p rest
    else if p.sn = (cur.sn + 1) % e.snModulus ∧ lastReached ∧ p.isFirst then
      nextMissingFrom 0 false p rest
    else if p.sn = cur.sn then
      if e.snCompareRx e.rxHighestStatus cur.sn ≤ 0 then none
      else some { snStart := cur.sn, soStart := maxSo + 1, snEnd := cur.sn, soEnd := p.so - 1,
                  next := p :: rest }
    else
      let start := e.missingStart cur maxSo lastReached
      if e.snCompareRx e.rxHighestStatus start.1 ≤ 0 then none
      else some (e.missingToPdu start p rest)

/-- `next_missing`; `none` is `sn_start == -1`. -/
def nextMissing (cur : NrRlcPdu) (rest : List NrRlcPdu) (checkHead : Bool) : Option MissingData :=
  if checkHead ∧ (cur.sn ≠ e.rxNext ∨ ¬cur.isFirst) then
    if e.snCompareRx e.rxHighestStatus e.rxNext ≤ 0 then none
    else some (e.missingToPdu (e.rxNext, 0) cur rest)
  else e.nextMissingFrom 0 false cur rest

/-! ## Encoding of a missing part -/

/-- `nack_size`. -/
def nackSize (snStart soStart snEnd soEnd : Int) : Int :=
  let nackLength := 2 + (if e.snFieldLength = 18 then 1 else 0)
  if snStart = snEnd then
    if soStart = 0 ∧ soEnd = 0xffff then nackLength else nackLength + 4
  else if soStart = 0 ∧ soEnd = 0xffff then nackLength + 1
  else nackLength + 5

/-- The encoding of one NACK, whose fields are `e2`, `e3` and so on as in the PDU. -/
def putNack (s : StatusEncoder) (snStart soStart snEnd soEnd curSnCount : Int) : StatusEncoder :=
  let e2 := decide ¬(soStart = 0 ∧ soEnd = 0xffff)
  let e3 := decide (snStart ≠ snEnd)
  let byte := s.encoder.byte
  -- set the previous e1 bit to 1
  let enc := { s.encoder with
    buffer := s.encoder.buffer.modify s.e1Byte fun b => b ||| UInt8.ofNat (2 ^ s.e1Bit) }
  let enc := enc.putBits snStart.toNat e.snFieldLength
  let enc := enc.putBits 0 1
  let enc := enc.putBits e2.toNat 1
  let enc := enc.putBits e3.toNat 1
  let enc := enc.putBits 0 (if e.snFieldLength = 18 then 3 else 1)
  let enc := if e2 then enc.putBits soStart.toNat 16 else enc
  let soEndAddress := if e2 then some enc.byte else none
  let enc := if e2 then enc.putBits soEnd.toNat 16 else enc
  let enc := if e3 then enc.putBits curSnCount.toNat 8 else enc
  { s with
    encoder := enc
    e1Byte := byte + (if e.snFieldLength = 18 then 2 else 1)
    e1Bit := if e.snFieldLength = 18 then 5 else 3
    soEndAddress
    lastNack := if e3 then snStart + (curSnCount - 1) else snStart }

/-- The loop of `generate_missing`, with `snCount` SNs left from `snStart` on. The first
argument is the fuel : `snCount` is enough. -/
def generateMissingFrom (m : MissingData) : Nat → Int → Int → StatusEncoder → StatusEncoder
  | 0, _, _, s => s
  | n + 1, snCount, snStart, s =>
    if snCount = 0 then s
    else
      let curSnCount := min snCount 255
      let soStart := if snStart = m.snStart then m.soStart else 0
      let snEnd := if curSnCount = snCount then m.snEnd else (snStart + 254) % e.snModulus
      let soEnd := if curSnCount = snCount then m.soEnd else 0xffff
      if s.encoder.byte + e.nackSize snStart soStart snEnd soEnd > s.encoder.size then
        { s with generationTruncated := true }
      else
        generateMissingFrom m n (snCount - curSnCount) ((snStart + curSnCount) % e.snModulus)
          (e.putNack s snStart soStart snEnd soEnd curSnCount)

/-- `generate_missing`. -/
def generateMissing (m : MissingData) (s : StatusEncoder) : StatusEncoder :=
  let snCount := (m.snEnd - m.snStart + e.snModulus) % e.snModulus + 1
  e.generateMissingFrom m snCount.toNat snCount m.snStart { s with generationTruncated := false }

/-- Force the last SOend to `0xffff` if the generation was truncated. -/
def patchSoEnd (s : StatusEncoder) : StatusEncoder :=
  match s.generationTruncated, s.soEndAddress with
  | true, some a =>
    { s with encoder := { s.encoder with
        buffer := (s.encoder.buffer.set a 0xff).set (a + 1) 0xff } }
  | _, _ => s

/-! ## Generation -/

/-- The loop of `generate_status` over the reception list. The first argument is the fuel :
one more than the length of the list is enough. -/
def generateNacks : Nat → Bool → List NrRlcPdu → StatusEncoder → StatusEncoder
  | 0, _, _, s => s
  | _ + 1, _, [], s => s
  | n + 1, checkHead, cur :: rest, s =>
    match e.nextMissing cur rest checkHead with
    | none => s
    | some m =>
      let s := patchSoEnd (e.generateMissing m s)
      generateNacks n false (if s.generationTruncated then [] else m.next) s

/-- The state before the loop : 3 bytes for the header. -/
def initStatus (size : Int) : StatusEncoder :=
  { encoder := (NrRlcPduEncoder.init size).putBits 0 24
    e1Byte := 2
    e1Bit := if e.snFieldLength = 18 then 1 else 7
    soEndAddress := none
    lastNack := (e.rxNext - 1 + e.snModulus) % e.snModulus
    generationTruncated := false }

/-- Put ACK_SN in the header. -/
def putAckSn (ackSn : Nat) (buffer : List UInt8) : List UInt8 :=
  if e.snFieldLength = 12 then (buffer.set 0 (.ofNat (ackSn >>> 8))).set 1 (.ofNat (ackSn &&& 255))
  else
    ((buffer.set 0 (.ofNat (ackSn >>> 14))).set 1 (.ofNat ((ackSn >>> 6) &&& 255))).modify 2
      fun b => b ||| UInt8.ofNat ((ackSn &&& 0x3f) <<< 2)

/-- The PDU of `generate_status`. -/
def statusPdu (size : Int) : List UInt8 :=
  let s := e.generateNacks (e.rxList.length + 1) true e.rxList (e.initStatus size)
  e.putAckSn ((s.lastNack + 1) % e.snModulus).toNat s.encoder.buffer

/-- `generate_status`. -/
def generateStatus (size : Int) : Generated :=
  if size < 3 then { entity := e, pdu := [] }
  else
    { entity := { e with statusTriggered := false, tStatusProhibitStart := e.tCurrent }
      pdu := e.statusPdu size }

/-- `status_to_report`. -/
def statusToReport : Prop :=
  e.statusTriggered ∧ (e.tStatusProhibitStart = 0 ∨
    e.tCurrent - e.tStatusProhibitStart > .ofInt e.tStatusProhibit)

instance : Decidable e.statusToReport :=
  inferInstanceAs (Decidable (_ ∧ _))

end NrRlcEntityAm

end NrStack
