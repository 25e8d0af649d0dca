import NrStack.Rlc.AmEntity

/-!
# STATUS PDUs received by the AM sender

`process_control_pdu` decodes a STATUS PDU and checks it, then walks the wait list and
the retransmit list in step with the NACKs. A NACK of `range` SDUs is `range` pieces, one
for each SN.

The walk cuts the two lists where its pointers are. `AckScan` holds the pieces : what is
linked before `cur_wait_list`, what follows, what is left of the retransmit list, and the
new retransmit list with what its last element links to.
-/

namespace NrStack

/-- A NACK of a STATUS PDU. -/
structure Nack where
  nackSn : Int
  soStart : Int
  /-- `-1` is the end of the SDU. -/
  soEnd : Int
  range : Nat
deriving DecidableEq, Repr

/-- What a NACK says of one SN : the range of bytes. -/
structure NackPiece where
  sn : Int
  soStart : Int
  soEnd : Int
deriving DecidableEq, Repr

/-- A decoded STATUS PDU. -/
structure ControlPdu where
  ackSn : Int
  nacks : List Nack
deriving DecidableEq, Repr

/-- The loop `for (i = 0; i < range; i++)` over a NACK. -/
def Nack.pieces (snModulus : Int) (n : Nack) : List NackPiece :=
  (List.range n.range).map fun i =>
    { sn := (n.nackSn + i) % snModulus
      soStart := if i = 0 then n.soStart else 0
      soEnd := if i + 1 = n.range then n.soEnd else -1 }

/-- All the pieces of a STATUS PDU. -/
def ControlPdu.pieces (snModulus : Int) (pdu : ControlPdu) : List NackPiece :=
  pdu.nacks.flatMap (Nack.pieces snModulus)

/-- `so_overlap`. -/
def soOverlap (s1 e1 s2 e2 : Int) : Bool :=
  if s1 < s2 then decide (e1 = -1 ∨ e1 ≥ s2) else decide (e2 = -1 ∨ s1 ≤ e2)

/-- What a piece and ACK_SN say of a segment, in the order of the tests. -/
inductive AckVerdict
  /-- The NACK overlaps it. -/
  | nacked
  /-- It is after the NACK, which cannot classify it. -/
  | later
  | acked
  /-- Its SN is above ACK_SN. -/
  | beyond
  /-- Its SN is ACK_SN. -/
  | skipped
deriving DecidableEq, Repr

/-- The local variables of the walk. -/
structure AckScan where
  entity : NrRlcEntityAm
  /-- What is linked from `head_wait_list` to `prev_wait_list`. -/
  prevWait : List NrRlcSduSegment
  /-- `cur_wait_list`. -/
  curWait : List NrRlcSduSegment
  /-- `end_wait_list` : not set, `head_wait_list` or a segment. -/
  endWait : Option (Option Nat)
  /-- `cur_retransmit_list`. -/
  curRetransmit : List NrRlcSduSegment
  /-- What is linked from `head_retransmit_list` to `new_retransmit_list`. -/
  newRetransmit : List NrRlcSduSegment
  /-- `new_retransmit_list->next`. -/
  newRetransmitNext : List NrRlcSduSegment

namespace NrRlcEntityAm

variable (e : NrRlcEntityAm)

/-! ## Decoding and validation -/

/-- Decode one NACK, with its E1 bit. -/
def decodeNack (d : NrRlcPduDecoder) : Option (Nack × Bool × NrRlcPduDecoder) := do
  let (nackSn, d) ← d.getBits e.snFieldLength
  let (e1, d) ← d.getBits 1
  let (e2, d) ← d.getBits 1
  let (e3, d) ← d.getBits 1
  let (_, d) ← d.getBits (if e.snFieldLength = 18 then 3 else 1)
  let (soStart, d) ← d.getBitsIf (e2 = 1) 16
  let (soEnd, d) ← d.getBitsIf (e2 = 1) 16
  let (range, d) ← d.getBitsIf (e3 = 1) 8
  some ({ nackSn
          soStart
          soEnd := if e2 = 1 ∧ soEnd ≠ 0xffff then soEnd else -1
          range := if e3 = 1 then range else 1 }, e1 = 1, d)

/-- The loop `while (e1)`. The first argument is the fuel : a NACK has at least one bit. -/
def decodeNacks : Nat → Bool → NrRlcPduDecoder → Option (List Nack)
  | _, false, _ => some []
  | 0, true, _ => none
  | n + 1, true, d =>
    (e.decodeNack d).bind fun r => (decodeNacks n r.2.1 r.2.2).map (r.1 :: ·)

/-- Decode a STATUS PDU; `none` is a decoding error or a CPT that is not 0. -/
def decodeControlPdu (buffer : List UInt8) : Option ControlPdu := do
  let (_, d) ← (NrRlcPduDecoder.init buffer).getBits 1
  let (cpt, d) ← d.getBits 3
  if cpt ≠ 0 then none
  else
    let (ackSn, d) ← d.getBits e.snFieldLength
    let (e1, d) ← d.getBits 1
    let (_, d) ← d.getBits (if e.snFieldLength = 18 then 1 else 7)
    let nacks ← e.decodeNacks (8 * buffer.length) (e1 = 1) d
    some { ackSn, nacks }

/-- The test that rejects a piece that is not after the previous one. -/
def badNackOrder (prev cur : NackPiece) : Prop :=
  e.snCompareTx cur.sn prev.sn < 0 ∨
    (e.snCompareTx cur.sn prev.sn = 0 ∧ (prev.soEnd = -1 ∨ cur.soStart ≤ prev.soEnd))

instance (prev cur : NackPiece) : Decidable (e.badNackOrder prev cur) :=
  inferInstanceAs (Decidable (_ ∨ _))

/-- The checks of one piece. -/
def validNackPiece (prevNack : Option NackPiece) (ackSn : Int) (cur : NackPiece) : Prop :=
  (∀ prev ∈ prevNack, ¬e.badNackOrder prev cur) ∧ e.snCompareTx cur.sn ackSn ≤ 0

instance (prevNack : Option NackPiece) (ackSn : Int) (cur : NackPiece) :
    Decidable (e.validNackPiece prevNack ackSn cur) :=
  inferInstanceAs (Decidable (_ ∧ _))

/-- The checks of a decoded STATUS PDU. `prev_nack_sn` is `-1` throughout : it is assigned
only after the validation, at `done_nack`. -/
def validControlPdu (pdu : ControlPdu) : Prop :=
  e.snCompareTx pdu.ackSn e.txNext ≤ 0 ∧
    ∀ n ∈ pdu.pieces e.snModulus, e.validNackPiece none pdu.ackSn n

instance (pdu : ControlPdu) : Decidable (e.validControlPdu pdu) :=
  inferInstanceAs (Decidable (_ ∧ _))

/-! ## The walk -/

/-- Classify a segment. -/
def ackVerdict (ackSn : Int) (n : NackPiece) (g : NrRlcSduSegment) : AckVerdict :=
  if g.sdu.sn = n.sn ∧ soOverlap n.soStart n.soEnd g.so (g.so + g.size - 1) then .nacked
  else if e.snCompareTx g.sdu.sn n.sn > 0 ∨
      (e.snCompareTx g.sdu.sn n.sn = 0 ∧ g.so > n.soStart) then .later
  else if e.snCompareTx g.sdu.sn ackSn < 0 then .acked
  else if e.snCompareTx g.sdu.sn ackSn > 0 then .beyond
  else .skipped

/-- Stop t-PollRetransmit if `c`. -/
def stopPollRetransmitIf (c : Prop) [Decidable c] : NrRlcEntityAm :=
  { e with tPollRetransmitStart := if c then 0 else e.tPollRetransmitStart }

end NrRlcEntityAm

namespace AckScan

variable (s : AckScan)

/-- Take the segment `w` out of the wait list : `cur_wait_list` is now `rest`. -/
def unlinkWait (w : NrRlcSduSegment) (rest : List NrRlcSduSegment) : AckScan :=
  { s with
    curWait := rest
    endWait := if some w.addr = s.entity.waitEnd then some (s.prevWait.getLast?.map (·.addr))
      else s.endWait }

/-- Free an acknowledged segment of the wait list. -/
def freeWait (w : NrRlcSduSegment) (rest : List NrRlcSduSegment) : AckScan :=
  { s.unlinkWait w rest with entity := s.entity.freeSduSegment w }

/-- Free an acknowledged segment of the retransmit list. -/
def freeRetransmit (r : NrRlcSduSegment) (rest : List NrRlcSduSegment) : AckScan :=
  { s with
    curRetransmit := rest
    entity := { s.entity with
      bstatusRetxSize := s.entity.bstatusRetxSize - s.entity.pduSize r }.freeSduSegment r }

/-- Move a segment of the wait list to the new retransmit list. -/
def nackWait (w : NrRlcSduSegment) (rest : List NrRlcSduSegment) : AckScan :=
  let e := (s.entity.incrementRetxCount w).reportMaxRetx w fun d =>
    decide (d.retxCount ≥ s.entity.maxRetxThreshold * d.refCount)
  { s.unlinkWait w rest with
    newRetransmit := s.newRetransmit ++ [w]
    newRetransmitNext := []
    entity := { e with bstatusRetxSize := e.bstatusRetxSize + e.pduSize w } }

/-- Leave a segment in the retransmit list. -/
def keepRetransmit (r : NrRlcSduSegment) (rest : List NrRlcSduSegment) : AckScan :=
  { s with
    curRetransmit := rest
    newRetransmit := s.newRetransmit ++ [r]
    newRetransmitNext := [] }

/-- `process_wait_list_head`; `none` is `done_nack`. -/
def processWaitListHead (ackSn : Int) (n : NackPiece) (w : NrRlcSduSegment)
    (rest : List NrRlcSduSegment) : Option AckScan :=
  match s.entity.ackVerdict ackSn n w with
  | .nacked => some (s.nackWait w rest)
  | .later => none
  | .acked => some (s.freeWait w rest)
  | .beyond => some { s with prevWait := s.prevWait ++ w :: rest, curWait := [] }
  | .skipped => some { s with prevWait := s.prevWait ++ [w], curWait := rest }

/-- `process_retransmit_list_head`. With the wait list at its end, the rest of the
retransmit list is linked after the new one. -/
def processRetransmitListHead (ackSn : Int) (n : NackPiece) (r : NrRlcSduSegment)
    (rest : List NrRlcSduSegment) : Option AckScan :=
  match s.entity.ackVerdict ackSn n r with
  | .nacked => some (s.keepRetransmit r rest)
  | .later => none
  | .acked => some (s.freeRetransmit r rest)
  | .beyond | .skipped =>
    if s.curWait = [] then some { s with newRetransmitNext := r :: rest, curRetransmit := [] }
    else some (s.keepRetransmit r rest)

/-- `process_next_pdu` : the smallest segment of the two lists; `none` when both are over. -/
def processNextPdu (ackSn : Int) (n : NackPiece) : Option AckScan :=
  match s.curWait, s.curRetransmit with
  | [], [] => none
  | [], r :: rs => s.processRetransmitListHead ackSn n r rs
  | w :: ws, [] => s.processWaitListHead ackSn n w ws
  | w :: ws, r :: rs =>
    let cmp := s.entity.snCompareTx w.sdu.sn r.sdu.sn
    if cmp < 0 ∨ (cmp = 0 ∧ w.so < r.so) then s.processWaitListHead ackSn n w ws
    else s.processRetransmitListHead ackSn n r rs

/-- The segments not classified yet. -/
def remaining : Nat :=
  s.curWait.length + s.curRetransmit.length

/-- The jumps back to `process_next_pdu`. The first argument is the fuel : each round
takes a segment, so `remaining` is enough. -/
def processPieceFrom (ackSn : Int) (n : NackPiece) : Nat → AckScan → AckScan
  | 0, s => s
  | k + 1, s =>
    match s.processNextPdu ackSn n with
    | none => s
    | some s' => processPieceFrom ackSn n k s'

/-- One piece of a NACK. -/
def processPiece (ackSn : Int) (n : NackPiece) : AckScan :=
  processPieceFrom ackSn n s.remaining s

/-- One NACK, and t-PollRetransmit for the SNs it covers. -/
def processNack (ackSn : Int) (n : Nack) : AckScan :=
  let s' := (n.pieces s.entity.snModulus).foldl (fun s p => s.processPiece ackSn p) s
  { s' with
    entity := s'.entity.stopPollRetransmitIf
      (s'.entity.snCompareTx n.nackSn s'.entity.pollSn ≤ 0 ∧
        s'.entity.snCompareTx s'.entity.pollSn
          ((n.nackSn + n.range) % s'.entity.snModulus) < 0) }

/-- The loop that acknowledges what is left of the wait list. -/
def finishWait (ackSn : Int) : List NrRlcSduSegment → AckScan → AckScan
  | [], s => s
  | w :: rest, s =>
    if s.entity.snCompareTx w.sdu.sn ackSn < 0 then finishWait ackSn rest (s.freeWait w rest)
    else s

/-- The loop that acknowledges what is left of the retransmit list. -/
def finishRetransmit (ackSn : Int) : List NrRlcSduSegment → AckScan → AckScan
  | [], s => s
  | r :: rest, s =>
    if s.entity.snCompareTx r.sdu.sn ackSn < 0 then
      finishRetransmit ackSn rest (s.freeRetransmit r rest)
    else s

/-- `new_retransmit_list->next = cur_retransmit_list`. -/
def linkRetransmit : AckScan :=
  { s with newRetransmitNext := s.curRetransmit }

/-- The entity at the end of the walk. -/
def toEntity : NrRlcEntityAm :=
  { s.entity with
    waitList := s.prevWait ++ s.curWait
    retransmitList := s.newRetransmit ++ s.newRetransmitNext
    waitEnd := s.endWait.getD s.entity.waitEnd }

end AckScan

namespace NrRlcEntityAm

variable (e : NrRlcEntityAm)

/-- The pointers before the walk. -/
def startScan : AckScan :=
  { entity := e
    prevWait := []
    curWait := e.waitList
    endWait := none
    curRetransmit := e.retransmitList
    newRetransmit := []
    newRetransmitNext := [] }

/-- The walk for a STATUS PDU, its acknowledgement and the last link. -/
def scanControlPdu (pdu : ControlPdu) : AckScan :=
  let e := e.stopPollRetransmitIf (e.snCompareTx e.pollSn pdu.ackSn < 0)
  let s := pdu.nacks.foldl (fun s n => s.processNack pdu.ackSn n) e.startScan
  let s := AckScan.finishWait pdu.ackSn s.curWait s
  (AckScan.finishRetransmit pdu.ackSn s.curRetransmit s).linkRetransmit

/-- The smaller of two SNs, `a` if they are equal. -/
def minTx (a b : Int) : Int :=
  if e.snCompareTx b a < 0 then b else a

/-- The update of TX_Next_Ack. -/
def updateTxNextAck (ackSn : Int) : NrRlcEntityAm :=
  let a := e.waitList.head?.elim e.txNext fun g => e.minTx e.txNext g.sdu.sn
  let a := e.retransmitList.head?.elim a fun g => e.minTx a g.sdu.sn
  { e with txNextAck := e.minTx a ackSn }

/-- Process a valid STATUS PDU. -/
def applyControlPdu (pdu : ControlPdu) : NrRlcEntityAm :=
  ((e.scanControlPdu pdu).toEntity).updateTxNextAck pdu.ackSn

/-- `process_control_pdu`. -/
def processControlPdu (buffer : List UInt8) : NrRlcEntityAm :=
  match e.decodeControlPdu buffer with
  | none => e
  | some pdu => if e.validControlPdu pdu then e.applyControlPdu pdu else e

end NrRlcEntityAm

end NrStack
