import NrStack.Rlc.Pdu
import NrStack.Rlc.Sdu

/-!
# Reassembly of received segments

`sdu_full`, `sdu_delivered`, `sdu_has_missing_bytes` and the copy loop of
`reassemble_and_deliver` have one text in `nr_rlc_entity_am.c` and
`nr_rlc_entity_um.c`. They read the list of received segments only.
-/

namespace NrStack

/-- A call to the upper layer. A byte of a delivered SDU that was read outside the data of
its segment is `none`. -/
inductive RlcEvent
  | deliverSdu (buf : List (Option UInt8))
  | sduSuccessfulDelivery (sdu : NrRlcSdu)
  | maxRetxReached
deriving DecidableEq, Repr

/-- The first segment of `sn` and the segments of `sn` that follow it. -/
def segmentsOf (rxList : List NrRlcPdu) (sn : Int) : List NrRlcPdu :=
  (rxList.dropWhile fun l => l.sn ≠ sn).takeWhile fun l => l.sn = sn

/-- The loop of `sdu_full`. -/
def sduFullFrom : List NrRlcPdu → Int → Bool
  | [], _ => false
  | l :: rest, lastByte =>
    if l.so > lastByte + 1 then false
    else if l.isLast then true
    else sduFullFrom rest (max lastByte (l.so + l.size - 1))

/-- `sdu_full` : all the bytes of the SDU `sn` have been received, and it has not been
processed. -/
def sduFull (rxList : List NrRlcPdu) (sn : Int) : Bool :=
  match segmentsOf rxList sn with
  | [] => false
  | l :: rest => l.data.isSome && sduFullFrom (l :: rest) (-1)

/-- `sdu_delivered`. -/
def sduDelivered (rxList : List NrRlcPdu) (sn : Int) : Bool :=
  match rxList.dropWhile fun l => l.sn ≠ sn with
  | [] => false
  | l :: _ => l.data.isNone

/-- The loop of `sdu_has_missing_bytes`. -/
def sduMissingFrom : List NrRlcPdu → Int → Bool
  | [], _ => false
  | l :: rest, lastByte =>
    if l.so > lastByte + 1 then true
    else sduMissingFrom rest (max lastByte (l.so + l.size - 1))

/-- `sdu_has_missing_bytes` : a byte before the last received one of the SDU `sn` is
missing. -/
def sduHasMissingBytes (rxList : List NrRlcPdu) (sn : Int) : Bool :=
  match segmentsOf rxList sn with
  | [] => false
  | l :: rest => l.data.isSome && sduMissingFrom (l :: rest) (-1)

/-- The first SN from `sn` on that is not delivered :
`while (sdu_delivered(entity, sn)) sn = (sn + 1) % entity->sn_modulus`. -/
def skipDelivered (rxList : List NrRlcPdu) (snModulus : Int) : Nat → Int → Int
  | 0, sn => sn
  | n + 1, sn =>
    if sduDelivered rxList sn then skipDelivered rxList snModulus n ((sn + 1) % snModulus)
    else sn

/-- Process the segments of the SDU `sn` with `f`; the others stay. -/
def mapSegments (f : NrRlcPdu → NrRlcPdu) (rxList : List NrRlcPdu) (sn : Int) : List NrRlcPdu :=
  (rxList.takeWhile fun l => l.sn ≠ sn) ++ (segmentsOf rxList sn).map f ++
    (rxList.dropWhile fun l => l.sn ≠ sn).dropWhile fun l => l.sn = sn

/-! ## The copy loop -/

/-- `memcpy(sdu + dst, data + src, len)`. -/
structure SduCopy where
  dst : Int
  data : List UInt8
  src : Int
  len : Int
deriving DecidableEq, Repr

/-- The bytes a copy reads. -/
def SduCopy.bytes (c : SduCopy) : List (Option UInt8) :=
  (List.range c.len.toNat).map fun i =>
    if 0 ≤ c.src + i then c.data[(c.src + i).toNat]? else none

/-- The local variables of the copy loop. -/
structure Reassembly where
  so : Int
  badSdu : Bool
  copies : List SduCopy
deriving DecidableEq, Repr

/-- One round of the copy loop. -/
def Reassembly.copySegment (r : Reassembly) (pdu : NrRlcPdu) : Reassembly :=
  let len := pdu.size - (r.so - pdu.so)
  let badSdu := r.badSdu || decide (r.so + len > nrSduMax)
  if ¬badSdu ∧ len > 0 then
    { so := r.so + len
      badSdu
      copies := r.copies ++ [{ dst := r.so, data := pdu.data.getD [], src := r.so - pdu.so, len }] }
  else { r with badSdu }

/-- The copy loop over the segments of an SDU. -/
def reassemble (segments : List NrRlcPdu) : Reassembly :=
  segments.foldl Reassembly.copySegment { so := 0, badSdu := false, copies := [] }

/-- What `deliver_sdu` is called with : nothing for a bad SDU. -/
def Reassembly.delivered (r : Reassembly) : List RlcEvent :=
  if r.badSdu then [] else [.deliverSdu (r.copies.flatMap SduCopy.bytes)]

end NrStack
