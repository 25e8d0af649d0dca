import NrStack.Library.Run
import NrStack.Rlc.AmControl
import NrStack.Rlc.AmReceive
import NrStack.Rlc.AmStatus

/-!
# The AM entity as a state machine

The function pointers of an AM entity, and `amStep`, one call of any of them.
-/

namespace NrStack

namespace NrRlcEntityAm

variable (e : NrRlcEntityAm)

/-- `nr_rlc_entity_am_recv_pdu`. -/
def recvPdu (buffer : List UInt8) : NrRlcEntityAm :=
  match (NrRlcPduDecoder.init buffer).getBits 1 with
  | none => e
  | some (dc, d) => if dc = 0 then e.processControlPdu buffer else e.recvDataPdu d

/-- The data part of `nr_rlc_entity_am_generate_pdu` : retransmissions first. -/
def generateDataPdu (size : Int) : Option Generated :=
  if e.retransmitList = [] then e.generateTxPdu size
  else
    (e.generateRetxPdu size).bind fun r =>
      if r.pdu ≠ [] then some r else r.entity.generateTxPdu size

/-- `nr_rlc_entity_am_generate_pdu`. -/
def generatePdu (size : Int) : Option Generated :=
  if e.statusToReport ∧ (e.generateStatus size).pdu ≠ [] then some (e.generateStatus size)
  else e.generateDataPdu size

/-- `nr_rlc_entity_am_set_time`. -/
def setTime (now : UInt64) : Option NrRlcEntityAm :=
  { e with tCurrent := now }.checkTPollRetransmit.map checkTReassembly

/-- `nr_rlc_entity_am_reestablishment`. -/
def reestablishment : NrRlcEntityAm :=
  e.clearEntity

end NrRlcEntityAm

/-- A call of a function of the entity. -/
inductive AmOp
  | recvSdu (buffer : List UInt8) (sduId : Int)
  | recvPdu (buffer : List UInt8)
  | generatePdu (size : Int)
  | setTime (now : UInt64)
  | discardSdu (sduId : Int)
  | reestablishment

/-- One call; `none` is a failed assertion or undefined behaviour. -/
def amStep (e : NrRlcEntityAm) : AmOp → Option NrRlcEntityAm
  | .recvSdu buffer sduId => e.recvSdu buffer sduId
  | .recvPdu buffer => some (e.recvPdu buffer)
  | .generatePdu size => (e.generatePdu size).map (·.entity)
  | .setTime now => e.setTime now
  | .discardSdu sduId => some (e.discardSdu sduId)
  | .reestablishment => some e.reestablishment

/-- States of an AM entity created with `c`. -/
def AmReach (c : AmConfig) : NrRlcEntityAm → Prop :=
  Reach amStep anyStep (newNrRlcEntityAm c)

end NrStack
