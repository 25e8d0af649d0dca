import NrStack.Library.Wire

/-!
# The plain codec of the traffic-control service model

The indication message of `tc_data_ie.h`, its size and its encoding in `tc_enc_plain.c`, and the
decoder of `tc_dec_plain.c`. A signed number or a `float` is its bits. A classifier filter is copied
with the padding between its fields, so it is modelled with it. Memory is never exhausted here.
-/

namespace NrStack

/-! ## The message -/

/-- `tc_sch_t`. -/
inductive TcSch
  | rr (dummy : UInt32)
  | prio (qPrio : WireArray UInt32)
  | other (type : UInt32) (h : type ≠ 0 ∧ type ≠ 1)
deriving DecidableEq, Repr

/-- `tc_mtr_t`. -/
@[ext] structure TcMtr where
  timeWindowMs : UInt32
  bnd : UInt32
deriving DecidableEq, Repr, Inhabited

/-- `tc_pcr_t`. -/
@[ext] structure TcPcr where
  type : UInt32
  id : UInt32
  mtr : TcMtr
deriving DecidableEq, Repr, Inhabited

/-- `L3_filter_t`. -/
@[ext] structure L3Filter where
  srcAddr : UInt64
  dstAddr : UInt64
deriving DecidableEq, Repr, Inhabited

/-- `L4_filter_t`. -/
@[ext] structure L4Filter where
  srcPort : UInt32
  dstPort : UInt32
  protocol : UInt32
deriving DecidableEq, Repr, Inhabited

/-- `tc_cls_osi_filter_t`, where `l3` and the next filter begin on a multiple of 8 octets. -/
@[ext] structure TcClsOsiFilter where
  id : UInt32
  idPad : UInt32
  l3 : L3Filter
  l4 : L4Filter
  l7Dummy : UInt32
  dstQueue : UInt32
  dstQueuePad : UInt32
deriving DecidableEq, Repr, Inhabited

/-- `tc_cls_t`. -/
inductive TcCls
  | rr (dummy : UInt32)
  | osi (flt : WireArray TcClsOsiFilter)
  | sto (dummy : UInt32)
  | other (type : UInt32) (h : type ≠ 0 ∧ type ≠ 1 ∧ type ≠ 2)
deriving DecidableEq, Repr

/-- `tc_drp_t`. -/
structure TcDrp where
  droppedPkts : UInt32
deriving DecidableEq, Repr, Inhabited

/-- `tc_mrk_t`. -/
structure TcMrk where
  markedPkts : UInt32
deriving DecidableEq, Repr, Inhabited

/-- `tc_plc_t`. -/
@[ext] structure TcPlc where
  id : UInt32
  mtr : TcMtr
  drp : TcDrp
  mrk : TcMrk
  maxRateKbps : UInt32
  active : UInt32
  dstId : UInt32
  devId : UInt32
deriving DecidableEq, Repr, Inhabited

/-- The members that the queues share, which either drop or mark packets. -/
@[ext] structure TcQueueData (loss : Type) where
  bytes : UInt32
  pkts : UInt32
  bytesFwd : UInt32
  pktsFwd : UInt32
  loss : loss
  avgSojournTime : UInt32
  lastSojournTime : UInt64
deriving DecidableEq, Repr, Inhabited

/-- `tc_queue_fifo_t`. -/
abbrev TcQueueFifo :=
  TcQueueData TcDrp

/-- `tc_queue_codel_t`. -/
abbrev TcQueueCodel :=
  TcQueueData TcDrp

/-- `tc_queue_ecn_codel_t`. -/
abbrev TcQueueEcnCodel :=
  TcQueueData TcMrk

/-- The union in `tc_queue_t`. -/
inductive TcQueueUnion
  | fifo (fifo : TcQueueFifo)
  | codel (codel : TcQueueCodel)
  | ecn (ecn : TcQueueEcnCodel)
  | other (type : UInt32) (h : type ≠ 0 ∧ type ≠ 1 ∧ type ≠ 2)
deriving DecidableEq, Repr

/-- `tc_queue_t`. -/
@[ext] structure TcQueue where
  id : UInt32
  union : TcQueueUnion
deriving DecidableEq, Repr

/-- `tc_shp_t`. -/
@[ext] structure TcShp where
  id : UInt32
  active : UInt32
  maxRateKbps : UInt32
  mtr : TcMtr
deriving DecidableEq, Repr, Inhabited

/-- The elements of the arrays `shp`, `plc` and `q` at one index. -/
@[ext] structure TcShpPlcQ where
  shp : TcShp
  plc : TcPlc
  q : TcQueue
deriving DecidableEq, Repr

/-- `tc_ind_msg_t`, where one length `len_q` is that of `shp`, `plc` and `q`. -/
@[ext] structure TcIndMsg where
  sch : TcSch
  pcr : TcPcr
  cls : TcCls
  queues : WireArray TcShpPlcQ
  tstamp : UInt64
deriving DecidableEq, Repr

/-- The tag `type`. -/
def TcSch.type : TcSch → UInt32
  | rr _ => 0
  | prio _ => 1
  | other type _ => type

/-- The tag `type`. -/
def TcCls.type : TcCls → UInt32
  | rr _ => 0
  | osi _ => 1
  | sto _ => 2
  | other type _ => type

/-- The tag `type`. -/
def TcQueueUnion.type : TcQueueUnion → UInt32
  | fifo _ => 0
  | codel _ => 1
  | ecn _ => 2
  | other type _ => type

/-! ## The size : `cal_*_payload` -/

/-- `cal_sch_payload`, or the assertion. -/
def calSchPayload : TcSch → Option Nat
  | .rr _ => some 4
  | .prio qPrio => some (4 + 4 + 4 * qPrio.contents.length)
  | .other _ _ => none

/-- `cal_mtr_payload`. -/
def calMtrPayload (_ : TcMtr) : Nat :=
  4 + 4

/-- `cal_pcr_payload`. -/
def calPcrPayload (pcr : TcPcr) : Nat :=
  4 + 4 + calMtrPayload pcr.mtr

/-- `cal_cls_osi_payload`. -/
def calClsOsiPayload (flt : WireArray TcClsOsiFilter) : Nat :=
  4 + 48 * flt.contents.length

/-- `cal_cls_payload`, or the assertion. -/
def calClsPayload : TcCls → Option Nat
  | .rr _ => some (4 + 4)
  | .osi flt => some (4 + calClsOsiPayload flt)
  | .sto _ => some (4 + 4)
  | .other _ _ => none

/-- `cal_drp_payload`. -/
def calDrpPayload (_ : TcDrp) : Nat :=
  4

/-- `cal_mrk_payload`. -/
def calMrkPayload (_ : TcMrk) : Nat :=
  4

/-- `cal_q_payload`, or the assertion. -/
def calQPayload (q : TcQueue) : Option Nat :=
  match q.union with
  | .fifo fifo => some (4 + 4 + 4 + 4 + 4 + calDrpPayload fifo.loss + 4 + 8)
  | .codel codel => some (4 + 4 + 4 + 4 + 4 + calDrpPayload codel.loss + 4 + 8)
  | .ecn ecn => some (4 + 4 + 4 + 4 + 4 + calMrkPayload ecn.loss + 4 + 8)
  | .other _ _ => none

/-- `cal_shp_payload`. -/
def calShpPayload (shp : TcShp) : Nat :=
  4 + 4 + 4 + calMtrPayload shp.mtr

/-- `cal_plc_payload`. -/
def calPlcPayload (plc : TcPlc) : Nat :=
  4 + calMtrPayload plc.mtr + calDrpPayload plc.drp + calMrkPayload plc.mrk + 4 + 4 + 4 + 4

/-- The loop of `cal_ind_msg_payload`. -/
def calQShpPlc : List TcShpPlcQ → Option Nat
  | [] => some 0
  | x :: xs => do
    let szQ ← calQPayload x.q
    let sz ← calQShpPlc xs
    return szQ + calShpPayload x.shp + calPlcPayload x.plc + sz

/-- `cal_ind_msg_payload` of `tc_enc_plain.c`. -/
def calTcIndMsgPayload (ind : TcIndMsg) : Option Nat := do
  let szSch ← calSchPayload ind.sch
  let szCls ← calClsPayload ind.cls
  let szQShpPlc ← calQShpPlc ind.queues.contents
  return szSch + calPcrPayload ind.pcr + szCls + 4 + szQShpPlc + 8

/-! ## The encoder : `tc_enc_*` -/

namespace TcEnc

/-- `tc_enc_sch`. -/
def sch (s : TcSch) : Wire :=
  u32Wire s.type ++
    match s with
    | .rr _ => []
    | .prio qPrio => arrayWire u32Wire qPrio
    | .other _ _ => [.unknown]

/-- `tc_enc_mtr`. -/
def mtr (m : TcMtr) : Wire :=
  u32Wire m.bnd ++ u32Wire m.timeWindowMs

/-- `tc_enc_pcr`. -/
def pcr (p : TcPcr) : Wire :=
  u32Wire p.type ++ (u32Wire p.id ++ mtr p.mtr)

/-- The memory of an `L3_filter_t`. -/
def l3Filter (l3 : L3Filter) : Wire :=
  u64Wire l3.srcAddr ++ u64Wire l3.dstAddr

/-- The memory of an `L4_filter_t`. -/
def l4Filter (l4 : L4Filter) : Wire :=
  u32Wire l4.srcPort ++ (u32Wire l4.dstPort ++ u32Wire l4.protocol)

/-- The memory of a `tc_cls_osi_filter_t`. -/
def clsOsiFilter (flt : TcClsOsiFilter) : Wire :=
  u32Wire flt.id ++ (u32Wire flt.idPad ++ (l3Filter flt.l3 ++ (l4Filter flt.l4 ++
    (u32Wire flt.l7Dummy ++ (u32Wire flt.dstQueue ++ u32Wire flt.dstQueuePad)))))

/-- `tc_enc_cls`. -/
def cls (c : TcCls) : Wire :=
  u32Wire c.type ++
    match c with
    | .rr dummy => u32Wire dummy
    | .osi flt => arrayWire clsOsiFilter flt
    | .sto dummy => u32Wire dummy
    | .other _ _ => [.unknown]

/-- `tc_enc_shp`. -/
def shp (s : TcShp) : Wire :=
  u32Wire s.id ++ (u32Wire s.active ++ (u32Wire s.maxRateKbps ++ mtr s.mtr))

/-- `tc_enc_drp`. -/
def drp (d : TcDrp) : Wire :=
  u32Wire d.droppedPkts

/-- `tc_enc_mrk`. -/
def mrk (m : TcMrk) : Wire :=
  u32Wire m.markedPkts

/-- `tc_enc_plc`. -/
def plc (p : TcPlc) : Wire :=
  u32Wire p.id ++ (mtr p.mtr ++ (drp p.drp ++ (mrk p.mrk ++ (u32Wire p.maxRateKbps ++
    (u32Wire p.active ++ (u32Wire p.dstId ++ u32Wire p.devId))))))

/-- The members that the queues share. -/
def queueData {loss : Type} (enc : loss → Wire) (q : TcQueueData loss) : Wire :=
  u32Wire q.bytes ++ (u32Wire q.pkts ++ (u32Wire q.bytesFwd ++ (u32Wire q.pktsFwd ++
    (enc q.loss ++ (u32Wire q.avgSojournTime ++ u64Wire q.lastSojournTime)))))

/-- `tc_enc_q_fifo`. -/
def qFifo (q : TcQueueFifo) : Wire :=
  queueData drp q

/-- `tc_enc_q_codel`. -/
def qCodel (q : TcQueueCodel) : Wire :=
  queueData drp q

/-- `tc_enc_q_ecn_codel`. -/
def qEcnCodel (q : TcQueueEcnCodel) : Wire :=
  queueData mrk q

/-- The tag and the union of a `tc_queue_t`. -/
def queueUnion (u : TcQueueUnion) : Wire :=
  u32Wire u.type ++
    match u with
    | .fifo fifo => qFifo fifo
    | .codel codel => qCodel codel
    | .ecn ecn => qEcnCodel ecn
    | .other _ _ => [.unknown]

/-- `tc_enc_q`. -/
def q (queue : TcQueue) : Wire :=
  queueUnion queue.union

/-- The body of the loop of `tc_enc_ind_msg_plain`. -/
def shpPlcQ (x : TcShpPlcQ) : Wire :=
  shp x.shp ++ (.room :: (plc x.plc ++ (.room :: (q x.q ++ [.room]))))

/-- The loop of `tc_enc_ind_msg_plain`, behind `len_q`. -/
def queues (xs : WireArray TcShpPlcQ) : Wire :=
  u32Wire xs.len ++ (.room :: xs.contents.flatMap shpPlcQ)

/-- What `tc_enc_ind_msg_plain` writes. -/
def indMsg (ind : TcIndMsg) : Wire :=
  sch ind.sch ++ (.room :: (pcr ind.pcr ++ (.room :: (cls ind.cls ++ (.room ::
    (queues ind.queues ++ u64Wire ind.tstamp))))))

end TcEnc

/-- `tc_enc_ind_msg_plain`, or a failed assertion. -/
def tcEncIndMsgPlain (ind : TcIndMsg) : Option (List UInt8) := do
  let sz ← calTcIndMsgPayload ind
  (TcEnc.indMsg ind).writeFrom sz 0

/-! ## The decoder : `tc_dec_*` -/

namespace TcDec

/-- `tc_dec_sch`. The message was zero before. -/
def sch : Reader TcSch := do
  let type ← readU32
  if type = 0 then return .rr 0
  else if type = 1 then return .prio (← readArray readU32)
  else unknownTag

/-- `tc_dec_mtr`. -/
def mtr : Reader TcMtr := do
  let bnd ← readU32
  let timeWindowMs ← readU32
  return { bnd, timeWindowMs }

/-- `tc_dec_pcr`. -/
def pcr : Reader TcPcr := do
  let type ← readU32
  let id ← readU32
  let mtr ← mtr
  return { type, id, mtr }

/-- The memory of an `L3_filter_t`. -/
def l3Filter : Reader L3Filter := do
  let srcAddr ← readU64
  let dstAddr ← readU64
  return { srcAddr, dstAddr }

/-- The memory of an `L4_filter_t`. -/
def l4Filter : Reader L4Filter := do
  let srcPort ← readU32
  let dstPort ← readU32
  let protocol ← readU32
  return { srcPort, dstPort, protocol }

/-- The memory of a `tc_cls_osi_filter_t`. -/
def clsOsiFilter : Reader TcClsOsiFilter := do
  let id ← readU32
  let idPad ← readU32
  let l3 ← l3Filter
  let l4 ← l4Filter
  let l7Dummy ← readU32
  let dstQueue ← readU32
  let dstQueuePad ← readU32
  return { id, idPad, l3, l4, l7Dummy, dstQueue, dstQueuePad }

/-- `tc_dec_cls`. -/
def cls : Reader TcCls := do
  let type ← readU32
  if type = 0 then return .rr (← readU32)
  else if type = 1 then return .osi (← readArray clsOsiFilter)
  else if type = 2 then return .sto (← readU32)
  else unknownTag

/-- `tc_dec_shp`. -/
def shp : Reader TcShp := do
  let id ← readU32
  let active ← readU32
  let maxRateKbps ← readU32
  let mtr ← mtr
  return { id, active, maxRateKbps, mtr }

/-- `tc_dec_drp`. -/
def drp : Reader TcDrp := do
  let droppedPkts ← readU32
  return { droppedPkts }

/-- `tc_dec_mrk`. -/
def mrk : Reader TcMrk := do
  let markedPkts ← readU32
  return { markedPkts }

/-- `tc_dec_plc`. -/
def plc : Reader TcPlc := do
  let id ← readU32
  let mtr ← mtr
  let drp ← drp
  let mrk ← mrk
  let maxRateKbps ← readU32
  let active ← readU32
  let dstId ← readU32
  let devId ← readU32
  return { id, mtr, drp, mrk, maxRateKbps, active, dstId, devId }

/-- The members that the queues share. -/
def queueData {loss : Type} (dec : Reader loss) : Reader (TcQueueData loss) := do
  let bytes ← readU32
  let pkts ← readU32
  let bytesFwd ← readU32
  let pktsFwd ← readU32
  let loss ← dec
  let avgSojournTime ← readU32
  let lastSojournTime ← readU64
  return { bytes, pkts, bytesFwd, pktsFwd, loss, avgSojournTime, lastSojournTime }

/-- `tc_dec_q_fifo`. -/
def qFifo : Reader TcQueueFifo :=
  queueData drp

/-- `tc_dec_q_codel`. -/
def qCodel : Reader TcQueueCodel :=
  queueData drp

/-- `tc_dec_q_ecn_codel`. -/
def qEcnCodel : Reader TcQueueEcnCodel :=
  queueData mrk

/-- The tag and the union of a `tc_queue_t`. -/
def queueUnion : Reader TcQueueUnion := do
  let type ← readU32
  if type = 0 then return .fifo (← qFifo)
  else if type = 1 then return .codel (← qCodel)
  else if type = 2 then return .ecn (← qEcnCodel)
  else unknownTag

/-- `tc_dec_q`. The queue was zero before. -/
def q : Reader TcQueue := do
  let union ← queueUnion
  return { id := 0, union }

/-- The body of the loop of `tc_dec_ind_msg_plain`. -/
def shpPlcQ : Reader TcShpPlcQ := do
  let shp ← shp
  assertRoom
  let plc ← plc
  assertRoom
  let q ← q
  assertRoom
  return { shp, plc, q }

/-- The loop of `tc_dec_ind_msg_plain`, behind `len_q`. -/
def queues : Reader (WireArray TcShpPlcQ) := do
  let lenQ ← readU32
  assertRoom
  let contents ← readMany shpPlcQ lenQ.toNat
  return .ofList contents

/-- What `tc_dec_ind_msg_plain` reads. -/
def indMsg : Reader TcIndMsg := do
  let sch ← sch
  assertRoom
  let pcr ← pcr
  assertRoom
  let cls ← cls
  assertRoom
  let queues ← queues
  let tstamp ← readU64
  return { sch, pcr, cls, queues, tstamp }

end TcDec

/-- `tc_dec_ind_msg_plain`. -/
def tcDecIndMsgPlain : Reader TcIndMsg := do
  let ind ← TcDec.indMsg
  assertEnd
  return ind

end NrStack
