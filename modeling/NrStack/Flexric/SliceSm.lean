import NrStack.Library.Wire

/-!
# The plain codec of the slice service model

The messages of `slice_data_ie.h`, their sizes and their encoding in `slice_enc_plain.c`, and the
decoders of `slice_dec_plain.c`. A `float` is its 32 bits, a pointer with its length field is a
`WireArray`, and the tag of a union is an `enum` of four octets that may hold a number without a
name. Memory is never exhausted here, but the decoder allocates `len + 1` octets for a string, where
`len` is a `uint32_t`.
-/

namespace NrStack

/-! ## The messages -/

/-- `static_slice_t`. -/
@[ext] structure StaticSlice where
  posLow : UInt32
  posHigh : UInt32
deriving DecidableEq, Repr, Inhabited

/-- `nvs_rate_t`. -/
@[ext] structure NvsRate where
  mbpsRequired : UInt32
  mbpsReference : UInt32
deriving DecidableEq, Repr, Inhabited

/-- `nvs_slice_t`. -/
inductive NvsSlice
  | rate (rate : NvsRate)
  | capacity (pctReserved : UInt32)
  | other (conf : UInt32) (h : ¬conf = 0 ∧ ¬conf = 1)
deriving DecidableEq, Repr

/-- `scn19_on_demand_t`. -/
@[ext] structure Scn19OnDemand where
  pctReserved : UInt32
  logDelta : UInt32
  tau : UInt32
deriving DecidableEq, Repr, Inhabited

/-- `scn19_slice_t`. -/
inductive Scn19Slice
  | dynamic (dynamic : NvsRate)
  | fixed (fixed : StaticSlice)
  | onDemand (onDemand : Scn19OnDemand)
  | other (conf : UInt32) (h : ¬conf = 0 ∧ ¬conf = 1 ∧ ¬conf = 2)
deriving DecidableEq, Repr

/-- `edf_slice_t`. -/
@[ext] structure EdfSlice where
  deadline : UInt32
  guaranteedPrbs : UInt32
  maxReplenish : UInt32
  overlap : WireArray UInt32
deriving DecidableEq, Repr, Inhabited

/-- `slice_params_t`. -/
inductive SliceParams
  | sta (sta : StaticSlice)
  | nvs (nvs : NvsSlice)
  | scn19 (scn19 : Scn19Slice)
  | edf (edf : EdfSlice)
  | other (type : UInt32) (h : type ≠ 1 ∧ type ≠ 2 ∧ type ≠ 3 ∧ type ≠ 4)
deriving DecidableEq, Repr

/-- `fr_slice_t`. -/
@[ext] structure FrSlice where
  id : UInt32
  label : WireArray UInt8
  sched : WireArray UInt8
  params : SliceParams
deriving DecidableEq, Repr

/-- `ul_dl_slice_conf_t`. -/
@[ext] structure UlDlSliceConf where
  slices : WireArray FrSlice
  schedName : WireArray UInt8
deriving DecidableEq, Repr, Inhabited

/-- `slice_conf_t`. -/
@[ext] structure SliceConf where
  dl : UlDlSliceConf
  ul : UlDlSliceConf
deriving DecidableEq, Repr, Inhabited

/-- `ue_slice_assoc_t`. -/
@[ext] structure UeSliceAssoc where
  dlId : UInt32
  ulId : UInt32
  rnti : UInt16
deriving DecidableEq, Repr, Inhabited

/-- `ue_slice_conf_t`. -/
@[ext] structure UeSliceConf where
  ues : WireArray UeSliceAssoc
deriving DecidableEq, Repr, Inhabited

/-- `slice_ind_msg_t`. -/
@[ext] structure SliceIndMsg where
  sliceConf : SliceConf
  ueSliceConf : UeSliceConf
  tstamp : UInt64
deriving DecidableEq, Repr, Inhabited

/-- `del_slice_conf_t`. -/
@[ext] structure DelSliceConf where
  dl : WireArray UInt32
  ul : WireArray UInt32
deriving DecidableEq, Repr, Inhabited

/-- `slice_ctrl_msg_t`. -/
inductive SliceCtrlMsg
  | addModSlice (conf : SliceConf)
  | delSlice (conf : DelSliceConf)
  | ueSlice (conf : UeSliceConf)
  | other (type : UInt32) (h : ¬type = 0 ∧ ¬type = 1 ∧ ¬type = 2)
deriving DecidableEq, Repr

/-- The tag `conf`. -/
def NvsSlice.conf : NvsSlice → UInt32
  | rate _ => 0
  | capacity _ => 1
  | other conf _ => conf

/-- The tag `conf`. -/
def Scn19Slice.conf : Scn19Slice → UInt32
  | dynamic _ => 0
  | fixed _ => 1
  | onDemand _ => 2
  | other conf _ => conf

/-- The tag `type`. -/
def SliceParams.type : SliceParams → UInt32
  | sta _ => 1
  | nvs _ => 2
  | scn19 _ => 3
  | edf _ => 4
  | other type _ => type

/-- The tag `type`. -/
def SliceCtrlMsg.type : SliceCtrlMsg → UInt32
  | addModSlice _ => 0
  | delSlice _ => 1
  | ueSlice _ => 2
  | other type _ => type

/-! ## The sizes : `cal_*` -/

/-- `cal_static`. -/
def calStatic (_ : StaticSlice) : Nat :=
  4 + 4

/-- `cal_nvs`, or the assertion. -/
def calNvs : NvsSlice → Option Nat
  | .rate _ => some (4 + 4 + 4)
  | .capacity _ => some (4 + 4)
  | .other _ _ => none

/-- `cal_scn19`, or the assertion. -/
def calScn19 : Scn19Slice → Option Nat
  | .dynamic _ => some (4 + 4 + 4)
  | .fixed _ => some (4 + 4 + 4)
  | .onDemand _ => some (4 + 4 + 4 + 4)
  | .other _ _ => none

/-- `cal_edf`. -/
def calEdf (edf : EdfSlice) : Nat :=
  4 + 4 + 4 + 4 + (edf.overlap.contents.map fun _ => 4).sum

/-- `cal_params`, or an assertion. -/
def calParams : SliceParams → Option Nat
  | .sta sta => some (4 + calStatic sta)
  | .nvs nvs => (calNvs nvs).map (4 + ·)
  | .scn19 scn19 => (calScn19 scn19).map (4 + ·)
  | .edf edf => some (4 + calEdf edf)
  | .other _ _ => none

/-- `cal_slc`. -/
def calSlc : List FrSlice → Option Nat
  | [] => some 0
  | slc :: slcs => do
    let szPar ← calParams slc.params
    let total ← calSlc slcs
    return 4 + 4 + slc.label.contents.length + 4 + slc.sched.contents.length + szPar + total

/-- `cal_ul_dl`. -/
def calUlDl (slc : UlDlSliceConf) : Option Nat := do
  let szSlice ← calSlc slc.slices.contents
  return 4 + slc.schedName.contents.length + 4 + szSlice

/-- `cal_slice_conf`. -/
def calSliceConf (slc : SliceConf) : Option Nat := do
  let ul ← calUlDl slc.ul
  let dl ← calUlDl slc.dl
  return ul + dl

/-- `cal_ue_slice_assoc`. -/
def calUeSliceAssoc (_ : UeSliceAssoc) : Nat :=
  4 + 4 + 2

/-- `cal_ue_slice_conf`. -/
def calUeSliceConf (slc : UeSliceConf) : Nat :=
  4 + (slc.ues.contents.map calUeSliceAssoc).sum

/-- `cal_ind_msg_payload`. -/
def calIndMsgPayload (indMsg : SliceIndMsg) : Option Nat := do
  let szConf ← calSliceConf indMsg.sliceConf
  return szConf + calUeSliceConf indMsg.ueSliceConf + 8

/-- `cal_del_slice`. -/
def calDelSlice (del : DelSliceConf) : Nat :=
  4 + del.dl.contents.length * 4 + 4 + del.ul.contents.length * 4

/-- `cal_ctrl_msg_payload`, or an assertion. -/
def calCtrlMsgPayload : SliceCtrlMsg → Option Nat
  | .addModSlice conf => (calSliceConf conf).map (4 + ·)
  | .delSlice conf => some (4 + calDelSlice conf)
  | .ueSlice conf => some (4 + calUeSliceConf conf)
  | .other _ _ => none

/-! ## The encoder -/

namespace SliceEnc

/-- `fill_static`. -/
def fillStatic (sta : StaticSlice) : Wire :=
  .room :: (u32Wire sta.posHigh ++ u32Wire sta.posLow)

/-- `fill_rate`. -/
def fillRate (nvs : NvsRate) : Wire :=
  u32Wire nvs.mbpsReference ++ u32Wire nvs.mbpsRequired

/-- `fill_capacity`. -/
def fillCapacity (pctReserved : UInt32) : Wire :=
  u32Wire pctReserved

/-- `fill_nvs`. -/
def fillNvs (nvs : NvsSlice) : Wire :=
  u32Wire nvs.conf ++
    match nvs with
    | .rate rate => fillRate rate
    | .capacity pctReserved => fillCapacity pctReserved
    | .other _ _ => [.unknown]

/-- `fill_on_demand`. -/
def fillOnDemand (scn : Scn19OnDemand) : Wire :=
  u32Wire scn.logDelta ++ (u32Wire scn.pctReserved ++ u32Wire scn.tau)

/-- `fill_scn19`. -/
def fillScn19 (scn : Scn19Slice) : Wire :=
  u32Wire scn.conf ++
    match scn with
    | .dynamic dynamic => fillRate dynamic
    | .fixed fixed => fillStatic fixed
    | .onDemand onDemand => fillOnDemand onDemand
    | .other _ _ => [.unknown]

/-- `fill_edf`. -/
def fillEdf (edf : EdfSlice) : Wire :=
  u32Wire edf.deadline ++ (u32Wire edf.guaranteedPrbs ++ (u32Wire edf.maxReplenish ++
    arrayWire u32Wire edf.overlap))

/-- `fill_params`. -/
def fillParams (par : SliceParams) : Wire :=
  u32Wire par.type ++
    match par with
    | .sta sta => fillStatic sta
    | .nvs nvs => fillNvs nvs
    | .scn19 scn19 => fillScn19 scn19
    | .edf edf => fillEdf edf
    | .other _ _ => [.unknown]

/-- `fill_slice`. -/
def fillSlice (slc : FrSlice) : Wire :=
  .room :: (u32Wire slc.id ++ (arrayWire u8Wire slc.label ++ (arrayWire u8Wire slc.sched ++
    fillParams slc.params)))

/-- `fill_ul_dl_slice_conf`. -/
def fillUlDlSliceConf (conf : UlDlSliceConf) : Wire :=
  arrayWire u8Wire conf.schedName ++ arrayWire fillSlice conf.slices

/-- `fill_slice_conf`. -/
def fillSliceConf (conf : SliceConf) : Wire :=
  fillUlDlSliceConf conf.dl ++ fillUlDlSliceConf conf.ul

/-- `fill_ue_slice_assoc`. -/
def fillUeSliceAssoc (assoc : UeSliceAssoc) : Wire :=
  .room :: (u32Wire assoc.dlId ++ (u32Wire assoc.ulId ++ u16Wire assoc.rnti))

/-- `fill_ue_slice_conf`. -/
def fillUeSliceConf (slc : UeSliceConf) : Wire :=
  arrayWire fillUeSliceAssoc slc.ues

/-- What `slice_enc_ind_msg_plain` writes. -/
def indMsg (indMsg : SliceIndMsg) : Wire :=
  fillSliceConf indMsg.sliceConf ++ (fillUeSliceConf indMsg.ueSliceConf ++ u64Wire indMsg.tstamp)

/-- `fill_del_slice_conf`. -/
def fillDelSliceConf (conf : DelSliceConf) : Wire :=
  arrayWire u32Wire conf.dl ++ arrayWire u32Wire conf.ul

/-- `fill_slice_ctrl_msg`. -/
def fillSliceCtrlMsg (msg : SliceCtrlMsg) : Wire :=
  u32Wire msg.type ++
    match msg with
    | .addModSlice conf => fillSliceConf conf
    | .delSlice conf => fillDelSliceConf conf
    | .ueSlice conf => fillUeSliceConf conf
    | .other _ _ => [.unknown]

end SliceEnc

/-- `slice_enc_ind_msg_plain`, or a failed assertion. -/
def sliceEncIndMsgPlain (indMsg : SliceIndMsg) : Option (List UInt8) := do
  let sz ← calIndMsgPayload indMsg
  (SliceEnc.indMsg indMsg).writeFrom sz 0

/-- `slice_enc_ctrl_msg_plain`, or a failed assertion. -/
def sliceEncCtrlMsgPlain (ctrlMsg : SliceCtrlMsg) : Option (List UInt8) := do
  let sz ← calCtrlMsgPayload ctrlMsg
  (SliceEnc.fillSliceCtrlMsg ctrlMsg).writeFrom sz 0

/-! ## The decoder -/

namespace SliceDec

/-- The length of a string, which goes into `calloc(1, len + 1)`. -/
def stringLen : Reader UInt32 := do
  let len ← readU32
  if len + 1 ≠ 0 then return len else overrun

/-- A string behind its length. -/
def string : Reader (WireArray UInt8) := do
  let len ← stringLen
  let contents ← readMany readU8 len.toNat
  return .ofList contents

/-- `fill_static`. -/
def fillStatic : Reader StaticSlice := do
  let posHigh ← readU32
  let posLow ← readU32
  return { posHigh, posLow }

/-- `fill_rate`. -/
def fillRate : Reader NvsRate := do
  let mbpsReference ← readU32
  let mbpsRequired ← readU32
  return { mbpsReference, mbpsRequired }

/-- `fill_capacity`. -/
def fillCapacity : Reader UInt32 :=
  readU32

/-- `fill_nvs`. -/
def fillNvs : Reader NvsSlice := do
  let conf ← readU32
  if conf = 0 then return .rate (← fillRate)
  else if conf = 1 then return .capacity (← fillCapacity)
  else unknownTag

/-- `fill_on_demand`. -/
def fillOnDemand : Reader Scn19OnDemand := do
  let logDelta ← readU32
  let pctReserved ← readU32
  let tau ← readU32
  return { logDelta, pctReserved, tau }

/-- `fill_scn19`. -/
def fillScn19 : Reader Scn19Slice := do
  let conf ← readU32
  if conf = 0 then return .dynamic (← fillRate)
  else if conf = 1 then return .fixed (← fillStatic)
  else if conf = 2 then return .onDemand (← fillOnDemand)
  else unknownTag

/-- `fill_edf`. -/
def fillEdf : Reader EdfSlice := do
  let deadline ← readU32
  let guaranteedPrbs ← readU32
  let maxReplenish ← readU32
  let overlap ← readArray readU32
  return { deadline, guaranteedPrbs, maxReplenish, overlap }

/-- `fill_params`. -/
def fillParams : Reader SliceParams := do
  let type ← readU32
  if type = 1 then return .sta (← fillStatic)
  else if type = 2 then return .nvs (← fillNvs)
  else if type = 3 then return .scn19 (← fillScn19)
  else if type = 4 then return .edf (← fillEdf)
  else unknownTag

/-- `fill_slice`. -/
def fillSlice : Reader FrSlice := do
  let id ← readU32
  let label ← string
  let sched ← string
  let params ← fillParams
  return { id, label, sched, params }

/-- `fill_ul_dl_slice_conf`. -/
def fillUlDlSliceConf : Reader UlDlSliceConf := do
  let schedName ← string
  let slices ← readArray fillSlice
  return { schedName, slices }

/-- `fill_slice_conf`. -/
def fillSliceConf : Reader SliceConf := do
  let dl ← fillUlDlSliceConf
  let ul ← fillUlDlSliceConf
  return { dl, ul }

/-- `fill_ue_slice_assoc`. -/
def fillUeSliceAssoc : Reader UeSliceAssoc := do
  let dlId ← readU32
  let ulId ← readU32
  let rnti ← readU16
  return { dlId, ulId, rnti }

/-- `fill_ue_slice_conf`. -/
def fillUeSliceConf : Reader UeSliceConf := do
  let ues ← readArray fillUeSliceAssoc
  return { ues }

/-- What `slice_dec_ind_msg_plain` reads. -/
def indMsg : Reader SliceIndMsg := do
  let sliceConf ← fillSliceConf
  let ueSliceConf ← fillUeSliceConf
  let tstamp ← readU64
  return { sliceConf, ueSliceConf, tstamp }

/-- `fill_del_slice`. -/
def fillDelSlice : Reader DelSliceConf := do
  let dl ← readArray readU32
  let ul ← readArray readU32
  return { dl, ul }

/-- What `slice_dec_ctrl_msg_plain` reads. -/
def ctrlMsg : Reader SliceCtrlMsg := do
  let type ← readU32
  if type = 0 then return .addModSlice (← fillSliceConf)
  else if type = 1 then return .delSlice (← fillDelSlice)
  else if type = 2 then return .ueSlice (← fillUeSliceConf)
  else unknownTag

end SliceDec

/-- `slice_dec_ind_msg_plain`. -/
def sliceDecIndMsgPlain : Reader SliceIndMsg := do
  let ind ← SliceDec.indMsg
  assertEnd
  return ind

/-- `slice_dec_ctrl_msg_plain`. -/
def sliceDecCtrlMsgPlain : Reader SliceCtrlMsg := do
  let ctrl ← SliceDec.ctrlMsg
  assertEnd
  return ctrl

end NrStack
