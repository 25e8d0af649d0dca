import Mathlib.Tactic

/-!
# The SDAP entity

`nr_sdap_entity_t` with its functions : a table from QFIs to DRBs, which also holds for each
QFI whether the DRB has SDAP headers, and a default DRB. There is one entity for each PDU
session of a UE, in one list.

A QFI is the index of a table of `SDAP_MAX_QFI` entries, the six bits it has in a header.
`ctrlPdus` is history : the control PDUs submitted, with their DRBs. The sockets and threads
of the TUN interface are left out, as are the end-of-session functions.
-/

namespace NrStack

/-- `SDAP_MAX_QFI`. -/
def sdapMaxQfi : Nat :=
  64

/-- `AVLBL_DRB`. -/
def avlblDrb : Nat :=
  5

/-- The largest SDU that gets an SDAP header, one less than `SDAP_MAX_PDU`. -/
def sdapMaxSdu : Nat :=
  8999

/-- A QoS flow identifier. -/
abbrev Qfi :=
  Fin sdapMaxQfi

instance : NeZero sdapMaxQfi :=
  ⟨by decide⟩

/-- `qfi2drb_t`. The DRB `0` is no mapping rule. -/
structure Qfi2drb where
  drbId : Nat
  hasSdapRx : Bool
  hasSdapTx : Bool
deriving DecidableEq, Repr

/-- `map_type` of `nr_sdap_map_ctrl_pdu`. -/
inductive SdapCtrlPduMap
  | defDrb
  | ruleDrb
deriving DecidableEq, Repr

/-- `nr_sdap_entity_t`. -/
structure NrSdapEntity where
  ueId : Nat
  pdusessionId : Int
  isGnb : Bool
  /-- `0` if there is none. -/
  defaultDrb : Nat
  qfi2drbTable : Qfi → Qfi2drb
  ctrlPdus : List (Nat × UInt8)

/-! ## Headers -/

/-- `nr_sdap_dl_hdr_t` of a data PDU; RDI is always `0`. -/
def sdapDlHdr (qfi : Qfi) (rqi : Bool) : UInt8 :=
  .ofNat (qfi.val ||| (rqi.toNat <<< 6))

/-- `nr_sdap_ul_hdr_t`, with `R` `0`. -/
def sdapUlHdr (qfi : Qfi) (dc : Bool) : UInt8 :=
  .ofNat (qfi.val ||| (dc.toNat <<< 7))

/-- The header of a data PDU. The UE sends what it is given for `rqi` as D/C bit. -/
def sdapHdr (enbFlag : Bool) (qfi : Qfi) (rqi : Bool) : UInt8 :=
  if enbFlag then sdapDlHdr qfi rqi else sdapUlHdr qfi rqi

/-- The QFI of a header. -/
def hdrQfi (hdr : UInt8) : Qfi :=
  ⟨hdr.toNat % 64, Nat.mod_lt _ (by decide)⟩

/-- The RDI bit of a DL header. -/
def hdrRdi (hdr : UInt8) : Bool :=
  hdr.toNat.testBit 7

namespace NrSdapEntity

variable (e : NrSdapEntity)

/-! ## The mapping of QFIs to DRBs -/

/-- Write an entry of the table. -/
def setRule (qfi : Qfi) (rule : Qfi2drb) : NrSdapEntity :=
  { e with qfi2drbTable := Function.update e.qfi2drbTable qfi rule }

/-- `nr_sdap_qfi2drb_map_update`. -/
def qfi2drbMapUpdate (qfi : Qfi) (drb : Nat) (hasSdapRx hasSdapTx : Bool) : NrSdapEntity :=
  if qfi.val < sdapMaxQfi ∧ qfi.val > 0 ∧ drb > 0 ∧ drb ≤ avlblDrb then
    e.setRule qfi ⟨drb, hasSdapRx, hasSdapTx⟩
  else e

/-- `nr_sdap_qfi2drb_map_del`. -/
def qfi2drbMapDel (qfi : Qfi) : NrSdapEntity :=
  e.setRule qfi { e.qfi2drbTable qfi with drbId := 0 }

/-- `nr_sdap_qfi2drb_map`. A QFI without rule is mapped to the default DRB. -/
def qfi2drbMap (qfi : Qfi) : NrSdapEntity × Nat :=
  if (e.qfi2drbTable qfi).drbId ≠ 0 then (e, (e.qfi2drbTable qfi).drbId)
  else if e.defaultDrb ≠ 0 then
    (e.qfi2drbMapUpdate qfi e.defaultDrb (e.qfi2drbTable qfi).hasSdapRx
      (e.qfi2drbTable qfi).hasSdapTx, e.defaultDrb)
  else (e, 0)

/-! ## Control PDUs -/

/-- `nr_sdap_construct_ctrl_pdu`. -/
def sdapConstructCtrlPdu (qfi : Qfi) : UInt8 :=
  sdapUlHdr qfi false

/-- `nr_sdap_map_ctrl_pdu`. -/
def sdapMapCtrlPdu (mapType : SdapCtrlPduMap) (qfi : Qfi) : NrSdapEntity × Nat :=
  match mapType with
  | .defDrb => (e, e.defaultDrb)
  | .ruleDrb => e.qfi2drbMap qfi

/-- `nr_sdap_submit_ctrl_pdu`. -/
def sdapSubmitCtrlPdu (drb : Nat) (ctrlPdu : UInt8) : NrSdapEntity :=
  if drb ≠ 0 then { e with ctrlPdus := e.ctrlPdus ++ [(drb, ctrlPdu)] } else e

/-- Construct, map and submit an end marker. -/
def sendEndMarker (mapType : SdapCtrlPduMap) (qfi : Qfi) : NrSdapEntity :=
  (e.sdapMapCtrlPdu mapType qfi).1.sdapSubmitCtrlPdu (e.sdapMapCtrlPdu mapType qfi).2
    (sdapConstructCtrlPdu qfi)

/-- The end marker on the default DRB of a QFI that gets its first rule. -/
def endMarkerDefault (qfi : Qfi) : NrSdapEntity :=
  if e.defaultDrb ≠ 0 ∧ (e.qfi2drbTable qfi).drbId = 0 then e.sendEndMarker .defDrb qfi else e

/-! ## Configuration -/

/-- The end markers of a QFI that is configured. -/
def configMarkers (drbIdentity : Nat) (qfi : Qfi) : NrSdapEntity :=
  let e := e.endMarkerDefault qfi
  if (e.qfi2drbTable qfi).drbId ≠ drbIdentity ∧ (e.qfi2drbTable qfi).hasSdapTx = true then
    e.sendEndMarker .ruleDrb qfi
  else e

/-- One QFI of `nr_sdap_ue_qfi2drb_config`. -/
def ueQfi2drbConfigOne (drbIdentity : Nat) (hasSdapRx hasSdapTx : Bool) (qfi : Qfi) :
    NrSdapEntity :=
  (e.configMarkers drbIdentity qfi).qfi2drbMapUpdate qfi drbIdentity hasSdapRx hasSdapTx

/-- `nr_sdap_ue_qfi2drb_config`. -/
def ueQfi2drbConfig (mappedQfi2Add : List Qfi) (drbIdentity : Nat) (hasSdapRx hasSdapTx : Bool) :
    NrSdapEntity :=
  mappedQfi2Add.foldl (fun e => e.ueQfi2drbConfigOne drbIdentity hasSdapRx hasSdapTx) e

/-- A new entity of `new_nr_sdap_entity`. Without a default DRB the QFIs get no rule. -/
def create (isGnb hasSdapRx hasSdapTx : Bool) (ueId : Nat) (pdusessionId : Int)
    (isDefaultDrb : Bool) (drbIdentity : Nat) (mappedQfi2Add : List Qfi) : NrSdapEntity :=
  let e : NrSdapEntity := ⟨ueId, pdusessionId, isGnb, 0, fun _ => ⟨0, false, false⟩, []⟩
  if isDefaultDrb then
    mappedQfi2Add.foldl (fun e qfi => e.qfi2drbMapUpdate qfi e.defaultDrb hasSdapRx hasSdapTx)
      { e with defaultDrb := drbIdentity }
  else e

/-- The rules of `nr_reconfigure_sdap_entity` : those to add, then those to release. -/
def reconfigure (mappedQfi2Add mappedQfi2Release : List Qfi) (drbIdentity : Nat)
    (hasSdapRx hasSdapTx : Bool) : NrSdapEntity :=
  mappedQfi2Release.foldl qfi2drbMapDel
    (e.ueQfi2drbConfig mappedQfi2Add drbIdentity hasSdapRx hasSdapTx)

/-- `nr_sdap_release_drb`. The default DRB stays. -/
def releaseDrb (drbId : Nat) : NrSdapEntity :=
  { e with
    qfi2drbTable := fun qfi =>
      if (e.qfi2drbTable qfi).drbId = drbId then { e.qfi2drbTable qfi with drbId := 0 }
      else e.qfi2drbTable qfi }

/-! ## Data transfer -/

/-- `nr_sdap_tx_entity`, with what is handed to PDCP and the DRB it is handed to. -/
def txEntity (enbFlag : Bool) (rbId : Nat) (sdu : List UInt8) (qfi : Qfi) (rqi : Bool) :
    NrSdapEntity × Option (Nat × List UInt8) :=
  let pdcpEntity := (e.qfi2drbMap qfi).2
  let e := (e.qfi2drbMap qfi).1
  let sdapDrbId := if pdcpEntity ≠ 0 then pdcpEntity else rbId
  let pdcpEntHasSdap := if pdcpEntity ≠ 0 then (e.qfi2drbTable qfi).hasSdapTx else false
  if pdcpEntHasSdap = false then (e, some (sdapDrbId, sdu))
  else if sdu.length = 0 ∨ sdu.length > sdapMaxSdu then (e, none)
  else (e, some (sdapDrbId, sdapHdr enbFlag qfi rqi :: sdu))

/-- The end markers of a QFI that is mapped reflectively. -/
def reflectiveMarkers (pdcpEntity : Nat) (qfi : Qfi) : NrSdapEntity :=
  let e := e.endMarkerDefault qfi
  if pdcpEntity ≠ (e.qfi2drbTable qfi).drbId then e.sendEndMarker .ruleDrb qfi else e

/-- Reflective mapping at the UE. -/
def reflectiveMapping (pdcpEntity : Nat) (qfi : Qfi) : NrSdapEntity :=
  let e := e.reflectiveMarkers pdcpEntity qfi
  e.setRule qfi { e.qfi2drbTable qfi with drbId := pdcpEntity }

/-- `nr_sdap_rx_entity`, with the SDU for the upper layer. -/
def rxEntity (pdcpEntity : Nat) (isGnb hasSdapRx : Bool) (buf : List UInt8) :
    NrSdapEntity × List UInt8 :=
  let hdr := buf.getD 0 0
  let e := if isGnb = false ∧ hasSdapRx = true ∧ hdrRdi hdr = true then
      e.reflectiveMapping pdcpEntity (hdrQfi hdr)
    else e
  (e, buf.drop hasSdapRx.toNat)

end NrSdapEntity

/-! ## The list of entities -/

/-- The entity of a PDU session. -/
def NrSdapEntity.IsFor (e : NrSdapEntity) (ueId : Nat) (pdusessionId : Int) : Prop :=
  e.ueId = ueId ∧ e.pdusessionId = pdusessionId

instance (e : NrSdapEntity) (ueId : Nat) (pdusessionId : Int) :
    Decidable (e.IsFor ueId pdusessionId) :=
  inferInstanceAs (Decidable (_ ∧ _))

/-- `nr_sdap_get_entity`. -/
def nrSdapGetEntity (l : List NrSdapEntity) (ueId : Nat) (pdusessionId : Int) :
    Option NrSdapEntity :=
  l.find? fun e => e.IsFor ueId pdusessionId

/-- Change the entity that `nr_sdap_get_entity` finds. -/
def updateEntity (ueId : Nat) (pdusessionId : Int) (f : NrSdapEntity → NrSdapEntity) :
    List NrSdapEntity → List NrSdapEntity
  | [] => []
  | e :: l =>
    if e.IsFor ueId pdusessionId then f e :: l else e :: updateEntity ueId pdusessionId f l

/-- `new_nr_sdap_entity`. An entity that exists is kept, and at the UE it gets the rules. -/
def newNrSdapEntity (l : List NrSdapEntity) (isGnb hasSdapRx hasSdapTx : Bool) (ueId : Nat)
    (pdusessionId : Int) (isDefaultDrb : Bool) (drbIdentity : Nat) (mappedQfi2Add : List Qfi) :
    List NrSdapEntity :=
  if (nrSdapGetEntity l ueId pdusessionId).isSome then
    if isGnb then l
    else updateEntity ueId pdusessionId
      (fun e => e.ueQfi2drbConfig mappedQfi2Add drbIdentity hasSdapRx hasSdapTx) l
  else
    .create isGnb hasSdapRx hasSdapTx ueId pdusessionId isDefaultDrb drbIdentity mappedQfi2Add :: l

end NrStack
