import NrStack.Mac.UlMacPdu

/-!
# What the UE receives : DL-SCH PDUs, MsgB and RAR

`nr_ue_process_mac_pdu`, `nr_ue_validate_successrar` and `nr_ue_process_rar` of
`nr_ue_procedures.c`, over the bytes from the pointer to the end of what was received. What they
tell the rest of the UE is kept in order (`DlMacEvent`), with the bytes it was read from where these
need not be whole. Msg3 for a RAR is scheduled by `handle_rar_reception`, of which the environment
says whether it ends in an assertion.
-/

namespace NrStack

/-! ## Subheaders -/

/-- `DL_SCH_LCID_*`, as far as the UE has a case for it. -/
inductive DlSchLcid
  | ccch
  | logicalChannel
  | recommendedBitrate
  | spZpCsiRsResSetAct
  | pucchSpatialRelationAct
  | spSrsActivation
  | spCsiRepPucchAct
  | tciStateIndUeSpecPdcch
  | tciStateActUeSpecPdsch
  | aperiodicCsiTriStateSubsel
  | spCsiRsCsiImResSetAct
  | duplicationAct
  | scellAct4Oct
  | scellAct1Oct
  | lDrx
  | drx
  | taCommand
  | conResId
  | padding
  | unknown
  deriving DecidableEq, Repr

/-- The case of the switch over the LCID. -/
def dlSchLcid (lcid : UInt8) : DlSchLcid :=
  if lcid = 0x00 then .ccch
  else if 1 ≤ lcid ∧ lcid ≤ 32 then .logicalChannel
  else if lcid = 0x2F then .recommendedBitrate
  else if lcid = 0x30 then .spZpCsiRsResSetAct
  else if lcid = 0x31 then .pucchSpatialRelationAct
  else if lcid = 0x32 then .spSrsActivation
  else if lcid = 0x33 then .spCsiRepPucchAct
  else if lcid = 0x34 then .tciStateIndUeSpecPdcch
  else if lcid = 0x35 then .tciStateActUeSpecPdsch
  else if lcid = 0x36 then .aperiodicCsiTriStateSubsel
  else if lcid = 0x37 then .spCsiRsCsiImResSetAct
  else if lcid = 0x38 then .duplicationAct
  else if lcid = 0x39 then .scellAct4Oct
  else if lcid = 0x3A then .scellAct1Oct
  else if lcid = 0x3B then .lDrx
  else if lcid = 0x3C then .drx
  else if lcid = 0x3D then .taCommand
  else if lcid = 0x3E then .conResId
  else if lcid = 0x3F then .padding
  else .unknown

/-- What `get_mac_len` returns, and what it leaves in the lengths. -/
structure MacLen where
  ok : Bool
  macSubheaderLen : ℕ
  macLen : ℕ
  deriving DecidableEq, Repr

/-- `get_mac_len`, with the lengths its callers start from. -/
def getMacLen (pduP : List UInt8) : MacLen :=
  match pduP with
  | first :: second :: rest =>
    if first &&& 0x40 ≠ 0 then
      match rest with
      | [] => ⟨false, 1, 0⟩
      | third :: _ =>
        let len := second.toNat * 256 + third.toNat
        ⟨len ≤ pduP.length, 3, len⟩
    else ⟨second.toNat ≤ pduP.length, 2, second.toNat⟩
  | _ => ⟨false, 1, 0⟩

/-- The bytes that are handed on, all of which must have been received. -/
def pduOctets (pduP : List UInt8) (from_ len : ℕ) : Except MacPduFault (List UInt8) :=
  if from_ + len ≤ pduP.length then .ok ((pduP.drop from_).take len) else .error .outside

/-! ## The UE -/

/-- `nrRA_UE_state_t`. -/
inductive NrRaUeState
  | ueIdle
  | generatePreamble
  | waitRar
  | waitMsgB
  | waitContentionResolution
  | succeeded
  | failed
  deriving DecidableEq, Repr

/-- What the parsers read and write of `RA_config_t`, and of the MAC around it. -/
structure UeRaConfig where
  twoStep : Bool
  raState : NrRaUeState
  raActive : Bool
  cfra : Bool
  raPreambleIndex : UInt8
  contResId : Vector UInt8 6
  scalingFactorBi : ℕ
  slotsPerMs : ℕ
  raBackoffLimit : ℕ
  msgBChAcessCpext : UInt8
  msgBTpc : UInt8
  msgBHarqFti : UInt8
  pucchRi : UInt8
  timingAdvanceCommand : ℕ
  tCrnti : ℕ
  crnti : ℕ
  tagId : ℕ
  deriving DecidableEq, Repr

/-- What the parsers call, outside the RA state. -/
inductive DlMacEvent
  | rlcDataInd (lcid : UInt8) (sdu : List UInt8)
  | timeAlignment (ta : ℕ)
  | contentionResolution (contResId : List UInt8) (success : Bool)
  | rar (rar : List UInt8)
  | backoffSetting
  | raSucceeded
  | stopResponseWindow
  | resumeResponseWindow
  deriving DecidableEq, Repr

/-- `IS_SOFTMODEM_IQPLAYER`, and whether the UE can schedule Msg3 for a RAR without an assertion. -/
structure DlMacEnv where
  iqPlayer : Bool
  grantAsserts : List UInt8 → Bool

structure DlMacRun where
  ra : UeRaConfig
  events : List DlMacEvent
  deriving DecidableEq, Repr

/-- `table_7_2_1`. -/
def table721 : List ℕ :=
  [5, 10, 20, 30, 40, 60, 80, 120, 160, 240, 320, 480, 960, 1920, 0, 0]

namespace DlMacRun

def emit (run : DlMacRun) (event : DlMacEvent) : DlMacRun :=
  { run with events := run.events ++ [event] }

/-- A backoff indicator. -/
def backoffIndicator (run : DlMacRun) (octet : UInt8) : DlMacRun :=
  let biMs := table721.getD (octet.toNat % 16) 0 * run.ra.scalingFactorBi
  { run with ra := { run.ra with raBackoffLimit := biMs * run.ra.slotsPerMs } }

/-- `nr_ra_succeeded`. -/
def nrRaSucceeded (run : DlMacRun) : DlMacRun :=
  let ra := if run.ra.cfra then run.ra else { run.ra with crnti := run.ra.tCrnti, tCrnti := 0 }
  { run with ra := { ra with raActive := false, raState := .succeeded } }.emit .raSucceeded

/-- `nr_ra_contention_resolution_failed`. -/
def nrRaContentionResolutionFailed (run : DlMacRun) : DlMacRun :=
  { run with ra := { run.ra with tCrnti := 0 } }.emit .backoffSetting

end DlMacRun

/-- The loop of `check_ra_contention_resolution`, from byte `i` on. -/
def checkContRes (pdu : List UInt8) : List UInt8 → ℕ → Except MacPduFault Bool
  | [], _ => return true
  | octet :: contRes, i => do
    if (← pduOctet pdu i) ≠ octet then return false
    checkContRes pdu contRes (i + 1)

/-- `check_ra_contention_resolution`. -/
def checkRaContentionResolution (env : DlMacEnv) (pdu contRes : List UInt8) :
    Except MacPduFault Bool :=
  if env.iqPlayer then return true else checkContRes pdu contRes 0

/-! ## MsgB -/

/-- A successRAR behind its subheader. -/
def successRar (env : DlMacEnv) (pduP : List UInt8) (run : DlMacRun) :
    Except MacPduFault DlMacRun := do
  let contResId ← pduOctets pduP 1 6
  let octet7 ← pduOctet pduP 7
  let octet8 ← pduOctet pduP 8
  let octet9 ← pduOctet pduP 9
  let octet10 ← pduOctet pduP 10
  let octet11 ← pduOctet pduP 11
  let run := { run with ra := { run.ra with
    msgBChAcessCpext := octet7 >>> 5 &&& 0x3
    msgBTpc := octet7 >>> 3 &&& 3
    msgBHarqFti := octet7 &&& 0x7
    pucchRi := octet8 >>> 4 &&& 0x0F
    timingAdvanceCommand := octet8.toNat % 16 * 256 + octet9.toNat
    tCrnti := octet10.toNat * 256 + octet11.toNat } }
  let raSuccess ← checkRaContentionResolution env contResId run.ra.contResId.toList
  let run := run.emit (.contentionResolution contResId raSuccess)
  if run.ra.raActive ∧ raSuccess = true then return (run.emit .stopResponseWindow).nrRaSucceeded
  if raSuccess then return run
  return run.emit .backoffSetting

/-- The loop of `nr_ue_validate_successrar` : what is left behind it, and the run. -/
def successRarLoop (env : DlMacEnv) : ℕ → List UInt8 → DlMacRun →
    Except MacPduFault (List UInt8 × DlMacRun)
  | _, [], run => return ([], run)
  | 0, _ :: _, _ => throw .outOfFuel
  | n + 1, octet :: pduP, run =>
    if octet &&& 0x40 ≠ 0 then throw .assertFatal
    else if octet &&& 0x20 = 0 then
      let run := run.backoffIndicator octet
      if octet &&& 0x80 ≠ 0 then successRarLoop env n pduP run else return (pduP, run)
    else do
      let run ← successRar env (octet :: pduP) run
      let rest := (octet :: pduP).drop 12
      if octet &&& 0x80 ≠ 0 then successRarLoop env n rest run else return (rest, run)

/-- `nr_ue_validate_successrar`. The time alignment is taken from the second byte received, whatever
the subheaders say. -/
def nrUeValidateSuccessrar (env : DlMacEnv) (pduP left : List UInt8) (run : DlMacRun) :
    Except MacPduFault (List UInt8 × DlMacRun) := do
  let run := { run with ra := { run.ra with raBackoffLimit := 0 } }
  let (rest, run) ← successRarLoop env left.length left run
  let ta ← pduOctet pduP 1
  return (rest, run.emit (.timeAlignment (ta.toNat % 64)))

/-! ## DL-SCH -/

/-- An iteration goes on with the rest, or the loop ends. -/
inductive DlMacNext
  | next (rest : List UInt8)
  | done
  deriving DecidableEq, Repr

/-- The body of the loop of `nr_ue_process_mac_pdu`. -/
def dlMacSubPdu (env : DlMacEnv) (pduP : List UInt8) (run : DlMacRun) :
    Except MacPduFault (DlMacRun × DlMacNext) := do
  let first ← pduOctet pduP 0
  let rxLcid := first &&& 0x3F
  let lens := getMacLen pduP
  let skip (macSubheaderLen macLen : ℕ) : DlMacNext :=
    .next (pduP.drop (macSubheaderLen + macLen))
  let next := skip lens.macSubheaderLen lens.macLen
  match dlSchLcid rxLcid with
  | .ccch =>
    if lens.ok then
      if (pduP.take (lens.macSubheaderLen + lens.macLen)).all (· == 0) then
        return (run, .done)
      if lens.macLen = 0 then return (run, next)
      let sdu ← pduOctets pduP lens.macSubheaderLen lens.macLen
      return (run.emit (.rlcDataInd rxLcid sdu), next)
    else throw .assertFatal
  | .tciStateActUeSpecPdsch | .aperiodicCsiTriStateSubsel | .spCsiRsCsiImResSetAct
  | .spSrsActivation => return (run, next)
  | .recommendedBitrate | .spZpCsiRsResSetAct | .spCsiRepPucchAct | .tciStateIndUeSpecPdcch =>
    return (run, skip 1 2)
  | .pucchSpatialRelationAct => return (run, skip 1 3)
  | .duplicationAct | .scellAct1Oct => return (run, skip 1 1)
  | .scellAct4Oct => return (run, skip 1 4)
  | .lDrx | .drx => return (run, skip 1 0)
  | .taCommand =>
    let octet ← pduOctet pduP 1
    if octet.toNat / 64 ≠ run.ra.tagId then return (run, .done)
    return (run.emit (.timeAlignment (octet.toNat % 64)), skip 1 1)
  | .conResId =>
    if run.ra.raState = .waitContentionResolution then
      let raSuccess ← checkRaContentionResolution env (pduP.drop 1) run.ra.contResId.toList
      let run := run.emit (.contentionResolution ((pduP.drop 1).take 6) raSuccess)
      if run.ra.raActive ∧ raSuccess = true then return (run.nrRaSucceeded, skip 1 6)
      if raSuccess then return (run, skip 1 6)
      return (run.nrRaContentionResolutionFailed, .done)
    else return (run, skip 1 6)
  | .padding => return (run, .done)
  | .logicalChannel =>
    if lens.ok then
      let sdu ← pduOctets pduP lens.macSubheaderLen lens.macLen
      return (run.emit (.rlcDataInd rxLcid sdu), next)
    else return (run, .done)
  | .unknown => return (run, skip 1 0)

def dlMacLoop (env : DlMacEnv) : ℕ → List UInt8 → DlMacRun → Except MacPduFault DlMacRun
  | _, [], run => return run
  | 0, _ :: _, _ => throw .outOfFuel
  | n + 1, octet :: pduP, run => do
    match ← dlMacSubPdu env (octet :: pduP) run with
    | (run, .next rest) => dlMacLoop env n rest run
    | (run, .done) => return run

/-- What `pdu_len` leaves to parse : it is an `int32_t`, and negative for what is longer. -/
def dlLeft (pduP : List UInt8) : List UInt8 :=
  if pduP.length < 2 ^ 31 then pduP else []

/-- `nr_ue_process_mac_pdu`. -/
def nrUeProcessMacPdu (env : DlMacEnv) (ra : UeRaConfig) (pduP : List UInt8) :
    Except MacPduFault DlMacRun := do
  if ra.twoStep ∧ ra.raState = .waitMsgB then
    let (rest, run) ← nrUeValidateSuccessrar env pduP (dlLeft pduP) ⟨ra, []⟩
    dlMacLoop env rest.length rest run
  else dlMacLoop env (dlLeft pduP).length (dlLeft pduP) ⟨ra, []⟩

/-! ## RAR -/

/-- Where the RAR of the current subheader is : the counters are `uint8_t`. -/
def rarOffset (nSubheaders nSubPdus : UInt8) : Int :=
  nSubheaders.toNat + (nSubPdus.toNat - 1 : Int) * 7

/-- The `NR_MAC_RAR` at an offset of the buffer. -/
def rarAt (dlschBuffer : List UInt8) (offset : Int) : Except MacPduFault (List UInt8) :=
  if 0 ≤ offset then pduOctets dlschBuffer offset.toNat 7 else .error .outside

/-- The loop of `nr_ue_process_rar`, from the subheader at the start of `rarh` on. -/
def rarLoop (env : DlMacEnv) (dlschBuffer : List UInt8) : ℕ → List UInt8 → UInt8 → UInt8 →
    DlMacRun → Except MacPduFault DlMacRun
  | 0, _, _, _, _ => throw .outOfFuel
  | n + 1, rarh, nSubheaders, nSubPdus, run => do
    let octet ← pduOctet rarh 0
    let nSubheaders := nSubheaders + 1
    if octet &&& 0x40 = 0 then
      let run := run.backoffIndicator octet
      if octet &&& 0x80 ≠ 0 then rarLoop env dlschBuffer n (rarh.drop 1) nSubheaders nSubPdus run
      else return run
    else
      let nSubPdus := nSubPdus + 1
      if octet &&& 0x3F = run.ra.raPreambleIndex then
        let run := run.emit .stopResponseWindow
        let rar ← rarAt dlschBuffer (rarOffset nSubheaders nSubPdus)
        if env.grantAsserts rar then throw .assertFatal
        let run := run.emit (.rar rar)
        if run.ra.cfra then return run.nrRaSucceeded else return run
      else if octet &&& 0x80 = 0 then return run.emit .resumeResponseWindow
      else rarLoop env dlschBuffer n (rarh.drop 8) nSubheaders nSubPdus run

/-- `nr_ue_process_rar` of what was received with its CRC, or not. -/
def nrUeProcessRar (env : DlMacEnv) (ra : UeRaConfig) (ackNack : Bool)
    (dlschBuffer : List UInt8) : Except MacPduFault DlMacRun :=
  if ackNack then
    rarLoop env dlschBuffer (dlschBuffer.length + 1) dlschBuffer 0 0
      ⟨{ ra with tCrnti := 0, raBackoffLimit := 0 }, []⟩
  else return ⟨ra, []⟩

end NrStack
