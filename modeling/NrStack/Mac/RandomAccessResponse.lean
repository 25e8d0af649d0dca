import NrStack.Library.BitFields
import NrStack.Mac.DlMacPduRun
import NrStack.Mac.Riv

/-!
# The random access response

What `nr_fill_rar` and `nr_fill_successrar` write, and what the UE takes from it. The UE finds the
fields where the gNB put them, with two exceptions (`randomAccessRoundTrips_iff`). It takes the time
alignment of a success RAR from the octet of the subheader, so it is always 32. And in a wide BWP it
takes fewer bits of the frequency allocation than there are.
-/

namespace NrStack

/-! ## Formats -/

/-- `NR_RA_HEADER_RAPID` -/
structure NrRaHeaderRapid where
  rapid : BitVec 6
  t : BitVec 1
  e : BitVec 1

/-- `NR_RA_HEADER_BI` -/
structure NrRaHeaderBi where
  bi : BitVec 4
  r : BitVec 2
  t : BitVec 1
  e : BitVec 1

/-- `NR_RA_HEADER_BI_MSGB` -/
structure NrRaHeaderBiMsgb where
  bi : BitVec 4
  r : BitVec 1
  t2 : BitVec 1
  t1 : BitVec 1
  e : BitVec 1

/-- `NR_RA_HEADER_SUCCESS_RAR_MSGB` -/
structure NrRaHeaderSuccessRarMsgb where
  r : BitVec 4
  s : BitVec 1
  t2 : BitVec 1
  t1 : BitVec 1
  e : BitVec 1

/-- `NR_MAC_RAR` -/
structure NrMacRar where
  ta1 : BitVec 7
  r : BitVec 1
  ulGrant1 : BitVec 3
  ta2 : BitVec 5
  ulGrant2 : BitVec 8
  ulGrant3 : BitVec 8
  ulGrant4 : BitVec 8
  tcrnti1 : BitVec 8
  tcrnti2 : BitVec 8

/-- `NR_MAC_SUCCESS_RAR` -/
structure NrMacSuccessRar where
  contRes : Fin 6 → BitVec 8
  harqFti : BitVec 3
  tpc : BitVec 2
  chAcessCpext : BitVec 2
  r : BitVec 1
  ta1 : BitVec 4
  pucchRi : BitVec 4
  ta2 : BitVec 8
  crnti1 : BitVec 8
  crnti2 : BitVec 8

def NrRaHeaderRapid.octet (h : NrRaHeaderRapid) : UInt8 :=
  fieldsOctet [⟨6, h.rapid⟩, ⟨1, h.t⟩, ⟨1, h.e⟩]

def NrRaHeaderBi.octet (h : NrRaHeaderBi) : UInt8 :=
  fieldsOctet [⟨4, h.bi⟩, ⟨2, h.r⟩, ⟨1, h.t⟩, ⟨1, h.e⟩]

def NrRaHeaderBiMsgb.octet (h : NrRaHeaderBiMsgb) : UInt8 :=
  fieldsOctet [⟨4, h.bi⟩, ⟨1, h.r⟩, ⟨1, h.t2⟩, ⟨1, h.t1⟩, ⟨1, h.e⟩]

def NrRaHeaderSuccessRarMsgb.octet (h : NrRaHeaderSuccessRarMsgb) : UInt8 :=
  fieldsOctet [⟨4, h.r⟩, ⟨1, h.s⟩, ⟨1, h.t2⟩, ⟨1, h.t1⟩, ⟨1, h.e⟩]

def NrMacRar.octets (rar : NrMacRar) : List UInt8 :=
  [fieldsOctet [⟨7, rar.ta1⟩, ⟨1, rar.r⟩], fieldsOctet [⟨3, rar.ulGrant1⟩, ⟨5, rar.ta2⟩],
    fieldsOctet [⟨8, rar.ulGrant2⟩], fieldsOctet [⟨8, rar.ulGrant3⟩],
    fieldsOctet [⟨8, rar.ulGrant4⟩], fieldsOctet [⟨8, rar.tcrnti1⟩], fieldsOctet [⟨8, rar.tcrnti2⟩]]

/-- The structure at a pointer. -/
def NrMacRar.ofOctets : List UInt8 → Option NrMacRar
  | o1 :: o2 :: o3 :: o4 :: o5 :: o6 :: o7 :: _ =>
    some {
      ta1 := readField 0 7 o1.toNat
      r := readField 7 1 o1.toNat
      ulGrant1 := readField 0 3 o2.toNat
      ta2 := readField 3 5 o2.toNat
      ulGrant2 := readField 0 8 o3.toNat
      ulGrant3 := readField 0 8 o4.toNat
      ulGrant4 := readField 0 8 o5.toNat
      tcrnti1 := readField 0 8 o6.toNat
      tcrnti2 := readField 0 8 o7.toNat }
  | _ => none

def NrMacSuccessRar.octets (rar : NrMacSuccessRar) : List UInt8 :=
  List.ofFn (fun i => fieldsOctet [⟨8, rar.contRes i⟩]) ++
    [fieldsOctet [⟨3, rar.harqFti⟩, ⟨2, rar.tpc⟩, ⟨2, rar.chAcessCpext⟩, ⟨1, rar.r⟩],
      fieldsOctet [⟨4, rar.ta1⟩, ⟨4, rar.pucchRi⟩], fieldsOctet [⟨8, rar.ta2⟩],
      fieldsOctet [⟨8, rar.crnti1⟩], fieldsOctet [⟨8, rar.crnti2⟩]]

/-! ## The gNB -/

/-- What `nr_fill_rar` reads of the RA process, the UE and the PUSCH PDU, within the widths of the
fields. The resource blocks of Msg3 are in the BWP, and there is no frequency hopping, which the gNB
does not support. -/
structure GnbRa where
  preambleIndex : Fin (2 ^ 6)
  timingOffset : Fin (2 ^ 12)
  rnti : UInt16
  msg3Tpc : Fin (2 ^ 3)
  msg3TdaId : Fin (2 ^ 4)
  mcsIndex : Fin (2 ^ 4)
  frequencyHopping : ℕ
  frequencyHopping_eq : frequencyHopping = 0
  bwpSize : ℕ
  bwpSize_le : bwpSize ≤ 275
  msg3FirstRb : ℤ
  msg3NbRb : ℤ
  isPrbAlloc : IsPrbAlloc bwpSize msg3FirstRb msg3NbRb

/-- `ul_grant`, for the bits of the frequency allocation. -/
def GnbRa.ulGrant (ra : GnbRa) (fAlloc : ℕ) : ℕ :=
  let csiReq := 0
  csiReq ||| (ra.msg3Tpc : ℕ) <<< 1 ||| (ra.mcsIndex : ℕ) <<< 4 ||| (ra.msg3TdaId : ℕ) <<< 8 |||
    fAlloc <<< 12 ||| ra.frequencyHopping <<< 26

/-- The RAR that `nr_fill_rar` writes. -/
def GnbRa.macRar (ra : GnbRa) (fAlloc : ℕ) : NrMacRar :=
  let timingOffset : ℕ := ra.timingOffset
  let rnti := ra.rnti.toNat
  let ulGrant := ra.ulGrant fAlloc
  { r := 0
    ta1 := BitVec.ofNat 7 (timingOffset >>> 5)
    ta2 := BitVec.ofNat 5 (timingOffset &&& 0x1f)
    tcrnti1 := BitVec.ofNat 8 (rnti >>> 8)
    tcrnti2 := BitVec.ofNat 8 (rnti &&& 0xff)
    ulGrant1 := BitVec.ofNat 3 (ulGrant >>> 24 &&& 0x07)
    ulGrant2 := BitVec.ofNat 8 (ulGrant >>> 16 &&& 0xff)
    ulGrant3 := BitVec.ofNat 8 (ulGrant >>> 8 &&& 0xff)
    ulGrant4 := BitVec.ofNat 8 (ulGrant &&& 0xff) }

/-- `nr_fill_rar`, into the buffer : two subheaders and the RAR. -/
def nrFillRar (ra : GnbRa) (dlschBuffer : List UInt8) : Option (List UInt8) := do
  let rarbi : NrRaHeaderBi := { e := 1, t := 0, r := 0, bi := 0 }
  let rarh : NrRaHeaderRapid := { e := 0, t := 1, rapid := BitVec.ofNat 6 ra.preambleIndex }
  if ra.frequencyHopping ≠ 0 then none
  let prbAlloc ← prbAllocToLocationAndBandwidth0 ra.msg3NbRb ra.msg3FirstRb ra.bwpSize
  let validBits := 14
  let fAlloc := prbAlloc.toNat &&& (1 <<< validBits - 1)
  some (rarbi.octet :: rarh.octet :: (ra.macRar fAlloc).octets ++ dlschBuffer.drop 9)

/-- What `nr_fill_successrar` reads, within the widths of the fields. -/
structure GnbMsgB where
  taUpdate : Fin (2 ^ 12)
  tpc0 : Fin (2 ^ 2)
  crnti : UInt16
  ueContResId : Fin 6 → UInt8
  resourceIndicator : Fin (2 ^ 4)
  timingIndicator : Fin (2 ^ 3)

/-- `nr_fill_successrar` : the MAC PDU, and its length. -/
def nrFillSuccessrar (ue : GnbMsgB) (macPdu : List UInt8) (macPduLength : ℕ) : List UInt8 × ℕ :=
  let timingAdvanceCmd : ℕ := ue.taUpdate
  let bi : NrRaHeaderBiMsgb := { e := 1, t1 := 0, t2 := 0, r := 0, bi := 0 }
  let header : NrRaHeaderSuccessRarMsgb := { e := 0, t1 := 0, t2 := 1, s := 0, r := 0 }
  let successRar : NrMacSuccessRar := {
    contRes := fun i => (ue.ueContResId i).toBitVec
    r := 0
    chAcessCpext := 1
    tpc := BitVec.ofNat 2 ue.tpc0
    harqFti := BitVec.ofNat 3 ue.timingIndicator
    pucchRi := BitVec.ofNat 4 ue.resourceIndicator
    ta1 := BitVec.ofNat 4 (timingAdvanceCmd >>> 8)
    ta2 := BitVec.ofNat 8 (timingAdvanceCmd &&& 0xff)
    crnti1 := BitVec.ofNat 8 (ue.crnti.toNat >>> 8)
    crnti2 := BitVec.ofNat 8 (ue.crnti.toNat &&& 0xff) }
  (macPdu.take macPduLength ++ bi.octet :: header.octet :: successRar.octets ++
    macPdu.drop (macPduLength + 13), macPduLength + 13)

/-! ## The UE -/

/-- `ta_type_t` -/
inductive TaType
  | noTa
  | adjustmentTa
  | rarTa
  deriving DecidableEq, Repr

/-- `NR_UL_TIME_ALIGNMENT_t` -/
structure NrUlTimeAlignment where
  taCommand : ℕ
  taApply : TaType
  frame : ℕ
  slot : ℕ
  deriving DecidableEq, Repr

/-- `RAR_grant_t` -/
structure RarGrant where
  freqHopping : ℕ
  mcs : ℕ
  msg3TAlloc : ℕ
  msg3FAlloc : ℕ
  deriving DecidableEq, Repr

/-- What the UE has when a RAR comes. `get_ul_tda_info` finds `k2` of a time allocation, or it is
not valid, and `nr_ue_pusch_scheduler` finds the frame and the slot of Msg3. -/
structure RarUe where
  cfra : Bool
  crnti : ℕ
  timeAlignmentTimerActive : Bool
  ulTdaInfo : ℕ → Option ℕ
  nrUePuschScheduler : ℕ → ℕ × ℕ
  ntnUeKoffset : ℕ
  numbSlotsFrame : ℕ
  initialUlBwpSize : ℕ

namespace RarUe

variable (ue : RarUe)

/-- `set_time_alignment` -/
def setTimeAlignment (ta : ℕ) (type : TaType) (frame slot : ℕ) : NrUlTimeAlignment :=
  { taCommand := ta
    taApply := type
    frame := (frame + (slot + ue.ntnUeKoffset) / ue.numbSlotsFrame) % 1024
    slot := (slot + ue.ntnUeKoffset) % ue.numbSlotsFrame }

/-- The bits of the frequency allocation that `nr_config_pusch_pdu` takes for Msg3. -/
def msg3FreqBits (ibwpSize : ℕ) : ℕ :=
  if ibwpSize < 180 then Nat.clog 2 (ibwpSize * (ibwpSize + 1) / 2)
  else 28 - Nat.clog 2 (ibwpSize * (ibwpSize + 1) / 2)

/-- The resource blocks of Msg3 in `nr_config_pusch_pdu`, the first one and how many
(`nr_ue_process_dci_freq_dom_resource_assignment`), unless they are refused. -/
def msg3ResourceBlocks (rarGrant : RarGrant) : Option (ℤ × ℤ) :=
  let ibwpSize := ue.initialUlBwpSize
  let mask := 1 <<< msg3FreqBits ibwpSize - 1
  let riv : ℤ := (rarGrant.msg3FAlloc &&& mask : ℕ)
  let rbSize := nrriv2Bw riv ibwpSize
  let rbStart := nrriv2PrbOffset riv ibwpSize
  if rbSize < 1 ∨ rbSize > ibwpSize - rbStart then none else some (rbStart, rbSize)

end RarUe

/-- What the UE does for Msg3 : the RNTI of the PUSCH, what is stored in `t_crnti` and what is set
as the time alignment, if so, and the resource blocks. -/
structure Msg3 where
  rarGrant : RarGrant
  timeAlignment : Option NrUlTimeAlignment
  tCrnti : Option ℕ
  rnti : ℕ
  resourceBlocks : Option (ℤ × ℤ)
  deriving DecidableEq, Repr

/-- What the UE takes from a RAR. Without a valid time allocation there is no Msg3. -/
structure RarReception where
  msg3Tpc : ℤ
  msg3 : Option Msg3
  deriving DecidableEq, Repr

/-- `handle_rar_reception`. `nr_ue_pusch_scheduler` returns 0 for Msg3. -/
def handleRarReception (ue : RarUe) (rar : NrMacRar) : RarReception :=
  let tpcCommand := rar.ulGrant4.toNat >>> 1 &&& 0x07
  let msg3Tpc : ℤ := (tpcCommand <<< 1 : ℕ) - 6
  let rarGrant : RarGrant := {
    mcs := rar.ulGrant4.toNat >>> 4
    msg3TAlloc := rar.ulGrant3.toNat &&& 0x0f
    msg3FAlloc := rar.ulGrant3.toNat >>> 4 ||| rar.ulGrant2.toNat <<< 4 |||
      (rar.ulGrant1.toNat &&& 0x03) <<< 12
    freqHopping := rar.ulGrant1.toNat >>> 2 }
  match ue.ulTdaInfo rarGrant.msg3TAlloc with
  | none => ⟨msg3Tpc, none⟩
  | some k2 =>
    let (frameTx, slotTx) := ue.nrUePuschScheduler (k2 + ue.ntnUeKoffset)
    let ta := rar.ta2.toNat + rar.ta1.toNat <<< 5
    let tCrnti := rar.tcrnti2.toNat + rar.tcrnti1.toNat <<< 8
    ⟨msg3Tpc, some {
      rarGrant
      timeAlignment := if ue.timeAlignmentTimerActive then none
        else some (ue.setTimeAlignment ta .rarTa frameTx slotTx)
      tCrnti := if ue.cfra then none else some tCrnti
      rnti := if ue.cfra then ue.crnti else tCrnti
      resourceBlocks := ue.msg3ResourceBlocks rarGrant }⟩

/-! ## What is asked for -/

/-- What the gNB gave, as the UE has to find it. The time advance is ignored while the timer runs.
-/
structure Recovers (ra : GnbRa) (ue : RarUe) (rx : RarReception) : Prop where
  tpc : rx.msg3Tpc = 2 * (ra.msg3Tpc : ℕ) - 6
  msg3 : ∃ msg3, rx.msg3 = some msg3 ∧ msg3.rarGrant.freqHopping = 0 ∧
    msg3.rarGrant.mcs = ra.mcsIndex ∧ msg3.rarGrant.msg3TAlloc = ra.msg3TdaId ∧
    msg3.resourceBlocks = some (ra.msg3FirstRb, ra.msg3NbRb) ∧
    (ue.cfra = false → msg3.tCrnti = some ra.rnti.toNat ∧ msg3.rnti = ra.rnti.toNat) ∧
    (ue.timeAlignmentTimerActive = false → ∃ ta, msg3.timeAlignment = some ta ∧
      ta.taCommand = ra.timingOffset ∧ ta.taApply = .rarTa)

/-- The UE with the preamble takes from the RAR what the gNB gave, and another UE takes nothing. -/
def RarRoundTrips (ra : GnbRa) : Prop :=
  ∀ dlschBuffer, ∃ pdu, nrFillRar ra dlschBuffer = some pdu ∧
    ∀ (env : DlMacEnv) (ueRa : UeRaConfig), (∀ rar, env.grantAsserts rar = false) →
      ∃ run, nrUeProcessRar env ueRa true pdu = .ok run ∧
        (ueRa.raPreambleIndex.toNat ≠ ra.preambleIndex → ∀ rar, .rar rar ∉ run.events) ∧
        (ueRa.raPreambleIndex.toNat = ra.preambleIndex → ∃ octets rar,
          .rar octets ∈ run.events ∧ NrMacRar.ofOctets octets = some rar ∧
          ∀ (ue : RarUe) (k2 : ℕ), ue.initialUlBwpSize = ra.bwpSize →
            ue.ulTdaInfo ra.msg3TdaId = some k2 → Recovers ra ue (handleRarReception ue rar))

/-- The UE takes from the success RAR what the gNB gave, and sets the time advance. -/
def SuccessRarRoundTrips (msgB : GnbMsgB) : Prop :=
  ∀ (macPdu : List UInt8) (env : DlMacEnv) (ueRa : UeRaConfig), ∃ rest run,
    nrUeValidateSuccessrar env (nrFillSuccessrar msgB macPdu 0).1 (nrFillSuccessrar msgB macPdu 0).1
      ⟨ueRa, []⟩ = .ok (rest, run) ∧
    rest = (nrFillSuccessrar msgB macPdu 0).1.drop (nrFillSuccessrar msgB macPdu 0).2 ∧
    run.ra.msgBTpc.toNat = msgB.tpc0 ∧ run.ra.msgBHarqFti.toNat = msgB.timingIndicator ∧
    run.ra.pucchRi.toNat = msgB.resourceIndicator ∧
    run.ra.timingAdvanceCommand = msgB.taUpdate ∧
    (∃ success, .contentionResolution (List.ofFn msgB.ueContResId) success ∈ run.events ∧
      (success = true ↔ env.iqPlayer = true ∨ ueRa.contResId.toList = List.ofFn msgB.ueContResId) ∧
      (if ueRa.raActive = true ∧ success = true ∧ ueRa.cfra = false then run.ra.crnti
        else run.ra.tCrnti) = msgB.crnti.toNat) ∧
    (∃ ta, .timeAlignment ta ∈ run.events) ∧
    ∀ ta : ℕ, .timeAlignment ta ∈ run.events → ta = msgB.taUpdate

/-- Both messages. -/
def RandomAccessRoundTrips (ra : GnbRa) (msgB : GnbMsgB) : Prop :=
  RarRoundTrips ra ∧ SuccessRarRoundTrips msgB

/-! ## Msg2 -/

@[simp] theorem NrMacRar.ofOctets_octets (rar : NrMacRar) :
    NrMacRar.ofOctets rar.octets = some rar := by
  simp [NrMacRar.octets, NrMacRar.ofOctets, toNat_fieldsOctet, fieldsWidth, readField_of_le]

section Masks

variable (x : ℕ)

theorem and_three : x &&& 3 = x % 4 := Nat.and_two_pow_sub_one_eq_mod x 2

theorem and_seven : x &&& 7 = x % 8 := Nat.and_two_pow_sub_one_eq_mod x 3

theorem and_fifteen : x &&& 15 = x % 16 := Nat.and_two_pow_sub_one_eq_mod x 4

theorem and_thirtyOne : x &&& 31 = x % 32 := Nat.and_two_pow_sub_one_eq_mod x 5

theorem and_byte : x &&& 255 = x % 256 := Nat.and_two_pow_sub_one_eq_mod x 8

end Masks

theorem GnbRa.ulGrant_eq (ra : GnbRa) (fAlloc : ℕ) :
    ra.ulGrant fAlloc =
      2 * (ra.msg3Tpc : ℕ) + 16 * (ra.mcsIndex : ℕ) + 256 * (ra.msg3TdaId : ℕ) + 4096 * fAlloc := by
  obtain ⟨htpc, hmcs, htda⟩ :=
    And.intro ra.msg3Tpc.isLt (And.intro ra.mcsIndex.isLt ra.msg3TdaId.isLt)
  -- from the inside, each part is below the next
  have hlow : (ra.msg3Tpc : ℕ) <<< 1 ||| (ra.mcsIndex : ℕ) <<< 4 =
      2 * (ra.msg3Tpc : ℕ) + 16 * (ra.mcsIndex : ℕ) := by
    rw [Nat.shiftLeft_eq, or_shiftLeft_of_lt _ (by omega)]
    omega
  have hmid := or_shiftLeft_of_lt (i := 8) (ra.msg3TdaId : ℕ)
    (show 2 * (ra.msg3Tpc : ℕ) + 16 * (ra.mcsIndex : ℕ) < 2 ^ 8 by omega)
  have hhigh := or_shiftLeft_of_lt (i := 12) fAlloc (show 2 * (ra.msg3Tpc : ℕ) +
    16 * (ra.mcsIndex : ℕ) + (ra.msg3TdaId : ℕ) * 2 ^ 8 < 2 ^ 12 by omega)
  rw [ulGrant, ra.frequencyHopping_eq, Nat.zero_shiftLeft, Nat.or_zero, Nat.zero_or, hlow, hmid,
    hhigh]
  omega

/-- The frequency allocation is put together again. -/
theorem fAlloc_eq {low mid high : ℕ} (hlow : low < 16) (hmid : mid < 256) :
    low ||| mid <<< 4 ||| high <<< 12 = low + 16 * mid + 4096 * high := by
  rw [or_shiftLeft_of_lt mid hlow, or_shiftLeft_of_lt high (by omega)]
  omega

/-- The parts of the grant that the UE reads. -/
theorem rarGrant_macRar {ra : GnbRa} {fAlloc : ℕ} (hf : fAlloc < 2 ^ 14) {ue : RarUe} {k2 : ℕ}
    (hk2 : ue.ulTdaInfo ra.msg3TdaId = some k2) :
    ∃ msg3, handleRarReception ue (ra.macRar fAlloc) = ⟨2 * (ra.msg3Tpc : ℕ) - 6, some msg3⟩ ∧
      msg3.rarGrant = ⟨0, ra.mcsIndex, ra.msg3TdaId, fAlloc⟩ ∧
      msg3.resourceBlocks = ue.msg3ResourceBlocks msg3.rarGrant ∧
      msg3.tCrnti = (if ue.cfra then none else some ra.rnti.toNat) ∧
      msg3.rnti = (if ue.cfra then ue.crnti else ra.rnti.toNat) ∧
      (ue.timeAlignmentTimerActive = false → ∃ ta, msg3.timeAlignment = some ta ∧
        ta.taCommand = ra.timingOffset ∧ ta.taApply = .rarTa) := by
  obtain ⟨htpc, hmcs, htda⟩ :=
    And.intro ra.msg3Tpc.isLt (And.intro ra.mcsIndex.isLt ra.msg3TdaId.isLt)
  have hrnti := ra.rnti.toNat_lt
  have hta := ra.timingOffset.isLt
  have hgrant := ra.ulGrant_eq fAlloc
  have hrar4 : (ra.macRar fAlloc).ulGrant4.toNat =
      2 * (ra.msg3Tpc : ℕ) + 16 * (ra.mcsIndex : ℕ) := by
    simp only [GnbRa.macRar, hgrant, BitVec.toNat_ofNat, and_byte]
    omega
  have hrar3 : (ra.macRar fAlloc).ulGrant3.toNat = (ra.msg3TdaId : ℕ) + 16 * (fAlloc % 16) := by
    simp only [GnbRa.macRar, hgrant, BitVec.toNat_ofNat, and_byte, Nat.shiftRight_eq_div_pow]
    omega
  have hrar2 : (ra.macRar fAlloc).ulGrant2.toNat = fAlloc / 16 % 256 := by
    simp only [GnbRa.macRar, hgrant, BitVec.toNat_ofNat, and_byte, Nat.shiftRight_eq_div_pow]
    omega
  have hrar1 : (ra.macRar fAlloc).ulGrant1.toNat = fAlloc / 4096 := by
    simp only [GnbRa.macRar, hgrant, BitVec.toNat_ofNat, and_seven, Nat.shiftRight_eq_div_pow]
    omega
  have htpc' : ((ra.macRar fAlloc).ulGrant4.toNat >>> 1 &&& 0x07) <<< 1 = 2 * (ra.msg3Tpc : ℕ) := by
    rw [hrar4, and_seven, Nat.shiftRight_eq_div_pow, Nat.shiftLeft_eq]
    omega
  have hmcs' : (ra.macRar fAlloc).ulGrant4.toNat >>> 4 = ra.mcsIndex := by
    rw [hrar4, Nat.shiftRight_eq_div_pow]
    omega
  have htda' : (ra.macRar fAlloc).ulGrant3.toNat &&& 0x0f = ra.msg3TdaId := by
    rw [hrar3, and_fifteen]
    omega
  have hf' : (ra.macRar fAlloc).ulGrant3.toNat >>> 4 ||| (ra.macRar fAlloc).ulGrant2.toNat <<< 4 |||
      ((ra.macRar fAlloc).ulGrant1.toNat &&& 0x03) <<< 12 = fAlloc := by
    rw [hrar3, hrar2, hrar1, and_three, Nat.shiftRight_eq_div_pow, fAlloc_eq (by omega) (by omega)]
    omega
  have hhopping : (ra.macRar fAlloc).ulGrant1.toNat >>> 2 = 0 := by
    rw [hrar1, Nat.shiftRight_eq_div_pow]
    omega
  have hta' : (ra.macRar fAlloc).ta2.toNat + (ra.macRar fAlloc).ta1.toNat <<< 5 =
      ra.timingOffset := by
    simp only [GnbRa.macRar, BitVec.toNat_ofNat, and_thirtyOne, Nat.shiftRight_eq_div_pow,
      Nat.shiftLeft_eq]
    omega
  have hrnti' : (ra.macRar fAlloc).tcrnti2.toNat + (ra.macRar fAlloc).tcrnti1.toNat <<< 8 =
      ra.rnti.toNat := by
    simp only [GnbRa.macRar, BitVec.toNat_ofNat, and_byte, Nat.shiftRight_eq_div_pow,
      Nat.shiftLeft_eq]
    omega
  simp only [handleRarReception, htpc', hmcs', htda', hf', hhopping, hta', hrnti', hk2]
  refine ⟨_, rfl, rfl, rfl, rfl, rfl, fun htimer => ?_⟩
  exact ⟨_, if_neg (by simp [htimer]), rfl, rfl⟩

/-! ## The resource blocks of Msg3 -/

/-- `PRBalloc_to_locationandbandwidth0` of the allocation. -/
def GnbRa.prbAlloc (ra : GnbRa) : Option ℤ :=
  prbAllocToLocationAndBandwidth0 ra.msg3NbRb ra.msg3FirstRb ra.bwpSize

/-- In a BWP of 180 resource blocks or more, the value for the allocation is below what the UE
takes. -/
def GnbRa.Msg3Fits (ra : GnbRa) : Prop :=
  180 ≤ ra.bwpSize → ∀ riv ∈ ra.prbAlloc,
    riv < 2 ^ (28 - Nat.clog 2 (ra.bwpSize * (ra.bwpSize + 1) / 2))

theorem GnbRa.exists_prbAlloc (ra : GnbRa) : ∃ riv : ℕ, ra.prbAlloc = some (riv : ℤ) ∧
    IsRiv ra.bwpSize riv ∧ nrriv2Bw riv ra.bwpSize = ra.msg3NbRb ∧
    nrriv2PrbOffset riv ra.bwpSize = ra.msg3FirstRb := by
  obtain ⟨riv, hriv, hbw, hoffset⟩ := decode_encode_riv ra.isPrbAlloc
  have his := isRiv_encode ra.isPrbAlloc hriv
  lift riv to ℕ using his.1
  exact ⟨riv, hriv, his, hbw, hoffset⟩

theorem triangle_le {n m : ℕ} (h : n ≤ m) : n * (n + 1) / 2 ≤ m * (m + 1) / 2 :=
  Nat.div_le_div_right (Nat.mul_le_mul h (by omega))

/-- The UE takes no more bits than there are. -/
theorem msg3FreqBits_le (ibwpSize : ℕ) : RarUe.msg3FreqBits ibwpSize ≤ 14 := by
  unfold RarUe.msg3FreqBits
  split
  · next hlt =>
    exact Nat.clog_le_of_le_pow ((triangle_le (show ibwpSize ≤ 179 by omega)).trans (by decide))
  · next hge =>
    have hbelow : 13 < Nat.clog 2 (ibwpSize * (ibwpSize + 1) / 2) :=
      (Nat.lt_clog_iff_pow_lt (by omega)).mpr
        (lt_of_lt_of_le (by decide) (triangle_le (show 180 ≤ ibwpSize by omega)))
    omega

/-- In a small BWP the UE takes all bits. -/
theorem GnbRa.msg3Fits_iff {ra : GnbRa} {riv : ℕ} (hriv : ra.prbAlloc = some (riv : ℤ))
    (his : IsRiv ra.bwpSize riv) :
    ra.Msg3Fits ↔ riv < 2 ^ RarUe.msg3FreqBits ra.bwpSize := by
  unfold Msg3Fits RarUe.msg3FreqBits
  simp only [hriv, Option.mem_some_iff, forall_eq']
  split
  · next hlt =>
    have hlt' : riv < ra.bwpSize * (ra.bwpSize + 1) / 2 := by
      exact_mod_cast his.2
    exact iff_of_true (fun hge => by omega) (hlt'.trans_le (Nat.le_pow_clog (by omega) _))
  · next hge =>
    rw [forall_prop_of_true (by omega)]
    exact_mod_cast Iff.rfl

/-- The UE finds the resource blocks if and only if it takes all bits of the value. -/
theorem msg3ResourceBlocks_iff {ra : GnbRa} {riv : ℕ} (hriv : ra.prbAlloc = some (riv : ℤ))
    (his : IsRiv ra.bwpSize riv) (hbw : nrriv2Bw riv ra.bwpSize = ra.msg3NbRb)
    (hoffset : nrriv2PrbOffset riv ra.bwpSize = ra.msg3FirstRb) {ue : RarUe}
    (hue : ue.initialUlBwpSize = ra.bwpSize) {grant : RarGrant}
    (hgrant : grant.msg3FAlloc = riv % 2 ^ 14) :
    ue.msg3ResourceBlocks grant = some (ra.msg3FirstRb, ra.msg3NbRb) ↔ ra.Msg3Fits := by
  rw [GnbRa.msg3Fits_iff hriv his]
  obtain ⟨hstart, hlength, hend⟩ := ra.isPrbAlloc
  have hmask : grant.msg3FAlloc &&& (1 <<< RarUe.msg3FreqBits ra.bwpSize - 1) =
      riv % 2 ^ RarUe.msg3FreqBits ra.bwpSize := by
    rw [hgrant, Nat.one_shiftLeft, Nat.and_two_pow_sub_one_eq_mod,
      Nat.mod_mod_of_dvd _ (pow_dvd_pow 2 (msg3FreqBits_le ra.bwpSize))]
  simp only [RarUe.msg3ResourceBlocks, hue, hmask]
  constructor
  · intro hblocks
    have hcut : IsRiv ra.bwpSize (riv % 2 ^ RarUe.msg3FreqBits ra.bwpSize : ℕ) := by
      have hle := Nat.mod_le riv (2 ^ RarUe.msg3FreqBits ra.bwpSize)
      exact ⟨by omega, lt_of_le_of_lt (by exact_mod_cast hle) his.2⟩
    split_ifs at hblocks with hrefused
    simp only [Option.some.injEq, Prod.mk.injEq] at hblocks
    -- the value that is cut encodes the same blocks, so it is not cut
    have hencode := (encode_decode_riv (show (1 : ℤ) ≤ ra.bwpSize by omega) hcut).2
    rw [hblocks.1, hblocks.2] at hencode
    have heq : (riv % 2 ^ RarUe.msg3FreqBits ra.bwpSize : ℕ) = (riv : ℤ) :=
      Option.some.inj (hencode.symm.trans hriv)
    have hlt := Nat.mod_lt riv (Nat.two_pow_pos (RarUe.msg3FreqBits ra.bwpSize))
    omega
  · intro hlt
    rw [Nat.mod_eq_of_lt hlt, hbw, hoffset, if_neg (by omega)]

/-! ## The octets of Msg2 -/

/-- The subheader with the preamble. -/
theorem rapidOctet_spec : ∀ preamble : Fin (2 ^ 6),
    let octet := NrRaHeaderRapid.octet { e := 0, t := 1, rapid := BitVec.ofNat 6 preamble }
    octet &&& 0x40 ≠ 0 ∧ octet &&& 0x80 = 0 ∧ (octet &&& 0x3F).toNat = preamble := by
  decide +kernel

theorem nrFillRar_eq {ra : GnbRa} {riv : ℕ} (hriv : ra.prbAlloc = some (riv : ℤ))
    (dlschBuffer : List UInt8) :
    nrFillRar ra dlschBuffer = some (0x80 ::
      NrRaHeaderRapid.octet { e := 0, t := 1, rapid := BitVec.ofNat 6 ra.preambleIndex } ::
      ((ra.macRar (riv % 2 ^ 14)).octets ++ dlschBuffer.drop 9)) := by
  rw [GnbRa.prbAlloc] at hriv
  have hmask : riv &&& (1 <<< 14 - 1) = riv % 2 ^ 14 := Nat.and_two_pow_sub_one_eq_mod riv 14
  have hbi : NrRaHeaderBi.octet { e := 1, t := 0, r := 0, bi := 0 } = 0x80 := by decide
  simp only [nrFillRar, ra.frequencyHopping_eq, hriv, ne_eq, not_true, if_false,
    Option.bind_eq_bind, Option.bind_some, Int.toNat_natCast, hmask, hbi, List.cons_append]

section RarLoop

variable {env : DlMacEnv} {dlschBuffer rest : List UInt8} {octet : UInt8} {n : ℕ}
  {nSubheaders nSubPdus : UInt8} {run : DlMacRun}

theorem rarLoop_backoff :
    rarLoop env dlschBuffer (n + 1) (0x80 :: rest) nSubheaders nSubPdus run =
      rarLoop env dlschBuffer n rest (nSubheaders + 1) nSubPdus (run.backoffIndicator 0x80) := by
  have hbits : (0x80 : UInt8) &&& 0x40 = 0 ∧ (0x80 : UInt8) &&& 0x80 ≠ 0 := by decide
  simp [rarLoop, hbits]

theorem rarLoop_match {rar : List UInt8} (ht : octet &&& 0x40 ≠ 0)
    (hrapid : octet &&& 0x3F = run.ra.raPreambleIndex)
    (hrar : rarAt dlschBuffer (rarOffset (nSubheaders + 1) (nSubPdus + 1)) = .ok rar)
    (henv : env.grantAsserts rar = false) :
    rarLoop env dlschBuffer (n + 1) (octet :: rest) nSubheaders nSubPdus run =
      .ok (if run.ra.cfra then ((run.emit .stopResponseWindow).emit (.rar rar)).nrRaSucceeded
        else (run.emit .stopResponseWindow).emit (.rar rar)) := by
  simp only [rarLoop, pduOctet_cons_zero, ok_bind, ht, if_false, hrapid, if_true, hrar, henv,
    DlMacRun.emit, Bool.false_eq_true]
  rw [apply_ite Except.ok]
  rfl

theorem rarLoop_other (ht : octet &&& 0x40 ≠ 0) (he : octet &&& 0x80 = 0)
    (hrapid : octet &&& 0x3F ≠ run.ra.raPreambleIndex) :
    rarLoop env dlschBuffer (n + 1) (octet :: rest) nSubheaders nSubPdus run =
      .ok (run.emit .resumeResponseWindow) := by
  simp only [rarLoop, pduOctet_cons_zero, ok_bind, ht, if_false, hrapid, he, if_true]
  rfl

end RarLoop

/-- The UE with the preamble of the subheader takes the seven octets behind it. -/
theorem nrUeProcessRar_spec {env : DlMacEnv} {ueRa : UeRaConfig} (preamble : Fin (2 ^ 6))
    (rar : NrMacRar) (rest : List UInt8) (henv : ∀ octets, env.grantAsserts octets = false) :
    ∃ run, nrUeProcessRar env ueRa true (0x80 ::
        NrRaHeaderRapid.octet { e := 0, t := 1, rapid := BitVec.ofNat 6 preamble } ::
        (rar.octets ++ rest)) = .ok run ∧
      (ueRa.raPreambleIndex.toNat ≠ preamble → ∀ octets, .rar octets ∉ run.events) ∧
      (ueRa.raPreambleIndex.toNat = preamble →
        ∀ octets, .rar octets ∈ run.events ↔ octets = rar.octets) := by
  obtain ⟨ht, he, hrapid⟩ := rapidOctet_spec preamble
  generalize NrRaHeaderRapid.octet { e := 0, t := 1, rapid := BitVec.ofNat 6 preamble } = octet
    at ht he hrapid ⊢
  have hrar : rarAt (0x80 :: octet :: (rar.octets ++ rest)) (rarOffset (0 + 1 + 1) (0 + 1)) =
      .ok rar.octets := by
    simp [rarAt, rarOffset, pduOctets, NrMacRar.octets]
  rw [nrUeProcessRar, if_pos rfl, List.length_cons, rarLoop_backoff]
  by_cases hue : octet &&& 0x3F = ueRa.raPreambleIndex
  · rw [List.length_cons, rarLoop_match ht hue hrar (henv _)]
    refine ⟨_, rfl, fun hne => absurd (hue ▸ hrapid) hne, fun _ octets => ?_⟩
    split <;> simp [DlMacRun.nrRaSucceeded, DlMacRun.emit, DlMacRun.backoffIndicator]
  · rw [List.length_cons, rarLoop_other ht he hue]
    refine ⟨_, rfl, fun _ octets => ?_, fun heq => ?_⟩
    · simp [DlMacRun.emit, DlMacRun.backoffIndicator]
    · exact absurd (UInt8.toNat_inj.mp (hrapid.trans heq.symm)) hue

/-- The RAR round trip holds if and only if the UE takes all bits of the frequency allocation. -/
theorem rarRoundTrips_iff (ra : GnbRa) : RarRoundTrips ra ↔ ra.Msg3Fits := by
  obtain ⟨riv, hriv, his, hbw, hoffset⟩ := ra.exists_prbAlloc
  have hf : riv % 2 ^ 14 < 2 ^ 14 := Nat.mod_lt _ (by decide)
  constructor
  · intro h
    obtain ⟨pdu, hpdu, hue⟩ := h []
    obtain rfl := Option.some.inj ((nrFillRar_eq hriv []).symm.trans hpdu)
    -- a UE with a time allocation and without a timer
    let env : DlMacEnv := ⟨false, fun _ => false⟩
    let ueRa : UeRaConfig := ⟨false, .waitRar, true, false, UInt8.ofNat ra.preambleIndex,
      Vector.replicate 6 0, 1, 1, 0, 0, 0, 0, 0, 0, 0, 0, 0⟩
    let ue : RarUe := ⟨false, 0, false, fun _ => some 0, fun _ => (0, 0), 0, 1, ra.bwpSize⟩
    have hpreamble := ra.preambleIndex.isLt
    have hsame : ueRa.raPreambleIndex.toNat = ra.preambleIndex := by
      rw [UInt8.toNat_ofNat']
      exact Nat.mod_eq_of_lt (by omega)
    obtain ⟨run, hrun, -, hmatch⟩ := @nrUeProcessRar_spec env ueRa ra.preambleIndex
      (ra.macRar (riv % 2 ^ 14)) ([].drop 9) (show ∀ octets, env.grantAsserts octets = false from
        fun _ => rfl)
    obtain ⟨run', hrun', -, hrar⟩ := hue env ueRa fun _ => rfl
    obtain rfl : run = run' := Except.ok.inj (hrun.symm.trans hrun')
    obtain ⟨octets, rar, hmem, hread, hrecovers⟩ := hrar hsame
    obtain rfl := (hmatch hsame octets).mp hmem
    obtain rfl := Option.some.inj ((NrMacRar.ofOctets_octets _).symm.trans hread)
    obtain ⟨msg3, hmsg3, hgrant, hblocks, -⟩ :=
      rarGrant_macRar hf (show ue.ulTdaInfo _ = _ from rfl)
    obtain ⟨msg3', hmsg3', -, -, -, hfound, -⟩ := (hrecovers ue 0 rfl rfl).msg3
    rw [hmsg3] at hmsg3'
    obtain rfl := Option.some.inj hmsg3'
    exact (msg3ResourceBlocks_iff hriv his hbw hoffset rfl (by rw [hgrant])).mp
      (hblocks.symm.trans hfound)
  · intro hfits dlschBuffer
    refine ⟨_, nrFillRar_eq hriv dlschBuffer, fun env ueRa henv => ?_⟩
    obtain ⟨run, hrun, hother, hmatch⟩ := @nrUeProcessRar_spec env ueRa ra.preambleIndex
      (ra.macRar (riv % 2 ^ 14)) (dlschBuffer.drop 9) henv
    refine ⟨run, hrun, hother, fun heq => ⟨_, _, (hmatch heq _).mpr rfl,
      NrMacRar.ofOctets_octets _, ?_⟩⟩
    intro ue k2 hbwp hk2
    obtain ⟨msg3, hmsg3, hgrant, hblocks, htCrnti, hrnti, hta⟩ := rarGrant_macRar hf hk2
    rw [hmsg3]
    refine ⟨rfl, msg3, rfl, by rw [hgrant], by rw [hgrant], by rw [hgrant], ?_, fun hcfra => ?_,
      hta⟩
    · rw [hblocks]
      exact (msg3ResourceBlocks_iff hriv his hbw hoffset hbwp (by rw [hgrant])).mpr hfits
    · rw [htCrnti, hrnti, hcfra]
      exact ⟨rfl, rfl⟩

/-! ## MsgB -/

@[simp] theorem fieldsOctet_byte (octet : UInt8) : fieldsOctet [⟨8, octet.toBitVec⟩] = octet := by
  apply UInt8.toNat_inj.mp
  rw [toNat_fieldsOctet (by simp [fieldsWidth])]
  simp [packFields]

theorem toNat_fieldsOctet_byte (n : ℕ) : (fieldsOctet [⟨8, BitVec.ofNat 8 n⟩]).toNat = n % 256 := by
  rw [toNat_fieldsOctet (by simp [fieldsWidth])]
  simp [packFields]

/-- The octets behind the contention resolution identity, as the UE reads them. -/
structure MsgBOctets (msgB : GnbMsgB) (octet7 octet8 octet9 octet10 octet11 : UInt8) : Prop where
  tpc : (octet7 >>> 3 &&& 3).toNat = msgB.tpc0
  harqFti : (octet7 &&& 0x7).toNat = msgB.timingIndicator
  pucchRi : (octet8 >>> 4 &&& 0x0F).toNat = msgB.resourceIndicator
  ta : octet8.toNat % 16 * 256 + octet9.toNat = msgB.taUpdate
  crnti : octet10.toNat * 256 + octet11.toNat = msgB.crnti.toNat

theorem msgBOctet7_spec : ∀ (harqFti : Fin (2 ^ 3)) (tpc : Fin (2 ^ 2)),
    let octet := fieldsOctet [⟨3, BitVec.ofNat 3 harqFti⟩, ⟨2, BitVec.ofNat 2 tpc⟩, ⟨2, 1⟩, ⟨1, 0⟩]
    (octet >>> 3 &&& 3).toNat = tpc ∧ (octet &&& 0x7).toNat = harqFti := by
  decide +kernel

theorem msgBOctet8_spec : ∀ (ta1 pucchRi : Fin (2 ^ 4)),
    let octet := fieldsOctet [⟨4, BitVec.ofNat 4 ta1⟩, ⟨4, BitVec.ofNat 4 pucchRi⟩]
    (octet >>> 4 &&& 0x0F).toNat = pucchRi ∧ octet.toNat % 16 = ta1 := by
  decide +kernel

theorem nrFillSuccessrar_eq (msgB : GnbMsgB) (macPdu : List UInt8) :
    ∃ octet7 octet8 octet9 octet10 octet11, MsgBOctets msgB octet7 octet8 octet9 octet10 octet11 ∧
      nrFillSuccessrar msgB macPdu 0 = (0x80 :: 0x20 :: (List.ofFn msgB.ueContResId ++
        octet7 :: octet8 :: octet9 :: octet10 :: octet11 :: macPdu.drop 13), 13) := by
  have hta := msgB.taUpdate.isLt
  have hcrnti := msgB.crnti.toNat_lt
  obtain ⟨htpc, hfti⟩ := msgBOctet7_spec msgB.timingIndicator msgB.tpc0
  obtain ⟨hri, hta1⟩ := msgBOctet8_spec ⟨(msgB.taUpdate : ℕ) >>> 8, by
    rw [Nat.shiftRight_eq_div_pow]
    omega⟩ msgB.resourceIndicator
  refine ⟨_, _, fieldsOctet [⟨8, BitVec.ofNat 8 ((msgB.taUpdate : ℕ) &&& 0xff)⟩],
    fieldsOctet [⟨8, BitVec.ofNat 8 (msgB.crnti.toNat >>> 8)⟩],
    fieldsOctet [⟨8, BitVec.ofNat 8 (msgB.crnti.toNat &&& 0xff)⟩],
    ⟨htpc, hfti, hri, ?_, ?_⟩, ?_⟩
  · rw [hta1, toNat_fieldsOctet_byte, and_byte]
    simp only [Nat.shiftRight_eq_div_pow]
    omega
  · rw [toNat_fieldsOctet_byte, toNat_fieldsOctet_byte, and_byte, Nat.shiftRight_eq_div_pow]
    omega
  · have hbi : NrRaHeaderBiMsgb.octet { e := 1, t1 := 0, t2 := 0, r := 0, bi := 0 } = 0x80 := by
      decide
    have hheader : NrRaHeaderSuccessRarMsgb.octet { e := 0, t1 := 0, t2 := 1, s := 0, r := 0 } =
        0x20 := by
      decide
    simp only [nrFillSuccessrar, hbi, hheader, NrMacSuccessRar.octets, fieldsOctet_byte]
    simp

/-- What a success RAR does, with the six octets of an identity. -/
theorem successRar_eq {env : DlMacEnv} {run : DlMacRun} {contResId rest : List UInt8}
    {octet octet7 octet8 octet9 octet10 octet11 : UInt8} (hlength : contResId.length = 6) :
    ∃ run' success, successRar env (octet :: (contResId ++
        octet7 :: octet8 :: octet9 :: octet10 :: octet11 :: rest)) run = .ok run' ∧
      (success = true ↔ env.iqPlayer = true ∨ run.ra.contResId.toList = contResId) ∧
      run'.ra.msgBTpc = octet7 >>> 3 &&& 3 ∧ run'.ra.msgBHarqFti = octet7 &&& 0x7 ∧
      run'.ra.pucchRi = octet8 >>> 4 &&& 0x0F ∧
      run'.ra.timingAdvanceCommand = octet8.toNat % 16 * 256 + octet9.toNat ∧
      (if run.ra.raActive = true ∧ success = true ∧ run.ra.cfra = false then run'.ra.crnti
        else run'.ra.tCrnti) = octet10.toNat * 256 + octet11.toNat ∧
      .contentionResolution contResId success ∈ run'.events ∧
      ∀ ta, .timeAlignment ta ∈ run'.events → .timeAlignment ta ∈ run.events := by
  obtain ⟨c0, c1, c2, c3, c4, c5, rfl⟩ :
      ∃ c0 c1 c2 c3 c4 c5, contResId = [c0, c1, c2, c3, c4, c5] := by
    match contResId, hlength with
    | [c0, c1, c2, c3, c4, c5], _ => exact ⟨c0, c1, c2, c3, c4, c5, rfl⟩
  have hcheck := checkRaContentionResolution_of_le env run.ra.contResId
    (show 6 ≤ [c0, c1, c2, c3, c4, c5].length from le_rfl)
  obtain ⟨success, hsuccess⟩ : ∃ success, success =
      decide (env.iqPlayer ∨ [c0, c1, c2, c3, c4, c5].take 6 = run.ra.contResId.toList) := ⟨_, rfl⟩
  have hiff : success = true ↔
      env.iqPlayer = true ∨ run.ra.contResId.toList = [c0, c1, c2, c3, c4, c5] := by
    rw [hsuccess, decide_eq_true_iff]
    exact or_congr_right eq_comm
  rw [← hsuccess] at hcheck
  have hread : pduOctets (octet :: ([c0, c1, c2, c3, c4, c5] ++
      octet7 :: octet8 :: octet9 :: octet10 :: octet11 :: rest)) 1 6 =
        .ok [c0, c1, c2, c3, c4, c5] := by
    rw [pduOctets_of_le (by simp)]
    rfl
  rw [successRar, hread, ok_bind]
  simp only [List.cons_append, List.nil_append, pduOctet_cons_succ, pduOctet_cons_zero, ok_bind,
    hcheck]
  by_cases hdone : run.ra.raActive = true ∧ success = true
  · refine ⟨_, success, if_pos hdone, hiff, ?_⟩
    cases hcfra : run.ra.cfra <;> simp [DlMacRun.nrRaSucceeded, DlMacRun.emit, hcfra, hdone]
  · cases success with
    | true =>
      refine ⟨_, true, (if_neg hdone).trans (if_pos rfl), hiff, rfl, rfl, rfl, rfl,
        if_neg fun h => hdone ⟨h.1, h.2.1⟩, ?_⟩
      simp [DlMacRun.emit]
    | false =>
      refine ⟨_, false, (if_neg hdone).trans (if_neg (by simp)), hiff, rfl, rfl, rfl, rfl,
        if_neg fun h => hdone ⟨h.1, h.2.1⟩, ?_⟩
      simp [DlMacRun.emit]

section SuccessRarLoop

variable {env : DlMacEnv} {pduP : List UInt8} {n : ℕ} {run : DlMacRun}

theorem successRarLoop_backoff : successRarLoop env (n + 1) (0x80 :: pduP) run =
    successRarLoop env n pduP (run.backoffIndicator 0x80) := by
  have hbits : (0x80 : UInt8) &&& 0x40 = 0 ∧ (0x80 : UInt8) &&& 0x20 = 0 ∧
      (0x80 : UInt8) &&& 0x80 ≠ 0 := by decide
  simp [successRarLoop, hbits]

theorem successRarLoop_success : successRarLoop env (n + 1) (0x20 :: pduP) run =
    (do
      let run ← successRar env (0x20 :: pduP) run
      return ((0x20 :: pduP).drop 12, run)) := by
  have hbits : (0x20 : UInt8) &&& 0x40 = 0 ∧ (0x20 : UInt8) &&& 0x20 ≠ 0 ∧
      (0x20 : UInt8) &&& 0x80 = 0 := by decide
  simp [successRarLoop, hbits]

end SuccessRarLoop

/-- What the UE takes from a MsgB of the gNB. The time alignment is the second octet. -/
theorem nrUeValidateSuccessrar_eq {env : DlMacEnv} {ueRa : UeRaConfig} {contResId rest : List UInt8}
    {octet7 octet8 octet9 octet10 octet11 : UInt8} (hlength : contResId.length = 6) :
    ∃ run success, nrUeValidateSuccessrar env
        (0x80 :: 0x20 :: (contResId ++ octet7 :: octet8 :: octet9 :: octet10 :: octet11 :: rest))
        (0x80 :: 0x20 :: (contResId ++ octet7 :: octet8 :: octet9 :: octet10 :: octet11 :: rest))
        ⟨ueRa, []⟩ = .ok (rest, run) ∧
      (success = true ↔ env.iqPlayer = true ∨ ueRa.contResId.toList = contResId) ∧
      run.ra.msgBTpc = octet7 >>> 3 &&& 3 ∧ run.ra.msgBHarqFti = octet7 &&& 0x7 ∧
      run.ra.pucchRi = octet8 >>> 4 &&& 0x0F ∧
      run.ra.timingAdvanceCommand = octet8.toNat % 16 * 256 + octet9.toNat ∧
      (if ueRa.raActive = true ∧ success = true ∧ ueRa.cfra = false then run.ra.crnti
        else run.ra.tCrnti) = octet10.toNat * 256 + octet11.toNat ∧
      .contentionResolution contResId success ∈ run.events ∧
      ∀ ta, .timeAlignment ta ∈ run.events ↔ ta = 32 := by
  obtain ⟨run, success, hrun, hiff, htpc, hfti, hri, hta, hcrnti, hid, hevents⟩ :=
    @successRar_eq env (DlMacRun.backoffIndicator ⟨{ ueRa with raBackoffLimit := 0 }, []⟩ 0x80)
      contResId rest 0x20 octet7 octet8 octet9 octet10 octet11 hlength
  refine ⟨run.emit (.timeAlignment 32), success, ?_, hiff, htpc, hfti, hri, hta, hcrnti, ?_, ?_⟩
  · simp only [nrUeValidateSuccessrar, List.length_cons, successRarLoop_backoff,
      successRarLoop_success, hrun, ok_bind, pduOctet_cons_succ, pduOctet_cons_zero]
    simp [List.drop_append, hlength, pure, Except.pure]
  · simp [DlMacRun.emit, hid]
  · intro ta
    have hnone : .timeAlignment ta ∉ run.events := fun hmem => by
      simpa [DlMacRun.backoffIndicator] using hevents ta hmem
    simp [DlMacRun.emit, hnone]

/-- The success RAR round trip holds if and only if the time advance is 32. -/
theorem successRarRoundTrips_iff (msgB : GnbMsgB) :
    SuccessRarRoundTrips msgB ↔ (msgB.taUpdate : ℕ) = 32 := by
  have hlength : (List.ofFn msgB.ueContResId).length = 6 := List.length_ofFn
  constructor
  · intro h
    obtain ⟨octet7, octet8, octet9, octet10, octet11, hoctets, hpdu⟩ := nrFillSuccessrar_eq msgB []
    -- any UE that waits for its MsgB
    let env : DlMacEnv := ⟨false, fun _ => false⟩
    let ueRa : UeRaConfig := ⟨true, .waitMsgB, true, false, 0, Vector.replicate 6 0,
      1, 1, 0, 0, 0, 0, 0, 0, 0, 0, 0⟩
    obtain ⟨rest, run, hrun, -, -, -, -, -, -, ⟨ta, hta⟩, hall⟩ := h [] env ueRa
    obtain ⟨run', success, hrun', -, -, -, -, -, -, -, hevents⟩ :=
      @nrUeValidateSuccessrar_eq env ueRa _ ([].drop 13) octet7 octet8 octet9 octet10 octet11
        hlength
    rw [hpdu, hrun', Except.ok.injEq, Prod.mk.injEq] at hrun
    obtain rfl := hrun.2
    exact (hall ta hta).symm.trans ((hevents ta).mp hta)
  · intro hta macPdu env ueRa
    obtain ⟨octet7, octet8, octet9, octet10, octet11, hoctets, hpdu⟩ :=
      nrFillSuccessrar_eq msgB macPdu
    obtain ⟨run, success, hrun, hiff, htpc, hfti, hri, hcmd, hcrnti, hid, hevents⟩ :=
      @nrUeValidateSuccessrar_eq env ueRa _ (macPdu.drop 13) octet7 octet8 octet9 octet10 octet11
        hlength
    rw [hpdu]
    refine ⟨macPdu.drop 13, run, hrun, ?_, ?_, ?_, ?_, ?_, ⟨success, hid, hiff, ?_⟩,
      ⟨32, (hevents 32).mpr rfl⟩, fun ta hmem => ?_⟩
    · simp [List.drop_append, hlength]
    · rw [htpc, hoctets.tpc]
    · rw [hfti, hoctets.harqFti]
    · rw [hri, hoctets.pucchRi]
    · rw [hcmd, hoctets.ta]
    · rw [hcrnti, hoctets.crnti]
    · rw [(hevents ta).mp hmem, hta]

/-- Both messages arrive as they were sent if and only if the UE takes all bits of the frequency
allocation of Msg3, and the time advance of the success RAR is 32. -/
theorem randomAccessRoundTrips_iff (ra : GnbRa) (msgB : GnbMsgB) :
    RandomAccessRoundTrips ra msgB ↔ ra.Msg3Fits ∧ (msgB.taUpdate : ℕ) = 32 :=
  and_congr (rarRoundTrips_iff ra) (successRarRoundTrips_iff msgB)

/-- A success RAR with the time advance 31. -/
theorem not_randomAccessRoundTrips : ¬∀ ra msgB, RandomAccessRoundTrips ra msgB := by
  intro h
  let ra : GnbRa :=
    ⟨0, 0, 0, 0, 0, 0, 0, rfl, 1, by decide, 0, 1, ⟨by decide, by decide, by decide⟩⟩
  exact absurd ((successRarRoundTrips_iff ⟨31, 0, 0, fun _ => 0, 0, 0⟩).mp (h ra _).2) (by decide)

end NrStack
