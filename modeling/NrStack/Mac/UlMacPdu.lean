import NrStack.Library.Pieces

/-!
# The uplink MAC PDU at the gNB

`nr_process_mac_pdu` and `lcid_crnti_lookahead` of `gNB_scheduler_ulsch.c`. The pointer into the
transport block and the length that is left are one list, the bytes from the pointer to the end of
the block, and a read behind its end is a fault. A run keeps what it delivered to RLC and each
estimate it took from a BSR, in order (`UlMacEvent`).
-/

namespace NrStack

/-! ## Bytes -/

@[simp] theorem ok_bind {ε α β : Type} (a : α) (f : α → Except ε β) :
    (Except.ok a >>= f) = f a := rfl

@[simp] theorem error_bind {ε α β : Type} (fault : ε) (f : α → Except ε β) :
    (Except.error fault >>= f) = .error fault := rfl

/-- What keeps a function over a MAC PDU from returning : a byte outside the block, an assertion,
or a loop that goes on. -/
inductive MacPduFault
  | outside
  | assertFatal
  | outOfFuel
  deriving DecidableEq, Repr

/-- `pduP[i]`. -/
def pduOctet (pduP : List UInt8) (i : ℕ) : Except MacPduFault UInt8 :=
  match pduP[i]? with
  | some octet => .ok octet
  | none => .error .outside

@[simp] theorem pduOctet_cons_zero (octet : UInt8) (pduP : List UInt8) :
    pduOctet (octet :: pduP) 0 = .ok octet := rfl

@[simp] theorem pduOctet_cons_succ (octet : UInt8) (pduP : List UInt8) (i : ℕ) :
    pduOctet (octet :: pduP) (i + 1) = pduOctet pduP i := by
  simp [pduOctet]

@[simp] theorem pduOctet_nil (i : ℕ) : pduOctet [] i = .error .outside := rfl

theorem pduOctet_of_lt {pduP : List UInt8} {i : ℕ} (h : i < pduP.length) :
    pduOctet pduP i = .ok pduP[i] := by
  simp [pduOctet, h]

/-! ## Subheaders -/

/-- `UL_SCH_LCID_*`, as far as the gNB has a case for it. -/
inductive UlSchLcid
  | ccch64Bits
  | srb1
  | srb2
  | dtch
  | ccch48BitsRedcap
  | ccch48Bits
  | recommendedBitrateQuery
  | multiEntryPhr4Oct
  | configuredGrantConfirmation
  | multiEntryPhr1Oct
  | singleEntryPhr
  | cRnti
  | sTruncatedBsr
  | lTruncatedBsr
  | sBsr
  | lBsr
  | padding
  | unknown
  deriving DecidableEq, Repr

/-- The case of the switch over the LCID. -/
def ulSchLcid (lcid : UInt8) : UlSchLcid :=
  if lcid = 0x00 then .ccch64Bits
  else if lcid = 0x01 then .srb1
  else if lcid = 0x02 then .srb2
  else if 0x04 ≤ lcid ∧ lcid ≤ 0x04 + 28 then .dtch
  else if lcid = 0x23 then .ccch48BitsRedcap
  else if lcid = 0x34 then .ccch48Bits
  else if lcid = 0x35 then .recommendedBitrateQuery
  else if lcid = 0x36 then .multiEntryPhr4Oct
  else if lcid = 0x37 then .configuredGrantConfirmation
  else if lcid = 0x38 then .multiEntryPhr1Oct
  else if lcid = 0x39 then .singleEntryPhr
  else if lcid = 0x3A then .cRnti
  else if lcid = 0x3B then .sTruncatedBsr
  else if lcid = 0x3C then .lTruncatedBsr
  else if lcid = 0x3D then .sBsr
  else if lcid = 0x3E then .lBsr
  else if lcid = 0x3F then .padding
  else .unknown

/-- `decode_ul_mac_sub_pdu_header` : the length of the header, the LCID and the length of the
payload, which stays 0 where the LCID has no length. -/
def decodeUlMacSubPduHeader (pduP : List UInt8) : Except MacPduFault (ℕ × UInt8 × ℕ) := do
  let first ← pduOctet pduP 0
  let lcid := first &&& 0x3F
  match ulSchLcid lcid with
  | .ccch64Bits => return (1, lcid, 8)
  | .srb1 | .srb2 | .dtch | .lTruncatedBsr | .lBsr =>
    if first &&& 0x40 ≠ 0 then
      let high ← pduOctet pduP 1
      let low ← pduOctet pduP 2
      return (3, lcid, high.toNat * 256 + low.toNat)
    else
      let length ← pduOctet pduP 1
      return (2, lcid, length.toNat)
  | .ccch48BitsRedcap | .ccch48Bits => return (1, lcid, 6)
  | .singleEntryPhr | .cRnti => return (1, lcid, 2)
  | .sTruncatedBsr | .sBsr => return (1, lcid, 1)
  | _ => return (1, lcid, 0)

/-! ## Buffer status -/

/-- `NR_SHORT_BSR_TABLE`. -/
def nrShortBsrTable : List ℕ :=
  [0, 10, 14, 20, 28, 38, 53, 74, 102, 142, 198, 276, 384, 535, 745, 1038, 1446, 2014, 2806, 3909,
    5446, 7587, 10570, 14726, 20516, 28581, 39818, 55474, 77284, 107669, 150000, 300000]

/-- `NR_LONG_BSR_TABLE`. -/
def nrLongBsrTable : List ℕ :=
  [0, 10, 11, 12, 13, 14, 15, 16, 17, 18, 19, 20, 22, 23, 25, 26, 28, 30, 32, 34, 36, 38, 40, 43,
    46, 49, 52, 55, 59, 62, 66, 71, 75, 80, 85, 91, 97, 103, 110, 117, 124, 132, 141, 150, 160, 170,
    181, 193, 205, 218, 233, 248, 264, 281, 299, 318, 339, 361, 384, 409, 436, 464, 494, 526, 560,
    597, 635, 677, 720, 767, 817, 870, 926, 987, 1051, 1119, 1191, 1269, 1351, 1439, 1532, 1631,
    1737, 1850, 1970, 2098, 2234, 2379, 2533, 2698, 2873, 3059, 3258, 3469, 3694, 3934, 4189, 4461,
    4751, 5059, 5387, 5737, 6109, 6506, 6928, 7378, 7857, 8367, 8910, 9488, 10104, 10760, 11458,
    12202, 12994, 13838, 14736, 15692, 16711, 17795, 18951, 20181, 21491, 22885, 24371, 25953,
    27638, 29431, 31342, 33376, 35543, 37850, 40307, 42923, 45709, 48676, 51836, 55200, 58784,
    62599, 66663, 70990, 75598, 80505, 85730, 91295, 97221, 103532, 110252, 117409, 125030, 133146,
    141789, 150992, 160793, 171231, 182345, 194182, 206786, 220209, 234503, 249725, 265935, 283197,
    301579, 321155, 342002, 364202, 387842, 413018, 439827, 468377, 498780, 531156, 565634, 602350,
    641449, 683087, 727427, 774645, 824928, 878475, 935498, 996222, 1060888, 1129752, 1203085,
    1281179, 1364342, 1452903, 1547213, 1647644, 1754595, 1868488, 1989774, 2118933, 2256475,
    2402946, 2558924, 2725027, 2901912, 3090279, 3290873, 3504487, 3731968, 3974215, 4232186,
    4506902, 4799451, 5110989, 5442750, 5796046, 6172275, 6572925, 6999582, 7453933, 7937777,
    8453028, 9001725, 9586039, 10208280, 10870913, 11576557, 12328006, 13128233, 13980403, 14887889,
    15854280, 16883401, 17979324, 19146385, 20389201, 21712690, 23122088, 24622972, 26221280,
    27923336, 29735875, 31666069, 33721553, 35910462, 38241455, 40723756, 43367187, 46182206,
    49179951, 52372284, 55771835, 59392055, 63247269, 67352729, 71724679, 76380419, 81338368,
    162676736, 4294967295]

/-- `overestim_bsr_index`. -/
def overestimBsrIndex (realIndex : ℕ) : ℕ :=
  if 0 < realIndex then realIndex + 1 else realIndex

/-- `estimate_ul_buffer_short_bsr` : the index is in the lower five bits. -/
def estimateUlBufferShortBsr (octet : UInt8) : Int :=
  nrShortBsrTable.getD (min (overestimBsrIndex (octet.toNat % 32)) 31) 0

/-- `bsr_active`. -/
def bsrActive (bitmap : UInt8) : List Bool :=
  (List.range 8).map bitmap.toNat.testBit

/-- The loop of `estimate_ul_buffer_long_bsr`. The sum is an `int`, the entries are `uint32_t`. -/
def estimateLongBsrLoop (payload : List UInt8) : List Bool → ℕ → Int → Except MacPduFault Int
  | [], _, estimSize => return estimSize
  | false :: active, m, estimSize => estimateLongBsrLoop payload active m estimSize
  | true :: active, m, estimSize => do
    let repIdx ← pduOctet payload m
    let value := nrLongBsrTable.getD (min (overestimBsrIndex repIdx.toNat) 255) 0
    estimateLongBsrLoop payload active (m + 1) (Int.bmod (estimSize + value) (2 ^ 32))

/-- `estimate_ul_buffer_long_bsr`. It is not told how long the control element is. -/
def estimateUlBufferLongBsr (ce : List UInt8) : Except MacPduFault Int := do
  let bitmap ← pduOctet ce 0
  estimateLongBsrLoop (ce.drop 1) (bsrActive bitmap) 0 0

/-! ## The UE -/

/-- An element of a PDU : subheader and payload. -/
structure UlMacElement where
  header : List UInt8
  lcid : UInt8
  payload : List UInt8
  deriving DecidableEq, Repr

/-- `nr_mac_rlc_data_ind` with an SDU, or an estimate from a BSR. -/
inductive UlMacEvent
  | rlcDataInd (lcid : UInt8) (sdu : List UInt8)
  | bsr (ce : UlMacElement) (estimate : Int)
  deriving DecidableEq, Repr

/-- What the function reads and writes of `NR_UE_info_t`. Of `ra` it asks whether it is there and
idle, and RLC has the entity of SRB0 or not. -/
structure UlMacUe where
  cellGroup : Bool
  srb0 : Bool
  isRedcap : Bool
  raIdle : Bool
  estimatedUlBuffer : Int
  ph : Int
  ph0 : Int
  pcmax : Int
  lcBytes : UInt8 → ℕ
  totalSduBytes : ℕ
  numMacSdu : UInt32

/-- The arguments besides the PDU : the HARQ process, negative where there is none, and
`compute_ph_factor` of the PUSCH of a process. -/
structure UlMacContext where
  harqPid : Int
  phFactor : ℕ → Int

/-- The UE, the SDUs counted so far, and the events so far. -/
structure UlMacRun where
  ue : UlMacUe
  sdus : ℕ
  events : List UlMacEvent

namespace UlMacUe

/-- `prepare_initial_ul_rrc_message` : nothing is done if RLC has SRB0 already. -/
def prepareInitialUlRrcMessage (ue : UlMacUe) : Bool × UlMacUe :=
  if ue.srb0 then (false, ue) else (true, { ue with srb0 := true, cellGroup := true })

/-- The statistics of a logical channel. -/
def countBytes (ue : UlMacUe) (lcid : UInt8) (macLen : ℕ) : UlMacUe :=
  { ue with lcBytes := Function.update ue.lcBytes lcid (ue.lcBytes lcid + macLen) }

/-- The estimate when data was received. -/
def dataReceived (ue : UlMacUe) (macLen : ℕ) : UlMacUe :=
  if ue.estimatedUlBuffer ≥ macLen then
    { ue with estimatedUlBuffer := ue.estimatedUlBuffer - macLen }
  else { ue with estimatedUlBuffer := 0 }

/-- The two bytes of a single entry PHR. -/
def singleEntryPhr (ctx : UlMacContext) (ue : UlMacUe) (octet1 octet2 : UInt8) : UlMacUe :=
  let phField : Int := octet1.toNat % 64
  let ph := if phField < 55 then phField - 32 else if phField < 63 then 24 + (phField - 55) * 2
    else 38
  { ue with
    ph := ph + ctx.phFactor ctx.harqPid.toNat
    ph0 := ph
    pcmax := (octet2.toNat % 64 : ℕ) - 29 }

end UlMacUe

namespace UlMacRun

/-- A CCCH SDU : `redcap` if its LCID is that of a RedCap UE. -/
def ccch (run : UlMacRun) (redcap : Bool) (sdu : List UInt8) : UlMacRun :=
  let ue := { run.ue with isRedcap := run.ue.isRedcap || redcap }
  let (prepared, ue) := ue.prepareInitialUlRrcMessage
  if prepared then { run with ue := ue, events := run.events ++ [.rlcDataInd 0 sdu] }
  else { run with ue := ue }

def srb (run : UlMacRun) (lcid : UInt8) (sdu : List UInt8) : UlMacRun :=
  { run with
    ue := { run.ue.countBytes lcid sdu.length with
      totalSduBytes := run.ue.totalSduBytes + sdu.length }
    events := run.events ++ [.rlcDataInd lcid sdu] }

def dtch (run : UlMacRun) (lcid : UInt8) (sdu : List UInt8) : UlMacRun :=
  { ue := (run.ue.countBytes lcid sdu.length).dataReceived sdu.length
    sdus := run.sdus + 1
    events := run.events ++ [.rlcDataInd lcid sdu] }

def bsr (run : UlMacRun) (ce : UlMacElement) (estimate : Int) : UlMacRun :=
  { run with
    ue := { run.ue with estimatedUlBuffer := estimate }
    events := run.events ++ [.bsr ce estimate] }

/-- The end of the function, behind the loop. -/
def counted (run : UlMacRun) : UlMacRun :=
  { run with ue := { run.ue with numMacSdu := run.ue.numMacSdu + UInt32.ofNat run.sdus } }

end UlMacRun

/-! ## The loop -/

/-- An iteration goes on with the rest of the block, or returns. -/
inductive UlMacNext
  | next (rest : List UInt8)
  | ret (code : Int)
  deriving DecidableEq, Repr

/-- The body of the loop of `nr_process_mac_pdu`. -/
def ulMacSubPdu (ctx : UlMacContext) (pduP : List UInt8) (run : UlMacRun) :
    Except MacPduFault (UlMacRun × UlMacNext) := do
  let (macSubheaderLen, lcid, macLen) ← decodeUlMacSubPduHeader pduP
  if pduP.length < macSubheaderLen + macLen then return (run, .ret 0)
  let sdu := (pduP.drop macSubheaderLen).take macLen
  let ce : UlMacElement := ⟨pduP.take macSubheaderLen, lcid, sdu⟩
  let next := UlMacNext.next (pduP.drop (macSubheaderLen + macLen))
  match ulSchLcid lcid with
  | .ccch64Bits =>
    if (pduP.take (macSubheaderLen + macLen)).all (· == 0) then return (run, .ret 0)
    return (run.ccch false sdu, next)
  | .ccch48BitsRedcap => return (run.ccch true sdu, next)
  | .ccch48Bits => return (run.ccch false sdu, next)
  | .srb1 | .srb2 =>
    if run.ue.cellGroup then return (run.srb lcid sdu, next) else throw .assertFatal
  | .dtch => return (run.dtch lcid sdu, next)
  | .recommendedBitrateQuery | .multiEntryPhr4Oct | .configuredGrantConfirmation
  | .multiEntryPhr1Oct => return (run, next)
  | .singleEntryPhr =>
    if ctx.harqPid < 0 then return (run, .ret 0)
    let octet1 ← pduOctet pduP macSubheaderLen
    let octet2 ← pduOctet pduP (macSubheaderLen + 1)
    return ({ run with ue := run.ue.singleEntryPhr ctx octet1 octet2 }, next)
  | .cRnti => if run.ue.raIdle then throw .assertFatal else return (run, next)
  | .sTruncatedBsr | .sBsr =>
    let octet ← pduOctet pduP macSubheaderLen
    return (run.bsr ce (estimateUlBufferShortBsr octet), next)
  | .lTruncatedBsr | .lBsr =>
    let estimate ← estimateUlBufferLongBsr (pduP.drop macSubheaderLen)
    return (run.bsr ce estimate, next)
  | .padding => return (run, .ret 0)
  | .unknown => return (run, .ret (-1))

/-- The loop, over the bytes left of the block. -/
def ulMacLoop (ctx : UlMacContext) : ℕ → List UInt8 → UlMacRun →
    Except MacPduFault (Int × UlMacRun)
  | _, [], run => return (0, run.counted)
  | 0, _ :: _, _ => throw .outOfFuel
  | n + 1, octet :: pduP, run => do
    match ← ulMacSubPdu ctx (octet :: pduP) run with
    | (run, .next rest) => ulMacLoop ctx n rest run
    | (run, .ret code) => return (code, run)

/-- `nr_process_mac_pdu`. The trace looks at the first byte. -/
def nrProcessMacPdu (ctx : UlMacContext) (ue : UlMacUe) (pduP : List UInt8) :
    Except MacPduFault (Int × UlMacRun) := do
  let _ ← pduOctet pduP 0
  ulMacLoop ctx pduP.length pduP ⟨ue, 0, []⟩

/-- The loop of `lcid_crnti_lookahead`, which goes on at an unknown LCID. -/
def lookaheadLoop : ℕ → List UInt8 → Except MacPduFault ℕ
  | _, [] => return 0
  | 0, _ :: _ => throw .outOfFuel
  | n + 1, octet :: pdu => do
    let (macSubheaderLen, lcid, macLen) ← decodeUlMacSubPduHeader (octet :: pdu)
    if (octet :: pdu).length < macSubheaderLen + macLen then return 0
    match ulSchLcid lcid with
    | .cRnti =>
      let high ← pduOctet (octet :: pdu) 1
      let low ← pduOctet (octet :: pdu) 2
      return high.toNat * 256 + low.toNat
    | .padding => return 0
    | _ => lookaheadLoop n ((octet :: pdu).drop (macSubheaderLen + macLen))

/-- `lcid_crnti_lookahead`. -/
def lcidCrntiLookahead (pdu : List UInt8) : Except MacPduFault ℕ :=
  lookaheadLoop pdu.length pdu

end NrStack
