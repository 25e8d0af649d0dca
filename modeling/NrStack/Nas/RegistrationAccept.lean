import NrStack.Nas.ServiceMessages

/-!
# Registration Accept

The decoder of `RegistrationAccept.c` with `decode_5gs_mobile_identity`. A decoder that moves its
copy `ba` of the buffer past the end wraps its length around; the loop of
`decode_registration_accept` then reads on behind the buffer (`updateByteArray`).
-/

namespace NrStack

/-- `NAS_MAX_NUMBER_SLICES`. -/
def nasMaxNumberSlices : Nat :=
  8

/-- `nr_nas_msg_snssai_t`. -/
structure NrNasMsgSnssai where
  sst : Nat
  hplmnSst : Option Nat
  sd : Option Nat
  hplmnSd : Option Nat
deriving DecidableEq, Repr

/-- `registration_accept_msg`. -/
structure RegistrationAcceptMsg where
  result : UInt8
  smsAllowed : Bool
  guti : Option Guti5GSMobileIdentity
  nasAllowedNssai : Vector NrNasMsgSnssai nasMaxNumberSlices
  numAllowedSlices : UInt8
  configNssai : Vector NrNasMsgSnssai nasMaxNumberSlices
  numConfiguredSlices : UInt8
deriving DecidableEq

/-! ## Mobile identity -/

/-- `decode_guti_5gs_mobile_identity`. -/
def decodeGuti5gsMobileIdentity (guti : Guti5GSMobileIdentity) (buffer : List UInt8) :
    Except NasFault (Int × Guti5GSMobileIdentity) := do
  let octet3 ← readByte buffer 0
  let guti := { guti with spare := (octet3 >>> 4).toBitVec.setWidth 4 }
  if guti.spare ≠ 0xf then
    return (-1, guti)
  let guti := { guti with oddeven := (octet3 >>> 3).toBitVec.setWidth 1 }
  if guti.oddeven ≠ 0 then
    return (-1, guti)
  if octet3 &&& 0x7 ≠ 2 then
    return (-1, guti)
  let octet4 ← readByte buffer 1
  let octet5 ← readByte buffer 2
  let octet6 ← readByte buffer 3
  let amfregionid ← readByte buffer 4
  let octet8 ← readByte buffer 5
  let octet9 ← readByte buffer 6
  let temp : BitVec 16 := octet8.toBitVec ++ octet9.toBitVec
  let octet10 ← readByte buffer 7
  let octet11 ← readByte buffer 8
  let octet12 ← readByte buffer 9
  let octet13 ← readByte buffer 10
  return (11, { guti with
    mccdigit2 := (octet4 >>> 4).toBitVec.setWidth 4
    mccdigit1 := octet4.toBitVec.setWidth 4
    mncdigit3 := (octet5 >>> 4).toBitVec.setWidth 4
    mccdigit3 := octet5.toBitVec.setWidth 4
    mncdigit2 := (octet6 >>> 4).toBitVec.setWidth 4
    mncdigit1 := octet6.toBitVec.setWidth 4
    amfregionid := amfregionid
    amfsetid := temp.extractLsb' 6 10
    amfpointer := temp.extractLsb' 0 6
    tmsi := octet10.toBitVec ++ octet11.toBitVec ++ octet12.toBitVec ++ octet13.toBitVec })

/-- `decode_5gs_mobile_identity` behind the IEI, `decoded` bytes in. The length is the first of its
two bytes. -/
def decodeMobileIdentityFrom (guti : Guti5GSMobileIdentity) (decoded : Nat) (buffer : List UInt8)
    (len : Nat) : Except NasFault (Int × Guti5GSMobileIdentity) := do
  let ielen ← readByte buffer decoded
  let _ ← readByte buffer (decoded + 1)
  let decoded := decoded + 2
  if len - decoded < ielen.toNat then
    -- `TLV_DECODE_BUFFER_TOO_SHORT`
    return (-12, guti)
  let octet3 ← readByte buffer decoded
  if octet3 &&& 0x7 ≠ 2 then
    throw .assertFatal
  else
    let (decodedRc, guti) ← decodeGuti5gsMobileIdentity guti (buffer.drop decoded)
    if decodedRc < 0 then
      return (decodedRc, guti)
    return (decoded + decodedRc, guti)

/-- `decode_5gs_mobile_identity`. -/
def decode5gsMobileIdentity (guti : Guti5GSMobileIdentity) (iei : UInt8) (buffer : List UInt8)
    (len : Nat) : Except NasFault (Int × Guti5GSMobileIdentity) :=
  if iei > 0 then do
    let octet1 ← readByte buffer 0
    -- `CHECK_IEI_DECODER`
    if iei ≠ octet1 then
      return (-1, guti)
    decodeMobileIdentityFrom guti 1 buffer len
  else decodeMobileIdentityFrom guti 0 buffer len

/-! ## NSSAI -/

/-- `ntoh_int24_buf`. -/
def ntohInt24Buf (buf : List UInt8) (i : Nat) : Except NasFault Nat := do
  let high ← readByte buf i
  let mid ← readByte buf (i + 1)
  let low ← readByte buf (i + 2)
  return high.toNat * 65536 + mid.toNat * 256 + low.toNat

/-- The lengths of an S-NSSAI that the decoder knows. -/
def IsSnssaiLength (itemLen : UInt8) : Prop :=
  itemLen = 1 ∨ itemLen = 2 ∨ itemLen = 4 ∨ itemLen = 5 ∨ itemLen = 8

instance (itemLen : UInt8) : Decidable (IsSnssaiLength itemLen) :=
  inferInstanceAs (Decidable (_ ∨ _ ∨ _ ∨ _ ∨ _))

/-- The cases of `decode_nssai_ie` for the length of an item. -/
def decodeSnssaiItem (item : NrNasMsgSnssai) (itemLen : UInt8) (buf : List UInt8) :
    Except NasFault NrNasMsgSnssai := do
  let sst ← readByte buf 0
  let item := { item with sst := sst.toNat }
  if itemLen = 1 then
    return item
  else if itemLen = 2 then
    let hplmnSst ← readByte buf 1
    return { item with hplmnSst := some hplmnSst.toNat }
  else if itemLen = 4 then
    let sd ← ntohInt24Buf buf 1
    return { item with sd := some sd }
  else if itemLen = 5 then
    let sd ← ntohInt24Buf buf 1
    let hplmnSst ← readByte buf 4
    return { item with sd := some sd, hplmnSst := some hplmnSst.toNat }
  else
    let sd ← ntohInt24Buf buf 1
    let hplmnSst ← readByte buf 4
    let hplmnSd ← ntohInt24Buf buf 5
    return { item with
      sd := some sd
      hplmnSst := some hplmnSst.toNat
      hplmnSd := some hplmnSd }

/-- The loop of `decode_nssai_ie`, with `left` bytes up to `end`. An item may pass `end`; an
unknown length is skipped without its item. -/
def decodeNssaiItems (nssai : Vector NrNasMsgSnssai nasMaxNumberSlices) (nssaiCnt left : Nat)
    (buf : List UInt8) :
    Except NasFault (Vector NrNasMsgSnssai nasMaxNumberSlices × Nat) :=
  if left = 0 then return (nssai, nssaiCnt)
  else do
    let itemLen ← readByte buf 0
    if IsSnssaiLength itemLen then
      if h : nssaiCnt < nasMaxNumberSlices then
        let item ← decodeSnssaiItem nssai[nssaiCnt] itemLen (buf.drop 1)
        decodeNssaiItems (nssai.set nssaiCnt item) (nssaiCnt + 1) (left - (1 + itemLen.toNat))
          (buf.drop (1 + itemLen.toNat))
      else throw .outOfBounds
    else decodeNssaiItems nssai nssaiCnt (left - 1) (buf.drop 1)
termination_by left

/-- `decode_nssai_ie` : the bytes decoded, the array, and the number of slices. -/
def decodeNssaiIe (nssai : Vector NrNasMsgSnssai nasMaxNumberSlices) (buf : List UInt8) :
    Except NasFault (Nat × Vector NrNasMsgSnssai nasMaxNumberSlices × UInt8) := do
  let length ← readByte buf 0
  let (nssai, nssaiCnt) ← decodeNssaiItems nssai 0 length.toNat (buf.drop 1)
  return (length.toNat + 1, nssai, UInt8.ofNat nssaiCnt)

/-! ## The message -/

/-- `UPDATE_BYTE_ARRAY` in the loop of `decode_registration_accept`. -/
def updateByteArray (ba : List UInt8) (shift : Nat) : Except NasFault (List UInt8) :=
  if shift ≤ ba.length then .ok (ba.drop shift) else .error .outOfBounds

theorem length_of_updateByteArray {ba ba' : List UInt8} {shift : Nat}
    (h : updateByteArray ba shift = .ok ba') : ba'.length ≤ ba.length := by
  unfold updateByteArray at h
  split at h
  · cases h
    rw [List.length_drop]
    exact Nat.sub_le _ _
  · cases h

/-- One optional IE : the message, and the number of bytes behind the IEI. -/
def decodeRegistrationAcceptIe (msg : RegistrationAcceptMsg) (iei : UInt8) (ba : List UInt8) :
    Except NasFault (Nat × RegistrationAcceptMsg) :=
  if iei = 0x15 then do
    let (dec, nssai, numSlices) ← decodeNssaiIe msg.nasAllowedNssai ba
    return (dec, { msg with nasAllowedNssai := nssai, numAllowedSlices := numSlices })
  else if iei = 0x31 then do
    let (dec, nssai, numSlices) ← decodeNssaiIe msg.configNssai ba
    return (dec, { msg with configNssai := nssai, numConfiguredSlices := numSlices })
  else do
    let length ← readByte ba 0
    return (length.toNat + 1, msg)

/-- The loop over the optional IEs. -/
def decodeRegistrationAcceptIes (msg : RegistrationAcceptMsg) (ba : List UInt8) :
    Except NasFault RegistrationAcceptMsg :=
  match ba with
  | [] => .ok msg
  | iei :: ba =>
    match decodeRegistrationAcceptIe msg iei ba with
    | .error fault => .error fault
    | .ok (dec, msg) =>
      match h : updateByteArray ba dec with
      | .error fault => .error fault
      | .ok ba' => decodeRegistrationAcceptIes msg ba'
termination_by ba.length
decreasing_by
  have := length_of_updateByteArray h
  simp
  omega

/-- An identity from `calloc`. -/
def Guti5GSMobileIdentity.zero : Guti5GSMobileIdentity :=
  ⟨0, 0, 0, 0, 0, 0, 0, 0, 0, 0, 0, 0⟩

/-- `IEI_5G_GUTI`. -/
def iei5gGuti : UInt8 :=
  0x77

/-- `decode_registration_accept`, with `-1` for the `size_t` that is. -/
def decodeRegistrationAccept (msg : RegistrationAcceptMsg) (buffer : List UInt8) :
    Except NasFault (Int × RegistrationAcceptMsg) := do
  if buffer.length < 2 then
    return (-1, msg)
  let octet ← readByte buffer 1
  let msg := { msg with result := octet &&& 0x7, smsAllowed := octet &&& 0x8 ≠ 0 }
  let ba := buffer.drop 2
  if ba.head? = some iei5gGuti then
    let (dec, guti) ← decode5gsMobileIdentity .zero iei5gGuti ba ba.length
    let msg := { msg with guti := some guti }
    if dec < 0 then
      return (-1, msg)
    let ba ← updateByteArray ba dec.toNat
    let msg ← decodeRegistrationAcceptIes msg ba
    return (buffer.length, msg)
  else
    let msg ← decodeRegistrationAcceptIes msg ba
    return (buffer.length, msg)

end NrStack
