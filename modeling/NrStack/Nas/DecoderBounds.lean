import NrStack.Nas.RegistrationAccept

/-!
# When a decoder stays inside its buffer

Only some of the decoders of an IE ask how many bytes are left. Where an IE lies behind its IEI is
an `IeExtent`, read off the bytes alone; `IesInside` says that every IE up to the one a decoder
gives up at lies in the buffer with all its fields. A decoder stays inside its buffer for exactly
these byte strings (`nas_decoders_inside_iff`).
-/

namespace NrStack

/-- The decoder reads and stores inside its buffers, and does not count more bytes as decoded than
there are. An abort reads nothing. -/
def DecodesInside {α : Type} (r : Except NasFault (Int × α)) (len : Nat) : Prop :=
  match r with
  | .ok (n, _) => n ≤ len
  | .error fault => fault = .assertFatal

theorem DecodesInside.mono {α : Type} {r : Except NasFault (Int × α)} {len len' : Nat}
    (h : DecodesInside r len) (hlen : len ≤ len') : DecodesInside r len' := by
  match r with
  | .ok (n, _) => exact le_trans (α := Int) h (Int.ofNat_le.2 hlen)
  | .error _ => exact h

/-! ## Extents -/

/-- An IE behind its IEI : a field of it lies outside, or the decoder gives up, or there are `len`
bytes of contents which add `stored` entries to an array. -/
inductive IeExtent
  | outside
  | stop
  | content (len stored : Nat)

/-- The IEs lie inside the bytes, up to one where the decoder gives up. `ie` is the extent of the
first IE, given the entries stored so far. -/
inductive IesInside (ie : Nat → UInt8 → List UInt8 → IeExtent) : Nat → List UInt8 → Prop
  | nil (stored : Nat) : IesInside ie stored []
  | stop {stored : Nat} {iei : UInt8} {ba : List UInt8} (h : ie stored iei ba = .stop) :
    IesInside ie stored (iei :: ba)
  | content {stored : Nat} {iei : UInt8} {ba : List UInt8} {len more : Nat}
    (h : ie stored iei ba = .content len more) (hlen : len ≤ ba.length)
    (hrest : IesInside ie (stored + more) (ba.drop len)) : IesInside ie stored (iei :: ba)

theorem not_iesInside_of_outside {ie : Nat → UInt8 → List UInt8 → IeExtent} {stored : Nat}
    {iei : UInt8} {ba : List UInt8} (h : ie stored iei ba = .outside) :
    ¬ IesInside ie stored (iei :: ba) := by
  intro hinside
  cases hinside with
  | stop hstop => rw [h] at hstop; cases hstop
  | content hcontent => rw [h] at hcontent; cases hcontent

/-- `decode_pdu_session_ie` asks for the bytes it reads. -/
def pduSessionExtent (ba : List UInt8) : IeExtent :=
  if ba.length < minPduSessionContentsLen + 2 then .stop
  else if ba.headD 0 > maxPduSessionContentsLen then .stop
  else .content 3 0

/-- `decode_gprs_timer_ie`. -/
def gprsTimerExtent (ba : List UInt8) : IeExtent :=
  if 2 ≤ ba.length then .content 2 0 else .outside

/-- A length of two bytes, and as many bytes : `decode_eap_msg_ie`, and the CAG information. -/
def longExtent : List UInt8 → IeExtent
  | high :: low :: _ => .content (high.toNat * 256 + low.toNat + 2) 0
  | _ => .outside

/-- The error causes : two bytes each, and `MAX_NUM_PDU_ERRORS` in all. -/
def errorCausesExtent (stored : Nat) : List UInt8 → IeExtent
  | high :: low :: ba =>
    let errorLen := high.toNat * 256 + low.toNat
    let n := (errorLen + 1) / 2
    if errorLen > maxNumPduErrors * 2 then .stop
    else if 2 * n ≤ ba.length ∧ stored + n ≤ maxNumPduErrors then .content (2 + 2 * n) n
    else .outside
  | _ => .outside

/-- The IEs of a Service Accept. -/
def serviceAcceptExtent (stored : Nat) (iei : UInt8) (ba : List UInt8) : IeExtent :=
  if iei = ieiPduSessionStatus then pduSessionExtent ba
  else if iei = ieiPduSessionReactResult then pduSessionExtent ba
  else if iei = ieiPduSessionReactResultErrorCause then errorCausesExtent stored ba
  else if iei = ieiT3448Value then gprsTimerExtent ba
  else if iei = ieiEapmsg then longExtent ba
  else .stop

/-- The IEs of a Service Reject. -/
def serviceRejectExtent (_ : Nat) (iei : UInt8) (ba : List UInt8) : IeExtent :=
  if iei = ieiPduSessionStatus then pduSessionExtent ba
  else if iei = ieiT3448Value then gprsTimerExtent ba
  else if iei = ieiT3446Value then gprsTimerExtent ba
  else if iei = ieiEapmsg then longExtent ba
  else if iei = ieiCagInfoList then longExtent ba
  else .stop

/-- The items of an NSSAI lie inside the bytes, and there is an entry of the array for each. -/
inductive SnssaisInside : Nat → Nat → List UInt8 → Prop
  | done (cnt : Nat) (buf : List UInt8) : SnssaisInside cnt 0 buf
  | item {cnt left : Nat} {itemLen : UInt8} {buf : List UInt8} (hleft : left ≠ 0)
    (hitem : IsSnssaiLength itemLen) (hcnt : cnt < nasMaxNumberSlices)
    (hlen : itemLen.toNat ≤ buf.length)
    (hrest : SnssaisInside (cnt + 1) (left - (1 + itemLen.toNat)) (buf.drop itemLen.toNat)) :
    SnssaisInside cnt left (itemLen :: buf)
  | unknown {cnt left : Nat} {itemLen : UInt8} {buf : List UInt8} (hleft : left ≠ 0)
    (hitem : ¬ IsSnssaiLength itemLen) (hrest : SnssaisInside cnt (left - 1) buf) :
    SnssaisInside cnt left (itemLen :: buf)

open Classical in
/-- `decode_nssai_ie`. -/
noncomputable def nssaiExtent : List UInt8 → IeExtent
  | [] => .outside
  | length :: ba =>
    if SnssaisInside 0 length.toNat ba then .content (length.toNat + 1) 0 else .outside

/-- The IEs of a Registration Accept behind the 5G-GUTI. -/
noncomputable def registrationAcceptExtent (_ : Nat) (iei : UInt8) (ba : List UInt8) : IeExtent :=
  if iei = 0x15 then nssaiExtent ba
  else if iei = 0x31 then nssaiExtent ba
  else
    match ba with
    | [] => .outside
    | length :: _ => .content (length.toNat + 1) 0

/-- `decode_5gs_mobile_identity` behind the IEI : a 5G-GUTI is read whatever its length says. -/
def mobileIdentityExtentFrom (decoded : Nat) (buffer : List UInt8) : IeExtent :=
  if buffer.length < decoded + 2 then .outside
  else if buffer.length - (decoded + 2) < (buffer.getD decoded 0).toNat then .stop
  else
    match buffer.drop (decoded + 2) with
    | [] => .outside
    | octet3 :: rest =>
      if octet3 ≠ 0xf2 then .stop
      else if 10 ≤ rest.length then .content (decoded + 13) 0
      else .outside

/-- `decode_5gs_mobile_identity`. -/
def mobileIdentityExtent (iei : UInt8) (buffer : List UInt8) : IeExtent :=
  if iei > 0 then
    match buffer with
    | [] => .outside
    | octet1 :: _ => if iei ≠ octet1 then .stop else mobileIdentityExtentFrom 1 buffer
  else mobileIdentityExtentFrom 0 buffer

/-- The Registration Accept : with a 5G-GUTI that is refused, nothing is read behind it. -/
def RegistrationAcceptInside (buffer : List UInt8) : Prop :=
  if buffer.length < 2 then True
  else if buffer[2]? = some iei5gGuti then
    match mobileIdentityExtent iei5gGuti (buffer.drop 2) with
    | .outside => False
    | .stop => True
    | .content len _ => IesInside registrationAcceptExtent 0 (buffer.drop (2 + len))
  else IesInside registrationAcceptExtent 0 (buffer.drop 2)

/-- The Service Reject : the cause, then the IEs. -/
def ServiceRejectInside (buffer : List UInt8) : Prop :=
  IesInside serviceRejectExtent 0 (buffer.drop 1)

/-! ## One IE -/

/-- What a decoder of one IE returns, for the extent of the IE. -/
inductive Reads {α : Type} (size : α → Int) : Except NasFault α → IeExtent → Prop
  | outside : Reads size (.error .outOfBounds) .outside
  | stop (x : α) (h : size x < 0) : Reads size (.ok x) .stop
  | abort : Reads size (.error .assertFatal) .stop
  | content (x : α) (len : Nat) (h : size x = len) : Reads size (.ok x) (.content len 0)

theorem Reads.giveUp {α : Type} (x : α) : Reads Prod.fst (.ok ((-1 : Int), x)) .stop :=
  .stop _ (Int.negSucc_lt_zero 0)

theorem reads_pduSessionIe (psi : PsiArray) (ba : List UInt8) :
    Reads Prod.fst (decodePduSessionIe psi ba) (pduSessionExtent ba) := by
  unfold decodePduSessionIe pduSessionExtent minPduSessionContentsLen
  by_cases hlen : ba.length < 2 + 2
  · rw [if_pos hlen, if_pos hlen]
    exact .giveUp _
  rw [if_neg hlen, if_neg hlen]
  match ba, hlen with
  | statusLen :: octet3 :: octet4 :: rest, _ =>
    change Reads _ (if statusLen > maxPduSessionContentsLen then _ else _)
      (if statusLen > maxPduSessionContentsLen then _ else _)
    split
    · exact .giveUp _
    · exact .content _ _ rfl
  | [], h | [_], h | [_, _], h => simp at h

theorem reads_gprsTimerIe (ba : List UInt8) :
    Reads Prod.fst (decodeGprsTimerIe ba) (gprsTimerExtent ba) := by
  unfold gprsTimerExtent
  match ba with
  | [] | [_] => exact .outside
  | _ :: _ :: rest =>
    rw [if_pos (by simp)]
    exact .content _ _ rfl

theorem reads_readLength (ba : List UInt8) :
    Reads (fun length : Nat => (length : Int) + 2) (readLength ba) (longExtent ba) := by
  match ba with
  | [] | [_] => exact .outside
  | _ :: _ :: _ => exact .content _ _ rfl

theorem reads_eapMsgIe (ba : List UInt8) : Reads id (decodeEapMsgIe ba) (longExtent ba) := by
  match ba with
  | [] | [_] => exact .outside
  | _ :: _ :: _ => exact .content _ _ rfl

theorem readByte_eq_getD {buffer : List UInt8} {i : Nat} (h : i < buffer.length) :
    readByte buffer i = .ok (buffer.getD i 0) := by
  unfold readByte
  rw [List.getD_eq_getElem?_getD, List.getElem?_eq_getElem h]
  rfl

theorem readByte_eq_error {buffer : List UInt8} {i : Nat} (h : buffer.length ≤ i) :
    readByte buffer i = .error .outOfBounds := by
  unfold readByte
  rw [List.getElem?_eq_none h]

/-- The first byte of a 5G-GUTI is fixed : `1111`, even, and the type. -/
theorem guti_octet3 : ∀ octet3 : Fin 256, let b := UInt8.ofFin octet3
    b ≠ 0xf2 → b &&& 0x7 = 2 → (b >>> 4).toBitVec.setWidth 4 = (0xf : BitVec 4) →
      (b >>> 3).toBitVec.setWidth 1 ≠ (0 : BitVec 1) := by
  decide +kernel

/-- The GUTI is refused for its first byte, or takes 11 bytes. -/
theorem reads_guti5gsMobileIdentity (guti : Guti5GSMobileIdentity) {octet3 : UInt8}
    (htype : octet3 &&& 0x7 = 2) (rest : List UInt8) :
    Reads Prod.fst (decodeGuti5gsMobileIdentity guti (octet3 :: rest))
      (if octet3 ≠ 0xf2 then .stop else if 10 ≤ rest.length then .content 11 0 else .outside) := by
  by_cases hoctet3 : octet3 = 0xf2
  · subst hoctet3
    rw [if_neg (not_not_intro rfl)]
    match rest with
    | _ :: _ :: _ :: _ :: _ :: _ :: _ :: _ :: _ :: _ :: rest =>
      rw [if_pos (by simp)]
      exact .content _ _ rfl
    | [] | [_] | [_, _] | [_, _, _] | [_, _, _, _] | [_, _, _, _, _] | [_, _, _, _, _, _]
    | [_, _, _, _, _, _, _] | [_, _, _, _, _, _, _, _] | [_, _, _, _, _, _, _, _, _] =>
      exact .outside
  · rw [if_pos hoctet3]
    unfold decodeGuti5gsMobileIdentity
    change Reads _ (if (octet3 >>> 4).toBitVec.setWidth 4 ≠ (0xf : BitVec 4) then _ else
      if (octet3 >>> 3).toBitVec.setWidth 1 ≠ (0 : BitVec 1) then _ else _) _
    by_cases hspare : (octet3 >>> 4).toBitVec.setWidth 4 = (0xf : BitVec 4)
    · have hodd : (octet3 >>> 3).toBitVec.setWidth 1 ≠ (0 : BitVec 1) :=
        guti_octet3 octet3.toFin hoctet3 htype hspare
      rw [if_neg (not_not_intro hspare), if_pos hodd]
      exact .giveUp _
    · rw [if_pos hspare]
      exact .giveUp _

theorem reads_mobileIdentityFrom (guti : Guti5GSMobileIdentity) (decoded : Nat)
    (buffer : List UInt8) :
    Reads Prod.fst (decodeMobileIdentityFrom guti decoded buffer buffer.length)
      (mobileIdentityExtentFrom decoded buffer) := by
  unfold decodeMobileIdentityFrom mobileIdentityExtentFrom
  by_cases hlen : buffer.length < decoded + 2
  · rw [if_pos hlen, readByte_eq_error (i := decoded + 1) (by omega)]
    by_cases hdecoded : decoded < buffer.length
    · rw [readByte_eq_getD hdecoded]
      exact .outside
    · rw [readByte_eq_error (not_lt.1 hdecoded)]
      exact .outside
  rw [if_neg hlen, readByte_eq_getD (i := decoded) (by omega),
    readByte_eq_getD (i := decoded + 1) (by omega)]
  change Reads _ (if buffer.length - (decoded + 2) < (buffer.getD decoded 0).toNat then _ else _) _
  split
  · exact .stop _ (by simp)
  have hread : readByte buffer (decoded + 2) = readByte (buffer.drop (decoded + 2)) 0 := by
    unfold readByte
    rw [List.getElem?_drop, Nat.add_zero]
  rw [hread]
  cases buffer.drop (decoded + 2) with
  | nil => exact .outside
  | cons octet3 rest =>
    change Reads _ (if octet3 &&& 0x7 ≠ 2 then _ else _) _
    by_cases htype : octet3 &&& 0x7 = 2
    · rw [if_neg (not_not_intro htype)]
      have hguti := reads_guti5gsMobileIdentity guti htype rest
      change Reads _ (Except.bind (decodeGuti5gsMobileIdentity guti (octet3 :: rest)) _)
        (if octet3 ≠ 0xf2 then _ else _)
      generalize decodeGuti5gsMobileIdentity guti (octet3 :: rest) = r at hguti ⊢
      by_cases hoctet3 : octet3 ≠ 0xf2
      · rw [if_pos hoctet3] at hguti ⊢
        cases hguti with
        | abort => exact .abort
        | stop x h =>
          change Reads _ (if x.1 < 0 then _ else _) _
          rw [if_pos h]
          exact .stop _ h
      · rw [if_neg hoctet3] at hguti ⊢
        by_cases hrest : 10 ≤ rest.length
        · rw [if_pos hrest] at hguti ⊢
          cases hguti with
          | content x _ h =>
            change Reads _ (if x.1 < 0 then _ else _) _
            rw [if_neg (by omega)]
            refine .content _ _ ?_
            change ((decoded + 2 : Nat) : Int) + x.1 = _
            omega
        · rw [if_neg hrest] at hguti ⊢
          cases hguti
          exact .outside
    · have hne : octet3 ≠ 0xf2 := by
        rintro rfl
        exact htype rfl
      rw [if_pos htype]
      change Reads _ _ (if octet3 ≠ 0xf2 then _ else _)
      rw [if_pos hne]
      exact .abort

theorem reads_5gsMobileIdentity (guti : Guti5GSMobileIdentity) (iei : UInt8)
    (buffer : List UInt8) :
    Reads Prod.fst (decode5gsMobileIdentity guti iei buffer buffer.length)
      (mobileIdentityExtent iei buffer) := by
  unfold decode5gsMobileIdentity mobileIdentityExtent
  split
  · match buffer with
    | [] => exact .outside
    | octet1 :: rest =>
      change Reads _ (if iei ≠ octet1 then _ else _) (if iei ≠ octet1 then _ else _)
      split
      · exact .giveUp _
      · exact reads_mobileIdentityFrom guti 1 _
  · exact reads_mobileIdentityFrom guti 0 _

theorem decodeSnssaiItem_inside (item : NrNasMsgSnssai) {itemLen : UInt8}
    (h : IsSnssaiLength itemLen) {buf : List UInt8} (hlen : itemLen.toNat ≤ buf.length) :
    ∃ item', decodeSnssaiItem item itemLen buf = .ok item' := by
  rcases h with rfl | rfl | rfl | rfl | rfl
  · match buf with
    | _ :: _ => exact ⟨_, rfl⟩
  · match buf with
    | _ :: _ :: _ => exact ⟨_, rfl⟩
  · match buf with
    | _ :: _ :: _ :: _ :: _ => exact ⟨_, rfl⟩
  · match buf with
    | _ :: _ :: _ :: _ :: _ :: _ => exact ⟨_, rfl⟩
  · match buf with
    | _ :: _ :: _ :: _ :: _ :: _ :: _ :: _ :: _ => exact ⟨_, rfl⟩

theorem decodeSnssaiItem_outside (item : NrNasMsgSnssai) {itemLen : UInt8}
    (h : IsSnssaiLength itemLen) {buf : List UInt8} (hlen : buf.length < itemLen.toNat) :
    decodeSnssaiItem item itemLen buf = .error .outOfBounds := by
  rcases h with rfl | rfl | rfl | rfl | rfl
  · match buf with
    | [] => rfl
  · match buf with
    | [] | [_] => rfl
  · match buf with
    | [] | [_] | [_, _] | [_, _, _] => rfl
  · match buf with
    | [] | [_] | [_, _] | [_, _, _] | [_, _, _, _] => rfl
  · match buf with
    | [] | [_] | [_, _] | [_, _, _] | [_, _, _, _] | [_, _, _, _, _] | [_, _, _, _, _, _]
    | [_, _, _, _, _, _, _] => rfl

theorem snssaisInside_item_iff {cnt left : Nat} {itemLen : UInt8} {buf : List UInt8}
    (hleft : left ≠ 0) (hitem : IsSnssaiLength itemLen) :
    SnssaisInside cnt left (itemLen :: buf) ↔ cnt < nasMaxNumberSlices ∧
      itemLen.toNat ≤ buf.length ∧
      SnssaisInside (cnt + 1) (left - (1 + itemLen.toNat)) (buf.drop itemLen.toNat) := by
  constructor
  · intro h
    cases h with
    | done => exact absurd rfl hleft
    | item _ _ hcnt hlen hrest => exact ⟨hcnt, hlen, hrest⟩
    | unknown _ hunknown => exact absurd hitem hunknown
  · rintro ⟨hcnt, hlen, hrest⟩
    exact .item hleft hitem hcnt hlen hrest

theorem snssaisInside_unknown_iff {cnt left : Nat} {itemLen : UInt8} {buf : List UInt8}
    (hleft : left ≠ 0) (hitem : ¬ IsSnssaiLength itemLen) :
    SnssaisInside cnt left (itemLen :: buf) ↔ SnssaisInside cnt (left - 1) buf := by
  constructor
  · intro h
    cases h with
    | done => exact absurd rfl hleft
    | item _ hknown => exact absurd hknown hitem
    | unknown _ _ hrest => exact hrest
  · exact .unknown hleft hitem

/-- More slices than the array holds. -/
theorem not_snssaisInside_replicate {n cnt : Nat} (hn : n ≠ 0) (h : nasMaxNumberSlices < cnt + n) :
    ¬ SnssaisInside cnt (n * 2) (List.replicate n [1, 1]).flatten := by
  induction n generalizing cnt with
  | zero => exact absurd rfl hn
  | succ n ih =>
    have hbuf : (List.replicate (n + 1) [(1 : UInt8), 1]).flatten =
        1 :: 1 :: (List.replicate n [1, 1]).flatten := rfl
    rw [hbuf, snssaisInside_item_iff (by omega) (.inl rfl)]
    rintro ⟨hcnt, -, hrest⟩
    have hleft : (n + 1) * 2 - (1 + UInt8.toNat 1) = n * 2 := by
      change (n + 1) * 2 - 2 = _
      omega
    rw [hleft] at hrest
    exact ih (by omega) (by omega) hrest

/-- The loop of `decode_nssai_ie` ends, and faults if an item does not lie inside. -/
theorem decodeNssaiItems_inside_or (nssai : Vector NrNasMsgSnssai nasMaxNumberSlices)
    (cnt left : Nat) (buf : List UInt8) :
    (SnssaisInside cnt left buf ∧ ∃ x, decodeNssaiItems nssai cnt left buf = .ok x) ∨
    (¬ SnssaisInside cnt left buf ∧
      decodeNssaiItems nssai cnt left buf = .error .outOfBounds) := by
  induction left using Nat.strongRecOn generalizing nssai cnt buf with
  | _ left ih =>
    rw [decodeNssaiItems]
    by_cases hleft : left = 0
    · subst hleft
      exact .inl ⟨.done cnt buf, _, rfl⟩
    rw [if_neg hleft]
    match buf with
    | [] => exact .inr ⟨fun h => by cases h; exact hleft rfl, rfl⟩
    | itemLen :: buf =>
      change (_ ∧ ∃ x, (if IsSnssaiLength itemLen then _ else _) = _) ∨
        (_ ∧ (if IsSnssaiLength itemLen then _ else _) = _)
      by_cases hitem : IsSnssaiLength itemLen
      · rw [if_pos hitem, snssaisInside_item_iff hleft hitem]
        by_cases hcnt : cnt < nasMaxNumberSlices
        · rw [dif_pos hcnt]
          change (_ ∧ ∃ x, Except.bind (decodeSnssaiItem nssai[cnt] itemLen
            ((itemLen :: buf).drop 1)) _ = _) ∨ (_ ∧ Except.bind (decodeSnssaiItem nssai[cnt]
            itemLen ((itemLen :: buf).drop 1)) _ = _)
          rw [List.drop_one, List.tail_cons]
          by_cases hlen : itemLen.toNat ≤ buf.length
          · obtain ⟨item, h⟩ := decodeSnssaiItem_inside nssai[cnt] hitem hlen
            have hdrop : (itemLen :: buf).drop (1 + itemLen.toNat) = buf.drop itemLen.toNat := by
              rw [Nat.add_comm, List.drop_succ_cons]
            rw [h, hdrop]
            refine (ih (left - (1 + itemLen.toNat)) (by omega) (nssai.set cnt item) (cnt + 1)
              (buf.drop itemLen.toNat)).imp (fun h => ⟨⟨hcnt, hlen, h.1⟩, h.2⟩)
              (fun h => ⟨fun hin => h.1 hin.2.2, h.2⟩)
          · rw [decodeSnssaiItem_outside _ hitem (not_le.1 hlen)]
            exact .inr ⟨fun hin => hlen hin.2.1, rfl⟩
        · rw [dif_neg hcnt]
          exact .inr ⟨fun hin => hcnt hin.1, rfl⟩
      · rw [if_neg hitem, snssaisInside_unknown_iff hleft hitem]
        exact ih (left - 1) (by omega) nssai cnt buf

theorem reads_nssaiIe (nssai : Vector NrNasMsgSnssai nasMaxNumberSlices) (ba : List UInt8) :
    Reads (fun x => (x.1 : Int)) (decodeNssaiIe nssai ba) (nssaiExtent ba) := by
  unfold decodeNssaiIe nssaiExtent
  match ba with
  | [] => exact .outside
  | length :: ba =>
    change Reads _ (Except.bind (decodeNssaiItems nssai 0 length.toNat ba) _) _
    rcases decodeNssaiItems_inside_or nssai 0 length.toNat ba with ⟨hin, x, h⟩ | ⟨hout, h⟩
    · dsimp only
      rw [h, if_pos hin]
      exact .content _ _ rfl
    · dsimp only
      rw [h, if_neg hout]
      exact .outside

/-- The loop over the error causes stores one cause for two bytes, as long as there is room. -/
theorem decodeErrorCauses_inside_or (msg : FgsServiceAcceptMsg) (n : Nat) (ba : List UInt8) :
    (2 * n ≤ ba.length ∧ msg.cause.length + n ≤ maxNumPduErrors ∧
      ∃ msg', decodeErrorCauses msg n ba = .ok msg' ∧
        msg'.cause.length = msg.cause.length + n) ∨
    (¬ (2 * n ≤ ba.length ∧ msg.cause.length + n ≤ maxNumPduErrors) ∧
      decodeErrorCauses msg n ba = .error .outOfBounds) := by
  induction n generalizing msg ba with
  | zero => exact .inl ⟨Nat.zero_le _, msg.cause_length, msg, rfl, rfl⟩
  | succ n ih =>
    match ba with
    | [] | [_] =>
      exact .inr ⟨fun h => by
        simp only [List.length_nil, List.length_singleton] at h
        omega, rfl⟩
    | pduSessionId :: cause :: ba =>
      unfold decodeErrorCauses
      change (_ ∧ _ ∧ ∃ msg', Except.bind (msg.addCause ⟨pduSessionId, cause⟩)
        (fun msg => decodeErrorCauses msg n ba) = .ok msg' ∧ _) ∨
        (_ ∧ Except.bind (msg.addCause ⟨pduSessionId, cause⟩)
          (fun msg => decodeErrorCauses msg n ba) = _)
      unfold FgsServiceAcceptMsg.addCause
      simp only [List.length_cons]
      by_cases hroom : msg.cause.length < maxNumPduErrors
      · rw [dif_pos hroom]
        change (_ ∧ _ ∧ ∃ msg', decodeErrorCauses _ n ba = .ok msg' ∧ _) ∨
          (_ ∧ decodeErrorCauses _ n ba = _)
        have hstep := ih { msg with
          cause := msg.cause ++ [⟨pduSessionId, cause⟩]
          cause_length := by rw [List.length_append]; exact hroom } ba
        simp only [List.length_append, List.length_singleton] at hstep
        rcases hstep with ⟨hba, hcnt, msg', hok, hlen⟩ | ⟨hout, herr⟩
        · exact .inl ⟨by omega, by omega, msg', hok, by omega⟩
        · exact .inr ⟨fun h => hout ⟨by omega, by omega⟩, herr⟩
      · rw [dif_neg hroom]
        exact .inr ⟨fun h => by omega, rfl⟩

/-! ## The loops over the IEs -/

/-- One turn of a loop over IEs, for the extent of the IE. -/
def WalksOne {M : Type} (f : M → Nat → List UInt8 → Except NasFault (Int × M)) (stored : M → Nat)
    (msg : M) (decoded : Nat) (iei : UInt8) (ba : List UInt8) : IeExtent → Prop
  | .outside => f msg decoded (iei :: ba) = .error .outOfBounds
  | .stop => DecodesInside (f msg decoded (iei :: ba)) 0
  | .content len more =>
    (len ≤ ba.length → ∃ msg', stored msg' = stored msg + more ∧
      f msg decoded (iei :: ba) = f msg' (decoded + 1 + len) (ba.drop len)) ∧
    (ba.length < len →
      ¬ DecodesInside (f msg decoded (iei :: ba)) (decoded + 1 + ba.length))

/-- A loop that counts the bytes and drops them shows contents that do not fit in the count. -/
theorem WalksOne.of_drop {M : Type} {f : M → Nat → List UInt8 → Except NasFault (Int × M)}
    {stored : M → Nat} (hnil : ∀ msg decoded, f msg decoded [] = .ok ((decoded : Int), msg))
    {msg msg' : M} {decoded len more : Nat} {iei : UInt8} {ba : List UInt8}
    (hstored : stored msg' = stored msg + more)
    (h : f msg decoded (iei :: ba) = f msg' (decoded + 1 + len) (ba.drop len)) :
    WalksOne f stored msg decoded iei ba (.content len more) := by
  refine ⟨fun _ => ⟨msg', hstored, h⟩, fun hlen hinside => ?_⟩
  rw [h, List.drop_eq_nil_of_le hlen.le, hnil] at hinside
  change ((decoded + 1 + len : Nat) : Int) ≤ ((decoded + 1 + ba.length : Nat) : Int) at hinside
  omega

/-- The same for a loop that hands the IE to a decoder and goes on with `k`. -/
theorem WalksOne.of_reads {M α : Type} {f : M → Nat → List UInt8 → Except NasFault (Int × M)}
    {stored : M → Nat} (hnil : ∀ msg decoded, f msg decoded [] = .ok ((decoded : Int), msg))
    {size : α → Int} {r : Except NasFault α} {e : IeExtent} (hr : Reads size r e)
    {msg : M} {decoded : Nat} {iei : UInt8} {ba : List UInt8}
    {k : α → Except NasFault (Int × M)} (h : f msg decoded (iei :: ba) = Except.bind r k)
    (hstop : e = .stop → ∀ x, size x < 0 → DecodesInside (k x) 0)
    (hcontent : ∀ x (len : Nat), size x = len → ∃ msg', stored msg' = stored msg ∧
      k x = f msg' (decoded + 1 + len) (ba.drop len)) :
    WalksOne f stored msg decoded iei ba e := by
  cases hr with
  | outside => exact h
  | abort =>
    unfold WalksOne
    rw [h]
    rfl
  | stop x hx =>
    unfold WalksOne
    rw [h]
    exact hstop rfl x hx
  | content x len hx =>
    obtain ⟨msg', hstored, hk⟩ := hcontent x len hx
    exact .of_drop hnil hstored (h.trans hk)

/-- A loop that takes one IE after the other stays inside exactly where the IEs lie inside. -/
theorem decodesInside_walk_iff {M : Type}
    {f : M → Nat → List UInt8 → Except NasFault (Int × M)} {stored : M → Nat}
    {ie : Nat → UInt8 → List UInt8 → IeExtent}
    (hnil : ∀ msg decoded, f msg decoded [] = .ok ((decoded : Int), msg))
    (hcons : ∀ msg decoded iei ba,
      WalksOne f stored msg decoded iei ba (ie (stored msg) iei ba))
    (msg : M) (decoded : Nat) (ba : List UInt8) :
    DecodesInside (f msg decoded ba) (decoded + ba.length) ↔ IesInside ie (stored msg) ba := by
  induction hn : ba.length using Nat.strongRecOn generalizing msg decoded ba with
  | _ n ih =>
    subst hn
    match ba with
    | [] =>
      rw [hnil]
      exact iff_of_true le_rfl (.nil _)
    | iei :: ba =>
      have hone := hcons msg decoded iei ba
      rw [List.length_cons, ← Nat.add_assoc, Nat.add_right_comm]
      cases hie : ie (stored msg) iei ba with
      | outside =>
        rw [hie] at hone
        rw [show f msg decoded (iei :: ba) = _ from hone]
        exact iff_of_false nofun (not_iesInside_of_outside hie)
      | stop =>
        rw [hie] at hone
        exact iff_of_true (hone.mono (Nat.zero_le _)) (.stop hie)
      | content len more =>
        rw [hie] at hone
        have hinside : IesInside ie (stored msg) (iei :: ba) ↔
            len ≤ ba.length ∧ IesInside ie (stored msg + more) (ba.drop len) := by
          constructor
          · intro h
            cases h with
            | stop h => rw [hie] at h; cases h
            | content h hlen hrest =>
              rw [hie] at h
              cases h
              exact ⟨hlen, hrest⟩
          · rintro ⟨hlen, hrest⟩
            exact .content hie hlen hrest
        rw [hinside]
        by_cases hlen : len ≤ ba.length
        · obtain ⟨msg', hstored, h⟩ := hone.1 hlen
          rw [h, ← hstored, and_iff_right hlen, ← ih (ba.drop len).length (by simp) msg'
            (decoded + 1 + len) (ba.drop len) rfl, List.length_drop]
          have hsum : decoded + 1 + len + (ba.length - len) = decoded + 1 + ba.length := by omega
          rw [hsum]
        · exact iff_of_false (hone.2 (not_le.1 hlen)) fun h => hlen h.1

/-! ## The four decoders -/

theorem decodeServiceAcceptIes_nil (msg : FgsServiceAcceptMsg) (decoded : Nat) :
    decodeServiceAcceptIes msg decoded [] = .ok ((decoded : Int), msg) := by
  rw [decodeServiceAcceptIes]
  rfl

/-- After a refused IE the decoder returns `-1`. -/
theorem decodesInside_giveUp {α : Type} {n : Int} (h : n < 0) (x : α)
    (r : Except NasFault (Int × α)) (len : Nat) :
    DecodesInside (if n < 0 then .ok (-1, x) else r) len := by
  rw [if_pos h]
  change (-1 : Int) ≤ len
  omega

theorem goOn_eq {α : Type} {n : Int} {len : Nat} (h : n = len) (a : α) (rest : Nat → α) :
    (if n < 0 then a else rest n.toNat) = rest len := by
  subst h
  exact if_neg (by omega)

theorem toNat_eq {n : Int} {len : Nat} (h : n = len) : n.toNat = len := by
  rw [h, Int.toNat_natCast]

theorem gprsTimerExtent_ne_stop (ba : List UInt8) : gprsTimerExtent ba ≠ .stop := by
  unfold gprsTimerExtent
  split <;> nofun

theorem longExtent_ne_stop (ba : List UInt8) : longExtent ba ≠ .stop := by
  unfold longExtent
  split <;> nofun

theorem walksOne_errorCauses (msg : FgsServiceAcceptMsg) (decoded : Nat) (iei : UInt8)
    (ba : List UInt8)
    (h : decodeServiceAcceptIes msg decoded (iei :: ba) = do
      let errorLen ← readLength ba
      if errorLen > maxNumPduErrors * 2 then return (-1, msg)
      let n := (errorLen + 1) / 2
      let msg ← decodeErrorCauses msg n (ba.drop 2)
      decodeServiceAcceptIes msg (decoded + 1 + (2 + 2 * n)) (ba.drop (2 + 2 * n))) :
    WalksOne decodeServiceAcceptIes (·.cause.length) msg decoded iei ba
      (errorCausesExtent msg.cause.length ba) := by
  match ba with
  | [] | [_] => exact h
  | high :: low :: ba =>
    obtain ⟨errorLen, herrorLen⟩ : ∃ n, high.toNat * 256 + low.toNat = n := ⟨_, rfl⟩
    have hread : readLength (high :: low :: ba) = .ok errorLen := congrArg Except.ok herrorLen
    unfold errorCausesExtent
    dsimp only
    rw [hread] at h
    rw [herrorLen]
    change _ = (if errorLen > maxNumPduErrors * 2 then _ else _) at h
    by_cases hlong : errorLen > maxNumPduErrors * 2
    · rw [if_pos hlong] at h ⊢
      change DecodesInside _ 0
      rw [h]
      exact Int.negSucc_le_zero 0
    rw [if_neg hlong] at h ⊢
    change _ = Except.bind (decodeErrorCauses msg ((errorLen + 1) / 2) ba) _ at h
    rcases decodeErrorCauses_inside_or msg ((errorLen + 1) / 2) ba with
      ⟨hba, hroom, msg', hok, hlen⟩ | ⟨hout, herr⟩
    · rw [if_pos ⟨hba, hroom⟩]
      rw [hok] at h
      exact .of_drop decodeServiceAcceptIes_nil hlen h
    · rw [if_neg hout]
      rw [herr] at h
      exact h

theorem walksOne_serviceAccept (msg : FgsServiceAcceptMsg) (decoded : Nat) (iei : UInt8)
    (ba : List UInt8) :
    WalksOne decodeServiceAcceptIes (·.cause.length) msg decoded iei ba
      (serviceAcceptExtent msg.cause.length iei ba) := by
  unfold serviceAcceptExtent
  have hdef := decodeServiceAcceptIes.eq_def msg decoded (iei :: ba)
  dsimp only at hdef
  by_cases hstatus : iei = ieiPduSessionStatus
  · rw [if_pos hstatus] at hdef ⊢
    refine .of_reads decodeServiceAcceptIes_nil (reads_pduSessionIe msg.psiStatus ba) hdef
      (fun _ x hx => decodesInside_giveUp hx _ _ _) fun x len hx => ?_
    exact ⟨{ msg with hasPsiStatus := true, psiStatus := x.2 }, rfl, goOn_eq hx _
      fun n => decodeServiceAcceptIes _ (decoded + 1 + n) (ba.drop n)⟩
  rw [if_neg hstatus] at hdef ⊢
  by_cases hres : iei = ieiPduSessionReactResult
  · rw [if_pos hres] at hdef ⊢
    refine .of_reads decodeServiceAcceptIes_nil (reads_pduSessionIe msg.psiRes ba) hdef
      (fun _ x hx => decodesInside_giveUp hx _ _ _) fun x len hx => ?_
    exact ⟨{ msg with hasPsiRes := true, psiRes := x.2 }, rfl, goOn_eq hx _
      fun n => decodeServiceAcceptIes _ (decoded + 1 + n) (ba.drop n)⟩
  rw [if_neg hres] at hdef ⊢
  by_cases herror : iei = ieiPduSessionReactResultErrorCause
  · rw [if_pos herror] at hdef ⊢
    exact walksOne_errorCauses msg decoded iei ba hdef
  rw [if_neg herror] at hdef ⊢
  by_cases ht3448 : iei = ieiT3448Value
  · rw [if_pos ht3448] at hdef ⊢
    refine .of_reads decodeServiceAcceptIes_nil (reads_gprsTimerIe ba) hdef
      (fun h => absurd h (gprsTimerExtent_ne_stop ba)) fun x len hx => ?_
    exact ⟨{ msg with t3448 := some x.2 }, rfl, congrArg (fun n => decodeServiceAcceptIes _
      (decoded + 1 + n) (ba.drop n)) (toNat_eq hx)⟩
  rw [if_neg ht3448] at hdef ⊢
  by_cases heap : iei = ieiEapmsg
  · rw [if_pos heap] at hdef ⊢
    refine .of_reads decodeServiceAcceptIes_nil (reads_eapMsgIe ba) hdef
      (fun h => absurd h (longExtent_ne_stop ba)) fun ret len hret => ?_
    exact ⟨msg, rfl, congrArg (fun n => decodeServiceAcceptIes _ (decoded + 1 + n) (ba.drop n))
      (toNat_eq hret)⟩
  rw [if_neg heap] at hdef ⊢
  change DecodesInside _ 0
  rw [hdef]
  exact Int.negSucc_le_zero 0

theorem decodeServiceRejectIes_nil (msg : FgsServiceRejectMsg) (decoded : Nat) :
    decodeServiceRejectIes msg decoded [] = .ok ((decoded : Int), msg) := by
  rw [decodeServiceRejectIes]
  rfl

theorem walksOne_serviceReject (msg : FgsServiceRejectMsg) (decoded : Nat) (iei : UInt8)
    (ba : List UInt8) :
    WalksOne decodeServiceRejectIes (fun _ => 0) msg decoded iei ba
      (serviceRejectExtent 0 iei ba) := by
  unfold serviceRejectExtent
  have hdef := decodeServiceRejectIes.eq_def msg decoded (iei :: ba)
  dsimp only at hdef
  by_cases hstatus : iei = ieiPduSessionStatus
  · rw [if_pos hstatus] at hdef ⊢
    refine .of_reads decodeServiceRejectIes_nil (reads_pduSessionIe msg.psiStatus ba) hdef
      (fun _ x hx => decodesInside_giveUp hx _ _ _) fun x len hx => ?_
    exact ⟨{ msg with hasPsiStatus := true, psiStatus := x.2 }, rfl, goOn_eq hx _
      fun n => decodeServiceRejectIes _ (decoded + 1 + n) (ba.drop n)⟩
  rw [if_neg hstatus] at hdef ⊢
  by_cases ht3448 : iei = ieiT3448Value
  · rw [if_pos ht3448] at hdef ⊢
    refine .of_reads decodeServiceRejectIes_nil (reads_gprsTimerIe ba) hdef
      (fun h => absurd h (gprsTimerExtent_ne_stop ba)) fun x len hx => ?_
    exact ⟨{ msg with t3448 := some x.2 }, rfl, congrArg (fun n => decodeServiceRejectIes _
      (decoded + 1 + n) (ba.drop n)) (toNat_eq hx)⟩
  rw [if_neg ht3448] at hdef ⊢
  by_cases ht3446 : iei = ieiT3446Value
  · rw [if_pos ht3446] at hdef ⊢
    refine .of_reads decodeServiceRejectIes_nil (reads_gprsTimerIe ba) hdef
      (fun h => absurd h (gprsTimerExtent_ne_stop ba)) fun x len hx => ?_
    exact ⟨{ msg with t3446 := some x.2 }, rfl, congrArg (fun n => decodeServiceRejectIes _
      (decoded + 1 + n) (ba.drop n)) (toNat_eq hx)⟩
  rw [if_neg ht3446] at hdef ⊢
  by_cases heap : iei = ieiEapmsg
  · rw [if_pos heap] at hdef ⊢
    refine .of_reads decodeServiceRejectIes_nil (reads_eapMsgIe ba) hdef
      (fun h => absurd h (longExtent_ne_stop ba)) fun ret len hret => ?_
    exact ⟨msg, rfl, congrArg (fun n => decodeServiceRejectIes _ (decoded + 1 + n) (ba.drop n))
      (toNat_eq hret)⟩
  rw [if_neg heap] at hdef ⊢
  by_cases hcag : iei = ieiCagInfoList
  · rw [if_pos hcag] at hdef ⊢
    refine .of_reads decodeServiceRejectIes_nil (reads_readLength ba) hdef
      (fun h => absurd h (longExtent_ne_stop ba)) fun cagListLen len hlen => ?_
    have hcagLen : cagListLen + 2 = len := by omega
    exact ⟨msg, rfl, congrArg (fun n => decodeServiceRejectIes _ (decoded + 1 + n) (ba.drop n))
      hcagLen⟩
  rw [if_neg hcag] at hdef ⊢
  change DecodesInside _ 0
  rw [hdef]
  exact Int.negSucc_le_zero 0

/-- The loop of `decode_registration_accept` with the count of bytes it ends with. -/
def registrationAcceptWalk (msg : RegistrationAcceptMsg) (decoded : Nat) (ba : List UInt8) :
    Except NasFault (Int × RegistrationAcceptMsg) :=
  (decodeRegistrationAcceptIes msg ba).map fun msg => (((decoded + ba.length : Nat) : Int), msg)

theorem Reads.map {α β : Type} {size : α → Int} {size' : β → Int} {r : Except NasFault α}
    {e : IeExtent} (h : Reads size r e) {k : α → β} (hk : ∀ x, size' (k x) = size x) :
    Reads size' (r.map k) e := by
  cases h with
  | outside => exact .outside
  | stop x hx => exact .stop _ ((hk x).trans_lt hx)
  | abort => exact .abort
  | content x len hx => exact .content _ _ ((hk x).trans hx)

theorem reads_registrationAcceptIe (msg : RegistrationAcceptMsg) (iei : UInt8) (ba : List UInt8) :
    Reads (fun x => (x.1 : Int)) (decodeRegistrationAcceptIe msg iei ba)
      (registrationAcceptExtent 0 iei ba) := by
  unfold decodeRegistrationAcceptIe registrationAcceptExtent
  by_cases hallowed : iei = 0x15
  · rw [if_pos hallowed, if_pos hallowed]
    change Reads _ (Except.map _ (decodeNssaiIe msg.nasAllowedNssai ba)) _
    exact (reads_nssaiIe msg.nasAllowedNssai ba).map fun _ => rfl
  rw [if_neg hallowed, if_neg hallowed]
  by_cases hconfig : iei = 0x31
  · rw [if_pos hconfig, if_pos hconfig]
    change Reads _ (Except.map _ (decodeNssaiIe msg.configNssai ba)) _
    exact (reads_nssaiIe msg.configNssai ba).map fun _ => rfl
  rw [if_neg hconfig, if_neg hconfig]
  match ba with
  | [] => exact .outside
  | length :: _ => exact .content _ _ rfl

theorem decodeRegistrationAcceptIes_cons (msg : RegistrationAcceptMsg) (iei : UInt8)
    (ba : List UInt8) :
    decodeRegistrationAcceptIes msg (iei :: ba) =
      Except.bind (decodeRegistrationAcceptIe msg iei ba) fun x =>
        Except.bind (updateByteArray ba x.1) (decodeRegistrationAcceptIes x.2) := by
  rw [decodeRegistrationAcceptIes]
  cases decodeRegistrationAcceptIe msg iei ba with
  | error fault => rfl
  | ok x =>
    dsimp only
    change _ = Except.bind (updateByteArray ba x.1) _
    split
    · rename_i h
      rw [h]
      rfl
    · rename_i h
      rw [h]
      rfl

/-- The loop takes what does not fit in the count for a fault. -/
theorem walksOne_registrationAccept (msg : RegistrationAcceptMsg) (decoded : Nat) (iei : UInt8)
    (ba : List UInt8) :
    WalksOne registrationAcceptWalk (fun _ => 0) msg decoded iei ba
      (registrationAcceptExtent 0 iei ba) := by
  have hwalk := congrArg (Except.map fun msg => (((decoded + (iei :: ba).length : Nat) : Int), msg))
    (decodeRegistrationAcceptIes_cons msg iei ba)
  change registrationAcceptWalk msg decoded (iei :: ba) = _ at hwalk
  have hr := reads_registrationAcceptIe msg iei ba
  generalize decodeRegistrationAcceptIe msg iei ba = r at hwalk hr
  generalize registrationAcceptExtent 0 iei ba = e at hr
  cases hr with
  | outside => exact hwalk
  | abort =>
    change DecodesInside _ 0
    rw [hwalk]
    rfl
  | stop x hx => exact absurd hx (not_lt.2 (Int.natCast_nonneg x.1))
  | content x len hx =>
    have hlen : x.1 = len := Int.ofNat.inj hx
    change _ = Except.map _ (Except.bind (updateByteArray ba x.1) _) at hwalk
    unfold updateByteArray at hwalk
    rw [hlen] at hwalk
    constructor
    · intro hba
      rw [if_pos hba] at hwalk
      have hcount : decoded + (iei :: ba).length = decoded + 1 + len + (ba.drop len).length := by
        rw [List.length_cons, List.length_drop]
        omega
      rw [hcount] at hwalk
      exact ⟨x.2, rfl, hwalk⟩
    · intro hba hinside
      rw [if_neg (not_le.2 hba)] at hwalk
      rw [hwalk] at hinside
      cases hinside

/-! ## The result -/

/-- The IEs of a Registration Accept, `decoded` bytes in. -/
theorem registrationAcceptIes_inside_iff (msg : RegistrationAcceptMsg) (decoded : Nat)
    (ba : List UInt8) :
    DecodesInside ((decodeRegistrationAcceptIes msg ba).map fun msg =>
      (((decoded + ba.length : Nat) : Int), msg)) (decoded + ba.length) ↔
      IesInside registrationAcceptExtent 0 ba := by
  have hnil (msg : RegistrationAcceptMsg) (decoded : Nat) :
      registrationAcceptWalk msg decoded [] = .ok ((decoded : Int), msg) := by
    unfold registrationAcceptWalk
    rw [decodeRegistrationAcceptIes]
    rfl
  exact decodesInside_walk_iff hnil walksOne_registrationAccept msg decoded ba

theorem le_of_mobileIdentityExtentFrom {decoded : Nat} {buffer : List UInt8} {len more : Nat}
    (h : mobileIdentityExtentFrom decoded buffer = .content len more) : len ≤ buffer.length := by
  unfold mobileIdentityExtentFrom at h
  split at h
  · cases h
  split at h
  · cases h
  split at h
  · cases h
  rename_i octet3 rest hbuffer
  split at h
  · cases h
  split at h
  · cases h
    have hlen := congrArg List.length hbuffer
    rw [List.length_drop, List.length_cons] at hlen
    omega
  · cases h

/-- The 5G-GUTI lies inside the buffer. -/
theorem le_of_mobileIdentityExtent {iei : UInt8} {buffer : List UInt8} {len more : Nat}
    (h : mobileIdentityExtent iei buffer = .content len more) : len ≤ buffer.length := by
  unfold mobileIdentityExtent at h
  split at h
  · match buffer with
    | [] => cases h
    | octet1 :: rest =>
      dsimp only at h
      split at h
      · cases h
      · exact le_of_mobileIdentityExtentFrom h
  · exact le_of_mobileIdentityExtentFrom h

theorem registrationAccept_inside_iff (msg : RegistrationAcceptMsg) (buffer : List UInt8) :
    DecodesInside (decodeRegistrationAccept msg buffer) buffer.length ↔
      RegistrationAcceptInside buffer := by
  unfold RegistrationAcceptInside decodeRegistrationAccept
  by_cases hshort : buffer.length < 2
  · rw [if_pos hshort, if_pos hshort]
    exact iff_of_true (show (-1 : Int) ≤ buffer.length by omega) trivial
  rw [if_neg hshort, if_neg hshort]
  match buffer with
  | [] | [_] => simp at hshort
  | octet1 :: octet2 :: ba =>
    have hhead : (octet1 :: octet2 :: ba)[2]? = ba.head? := by
      cases ba <;> rfl
    rw [hhead]
    change DecodesInside (if ba.head? = some iei5gGuti then _ else _) _ ↔ _
    by_cases hguti : ba.head? = some iei5gGuti
    · rw [if_pos hguti, if_pos hguti]
      have hr := reads_5gsMobileIdentity .zero iei5gGuti ba
      have hdrop (len : Nat) : (octet1 :: octet2 :: ba).drop (2 + len) = ba.drop len := by
        rw [Nat.add_comm]
        rfl
      change DecodesInside (Except.bind
        (decode5gsMobileIdentity .zero iei5gGuti ba ba.length) _) _ ↔ _
      simp only [hdrop, List.drop_succ_cons, List.drop_zero]
      generalize decode5gsMobileIdentity .zero iei5gGuti ba ba.length = r at hr ⊢
      generalize he : mobileIdentityExtent iei5gGuti ba = e at hr ⊢
      cases hr with
      | outside => exact iff_of_false nofun id
      | abort => exact iff_of_true rfl trivial
      | stop x hx => exact iff_of_true (decodesInside_giveUp hx _ _ _) trivial
      | content x len hx =>
        change DecodesInside (if x.1 < 0 then _ else Except.bind
          (updateByteArray ba x.1.toNat) _) _ ↔ IesInside registrationAcceptExtent 0 (ba.drop len)
        have hlen := le_of_mobileIdentityExtent he
        unfold updateByteArray
        rw [if_neg (by omega), toNat_eq hx, if_pos hlen]
        have h := registrationAcceptIes_inside_iff { msg with
          result := octet2 &&& 0x7
          smsAllowed := octet2 &&& 0x8 ≠ 0
          guti := some x.2 } (2 + len) (ba.drop len)
        have hcount : 2 + len + (ba.drop len).length = (octet1 :: octet2 :: ba).length := by
          rw [List.length_drop, List.length_cons, List.length_cons]
          omega
        rw [hcount] at h
        exact h
    · rw [if_neg hguti, if_neg hguti]
      have h := registrationAcceptIes_inside_iff { msg with
        result := octet2 &&& 0x7
        smsAllowed := octet2 &&& 0x8 ≠ 0 } 2 ba
      rw [Nat.add_comm] at h
      exact h

theorem serviceAccept_inside_iff (msg : FgsServiceAcceptMsg) (buffer : List UInt8) :
    DecodesInside (decodeFgsServiceAccept msg buffer) buffer.length ↔
      IesInside serviceAcceptExtent 0 buffer := by
  match buffer with
  | [] => exact iff_of_true (Int.negSucc_le_zero 0) (.nil 0)
  | iei :: ba =>
    have h := decodesInside_walk_iff decodeServiceAcceptIes_nil walksOne_serviceAccept { msg with
      hasPsiRes := false
      hasPsiStatus := false
      cause := []
      cause_length := Nat.zero_le _
      t3448 := none } 0 (iei :: ba)
    rw [Nat.zero_add] at h
    exact h

theorem serviceReject_inside_iff (msg : FgsServiceRejectMsg) (buffer : List UInt8) :
    DecodesInside (decodeFgsServiceReject msg buffer) buffer.length ↔
      ServiceRejectInside buffer := by
  match buffer with
  | [] => exact iff_of_true (Int.negSucc_le_zero 0) (.nil 0)
  | cause :: ba =>
    have h := decodesInside_walk_iff decodeServiceRejectIes_nil walksOne_serviceReject
      { msg with cause := cause } 1 ba
    rw [Nat.add_comm] at h
    exact h

theorem mobileIdentity_inside_iff (guti : Guti5GSMobileIdentity) (iei : UInt8)
    (buffer : List UInt8) :
    DecodesInside (decode5gsMobileIdentity guti iei buffer buffer.length) buffer.length ↔
      mobileIdentityExtent iei buffer ≠ .outside := by
  have hr := reads_5gsMobileIdentity guti iei buffer
  generalize decode5gsMobileIdentity guti iei buffer buffer.length = r at hr ⊢
  generalize he : mobileIdentityExtent iei buffer = e at hr ⊢
  cases hr with
  | outside => exact iff_of_false nofun fun h => h rfl
  | abort => exact iff_of_true rfl nofun
  | stop x hx => exact iff_of_true (show x.1 ≤ _ by omega) nofun
  | content x len hx =>
    have hlen := le_of_mobileIdentityExtent he
    exact iff_of_true (show x.1 ≤ _ by omega) nofun

/-- Each of the decoders stays inside its buffer exactly for the byte strings whose IEs lie inside :
`decode_pdu_session_ie` asks for the bytes it reads, the decoders of the other IEs do not. -/
theorem nas_decoders_inside_iff (msg : RegistrationAcceptMsg) (guti : Guti5GSMobileIdentity)
    (iei : UInt8) (accept : FgsServiceAcceptMsg) (reject : FgsServiceRejectMsg)
    (buffer : List UInt8) :
    (DecodesInside (decodeRegistrationAccept msg buffer) buffer.length ↔
      RegistrationAcceptInside buffer) ∧
    (DecodesInside (decode5gsMobileIdentity guti iei buffer buffer.length) buffer.length ↔
      mobileIdentityExtent iei buffer ≠ .outside) ∧
    (DecodesInside (decodeFgsServiceAccept accept buffer) buffer.length ↔
      IesInside serviceAcceptExtent 0 buffer) ∧
    (DecodesInside (decodeFgsServiceReject reject buffer) buffer.length ↔
      ServiceRejectInside buffer) :=
  ⟨registrationAccept_inside_iff msg buffer, mobileIdentity_inside_iff guti iei buffer,
    serviceAccept_inside_iff accept buffer, serviceReject_inside_iff reject buffer⟩

/-- A Registration Accept message before it is decoded. -/
def RegistrationAcceptMsg.zero : RegistrationAcceptMsg :=
  ⟨0, false, none, .replicate 8 ⟨0, none, none, none⟩, 0, .replicate 8 ⟨0, none, none, none⟩, 0⟩

/-- A cut off IE is read behind the buffer : an optional IE without its length, a 5G-GUTI of one
byte, a T3448 without its value, and a T3446. Nine slices do not fit their array. -/
theorem nas_decoders_outside :
    ¬ DecodesInside (decodeRegistrationAccept .zero [1, 1, 0x5e]) 3 ∧
    ¬ DecodesInside (decodeRegistrationAccept .zero
      ([1, 1, 0x15, 18] ++ (List.replicate 9 [1, 1]).flatten)) 22 ∧
    ¬ DecodesInside (decode5gsMobileIdentity .zero 0x77 [0x77, 1, 0, 0xf2] 4) 4 ∧
    ¬ DecodesInside (decodeFgsServiceAccept .zero [0x6b]) 1 ∧
    ¬ DecodesInside (decodeFgsServiceReject .zero [9, 0x5f, 1]) 3 := by
  have hslices := not_snssaisInside_replicate (n := 9) (by decide) (show 8 < 0 + 9 by decide)
  refine ⟨fun h => ?_, fun h => ?_, fun h => ?_, fun h => ?_, fun h => ?_⟩
  · exact not_iesInside_of_outside rfl ((registrationAccept_inside_iff _ [1, 1, 0x5e]).1 h)
  · exact not_iesInside_of_outside (if_neg hslices)
      ((registrationAccept_inside_iff _ ([1, 1, 0x15, 18] ++ _)).1 h)
  · exact (mobileIdentity_inside_iff _ 0x77 [0x77, 1, 0, 0xf2]).1 h rfl
  · exact not_iesInside_of_outside rfl ((serviceAccept_inside_iff _ [0x6b]).1 h)
  · exact not_iesInside_of_outside rfl ((serviceReject_inside_iff _ [9, 0x5f, 1]).1 h)

end NrStack
