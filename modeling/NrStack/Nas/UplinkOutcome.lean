import NrStack.Nas.Uplink

/-!
# What a generator can do

One case analysis per generator (`GeneratorOutcome`) : a null pointer or an assertion stops it,
it leaves no message, it leaves a plain message and COUNT alone, or it leaves a message protected
under the stored COUNT, which it moves on by one. The size discipline and the COUNT discipline
are both read off it.
-/

namespace NrStack

variable {env : NasEnv} {nas nas' : NrUeNasState} {msg : AsNasInfo}

/-! ## Protected messages -/

/-- The bytes of a security header. -/
def securityHeaderBytes (header : FgsNasMessageSecurityHeader) : List UInt8 :=
  [header.protocolDiscriminator, header.securityHeaderType &&& 0xf] ++
    htonl header.messageAuthenticationCode ++ [header.sequenceNumber]

/-- The bytes of a plain header. -/
def mmHeaderBytes (header : FgmmMsgHeader) : List UInt8 :=
  [header.exProtocolDiscriminator, header.securityHeaderType &&& 0xf, header.messageType]

/-- The message lies in its buffer. -/
def AsNasInfo.Inside (msg : AsNasInfo) : Prop :=
  0 ≤ msg.length ∧ msg.length ≤ msg.nasData.length

/-- The message is protected under `count` : the header has its low byte, the MAC over sequence
number and message is the one under it, and the message behind the header is a 5GMM message of
`type`, ciphered under it unless it is a Registration Request. -/
structure ProtectedUnder (env : NasEnv) (container : StreamSecurityContainer) (count : UInt32)
    (msg : AsNasInfo) : Prop where
  inside : msg.Inside
  type : ∃ header : SecurityHeader, header ≠ .plain5gsMsg ∧ msg.nasData[1]? = some header.toByte
  sequenceNumber : msg.nasData[6]? = some (count &&& 0xff).toUInt8
  mac : (msg.nasData.drop 2).take nasIntegritySize =
    env.crypto.mac container.integrityContext 1 count.toNat 0 (msg.from 6)
  payload : ∃ (header : FgmmMsgHeader) (plain : List UInt8),
    plain.take 3 = mmHeaderBytes header ∧
    msg.from 7 = if header.messageType = FgsNasMsg.registrationRequest.toByte then plain
      else env.crypto.cipher container.cipheringContext 1 count.toNat 0 plain

/-- What a generator can do. -/
inductive GeneratorOutcome (env : NasEnv) (nas : NrUeNasState) :
    Except NasFault (Option AsNasInfo × NrUeNasState) → Prop
  | stopped {fault : NasFault} : fault = .nullPointer ∨ fault = .assertFatal →
      GeneratorOutcome env nas (.error fault)
  | silent : GeneratorOutcome env nas (.ok (none, nas))
  | plain {msg : AsNasInfo} : msg.Inside →
    msg.nasData[1]? = some SecurityHeader.plain5gsMsg.toByte →
      GeneratorOutcome env nas (.ok (some msg, nas))
  | secured {msg : AsNasInfo} {nas' : NrUeNasState} {container : StreamSecurityContainer} :
      nas.securityContainer = some container → nas.security.nasCountUl ≤ 0xffffff →
      ProtectedUnder env container nas.security.nasCountUl msg →
      nas'.securityContainer = some container →
      nas'.security.nasCountUl = nas.security.nasCountUl + 1 →
      GeneratorOutcome env nas (.ok (some msg, nas'))

/-! ## Encoding into a fresh buffer -/

/-- The security header as the first thing written. -/
theorem nasProtectedSecurityHeaderEncode_eq (header : FgsNasMessageSecurityHeader) {length : Int}
    (hlength : 7 ≤ length) {b : List UInt8} (hb : 7 ≤ b.length) :
    nasProtectedSecurityHeaderEncode 0 header length b =
      .ok (7, overwrite b 0 (securityHeaderBytes header)) := by
  have hstore : encodeBytes 0 (securityHeaderBytes header) b =
      .ok ((), overwrite b 0 (securityHeaderBytes header)) :=
    if_pos (by simpa [securityHeaderBytes] using hb)
  unfold nasProtectedSecurityHeaderEncode securityProtected5gsNasMessageHeaderLength
  rw [if_neg (by omega)]
  exact bind_of_ok hstore

/-- The plain header. -/
theorem nasMmMsgEncodeHeader_eq (header : FgmmMsgHeader) {buffer len : Nat} (hlen : 3 ≤ len)
    (h : header.exProtocolDiscriminator = fgsMobilityManagementMessage) {b : List UInt8}
    (hb : buffer + 3 ≤ b.length) :
    nasMmMsgEncodeHeader header buffer len b =
      .ok (3, overwrite b buffer (mmHeaderBytes header)) := by
  have hstore : encodeBytes buffer (mmHeaderBytes header) b =
      .ok ((), overwrite b buffer (mmHeaderBytes header)) :=
    if_pos (by simpa [mmHeaderBytes] using hb)
  unfold nasMmMsgEncodeHeader sizeofFgmmMsgHeader
  rw [if_neg (by omega), if_neg (not_not.2 h)]
  exact bind_of_ok hstore

/-- A plain message, of which the encoder counts `k` bytes. -/
theorem mmMsgEncode_eq {p : FgmmNasMessagePlain} {buffer len n k : Nat} (hlen : 3 ≤ len)
    (h : Stores (p.mmMsg.encode (buffer + 3) (len - 3)) (buffer + 3) (buffer + 3 + n) (k : Int))
    {b : List UInt8} (hb : buffer + 3 + n ≤ b.length) :
    ∃ b', mmMsgEncode p buffer len b = .ok (((3 + k : Nat) : Int), b') ∧ b'.length = b.length ∧
      b'.take buffer = b.take buffer ∧ (b'.drop buffer).take 3 = mmHeaderBytes p.header := by
  have hfit : buffer + (mmHeaderBytes p.header).length ≤ b.length := by
    simp only [mmHeaderBytes, List.length_cons, List.length_nil]
    omega
  have hheader := nasMmMsgEncodeHeader_eq p.header hlen rfl
    (by omega : buffer + 3 ≤ b.length)
  obtain ⟨b', hmsg, hlen', hframe⟩ := h (overwrite b buffer (mmHeaderBytes p.header))
    (by rw [length_overwrite hfit]; exact hb)
  have htake : b'.take (buffer + 3) =
      (overwrite b buffer (mmHeaderBytes p.header)).take (buffer + 3) := by
    refine List.ext_getElem? fun i => ?_
    by_cases hi : i < buffer + 3
    · rw [List.getElem?_take_of_lt hi, List.getElem?_take_of_lt hi, hframe i (.inl hi)]
    · rw [List.getElem?_eq_none (by simp; omega), List.getElem?_eq_none (by simp; omega)]
  refine ⟨b', ?_, hlen'.trans (length_overwrite hfit), ?_, ?_⟩
  · rw [mmMsgEncode, bind_of_ok hheader, if_neg (by decide)]
    refine (bind_of_ok hmsg).trans ?_
    rw [if_neg (by omega), Nat.cast_add 3]
    rfl
  · have := congrArg (List.take buffer) htake
    rwa [List.take_take, List.take_take, min_eq_left (by omega), take_overwrite hfit] at this
  · have := congrArg (List.drop buffer) htake
    rw [List.drop_take, List.drop_take, Nat.add_sub_cancel_left, drop_overwrite hfit] at this
    rw [this]
    rfl

/-- The security header and a message behind it. -/
theorem encodeProtected_eq (header : FgsNasMessageSecurityHeader) {p : FgmmNasMessagePlain}
    {size n k : Nat} (hsize : 10 ≤ size)
    (h : Stores (p.mmMsg.encode 10 (size - 7 - 3)) 10 (10 + n) (k : Int)) {b : List UInt8}
    (hb : 10 + n ≤ b.length) :
    ∃ b', encodeProtected header p size b = .ok (((10 + k : Nat) : Int), b') ∧
      b'.length = b.length ∧ b'.take 7 = securityHeaderBytes header ∧
      (b'.drop 7).take 3 = mmHeaderBytes p.header := by
  have hfit : 0 + (securityHeaderBytes header).length ≤ b.length := by
    simp [securityHeaderBytes]
    omega
  have hheader := nasProtectedSecurityHeaderEncode_eq header (by omega : 7 ≤ (size : Int))
    (by omega : 7 ≤ b.length)
  obtain ⟨b', hmsg, hlen, htake, hdrop⟩ := mmMsgEncode_eq (by omega : 3 ≤ size - 7) h
    (b := overwrite b 0 (securityHeaderBytes header)) (by rw [length_overwrite hfit]; omega)
  refine ⟨b', ?_, hlen.trans (length_overwrite hfit), htake, hdrop⟩
  rw [encodeProtected, bind_of_ok hheader]
  refine (bind_of_ok hmsg).trans ?_
  have hsum : (7 : Int) + ((3 + k : Nat) : Int) = ((10 + k : Nat) : Int) := by
    push_cast
    ring
  rw [hsum]
  rfl

/-! ## The ciphering and integrity blocks -/

theorem AsNasInfo.Inside.put {off : Nat} {bytes : List UInt8} (h : msg.Inside)
    (hfit : off + bytes.length ≤ msg.nasData.length) : (msg.put off bytes).Inside := by
  refine ⟨h.1, ?_⟩
  unfold AsNasInfo.put
  rw [length_overwrite hfit]
  exact h.2

/-- The ciphered message is as long as what it replaces. -/
theorem length_cipher_from (k : PdcpCrypto) (c : StreamSecurityContext) (count : Nat)
    (h7 : 7 ≤ msg.length) (hin : msg.Inside) :
    7 + (k.cipher c 1 count 0 (msg.from 7)).length = msg.length.toNat := by
  have hfrom : (msg.from 7).length = msg.length.toNat - 7 := by
    have := hin.2
    simp only [AsNasInfo.from, List.length_take, List.length_drop]
    omega
  have hcipher : (k.cipher c 1 count 0 (msg.from 7)).length = (msg.from 7).length := by
    simp [PdcpCrypto.cipher, k.keystream_length]
  omega

theorem cipherNas_cases (env : NasEnv) (nas : NrUeNasState) (h7 : 7 ≤ msg.length)
    (hin : msg.Inside) :
    (∃ fault : NasFault, (fault = .nullPointer ∨ fault = .assertFatal) ∧
      cipherNas env nas msg = .error fault) ∨
    ∃ container, nas.securityContainer = some container ∧ nas.security.nasCountUl ≤ 0xffffff ∧
      cipherNas env nas msg = .ok (msg.put 7 (env.crypto.cipher container.cipheringContext 1
        nas.security.nasCountUl.toNat 0 (msg.from 7))) := by
  have hguard : ¬(msg.length < 7 ∨ (msg.nasData.length : Int) < msg.length) := by
    have := hin.2
    omega
  unfold cipherNas
  rw [if_neg hguard]
  unfold NrUeNasState.container assertNasCountUl
  cases hcontainer : nas.securityContainer with
  | none => exact .inl ⟨.nullPointer, .inl rfl, rfl⟩
  | some container =>
    by_cases hcount : nas.security.nasCountUl ≤ 0xffffff
    · rw [if_pos hcount]
      exact .inr ⟨container, rfl, hcount, rfl⟩
    · rw [if_neg hcount]
      exact .inl ⟨.assertFatal, .inr rfl, rfl⟩

theorem integrityNas_cases (env : NasEnv) (nas : NrUeNasState) (h6 : 6 ≤ msg.length)
    (hin : msg.Inside) :
    integrityNas env nas msg = .error .nullPointer ∨
    ∃ container, nas.securityContainer = some container ∧
      integrityNas env nas msg = .ok (msg.put 2 (env.crypto.mac container.integrityContext 1
          nas.security.nasCountUl.toNat 0 (msg.from 6)),
        { nas with security :=
          { nas.security with nasCountUl := nas.security.nasCountUl + 1 } }) := by
  have hguard : ¬(msg.length < 6 ∨ (msg.nasData.length : Int) < msg.length) := by
    have := hin.2
    omega
  unfold integrityNas
  rw [if_neg hguard]
  unfold NrUeNasState.container
  cases nas.securityContainer with
  | none => exact .inl rfl
  | some container => exact .inr ⟨container, rfl, rfl⟩

/-- The MAC goes into the header, and leaves what it covers alone. -/
theorem ProtectedUnder.of_mac {container : StreamSecurityContainer} {count : UInt32}
    (h7 : 7 ≤ msg.length) (hin : msg.Inside)
    (htype : ∃ header : SecurityHeader, header ≠ .plain5gsMsg ∧
      msg.nasData[1]? = some header.toByte)
    (hsn : msg.nasData[6]? = some (count &&& 0xff).toUInt8)
    (hpayload : ∃ (header : FgmmMsgHeader) (plain : List UInt8),
      plain.take 3 = mmHeaderBytes header ∧
      msg.from 7 = if header.messageType = FgsNasMsg.registrationRequest.toByte then plain
        else env.crypto.cipher container.cipheringContext 1 count.toNat 0 plain) :
    ProtectedUnder env container count
      (msg.put 2 (env.crypto.mac container.integrityContext 1 count.toNat 0 (msg.from 6))) := by
  set mac := env.crypto.mac container.integrityContext 1 count.toNat 0 (msg.from 6) with hmacdef
  have hmac : mac.length = 4 := env.crypto.mac_length _ _ _ _ _
  have hfit : 2 + mac.length ≤ msg.nasData.length := by
    have := hin.2
    omega
  have hfrom (off : Nat) (hoff : 6 ≤ off) :
      (msg.put 2 mac).from off = msg.from off := by
    unfold AsNasInfo.from AsNasInfo.put
    rw [drop_overwrite_of_ge hfit (by omega)]
  obtain ⟨header, hheader, hbyte⟩ := htype
  obtain ⟨mmHeader, plain, hplain, heq⟩ := hpayload
  refine ⟨⟨hin.1, ?_⟩, ⟨header, hheader, ?_⟩, ?_, ?_, ⟨mmHeader, plain, hplain, ?_⟩⟩
  · unfold AsNasInfo.put
    rw [length_overwrite hfit]
    exact hin.2
  · exact (getElem?_overwrite_of_lt hfit (by omega)).trans hbyte
  · exact (getElem?_overwrite_of_ge hfit (by omega)).trans hsn
  · rw [hfrom 6 le_rfl]
    have := take_drop_overwrite hfit
    rwa [hmac] at this
  · rw [hfrom 7 (by omega), heq]

/-- The buffer begins with a security header for the stored COUNT and a plain header. -/
structure AsNasInfo.Headed (msg : AsNasInfo) (nas : NrUeNasState) (type : SecurityHeader)
    (mmHeader : FgmmMsgHeader) : Prop where
  long : 10 ≤ msg.length
  inside : msg.Inside
  ne_plain : type ≠ .plain5gsMsg
  security : msg.nasData.take 7 = securityHeaderBytes (securityHeader nas type)
  plain : (msg.nasData.drop 7).take 3 = mmHeaderBytes mmHeader

namespace AsNasInfo.Headed

variable {type : SecurityHeader} {mmHeader : FgmmMsgHeader}

theorem type_byte (h : msg.Headed nas type mmHeader) : msg.nasData[1]? = some type.toByte := by
  have hbyte := congrArg (fun l => l[1]?) h.security
  simp only [securityHeaderBytes, securityHeader] at hbyte
  rw [List.getElem?_take_of_lt (by omega)] at hbyte
  rw [hbyte]
  cases type <;> rfl

theorem sequenceNumber (h : msg.Headed nas type mmHeader) :
    msg.nasData[6]? = some (nas.security.nasCountUl &&& 0xff).toUInt8 := by
  have hbyte := congrArg (fun l => l[6]?) h.security
  simp only [securityHeaderBytes, securityHeader] at hbyte
  rw [List.getElem?_take_of_lt (by omega)] at hbyte
  rw [hbyte]
  rfl

theorem take_from (h : msg.Headed nas type mmHeader) :
    (msg.from 7).take 3 = mmHeaderBytes mmHeader := by
  have hlong := h.long
  unfold AsNasInfo.from
  rw [List.take_take, min_eq_left (by omega), h.plain]

/-- The integrity block alone, for a Registration Request of a UE with another `kgnb`. -/
theorem outcome_integrity (h : msg.Headed nas type mmHeader)
    (htype : mmHeader.messageType = FgsNasMsg.registrationRequest.toByte)
    (hcontainer : nas'.securityContainer = nas.securityContainer)
    (hul : nas'.security.nasCountUl = nas.security.nasCountUl) :
    GeneratorOutcome env nas' (do
      assertNasCountUl nas
      let (msg, nas) ← integrityNas env nas msg
      return (some msg, nas)) := by
  have hlong := h.long
  unfold assertNasCountUl
  by_cases hcount : nas.security.nasCountUl ≤ 0xffffff
  swap
  · rw [if_neg hcount]
    exact .stopped (.inr rfl)
  rw [if_pos hcount]
  change GeneratorOutcome env nas' (Except.bind (integrityNas env nas msg) _)
  obtain herr | ⟨container, hsome, hok⟩ :=
    integrityNas_cases env nas (by omega : 6 ≤ msg.length) h.inside
  · rw [herr]
    exact .stopped (.inl rfl)
  rw [hok]
  refine .secured (hcontainer.trans hsome) (hul ▸ hcount) ?_ hsome (congrArg (· + 1) hul.symm)
  rw [hul]
  refine .of_mac (by omega) h.inside ⟨type, h.ne_plain, h.type_byte⟩ h.sequenceNumber
    ⟨mmHeader, msg.from 7, h.take_from, ?_⟩
  rw [if_pos htype]

/-- Both blocks, for any other message. -/
theorem outcome_cipher (h : msg.Headed nas type mmHeader)
    (htype : mmHeader.messageType ≠ FgsNasMsg.registrationRequest.toByte)
    {f : NrUeNasState → NrUeNasState} (hf : ∀ n, (f n).toNrUeNas = n.toNrUeNas) :
    GeneratorOutcome env nas (do
      let msg ← cipherNas env nas msg
      let (msg, nas) ← integrityNas env nas msg
      return (some msg, f nas)) := by
  have hlong := h.long
  obtain ⟨fault, hfault, herr⟩ | ⟨container, hcontainer, hcount, hok⟩ :=
    cipherNas_cases env nas (by omega : 7 ≤ msg.length) h.inside
  · rw [herr]
    exact .stopped hfault
  rw [hok]
  set buf := env.crypto.cipher container.cipheringContext 1 nas.security.nasCountUl.toNat 0
    (msg.from 7) with hbuf
  have hlen : 7 + buf.length = msg.length.toNat :=
    length_cipher_from _ _ _ (by omega) h.inside
  have hfit : 7 + buf.length ≤ msg.nasData.length := by
    have := h.inside.2
    omega
  have hin : (msg.put 7 buf).Inside := h.inside.put hfit
  have hfrom : (msg.put 7 buf).from 7 = buf := by
    have := take_drop_overwrite hfit
    rwa [← Nat.sub_eq_of_eq_add' hlen.symm] at this
  obtain herr | ⟨container', hcontainer', hok'⟩ :=
    integrityNas_cases env nas (by change 6 ≤ msg.length; omega : 6 ≤ (msg.put 7 buf).length) hin
  · change GeneratorOutcome env nas (Except.bind (integrityNas env nas (msg.put 7 buf)) _)
    rw [herr]
    exact .stopped (.inl rfl)
  change GeneratorOutcome env nas (Except.bind (integrityNas env nas (msg.put 7 buf)) _)
  rw [hok']
  obtain rfl : container = container' := Option.some.inj (hcontainer.symm.trans hcontainer')
  refine .secured hcontainer hcount ?_ ?_ ?_
  · refine .of_mac (by show 7 ≤ msg.length; omega) hin ⟨type, h.ne_plain, ?_⟩ ?_
      ⟨mmHeader, msg.from 7, h.take_from, ?_⟩
    · exact (getElem?_overwrite_of_lt hfit (by omega)).trans h.type_byte
    · exact (getElem?_overwrite_of_lt hfit (by omega)).trans h.sequenceNumber
    · rw [if_neg htype, hfrom, hbuf]
  · rw [hf]
    exact hcontainer
  · rw [hf]

end AsNasInfo.Headed

end NrStack
