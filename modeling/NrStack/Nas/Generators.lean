import Mathlib
import NrStack.Nas.UplinkOutcome

/-!
# The outcome of each generator

`GeneratorOutcome` for the generators of `Uplink`, one after the other. Those that send an IMEISV,
a GUTI or a session request reserve what they write or more. A Registration Request does so only
if its identity has an encoding (`IdentityFits`) : the SUCI copies the IMSI into 32 bytes without
looking at its length.
-/

namespace NrStack

variable {env : NasEnv} {nas nas' : NrUeNasState}

/-! ## A message in a fresh buffer -/

section Fresh

variable {p : FgmmNasMessagePlain} {type : SecurityHeader} {allocated size n k : Nat}

/-- A plain message of `k` bytes. -/
structure AsNasInfo.IsPlain (msg : AsNasInfo) (k : Nat) : Prop where
  length : msg.length = k
  inside : msg.Inside
  type : msg.nasData[1]? = some SecurityHeader.plain5gsMsg.toByte

theorem allocEncode_plain (env : NasEnv) (hsecurity : p.security = .plain5gsMsg)
    (h : Stores (p.mmMsg.encode 3 (size - 3)) 3 (3 + n) (k : Int)) (hn : 3 + n ≤ size)
    (hk : 3 + k ≤ size) :
    ∃ msg, allocEncode env size (mmMsgEncode p 0 size) = .ok msg ∧ msg.IsPlain (3 + k) := by
  have halloc := env.malloc_length size
  have h' : Stores (p.mmMsg.encode (0 + 3) (size - 3)) (0 + 3) (0 + 3 + n) (k : Int) := by
    rwa [Nat.zero_add]
  obtain ⟨b', hok, hlen, -, hheader⟩ :=
    mmMsgEncode_eq (by omega : 3 ≤ size) h' (b := env.malloc size) (by omega)
  have hbyte := congrArg (fun l => l[1]?) hheader
  rw [List.drop_zero] at hbyte
  simp only [mmHeaderBytes, FgmmNasMessagePlain.header, setMmHeader, hsecurity] at hbyte
  rw [List.getElem?_take_of_lt (by omega)] at hbyte
  refine ⟨⟨b', ((3 + k : Nat) : Int)⟩, ?_, rfl, ⟨by positivity, ?_⟩, hbyte⟩
  · unfold allocEncode
    rw [hok]
    rfl
  · change ((3 + k : Nat) : Int) ≤ (b'.length : Int)
    omega

/-- A message behind a security header, in any buffer. -/
theorem encodeProtected_headed (nas : NrUeNasState) (htype : type ≠ .plain5gsMsg)
    (hsize : 10 ≤ size)
    (h : Stores (p.mmMsg.encode 10 (size - 7 - 3)) 10 (10 + n) (k : Int)) {b : List UInt8}
    (hn : 10 + n ≤ b.length) (hk : 10 + k ≤ b.length) :
    ∃ msg : AsNasInfo,
      encodeProtected (securityHeader nas type) p size b = .ok (msg.length, msg.nasData) ∧
      msg.Headed nas type p.header := by
  obtain ⟨b', hok, hlen, hsecurity, hplain⟩ :=
    encodeProtected_eq (securityHeader nas type) hsize h hn
  refine ⟨⟨b', ((10 + k : Nat) : Int)⟩, hok, ?_, ⟨by positivity, ?_⟩, htype, hsecurity, hplain⟩
  · change (10 : Int) ≤ ((10 + k : Nat) : Int)
    omega
  · change ((10 + k : Nat) : Int) ≤ (b'.length : Int)
    omega

theorem allocEncode_headed (env : NasEnv) (nas : NrUeNasState) (htype : type ≠ .plain5gsMsg)
    (hsize : 10 ≤ size)
    (h : Stores (p.mmMsg.encode 10 (size - 7 - 3)) 10 (10 + n) (k : Int))
    (hn : 10 + n ≤ allocated) (hk : 10 + k ≤ allocated) :
    ∃ msg, allocEncode env allocated (encodeProtected (securityHeader nas type) p size) = .ok msg ∧
      msg.Headed nas type p.header := by
  have halloc := env.malloc_length allocated
  obtain ⟨msg, hok, hheaded⟩ := encodeProtected_headed nas htype hsize h
    (b := env.malloc allocated) (by omega) (by omega)
  refine ⟨msg, ?_, hheaded⟩
  unfold allocEncode
  rw [hok]
  rfl

end Fresh

/-! ## Registration Request -/

/-- The IMSI behind MCC and MNC fits `schemeoutput`, with its NUL. -/
structure SuciFits (uicc : Uicc) : Prop where
  mcc_mnc : 5 ≤ uicc.imsiStr.chars.length
  start_nonneg : 0 ≤ 3 + uicc.nmcSize
  start_le : 3 + uicc.nmcSize ≤ uicc.imsiStr.chars.length
  lt_size : (uicc.imsiStr.chars.length : Int) < 3 + uicc.nmcSize + schemeoutputSize

/-- The identity of a Registration Request has an encoding. -/
def IdentityFits (mm : FgsMm) : Prop :=
  mm.guti.isSome ∨ SuciFits mm.uicc

theorem strlen_replicate {chars : List UInt8} (h : 0 ∉ chars) (n : Nat) :
    strlen (chars ++ List.replicate n 0) =
      if n = 0 then .error .outOfBounds else .ok chars.length := by
  have hchars : chars.findIdx? (· = 0) = none :=
    List.findIdx?_eq_none_iff.2 fun c hc => by
      have : c ≠ 0 := fun h0 => h (h0 ▸ hc)
      simpa using this
  unfold strlen
  rw [List.findIdx?_append, hchars]
  cases n with
  | zero => rfl
  | succ n =>
    rw [List.replicate_succ, List.findIdx?_cons]
    simp

theorem CString.get_of_le {s : CString} {i : Nat} (h : i ≤ s.chars.length) :
    s.get i = .ok (s.chars.getD i 0) :=
  if_pos h

theorem CString.get_of_lt {s : CString} {i : Nat} (h : s.chars.length < i) :
    s.get i = .error .outOfBounds :=
  if_neg (by omega)

/-- The digits behind MCC and MNC, and zeros up to 32 bytes : with 32 digits no NUL. -/
theorem fillSuci_ok {uicc : Uicc} (hlen : 5 ≤ uicc.imsiStr.chars.length)
    (hstart : 0 ≤ 3 + uicc.nmcSize) (hle : 3 + uicc.nmcSize ≤ uicc.imsiStr.chars.length)
    (hsize : (uicc.imsiStr.chars.length : Int) ≤ 3 + uicc.nmcSize + schemeoutputSize) :
    ∃ suci, fillSuci uicc = .ok (.suci suci, sizeofSuci) ∧ strlen suci.schemeoutput =
      if (uicc.imsiStr.chars.length : Int) = 3 + uicc.nmcSize + schemeoutputSize then
        .error .outOfBounds
      else .ok (uicc.imsiStr.chars.length - (3 + uicc.nmcSize).toNat) := by
  have hget (i : Nat) (hi : i ≤ 5) : uicc.imsiStr.get i = .ok (uicc.imsiStr.chars.getD i 0) :=
    CString.get_of_le (by omega)
  have hin : ¬(3 + uicc.nmcSize < 0 ∨ (uicc.imsiStr.chars.length : Int) < 3 + uicc.nmcSize) := by
    omega
  have hscheme : ¬(uicc.imsiStr.chars.drop (3 + uicc.nmcSize).toNat).length > schemeoutputSize := by
    rw [List.length_drop]
    omega
  have hstrlen : strlen (uicc.imsiStr.chars.drop (3 + uicc.nmcSize).toNat ++ List.replicate
      (schemeoutputSize - (uicc.imsiStr.chars.drop (3 + uicc.nmcSize).toNat).length) 0) =
      if (uicc.imsiStr.chars.length : Int) = 3 + uicc.nmcSize + schemeoutputSize then
        .error .outOfBounds
      else .ok (uicc.imsiStr.chars.length - (3 + uicc.nmcSize).toNat) := by
    rw [strlen_replicate fun hmem => uicc.imsiStr.no_nul (List.mem_of_mem_drop hmem)]
    rw [List.length_drop] at hscheme ⊢
    refine if_congr ?_ rfl rfl
    omega
  unfold fillSuci
  by_cases hnmc : uicc.nmcSize = 2
  · simp only [if_pos hnmc, hget 0 (by omega), hget 1 (by omega), hget 2 (by omega),
      hget 3 (by omega), hget 4 (by omega), bind, Except.bind, if_neg hin, if_neg hscheme]
    exact ⟨_, rfl, hstrlen⟩
  · simp only [if_neg hnmc, hget 0 (by omega), hget 1 (by omega), hget 2 (by omega),
      hget 3 (by omega), hget 4 (by omega), hget 5 le_rfl, bind, Except.bind, if_neg hin,
      if_neg hscheme]
    exact ⟨_, rfl, hstrlen⟩

/-- A read that may leave the string, and what leaves it anyway. -/
theorem CString.get_bind_outOfBounds {α : Type} {s : CString} {i : Nat}
    {f : UInt8 → Except NasFault α} (hf : ∀ c, f c = .error .outOfBounds) :
    (s.get i >>= f) = .error .outOfBounds := by
  rcases Nat.lt_or_ge s.chars.length i with hi | hi
  · rw [CString.get_of_lt hi]
    rfl
  · rw [CString.get_of_le hi]
    exact hf _

/-- Anything else leaves the IMSI or `schemeoutput`. -/
theorem fillSuci_error {uicc : Uicc} (h : ¬(5 ≤ uicc.imsiStr.chars.length ∧
    0 ≤ 3 + uicc.nmcSize ∧ 3 + uicc.nmcSize ≤ uicc.imsiStr.chars.length ∧
    (uicc.imsiStr.chars.length : Int) ≤ 3 + uicc.nmcSize + schemeoutputSize)) :
    fillSuci uicc = .error .outOfBounds := by
  have hguard (hlen : uicc.nmcSize = 2 ∨ 5 ≤ uicc.imsiStr.chars.length) :
      (3 + uicc.nmcSize < 0 ∨ (uicc.imsiStr.chars.length : Int) < 3 + uicc.nmcSize) ∨
      (uicc.imsiStr.chars.drop (3 + uicc.nmcSize).toNat).length > schemeoutputSize := by
    rw [List.length_drop]
    omega
  unfold fillSuci
  by_cases hnmc : uicc.nmcSize = 2
  · simp only [if_pos hnmc]
    iterate 6 refine CString.get_bind_outOfBounds fun _ => ?_
    rcases hguard (.inl hnmc) with hg | hg
    · rw [if_pos hg]
      rfl
    · rw [if_pos hg]
      split <;> rfl
  · simp only [if_neg hnmc]
    refine CString.get_bind_outOfBounds fun _ => ?_
    rcases Nat.lt_or_ge uicc.imsiStr.chars.length 5 with hlen | hlen
    · rw [CString.get_of_lt hlen]
      rfl
    · iterate 5 refine CString.get_bind_outOfBounds fun _ => ?_
      rcases hguard (.inr hlen) with hg | hg
      · rw [if_pos hg]
        rfl
      · rw [if_pos hg]
        split <;> rfl

theorem registrationIdentity_of_fits {mm : FgsMm} (h : IdentityFits mm) :
    ∃ identity size n, registrationIdentity mm = .ok (identity, size) ∧
      identity.Encodes n ∧ n + 2 ≤ size := by
  unfold registrationIdentity
  cases hguti : mm.guti with
  | some guti => exact ⟨.guti guti, 13, 11, rfl, .guti guti, by decide⟩
  | none =>
    obtain hsome | hfits := h
    · simp [hguti] at hsome
    have hstart := hfits.start_nonneg
    have hlt := hfits.lt_size
    obtain ⟨suci, hok, hstrlen⟩ := fillSuci_ok hfits.mcc_mnc hstart hfits.start_le hlt.le
    rw [if_neg hlt.ne] at hstrlen
    refine ⟨.suci suci, sizeofSuci, _, hok, .suci hstrlen, ?_⟩
    unfold schemeoutputSize at hlt
    unfold sizeofSuci
    omega

theorem registrationIdentity_of_not_fits {mm : FgsMm} (h : ¬IdentityFits mm) :
    registrationIdentity mm = .error .outOfBounds ∨
    ∃ suci, registrationIdentity mm = .ok (.suci suci, sizeofSuci) ∧
      strlen suci.schemeoutput = .error .outOfBounds := by
  obtain ⟨hguti, hfits⟩ := not_or.1 h
  unfold registrationIdentity
  rw [if_neg hguti]
  by_cases hok : 5 ≤ mm.uicc.imsiStr.chars.length ∧ 0 ≤ 3 + mm.uicc.nmcSize ∧
      3 + mm.uicc.nmcSize ≤ mm.uicc.imsiStr.chars.length ∧
      (mm.uicc.imsiStr.chars.length : Int) ≤ 3 + mm.uicc.nmcSize + schemeoutputSize
  · obtain ⟨hlen, hstart, hle, hsize⟩ := hok
    obtain ⟨suci, hsuci, hstrlen⟩ := fillSuci_ok hlen hstart hle hsize
    refine .inr ⟨suci, hsuci, hstrlen.trans (if_pos ?_)⟩
    by_contra hne
    exact hfits ⟨hlen, hstart, hle, lt_of_le_of_ne hsize hne⟩
  · exact .inl (fillSuci_error hok)

/-- A type that `set_fgs_registration_type` never gives. -/
theorem setFgsRegistrationType_ne_periodic (mm : FgsMm) :
    setFgsRegistrationType mm ≠ periodicRegistrationUpdating := by
  unfold setFgsRegistrationType
  split_ifs <;> decide

section Request

variable {mm : FgsMm} {identity : FGSMobileIdentity} {n : Nat}

theorem cleartextRegistrationRequest_not_has :
    ¬(cleartextRegistrationRequest mm identity).Has registrationRequest5gmmCapabilityPresent := by
  change ¬registrationRequestUeSecurityCapabilityPresent &&& _ = _
  decide

theorem cleartextRegistrationRequest_standard (mm : FgsMm) (h : identity.Encodes n) :
    (cleartextRegistrationRequest mm identity).Standard n where
  identity := h
  capability hhas := absurd hhas cleartextRegistrationRequest_not_has
  security_present := by
    change registrationRequestUeSecurityCapabilityPresent &&& _ = _
    decide
  security_length := rfl

theorem cleartextRegistrationRequest_size :
    (cleartextRegistrationRequest mm identity).size n = 13 + n := by
  unfold RegistrationRequestMsg.size
  rw [if_neg cleartextRegistrationRequest_not_has]
  omega

theorem addNonCleartext_cleartext :
    addNonCleartext (cleartextRegistrationRequest mm identity) =
      { cleartextRegistrationRequest mm identity with
        presencemask := registrationRequestUeSecurityCapabilityPresent |||
          registrationRequest5gmmCapabilityPresent
        fgmmcapability := setFgmmCapability } := by
  unfold addNonCleartext
  exact if_pos (setFgsRegistrationType_ne_periodic mm)

theorem addNonCleartext_has {flag : UInt32}
    (hflag : (registrationRequestUeSecurityCapabilityPresent |||
      registrationRequest5gmmCapabilityPresent) &&& flag = flag) :
    (addNonCleartext (cleartextRegistrationRequest mm identity)).Has flag := by
  rw [addNonCleartext_cleartext]
  exact hflag

theorem addNonCleartext_standard (mm : FgsMm) (h : identity.Encodes n) :
    (addNonCleartext (cleartextRegistrationRequest mm identity)).Standard n where
  identity := by
    rw [addNonCleartext_cleartext]
    exact h
  capability _ := by
    rw [addNonCleartext_cleartext]
    exact ⟨(by decide : setFgmmCapability.iei ≠ 0), rfl⟩
  security_present := addNonCleartext_has (by decide)
  security_length := by
    rw [addNonCleartext_cleartext]
    rfl

theorem addNonCleartext_size :
    (addNonCleartext (cleartextRegistrationRequest mm identity)).size n = 16 + n := by
  unfold RegistrationRequestMsg.size
  rw [if_pos (addNonCleartext_has (by decide))]
  omega

theorem stores_cleartextRegistrationRequest (mm : FgsMm) (h : identity.Encodes n) (buffer : Nat)
    {len : Nat} (hlen : 13 + n ≤ len) :
    Stores (encodeRegistrationRequest (cleartextRegistrationRequest mm identity) buffer len) buffer
      (buffer + (13 + n)) ((13 + n : Nat) : Int) := by
  have hstores := stores_encodeRegistrationRequest buffer
    (cleartextRegistrationRequest_standard mm h)
    (by rwa [cleartextRegistrationRequest_size] : _ ≤ len)
  rwa [cleartextRegistrationRequest_size] at hstores

theorem stores_addNonCleartext (mm : FgsMm) (h : identity.Encodes n) (buffer : Nat)
    {len : Nat} (hlen : 16 + n ≤ len) :
    Stores (encodeRegistrationRequest (addNonCleartext (cleartextRegistrationRequest mm identity))
      buffer len) buffer (buffer + (16 + n)) ((16 + n : Nat) : Int) := by
  have hstores := stores_encodeRegistrationRequest buffer
    (addNonCleartext_standard mm h) (by rwa [addNonCleartext_size] : _ ≤ len)
  rwa [addNonCleartext_size] at hstores

end Request

/-- The whole request, for the container of a Security Mode Complete. -/
theorem generateRegistrationRequest_isSecurityMode (env : NasEnv) (hfits : IdentityFits nas.mm)
    (htype : setFgsRegistrationType nas.mm ≠ regTypeReserved) :
    ∃ msg k, generateRegistrationRequest env nas true = .ok (some msg, nas) ∧ msg.IsPlain k := by
  obtain ⟨identity, size, n, hid, hencodes, hsize⟩ := registrationIdentity_of_fits hfits
  have hper : ¬(cleartextRegistrationRequest nas.mm identity).fgsregistrationtype =
      periodicRegistrationUpdating := setFgsRegistrationType_ne_periodic nas.mm
  unfold generateRegistrationRequest
  simp only [if_neg htype, hid, bind, Except.bind, if_neg hper, if_true]
  set allocated := (if nas.hasSecurityContext = true then sizeofFgmmMsgHeader + 7
    else sizeofFgmmMsgHeader) + sizeofFgmmMsgHeader + 1 + 1 + size + 10 + 3 with hallocated
  have hbound : 21 + size ≤ allocated := by
    unfold sizeofFgmmMsgHeader at hallocated
    split_ifs at hallocated <;> omega
  obtain ⟨msg, hok, hplain⟩ := allocEncode_plain env
    (p := ⟨.plain5gsMsg, .registrationRequest (addNonCleartext _)⟩) rfl
    (stores_addNonCleartext nas.mm hencodes 3 (by omega : 16 + n ≤ allocated - 3))
    (by omega) (by omega)
  rw [hok]
  exact ⟨msg, _, rfl, hplain⟩

theorem generateRegistrationRequest_of_reserved (env : NasEnv)
    (htype : setFgsRegistrationType nas.mm = regTypeReserved) (isSecurityMode : Bool) :
    generateRegistrationRequest env nas isSecurityMode = .ok (none, nas) := by
  unfold generateRegistrationRequest
  rw [if_pos htype]
  rfl

theorem AsNasInfo.IsPlain.outcome {msg : AsNasInfo} {k : Nat} (h : msg.IsPlain k) :
    GeneratorOutcome env nas (.ok (some msg, nas)) :=
  .plain h.inside h.type

theorem generateRegistrationRequest_outcome (env : NasEnv) (hfits : IdentityFits nas.mm)
    (isSecurityMode : Bool) :
    GeneratorOutcome env nas (generateRegistrationRequest env nas isSecurityMode) := by
  by_cases htype : setFgsRegistrationType nas.mm = regTypeReserved
  · rw [generateRegistrationRequest_of_reserved env htype]
    exact .silent
  cases isSecurityMode with
  | true =>
    obtain ⟨msg, k, hok, hplain⟩ := generateRegistrationRequest_isSecurityMode env hfits htype
    rw [hok]
    exact hplain.outcome
  | false =>
  obtain ⟨identity, size, n, hid, hencodes, hsize⟩ := registrationIdentity_of_fits hfits
  have hper : ¬(cleartextRegistrationRequest nas.mm identity).fgsregistrationtype =
      periodicRegistrationUpdating := setFgsRegistrationType_ne_periodic nas.mm
  unfold generateRegistrationRequest
  simp only [if_neg htype, hid, bind, Except.bind, if_neg hper, Bool.false_eq_true, if_false]
  by_cases hcontext : nas.hasSecurityContext
  swap
  · have hcontext' : (!nas.hasSecurityContext) = true := by simpa using hcontext
    simp only [if_pos hcontext', if_neg hcontext]
    set allocated := sizeofFgmmMsgHeader + sizeofFgmmMsgHeader + 1 + 1 + size + 10 with hallocated
    unfold sizeofFgmmMsgHeader at hallocated
    obtain ⟨msg, hok, hplain⟩ := allocEncode_plain env
      (p := ⟨.plain5gsMsg, .registrationRequest _⟩) rfl
      (stores_cleartextRegistrationRequest nas.mm hencodes 3 (by omega : 13 + n ≤ allocated - 3))
      (by omega) (by omega)
    rw [hok]
    exact hplain.outcome
  · have hcontext' : ¬(!nas.hasSecurityContext) = true := by simpa using hcontext
    simp only [if_neg hcontext', if_pos hcontext]
    -- the container is encoded into a buffer of its own
    set sizeNct := sizeofFgmmMsgHeader + 7 + sizeofFgmmMsgHeader + 1 + 1 + size + 10 with hsizeNct
    unfold sizeofFgmmMsgHeader at hsizeNct
    obtain ⟨b', hok, -, -⟩ := stores_mmMsgEncode 0
      (p := ⟨.plain5gsMsg, .registrationRequest (addNonCleartext _)⟩)
      (by omega) (stores_addNonCleartext nas.mm hencodes _ (by omega : 16 + n ≤ sizeNct + 3 - 3))
      (List.replicate (sizeNct + 3) 0) (by rw [List.length_replicate]; omega)
    rw [hok]
    obtain ⟨msg, hok, hheaded⟩ := allocEncode_headed env (deriveKgnb env nas)
      (p := ⟨.plain5gsMsg, .registrationRequest _⟩) (by decide : .integrityProtected ≠ _)
      (by omega) (stores_cleartextRegistrationRequest nas.mm hencodes 10
        (by omega : 13 + n ≤ sizeNct + (((3 + (16 + n) : Nat) : Int).toNat + 2) - 7 - 3))
      (by omega : _ ≤ sizeNct + (((3 + (16 + n) : Nat) : Int).toNat + 2)) (by omega)
    change GeneratorOutcome env nas (Except.bind (allocEncode env _ _) _)
    rw [hok]
    exact hheaded.outcome_integrity rfl rfl rfl

/-! ## An identity without an encoding -/

/-- The encoder leaves any block. -/
def Faults {α : Type} (m : NasEncoder α) : Prop :=
  ∀ b, m b = .error .outOfBounds

theorem Faults.bind {α γ : Type} {m : NasEncoder α} (h : Faults m) (f : α → NasEncoder γ) :
    Faults (m >>= f) :=
  fun b => bind_of_error (h b)

/-- Writing before it makes no difference. -/
theorem Faults.encodeBytes_bind {α : Type} {buffer : Nat} {bytes : List UInt8}
    {f : Unit → NasEncoder α} (h : Faults (f ())) : Faults (encodeBytes buffer bytes >>= f) := by
  intro b
  by_cases hfit : buffer + bytes.length ≤ b.length
  · exact (bind_of_ok (if_pos hfit)).trans (h _)
  · exact bind_of_error (if_neg hfit)

section Faults

variable {suci : Suci5GSMobileIdentity} {rr : RegistrationRequestMsg} {len size : Nat}

theorem faults_encode5gsMobileIdentity (h : strlen suci.schemeoutput = .error .outOfBounds)
    (buffer : Nat) (hlen : 3 ≤ len) :
    Faults (encode5gsMobileIdentity (.suci suci) 0 buffer len) := by
  have hsuci (buffer : Nat) : Faults (encodeSuci5gsMobileIdentity suci buffer) := by
    unfold encodeSuci5gsMobileIdentity
    rw [h]
    exact fun b => rfl
  unfold encode5gsMobileIdentity
  rw [if_neg (by omega), if_neg (by decide)]
  exact (hsuci _).bind _

theorem faults_encodeRegistrationRequest (hsuci : rr.fgsmobileidentity = .suci suci)
    (h : strlen suci.schemeoutput = .error .outOfBounds) (buffer : Nat) (hlen : 4 ≤ len) :
    Faults (encodeRegistrationRequest rr buffer len) := by
  unfold encodeRegistrationRequest
  rw [hsuci]
  exact .encodeBytes_bind ((faults_encode5gsMobileIdentity h _ (by omega)).bind _)

theorem faults_mmMsgEncode (hsuci : rr.fgsmobileidentity = .suci suci)
    (h : strlen suci.schemeoutput = .error .outOfBounds) (buffer : Nat) (hlen : 7 ≤ len) :
    Faults (mmMsgEncode ⟨.plain5gsMsg, .registrationRequest rr⟩ buffer len) := by
  unfold mmMsgEncode nasMmMsgEncodeHeader sizeofFgmmMsgHeader
  rw [if_neg (by omega), if_neg (by exact not_not.2 rfl)]
  simp only [bind_assoc, pure_bind]
  refine .encodeBytes_bind ?_
  rw [if_neg (by decide)]
  exact (faults_encodeRegistrationRequest hsuci h _ (by change 4 ≤ len - 3; omega)).bind _

theorem allocEncode_faults {encode : NasEncoder Int} (h : Faults encode) (env : NasEnv) :
    allocEncode env size encode = .error .outOfBounds := by
  unfold allocEncode
  rw [h]
  rfl

end Faults

/-- An IMSI that does not fit is written behind `schemeoutput`, or read beyond it. -/
theorem generateRegistrationRequest_of_not_fits (env : NasEnv) (h : ¬IdentityFits nas.mm)
    (htype : setFgsRegistrationType nas.mm ≠ regTypeReserved) (isSecurityMode : Bool) :
    generateRegistrationRequest env nas isSecurityMode = .error .outOfBounds := by
  have hper (identity : FGSMobileIdentity) :
      ¬(cleartextRegistrationRequest nas.mm identity).fgsregistrationtype =
        periodicRegistrationUpdating := setFgsRegistrationType_ne_periodic nas.mm
  unfold generateRegistrationRequest
  rw [if_neg htype]
  obtain hid | ⟨suci, hid, hstrlen⟩ := registrationIdentity_of_not_fits h
  · rw [hid]
    rfl
  have hfull :
      (addNonCleartext (cleartextRegistrationRequest nas.mm (.suci suci))).fgsmobileidentity
      = .suci suci := by
    rw [addNonCleartext_cleartext]
    rfl
  simp only [hid, bind, Except.bind, if_neg (hper _)]
  cases isSecurityMode with
  | true =>
    rw [if_pos rfl, allocEncode_faults (faults_mmMsgEncode hfull hstrlen 0 (by omega))]
  | false =>
  rw [if_neg (by decide)]
  by_cases hcontext : (!nas.hasSecurityContext) = true
  · rw [if_pos hcontext, allocEncode_faults (faults_mmMsgEncode rfl hstrlen 0 (by omega))]
  · rw [if_neg hcontext, faults_mmMsgEncode hfull hstrlen 0 (by omega)]

/-! ## The other messages -/

theorem FgsNasMsg.toByte_ne (t : FgsNasMsg) (h : t ≠ .registrationRequest) :
    t.toByte ≠ FgsNasMsg.registrationRequest.toByte := by
  revert h
  cases t <;> decide

/-- A generator that encodes into a fresh buffer, ciphers and signs. -/
theorem outcome_allocEncode (env : NasEnv) (nas : NrUeNasState) {p : FgmmNasMessagePlain}
    {type : SecurityHeader} {allocated size n k : Nat} (htype : type ≠ .plain5gsMsg)
    (hmessage : p.mmMsg.type ≠ .registrationRequest) (hsize : 10 ≤ size)
    (h : Stores (p.mmMsg.encode 10 (size - 7 - 3)) 10 (10 + n) (k : Int))
    (hn : 10 + n ≤ allocated) (hk : 10 + k ≤ allocated) :
    GeneratorOutcome env nas (do
      let msg ← allocEncode env allocated (encodeProtected (securityHeader nas type) p size)
      let msg ← cipherNas env nas msg
      let (msg, nas) ← integrityNas env nas msg
      return (some msg, nas)) := by
  obtain ⟨msg, hok, hheaded⟩ := allocEncode_headed env nas htype hsize h hn hk
  rw [hok]
  exact hheaded.outcome_cipher (FgsNasMsg.toByte_ne _ hmessage) fun _ => rfl

/-- The identity is never written : the buffer is for the plain message, the length counts the
security header. -/
theorem generateServiceRequest_outcome (env : NasEnv) (nas : NrUeNasState) :
    GeneratorOutcome env nas (generateServiceRequest env nas) := by
  unfold generateServiceRequest NrUeNasState.container
  cases nas.securityContainer with
  | none => exact .stopped (.inl rfl)
  | some container =>
  cases nas.mm.guti with
  | none => exact .stopped (.inr rfl)
  | some guti =>
  simp only [fillFgstmsi, bind, Except.bind]
  by_cases hprotected : (container.cipheringContext.present && container.integrityContext.present)
  · rw [if_pos hprotected]
    refine outcome_allocEncode env nas (by decide) nofun (by decide)
      (stores_encodeFgsServiceRequest 10 (by decide) (by decide)) (by decide) (by decide)
  · rw [if_neg hprotected]
    obtain ⟨msg, hok, hplain⟩ := allocEncode_plain env
      (p := ⟨.plain5gsMsg, .serviceRequest ⟨⟨0, nasKeySetIdentifierNotAvailable⟩, 0x1,
        ⟨0, guti.amfsetid, guti.amfpointer, guti.tmsi⟩⟩⟩) rfl
      (stores_encodeFgsServiceRequest 3 (by decide) (by decide))
      (by decide : 3 + 3 ≤ sizeofFgmmMsgHeader + 1 + 10) (by decide)
    rw [hok]
    exact hplain.outcome

theorem generateDeregistrationRequest_outcome (env : NasEnv) (nas : NrUeNasState) :
    GeneratorOutcome env nas (generateDeregistrationRequest env nas) := by
  unfold generateDeregistrationRequest
  cases nas.mm.guti with
  | none => exact .stopped (.inr rfl)
  | some guti =>
  obtain ⟨msg, hok, hheaded⟩ := encodeProtected_headed nas
    (p := ⟨.integrityProtectedAndCipheredWithNewSecuCtx,
      .deregistrationRequest ⟨0, 0, 1, ⟨0, 1⟩, .guti guti⟩⟩)
    (by decide : .integrityProtectedAndCiphered ≠ _)
    (by decide : 10 ≤ securityProtected5gsNasMessageHeaderLength + sizeofFgmmMsgHeader + 1 + 13)
    (stores_encodeFgsDeregistrationRequest 10 (.guti guti) (by decide))
    (b := List.replicate
      (securityProtected5gsNasMessageHeaderLength + sizeofFgmmMsgHeader + 1 + 13) 0)
    (by decide) (by decide)
  simp only [fillGuti, bind, Except.bind]
  rw [hok]
  exact hheaded.outcome_cipher (FgsNasMsg.toByte_ne .deregistrationRequestUeOriginating nofun)
    (f := fun nas => { nas with mm := { nas.mm with fiveGMMState := .deregisteredInitiated } })
    fun _ => rfl

theorem generatePduSessionEstablishRequest_outcome (env : NasEnv) (nas : NrUeNasState)
    (pduReq : NasPduSessionReq) :
    GeneratorOutcome env nas (generatePduSessionEstablishRequest env nas pduReq) := by
  unfold generatePduSessionEstablishRequest
  refine outcome_allocEncode env nas (by decide) nofun ?_
    (stores_encodeFgsUplinkNasTransport 10 ?_) ?_ ?_
  all_goals
    simp only [FgsUplinkNasTransportMsg.size, sizeofFgmmMsgHeader, List.length_cons,
      length_encodePduSessionEstablishmentRequest]
    omega

/-- What a Registration Complete protects : the two headers, and over them the SOR container. -/
theorem generateRegistrationComplete_eq (env : NasEnv) (nas : NrUeNasState)
    (sor : Option (List UInt8)) :
    ∃ msg : AsNasInfo, 10 ≤ msg.length ∧ msg.Inside ∧
      (sor = none → msg.Headed nas .integrityProtectedAndCiphered
        (setMmHeader .registrationComplete .plain5gsMsg)) ∧
      generateRegistrationComplete env nas sor = (do
        let msg ← cipherNas env nas msg
        let (msg, nas) ← integrityNas env nas msg
        return (some msg, { nas with mm := { nas.mm with fiveGMMState := .registered } })) := by
  set length := 7 + sizeofFgmmMsgHeader + (sor.getD []).length with hlength
  have hmalloc := env.malloc_length length
  set header := securityHeader nas .integrityProtectedAndCiphered
  set mmHeader := setMmHeader .registrationComplete .plain5gsMsg
  unfold sizeofFgmmMsgHeader at hlength
  have hfit : 0 + (securityHeaderBytes header).length ≤ (env.malloc length).length := by
    rw [hmalloc]
    simp [securityHeaderBytes]
    omega
  have hsecurity := nasProtectedSecurityHeaderEncode_eq header (by omega : 7 ≤ (length : Int))
    (by omega : 7 ≤ (env.malloc length).length)
  set b := overwrite (env.malloc length) 0 (securityHeaderBytes header) with hb
  have hblen : b.length = length := (length_overwrite hfit).trans hmalloc
  have hmm := nasMmMsgEncodeHeader_eq mmHeader (by omega : 3 ≤ length - 7) rfl
    (by omega : 7 + 3 ≤ b.length)
  have hfit' : 7 + (mmHeaderBytes mmHeader).length ≤ b.length := by
    simp [mmHeaderBytes]
    omega
  set b' := overwrite b 7 (mmHeaderBytes mmHeader) with hb'
  have hblen' : b'.length = length := (length_overwrite hfit').trans hblen
  have hsor : ∃ k nasData, encodeRegistrationComplete ⟨sor⟩ 3 (length - 3) b' = .ok (k, nasData) ∧
      nasData.length = length ∧ (sor = none → nasData = b') := by
    cases sor with
    | none => exact ⟨0, b', rfl, hblen', fun _ => rfl⟩
    | some contents =>
      have hcontents : length = 10 + contents.length := hlength
      obtain ⟨nasData, hok, hlen, -⟩ := stores_encodeSorTransparentContainer 3
        (by omega : 2 + contents.length ≤ length - 3) b' (by omega)
      exact ⟨_, nasData, hok, hlen.trans hblen', fun h => absurd h (by simp)⟩
  obtain ⟨k, nasData, hcomplete, hlen, hnone⟩ := hsor
  have hlong : 10 ≤ (length : Int) := by omega
  have hin : AsNasInfo.Inside ⟨nasData, length⟩ := by
    refine ⟨by positivity, ?_⟩
    rw [hlen]
  refine ⟨⟨nasData, length⟩, hlong, hin, fun h => ⟨hlong, hin, by decide, ?_, ?_⟩, ?_⟩
  · have hzero := take_drop_overwrite hfit
    rw [List.drop_zero] at hzero
    rw [hnone h, hb', take_overwrite hfit']
    exact hzero
  · rw [hnone h, hb']
    exact take_drop_overwrite hfit'
  · unfold generateRegistrationComplete
    change Except.bind (nasProtectedSecurityHeaderEncode 0 header length _) _ = _
    rw [hsecurity]
    change Except.bind (nasMmMsgEncodeHeader mmHeader 7 (length - 7) b) _ = _
    rw [hmm]
    change Except.bind (encodeRegistrationComplete ⟨sor⟩ 3 (length - 3) b') _ = _
    rw [hcomplete]
    rfl

theorem generateRegistrationComplete_outcome (env : NasEnv) (nas : NrUeNasState) :
    GeneratorOutcome env nas (generateRegistrationComplete env nas none) := by
  obtain ⟨msg, -, -, hheaded, heq⟩ := generateRegistrationComplete_eq env nas none
  rw [heq]
  exact (hheaded rfl).outcome_cipher (FgsNasMsg.toByte_ne .registrationComplete nofun)
    (f := fun nas => { nas with mm := { nas.mm with fiveGMMState := .registered } }) fun _ => rfl

theorem generateSecurityModeComplete_outcome (env : NasEnv) (hfits : IdentityFits nas.mm)
    (htype : setFgsRegistrationType nas.mm ≠ regTypeReserved) :
    GeneratorOutcome env nas (generateSecurityModeComplete env nas) := by
  obtain ⟨rr, k, hok, hplain⟩ := generateRegistrationRequest_isSecurityMode env hfits htype
  have hrr : (rr.from 0).length = k := by
    have hlen := hplain.length
    have hin := hplain.inside.2
    simp only [AsNasInfo.from, List.length_take, List.length_drop]
    omega
  have hk : rr.length.toNat = k := by
    rw [hplain.length]
    rfl
  unfold generateSecurityModeComplete
  simp only [bind, Except.bind, hok, hk, fillImeisv]
  refine outcome_allocEncode env nas (by decide) (fun h => by cases h) ?_
    (stores_encodeFgsSecurityModeComplete 10 (.imeisv _) ?_) ?_ ?_
  all_goals
    simp only [sizeofFgmmMsgHeader, hrr]
    omega

/-- Without a Registration Request the container is made of what the stack holds. -/
theorem generateSecurityModeComplete_of_reserved (env : NasEnv)
    (htype : setFgsRegistrationType nas.mm = regTypeReserved) :
    generateSecurityModeComplete env nas = .error .uninitialized := by
  unfold generateSecurityModeComplete
  simp only [bind, Except.bind, generateRegistrationRequest_of_reserved env htype]
  rfl

theorem generateSecurityModeComplete_of_not_fits (env : NasEnv) (h : ¬IdentityFits nas.mm)
    (htype : setFgsRegistrationType nas.mm ≠ regTypeReserved) :
    generateSecurityModeComplete env nas = .error .outOfBounds := by
  unfold generateSecurityModeComplete
  simp only [bind, Except.bind, generateRegistrationRequest_of_not_fits env h htype]

end NrStack
