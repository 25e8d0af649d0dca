import NrStack.Pdcp.Reordering

/-!
# Protection and its removal

What `nr_pdcp_entity_process_sdu` builds, `nr_pdcp_entity_recv_pdu` of the peer takes
apart : same header and MAC-I sizes, same keystream, the MAC computed before ciphering
and checked after deciphering, the SDAP header left out of both ciphering and of the SDU's
protection by it.

The receiver wants at least one byte after the SDAP header, so an empty SDU, or an SDAP
header on its own, is dropped (`recvPdu_buildPdu`). And it sets the D/C bit of a DRB's PDU
before it checks the MAC-I, so the MAC does not protect this bit
(`recvPdu_of_macMismatch_iff`).
-/

namespace NrStack

/-! ## Ciphering -/

theorem zipWith_xor_zipWith_xor : ∀ {l ks : List UInt8}, l.length ≤ ks.length →
    List.zipWith (· ^^^ ·) (List.zipWith (· ^^^ ·) l ks) ks = l
  | [], _, _ => by simp
  | b :: l, [], h => by simp at h
  | b :: l, c :: ks, h => by
    have hl : l.length ≤ ks.length := by simpa using h
    simp only [List.zipWith_cons_cons, zipWith_xor_zipWith_xor hl, List.cons.injEq, and_true]
    rw [UInt8.xor_assoc, UInt8.xor_self, UInt8.xor_zero]

namespace PdcpCrypto

variable (k : PdcpCrypto) (c : StreamSecurityContext) (bearer : Int) (count direction : Nat)
  (buffer : List UInt8)

@[simp] theorem length_cipher :
    (k.cipher c bearer count direction buffer).length = buffer.length := by
  rw [cipher, List.length_zipWith, k.keystream_length, Nat.min_self]

/-- Ciphering twice with one keystream. -/
@[simp] theorem cipher_cipher : k.cipher c bearer count direction
    (k.cipher c bearer count direction buffer) = buffer := by
  rw [cipher, length_cipher, cipher, zipWith_xor_zipWith_xor]
  rw [k.keystream_length]

end PdcpCrypto

namespace NrPdcpEntity

variable {s r : NrPdcpEntity} {k : PdcpCrypto} {n count direction sn : Nat}
  {buffer rest : List UInt8}

@[simp] theorem length_cipherAfter :
    (s.cipherAfter k n count direction buffer).length = buffer.length := by
  unfold cipherAfter
  split_ifs
  · rw [List.length_append, PdcpCrypto.length_cipher, ← List.length_append, List.take_append_drop]
  · rfl

variable (s k n count direction buffer) in
/-- The bytes in front are left as they are. -/
theorem take_cipherAfter : (s.cipherAfter k n count direction buffer).take n = buffer.take n := by
  unfold cipherAfter
  split_ifs
  · rcases Nat.le_total n buffer.length with h | h
    · rw [List.take_left' (by simpa using h)]
    · rw [List.take_of_length_le (l := buffer.take n ++ _) (by simp; omega)]
      simp [List.drop_eq_nil_of_le h, PdcpCrypto.cipher]
  · rfl

@[simp] theorem cipherAfter_cipherAfter : s.cipherAfter k n count direction
    (s.cipherAfter k n count direction buffer) = buffer := by
  by_cases h : s.hasCiphering
  · have htake := take_cipherAfter s k n count direction buffer
    have hdrop : (s.cipherAfter k n count direction buffer).drop n =
        k.cipher s.securityContext s.rbId count direction (buffer.drop n) := by
      rw [cipherAfter, if_pos h]
      rcases Nat.le_total n buffer.length with hn | hn
      · rw [List.drop_left' (by simpa using hn)]
      · simp [List.drop_eq_nil_of_le hn, PdcpCrypto.cipher]
    conv_lhs => rw [cipherAfter, if_pos h, htake, hdrop, PdcpCrypto.cipher_cipher,
      List.take_append_drop]
  · rw [cipherAfter, if_neg h, cipherAfter, if_neg h]

/-! ## Headers -/

theorem length_dataHeader : (s.dataHeader sn).length = s.headerSize := by
  unfold dataHeader headerSize
  split_ifs <;> rfl

/-- The D/C bit of a data PDU. -/
def dcBit (s : NrPdcpEntity) : Nat :=
  if s.type = .drbAm ∨ s.type = .drbUm then 0x80 else 0

theorem dcBit_cases : s.dcBit = 0 ∨ s.dcBit = 0x80 := by
  unfold dcBit
  split_ifs
  · exact .inr rfl
  · exact .inl rfl

theorem dcBit_eq (h : s.type ≠ .srb) : s.dcBit = 0x80 := by
  unfold dcBit
  cases ht : s.type with
  | drbAm => rfl
  | drbUm => rfl
  | srb => exact absurd ht h

/-- Fields of the first byte next to the D/C bit. -/
theorem toNat_firstByte {b m : Nat} (hb : b ≤ m) (hm : m = 0xf ∨ m = 0x3) :
    (UInt8.ofNat (s.dcBit ||| b)).toNat &&& m = b := by
  rw [UInt8.toNat_ofNat']
  have hall : ∀ dc ∈ [0, 0x80], ∀ m ∈ [0xf, 0x3], ∀ b ≤ m, (dc ||| b) % 2 ^ 8 &&& m = b := by
    decide
  refine hall _ ?_ m (by simpa using hm) b hb
  simpa using dcBit_cases

/-- The SN of a header. -/
theorem rcvdSn_dataHeader (h : s.SnCoherent) (hsn : sn < 2 ^ s.snSize) :
    s.rcvdSn (s.dataHeader sn ++ rest) = sn := by
  have hlow : ∀ x : Nat, x &&& 0xff = x % 256 := fun x => Nat.and_two_pow_sub_one_eq_mod x 8
  unfold rcvdSn dataHeader
  dsimp only
  obtain ⟨hn, -⟩ | ⟨hn, -⟩ := h.values
  · rw [hn] at hsn ⊢
    rw [if_pos (by decide), if_pos (by decide)]
    have hb : (sn >>> 8) &&& 0xf ≤ 0xf := Nat.and_le_right
    simp only [List.cons_append, List.nil_append, List.getD_cons_zero, List.getD_cons_succ]
    rw [show (if s.type = .drbAm ∨ s.type = .drbUm then 0x80 else 0) = s.dcBit from rfl,
      toNat_firstByte hb (.inl rfl), UInt8.toNat_ofNat', hlow,
      ← Nat.shiftLeft_add_eq_or_of_lt (by omega), Nat.shiftLeft_eq, Nat.shiftRight_eq_div_pow,
      Nat.and_two_pow_sub_one_eq_mod _ 4]
    omega
  · rw [hn] at hsn ⊢
    rw [if_neg (by decide), if_neg (by decide)]
    have hb : (sn >>> 16) &&& 0x3 ≤ 0x3 := Nat.and_le_right
    simp only [List.cons_append, List.nil_append, List.getD_cons_zero, List.getD_cons_succ]
    rw [show (if s.type = .drbAm ∨ s.type = .drbUm then 0x80 else 0) = s.dcBit from rfl,
      toNat_firstByte hb (.inr rfl), UInt8.toNat_ofNat', UInt8.toNat_ofNat', hlow, hlow,
      Nat.or_assoc, ← Nat.shiftLeft_add_eq_or_of_lt (a := _ % 2 ^ 8) (by omega),
      ← Nat.shiftLeft_add_eq_or_of_lt (by rw [Nat.shiftLeft_eq]; omega), Nat.shiftLeft_eq,
      Nat.shiftLeft_eq, Nat.shiftRight_eq_div_pow, Nat.shiftRight_eq_div_pow,
      Nat.and_two_pow_sub_one_eq_mod _ 2]
    omega

/-- The D/C bit of a data PDU is set already. -/
theorem setDcBit_dataHeader : s.setDcBit (s.dataHeader sn ++ rest) = s.dataHeader sn ++ rest := by
  unfold setDcBit
  split_ifs with h
  · have hset : ∀ b ≤ 0xf, UInt8.ofNat (0x80 ||| b) ||| 0x80 = UInt8.ofNat (0x80 ||| b) := by
      decide
    have hdc : (if s.type = .drbAm ∨ s.type = .drbUm then 0x80 else 0) = 0x80 := dcBit_eq h
    unfold dataHeader
    dsimp only
    rw [hdc]
    split_ifs
    · simp only [List.cons_append, List.modify_zero_cons]
      rw [hset _ Nat.and_le_right]
    · simp only [List.cons_append, List.modify_zero_cons]
      rw [hset _ (Nat.and_le_right.trans (by decide))]
  · rfl

/-! ## Two ends of a bearer -/

/-- A sender and the receiver of its peer. -/
structure Peers (s r : NrPdcpEntity) : Prop where
  sender : s.SnCoherent
  receiver : r.SnCoherent
  snSize : r.snSize = s.snSize
  type : r.type = s.type
  rbId : r.rbId = s.rbId
  isGnb : r.isGnb = !s.isGnb
  hasCiphering : r.hasCiphering = s.hasCiphering
  hasIntegrity : r.hasIntegrity = s.hasIntegrity
  securityContext : r.securityContext = s.securityContext
  integrityContext : r.integrityContext = s.integrityContext
  hasSdap : r.hasSdapRx = s.hasSdapTx

/-- A COUNT at most half the SNs before RX_DELIV, and less than half after it. -/
structure InWindow (r : NrPdcpEntity) (count : Nat) : Prop where
  lower : r.rxDeliv ≤ count + r.windowSize
  upper : count < r.rxDeliv + r.windowSize

/-- A COUNT that the receiver is waiting for. -/
structure Awaits (r : NrPdcpEntity) (count : Nat) : Prop where
  active : r.entitySuspended = false
  lt : count < uint32Modulus
  lower : r.rxDeliv ≤ count
  upper : count < r.rxDeliv + r.windowSize
  not_stored : ¬nrPdcpSduInList r.rxList count

theorem Awaits.inWindow (h : Awaits r count) : InWindow r count :=
  ⟨h.lower.trans (Nat.le_add_right _ _), h.upper⟩

/-- `r'` is `r` after a new SDU with these contents was delivered or stored : delivered at
once if it is the next one. -/
def Yields (r r' : NrPdcpEntity) (count : Nat) (buffer : List UInt8) : Prop :=
  ∃ sdu new, r'.out = r.out ++ new.map .deliverSdu ∧ sdu ∈ new ++ r'.rxList ∧
    sdu.count = count ∧ sdu.buffer = buffer ∧
      (count = r.rxDeliv → (∀ s ∈ r.rxList, r.rxDeliv < s.count) → sdu ∈ new)

namespace Peers

theorem headerSize_eq (h : Peers s r) : r.headerSize = s.headerSize := by
  rw [headerSize, headerSize, h.snSize]

theorem integritySize_eq (h : Peers s r) : r.integritySize = s.integritySize := by
  rw [integritySize, integritySize, h.hasIntegrity, h.type]

theorem direction_eq (h : Peers s r) : r.rxDirection = s.txDirection := by
  rw [rxDirection, txDirection, h.isGnb]
  cases s.isGnb <;> rfl

theorem rcvdSn_eq (h : Peers s r) : r.rcvdSn buffer = s.rcvdSn buffer := by
  rw [rcvdSn, rcvdSn, h.snSize]

theorem setDcBit_eq (h : Peers s r) : r.setDcBit buffer = s.setDcBit buffer := by
  rw [setDcBit, setDcBit, h.type]

theorem cipherAfter_eq (h : Peers s r) :
    r.cipherAfter k n count direction buffer = s.cipherAfter k n count direction buffer := by
  rw [cipherAfter, cipherAfter, h.hasCiphering, h.securityContext, h.rbId]

end Peers

theorem length_macI {message : List UInt8} :
    (s.macI k count message).length = s.integritySize := by
  unfold macI
  split_ifs with h
  · rw [k.mac_length, integritySize, if_pos (.inl h)]
  · simp

/-- The PDU before ciphering. -/
def plainPdu (s : NrPdcpEntity) (k : PdcpCrypto) (buffer : List UInt8) : List UInt8 :=
  s.dataHeader (s.txNext &&& s.snMax) ++ buffer ++
    s.macI k s.txNext (s.dataHeader (s.txNext &&& s.snMax) ++ buffer)

theorem buildPdu_eq : s.buildPdu k buffer =
    s.cipherAfter k (s.headerSize + s.hasSdapTx.toNat) s.txNext s.txDirection
      (s.plainPdu k buffer) :=
  rfl

theorem length_plainPdu :
    (s.plainPdu k buffer).length = s.headerSize + buffer.length + s.integritySize := by
  rw [plainPdu, List.length_append, List.length_append, length_dataHeader, length_macI]

theorem length_buildPdu :
    (s.buildPdu k buffer).length = s.headerSize + buffer.length + s.integritySize := by
  rw [buildPdu_eq, length_cipherAfter, length_plainPdu]

/-- The header is sent in clear. -/
theorem buildPdu_header (s : NrPdcpEntity) (k : PdcpCrypto) (buffer : List UInt8) : ∃ rest,
    s.buildPdu k buffer = s.dataHeader (s.txNext &&& s.snMax) ++ rest := by
  refine ⟨(s.buildPdu k buffer).drop s.headerSize, ?_⟩
  conv_lhs => rw [← List.take_append_drop s.headerSize (s.buildPdu k buffer)]
  congr 1
  have htake : (s.buildPdu k buffer).take s.headerSize =
      (s.plainPdu k buffer).take s.headerSize := by
    have h := congrArg (List.take s.headerSize)
      (take_cipherAfter s k (s.headerSize + s.hasSdapTx.toNat) s.txNext s.txDirection
        (s.plainPdu k buffer))
    rwa [List.take_take, List.take_take, Nat.min_eq_left (by omega)] at h
  rw [htake, plainPdu, List.append_assoc, List.take_left' length_dataHeader]

theorem txSn_lt (h : s.SnCoherent) : s.txNext &&& s.snMax < 2 ^ s.snSize := by
  rw [h.snMax_eq, Nat.and_two_pow_sub_one_eq_mod]
  exact Nat.mod_lt _ (Nat.two_pow_pos _)

section Receive

variable (h : Peers s r)
include h

theorem setDcBit_buildPdu : r.setDcBit (s.buildPdu k buffer) = s.buildPdu k buffer := by
  obtain ⟨rest, hrest⟩ := buildPdu_header s k buffer
  rw [h.setDcBit_eq, hrest, setDcBit_dataHeader]

theorem rcvdSn_buildPdu : r.rcvdSn (s.buildPdu k buffer) = s.txNext &&& s.snMax := by
  obtain ⟨rest, hrest⟩ := buildPdu_header s k buffer
  rw [h.rcvdSn_eq, hrest, rcvdSn_dataHeader h.sender (txSn_lt h.sender)]

theorem decipher_buildPdu : r.decipher k s.txNext (s.buildPdu k buffer) = s.plainPdu k buffer := by
  rw [decipher, h.headerSize_eq, h.direction_eq, h.hasSdap, h.cipherAfter_eq, buildPdu_eq,
    cipherAfter_cipherAfter]

/-- The MAC-I is the one the receiver computes. -/
theorem integrityOk_buildPdu : r.integrityOk k s.txNext (s.plainPdu k buffer) := by
  intro hint
  have hlen : (s.plainPdu k buffer).length - s.integritySize =
      (s.dataHeader (s.txNext &&& s.snMax) ++ buffer).length := by
    rw [length_plainPdu, List.length_append, length_dataHeader]
    omega
  rw [h.integritySize_eq, h.direction_eq, hlen, plainPdu, List.take_left, List.drop_left,
    h.integrityContext, h.rbId, macI, if_pos (h.hasIntegrity ▸ hint)]

/-- The receiver finds the COUNT of the sender. -/
theorem rcvdCount_buildPdu (hlt : s.txNext < uint32Modulus) (hw : InWindow r s.txNext) :
    r.rcvdCount (r.rcvdSn (s.buildPdu k buffer)) = s.txNext := by
  rw [rcvdSn_buildPdu h, h.sender.snMax_eq, Nat.and_two_pow_sub_one_eq_mod, ← h.snSize]
  exact rcvdCount_eq h.receiver hlt (dist_window h.receiver hw.lower hw.upper)

variable (k buffer) in
/-- The PDU is accepted if its SDU has a byte after the SDAP header. -/
theorem acceptsPdu_buildPdu (ha : Awaits r s.txNext) : r.acceptsPdu k (s.buildPdu k buffer) ↔
    s.hasSdapTx.toNat + 1 ≤ buffer.length := by
  rw [acceptsPdu, rcvdCount_buildPdu h ha.lt ha.inWindow, decipher_buildPdu h, minPduSize,
    h.headerSize_eq, h.integritySize_eq, h.hasSdap, length_buildPdu]
  constructor
  · intro hacc
    omega
  · exact fun hsize => ⟨by omega, integrityOk_buildPdu h, ha.lower, ha.not_stored⟩

variable (k buffer) in
/-- The SDU is the one submitted, with its COUNT. -/
theorem sduOf_buildPdu (hlt : s.txNext < uint32Modulus) (hw : InWindow r s.txNext) :
    (r.sduOf k (s.buildPdu k buffer)).count = s.txNext ∧
      (r.sduOf k (s.buildPdu k buffer)).buffer = buffer := by
  have hlen : (s.buildPdu k buffer).length - s.headerSize - s.integritySize = buffer.length := by
    rw [length_buildPdu]
    omega
  refine ⟨rcvdCount_buildPdu h hlt hw, ?_⟩
  rw [sduOf]
  dsimp only
  rw [rcvdCount_buildPdu h hlt hw, decipher_buildPdu h, h.headerSize_eq, h.integritySize_eq, hlen,
    plainPdu, List.append_assoc, List.drop_left' length_dataHeader, List.take_left]

end Receive

/-! ## The SDU that arrives -/

/-- An SDU with the COUNT that is delivered next is delivered at once. -/
theorem deliverIfNext_next {sdu : NrPdcpSdu} (hc : sdu.count = r.rxDeliv)
    (hl : ∀ x ∈ r.rxList, r.rxDeliv < x.count) : ∃ new,
      ((r.storeSdu sdu).deliverIfNext sdu.count).out = r.out ++ (sdu :: new).map .deliverSdu := by
  have hhead : (r.storeSdu sdu).rxList = sdu :: r.rxList := by
    rw [storeSdu]
    dsimp only
    cases hlist : r.rxList with
    | nil => rfl
    | cons cur rest =>
      have hlt := hl cur (by simp [hlist])
      rw [nrPdcpSduListAdd, insertBefore, if_pos (by omega)]
  have hdel : (r.storeSdu sdu).rxDeliv = sdu.count := hc.symm
  rw [deliverIfNext, hdel, if_pos rfl, deliverFrom, hhead, takeInOrder, if_pos rfl]
  exact ⟨_, rfl⟩

/-- Reception of an accepted PDU yields its SDU. -/
theorem receptionActions_yields (r : NrPdcpEntity) (sdu : NrPdcpSdu) :
    Yields r ((r.storeSdu sdu).receptionActions sdu.count) sdu.count sdu.buffer := by
  obtain ⟨new, hout, hl⟩ := receptionActions_delivers r sdu
  refine ⟨sdu, new, hout, ?_, rfl, rfl, fun hc hall => ?_⟩
  · rw [hl]
    exact mem_insertBefore.2 (.inl rfl)
  · obtain ⟨more, hmore⟩ := deliverIfNext_next hc hall
    rw [receptionActions, startReordering_out, stopReordering_out, hmore] at hout
    have hmap := List.append_cancel_left hout
    have hmem : PdcpEvent.deliverSdu sdu ∈ new.map PdcpEvent.deliverSdu := by
      rw [← hmap]
      simp
    simpa using hmem

/-- Nothing is yielded by staying as it was. -/
theorem not_yields_self (hnew : ¬nrPdcpSduInList r.rxList count) : ¬Yields r r count buffer := by
  rintro ⟨sdu, new, hout, hmem, hc, -, -⟩
  have hnil : new = [] := by
    have hlen := congrArg List.length hout
    simp only [List.length_append, List.length_map] at hlen
    exact List.eq_nil_of_length_eq_zero (by omega)
  rw [hnil, List.nil_append] at hmem
  exact hnew ⟨sdu, hmem, hc⟩

/-- An accepted PDU changes the entity : one SDU more is stored or delivered. -/
theorem recvPdu_eq_self_iff : r.recvPdu k buffer = r ↔
    ¬(r.entitySuspended = false ∧ r.acceptsPdu k (r.setDcBit buffer)) := by
  rw [recvPdu_eq]
  split_ifs with hacc
  · refine iff_of_false (fun heq => ?_) (not_not.2 hacc)
    obtain ⟨new, hout, hl⟩ := receptionActions_delivers r (r.sduOf k (r.setDcBit buffer))
    rw [heq] at hout hl
    have hlen := congrArg List.length hl
    have hlen' := congrArg List.length hout
    rw [nrPdcpSduListAdd, (insertBefore_perm _).length_eq] at hlen
    simp only [List.length_append, List.length_map, List.length_cons] at hlen hlen'
    omega
  · exact iff_of_true rfl hacc

/-! ## The round trip -/

/-- The MAC-I of a PDU is not the MAC of the bytes received. -/
def MacMismatch (r : NrPdcpEntity) (k : PdcpCrypto) (pdu : List UInt8) : Prop :=
  r.hasIntegrity = true ∧ ¬r.integrityOk k (r.rcvdCount (r.rcvdSn pdu))
    (r.decipher k (r.rcvdCount (r.rcvdSn pdu)) pdu)

/-- A PDU without D/C bit that is right once the bit is set. -/
def NeedsDcBit (r : NrPdcpEntity) (k : PdcpCrypto) (pdu : List UInt8) : Prop :=
  r.entitySuspended = false ∧ r.setDcBit pdu ≠ pdu ∧ r.acceptsPdu k (r.setDcBit pdu)

/-- The peer finds the SDU again exactly when it has a byte after the SDAP header, and a
PDU with a wrong MAC-I is dropped exactly when setting its D/C bit does not make it
right. -/
theorem pdcp_round_trip_iff (k : PdcpCrypto) {s' : NrPdcpEntity} {pdu : List UInt8}
    {pduMaxSize : Int} (h : Peers s r) (ha : Awaits r s.txNext)
    (hs : s.processSdu k buffer pduMaxSize = some (s', some pdu)) :
    (Yields r (r.recvPdu k pdu) s.txNext buffer ↔ s.hasSdapTx.toNat + 1 ≤ buffer.length) ∧
      ∀ received, MacMismatch r k received →
        (r.recvPdu k received = r ↔ ¬NeedsDcBit r k received) := by
  have hpdu : pdu = s.buildPdu k buffer := by
    unfold processSdu at hs
    split_ifs at hs <;> cases hs
    rfl
  refine ⟨?_, fun received hmac => ?_⟩
  · have hrecv := @recvPdu_eq r k (s.buildPdu k buffer)
    have hacc := acceptsPdu_buildPdu k buffer h ha
    obtain ⟨hc, hb⟩ := sduOf_buildPdu k buffer h ha.lt ha.inWindow
    rw [setDcBit_buildPdu h] at hrecv
    rw [hpdu, hrecv]
    split_ifs with hif
    · refine iff_of_true ?_ (hacc.1 hif.2)
      have hyields := receptionActions_yields r (r.sduOf k (s.buildPdu k buffer))
      rw [hb] at hyields
      rwa [hc] at hyields ⊢
    · exact iff_of_false (not_yields_self ha.not_stored) fun hsize =>
        hif ⟨ha.active, hacc.2 hsize⟩
  · rw [recvPdu_eq_self_iff, not_iff_not, NeedsDcBit]
    refine and_congr_right fun hact => ⟨fun hacc => ⟨fun heq => ?_, hacc⟩, And.right⟩
    rw [heq] at hacc
    exact hmac.2 hacc.2.1

/-- A DRB with SDAP headers, at the gNB. -/
def sdapDrbGnb : NrPdcpEntity :=
  { plainDrbEntity with hasSdapTx := true }

/-- The same DRB at the UE. -/
def sdapDrbUe : NrPdcpEntity :=
  { plainDrbEntity with isGnb := false, hasSdapRx := true }

theorem sdapDrb_peers : Peers sdapDrbGnb sdapDrbUe := by
  constructor <;> first | rfl | exact ⟨.inl rfl, rfl, rfl⟩

theorem sdapDrb_awaits : Awaits sdapDrbUe sdapDrbGnb.txNext := by
  constructor <;> decide

theorem pdcp_round_trip_iff_sdapDrb :
    (Yields sdapDrbUe (sdapDrbUe.recvPdu .null [0x80, 0, 0x41, 7]) 0 [0x41, 7] ↔ 2 ≤ 2) ∧
      ∀ received, MacMismatch sdapDrbUe .null received →
        (sdapDrbUe.recvPdu .null received = sdapDrbUe ↔ ¬NeedsDcBit sdapDrbUe .null received) := by
  have hs : sdapDrbGnb.processSdu .null [0x41, 7] 16 = some
      ({ sdapDrbGnb with txNext := 1, out := [.processSdu 0 false] },
        some [0x80, 0, 0x41, 7]) := by
    decide
  exact pdcp_round_trip_iff .null sdapDrb_peers sdapDrb_awaits hs

/-- An SDAP header without payload, such as an SDAP control PDU, is dropped. -/
theorem pdcp_round_trip_fails : Peers sdapDrbGnb sdapDrbUe ∧ Awaits sdapDrbUe 0 ∧
    (sdapDrbGnb.processSdu .null [0x41] 16).map (·.2) = some (some [0x80, 0, 0x41]) ∧
      ¬Yields sdapDrbUe (sdapDrbUe.recvPdu .null [0x80, 0, 0x41]) 0 [0x41] := by
  refine ⟨sdapDrb_peers, sdapDrb_awaits, by decide, ?_⟩
  have hsame : sdapDrbUe.recvPdu .null [0x80, 0, 0x41] = sdapDrbUe := by
    decide +kernel
  rw [hsame]
  exact not_yields_self sdapDrb_awaits.not_stored

end NrPdcpEntity

end NrStack
