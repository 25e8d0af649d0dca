import NrStack.Nas.Security

/-!
# No replay of protected NAS messages

The stored COUNT only grows : a sequence number below the expected one is taken for the next
256 block, and an accepted message moves COUNT past its own. So the COUNTs a UE accepts
messages with increase strictly (`nas_anti_replay`), whatever it receives in between.

Above `0x00ffffff` the process exits, so `UInt32` arithmetic wraps only from a state no run
reaches, and there the first message that gets a COUNT at all starts a new increasing run.
-/

namespace NrStack

/-! ## The rebuilt COUNT -/

theorem toNat_and_255 (x : UInt32) : (x &&& 0xff).toNat = x.toNat % 256 :=
  Nat.and_two_pow_sub_one_eq_mod x.toNat 8

/-- Replacing the low byte keeps the others. -/
theorem toNat_replace_low (x : UInt32) (b : UInt8) :
    (x &&& ~~~0xff ||| b.toUInt32).toNat = x.toNat / 256 * 256 + b.toNat := by
  have hlow : (x &&& ~~~0xff ||| b.toUInt32).toNat % 256 = b.toNat := by
    rw [← toNat_and_255, or_toUInt32_and, UInt8.toNat_toUInt32]
  have hhigh : (x &&& ~~~0xff ||| b.toUInt32).toNat / 256 = x.toNat / 256 := by
    have hx : x.toNat / 256 < 2 ^ 24 := by
      have := x.toNat_lt
      omega
    have hb : b.toNat / 256 = 0 := Nat.div_eq_of_lt b.toNat_lt
    have hmask : (~~~0xff : UInt32).toNat >>> 8 = 2 ^ 24 - 1 := by decide
    rw [← Nat.shiftRight_eq_div_pow _ 8, UInt32.toNat_or, UInt32.toNat_and, UInt8.toNat_toUInt32,
      Nat.shiftRight_or_distrib, Nat.shiftRight_and_distrib, hmask,
      Nat.and_two_pow_sub_one_eq_mod, Nat.shiftRight_eq_div_pow, Nat.shiftRight_eq_div_pow,
      Nat.mod_eq_of_lt hx, hb, Nat.or_zero]
  omega

/-- COUNT does not go back. -/
theorem le_syncNasSqn {c : UInt32} (sqn : UInt8) (hc : c.toNat ≤ 0x1000000) :
    c.toNat ≤ (syncNasSqn c sqn).toNat := by
  have hsqn := sqn.toNat_lt
  unfold syncNasSqn
  dsimp only
  split_ifs with heq hlt
  · exact le_rfl
  · have h256 : (c + 256).toNat = c.toNat + 256 := by
      rw [UInt32.toNat_add]
      exact Nat.mod_eq_of_lt (by simp; omega)
    rw [toNat_replace_low, h256]
    omega
  · rw [toNat_replace_low]
    rw [UInt32.lt_iff_toNat_lt, toNat_and_255, UInt8.toNat_toUInt32] at hlt
    omega

/-! ## The steps -/

/-- The received COUNT. -/
def NrUeNas.rxCount (nas : NrUeNas) (pduBuffer : List UInt8) : UInt32 :=
  syncNasSqn nas.security.nasCountDl (pduBuffer.getD 6 0)

/-- The MAC in the header is the one of the message under `count`. -/
def MacMatches (k : PdcpCrypto) (nas : NrUeNas) (count : UInt32) (pduBuffer : List UInt8) : Prop :=
  ∃ container, nas.securityContainer = some container ∧
    (pduBuffer.drop 2).take nasIntegritySize =
      k.mac container.integrityContext 1 count.toNat 1 (pduBuffer.drop 6)

/-- What a received message does : it is turned down before it gets a COUNT, it is turned down
with its COUNT stored, or it is accepted. -/
theorem nasRx_cases {k : PdcpCrypto} {nas nas' : NrUeNas} {pduBuffer pduBuffer' : List UInt8}
    {state : SecurityState}
    (h : nasSecurityRxProcess k nas pduBuffer = some (state, nas', pduBuffer')) :
    (state ≠ .integrityPassed ∧ nas' = nas) ∨
    ((nas.rxCount pduBuffer).toNat ≤ 0x00ffffff ∧
      ((state ≠ .integrityPassed ∧ nas' = nas.setNasCountDl (nas.rxCount pduBuffer)) ∨
        (state = .integrityPassed ∧ MacMatches k nas (nas.rxCount pduBuffer) pduBuffer ∧
          nas' = nas.setNasCountDl (nas.rxCount pduBuffer + 1)))) := by
  unfold nasSecurityRxProcess at h
  split at h
  · cases h
    exact .inl ⟨by simp, rfl⟩
  rename_i container hcontainer
  split_ifs at h with hshort
  · cases h
    exact .inl ⟨by simp, rfl⟩
  split at h
  case h_1 | h_2 | h_3 | h_4 =>
    cases h
    exact .inl ⟨by simp, rfl⟩
  all_goals
    dsimp only at h
    split_ifs at h with hmax hmac
    · cases h
      refine .inr ⟨?_, .inl ⟨by simp, rfl⟩⟩
      exact UInt32.le_iff_toNat_le.1 (UInt32.not_lt.1 hmax)
    · cases h
      refine .inr ⟨?_, .inr ⟨rfl, ⟨container, hcontainer, not_not.1 hmac⟩, rfl⟩⟩
      exact UInt32.le_iff_toNat_le.1 (UInt32.not_lt.1 hmax)

@[simp] theorem setNasCountDl_nasCountDl (nas : NrUeNas) (c : UInt32) :
    (nas.setNasCountDl c).security.nasCountDl = c :=
  rfl

@[simp] theorem setNasCountDl_securityContainer (nas : NrUeNas) (c : UInt32) :
    (nas.setNasCountDl c).securityContainer = nas.securityContainer :=
  rfl

/-- COUNT is not part of the security context. -/
theorem macMatches_setNasCountDl {k : PdcpCrypto} {nas : NrUeNas} {c count : UInt32}
    {pduBuffer : List UInt8} :
    MacMatches k (nas.setNasCountDl c) count pduBuffer ↔ MacMatches k nas count pduBuffer :=
  Iff.rfl

/-! ## Whole runs -/

/-- An accepted message, with the COUNT its MAC was checked under. -/
structure NasAccepted where
  count : UInt32
  pduBuffer : List UInt8
deriving DecidableEq

/-- The messages accepted out of a sequence of PDUs, all received within one security context.
The process is gone once it exits. -/
def nasAccepted (k : PdcpCrypto) (nas : NrUeNas) : List (List UInt8) → List NasAccepted
  | [] => []
  | pduBuffer :: pdus =>
    match nasSecurityRxProcess k nas pduBuffer with
    | none => []
    | some (state, nas', _) =>
      if state = .integrityPassed then
        ⟨nas.rxCount pduBuffer, pduBuffer⟩ :: nasAccepted k nas' pdus
      else nasAccepted k nas' pdus

variable {k : PdcpCrypto} {nas : NrUeNas}

theorem toNat_add_one {c : UInt32} (hc : c.toNat ≤ 0x00ffffff) : (c + 1).toNat = c.toNat + 1 := by
  rw [UInt32.toNat_add]
  exact Nat.mod_eq_of_lt (by simp; omega)

/-- What the first message adds, and where the rest of the run starts. -/
theorem nasAccepted_cons (k : PdcpCrypto) (nas : NrUeNas) (pduBuffer : List UInt8)
    (pdus : List (List UInt8)) :
    nasAccepted k nas (pduBuffer :: pdus) = [] ∨
    nasAccepted k nas (pduBuffer :: pdus) = nasAccepted k nas pdus ∨
    ((nas.rxCount pduBuffer).toNat ≤ 0x00ffffff ∧
      (nasAccepted k nas (pduBuffer :: pdus) =
          nasAccepted k (nas.setNasCountDl (nas.rxCount pduBuffer)) pdus ∨
        (MacMatches k nas (nas.rxCount pduBuffer) pduBuffer ∧
          nasAccepted k nas (pduBuffer :: pdus) = ⟨nas.rxCount pduBuffer, pduBuffer⟩ ::
            nasAccepted k (nas.setNasCountDl (nas.rxCount pduBuffer + 1)) pdus))) := by
  rw [nasAccepted]
  split
  · exact .inl rfl
  rename_i state nas' pduBuffer' h
  obtain ⟨hstate, rfl⟩ | ⟨hmax, ⟨hstate, rfl⟩ | ⟨hstate, hmac, rfl⟩⟩ := nasRx_cases h
  · exact .inr (.inl (if_neg hstate))
  · exact .inr (.inr ⟨hmax, .inl (if_neg hstate)⟩)
  · exact .inr (.inr ⟨hmax, .inr ⟨hmac, if_pos hstate⟩⟩)

/-- A COUNT accepted later is at least the stored one. -/
theorem le_of_mem_nasAccepted {m : NasAccepted} :
    ∀ {pdus : List (List UInt8)} {nas : NrUeNas}, nas.security.nasCountDl.toNat ≤ 0x1000000 →
      m ∈ nasAccepted k nas pdus → nas.security.nasCountDl.toNat ≤ m.count.toNat
  | [], _, _, hm => by simp [nasAccepted] at hm
  | pduBuffer :: pdus, nas, hnas, hm => by
    have hsync : nas.security.nasCountDl.toNat ≤ (nas.rxCount pduBuffer).toNat :=
      le_syncNasSqn _ hnas
    obtain h | h | ⟨hmax, h | ⟨-, h⟩⟩ := nasAccepted_cons k nas pduBuffer pdus
    · simp [h] at hm
    · rw [h] at hm
      exact le_of_mem_nasAccepted hnas hm
    · rw [h] at hm
      have := le_of_mem_nasAccepted (by simpa using Nat.le_succ_of_le hmax) hm
      exact hsync.trans this
    · rw [h] at hm
      obtain rfl | hm := List.mem_cons.1 hm
      · exact hsync
      have := le_of_mem_nasAccepted (by simpa [toNat_add_one hmax] using Nat.lt_succ_of_le hmax) hm
      rw [setNasCountDl_nasCountDl, toNat_add_one hmax] at this
      omega

theorem pairwise_nasAccepted : ∀ (pdus : List (List UInt8)) (nas : NrUeNas),
    (nasAccepted k nas pdus).Pairwise (·.count < ·.count)
  | [], _ => .nil
  | pduBuffer :: pdus, nas => by
    obtain h | h | ⟨hmax, h | ⟨-, h⟩⟩ := nasAccepted_cons k nas pduBuffer pdus
    · rw [h]
      exact .nil
    · rw [h]
      exact pairwise_nasAccepted pdus nas
    · rw [h]
      exact pairwise_nasAccepted pdus _
    · rw [h, List.pairwise_cons]
      refine ⟨fun m hm => ?_, pairwise_nasAccepted pdus _⟩
      have := le_of_mem_nasAccepted (by simpa [toNat_add_one hmax] using Nat.lt_succ_of_le hmax) hm
      rw [setNasCountDl_nasCountDl, toNat_add_one hmax] at this
      rw [UInt32.lt_iff_toNat_lt]
      exact this

/-- Every accepted message has the sequence number of its COUNT and passes the MAC under it. -/
theorem checked_of_mem_nasAccepted {m : NasAccepted} :
    ∀ {pdus : List (List UInt8)} {nas : NrUeNas}, m ∈ nasAccepted k nas pdus →
      m.count &&& 0xff = (m.pduBuffer.getD 6 0).toUInt32 ∧ MacMatches k nas m.count m.pduBuffer
  | [], _, hm => by simp [nasAccepted] at hm
  | pduBuffer :: pdus, nas, hm => by
    obtain h | h | ⟨-, h | ⟨hmac, h⟩⟩ := nasAccepted_cons k nas pduBuffer pdus
    · simp [h] at hm
    · rw [h] at hm
      exact checked_of_mem_nasAccepted hm
    · rw [h] at hm
      exact (checked_of_mem_nasAccepted hm).imp_right macMatches_setNasCountDl.1
    · rw [h] at hm
      obtain rfl | hm := List.mem_cons.1 hm
      · exact ⟨syncNasSqn_and _ _, hmac⟩
      · exact (checked_of_mem_nasAccepted hm).imp_right macMatches_setNasCountDl.1

/-- Whatever is received, from whatever state, the COUNTs of the accepted messages increase
strictly, each message carries the sequence number of its COUNT and the MAC under it, and so no
message is accepted twice under one COUNT. -/
theorem nas_anti_replay (k : PdcpCrypto) (nas : NrUeNas) (pdus : List (List UInt8)) :
    (nasAccepted k nas pdus).Pairwise (·.count < ·.count) ∧
    (nasAccepted k nas pdus).Nodup ∧
    ∀ m ∈ nasAccepted k nas pdus, m.count &&& 0xff = (m.pduBuffer.getD 6 0).toUInt32 ∧
      MacMatches k nas m.count m.pduBuffer := by
  have hpair := pairwise_nasAccepted (k := k) pdus nas
  refine ⟨hpair, hpair.imp fun {a b} hab heq => ?_, fun m hm => checked_of_mem_nasAccepted hm⟩
  exact UInt32.lt_irrefl _ (heq ▸ hab)

/-- Over a wrap of the sequence number, with a message that fails the MAC in between. -/
example : (nasAccepted .null (nasUe.setNasCountDl 254)
    [[0x7e, 2, 0, 0, 0, 0, 254, 7], [0x7e, 2, 1, 0, 0, 0, 0, 7], [0x7e, 2, 0, 0, 0, 0, 1, 7]]).map
      (·.count) = [254, 257] := by
  decide

end NrStack
