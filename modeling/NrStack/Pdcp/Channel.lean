import Mathlib
import NrStack.Pdcp.RoundTrip

/-!
# A sender, a channel and a receiver

The channel keeps every PDU that was sent. Any of them may arrive at any time, in any
order, several times or never : loss, reordering and duplication. `arrives` is what the
channel is trusted with : a PDU that arrives is at most half the SNs away from RX_DELIV,
less than that when it is ahead.

The receiver then finds the COUNT each PDU was sent with, over any number of SN wraps, and
while COUNT itself has not wrapped it delivers SDUs that were submitted, by increasing COUNT
(`channel_agreement`).
-/

namespace NrStack

/-! ## What is delivered, with RX_DELIV -/

/-- The SDUs delivered, in order. -/
def deliveredSdus (out : List PdcpEvent) : List NrPdcpSdu :=
  out.filterMap fun
    | .deliverSdu sdu => some sdu
    | _ => none

theorem deliveredSdus_append (l m : List PdcpEvent) :
    deliveredSdus (l ++ m) = deliveredSdus l ++ deliveredSdus m :=
  List.filterMap_append

@[simp] theorem deliveredSdus_map : ∀ l : List NrPdcpSdu, deliveredSdus (l.map .deliverSdu) = l
  | [] => rfl
  | sdu :: l => congrArg (sdu :: ·) (deliveredSdus_map l)

namespace NrPdcpEntity

variable {e e' : NrPdcpEntity} {k : PdcpCrypto} {sdu : NrPdcpSdu} {buffer : List UInt8}
  {l : List NrPdcpSdu}

/-- From a buffer of `l`, what has a COUNT below the new RX_DELIV is delivered. -/
def Advances (e e' : NrPdcpEntity) (l : List NrPdcpSdu) : Prop :=
  ∃ new, e'.out = e.out ++ new.map .deliverSdu ∧ new ++ e'.rxList = l ∧
    (∀ s ∈ new, s.count < e'.rxDeliv) ∧ e.rxDeliv ≤ e'.rxDeliv

/-- The buffer, and the deliveries, which are sorted and below RX_DELIV. -/
structure InOrder (e : NrPdcpEntity) : Prop where
  buffer : e.BufferInv
  sorted : (deliveredSdus e.out).Pairwise (·.count < ·.count)
  below : ∀ s ∈ deliveredSdus e.out, s.count < e.rxDeliv

theorem Advances.mem (h : Advances e e' l) {s : NrPdcpSdu} :
    s ∈ deliveredSdus e'.out ++ e'.rxList ↔ s ∈ deliveredSdus e.out ++ l := by
  obtain ⟨new, hout, hl, -, -⟩ := h
  rw [hout, deliveredSdus_append, deliveredSdus_map, ← hl, List.append_assoc]

theorem InOrder.advance (h : InOrder e) (ha : Advances e e' l)
    (hs : l.Pairwise (·.count < ·.count)) (hge : ∀ s ∈ l, e.rxDeliv ≤ s.count)
    (hb : e'.BufferInv) : InOrder e' := by
  obtain ⟨new, hout, hl, hnew, hle⟩ := ha
  rw [← hl] at hs hge
  have hdel : deliveredSdus e'.out = deliveredSdus e.out ++ new := by
    rw [hout, deliveredSdus_append, deliveredSdus_map]
  refine ⟨hb, ?_, ?_⟩
  · rw [hdel]
    refine List.pairwise_append.2 ⟨h.sorted, (List.pairwise_append.1 hs).1, fun a ha b hb => ?_⟩
    exact (h.below a ha).trans_le (hge b (List.mem_append_left _ hb))
  · rw [hdel]
    intro s hs
    rcases List.mem_append.1 hs with hs | hs
    · exact (h.below s hs).trans_le hle
    · exact hnew s hs

theorem receptionActions_advances (h : e.BufferInv) (hge : e.rxDeliv ≤ sdu.count)
    (hlt : sdu.count + 1 < uint32Modulus) (hnew : ¬nrPdcpSduInList e.rxList sdu.count) :
    Advances e ((e.storeSdu sdu).receptionActions sdu.count) (nrPdcpSduListAdd e.rxList sdu) := by
  have hrest : ∀ e₁ : NrPdcpEntity, Advances e e₁ (nrPdcpSduListAdd e.rxList sdu) →
      Advances e e₁.stopReordering.startReordering (nrPdcpSduListAdd e.rxList sdu) :=
    fun e₁ ⟨new, h1, h2, h3, h4⟩ =>
      ⟨new, by simpa using h1, by simpa using h2, by simpa using h3, by simpa using h4⟩
  refine hrest _ ?_
  unfold deliverIfNext
  split_ifs with heq
  · have hdel : (e.storeSdu sdu).rxDeliv = e.rxDeliv := rfl
    have hn := storeSdu_rxNext (e := e) hlt
    have hlast := h.ahead.next_lt
    have hl : ∀ s ∈ (e.storeSdu sdu).rxList,
        (e.storeSdu sdu).rxDeliv ≤ s.count ∧ s.count < (e.storeSdu sdu).rxNext := fun s hs => by
      rcases mem_storeSdu.1 hs with rfl | hs
      · omega
      · have := h.ahead.stored s hs
        omega
    obtain ⟨hle, -, htaken, -⟩ := takeInOrder_spec (storeSdu_sorted h.ahead.sorted hnew) hl
      (by omega) (by omega)
    exact ⟨_, rfl, takeInOrder_append _ _, htaken, hle⟩
  · exact ⟨[], by simp [storeSdu], rfl, by simp, le_rfl⟩

theorem expireReordering_advances (h : e.BufferInv) (hne : e.tReorderingStart ≠ 0) :
    Advances e e.expireReordering e.rxList := by
  obtain ⟨hlt, hle⟩ := h.reord hne
  set p : NrPdcpSdu → Bool := fun cur => cur.count < e.rxReord
  have hsuf := List.dropWhile_suffix (l := e.rxList) p
  obtain ⟨hge, -, htaken, -⟩ := takeInOrder_spec (h.ahead.sorted.sublist hsuf.sublist)
    (fun s hs => ⟨dropWhile_ge_of_sorted h.ahead.sorted s hs,
      (h.ahead.stored s (hsuf.subset hs)).2⟩) hle h.ahead.next_lt
  refine ⟨e.rxList.takeWhile p ++ (takeInOrder (e.rxList.dropWhile p) e.rxReord).1, ?_, ?_, ?_, ?_⟩
  · rw [expireReordering, startReordering_out, List.map_append, ← List.append_assoc]
    rfl
  · rw [expireReordering, startReordering_rxList, List.append_assoc]
    exact (congrArg _ (takeInOrder_append _ _)).trans List.takeWhile_append_dropWhile
  · rw [expireReordering, startReordering_rxDeliv]
    intro s hs
    rcases List.mem_append.1 hs with hs | hs
    · have : s.count < e.rxReord := by simpa [p] using List.mem_takeWhile_imp hs
      exact this.trans_le hge
    · exact htaken s hs
  · rw [expireReordering, startReordering_rxDeliv]
    exact hlt.le.trans hge

/-- The clock. -/
theorem setTime_inOrder (now : UInt64) (h : InOrder e) : InOrder (e.setTime now) ∧
    ∀ s, s ∈ deliveredSdus (e.setTime now).out ++ (e.setTime now).rxList ↔
      s ∈ deliveredSdus e.out ++ e.rxList := by
  have hb := setTime_buffer now h.buffer
  have hclock : InOrder { e with tCurrent := now } :=
    ⟨⟨h.buffer.coherent.congr rfl rfl rfl, h.buffer.ahead.congr rfl rfl rfl, h.buffer.reord⟩,
      h.sorted, h.below⟩
  unfold setTime checkTReordering at *
  split_ifs at * with hinf hstop
  · exact ⟨hclock, fun _ => .rfl⟩
  · exact ⟨hclock, fun _ => .rfl⟩
  · have hadv := expireReordering_advances hclock.buffer fun h0 => hstop (.inl h0)
    exact ⟨hclock.advance hadv hclock.buffer.ahead.sorted
      (fun s hs => (hclock.buffer.ahead.stored s hs).1.le) hb, fun _ => hadv.mem⟩

/-- Reception of an SDU whose COUNT is not the last one. -/
theorem recvPdu_inOrder (h : InOrder e)
    (hlt : (e.sduOf k (e.setDcBit buffer)).count + 1 < uint32Modulus) :
    InOrder (e.recvPdu k buffer) ∧
      ∀ s ∈ deliveredSdus (e.recvPdu k buffer).out ++ (e.recvPdu k buffer).rxList,
        s = e.sduOf k (e.setDcBit buffer) ∨ s ∈ deliveredSdus e.out ++ e.rxList := by
  rw [recvPdu_eq]
  split_ifs with hacc
  · have hge : e.rxDeliv ≤ (e.sduOf k (e.setDcBit buffer)).count := hacc.2.2.2.1
    have hnew : ¬nrPdcpSduInList e.rxList (e.sduOf k (e.setDcBit buffer)).count := hacc.2.2.2.2
    have hadv := receptionActions_advances h.buffer hge hlt hnew
    refine ⟨h.advance hadv (storeSdu_sorted h.buffer.ahead.sorted hnew) (fun s hs => ?_)
      (receptionActions_buffer h.buffer hge hlt hnew), fun s hs => ?_⟩
    · rcases mem_insertBefore.1 hs with rfl | hs
      · exact hge
      · exact (h.buffer.ahead.stored s hs).1.le
    · rcases List.mem_append.1 (hadv.mem.1 hs) with hs | hs
      · exact .inr (List.mem_append_left _ hs)
      · exact (mem_insertBefore.1 hs).imp_right (List.mem_append_right _)
  · exact ⟨h, fun s hs => .inr hs⟩

/-! ## Configuration -/

/-- What the two ends agree on. -/
def config (e : NrPdcpEntity) :=
  ((e.type, e.isGnb, e.rbId, e.hasSdapRx, e.hasSdapTx), (e.snSize, e.snMax, e.windowSize),
    e.hasCiphering, e.hasIntegrity, e.securityContext, e.integrityContext, e.entitySuspended)

theorem Peers.congr {s r s' r' : NrPdcpEntity} (h : Peers s r) (hs : s'.config = s.config)
    (hr : r'.config = r.config) : Peers s' r' := by
  simp only [config, Prod.mk.injEq] at hs hr
  obtain ⟨⟨a1, a2, a3, a4, a5⟩, ⟨a6, a7, a8⟩, a9, a10, a11, a12, -⟩ := hs
  obtain ⟨⟨b1, b2, b3, b4, b5⟩, ⟨b6, b7, b8⟩, b9, b10, b11, b12, -⟩ := hr
  constructor
  · exact h.sender.congr a6 a7 a8
  · exact h.receiver.congr b6 b7 b8
  · rw [a6, b6, h.snSize]
  · rw [a1, b1, h.type]
  · rw [a3, b3, h.rbId]
  · rw [a2, b2, h.isGnb]
  · rw [a9, b9, h.hasCiphering]
  · rw [a10, b10, h.hasIntegrity]
  · rw [a11, b11, h.securityContext]
  · rw [a12, b12, h.integrityContext]
  · rw [a5, b4, h.hasSdap]

theorem startReordering_config : e.startReordering.config = e.config := by
  unfold startReordering; split_ifs <;> rfl

theorem recvPdu_config : (e.recvPdu k buffer).config = e.config := by
  rw [recvPdu_eq]
  split_ifs
  · rw [receptionActions, startReordering_config]
    unfold stopReordering deliverIfNext
    split_ifs <;> rfl
  · rfl

theorem setTime_config {now : UInt64} : (e.setTime now).config = e.config := by
  unfold setTime checkTReordering
  split_ifs
  · rfl
  · rfl
  · rw [expireReordering, startReordering_config]
    rfl

end NrPdcpEntity

/-! ## The system -/

/-- A PDU that was sent, with its SDU and the COUNT it was ciphered and integrity protected
with. -/
structure SentPdu where
  count : Nat
  buffer : List UInt8
  pdu : List UInt8
deriving DecidableEq, Repr

/-- Two ends of a bearer, and all PDUs that were sent. -/
structure PdcpChannel where
  sender : NrPdcpEntity
  receiver : NrPdcpEntity
  sent : List SentPdu
deriving DecidableEq, Repr

/-- Submission of an SDU, arrival of the `i`-th PDU sent, or a tick of the receiver's
clock. -/
inductive ChannelOp
  | submit (buffer : List UInt8) (pduMaxSize : Int)
  | arrive (i : Nat)
  | tick (now : UInt64)

/-- One step of the system. -/
def channelStep (k : PdcpCrypto) (c : PdcpChannel) : ChannelOp → Option PdcpChannel
  | .submit buffer pduMaxSize =>
    (c.sender.processSdu k buffer pduMaxSize).map fun r =>
      { c with
        sender := r.1
        sent := c.sent ++ (r.2.map fun pdu => ⟨c.sender.txNext, buffer, pdu⟩).toList }
  | .arrive i => c.sent[i]?.map fun p => { c with receiver := c.receiver.recvPdu k p.pdu }
  | .tick now => some { c with receiver := c.receiver.setTime now }

/-- What arrives is not too far from RX_DELIV. -/
def Arrives (c : PdcpChannel) : ChannelOp → Prop
  | .arrive i => ∀ p, c.sent[i]? = some p → c.receiver.InWindow p.count
  | _ => True

/-- The two ends agree on what was sent. -/
structure Agreement (c : PdcpChannel) : Prop where
  /-- The receiver finds the COUNT of a PDU. -/
  count : ∀ p ∈ c.sent, c.receiver.InWindow p.count →
    c.receiver.rcvdCount (c.receiver.rcvdSn (c.receiver.setDcBit p.pdu)) = p.count
  /-- What is delivered with a COUNT is the SDU submitted with this COUNT. -/
  delivered : c.sent.length < 2 ^ 32 → ∀ sdu ∈ deliveredSdus c.receiver.out,
    ∃ p, c.sent[sdu.count]? = some p ∧ p.count = sdu.count ∧ p.buffer = sdu.buffer
  /-- The COUNTs delivered increase. -/
  increasing : c.sent.length < 2 ^ 32 →
    (deliveredSdus c.receiver.out).Pairwise (·.count < ·.count)

namespace PdcpChannel

open NrPdcpEntity

variable {c c' : PdcpChannel} {k : PdcpCrypto}

/-- What holds however long the run is. -/
structure SentInv (k : PdcpCrypto) (c : PdcpChannel) : Prop where
  peers : Peers c.sender c.receiver
  txNext_eq : c.sender.txNext = c.sent.length % uint32Modulus
  sent : ∀ p ∈ c.sent, ∃ s, Peers s c.receiver ∧ s.txNext = p.count ∧ p.count < uint32Modulus ∧
    p.pdu = s.buildPdu k p.buffer

/-- What holds while COUNT has not wrapped. -/
structure DeliveryInv (c : PdcpChannel) : Prop where
  index : ∀ (i : Nat) (p : SentPdu), c.sent[i]? = some p → p.count = i
  inOrder : c.receiver.InOrder
  origin : ∀ sdu ∈ deliveredSdus c.receiver.out ++ c.receiver.rxList,
    ∃ p, c.sent[sdu.count]? = some p ∧ p.buffer = sdu.buffer

theorem SentInv.rcvdCount_eq (h : SentInv k c) {p : SentPdu} (hp : p ∈ c.sent)
    (hw : c.receiver.InWindow p.count) :
    c.receiver.rcvdCount (c.receiver.rcvdSn (c.receiver.setDcBit p.pdu)) = p.count ∧
      (c.receiver.sduOf k (c.receiver.setDcBit p.pdu)).buffer = p.buffer := by
  obtain ⟨s, hpeers, htx, hlt, hpdu⟩ := h.sent p hp
  rw [hpdu, setDcBit_buildPdu hpeers]
  rw [← htx] at hw hlt ⊢
  exact ⟨rcvdCount_buildPdu hpeers hlt hw, (sduOf_buildPdu _ _ hpeers hlt hw).2⟩

/-- A PDU that arrives. -/
theorem DeliveryInv.arrive (hs : SentInv k c) (h : DeliveryInv c) (hlen : c.sent.length < 2 ^ 32)
    {i : Nat} {p : SentPdu} (hp : c.sent[i]? = some p) (hw : c.receiver.InWindow p.count) :
    DeliveryInv { c with receiver := c.receiver.recvPdu k p.pdu } := by
  obtain ⟨hcount, hbuffer⟩ := hs.rcvdCount_eq (List.mem_of_getElem? hp) hw
  have hindex := h.index i p hp
  have hi : i < c.sent.length := (List.getElem?_eq_some_iff.1 hp).1
  have hsdu : (c.receiver.sduOf k (c.receiver.setDcBit p.pdu)).count = i := hcount.trans hindex
  have hlt : (c.receiver.sduOf k (c.receiver.setDcBit p.pdu)).count + 1 < uint32Modulus := by
    rw [hsdu, uint32Modulus]
    omega
  obtain ⟨hord, hmem⟩ := recvPdu_inOrder h.inOrder hlt
  refine ⟨h.index, hord, fun sdu hin => ?_⟩
  rcases hmem sdu hin with rfl | hin
  · exact ⟨p, by rw [hsdu]; exact hp, hbuffer.symm⟩
  · exact h.origin sdu hin

/-- An SDU that is submitted. -/
theorem SentInv.submit (h : SentInv k c) {buffer : List UInt8} {pduMaxSize : Int}
    (hs : channelStep k c (.submit buffer pduMaxSize) = some c') : SentInv k c' ∧
      c'.receiver = c.receiver ∧ (c'.sent = c.sent ∨ ∃ p : SentPdu, c'.sent = c.sent ++ [p] ∧
        p.count = c.sender.txNext) := by
  obtain ⟨r, hr, rfl⟩ := Option.map_eq_some_iff.1 hs
  unfold processSdu at hr
  split_ifs at hr <;> cases hr
  · refine ⟨⟨h.peers, ?_, ?_⟩, rfl, .inl (by simp)⟩
    · simpa using h.txNext_eq
    · simpa using h.sent
  · have htx : c.sender.txNext < uint32Modulus := by
      rw [h.txNext_eq]
      exact Nat.mod_lt _ (by decide)
    refine ⟨⟨h.peers.congr rfl rfl, ?_, ?_⟩, rfl, .inr ⟨_, rfl, rfl⟩⟩
    · simp [h.txNext_eq]
    · intro p hp
      rcases List.mem_append.1 hp with hp | hp
      · exact h.sent p hp
      · obtain rfl : p = ⟨c.sender.txNext, buffer, c.sender.buildPdu k buffer⟩ := by simpa using hp
        exact ⟨c.sender, h.peers, rfl, htx, rfl⟩

theorem SentInv.step (h : SentInv k c) {a : ChannelOp} (hs : channelStep k c a = some c') :
    SentInv k c' := by
  have hrecv : ∀ r : NrPdcpEntity, r.config = c.receiver.config →
      SentInv k { c with receiver := r } := fun r hr =>
    ⟨h.peers.congr rfl hr, h.txNext_eq, fun p hp => by
      obtain ⟨s, hpeers, hrest⟩ := h.sent p hp
      exact ⟨s, hpeers.congr rfl hr, hrest⟩⟩
  cases a with
  | submit buffer pduMaxSize => exact (h.submit hs).1
  | arrive i =>
    obtain ⟨p, -, rfl⟩ := Option.map_eq_some_iff.1 hs
    exact hrecv _ recvPdu_config
  | tick now =>
    cases hs
    exact hrecv _ setTime_config

theorem DeliveryInv.step (hs : SentInv k c) (h : DeliveryInv c) {a : ChannelOp}
    (hok : Arrives c a) (hstep : channelStep k c a = some c') (hlen : c'.sent.length < 2 ^ 32) :
    DeliveryInv c' := by
  cases a with
  | submit buffer pduMaxSize =>
    obtain ⟨-, hr, hsent | ⟨p, hsent, hp⟩⟩ := hs.submit hstep
    · exact ⟨by rw [hsent]; exact h.index, by rw [hr]; exact h.inOrder,
        by rw [hr, hsent]; exact h.origin⟩
    · have hlen' : c.sent.length + 1 < 2 ^ 32 := by simpa [hsent] using hlen
      rw [hs.txNext_eq, uint32Modulus, Nat.mod_eq_of_lt (by omega)] at hp
      refine ⟨fun i q hq => ?_, by rw [hr]; exact h.inOrder, fun sdu hin => ?_⟩
      · rw [hsent, List.getElem?_append] at hq
        split_ifs at hq with hi
        · exact h.index i q hq
        · obtain ⟨hzero, rfl⟩ : i - c.sent.length = 0 ∧ p = q := by
            have := (List.getElem?_eq_some_iff.1 hq).1
            have hzero : i - c.sent.length = 0 := by simpa using this
            exact ⟨hzero, by simpa [hzero] using hq⟩
          omega
      · rw [hr] at hin
        obtain ⟨q, hq, hb⟩ := h.origin sdu hin
        refine ⟨q, ?_, hb⟩
        rw [hsent, List.getElem?_append_left (List.getElem?_eq_some_iff.1 hq).1, hq]
  | arrive i =>
    obtain ⟨p, hp, rfl⟩ := Option.map_eq_some_iff.1 hstep
    exact h.arrive hs hlen hp (hok p hp)
  | tick now =>
    cases hstep
    obtain ⟨hord, hmem⟩ := setTime_inOrder now h.inOrder
    exact ⟨h.index, hord, fun sdu hin => h.origin sdu ((hmem sdu).1 hin)⟩

/-- The sequence of PDUs only grows. -/
theorem length_sent_le {a : ChannelOp} (hs : SentInv k c) (hstep : channelStep k c a = some c') :
    c.sent.length ≤ c'.sent.length := by
  cases a with
  | submit buffer pduMaxSize =>
    obtain ⟨-, -, hsent | ⟨p, hsent, -⟩⟩ := hs.submit hstep <;> simp [hsent]
  | arrive i =>
    obtain ⟨p, -, rfl⟩ := Option.map_eq_some_iff.1 hstep
    exact le_rfl
  | tick now =>
    cases hstep
    exact le_rfl

theorem agreement_of_inv (hs : SentInv k c) (h : c.sent.length < 2 ^ 32 → DeliveryInv c) :
    Agreement c where
  count p hp hw := (hs.rcvdCount_eq hp hw).1
  delivered hlen sdu hsdu := by
    obtain ⟨p, hp, hb⟩ := (h hlen).origin sdu (List.mem_append_left _ hsdu)
    exact ⟨p, hp, (h hlen).index _ p hp, hb⟩
  increasing hlen := (h hlen).inOrder.sorted

end PdcpChannel

open NrPdcpEntity

/-- What `setSecurity` does not touch. -/
theorem setSecurity_fresh {e e' : NrPdcpEntity} {p : NrPdcpSecurityKeysAndAlgos}
    (h : e.setSecurity p = some e') :
    e'.txNext = e.txNext ∧ deliveredSdus e'.out = deliveredSdus e.out := by
  obtain ⟨e₁, h₁, h₂⟩ := Option.bind_eq_some_iff.1 h
  have hi : e₁.txNext = e.txNext ∧ e₁.out = e.out := by
    unfold setIntegrity at h₁
    split_ifs at h₁ <;> cases h₁ <;> exact ⟨rfl, rfl⟩
  rw [← hi.1, ← hi.2]
  unfold setCiphering at h₂
  split_ifs at h₂ <;> cases h₂
  · exact ⟨rfl, rfl⟩
  · exact ⟨rfl, rfl⟩
  · exact ⟨rfl, by rw [deliveredSdus_append]; exact List.append_nil _⟩

/-- Two new entities with one configuration, over any channel with PDUs that arrive in the
window. -/
theorem channel_agreement (k : PdcpCrypto) {cs cr : PdcpConfig} {s r : NrPdcpEntity}
    {c : PdcpChannel} (hs : newNrPdcpEntity cs = some s) (hr : newNrPdcpEntity cr = some r)
    (hpeers : Peers s r) (h : Reach (channelStep k) Arrives ⟨s, r, []⟩ c) : Agreement c := by
  obtain ⟨hbuf, hd, -, -⟩ := newNrPdcpEntity_buffer hr
  have hout : deliveredSdus r.out = [] := (setSecurity_fresh hr).2
  have hnil : r.rxList = [] := by
    have hv := setSecurity_rxView hr
    simp only [rxView, Prod.mk.injEq] at hv
    exact hv.2.1
  have hsent : PdcpChannel.SentInv k ⟨s, r, []⟩ :=
    ⟨hpeers, (setSecurity_fresh hs).1, by simp⟩
  have hdel : PdcpChannel.DeliveryInv ⟨s, r, []⟩ :=
    ⟨by simp, ⟨hbuf, by simp [hout], by simp [hout]⟩, by simp [hout, hnil]⟩
  obtain ⟨h₁, h₂⟩ := h.invariant
    (P := fun c => PdcpChannel.SentInv k c ∧ (c.sent.length < 2 ^ 32 → PdcpChannel.DeliveryInv c))
    ⟨hsent, fun _ => hdel⟩ fun c a c' hc hok hstep =>
      ⟨hc.1.step hstep, fun hlen =>
        (hc.2 ((PdcpChannel.length_sent_le hc.1 hstep).trans_lt hlen)).step hc.1 hok hstep hlen⟩
  exact PdcpChannel.agreement_of_inv h₁ h₂

/-- The two ends of a DRB without security. -/
def plainDrbPair : PdcpChannel :=
  ⟨plainDrbEntity, { plainDrbEntity with isGnb := false }, []⟩

theorem newNrPdcpEntity_plainDrbUe : newNrPdcpEntity { plainDrb with isGnb := false } =
    some { plainDrbEntity with isGnb := false } := by
  decide

theorem plainDrbPair_peers : Peers plainDrbPair.sender plainDrbPair.receiver := by
  constructor <;> first | rfl | exact ⟨.inl rfl, rfl, rfl⟩

theorem channel_agreement_plainDrb : ∃ c,
    Reach (channelStep .null) Arrives plainDrbPair c ∧ c.sent.length = 1 ∧ Agreement c := by
  have harrives : Arrives ⟨{ plainDrbEntity with txNext := 1, out := [.processSdu 0 false] },
      plainDrbPair.receiver, [⟨0, [7], [0x80, 0, 7]⟩]⟩ (.arrive 0) := by
    intro p hp
    obtain rfl : ⟨0, [7], [0x80, 0, 7]⟩ = p := Option.some.inj hp
    exact ⟨by decide, by decide⟩
  have hinit : Reach (channelStep .null) Arrives plainDrbPair plainDrbPair := .refl
  have hrun := (hinit.next (a := ChannelOp.submit [7] 16) trivial rfl).next harrives rfl
  exact ⟨_, hrun, rfl, channel_agreement .null newNrPdcpEntity_plainDrb newNrPdcpEntity_plainDrbUe
    plainDrbPair_peers hrun⟩

/-! ## Where agreement ends -/

/-- After `n` SDUs, each delivered before the next one was submitted. -/
structure InStep (n : Nat) (c : PdcpChannel) : Prop where
  sent : PdcpChannel.SentInv .null c
  length : c.sent.length = n
  sender : c.sender.config = plainDrbEntity.config
  active : c.receiver.entitySuspended = false
  rxList : c.receiver.rxList = []
  rxDeliv : c.receiver.rxDeliv = n % uint32Modulus
  rxNext : c.receiver.rxNext = n % uint32Modulus
  timer : c.receiver.tReorderingStart = 0
  delivered : (deliveredSdus c.receiver.out).map (·.count) =
    (List.range n).map (· % uint32Modulus)

/-- The state after the one-byte SDU `7` was submitted. -/
def PdcpChannel.submitted (c : PdcpChannel) : PdcpChannel :=
  { c with
    sender := { c.sender with
      txNext := (c.sender.txNext + 1) % uint32Modulus
      out := c.sender.out ++ [.processSdu c.sender.txNext c.sender.hasCiphering] }
    sent := c.sent ++ [⟨c.sender.txNext, [7], c.sender.buildPdu .null [7]⟩] }

/-- The submission is not refused. -/
theorem channelStep_submit {c : PdcpChannel} (h : c.sender.config = plainDrbEntity.config) :
    channelStep .null c (.submit [7] 16) = some c.submitted := by
  simp only [config, Prod.mk.injEq] at h
  obtain ⟨-, -, hciph, -, -, -, hactive⟩ := h
  have hoff : c.sender.hasCiphering = false := hciph
  have hon : c.sender.entitySuspended = false := hactive
  have hlen : c.sender.cipherLengthOk
      (([7] : List UInt8).length + c.sender.integritySize - c.sender.hasSdapTx.toNat) :=
    fun h => by simp [hoff] at h
  rw [channelStep, processSdu, if_neg (by decide), if_neg (by simp [hon]),
    if_neg (not_not.2 hlen)]
  rfl

/-- One SDU more. -/
theorem InStep.next {n : Nat} {c : PdcpChannel} (h : InStep n c) : ∃ c',
    InStep (n + 1) c' ∧ ∀ {c₀}, Reach (channelStep .null) Arrives c₀ c →
      Reach (channelStep .null) Arrives c₀ c' := by
  have htx : c.sender.txNext = n % uint32Modulus := by rw [h.sent.txNext_eq, h.length]
  have hlt : n % uint32Modulus < uint32Modulus := Nat.mod_lt _ (by decide)
  have hpeers := h.sent.peers
  have hwin : 0 < c.receiver.windowSize := by
    obtain ⟨-, hw⟩ | ⟨-, hw⟩ := hpeers.receiver.values <;> rw [hw] <;> decide
  have hawaits : c.receiver.Awaits c.sender.txNext := by
    refine ⟨h.active, htx ▸ hlt, by rw [h.rxDeliv, htx], by rw [h.rxDeliv, htx]; omega, ?_⟩
    rw [h.rxList]
    rintro ⟨sdu, hsdu, -⟩
    simp at hsdu
  have hsdap : c.sender.hasSdapTx = false := by
    have := h.sender
    simp only [config, Prod.mk.injEq] at this
    exact this.1.2.2.2.2
  have hsubmit := channelStep_submit h.sender
  set p : SentPdu := ⟨c.sender.txNext, [7], c.sender.buildPdu .null [7]⟩
  have hp : c.submitted.sent[n]? = some p := by
    rw [← h.length]
    exact List.getElem?_concat_length
  have harrive : channelStep .null c.submitted (.arrive n) =
      some { c.submitted with receiver := c.receiver.recvPdu .null p.pdu } := by
    rw [channelStep, hp]
    rfl
  have hok : Arrives c.submitted (.arrive n) := fun q hq => by
    obtain rfl : p = q := Option.some.inj (hp.symm.trans hq)
    exact hawaits.inWindow
  obtain ⟨hcount, -⟩ := sduOf_buildPdu .null [7] hpeers hawaits.lt
    hawaits.inWindow
  have hrecv : c.receiver.recvPdu .null p.pdu =
      { c.receiver with
        rxDeliv := (n + 1) % uint32Modulus
        rxNext := (n + 1) % uint32Modulus
        rxSize := c.receiver.rxSize +
          ((c.receiver.sduOf .null (c.sender.buildPdu .null [7])).buffer.length +
            c.receiver.integritySize) -
          sduBytes [c.receiver.sduOf .null (c.sender.buildPdu .null [7])]
        out := c.receiver.out ++
          [.deliverSdu (c.receiver.sduOf .null (c.sender.buildPdu .null [7]))] } := by
    rw [recvPdu_eq, setDcBit_buildPdu hpeers,
      if_pos ⟨h.active, (acceptsPdu_buildPdu _ _ hpeers hawaits).2 (by simp [hsdap])⟩,
      receptionActions_next h.rxList (by rw [h.rxDeliv, hcount, htx])
        (by rw [h.rxNext, hcount, htx]) h.timer, hcount, htx, Nat.mod_add_mod]
  have hinv₁ := h.sent.step hsubmit
  refine ⟨_, ?_, fun hreach => (hreach.next (a := ChannelOp.submit [7] 16) trivial hsubmit).next hok
    harrive⟩
  refine ⟨hinv₁.step harrive, ?_, h.sender, ?_, ?_, ?_, ?_, ?_, ?_⟩
  · simp [PdcpChannel.submitted, h.length]
  all_goals dsimp only; rw [hrecv]
  · exact h.active
  · exact h.rxList
  · exact h.timer
  · dsimp only
    rw [deliveredSdus_append, List.map_append, h.delivered, List.range_succ, List.map_append]
    congr 1
    exact congrArg (fun count => [count]) (hcount.trans htx)

theorem reach_inStep : ∀ n, ∃ c, Reach (channelStep .null) Arrives plainDrbPair c ∧ InStep n c
  | 0 => ⟨_, .refl, ⟨plainDrbPair_peers, rfl, by simp [plainDrbPair]⟩, rfl, rfl, rfl, rfl, rfl, rfl,
      rfl, rfl⟩
  | n + 1 => by
    obtain ⟨c, hreach, h⟩ := reach_inStep n
    obtain ⟨c', h', hstep⟩ := h.next
    exact ⟨c', hstep hreach, h'⟩

/-- `n` SDUs of which none arrives. -/
theorem reach_submitted : ∀ n, ∃ c, Reach (channelStep .null) Arrives plainDrbPair c ∧
    PdcpChannel.SentInv .null c ∧ c.sent.length = n ∧ c.receiver = plainDrbPair.receiver ∧
      c.sender.config = plainDrbEntity.config
  | 0 => ⟨_, .refl, ⟨plainDrbPair_peers, rfl, by simp [plainDrbPair]⟩, rfl, rfl, rfl⟩
  | n + 1 => by
    obtain ⟨c, hreach, hinv, hlen, hr, hs⟩ := reach_submitted n
    have hsubmit := channelStep_submit hs
    refine ⟨_, hreach.next (a := ChannelOp.submit [7] 16) trivial hsubmit, hinv.step hsubmit, ?_,
      hr, hs⟩
    simp [PdcpChannel.submitted, hlen]

/-- The COUNTs of `2^32 + 1` SDUs delivered in order do not increase. -/
theorem not_increasing_of_inStep {c : PdcpChannel} (h : InStep (2 ^ 32 + 1) c) :
    ¬(deliveredSdus c.receiver.out).Pairwise (·.count < ·.count) := by
  intro hinc
  have hcounts : ((deliveredSdus c.receiver.out).map (·.count)).Pairwise (· < ·) :=
    List.pairwise_map.2 hinc
  rw [h.delivered, List.pairwise_map] at hcounts
  have hlast := List.pairwise_iff_getElem.1 hcounts 0 (2 ^ 32)
    (by rw [List.length_range]; omega) (by rw [List.length_range]; omega) (by omega)
  rw [List.getElem_range, List.getElem_range] at hlast
  exact absurd hlast (by decide)

/-- Agreement ends when COUNT wraps : after `2^32 + 1` SDUs in order the COUNTs delivered do
not increase. And half the SNs ahead is too far : the 2049th PDU of a DRB with 12-bit SNs,
if none before it arrives, is taken for another COUNT. -/
theorem channel_agreement_fails :
    (∃ c, Reach (channelStep .null) Arrives plainDrbPair c ∧
      ¬(deliveredSdus c.receiver.out).Pairwise (·.count < ·.count)) ∧
    ∃ c, Reach (channelStep .null) Arrives plainDrbPair c ∧
      ∃ p ∈ c.sent, p.count = c.receiver.rxDeliv + c.receiver.windowSize ∧
        c.receiver.rcvdCount (c.receiver.rcvdSn (c.receiver.setDcBit p.pdu)) ≠ p.count := by
  constructor
  · obtain ⟨c, hreach, h⟩ := reach_inStep (2 ^ 32 + 1)
    exact ⟨c, hreach, not_increasing_of_inStep h⟩
  · obtain ⟨c, hreach, hinv, hlen, hr, hs⟩ := reach_submitted 2048
    have hsubmit := channelStep_submit hs
    have htx : c.sender.txNext = 2048 := by
      rw [hinv.txNext_eq, hlen]
      rfl
    have hmax : c.sender.snMax = 4095 := by
      simp only [config, Prod.mk.injEq] at hs
      exact hs.2.1.2.1
    refine ⟨_, hreach.next (a := ChannelOp.submit [7] 16) trivial hsubmit,
      ⟨c.sender.txNext, [7], c.sender.buildPdu .null [7]⟩, by simp [PdcpChannel.submitted], ?_, ?_⟩
    · rw [PdcpChannel.submitted]
      dsimp only
      rw [htx, hr]
      rfl
    · rw [PdcpChannel.submitted]
      dsimp only
      rw [setDcBit_buildPdu hinv.peers, rcvdSn_buildPdu hinv.peers, htx, hmax, hr]
      decide

end NrStack
