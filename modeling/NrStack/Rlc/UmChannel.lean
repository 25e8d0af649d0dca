import NrStack.Rlc.UmAccounting
import NrStack.Rlc.UmPdu

/-!
# UM over an in-order lossy channel

A sender, its PDUs in flight in the order they were sent, and a receiver. The channel takes
the oldest PDU in flight to the receiver, or loses it. UM has no state for the SDUs it has
delivered : an old segment and a new one with the same SN are told apart by the window only,
so what matters is how many SNs go by between two segments that are stored.

SNs wrap; `seq`, the number of segmented SDUs sent before, does not.
-/

namespace NrStack

/-- A PDU, with the segment it was made of. -/
structure UmPacket where
  segment : NrRlcSduSegment
  seq : Nat
  pdu : List UInt8
deriving DecidableEq, Repr

/-- Whether the PDU has an SN. -/
def UmPacket.hasSn (p : UmPacket) : Bool :=
  !(p.segment.isFirst && p.segment.isLast)

/-- A sender, a receiver and the PDUs in flight between them. `submitted`, `past`, `seq`,
`arrived` and `stored` are history. -/
structure UmChannel where
  sender : NrRlcEntityUm
  receiver : NrRlcEntityUm
  /-- The SDUs that the sender took, in that order. -/
  submitted : List (List UInt8)
  /-- The PDUs that have arrived or were lost. -/
  past : List UmPacket
  /-- The PDUs in flight, the oldest first. -/
  inFlight : List UmPacket
  /-- The number of segmented SDUs that are sent completely. -/
  seq : Nat
  /-- One more than the highest `seq` that has arrived. -/
  arrived : Nat
  /-- One more than the highest `seq` of which the receiver stored a segment. -/
  stored : Nat

/-- Both ends are created with `c`. -/
def newUmChannel (c : UmConfig) : UmChannel :=
  { sender := newNrRlcEntityUm c
    receiver := newNrRlcEntityUm c
    submitted := []
    past := []
    inFlight := []
    seq := 0
    arrived := 0
    stored := 0 }

/-- A submitted SDU, a grant, an arrival, a loss, an SDU that is discarded at the sender, and
the clocks. -/
inductive UmChannelOp
  | submit (buffer : List UInt8) (sduId : Int)
  | grant (size : Int)
  | arrive
  | lose
  | discard (sduId : Int)
  | senderTime (now : UInt64)
  | receiverTime (now : UInt64)
deriving DecidableEq, Repr

namespace UmChannel

variable (s : UmChannel)

/-- Submit an SDU; `none` is a failed assertion. It is taken if an SDU is created for it. -/
def submit (buffer : List UInt8) (sduId : Int) : Option UmChannel :=
  (s.sender.recvSdu buffer sduId).map fun e =>
    { s with
      sender := e
      submitted := if e.nextSdu = s.sender.nextSdu then s.submitted
        else s.submitted ++ [buffer] }

/-- The PDU with the segment `g`. -/
def send (e : NrRlcEntityUm) (pdu : List UInt8) (g : NrRlcSduSegment) : UmChannel :=
  { s with
    sender := e
    inFlight := s.inFlight ++ [{ segment := g, seq := s.seq, pdu }]
    seq := if ¬g.isFirst ∧ g.isLast then s.seq + 1 else s.seq }

/-- A grant : at most one segment is sent. -/
def grant (size : Int) : UmChannel :=
  let r := s.sender.generatePdu size
  match r.1.sent.drop s.sender.sent.length with
  | [] => { s with sender := r.1 }
  | g :: _ => s.send r.1 r.2 g

/-- Whether the receiver stores the segment in a PDU. -/
def stores (pdu : List UInt8) : Bool :=
  (s.receiver.receivedPdu pdu).any fun segment => s.receiver.acceptsPdu segment

/-- The oldest PDU in flight arrives. -/
def arrive : UmChannel :=
  match s.inFlight with
  | [] => s
  | p :: rest =>
    { s with
      receiver := s.receiver.recvPdu p.pdu
      past := s.past ++ [p]
      inFlight := rest
      arrived := if p.hasSn then max s.arrived (p.seq + 1) else s.arrived
      stored := if p.hasSn ∧ s.stores p.pdu then max s.stored (p.seq + 1) else s.stored }

/-- The oldest PDU in flight is lost. -/
def lose : UmChannel :=
  match s.inFlight with
  | [] => s
  | p :: rest => { s with past := s.past ++ [p], inFlight := rest }

end UmChannel

/-- One step; `none` is a failed assertion. -/
def umChannelStep (s : UmChannel) : UmChannelOp → Option UmChannel
  | .submit buffer sduId => s.submit buffer sduId
  | .grant size => some (s.grant size)
  | .arrive => some s.arrive
  | .lose => some s.lose
  | .discard sduId => some { s with sender := s.sender.discardSdu sduId }
  | .senderTime now => some { s with sender := s.sender.setTime now }
  | .receiverTime now => some { s with receiver := s.receiver.setTime now }

/-- Fewer than a window of consecutive SNs are lost on the way before a segment arrives. -/
def FewLost (s : UmChannel) (op : UmChannelOp) : Prop :=
  op = .arrive → ∀ p, s.inFlight.head? = some p → p.hasSn →
    (p.seq - s.arrived : Int) < s.receiver.windowSize

/-- Fewer than a window of consecutive SNs pass without a stored segment, because the channel
loses them or the receiver discards them, before a segment arrives. -/
def FewNotStored (s : UmChannel) (op : UmChannelOp) : Prop :=
  op = .arrive → ∀ p, s.inFlight.head? = some p → p.hasSn →
    (p.seq - s.stored : Int) < s.receiver.windowSize

/-- What a UM channel is for. -/
structure UmChannelOk (s : UmChannel) : Prop where
  /-- The SDUs that are delivered were submitted, in that order, and none of them is
  delivered twice. -/
  delivered : s.receiver.out.Sublist
    (s.submitted.map fun buffer => RlcEvent.deliverSdu (buffer.map some))
  /-- The stored SNs are in the window below RX_Next_Highest. -/
  stored_lt : ∀ p ∈ s.receiver.rxList, s.receiver.rxDist p.sn < s.receiver.windowSize
  sorted : s.receiver.rxList.Pairwise (RxOrder s.receiver.snModulus s.receiver.rxBase)
  rxNextReassembly_le : s.receiver.rxDist s.receiver.rxNextReassembly ≤ s.receiver.windowSize
  /-- The loops that skip delivered SNs end at an SN that is not delivered. -/
  skip_ends : ∀ sn, IsSn s.receiver.snModulus sn →
    ¬sduDelivered s.receiver.rxList (s.receiver.skipDelivered sn)

/-! ## What the sender does -/

namespace NrRlcEntityUm

variable {e e' : NrRlcEntityUm}

/-- What the SN of a segment depends on. -/
def snView (e : NrRlcEntityUm) : Nat × Int × Int :=
  (e.snFieldLength, e.snModulus, e.txNext)

/-- A submitted SDU is rejected, or at the end of the TX list. -/
theorem recvSdu_cases (hq : e.TxQueue) {buffer : List UInt8} {sduId : Int}
    (h : e.recvSdu buffer sduId = some e') : e'.TxQueue ∧ e'.snView = e.snView ∧
      ((e'.txList = e.txList ∧ e'.nextSdu = e.nextSdu) ∨
        ((buffer.length : Int) ≤ nrSduMax ∧ e'.nextSdu = e.nextSdu + 1 ∧
          e'.txList = e.txList ++ [nrRlcNewSdu e.nextSdu e.nextSegment buffer sduId])) := by
  have hlog : e.logRejected.TxQueue ∧ e.logRejected.snView = e.snView ∧
      e.logRejected.txList = e.txList ∧ e.logRejected.nextSdu = e.nextSdu ∧
        e.logRejected.nextSegment = e.nextSegment := by
    unfold logRejected
    split_ifs <;> exact ⟨hq, rfl, rfl, rfl, rfl⟩
  obtain ⟨hq', hview, hlist, hsdu, hsegment⟩ := hlog
  unfold recvSdu at h
  split_ifs at h with hlong hfull
  · obtain rfl := Option.some.inj h
    exact ⟨hq', hview, .inl ⟨hlist, hsdu⟩⟩
  · rw [acceptSdu, hq'.append_eq, Option.map_some, Option.some.injEq] at h
    subst h
    refine ⟨hq'.push rfl, hview, .inr ⟨not_lt.1 hlong, ?_, ?_⟩⟩
    · exact congrArg (· + 1) hsdu
    · show e.logRejected.txList ++ [_] = _
      rw [hlist, hsdu, hsegment]

/-- Only a whole SDU is discarded. -/
theorem discardSdu_cases (hq : e.TxQueue) (sduId : Int) : (e.discardSdu sduId).TxQueue ∧
    (e.discardSdu sduId).snView = e.snView ∧ (e.discardSdu sduId).nextSdu = e.nextSdu ∧
      ((e.discardSdu sduId).txList = e.txList ∨ ∃ before cur after,
        e.txList = before ++ cur :: after ∧ cur.isFirst ∧
          (e.discardSdu sduId).txList = before ++ after) := by
  unfold discardSdu
  cases hf : e.txList.find? fun g => g.sdu.upperLayerId = sduId with
  | none => exact ⟨hq, rfl, rfl, .inl rfl⟩
  | some cur =>
    obtain ⟨after, hsplit, hdrop⟩ := exists_of_find hf
    simp only [ne_eq, decide_not]
    rw [hdrop]
    by_cases hwhole : ¬cur.isFirst ∨ ¬cur.isLast
    · rw [if_pos hwhole]
      exact ⟨hq, rfl, rfl, .inl rfl⟩
    · rw [if_neg hwhole]
      have hq' : SegmentQueue e.nextSegment e.txList e.txEnd := hq
      rw [hsplit] at hq'
      rw [not_or, not_not, not_not] at hwhole
      exact ⟨hq'.remove, rfl, rfl, .inr ⟨_, cur, after, hsplit, hwhole.1, rfl⟩⟩

/-- The segment with its SN. -/
def numbered (e : NrRlcEntityUm) (g : NrRlcSduSegment) : NrRlcSduSegment :=
  { g with sdu := { g.sdu with sn := e.txNext } }

theorem IsPiece.numbered {g : NrRlcSduSegment} (h : IsPiece g) : IsPiece (e.numbered g) :=
  ⟨h.so_nonneg, h.end_le, h.isFirst_iff, h.end_eq⟩

/-- The first `k` bytes of a segment, and the rest. -/
def firstPart (g : NrRlcSduSegment) (k : Int) : NrRlcSduSegment :=
  { g with size := k, isLast := false }

/-- The segment without its first `k` bytes. -/
def restPart (g : NrRlcSduSegment) (addr : Nat) (k : Int) : NrRlcSduSegment :=
  { g with addr, size := g.size - k, so := g.so + k, isFirst := false }

/-- What a grant does to the head of the TX list : nothing, or it is dropped, sent, or sent
in part. -/
inductive Grant (e e' : NrRlcEntityUm) (size : Int) (pdu : List UInt8) : Prop
  | nothing : e'.txList = e.txList → e'.txNext = e.txNext → e'.sent = e.sent →
      Grant e e' size pdu
  | drop (head : NrRlcSduSegment) (rest : List NrRlcSduSegment) : e.txList = head :: rest →
      head.isFirst → e'.txList = rest → e'.txNext = e.txNext → e'.sent = e.sent →
      Grant e e' size pdu
  | whole (head : NrRlcSduSegment) (rest : List NrRlcSduSegment) : e.txList = head :: rest →
      e'.txList = rest →
      e'.txNext = (if ¬head.isFirst ∧ head.isLast then (e.txNext + 1) % e.snModulus
        else e.txNext) →
      e'.sent = e.sent ++ [e.numbered head] → pdu = e.serializeSdu (e.numbered head) size →
      Grant e e' size pdu
  | part (head : NrRlcSduSegment) (rest : List NrRlcSduSegment) (k : Int) (addr : Nat) :
      e.txList = head :: rest → 0 < k → k < head.size →
      e'.txList = restPart (e.numbered head) addr k :: rest → e'.txNext = e.txNext →
      e'.sent = e.sent ++ [firstPart (e.numbered head) k] →
      pdu = e.serializeSdu (firstPart (e.numbered head) k) size → Grant e e' size pdu

theorem generatePdu_cons {head : NrRlcSduSegment} {rest : List NrRlcSduSegment}
    (hlist : e.txList = head :: rest) (size : Int) : e.generatePdu size =
      if e.computePduHeaderSize head + 1 > size then (e, [])
      else if e.computePduHeaderSize head + head.size > size then
        if e.resegmentHeaderSize head + 1 > size then (e.takeTx (e.numbered head) rest, [])
        else
          ((e.takeTx (e.numbered head) rest).putBackTx
            (e.resegmentNext (e.numbered head) size)).sendPdu
              (e.resegmentHead (e.numbered head) size) size
      else (e.takeTx (e.numbered head) rest).sendPdu (e.numbered head) size := by
  rw [generatePdu, hlist]
  rfl

theorem resegmentHead_numbered (head : NrRlcSduSegment) (size : Int) :
    e.resegmentHead (e.numbered head) size =
      firstPart (e.numbered head) (size - e.resegmentHeaderSize head) := by
  have hsize : head.size - (e.resegmentHeaderSize head + head.size - size) =
      size - e.resegmentHeaderSize head := by ring
  exact congrArg (fun k => firstPart (e.numbered head) k) hsize

theorem resegmentNext_numbered (head : NrRlcSduSegment) (size : Int) :
    e.resegmentNext (e.numbered head) size =
      restPart (e.numbered head) e.nextSegment (size - e.resegmentHeaderSize head) := by
  have hover : e.resegmentHeaderSize head + head.size - size =
      head.size - (size - e.resegmentHeaderSize head) := by ring
  have hsize : head.size - (e.resegmentHeaderSize head + head.size - size) =
      size - e.resegmentHeaderSize head := by ring
  show ({ e.numbered head with
    addr := e.nextSegment
    size := e.resegmentHeaderSize head + head.size - size
    so := head.so + (head.size - (e.resegmentHeaderSize head + head.size - size))
    isFirst := false } : NrRlcSduSegment) = _
  rw [hsize, hover]
  rfl

/-- The header of a segment that is not the last is not shorter. -/
theorem computePduHeaderSize_le (e : NrRlcEntityUm) (g : NrRlcSduSegment) :
    e.computePduHeaderSize g ≤ e.resegmentHeaderSize g := by
  unfold resegmentHeaderSize computePduHeaderSize
  cases g.isFirst <;> cases g.isLast <;> by_cases hn : e.snFieldLength = 12 <;> simp [hn]

theorem grant_generatePdu (hq : e.TxQueue) (size : Int) : (e.generatePdu size).1.TxQueue ∧
    ((e.generatePdu size).1.snFieldLength = e.snFieldLength ∧
      (e.generatePdu size).1.snModulus = e.snModulus ∧
        (e.generatePdu size).1.nextSdu = e.nextSdu) ∧
      Grant e (e.generatePdu size).1 size (e.generatePdu size).2 := by
  cases hlist : e.txList with
  | nil =>
    rw [show e.generatePdu size = (e, []) by rw [generatePdu, hlist]]
    exact ⟨hq, ⟨rfl, rfl, rfl⟩, .nothing rfl rfl rfl⟩
  | cons head rest =>
    have htake : (e.takeTx (e.numbered head) rest).TxQueue := txQueue_takeTx hq hlist
    rw [generatePdu_cons hlist]
    by_cases h1 : e.computePduHeaderSize head + 1 > size
    · rw [if_pos h1]
      exact ⟨hq, ⟨rfl, rfl, rfl⟩, .nothing rfl rfl rfl⟩
    rw [if_neg h1]
    by_cases h2 : e.computePduHeaderSize head + head.size > size
    · rw [if_pos h2]
      by_cases h3 : e.resegmentHeaderSize head + 1 > size
      · rw [if_pos h3]
        obtain ⟨-, -, hfirst, -⟩ := not_resegment_iff.1 ⟨h1, h2, h3⟩
        exact ⟨htake, ⟨rfl, rfl, rfl⟩, .drop head rest hlist hfirst rfl rfl rfl⟩
      · rw [if_neg h3]
        have hle := computePduHeaderSize_le e head
        exact ⟨htake.putBack rfl, ⟨rfl, rfl, rfl⟩, .part head rest
          (size - e.resegmentHeaderSize head) e.nextSegment hlist (by omega) (by omega)
          (congrArg (· :: rest) (resegmentNext_numbered head size))
          (if_neg fun h => Bool.false_ne_true h.2)
          (congrArg (fun g => e.sent ++ [g]) (resegmentHead_numbered head size))
          (congrArg (fun g => e.serializeSdu g size) (resegmentHead_numbered head size))⟩
    · rw [if_neg h2]
      exact ⟨htake, ⟨rfl, rfl, rfl⟩, .whole head rest hlist rfl rfl rfl rfl⟩

end NrRlcEntityUm

/-! ## What is sent -/

/-- A segment of a submitted SDU. -/
structure SubmittedPiece (submitted : List (List UInt8)) (g : NrRlcSduSegment) : Prop where
  submitted_eq : submitted[g.sdu.id]? = some g.sdu.data
  length_le : (g.sdu.data.length : Int) ≤ nrSduMax
  piece : NrRlcEntityUm.IsPiece g

theorem SubmittedPiece.mono {submitted : List (List UInt8)} {g : NrRlcSduSegment}
    (h : SubmittedPiece submitted g) (buffer : List UInt8) :
    SubmittedPiece (submitted ++ [buffer]) g :=
  ⟨by
    obtain ⟨hlt, -⟩ := List.getElem?_eq_some_iff.1 h.submitted_eq
    rw [List.getElem?_append_left hlt, h.submitted_eq], h.length_le, h.piece⟩

theorem SubmittedPiece.id_lt {submitted : List (List UInt8)} {g : NrRlcSduSegment}
    (h : SubmittedPiece submitted g) : g.sdu.id < submitted.length :=
  (List.getElem?_eq_some_iff.1 h.submitted_eq).1

/-- A segment of the TX list : what is left of its SDU. -/
structure QueuedPiece (submitted : List (List UInt8)) (g : NrRlcSduSegment) : Prop
    extends SubmittedPiece submitted g where
  isLast : g.isLast
  size_pos : ¬g.isFirst → 0 < g.size

/-- A PDU that was sent, with SNs of `n` bits. -/
structure SentPacket (n : Nat) (M : Int) (submitted : List (List UInt8)) (p : UmPacket) : Prop
    extends SubmittedPiece submitted p.segment where
  sn_eq : p.segment.sdu.sn = p.seq % M
  size_pos : p.hasSn → 0 < p.segment.size
  pdu_eq : ∃ (e : NrRlcEntityUm) (size : Int), e.snFieldLength = n ∧
    p.pdu = e.serializeSdu p.segment size

/-- Two PDUs in the order they are sent : the SDUs in turn, each of them up to its last
segment, and each segmented one with the next SN. -/
structure SentBefore (p q : UmPacket) : Prop where
  seq_le : p.seq ≤ q.seq
  id_lt_or_eq : (p.segment.sdu.id < q.segment.sdu.id ∧ (p.hasSn → p.seq < q.seq)) ∨
    (p.segment.sdu.id = q.segment.sdu.id ∧ ¬p.segment.isLast)

/-- A PDU that was sent before what is in the TX list. -/
structure SentBeforeList (seq : Nat) (l : List NrRlcSduSegment) (p : UmPacket) : Prop where
  seq_le : p.seq ≤ seq
  id_lt_or_eq : ∀ g ∈ l, p.segment.sdu.id < g.sdu.id ∨
    (p.segment.sdu.id = g.sdu.id ∧ ¬p.segment.isLast ∧ ¬g.isFirst)
  /-- The SN is used until the SDU is sent completely. -/
  head_eq : p.hasSn → p.seq = seq →
    ∃ g, l.head? = some g ∧ g.sdu.id = p.segment.sdu.id ∧ ¬g.isFirst

/-- The sender, the SDUs it took and the PDUs it sent. -/
structure UmSenderInv (e : NrRlcEntityUm) (submitted : List (List UInt8))
    (packets : List UmPacket) (seq : Nat) : Prop where
  snFieldLength_valid : e.snFieldLength = 6 ∨ e.snFieldLength = 12
  snModulus_eq : e.snModulus = 2 ^ e.snFieldLength
  queue : e.TxQueue
  txNext_eq : e.txNext = seq % e.snModulus
  nextSdu_eq : e.nextSdu = submitted.length
  queued : ∀ g ∈ e.txList, QueuedPiece submitted g
  sorted : e.txList.Pairwise fun a b => a.sdu.id < b.sdu.id
  /-- Only the SDU at the head is sent in part. -/
  tail_first : ∀ g ∈ e.txList.tail, g.isFirst
  sent : ∀ p ∈ packets, SentPacket e.snFieldLength e.snModulus submitted p
  sent_order : packets.Pairwise SentBefore
  sent_before : ∀ p ∈ packets, SentBeforeList seq e.txList p

namespace UmSenderInv

variable {e e' : NrRlcEntityUm} {submitted : List (List UInt8)} {packets : List UmPacket}
  {seq : Nat} {head : NrRlcSduSegment} {rest : List NrRlcSduSegment} {size : Int}

/-- Calls that keep the TX list and the SNs. -/
theorem congr (h : UmSenderInv e submitted packets seq) (hq : e'.TxQueue)
    (hview : e'.snView = e.snView) (hlist : e'.txList = e.txList)
    (hsdu : e'.nextSdu = e.nextSdu) : UmSenderInv e' submitted packets seq := by
  simp only [NrRlcEntityUm.snView, Prod.mk.injEq] at hview
  obtain ⟨hn, hM, hnext⟩ := hview
  refine ⟨?_, ?_, hq, ?_, ?_, ?_, ?_, ?_, ?_, h.sent_order, ?_⟩ <;>
    simp only [hn, hM, hnext, hlist, hsdu]
  · exact h.snFieldLength_valid
  · exact h.snModulus_eq
  · exact h.txNext_eq
  · exact h.nextSdu_eq
  · exact h.queued
  · exact h.sorted
  · exact h.tail_first
  · exact h.sent
  · exact h.sent_before

/-- An SDU is taken. -/
theorem push (h : UmSenderInv e submitted packets seq) (hq : e'.TxQueue)
    (hview : e'.snView = e.snView) {buffer : List UInt8} {sduId : Int}
    (hlen : (buffer.length : Int) ≤ nrSduMax) (hsdu : e'.nextSdu = e.nextSdu + 1)
    (hlist : e'.txList = e.txList ++ [nrRlcNewSdu e.nextSdu e.nextSegment buffer sduId]) :
    UmSenderInv e' (submitted ++ [buffer]) packets seq := by
  simp only [NrRlcEntityUm.snView, Prod.mk.injEq] at hview
  obtain ⟨hn, hM, hnext⟩ := hview
  have hid : (nrRlcNewSdu e.nextSdu e.nextSegment buffer sduId).sdu.id = submitted.length :=
    h.nextSdu_eq
  refine ⟨hn ▸ h.snFieldLength_valid, by rw [hM, hn]; exact h.snModulus_eq, hq, ?_, ?_, ?_, ?_, ?_,
    ?_, h.sent_order, ?_⟩
  · rw [hnext, hM, h.txNext_eq]
  · rw [hsdu, h.nextSdu_eq, List.length_append, List.length_singleton]
  · rw [hlist, List.forall_mem_append, List.forall_mem_singleton]
    refine ⟨fun g hg => ?_, ⟨?_, hlen, ⟨le_rfl, ?_, ?_, fun _ => ?_⟩⟩, rfl, fun hf => absurd rfl hf⟩
    · have hg := h.queued g hg
      exact ⟨hg.mono buffer, hg.isLast, hg.size_pos⟩
    · rw [hid, List.getElem?_append_right le_rfl, Nat.sub_self]
      rfl
    · simp [nrRlcNewSdu]
    · simp [nrRlcNewSdu]
    · simp [nrRlcNewSdu]
  · rw [hlist, List.pairwise_append]
    refine ⟨h.sorted, List.pairwise_singleton _ _, fun a ha b hb => ?_⟩
    rw [List.mem_singleton.1 hb, hid]
    exact (h.queued a ha).id_lt
  · intro g hg
    rw [hlist] at hg
    cases hl : e.txList with
    | nil => simp [hl] at hg
    | cons a l =>
      rw [hl, List.cons_append, List.tail_cons, List.mem_append, List.mem_singleton] at hg
      rcases hg with hg | rfl
      · exact h.tail_first g (by rwa [hl])
      · rfl
  · intro p hp
    have hs := h.sent p hp
    rw [hn, hM]
    exact ⟨hs.mono buffer, hs.sn_eq, hs.size_pos, hs.pdu_eq⟩
  · intro p hp
    have hb := h.sent_before p hp
    rw [hlist]
    refine ⟨hb.seq_le, ?_, fun hsn heq => ?_⟩
    · rw [List.forall_mem_append, List.forall_mem_singleton]
      refine ⟨hb.id_lt_or_eq, .inl ?_⟩
      rw [hid]
      exact (h.sent p hp).id_lt
    · obtain ⟨g, hg, hrest⟩ := hb.head_eq hsn heq
      exact ⟨g, by rw [List.head?_append, hg, Option.some_or], hrest⟩

/-- A whole SDU is taken off the TX list. -/
theorem remove (h : UmSenderInv e submitted packets seq) (hq : e'.TxQueue)
    (hview : e'.snView = e.snView) (hsdu : e'.nextSdu = e.nextSdu)
    {before after : List NrRlcSduSegment} {cur : NrRlcSduSegment}
    (hlist : e.txList = before ++ cur :: after) (hfirst : cur.isFirst)
    (hlist' : e'.txList = before ++ after) : UmSenderInv e' submitted packets seq := by
  simp only [NrRlcEntityUm.snView, Prod.mk.injEq] at hview
  obtain ⟨hn, hM, hnext⟩ := hview
  have hsub : e'.txList.Sublist e.txList := by
    rw [hlist, hlist']
    exact (List.sublist_cons_self cur after).append_left before
  refine ⟨hn ▸ h.snFieldLength_valid, by rw [hM, hn]; exact h.snModulus_eq, hq, ?_,
    hsdu.trans h.nextSdu_eq, fun g hg => h.queued g (hsub.subset hg), h.sorted.sublist hsub, ?_, ?_,
    h.sent_order, ?_⟩
  · rw [hnext, hM, h.txNext_eq]
  · intro g hg
    refine h.tail_first g ?_
    rw [hlist'] at hg
    rw [hlist]
    cases before with
    | nil => exact List.mem_of_mem_tail hg
    | cons b l =>
      rw [List.cons_append, List.tail_cons, List.mem_append] at hg ⊢
      exact hg.imp_right (List.mem_cons_of_mem _)
  · rw [hn, hM]
    exact h.sent
  · intro p hp
    have hb := h.sent_before p hp
    refine ⟨hb.seq_le, fun g hg => hb.id_lt_or_eq g (hsub.subset hg), fun hsn heq => ?_⟩
    obtain ⟨g, hg, hid, hnot⟩ := hb.head_eq hsn heq
    refine ⟨g, ?_, hid, hnot⟩
    rw [hlist] at hg
    rw [hlist']
    cases before with
    | nil =>
      obtain rfl : cur = g := by simpa using hg
      exact absurd hfirst hnot
    | cons b l => exact hg

/-- The next PDU comes after all that are sent. -/
theorem sentBefore_next (h : UmSenderInv e submitted packets seq) (hlist : e.txList = head :: rest)
    {q : UmPacket} (hid : q.segment.sdu.id = head.sdu.id) (hseq : q.seq = seq) :
    ∀ p ∈ packets, SentBefore p q := by
  intro p hp
  have hb := h.sent_before p hp
  refine ⟨hseq ▸ hb.seq_le, ?_⟩
  rcases hb.id_lt_or_eq head (by simp [hlist]) with hlt | ⟨heq, hlast, -⟩
  · refine .inl ⟨hid ▸ hlt, fun hsn => ?_⟩
    rw [hseq]
    refine lt_of_le_of_ne hb.seq_le fun heq => ?_
    obtain ⟨g, hg, hgid, -⟩ := hb.head_eq hsn heq
    obtain rfl : head = g := by simpa [hlist] using hg
    omega
  · exact .inr ⟨heq.trans hid.symm, hlast⟩

/-- The rest of the TX list is after the SDU of its head. -/
theorem id_lt_rest (h : UmSenderInv e submitted packets seq) (hlist : e.txList = head :: rest) :
    ∀ g ∈ rest, head.sdu.id < g.sdu.id := by
  have hs := h.sorted
  rw [hlist] at hs
  exact fun g hg => List.rel_of_pairwise_cons hs hg

theorem id_le_head (h : UmSenderInv e submitted packets seq) (hlist : e.txList = head :: rest)
    {p : UmPacket} (hp : p ∈ packets) : p.segment.sdu.id ≤ head.sdu.id := by
  rcases (h.sent_before p hp).id_lt_or_eq head (by simp [hlist]) with hlt | ⟨heq, -, -⟩
  · exact hlt.le
  · exact heq.le

/-- The head is sent to its end. -/
theorem whole (h : UmSenderInv e submitted packets seq) (hq : e'.TxQueue)
    (hn : e'.snFieldLength = e.snFieldLength) (hM : e'.snModulus = e.snModulus)
    (hsdu : e'.nextSdu = e.nextSdu) (hlist : e.txList = head :: rest) (hlist' : e'.txList = rest)
    (hnext : e'.txNext = if ¬head.isFirst ∧ head.isLast then (e.txNext + 1) % e.snModulus
      else e.txNext) :
    UmSenderInv e' submitted
      (packets ++ [⟨e.numbered head, seq, e.serializeSdu (e.numbered head) size⟩])
      (if ¬head.isFirst ∧ head.isLast then seq + 1 else seq) := by
  have hhead : QueuedPiece submitted head := h.queued head (by simp [hlist])
  have hrest : ∀ g ∈ rest, g ∈ e.txList := fun g hg => by simp [hlist, hg]
  have hseq : seq ≤ if ¬head.isFirst ∧ head.isLast then seq + 1 else seq := by
    split_ifs <;> omega
  refine ⟨hn ▸ h.snFieldLength_valid, by rw [hM, hn]; exact h.snModulus_eq, hq, ?_,
    hsdu.trans h.nextSdu_eq, fun g hg => h.queued g (hrest g (hlist' ▸ hg)), ?_, ?_, ?_, ?_, ?_⟩
  · rw [hnext, hM, h.txNext_eq]
    split_ifs
    · rw [Int.emod_add_emod, Nat.cast_succ]
    · rfl
  · have hs := h.sorted
    rw [hlist] at hs
    rw [hlist']
    exact hs.of_cons
  · intro g hg
    have hg' : g ∈ rest := List.mem_of_mem_tail (hlist' ▸ hg)
    exact h.tail_first g (by rwa [hlist])
  · rw [hn, hM, List.forall_mem_append, List.forall_mem_singleton]
    refine ⟨h.sent, ⟨⟨hhead.submitted_eq, hhead.length_le, hhead.piece.numbered⟩, h.txNext_eq,
      fun hsn => ?_, e, size, rfl, rfl⟩⟩
    refine hhead.size_pos fun hf => ?_
    simp [UmPacket.hasSn, NrRlcEntityUm.numbered, hf, hhead.isLast] at hsn
  · rw [List.pairwise_append]
    refine ⟨h.sent_order, List.pairwise_singleton _ _, fun p hp q hq => ?_⟩
    rw [List.mem_singleton.1 hq]
    exact h.sentBefore_next hlist rfl rfl p hp
  · rw [hlist', List.forall_mem_append, List.forall_mem_singleton]
    refine ⟨fun p hp => ?_, ⟨hseq, fun g hg => .inl (h.id_lt_rest hlist g hg), fun hsn heq => ?_⟩⟩
    · have hb := h.sent_before p hp
      refine ⟨hb.seq_le.trans hseq, fun g hg =>
        .inl ((h.id_le_head hlist hp).trans_lt (h.id_lt_rest hlist g hg)), fun hsn heq => ?_⟩
      have hle := hb.seq_le
      split_ifs at heq with hend
      · omega
      · obtain ⟨g, hg, -, hnot⟩ := hb.head_eq hsn heq
        obtain rfl : head = g := by simpa [hlist] using hg
        exact absurd ⟨hnot, hhead.isLast⟩ hend
    · have hnot : ¬head.isFirst := fun hf => by
        simp [UmPacket.hasSn, NrRlcEntityUm.numbered, hf, hhead.isLast] at hsn
      rw [if_pos ⟨hnot, hhead.isLast⟩] at heq
      simp at heq

/-- The first `k` bytes of the head are sent. -/
theorem part (h : UmSenderInv e submitted packets seq) (hq : e'.TxQueue)
    (hn : e'.snFieldLength = e.snFieldLength) (hM : e'.snModulus = e.snModulus)
    (hsdu : e'.nextSdu = e.nextSdu) (hlist : e.txList = head :: rest) {k : Int} {addr : Nat}
    (hpos : 0 < k) (hk : k < head.size)
    (hlist' : e'.txList = NrRlcEntityUm.restPart (e.numbered head) addr k :: rest)
    (hnext : e'.txNext = e.txNext) :
    UmSenderInv e' submitted (packets ++ [⟨NrRlcEntityUm.firstPart (e.numbered head) k, seq,
      e.serializeSdu (NrRlcEntityUm.firstPart (e.numbered head) k) size⟩]) seq := by
  have hhead : QueuedPiece submitted head := h.queued head (by simp [hlist])
  have hrest : ∀ g ∈ rest, g ∈ e.txList := fun g hg => by simp [hlist, hg]
  have hnn := hhead.piece.so_nonneg
  have hle := hhead.piece.end_le
  have hend := hhead.piece.end_eq hhead.isLast
  refine ⟨hn ▸ h.snFieldLength_valid, by rw [hM, hn]; exact h.snModulus_eq, hq, ?_,
    hsdu.trans h.nextSdu_eq, ?_, ?_, ?_, ?_, ?_, ?_⟩
  · rw [hnext, hM, h.txNext_eq]
  · rw [hlist', List.forall_mem_cons]
    refine ⟨⟨⟨hhead.submitted_eq, hhead.length_le, ⟨?_, ?_, ?_, fun _ => ?_⟩⟩, hhead.isLast,
      fun _ => ?_⟩, fun g hg => h.queued g (hrest g hg)⟩ <;>
      simp only [NrRlcEntityUm.restPart, NrRlcEntityUm.numbered, Bool.false_eq_true, false_iff] <;>
        omega
  · have hs := h.sorted
    rw [hlist, List.pairwise_cons] at hs
    rw [hlist', List.pairwise_cons]
    exact hs
  · rw [hlist']
    exact fun g hg => h.tail_first g (by rwa [hlist])
  · rw [hn, hM, List.forall_mem_append, List.forall_mem_singleton]
    refine ⟨h.sent, ⟨⟨hhead.submitted_eq, hhead.length_le, ⟨hnn, ?_, hhead.piece.isFirst_iff,
      fun hl => absurd hl Bool.false_ne_true⟩⟩, h.txNext_eq, fun _ => hpos, e, size, rfl, rfl⟩⟩
    simp only [NrRlcEntityUm.firstPart, NrRlcEntityUm.numbered]
    omega
  · rw [List.pairwise_append]
    refine ⟨h.sent_order, List.pairwise_singleton _ _, fun p hp q hq => ?_⟩
    rw [List.mem_singleton.1 hq]
    exact h.sentBefore_next hlist rfl rfl p hp
  · rw [hlist', List.forall_mem_append, List.forall_mem_singleton]
    refine ⟨fun p hp => ?_, ⟨le_rfl, ?_, fun _ _ => ⟨_, rfl, rfl, Bool.false_ne_true⟩⟩⟩
    · have hb := h.sent_before p hp
      refine ⟨hb.seq_le, ?_, fun hsn heq => ?_⟩
      · rw [List.forall_mem_cons]
        refine ⟨?_, fun g hg =>
          .inl ((h.id_le_head hlist hp).trans_lt (h.id_lt_rest hlist g hg))⟩
        rcases hb.id_lt_or_eq head (by simp [hlist]) with hlt | ⟨heq, hlast, -⟩
        · exact .inl hlt
        · exact .inr ⟨heq, hlast, Bool.false_ne_true⟩
      · obtain ⟨g, hg, hid, -⟩ := hb.head_eq hsn heq
        obtain rfl : head = g := by simpa [hlist] using hg
        exact ⟨_, rfl, hid, Bool.false_ne_true⟩
    · rw [List.forall_mem_cons]
      exact ⟨.inr ⟨rfl, Bool.false_ne_true, Bool.false_ne_true⟩,
        fun g hg => .inl (h.id_lt_rest hlist g hg)⟩

end UmSenderInv

namespace UmChannel

variable {s s' : UmChannel} {size : Int}

/-- The PDUs that were sent. -/
def packets (s : UmChannel) : List UmPacket :=
  s.past ++ s.inFlight

theorem packets_of_inFlight {p : UmPacket} {rest : List UmPacket} (h : s.inFlight = p :: rest) :
    s.past ++ [p] ++ rest = s.packets := by
  simp [packets, h]

/-- The sender in the channel. -/
def SenderInv (s : UmChannel) : Prop :=
  UmSenderInv s.sender s.submitted s.packets s.seq

theorem grant_of_sent_eq (h : (s.sender.generatePdu size).1.sent = s.sender.sent) :
    s.grant size = { s with sender := (s.sender.generatePdu size).1 } := by
  unfold grant
  simp only [h, List.drop_length]

theorem grant_of_sent_append {g : NrRlcSduSegment}
    (h : (s.sender.generatePdu size).1.sent = s.sender.sent ++ [g]) :
    s.grant size = s.send (s.sender.generatePdu size).1 (s.sender.generatePdu size).2 g := by
  unfold grant
  simp only [h, List.drop_left]

theorem senderInv_grant (h : s.SenderInv) (size : Int) : (s.grant size).SenderInv := by
  obtain ⟨hq, ⟨hn, hM, hsdu⟩, hgrant⟩ := NrRlcEntityUm.grant_generatePdu h.queue size
  cases hgrant with
  | nothing hlist hnext hsent =>
    rw [grant_of_sent_eq hsent]
    exact h.congr hq (by simp [NrRlcEntityUm.snView, hn, hM, hnext]) hlist hsdu
  | drop head rest hlist hfirst hlist' hnext hsent =>
    rw [grant_of_sent_eq hsent]
    exact h.remove hq (by simp [NrRlcEntityUm.snView, hn, hM, hnext]) hsdu
      (show _ = [] ++ head :: rest from hlist) hfirst hlist'
  | whole head rest hlist hlist' hnext hsent hpdu =>
    rw [grant_of_sent_append hsent]
    unfold SenderInv packets send
    rw [hpdu, ← List.append_assoc]
    exact h.whole hq hn hM hsdu hlist hlist' hnext
  | part head rest k addr hlist hpos hk hlist' hnext hsent hpdu =>
    rw [grant_of_sent_append hsent]
    unfold SenderInv packets send
    rw [hpdu, ← List.append_assoc, if_neg fun hend => Bool.false_ne_true hend.2]
    exact h.part hq hn hM hsdu hlist hpos hk hlist' hnext

theorem senderInv_submit (h : s.SenderInv) {buffer : List UInt8} {sduId : Int}
    (hs : s.submit buffer sduId = some s') : s'.SenderInv := by
  obtain ⟨e', he', rfl⟩ := Option.map_eq_some_iff.1 hs
  obtain ⟨hq, hview, hcases⟩ := NrRlcEntityUm.recvSdu_cases h.queue he'
  unfold SenderInv packets
  rcases hcases with ⟨hlist, hsdu⟩ | ⟨hlen, hsdu, hlist⟩
  · rw [if_pos hsdu]
    exact h.congr hq hview hlist hsdu
  · rw [if_neg (by omega)]
    exact h.push hq hview hlen hsdu hlist

theorem senderInv_discard (h : s.SenderInv) (sduId : Int) :
    UmSenderInv (s.sender.discardSdu sduId) s.submitted s.packets s.seq := by
  obtain ⟨hq, hview, hsdu, hlist | ⟨before, cur, after, hlist, hfirst, hlist'⟩⟩ :=
    NrRlcEntityUm.discardSdu_cases h.queue sduId
  · exact h.congr hq hview hlist hsdu
  · exact h.remove hq hview hsdu hlist hfirst hlist'

theorem senderInv_step {op : UmChannelOp} (h : s.SenderInv) (hs : umChannelStep s op = some s') :
    s'.SenderInv := by
  cases op with
  | submit buffer sduId => exact senderInv_submit h hs
  | grant size => exact Option.some.inj hs ▸ senderInv_grant h size
  | arrive =>
    obtain rfl := Option.some.inj hs
    unfold arrive
    split
    · exact h
    · next p rest heq =>
      unfold SenderInv packets
      rw [packets_of_inFlight heq]
      exact h
  | lose =>
    obtain rfl := Option.some.inj hs
    unfold lose
    split
    · exact h
    · next p rest heq =>
      unfold SenderInv packets
      rw [packets_of_inFlight heq]
      exact h
  | discard sduId => exact Option.some.inj hs ▸ senderInv_discard h sduId
  | senderTime now =>
    obtain rfl := Option.some.inj hs
    have hset : (s.sender.setTime now).TxQueue ∧ (s.sender.setTime now).snView = s.sender.snView ∧
        (s.sender.setTime now).txList = s.sender.txList ∧
          (s.sender.setTime now).nextSdu = s.sender.nextSdu := by
      refine ⟨h.queue.congr (NrRlcEntityUm.txView_setTime now), ?_⟩
      unfold NrRlcEntityUm.setTime NrRlcEntityUm.checkTReassembly NrRlcEntityUm.startReassembly
      split_ifs <;> exact ⟨rfl, rfl, rfl⟩
    exact UmSenderInv.congr h hset.1 hset.2.1 hset.2.2.1 hset.2.2.2
  | receiverTime now => exact Option.some.inj hs ▸ h

theorem senderInv_new (c : UmConfig) : (newUmChannel c).SenderInv := by
  refine ⟨c.snFieldLength_valid, rfl, .nil, ?_, rfl, ?_, .nil, ?_, ?_, .nil, ?_⟩
  · exact (Int.zero_emod _).symm
  all_goals simp [newUmChannel, newNrRlcEntityUm, packets]

end UmChannel

end NrStack
