import NrStack.Rlc.AmControlParse
import NrStack.Rlc.AmTxRun

/-!
# Bad STATUS PDUs

A STATUS PDU is to be discarded as a whole if its NACKs are "bad (not <= ack_sn, not in
increasing order)". The order is tested against `prev_nack_sn`, which the first pass does not
assign : a PDU with its NACKs out of order is applied. Any other bad PDU leaves the entity as
it was (`control_pdu_atomic_iff`).

That such a PDU does change an entity is shown at one without segments whose t-PollRetransmit
is running : the PDU stops it, by its ACK_SN or by a NACK (`tPollRetransmitStart_idle`).
-/

namespace NrStack

/-- A buffer with the D/C bit of a control PDU. -/
def IsControlPdu (buffer : List UInt8) : Prop :=
  ∃ d, (NrRlcPduDecoder.init buffer).getBits 1 = some (0, d)

instance (buffer : List UInt8) : Decidable (IsControlPdu buffer) :=
  match h : (NrRlcPduDecoder.init buffer).getBits 1 with
  | some (0, d) => .isTrue ⟨d, h⟩
  | some (k + 1, d) => .isFalse fun ⟨d', h'⟩ => by simp [h] at h'
  | none => .isFalse fun ⟨d', h'⟩ => by simp [h] at h'

namespace NrRlcEntityAm

variable {e e₀ : NrRlcEntityAm} {pdu : ControlPdu} {buffer : List UInt8}

/-! ## What a STATUS PDU has to satisfy -/

/-- The checks of the pieces with `prev_nack_sn` and `prev_so_end` assigned after each. -/
def validPiecesFrom (e : NrRlcEntityAm) (ackSn : Int) : Option NackPiece → List NackPiece → Prop
  | _, [] => True
  | prev, n :: ns => e.validNackPiece prev ackSn n ∧ validPiecesFrom e ackSn (some n) ns

instance decidableValidPiecesFrom (e : NrRlcEntityAm) (ackSn : Int) :
    ∀ prev ns, Decidable (e.validPiecesFrom ackSn prev ns)
  | _, [] => .isTrue trivial
  | _, n :: ns =>
    have := decidableValidPiecesFrom e ackSn (some n) ns
    inferInstanceAs (Decidable (_ ∧ _))

/-- What the comments of the first pass ask for : ACK_SN up to TX_Next, and NACKs up to ACK_SN
in increasing order. -/
def documentedValid (e : NrRlcEntityAm) (pdu : ControlPdu) : Prop :=
  e.snCompareTx pdu.ackSn e.txNext ≤ 0 ∧
    e.validPiecesFrom pdu.ackSn none (pdu.pieces e.snModulus)

instance (e : NrRlcEntityAm) (pdu : ControlPdu) : Decidable (e.documentedValid pdu) :=
  inferInstanceAs (Decidable (_ ∧ _))

/-- A STATUS PDU that passes the checks that are made, with NACKs out of order. -/
def MisorderedNacks (e : NrRlcEntityAm) (buffer : List UInt8) : Prop :=
  ∃ pdu, e.decodeControlPdu buffer = some pdu ∧ e.validControlPdu pdu ∧ ¬e.documentedValid pdu

/-- `nr_rlc_entity_am_recv_pdu` for a control PDU, with the decoder of the source : the D/C bit,
then `process_control_pdu`. -/
def runRecvControlPdu (e : NrRlcEntityAm) (fuel : Nat) (buffer : List UInt8) :
    Option NrRlcEntityAm × RawPduDecoder :=
  e.runControlPdu fuel ((RawPduDecoder.init [] buffer).getBits 1).2.read buffer

/-- What is asked of a received control PDU. -/
structure RejectsAtomically (e : NrRlcEntityAm) (buffer : List UInt8) : Prop where
  /-- The call ends and reads inside the buffer. -/
  inside : ∀ fuel, 8 * buffer.length ≤ fuel →
    (e.runRecvControlPdu fuel buffer).1 = some (e.recvPdu buffer) ∧
      ∀ i ∈ (e.runRecvControlPdu fuel buffer).2.read, i < buffer.length
  /-- The PDU is valid, or it does nothing. -/
  atomic : (∃ pdu, e.decodeControlPdu buffer = some pdu ∧ e.documentedValid pdu) ∨
    e.recvPdu buffer = e

/-- The sender's window is that of `e₀`. -/
structure SameTxWindow (e e₀ : NrRlcEntityAm) : Prop where
  snFieldLength_eq : e.snFieldLength = e₀.snFieldLength
  snModulus_eq : e.snModulus = e₀.snModulus
  txNext_eq : e.txNext = e₀.txNext
  txNextAck_eq : e.txNextAck = e₀.txNextAck

theorem recvPdu_of_isControlPdu (h : IsControlPdu buffer) :
    e.recvPdu buffer = e.processControlPdu buffer := by
  obtain ⟨d, hd⟩ := h
  simp [recvPdu, hd]

/-- The call ends and reads inside the buffer, whatever the PDU. -/
theorem runRecvControlPdu_inside (h : IsControlPdu buffer) {fuel : Nat}
    (hfuel : 8 * buffer.length ≤ fuel) :
    (e.runRecvControlPdu fuel buffer).1 = some (e.recvPdu buffer) ∧
      ∀ i ∈ (e.runRecvControlPdu fuel buffer).2.read, i < buffer.length := by
  have hread : ∀ i ∈ ((RawPduDecoder.init [] buffer).getBits 1).2.read, i < buffer.length := by
    rcases (RawPduDecoder.good_init buffer).getBits_cases 1 with ⟨-, -, hin⟩ | ⟨v, -, -, hgood⟩
    · exact hin.read_lt
    · exact hgood.read_lt
  rw [recvPdu_of_isControlPdu h]
  exact runControlPdu_eq hfuel hread

theorem SameTxWindow.snCompareTx_eq (h : SameTxWindow e e₀) : e.snCompareTx = e₀.snCompareTx := by
  funext a b
  simp only [snCompareTx, modulusTx, h.snModulus_eq, h.txNextAck_eq]

theorem SameTxWindow.decodeControlPdu_eq (h : SameTxWindow e e₀) :
    e.decodeControlPdu = e₀.decodeControlPdu := by
  have hnack : e.decodeNack = e₀.decodeNack := by
    funext d
    simp only [decodeNack, h.snFieldLength_eq]
  have hnacks : ∀ n b d, e.decodeNacks n b d = e₀.decodeNacks n b d := by
    intro n
    induction n with
    | zero => intro b d; cases b <;> rfl
    | succ n ih => intro b d; cases b <;> simp only [decodeNacks, hnack, ih]
  funext buffer
  simp only [decodeControlPdu, h.snFieldLength_eq, hnacks]

theorem SameTxWindow.validNackPiece_eq (h : SameTxWindow e e₀) :
    e.validNackPiece = e₀.validNackPiece := by
  funext prev ackSn n
  simp only [validNackPiece, badNackOrder, h.snCompareTx_eq]

theorem SameTxWindow.validControlPdu_iff (h : SameTxWindow e e₀) :
    e.validControlPdu pdu ↔ e₀.validControlPdu pdu := by
  simp only [validControlPdu, h.snCompareTx_eq, h.txNext_eq, h.snModulus_eq, h.validNackPiece_eq]

theorem SameTxWindow.documentedValid_iff (h : SameTxWindow e e₀) :
    e.documentedValid pdu ↔ e₀.documentedValid pdu := by
  have hfrom : ∀ ackSn prev ns,
      e.validPiecesFrom ackSn prev ns ↔ e₀.validPiecesFrom ackSn prev ns := by
    intro ackSn prev ns
    induction ns generalizing prev with
    | nil => rfl
    | cons n ns ih => simp only [validPiecesFrom, h.validNackPiece_eq, ih]
  simp only [documentedValid, h.snCompareTx_eq, h.txNext_eq, h.snModulus_eq, hfrom]

theorem SameTxWindow.misorderedNacks_iff (h : SameTxWindow e e₀) :
    e.MisorderedNacks buffer ↔ e₀.MisorderedNacks buffer := by
  simp only [MisorderedNacks, h.decodeControlPdu_eq, h.validControlPdu_iff, h.documentedValid_iff]

/-- Unless its NACKs are out of order, a PDU is valid or does nothing. -/
theorem rejectsAtomically_of_not_misordered (hc : IsControlPdu buffer)
    (h : ¬e.MisorderedNacks buffer) : e.RejectsAtomically buffer := by
  refine ⟨fun fuel hfuel => runRecvControlPdu_inside hc hfuel, ?_⟩
  rw [recvPdu_of_isControlPdu hc]
  unfold processControlPdu
  cases hdec : e.decodeControlPdu buffer with
  | none => exact .inr rfl
  | some pdu =>
    by_cases hv : e.validControlPdu pdu
    · refine .inl ⟨pdu, rfl, ?_⟩
      by_contra hno
      exact h ⟨pdu, hdec, hv, hno⟩
    · exact .inr (if_neg hv)

/-! ## An entity without segments -/

/-- The NACK covers the SN `sn`. -/
def NackCovers (e : NrRlcEntityAm) (n : Nack) (sn : Int) : Prop :=
  e.snCompareTx n.nackSn sn ≤ 0 ∧
    e.snCompareTx sn ((n.nackSn + n.range) % e.snModulus) < 0

theorem processNack_idle {s : AckScan} (hw : s.curWait = []) (hr : s.curRetransmit = [])
    (ackSn : Int) (n : Nack) :
    (s.processNack ackSn n).curWait = [] ∧ (s.processNack ackSn n).curRetransmit = [] ∧
      (∀ m, (s.processNack ackSn n).entity.NackCovers m (s.processNack ackSn n).entity.pollSn ↔
        s.entity.NackCovers m s.entity.pollSn) ∧
      ((s.entity.tPollRetransmitStart = 0 ∨ s.entity.NackCovers n s.entity.pollSn) →
        (s.processNack ackSn n).entity.tPollRetransmitStart = 0) := by
  have hpiece : ∀ p, s.processPiece ackSn p = s := by
    intro p
    simp [AckScan.processPiece, AckScan.remaining, hw, hr, AckScan.processPieceFrom]
  have hfold : ∀ ps : List NackPiece, ps.foldl (fun s p => s.processPiece ackSn p) s = s := by
    intro ps
    induction ps with
    | nil => rfl
    | cons p ps ih => rw [List.foldl_cons, hpiece, ih]
  unfold AckScan.processNack
  simp only [hfold]
  refine ⟨hw, hr, fun m => Iff.rfl, fun h => ?_⟩
  simp only [stopPollRetransmitIf, NackCovers] at h ⊢
  split_ifs with hc
  · rfl
  · exact h.resolve_right hc

/-- Without segments, the NACKs stop t-PollRetransmit if one of them covers POLL_SN. -/
theorem foldl_processNack_idle (ackSn : Int) (nacks : List Nack) {s : AckScan}
    (hw : s.curWait = []) (hr : s.curRetransmit = [])
    (h : s.entity.tPollRetransmitStart = 0 ∨
      ∃ n ∈ nacks, s.entity.NackCovers n s.entity.pollSn) :
    (nacks.foldl (fun s n => s.processNack ackSn n) s).curWait = [] ∧
      (nacks.foldl (fun s n => s.processNack ackSn n) s).curRetransmit = [] ∧
      (nacks.foldl (fun s n => s.processNack ackSn n) s).entity.tPollRetransmitStart = 0 := by
  induction nacks generalizing s with
  | nil => exact ⟨hw, hr, by simpa using h⟩
  | cons n nacks ih =>
    obtain ⟨hw', hr', hcovers, hzero⟩ := processNack_idle hw hr ackSn n
    refine ih hw' hr' ?_
    rcases h with h | ⟨m, hm, hm'⟩
    · exact .inl (hzero (.inl h))
    · rcases List.mem_cons.1 hm with rfl | hm
      · exact .inl (hzero (.inr hm'))
      · exact .inr ⟨m, hm, (hcovers m).2 hm'⟩

/-- Without segments, a STATUS PDU that acknowledges POLL_SN or NACKs it stops
t-PollRetransmit. -/
theorem tPollRetransmitStart_idle (hw : e.waitList = []) (hr : e.retransmitList = [])
    (h : e.snCompareTx e.pollSn pdu.ackSn < 0 ∨ ∃ n ∈ pdu.nacks, e.NackCovers n e.pollSn) :
    (e.applyControlPdu pdu).tPollRetransmitStart = 0 := by
  obtain ⟨hwait, hretx, hzero⟩ := foldl_processNack_idle pdu.ackSn pdu.nacks
    (s := (e.stopPollRetransmitIf (e.snCompareTx e.pollSn pdu.ackSn < 0)).startScan) hw hr (by
      rcases h with h | h
      · exact .inl (if_pos h)
      · exact .inr h)
  show (e.scanControlPdu pdu).entity.tPollRetransmitStart = 0
  unfold scanControlPdu
  simp only [hwait, AckScan.finishWait, hretx, AckScan.finishRetransmit]
  exact hzero

/-! ## NACKs in the window -/

theorem decodeNack_nackSn {d d' : NrRlcPduDecoder} {bs : List Bool} {nack : Nack} {b : Bool}
    (h : d.Reads buffer bs) (hd : e.decodeNack d = some (nack, b, d')) :
    IsSn (2 ^ e.snFieldLength) nack.nackSn := by
  unfold decodeNack at hd
  simp only [Option.bind_eq_bind, Option.bind_eq_some_iff] at hd
  obtain ⟨⟨nackSn, d₁⟩, h₁, ⟨_, _⟩, -, ⟨_, _⟩, -, ⟨_, _⟩, -, ⟨_, _⟩, -, ⟨_, _⟩, -, ⟨_, _⟩, -,
    ⟨_, _⟩, -, heq⟩ := hd
  have hlt : (nackSn : Int) < 2 ^ e.snFieldLength := by
    exact_mod_cast NrRlcPduDecoder.getBits_lt h h₁
  rw [← (Prod.mk.inj (Option.some.inj heq)).1]
  exact ⟨Int.natCast_nonneg _, hlt⟩

theorem decodeNacks_nackSn : ∀ (n : Nat) (b : Bool) {d : NrRlcPduDecoder} {bs : List Bool}
    {nacks : List Nack}, d.Reads buffer bs → e.decodeNacks n b d = some nacks →
      ∀ m ∈ nacks, IsSn (2 ^ e.snFieldLength) m.nackSn
  | n, false, d, bs, nacks, _, h => by
    have hnil : e.decodeNacks n false d = some [] := by cases n <;> rfl
    obtain rfl := Option.some.inj (hnil.symm.trans h)
    simp
  | n + 1, true, d, bs, nacks, hr, h => by
    obtain ⟨⟨nack, b', d'⟩, hdec, hrest⟩ := Option.bind_eq_some_iff.1 h
    obtain ⟨rest, hns, rfl⟩ := Option.map_eq_some_iff.1 hrest
    obtain ⟨bs', hr', -⟩ := decodeNack_consumes hr hdec
    intro m hm
    rcases List.mem_cons.1 hm with rfl | hm
    · exact decodeNack_nackSn hr hdec
    · exact decodeNacks_nackSn n b' hr' hns m hm

theorem decodeControlPdu_nackSn (h : e.decodeControlPdu buffer = some pdu) :
    ∀ n ∈ pdu.nacks, IsSn (2 ^ e.snFieldLength) n.nackSn := by
  unfold decodeControlPdu at h
  simp only [Option.bind_eq_bind, Option.bind_eq_some_iff] at h
  obtain ⟨⟨_, d₁⟩, h₁, ⟨_, d₂⟩, h₂, h⟩ := h
  split at h
  · cases h
  simp only [Option.bind_eq_some_iff] at h
  obtain ⟨⟨_, d₃⟩, h₃, ⟨_, d₄⟩, h₄, ⟨_, d₅⟩, h₅, nacks, hns, heq⟩ := h
  obtain rfl := Option.some.inj heq
  obtain ⟨bs, hr, -⟩ := reads_header h₁ h₂ h₃ h₄ h₅
  exact decodeNacks_nackSn _ _ hr hns

/-- The SNs of a NACK : one for each of its range. -/
theorem forall_sn_piece_iff {n : Nack} {M : Int} {P : Int → Prop} :
    (∀ p ∈ n.pieces M, P p.sn) ↔ ∀ i < n.range, P ((n.nackSn + i) % M) := by
  simp [Nack.pieces]

theorem range_pos_of_mem_pieces {n : Nack} {M : Int} {p : NackPiece} (h : p ∈ n.pieces M) :
    0 < n.range := by
  by_contra h0
  simp [Nack.pieces, Nat.eq_zero_of_not_pos h0] at h

/-- A valid PDU that says anything acknowledges TX_Next_Ack or NACKs it. -/
theorem acks_or_nacks_txNextAck (hwin : e.TxWindow) (hdec : e.decodeControlPdu buffer = some pdu)
    (hv : e.validControlPdu pdu) (hne : pdu.pieces e.snModulus ≠ []) :
    e.snCompareTx e.txNextAck pdu.ackSn < 0 ∨
      ∃ n ∈ pdu.nacks, e.NackCovers n e.txNextAck := by
  have hM := hwin.space.modulus_eq
  have hW := hwin.space.two_mul_window
  have ha := hwin.txNextAck_sn
  have hack : IsSn e.snModulus pdu.ackSn := hM ▸ decodeControlPdu_ackSn hdec
  have hcmp : ∀ {x y : Int}, IsSn e.snModulus x → IsSn e.snModulus y →
      e.snCompareTx x y = dist e.snModulus e.txNextAck x - dist e.snModulus e.txNextAck y :=
    fun hx hy => snCompareTx_eq ha hx hy
  have hdist : ∀ k : Int, 0 ≤ k → k < e.snModulus →
      dist e.snModulus e.txNextAck ((e.txNextAck + k) % e.snModulus) = k :=
    fun k h0 hk => dist_base_add h0 hk
  by_cases heq : pdu.ackSn = e.txNextAck
  · right
    obtain ⟨p, hp⟩ := List.exists_mem_of_ne_nil _ hne
    obtain ⟨n, hn, hp⟩ := List.mem_flatMap.1 hp
    have hpos := range_pos_of_mem_pieces hp
    -- every piece of the NACK is at TX_Next_Ack
    have hpiece : ∀ i < n.range, dist e.snModulus e.txNextAck (n.nackSn + i) ≤ 0 := by
      intro i hi
      have hle := forall_sn_piece_iff (P := fun a => e.snCompareTx a pdu.ackSn ≤ 0) |>.1
        (fun p hp => (hv.2 p (List.mem_flatMap.2 ⟨n, hn, hp⟩)).2) i hi
      rw [heq, hcmp (hwin.space.isSn_emod _) ha, dist_emod_right, dist_self] at hle
      omega
    have hsn : IsSn e.snModulus n.nackSn := hM ▸ decodeControlPdu_nackSn hdec n hn
    have hzero : n.nackSn = e.txNextAck := by
      have h0 := hpiece 0 hpos
      have hnn := dist_nonneg (b := e.txNextAck) (a := n.nackSn) hwin.space.modulus_pos
      rw [Nat.cast_zero, add_zero] at h0
      exact (dist_eq_zero_iff hsn ha).1 (by omega)
    have hone : n.range = 1 := by
      by_contra hne1
      have h1 := hpiece 1 (by omega)
      rw [hzero, ← dist_emod_right, Nat.cast_one, hdist 1 (by omega) (by omega)] at h1
      omega
    refine ⟨n, hn, ?_, ?_⟩
    · rw [hzero, hcmp ha ha, sub_self]
    · rw [hzero, hone, hcmp ha (hwin.space.isSn_emod _), dist_self, Nat.cast_one,
        hdist 1 (by omega) (by omega)]
      omega
  · left
    rw [hcmp ha hack, dist_self]
    have hnn := dist_nonneg (b := e.txNextAck) (a := pdu.ackSn) hwin.space.modulus_pos
    have hne0 : dist e.snModulus e.txNextAck pdu.ackSn ≠ 0 :=
      fun h => heq ((dist_eq_zero_iff hack ha).1 h)
    omega

/-- A sender with this window and no segments, whose t-PollRetransmit waits for TX_Next_Ack. -/
def pollingEntity (e : NrRlcEntityAm) : NrRlcEntityAm :=
  { e with
    waitList := []
    waitEnd := none
    retransmitList := []
    pollSn := e.txNextAck
    tPollRetransmitStart := 1 }

theorem sameTxWindow_pollingEntity (e : NrRlcEntityAm) : SameTxWindow e.pollingEntity e :=
  ⟨rfl, rfl, rfl, rfl⟩

/-- A PDU with its NACKs out of order is applied by that sender. -/
theorem recvPdu_pollingEntity_ne (hwin : e.TxWindow) (hc : IsControlPdu buffer)
    (h : e.MisorderedNacks buffer) : e.pollingEntity.recvPdu buffer ≠ e.pollingEntity := by
  have hsame := sameTxWindow_pollingEntity e
  obtain ⟨pdu, hdec, hv, hbad⟩ := hsame.misorderedNacks_iff.2 h
  have hwin' : e.pollingEntity.TxWindow :=
    ⟨hwin.space, hwin.txNext_sn, hwin.txNextAck_sn, hwin.txNext_le⟩
  have hne : pdu.pieces e.pollingEntity.snModulus ≠ [] := by
    intro hnil
    refine hbad ⟨hv.1, ?_⟩
    rw [hnil]
    trivial
  have hstop := tPollRetransmitStart_idle (e := e.pollingEntity) rfl rfl
    (acks_or_nacks_txNextAck hwin' hdec hv hne)
  rw [recvPdu_of_isControlPdu hc, processControlPdu, hdec]
  simp only [if_pos hv]
  intro heq
  rw [heq, show e.pollingEntity.tPollRetransmitStart = 1 from rfl] at hstop
  exact absurd hstop (by decide)

/-! ## The result -/

/-- A received control PDU is read inside the buffer and the parse ends. The senders with a
given window are left as they are by every PDU that is not valid, unless the NACKs of a PDU
that is otherwise valid are out of order. -/
theorem control_pdu_atomic_iff (e₀ : NrRlcEntityAm) (buffer : List UInt8) (hwin : e₀.TxWindow)
    (hc : IsControlPdu buffer) :
    (∀ (e : NrRlcEntityAm) (fuel : Nat), 8 * buffer.length ≤ fuel →
        (e.runRecvControlPdu fuel buffer).1 = some (e.recvPdu buffer) ∧
          ∀ i ∈ (e.runRecvControlPdu fuel buffer).2.read, i < buffer.length) ∧
      ((∀ e, SameTxWindow e e₀ → e.RejectsAtomically buffer) ↔ ¬e₀.MisorderedNacks buffer) := by
  refine ⟨fun e fuel hfuel => runRecvControlPdu_inside hc hfuel, fun h hbad => ?_,
    fun h e hsame => ?_⟩
  · have hsame := sameTxWindow_pollingEntity e₀
    rcases (h _ hsame).atomic with ⟨pdu, hdec, hok⟩ | heq
    · obtain ⟨pdu', hdec', -, hno⟩ := hsame.misorderedNacks_iff.2 hbad
      rw [hdec] at hdec'
      exact hno (Option.some.inj hdec' ▸ hok)
    · exact recvPdu_pollingEntity_ne hwin hc hbad heq
  · exact rejectsAtomically_of_not_misordered hc (mt hsame.misorderedNacks_iff.1 h)

/-- A STATUS PDU with ACK_SN 5 for a new entity, which has sent nothing. -/
theorem control_pdu_atomic_ackSn :
    (newNrRlcEntityAm ⟨100, 100, 45, 35, 0, -1, -1, 8, 12, .inl rfl⟩).RejectsAtomically
      [0, 5, 0] := by
  let e := newNrRlcEntityAm ⟨100, 100, 45, 35, 0, -1, -1, 8, 12, .inl rfl⟩
  have hno : ¬e.MisorderedNacks [0, 5, 0] := by
    rintro ⟨pdu, hdec, hv, -⟩
    have hall : (e.decodeControlPdu [0, 5, 0]).all fun pdu => decide ¬e.validControlPdu pdu := by
      decide +kernel
    rw [hdec] at hall
    exact of_decide_eq_true hall hv
  exact (control_pdu_atomic_iff e [0, 5, 0] (txInv_new _).window (by decide)).2.2 hno e
    ⟨rfl, rfl, rfl, rfl⟩

/-- Three SDUs are sent, and a STATUS PDU has ACK_SN 3, NACK 2 and then NACK 1 : SDU 2 is in the
retransmit list, and SDU 1, which is missing as well, is freed as acknowledged. -/
theorem control_pdu_atomic_fails : ¬∀ (c : AmConfig) (e : NrRlcEntityAm) (buffer : List UInt8),
    AmReach c e → IsControlPdu buffer → e.RejectsAtomically buffer := by
  intro h
  let c : AmConfig := ⟨100, 100, 45, 35, 0, -1, -1, 8, 12, .inl rfl⟩
  let ops : List AmOp := [.recvSdu [1] 0, .recvSdu [2] 1, .recvSdu [3] 2, .generatePdu 100,
    .generatePdu 100, .generatePdu 100]
  let buffer : List UInt8 := [0, 3, 0x80, 0, 0x28, 0, 0x10]
  have hrun : (ops.foldlM amStep (newNrRlcEntityAm c)).any fun e =>
      decide ((e.decodeControlPdu buffer).all (fun pdu => decide ¬e.documentedValid pdu) ∧
        (e.recvPdu buffer).waitList = [] ∧
        ((e.recvPdu buffer).retransmitList.map fun g => g.sdu.sn) = [2] ∧
        ((e.recvPdu buffer).freed.map fun g => g.sdu.sn) = [0, 1] ∧ e.freed = []) := by
    decide +kernel
  obtain ⟨e, he, hbad⟩ := (Option.any_eq_true _ _).1 hrun
  obtain ⟨hno, -, -, hfreed, hnil⟩ := of_decide_eq_true hbad
  rcases (h c e buffer (reach_foldlM he) (by decide)).atomic with ⟨pdu, hdec, hok⟩ | heq
  · rw [hdec] at hno
    exact of_decide_eq_true hno hok
  · rw [heq, hnil] at hfreed
    cases hfreed

end NrRlcEntityAm

end NrStack
