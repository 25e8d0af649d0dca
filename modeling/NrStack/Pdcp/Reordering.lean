import NrStack.Library.Run
import NrStack.Pdcp.Count

/-!
# The PDCP reordering buffer

`rx_list` holds the SDUs that arrived ahead of RX_DELIV, sorted by COUNT, and t-Reordering
runs while something before RX_NEXT is missing (`ReorderingInv`). Reception, expiry of the
timer, suspend, re-establishment and release all keep this, with one exception : the SDU
of COUNT `2^32 - 1` sets RX_NEXT to `0`. RX_DELIV follows only if the SDU is the next to
deliver ; an SDU of this COUNT that arrives early (`WrapsRxNext`) stays in the buffer
behind RX_NEXT, with no timer running. A PDU is taken for it also when RX_DELIV is still
in the first half window, since the HFN before `0` wraps too.

`reordering_invariant_iff` : a run keeps the invariant throughout exactly when no step
of it does that.
-/

namespace NrStack

/-! ## Delivery in order -/

section TakeInOrder

variable {N : Nat}

theorem takeInOrder_append : ∀ (l : List NrPdcpSdu) (count : Nat),
    (takeInOrder l count).1 ++ (takeInOrder l count).2.1 = l
  | [], _ => rfl
  | cur :: rest, count => by
    unfold takeInOrder
    split_ifs
    · simp [takeInOrder_append rest]
    · rfl

/-- With all COUNTs from `count` on and no wrap : what is delivered is below the new
COUNT, what stays is above it, and it moves up to `N` at most. -/
theorem takeInOrder_spec : ∀ {l : List NrPdcpSdu} {count : Nat},
    l.Pairwise (·.count < ·.count) → (∀ sdu ∈ l, count ≤ sdu.count ∧ sdu.count < N) →
      count ≤ N → N < uint32Modulus →
      count ≤ (takeInOrder l count).2.2 ∧ (takeInOrder l count).2.2 ≤ N ∧
        (∀ sdu ∈ (takeInOrder l count).1, sdu.count < (takeInOrder l count).2.2) ∧
        ∀ sdu ∈ (takeInOrder l count).2.1, (takeInOrder l count).2.2 < sdu.count
  | [], count, _, _, hcN, _ => by simp [takeInOrder, hcN]
  | cur :: rest, count, hs, hl, hcN, hN => by
    obtain ⟨hcur, hs'⟩ := List.pairwise_cons.1 hs
    obtain ⟨hge, hlt⟩ := hl cur (by simp)
    unfold takeInOrder
    split_ifs with h
    · have hmod : (count + 1) % uint32Modulus = count + 1 := Nat.mod_eq_of_lt (by omega)
      rw [hmod]
      have hrest : ∀ sdu ∈ rest, count + 1 ≤ sdu.count ∧ sdu.count < N := fun sdu hsdu => by
        have := hcur sdu hsdu
        exact ⟨by omega, (hl sdu (by simp [hsdu])).2⟩
      obtain ⟨h1, h2, h3, h4⟩ := takeInOrder_spec hs' hrest (by omega) hN
      refine ⟨by dsimp only; omega, h2, fun sdu hsdu => ?_, h4⟩
      rcases List.mem_cons.1 hsdu with rfl | hsdu
      · dsimp only
        omega
      · exact h3 sdu hsdu
    · refine ⟨le_rfl, hcN, by simp, fun sdu hsdu => ?_⟩
      rcases List.mem_cons.1 hsdu with rfl | hsdu
      · dsimp only
        omega
      · have := hcur sdu hsdu
        dsimp only
        omega

end TakeInOrder

namespace NrPdcpEntity

variable {e e' : NrPdcpEntity} {k : PdcpCrypto} {sn count : Nat} {sdu : NrPdcpSdu}
  {buffer : List UInt8}

/-! ## The invariant -/

/-- The buffer is sorted, and is ahead of RX_DELIV and behind RX_NEXT. -/
structure StoredAhead (e : NrPdcpEntity) : Prop where
  sorted : e.rxList.Pairwise (·.count < ·.count)
  stored : ∀ sdu ∈ e.rxList, e.rxDeliv < sdu.count ∧ sdu.count < e.rxNext
  deliv_le : e.rxDeliv ≤ e.rxNext
  next_lt : e.rxNext < uint32Modulus

/-- The invariant of the reordering buffer, whatever the clock. -/
structure BufferInv (e : NrPdcpEntity) : Prop where
  coherent : e.SnCoherent
  ahead : e.StoredAhead
  reord : e.tReorderingStart ≠ 0 → e.rxDeliv < e.rxReord ∧ e.rxReord ≤ e.rxNext

/-- The invariant of the reordering buffer with its timer. -/
structure ReorderingInv (e : NrPdcpEntity) : Prop extends BufferInv e where
  clock : e.tCurrent ≠ 0
  timer : e.tReorderingStart ≠ 0 ↔ e.rxDeliv < e.rxNext

/-- What the buffer is meant to keep. -/
structure ReorderingSpec (e : NrPdcpEntity) : Prop where
  sorted : e.rxList.Pairwise (·.count < ·.count)
  stored : ∀ sdu ∈ e.rxList, e.rxDeliv ≤ sdu.count ∧ sdu.count < e.rxNext
  deliv_not_stored : ¬nrPdcpSduInList e.rxList e.rxDeliv
  deliv_le : e.rxDeliv ≤ e.rxNext
  timer : e.tReorderingStart ≠ 0 ↔ e.rxDeliv < e.rxNext
  reord : e.tReorderingStart ≠ 0 → e.rxDeliv < e.rxReord ∧ e.rxReord ≤ e.rxNext

theorem ReorderingInv.toSpec (h : e.ReorderingInv) : e.ReorderingSpec where
  sorted := h.ahead.sorted
  stored sdu hsdu := ⟨(h.ahead.stored sdu hsdu).1.le, (h.ahead.stored sdu hsdu).2⟩
  deliv_not_stored := fun ⟨sdu, hsdu, heq⟩ => (h.ahead.stored sdu hsdu).1.ne' heq
  deliv_le := h.ahead.deliv_le
  timer := h.timer
  reord := h.reord

/-- With nothing missing nothing is stored. -/
theorem StoredAhead.eq_nil (h : e.StoredAhead) (heq : e.rxDeliv = e.rxNext) : e.rxList = [] := by
  refine List.eq_nil_iff_forall_not_mem.2 fun sdu hsdu => ?_
  have := h.stored sdu hsdu
  omega

/-- The SN length and the receiving side. -/
def rxView (e : NrPdcpEntity) :=
  ((e.snSize, e.snMax, e.windowSize), e.rxList, (e.rxDeliv, e.rxNext, e.rxReord),
    e.tReorderingStart, e.tCurrent)

theorem ReorderingInv.congr (h : e.ReorderingInv) (hv : e'.rxView = e.rxView) :
    e'.ReorderingInv := by
  simp only [rxView, Prod.mk.injEq] at hv
  obtain ⟨⟨h1, h2, h3⟩, h4, ⟨h5, h6, h7⟩, h8, h9⟩ := hv
  obtain ⟨⟨⟨a1, a2, a3⟩, ⟨b1, b2, b3, b4⟩, c⟩, d, f⟩ := h
  constructor
  · constructor
    · constructor
      · rwa [h1]
      · rwa [h1, h2]
      · rwa [h1, h3]
    · constructor
      · rwa [h4]
      · rwa [h4, h5, h6]
      · rwa [h5, h6]
      · rwa [h6]
    · rwa [h5, h6, h7, h8]
  · rwa [h9]
  · rwa [h5, h6, h8]

/-! ## The timer -/

@[simp] theorem startReordering_rxDeliv : e.startReordering.rxDeliv = e.rxDeliv := by
  unfold startReordering; split_ifs <;> rfl

@[simp] theorem startReordering_rxNext : e.startReordering.rxNext = e.rxNext := by
  unfold startReordering; split_ifs <;> rfl

@[simp] theorem startReordering_rxList : e.startReordering.rxList = e.rxList := by
  unfold startReordering; split_ifs <;> rfl

@[simp] theorem stopReordering_rxDeliv : e.stopReordering.rxDeliv = e.rxDeliv := by
  unfold stopReordering; split_ifs <;> rfl

@[simp] theorem stopReordering_rxNext : e.stopReordering.rxNext = e.rxNext := by
  unfold stopReordering; split_ifs <;> rfl

@[simp] theorem stopReordering_rxList : e.stopReordering.rxList = e.rxList := by
  unfold stopReordering; split_ifs <;> rfl

theorem StoredAhead.congr (h : e.StoredAhead) (hl : e'.rxList = e.rxList)
    (hd : e'.rxDeliv = e.rxDeliv) (hn : e'.rxNext = e.rxNext) : e'.StoredAhead := by
  obtain ⟨h1, h2, h3, h4⟩ := h
  constructor
  · rwa [hl]
  · rwa [hl, hd, hn]
  · rwa [hd, hn]
  · rwa [hn]

theorem SnCoherent.congr (h : e.SnCoherent) (h1 : e'.snSize = e.snSize) (h2 : e'.snMax = e.snMax)
    (h3 : e'.windowSize = e.windowSize) : e'.SnCoherent :=
  ⟨by rw [h1]; exact h.1, by rw [h1, h2]; exact h.2, by rw [h1, h3]; exact h.3⟩

/-- Starting the timer keeps the buffer as it is. -/
theorem BufferInv.startReordering (h : e.BufferInv) : e.startReordering.BufferInv := by
  unfold NrPdcpEntity.startReordering
  split_ifs with hstart
  · exact ⟨h.coherent.congr rfl rfl rfl, h.ahead.congr rfl rfl rfl, fun _ => ⟨hstart.2, le_rfl⟩⟩
  · exact h

/-- With a clock it runs if something is missing. -/
theorem BufferInv.startReordering_inv (h : e.BufferInv) (ht : e.tCurrent ≠ 0) :
    e.startReordering.ReorderingInv := by
  refine ⟨h.startReordering, ?_, ?_⟩
  · unfold NrPdcpEntity.startReordering
    split_ifs <;> exact ht
  · rw [startReordering_rxDeliv, startReordering_rxNext]
    unfold NrPdcpEntity.startReordering
    split_ifs with hstart
    · exact iff_of_true ht hstart.2
    · refine ⟨fun hne => ?_, fun hlt h0 => hstart ⟨h0, hlt⟩⟩
      have := h.reord hne
      omega

/-- Stopping the timer keeps RX_REORD ahead of RX_DELIV while it runs. -/
theorem stopReordering_reord (hr : e.tReorderingStart ≠ 0 → e.rxReord ≤ e.rxNext) :
    e.stopReordering.tReorderingStart ≠ 0 →
      e.stopReordering.rxDeliv < e.stopReordering.rxReord ∧
        e.stopReordering.rxReord ≤ e.stopReordering.rxNext := by
  unfold stopReordering
  split_ifs with hstop
  · exact fun h => absurd rfl h
  · intro hne
    have : ¬e.rxDeliv ≥ e.rxReord := fun h => hstop ⟨hne, h⟩
    exact ⟨by omega, hr hne⟩

/-! ## Storing and delivering -/

/-- Delivery from `count` on, with everything stored from there on. -/
theorem deliverFrom_ahead (hs : e.rxList.Pairwise (·.count < ·.count))
    (hl : ∀ sdu ∈ e.rxList, count ≤ sdu.count ∧ sdu.count < e.rxNext) (hle : count ≤ e.rxNext)
    (hn : e.rxNext < uint32Modulus) : (e.deliverFrom count).StoredAhead := by
  obtain ⟨-, h2, -, h4⟩ := takeInOrder_spec hs hl hle hn
  have happ := takeInOrder_append e.rxList count
  have hsub : ∀ sdu ∈ (takeInOrder e.rxList count).2.1, sdu ∈ e.rxList := fun sdu hsdu => by
    rw [← happ]
    exact List.mem_append_right _ hsdu
  constructor
  · rw [← happ] at hs
    exact (List.pairwise_append.1 hs).2.1
  · exact fun sdu hsdu => ⟨h4 sdu hsdu, (hl sdu (hsub sdu hsdu)).2⟩
  · exact h2
  · exact hn

theorem storeSdu_sorted (hs : e.rxList.Pairwise (·.count < ·.count))
    (hnew : ¬nrPdcpSduInList e.rxList sdu.count) :
    (e.storeSdu sdu).rxList.Pairwise (·.count < ·.count) := by
  refine pairwise_insertBefore (R := fun a b : NrPdcpSdu => a.count < b.count)
    (fun _ _ _ => Nat.lt_trans) hs (fun c _ hc => hc) fun c hc hnot => ?_
  have : c.count ≠ sdu.count := fun heq => hnew ⟨c, hc, heq⟩
  omega

theorem mem_storeSdu {s : NrPdcpSdu} : s ∈ (e.storeSdu sdu).rxList ↔ s = sdu ∨ s ∈ e.rxList :=
  mem_insertBefore

/-- RX_NEXT after storing an SDU, without a wrap. -/
theorem storeSdu_rxNext (hlt : sdu.count + 1 < uint32Modulus) :
    (e.storeSdu sdu).rxNext = max e.rxNext (sdu.count + 1) := by
  rw [storeSdu]
  dsimp only
  rw [Nat.mod_eq_of_lt hlt]
  split_ifs <;> omega

/-- Storing an SDU and delivering what is in order. -/
theorem deliverIfNext_ahead (h : e.StoredAhead) (hge : e.rxDeliv ≤ sdu.count)
    (hlt : sdu.count + 1 < uint32Modulus) (hnew : ¬nrPdcpSduInList e.rxList sdu.count) :
    ((e.storeSdu sdu).deliverIfNext sdu.count).StoredAhead := by
  have hs := storeSdu_sorted h.sorted hnew
  have hn := storeSdu_rxNext (e := e) hlt
  have hle := h.deliv_le
  have hN := h.next_lt
  have hd : (e.storeSdu sdu).rxDeliv = e.rxDeliv := rfl
  have hl : ∀ s ∈ (e.storeSdu sdu).rxList,
      s = sdu ∨ e.rxDeliv < s.count ∧ s.count < e.rxNext := fun s hs => by
    rcases mem_storeSdu.1 hs with rfl | hs
    · exact .inl rfl
    · exact .inr (h.stored s hs)
  unfold deliverIfNext
  split_ifs with heq
  · refine deliverFrom_ahead hs (fun s hs => ?_) (by omega) (by omega)
    rcases hl s hs with rfl | hs <;> omega
  · refine ⟨hs, fun s hs => ?_, by omega, by omega⟩
    rcases hl s hs with rfl | hs <;> omega

@[simp] theorem deliverIfNext_rxNext : (e.deliverIfNext count).rxNext = e.rxNext := by
  unfold deliverIfNext; split_ifs <;> rfl

@[simp] theorem deliverIfNext_rxReord : (e.deliverIfNext count).rxReord = e.rxReord := by
  unfold deliverIfNext; split_ifs <;> rfl

@[simp] theorem deliverIfNext_tReorderingStart :
    (e.deliverIfNext count).tReorderingStart = e.tReorderingStart := by
  unfold deliverIfNext; split_ifs <;> rfl

@[simp] theorem deliverIfNext_tCurrent : (e.deliverIfNext count).tCurrent = e.tCurrent := by
  unfold deliverIfNext; split_ifs <;> rfl

@[simp] theorem stopReordering_tCurrent : e.stopReordering.tCurrent = e.tCurrent := by
  unfold stopReordering; split_ifs <;> rfl

theorem SnCoherent.deliverIfNext (h : e.SnCoherent) : (e.deliverIfNext count).SnCoherent := by
  unfold NrPdcpEntity.deliverIfNext
  split_ifs
  · exact h.congr rfl rfl rfl
  · exact h

theorem SnCoherent.stopReordering (h : e.SnCoherent) : e.stopReordering.SnCoherent := by
  unfold NrPdcpEntity.stopReordering
  split_ifs
  · exact h.congr rfl rfl rfl
  · exact h

/-- An SDU whose COUNT is not the last one keeps the invariant, up to the start of the
timer. -/
theorem stopReordering_buffer (h : e.BufferInv) (hge : e.rxDeliv ≤ sdu.count)
    (hlt : sdu.count + 1 < uint32Modulus) (hnew : ¬nrPdcpSduInList e.rxList sdu.count) :
    ((e.storeSdu sdu).deliverIfNext sdu.count).stopReordering.BufferInv := by
  have hahead := deliverIfNext_ahead h.ahead hge hlt hnew
  have hcoh : (e.storeSdu sdu).SnCoherent := h.coherent.congr rfl rfl rfl
  have hstart : (e.storeSdu sdu).tReorderingStart = e.tReorderingStart := rfl
  refine ⟨hcoh.deliverIfNext.stopReordering, hahead.congr (by simp) (by simp) (by simp),
    stopReordering_reord ?_⟩
  intro hne
  have hreord := (h.reord (by simpa [hstart] using hne)).2
  have hn := storeSdu_rxNext (e := e) hlt
  simp only [deliverIfNext_rxReord, deliverIfNext_rxNext]
  exact hreord.trans (by omega)

theorem receptionActions_buffer (h : e.BufferInv) (hge : e.rxDeliv ≤ sdu.count)
    (hlt : sdu.count + 1 < uint32Modulus) (hnew : ¬nrPdcpSduInList e.rxList sdu.count) :
    ((e.storeSdu sdu).receptionActions sdu.count).BufferInv :=
  (stopReordering_buffer h hge hlt hnew).startReordering

theorem receptionActions_inv (h : e.ReorderingInv) (hge : e.rxDeliv ≤ sdu.count)
    (hlt : sdu.count + 1 < uint32Modulus) (hnew : ¬nrPdcpSduInList e.rxList sdu.count) :
    ((e.storeSdu sdu).receptionActions sdu.count).ReorderingInv := by
  have hclock : (e.storeSdu sdu).tCurrent ≠ 0 := h.clock
  exact (stopReordering_buffer h.toBufferInv hge hlt hnew).startReordering_inv
    (by simpa using hclock)

/-! ## Reception -/

theorem rcvdSn_lt (buffer : List UInt8) (h : e.SnCoherent) : e.rcvdSn buffer < 2 ^ e.snSize := by
  have hbyte : ∀ i, (buffer.getD i 0).toNat < 2 ^ 8 := fun i => UInt8.toNat_lt _
  unfold rcvdSn
  dsimp only
  obtain ⟨hn, -⟩ | ⟨hn, -⟩ := h.values
  · rw [hn, if_pos (by decide)]
    refine Nat.or_lt_two_pow ?_ ((hbyte 1).trans (by decide))
    have := Nat.and_lt_two_pow (n := 4) (buffer.getD 0 0).toNat (by decide : 0xf < 2 ^ 4)
    rw [Nat.shiftLeft_eq]
    omega
  · rw [hn, if_neg (by decide)]
    refine Nat.or_lt_two_pow (Nat.or_lt_two_pow ?_ ?_) ((hbyte 2).trans (by decide))
    · have := Nat.and_lt_two_pow (n := 2) (buffer.getD 0 0).toNat (by decide : 0x3 < 2 ^ 2)
      rw [Nat.shiftLeft_eq]
      omega
    · have := hbyte 1
      rw [Nat.shiftLeft_eq]
      omega

/-- The SN is taken for COUNT `2^32 - 1` in the last half window, and in the first. -/
theorem rcvdCount_eq_last_iff (h : e.SnCoherent) (hd : e.rxDeliv < uint32Modulus)
    (hsn : sn < 2 ^ e.snSize) : e.rcvdCount sn = uint32Modulus - 1 ↔
      sn = e.snMax ∧ (e.rxDeliv < e.windowSize ∨ uint32Modulus ≤ e.rxDeliv + e.windowSize) := by
  rw [rcvdCount_eq_add h hsn, rcvdHfn_eq h, h.snMax_eq]
  have hm : uint32Modulus = 4294967296 := rfl
  rw [hm] at hd ⊢
  obtain ⟨hn, hw⟩ | ⟨hn, hw⟩ := h.values
  all_goals
    rw [hn] at hsn ⊢
    rw [hw]
    simp only [Nat.reducePow, Nat.reduceSub] at hsn ⊢
    split_ifs <;> omega

/-- An SDU of COUNT `2^32 - 1` would be stored before its turn. -/
def WrapsRxNext (k : PdcpCrypto) (e : NrPdcpEntity) : PdcpOp → Prop
  | .recvPdu buffer =>
    e.entitySuspended = false ∧ e.minPduSize ≤ buffer.length ∧
      e.rcvdSn (e.setDcBit buffer) = e.snMax ∧
      (e.rxDeliv < e.windowSize ∨
        uint32Modulus ≤ e.rxDeliv + e.windowSize ∧ e.rxDeliv ≠ uint32Modulus - 1) ∧
      e.integrityOk k (uint32Modulus - 1)
        (e.decipher k (uint32Modulus - 1) (e.setDcBit buffer))
  | _ => False

@[simp] theorem length_setDcBit : (e.setDcBit buffer).length = buffer.length := by
  unfold setDcBit; split_ifs <;> simp

/-- What `recvPdu` does, by cases. -/
theorem recvPdu_eq : e.recvPdu k buffer =
    if e.entitySuspended = false ∧ e.acceptsPdu k (e.setDcBit buffer) then
      (e.storeSdu (e.sduOf k (e.setDcBit buffer))).receptionActions
        (e.sduOf k (e.setDcBit buffer)).count
    else e := by
  unfold recvPdu
  by_cases hs : e.entitySuspended <;> by_cases ha : e.acceptsPdu k (e.setDcBit buffer)
  · simp [hs]
  · simp [hs]
  · have hlen : ¬buffer.length < 1 := by
      have := ha.1
      rw [length_setDcBit, minPduSize] at this
      omega
    simp [hs, ha, hlen]
  · simp [hs, ha]

/-- The last COUNT is never stored already. -/
theorem ReorderingInv.last_not_stored (h : e.ReorderingInv) :
    ¬nrPdcpSduInList e.rxList (uint32Modulus - 1) := fun ⟨sdu, hsdu, heq⟩ => by
  have := h.ahead.stored sdu hsdu
  have := h.ahead.next_lt
  omega

/-- A wrap is the acceptance of COUNT `2^32 - 1` while RX_DELIV is before it. -/
theorem wrapsRxNext_iff (h : e.ReorderingInv) : WrapsRxNext k e (.recvPdu buffer) ↔
    (e.entitySuspended = false ∧ e.acceptsPdu k (e.setDcBit buffer)) ∧
      (e.sduOf k (e.setDcBit buffer)).count = uint32Modulus - 1 ∧
        e.rxDeliv ≠ uint32Modulus - 1 := by
  have hd : e.rxDeliv < uint32Modulus := h.ahead.deliv_le.trans_lt h.ahead.next_lt
  have hlast := rcvdCount_eq_last_iff h.coherent hd
    (rcvdSn_lt (e.setDcBit buffer) h.coherent)
  have hw : e.windowSize < uint32Modulus - 1 := by
    obtain ⟨-, hw⟩ | ⟨-, hw⟩ := h.coherent.values <;> rw [hw] <;> decide
  have hcount : (e.sduOf k (e.setDcBit buffer)).count =
      e.rcvdCount (e.rcvdSn (e.setDcBit buffer)) :=
    rfl
  rw [hcount]
  constructor
  · rintro ⟨hs, hsize, hsn, hwin, hint⟩
    have hc : e.rcvdCount (e.rcvdSn (e.setDcBit buffer)) = uint32Modulus - 1 :=
      hlast.2 ⟨hsn, hwin.imp_right And.left⟩
    refine ⟨⟨hs, by simpa using hsize, ?_, ?_, ?_⟩, hc, ?_⟩
    · rwa [hc]
    · rw [hc]
      omega
    · rw [hc]
      exact h.last_not_stored
    · rcases hwin with hwin | hwin
      · omega
      · exact hwin.2
  · rintro ⟨⟨hs, hsize, hint, -, -⟩, hc, hne⟩
    obtain ⟨hsn, hwin⟩ := hlast.1 hc
    rw [hc] at hint
    exact ⟨hs, by simpa using hsize, hsn, hwin.imp_right fun hwin => ⟨hwin, hne⟩, hint⟩

/-- With nothing missing the next SDU is delivered at once. -/
theorem receptionActions_next (hl : e.rxList = []) (hd : e.rxDeliv = sdu.count)
    (hn : e.rxNext = sdu.count) (ht : e.tReorderingStart = 0) :
    (e.storeSdu sdu).receptionActions sdu.count =
      { e with
        rxDeliv := (sdu.count + 1) % uint32Modulus
        rxNext := (sdu.count + 1) % uint32Modulus
        rxSize := e.rxSize + (sdu.buffer.length + e.integritySize) - sduBytes [sdu]
        out := e.out ++ [.deliverSdu sdu] } := by
  have hstore : e.storeSdu sdu =
      { e with
        rxList := [sdu]
        rxSize := e.rxSize + (sdu.buffer.length + e.integritySize)
        rxNext := (sdu.count + 1) % uint32Modulus } := by
    rw [storeSdu, hl, if_pos hn.le]
    rfl
  have htake : takeInOrder [sdu] sdu.count = ([sdu], [], (sdu.count + 1) % uint32Modulus) := by
    rw [takeInOrder, if_pos rfl]
    rfl
  rw [receptionActions, deliverIfNext, hstore, if_pos hd.symm, deliverFrom]
  dsimp only
  rw [hd, htake, stopReordering, if_neg fun h => h.1 ht, startReordering,
    if_neg fun h => absurd h.2 (lt_irrefl _), hl]
  rfl

/-- The SDU of COUNT `2^32 - 1` in its turn leaves everything at `0`. -/
theorem receptionActions_last_inv (h : e.ReorderingInv) (hc : sdu.count = uint32Modulus - 1)
    (hd : e.rxDeliv = uint32Modulus - 1) :
    ((e.storeSdu sdu).receptionActions sdu.count).ReorderingInv := by
  have hle := h.ahead.deliv_le
  have hlt := h.ahead.next_lt
  have hnil : e.rxList = [] := h.ahead.eq_nil (by omega)
  have hstart : e.tReorderingStart = 0 := by
    by_contra hne
    have := h.timer.1 hne
    omega
  have hzero : (sdu.count + 1) % uint32Modulus = 0 := by
    rw [hc]
    rfl
  rw [receptionActions_next hnil (by omega) (by omega) hstart, hzero]
  refine ⟨⟨h.coherent.congr rfl rfl rfl, ⟨?_, ?_, le_rfl, Nat.two_pow_pos 32⟩,
    fun hne => absurd hstart hne⟩, h.clock, ?_⟩
  · simp [hnil]
  · simp [hnil]
  · simp [hstart]

/-- Reception keeps the invariant, unless RX_NEXT wraps. -/
theorem recvPdu_inv (h : e.ReorderingInv) (hok : ¬WrapsRxNext k e (.recvPdu buffer)) :
    (e.recvPdu k buffer).ReorderingInv := by
  rw [wrapsRxNext_iff h] at hok
  rw [recvPdu_eq]
  split_ifs with hacc
  · have hlt : (e.sduOf k (e.setDcBit buffer)).count < uint32Modulus :=
      (rcvdCount_spec h.coherent (rcvdSn_lt _ h.coherent)).1
    by_cases hc : (e.sduOf k (e.setDcBit buffer)).count = uint32Modulus - 1
    · refine receptionActions_last_inv h hc ?_
      by_contra hne
      exact hok ⟨hacc, hc, hne⟩
    · exact receptionActions_inv h hacc.2.2.2.1 (by omega) hacc.2.2.2.2
  · exact h

/-- A wrap leaves an SDU behind RX_NEXT. -/
theorem recvPdu_breaks (h : e.ReorderingInv) (hw : WrapsRxNext k e (.recvPdu buffer)) :
    ¬(e.recvPdu k buffer).ReorderingSpec := by
  obtain ⟨hacc, hc, hne⟩ := (wrapsRxNext_iff h).1 hw
  rw [recvPdu_eq, if_pos hacc]
  set sdu := e.sduOf k (e.setDcBit buffer)
  have hif : (e.storeSdu sdu).deliverIfNext sdu.count = e.storeSdu sdu := by
    rw [deliverIfNext, if_neg]
    rw [hc]
    exact fun heq => hne heq.symm
  have hnext : (e.storeSdu sdu).rxNext = 0 := by
    have := h.ahead.next_lt
    rw [storeSdu]
    dsimp only
    rw [if_pos (by omega), hc]
    rfl
  intro hspec
  have hstored := hspec.stored sdu (by
    rw [receptionActions, startReordering_rxList, stopReordering_rxList, hif]
    exact mem_storeSdu.2 (.inl rfl))
  rw [receptionActions, startReordering_rxNext, stopReordering_rxNext, hif, hnext] at hstored
  omega

/-! ## What is delivered -/

/-- What a call of the entity appends to the deliveries, from a buffer of `l`. -/
def Delivers (e e' : NrPdcpEntity) (l : List NrPdcpSdu) : Prop :=
  ∃ new, e'.out = e.out ++ new.map .deliverSdu ∧ new ++ e'.rxList = l

theorem deliverIfNext_delivers (e : NrPdcpEntity) (count : Nat) :
    Delivers e (e.deliverIfNext count) e.rxList := by
  unfold deliverIfNext
  split_ifs
  · exact ⟨_, rfl, takeInOrder_append _ _⟩
  · exact ⟨[], by simp, rfl⟩

@[simp] theorem stopReordering_out : e.stopReordering.out = e.out := by
  unfold stopReordering; split_ifs <;> rfl

@[simp] theorem startReordering_out : e.startReordering.out = e.out := by
  unfold startReordering; split_ifs <;> rfl

/-- Reception inserts the SDU in the buffer, and delivers from its head. -/
theorem receptionActions_delivers (e : NrPdcpEntity) (sdu : NrPdcpSdu) :
    Delivers e ((e.storeSdu sdu).receptionActions sdu.count) (nrPdcpSduListAdd e.rxList sdu) := by
  obtain ⟨new, hout, hl⟩ := deliverIfNext_delivers (e.storeSdu sdu) sdu.count
  refine ⟨new, ?_, ?_⟩
  · rw [receptionActions, startReordering_out, stopReordering_out, hout]
    rfl
  · rw [receptionActions, startReordering_rxList, stopReordering_rxList, hl]
    rfl

/-! ## The other operations -/

theorem dropWhile_ge_of_sorted {N : Nat} : ∀ {l : List NrPdcpSdu},
    l.Pairwise (·.count < ·.count) →
      ∀ sdu ∈ l.dropWhile (fun cur => cur.count < N), N ≤ sdu.count
  | [], _ => by simp
  | cur :: rest, hs => by
    obtain ⟨hcur, hs'⟩ := List.pairwise_cons.1 hs
    intro sdu hsdu
    by_cases hlt : cur.count < N
    · rw [List.dropWhile_cons_of_pos (by simpa using hlt)] at hsdu
      exact dropWhile_ge_of_sorted hs' sdu hsdu
    · rw [List.dropWhile_cons_of_neg (by simpa using hlt)] at hsdu
      rcases List.mem_cons.1 hsdu with rfl | hsdu
      · omega
      · have := hcur sdu hsdu
        omega

/-- Expiry moves RX_DELIV to RX_REORD or past it. -/
theorem expired_buffer (h : e.BufferInv) (hne : e.tReorderingStart ≠ 0) :
    (({ e with tReorderingStart := 0 } : NrPdcpEntity).deliverBeforeReord.deliverFrom
      e.rxReord).BufferInv := by
  obtain ⟨-, hle⟩ := h.reord hne
  have hsuf := List.dropWhile_suffix (l := e.rxList) fun cur => cur.count < e.rxReord
  refine ⟨h.coherent.congr rfl rfl rfl, deliverFrom_ahead (h.ahead.sorted.sublist hsuf.sublist)
    (fun sdu hsdu => ?_) hle h.ahead.next_lt, fun h0 => absurd rfl h0⟩
  exact ⟨dropWhile_ge_of_sorted h.ahead.sorted sdu hsdu, (h.ahead.stored sdu (hsuf.subset hsdu)).2⟩

theorem setTime_buffer (now : UInt64) (h : e.BufferInv) : (e.setTime now).BufferInv := by
  have h' : ({ e with tCurrent := now } : NrPdcpEntity).BufferInv :=
    ⟨h.coherent.congr rfl rfl rfl, h.ahead.congr rfl rfl rfl, h.reord⟩
  unfold setTime checkTReordering
  split_ifs with hinf hstop
  · exact h'
  · exact h'
  · exact (expired_buffer h' fun h0 => hstop (.inl h0)).startReordering

theorem setTime_inv {now : UInt64} (h : e.ReorderingInv) (hnow : now ≠ 0) :
    (e.setTime now).ReorderingInv := by
  have h' : ({ e with tCurrent := now } : NrPdcpEntity).BufferInv :=
    ⟨h.coherent.congr rfl rfl rfl, h.ahead.congr rfl rfl rfl, h.reord⟩
  unfold setTime checkTReordering
  split_ifs with hinf hstop
  · exact ⟨h', hnow, h.timer⟩
  · exact ⟨h', hnow, h.timer⟩
  · exact (expired_buffer h' fun h0 => hstop (.inl h0)).startReordering_inv hnow

/-- What flushes the buffer and resets the state variables starts over. -/
theorem ReorderingInv.of_reset (h : e.ReorderingInv) (hsn : e'.snSize = e.snSize)
    (hmax : e'.snMax = e.snMax) (hw : e'.windowSize = e.windowSize) (ht : e'.tCurrent = e.tCurrent)
    (hl : e'.rxList = []) (hn : e'.rxNext = 0) (hd : e'.rxDeliv = 0)
    (hs : e'.tReorderingStart = 0) : e'.ReorderingInv where
  coherent := h.coherent.congr hsn hmax hw
  clock := by rw [ht]; exact h.clock
  ahead := ⟨by simp [hl], by simp [hl], by omega, by rw [hn]; decide⟩
  timer := by simp [hn, hd, hs]
  reord hne := absurd hs hne

/-- A buffer is empty once the timer is flushed. -/
theorem flushReordering_rxList (h : e.ReorderingInv) : e.flushReordering.rxList = [] := by
  unfold flushReordering
  split_ifs with hne
  · rfl
  · refine h.ahead.eq_nil ?_
    have := h.ahead.deliv_le
    have := mt h.timer.2 hne
    omega

theorem flushReordering_tReorderingStart : e.flushReordering.tReorderingStart = 0 := by
  unfold flushReordering
  split_ifs with hne
  · rfl
  · exact not_not.1 hne

theorem flushReordering_frame : e.flushReordering.snSize = e.snSize ∧
    e.flushReordering.snMax = e.snMax ∧ e.flushReordering.windowSize = e.windowSize ∧
      e.flushReordering.tCurrent = e.tCurrent := by
  unfold flushReordering
  split_ifs <;> exact ⟨rfl, rfl, rfl, rfl⟩

theorem flushReordering_resetCounters_inv (h : e.ReorderingInv) :
    e.flushReordering.resetCounters.ReorderingInv := by
  obtain ⟨h1, h2, h3, h4⟩ := flushReordering_frame (e := e)
  exact h.of_reset h1 h2 h3 h4 (flushReordering_rxList h) rfl rfl flushReordering_tReorderingStart

theorem setSecurity_rxView {p : NrPdcpSecurityKeysAndAlgos} (h : e.setSecurity p = some e') :
    e'.rxView = e.rxView := by
  obtain ⟨e₁, h₁, h₂⟩ := Option.bind_eq_some_iff.1 h
  have hi : e₁.rxView = e.rxView := by
    unfold setIntegrity at h₁
    split_ifs at h₁ <;> cases h₁ <;> rfl
  rw [← hi]
  unfold setCiphering at h₂
  split_ifs at h₂ <;> cases h₂ <;> rfl

theorem resume_rxView {p : NrPdcpSecurityKeysAndAlgos} (h : e.resume p = some e') :
    e'.rxView = e.rxView := by
  obtain ⟨e₁, h₁, rfl⟩ := Option.map_eq_some_iff.1 h
  exact (rfl : _ = e₁.rxView).trans (setSecurity_rxView h₁)

theorem reestablish_inv {p : NrPdcpSecurityKeysAndAlgos} (h : e.ReorderingInv)
    (hs : e.reestablish p = some e') : e'.ReorderingInv := by
  unfold reestablish at hs
  cases htype : e.type with
  | drbAm =>
    rw [htype] at hs
    exact h.congr (resume_rxView hs)
  | drbUm =>
    rw [htype] at hs
    exact (flushReordering_resetCounters_inv h).congr (resume_rxView hs)
  | srb =>
    rw [htype] at hs
    exact (h.of_reset rfl rfl rfl rfl rfl rfl rfl rfl :
      ({ e.freeRxList with
        tReorderingStart := 0 } : NrPdcpEntity).resetCounters.ReorderingInv).congr
          (resume_rxView hs)

theorem release_inv (h : e.ReorderingInv) : e.release.ReorderingInv where
  coherent := h.coherent.congr rfl rfl rfl
  clock := h.clock
  ahead := ⟨by simp [release, deliverAllSdus], by simp [release, deliverAllSdus],
    h.ahead.deliv_le, h.ahead.next_lt⟩
  timer := h.timer
  reord := h.reord

theorem processSdu_rxView {pduMaxSize : Int} {r : NrPdcpEntity × Option (List UInt8)}
    (h : e.processSdu k buffer pduMaxSize = some r) : r.1.rxView = e.rxView := by
  unfold processSdu at h
  split_ifs at h <;> cases h <;> rfl

end NrPdcpEntity

/-! ## Runs -/

open NrPdcpEntity

/-- A call of the entity, with a clock that has started. -/
def PdcpClockedOp :=
  { op : PdcpOp // ∀ now, op = .setTime now → now ≠ 0 }

/-- One call. -/
def pdcpClockedStep (k : PdcpCrypto) (e : NrPdcpEntity) (op : PdcpClockedOp) :
    Option NrPdcpEntity :=
  pdcpStep k e op.1

theorem pdcpClockedStep_inv {k : PdcpCrypto} {e e' : NrPdcpEntity} {op : PdcpClockedOp}
    (h : e.ReorderingInv) (hs : pdcpClockedStep k e op = some e') (hok : ¬WrapsRxNext k e op.1) :
    e'.ReorderingInv := by
  obtain ⟨op, hclock⟩ := op
  cases op with
  | processSdu buffer pduMaxSize =>
    obtain ⟨r, hr, rfl⟩ := Option.map_eq_some_iff.1 hs
    exact h.congr (processSdu_rxView hr)
  | recvPdu buffer =>
    cases hs
    exact recvPdu_inv h hok
  | setTime now =>
    cases hs
    exact setTime_inv h (hclock now rfl)
  | setSecurity parameters => exact h.congr (setSecurity_rxView hs)
  | suspend =>
    cases hs
    exact (flushReordering_resetCounters_inv h).congr rfl
  | reestablish parameters => exact reestablish_inv h hs
  | release =>
    cases hs
    exact release_inv h

theorem pdcpClockedStep_breaks {k : PdcpCrypto} {e e' : NrPdcpEntity} {op : PdcpClockedOp}
    (h : e.ReorderingInv) (hs : pdcpClockedStep k e op = some e')
    (hno : ¬¬WrapsRxNext k e op.1) : ¬e'.ReorderingSpec := by
  obtain ⟨op, hclock⟩ := op
  have hw := not_not.1 hno
  cases op with
  | recvPdu buffer =>
    cases hs
    exact recvPdu_breaks h hw
  | processSdu | setTime | setSecurity | suspend | reestablish | release => exact hw.elim

theorem newNrPdcpEntity_buffer {c : PdcpConfig} {e : NrPdcpEntity}
    (h : newNrPdcpEntity c = some e) :
    e.BufferInv ∧ e.rxDeliv = 0 ∧ e.rxNext = 0 ∧ e.tReorderingStart = 0 := by
  have hv := setSecurity_rxView h
  simp only [rxView, Prod.mk.injEq] at hv
  obtain ⟨⟨h1, h2, h3⟩, h4, ⟨h5, h6, h7⟩, h8, h9⟩ := hv
  refine ⟨⟨⟨?_, ?_, ?_⟩, ⟨?_, ?_, ?_, ?_⟩, fun hne => absurd h8 hne⟩, h5, h6, h8⟩
  · rw [h1]; exact c.snSize_valid
  · rw [h1, h2]
  · rw [h1, h3]
  · simp [h4]
  · simp [h4]
  · simp [h5]
  · simp only [h6]; decide

theorem newNrPdcpEntity_inv {c : PdcpConfig} {e : NrPdcpEntity} {now : UInt64}
    (h : newNrPdcpEntity c = some e) (hnow : now ≠ 0) : (e.setTime now).ReorderingInv := by
  obtain ⟨hbuf, hd, hn, hs⟩ := newNrPdcpEntity_buffer h
  have hset : e.setTime now = { e with tCurrent := now } := by
    unfold setTime checkTReordering
    split_ifs with hinf hstop
    · rfl
    · rfl
    · exact absurd (.inl hs) hstop
  rw [hset]
  refine ⟨⟨hbuf.coherent.congr rfl rfl rfl, hbuf.ahead.congr rfl rfl rfl, hbuf.reord⟩, hnow, ?_⟩
  simp [hd, hn, hs]

/-- A run of an entity keeps the invariant of its reordering buffer throughout exactly when
no step of it stores the SDU of COUNT `2^32 - 1` before its turn. -/
theorem reordering_invariant_iff (k : PdcpCrypto) {c : PdcpConfig} {e : NrPdcpEntity}
    {now : UInt64} (h : newNrPdcpEntity c = some e) (hnow : now ≠ 0) (ops : List PdcpClockedOp) :
    AllStates (pdcpClockedStep k) ReorderingSpec (e.setTime now) ops ↔
      AllSteps (pdcpClockedStep k) (fun e op => ¬WrapsRxNext k e op.1) (e.setTime now) ops :=
  allStates_iff_allSteps (fun _ => ReorderingInv.toSpec)
    (fun _ _ _ => pdcpClockedStep_inv) (fun _ _ _ => pdcpClockedStep_breaks) ops _
    (newNrPdcpEntity_inv h hnow)

/-- A DRB without ciphering and integrity. -/
def plainDrb : PdcpConfig where
  type := .drbAm
  isGnb := true
  rbId := 1
  hasSdapRx := false
  hasSdapTx := false
  snSize := 12
  tReordering := 50
  securityParameters := ⟨0, 0, [], []⟩
  snSize_valid := .inl rfl

/-- The entity of `plainDrb`. -/
def plainDrbEntity : NrPdcpEntity where
  type := .drbAm
  isGnb := true
  rbId := 1
  hasSdapRx := false
  hasSdapTx := false
  snSize := 12
  tReordering := 50
  snMax := 4095
  windowSize := 2048
  txNext := 0
  rxNext := 0
  rxDeliv := 0
  rxReord := 0
  tCurrent := 0
  tReorderingStart := 0
  hasCiphering := false
  hasIntegrity := false
  securityContext := ⟨0, []⟩
  integrityContext := ⟨0, []⟩
  rxList := []
  rxSize := 0
  entitySuspended := false
  out := []

theorem newNrPdcpEntity_plainDrb : newNrPdcpEntity plainDrb = some plainDrbEntity := by
  decide

theorem reordering_invariant_iff_plainDrb :
    AllStates (pdcpClockedStep .null) ReorderingSpec (plainDrbEntity.setTime 1)
      [⟨.recvPdu [0x80, 1, 7], nofun⟩, ⟨.recvPdu [0x80, 0, 7], nofun⟩] ↔
    AllSteps (pdcpClockedStep .null) (fun e op => ¬WrapsRxNext .null e op.1)
      (plainDrbEntity.setTime 1)
      [⟨.recvPdu [0x80, 1, 7], nofun⟩, ⟨.recvPdu [0x80, 0, 7], nofun⟩] :=
  reordering_invariant_iff .null newNrPdcpEntity_plainDrb (by decide) _

/-- The first PDU of a DRB has SN 4095. It is taken for COUNT `2^32 - 1`, stored, and
RX_NEXT wraps to `0`. -/
theorem reordering_invariant_fails :
    ¬AllStates (pdcpClockedStep .null) ReorderingSpec (plainDrbEntity.setTime 1)
      [⟨.recvPdu [0x8f, 0xff, 7], nofun⟩] := by
  intro h
  have hlast := h.2 ((plainDrbEntity.setTime 1).recvPdu .null [0x8f, 0xff, 7]) rfl
  have hmem : (⟨4294967295, [7], ⟨0, [0, 0, 0, 0], 0, [0, 0, 0]⟩⟩ : NrPdcpSdu) ∈
      ((plainDrbEntity.setTime 1).recvPdu .null [0x8f, 0xff, 7]).rxList := by
    decide +kernel
  have hnext : ((plainDrbEntity.setTime 1).recvPdu .null [0x8f, 0xff, 7]).rxNext = 0 := by
    decide +kernel
  have := (hlast.stored _ hmem).2
  rw [hnext] at this
  exact absurd this (by decide)

end NrStack
