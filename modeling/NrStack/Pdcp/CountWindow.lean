import NrStack.Pdcp.Reordering

/-!
# The COUNT of a received PDU at the ends of the COUNT space

An SN and RX_DELIV determine one integer in the window around RX_DELIV, `windowCount`. It
is a COUNT, and the one that `nr_pdcp_entity_recv_pdu` computes, unless it is negative or
too large : HFN - 1 and HFN + 1 wrap around in 32 bits.

At the upper end the COUNT computed is not in the window, and the PDU is discarded as old
(`AboveCounts`). At the lower end it is far ahead of RX_DELIV, and the PDU is stored if its
MAC-I is right (`StoredBelowZero`).
-/

namespace NrStack

namespace NrPdcpEntity

variable {e : NrPdcpEntity} {k : PdcpCrypto} {sn : Nat} {buffer : List UInt8} {c : Int}

/-- `c` has the SN, and is in the window around RX_DELIV. -/
def InCountWindow (e : NrPdcpEntity) (sn : Nat) (c : Int) : Prop :=
  c % 2 ^ e.snSize = sn ∧ e.rxDeliv - e.windowSize ≤ c ∧ c < e.rxDeliv + e.windowSize

/-- A PDU that is neither ignored nor of a bad size : its COUNT is computed. -/
def ComputesCount (e : NrPdcpEntity) (buffer : List UInt8) : Prop :=
  e.entitySuspended = false ∧ e.minPduSize ≤ buffer.length

/-- RX_NEXT, RX_DELIV, the list and the timer are the same. -/
def ReceptionUnchanged (e e' : NrPdcpEntity) : Prop :=
  e'.rxNext = e.rxNext ∧ e'.rxDeliv = e.rxDeliv ∧ e'.rxList = e.rxList ∧
    e'.tReorderingStart = e.tReorderingStart ∧ e'.rxReord = e.rxReord

/-- The COUNT computed for a PDU is the only one in the window; if that is negative, the PDU
is discarded. -/
def CountDerived (k : PdcpCrypto) (e : NrPdcpEntity) (buffer : List UInt8) : Prop :=
  (∃! c, e.InCountWindow (e.rcvdSn (e.setDcBit buffer)) c) ∧
    ∀ c, e.InCountWindow (e.rcvdSn (e.setDcBit buffer)) c →
      (0 ≤ c → e.ComputesCount buffer → (e.rcvdCount (e.rcvdSn (e.setDcBit buffer)) : Int) = c) ∧
      (c < 0 → e.ReceptionUnchanged (e.recvPdu k buffer))

/-- RX_DELIV has the last HFN, and the SN is that of a COUNT of the next one. -/
def AboveCounts (e : NrPdcpEntity) (buffer : List UInt8) : Prop :=
  e.ComputesCount buffer ∧ uint32Modulus ≤ e.rxDeliv + 2 ^ e.snSize - e.rxDeliv % 2 ^ e.snSize ∧
    e.rcvdSn (e.setDcBit buffer) + e.windowSize < e.rxDeliv % 2 ^ e.snSize

/-- RX_DELIV has HFN 0, the SN is that of a COUNT of the HFN before, and nothing stops the
PDU : its MAC-I is right for the last HFN, and there is no SDU of this COUNT yet. -/
def StoredBelowZero (k : PdcpCrypto) (e : NrPdcpEntity) (buffer : List UInt8) : Prop :=
  let count := uint32Modulus - 2 ^ e.snSize + e.rcvdSn (e.setDcBit buffer)
  e.ComputesCount buffer ∧ e.rxDeliv + e.windowSize ≤ e.rcvdSn (e.setDcBit buffer) ∧
    e.integrityOk k count (e.decipher k count (e.setDcBit buffer)) ∧
      ¬nrPdcpSduInList e.rxList count

/-- The integer in the window with the SN. -/
def windowCount (e : NrPdcpEntity) (sn : Nat) : Int :=
  e.rxDeliv - e.windowSize + (sn - (e.rxDeliv - e.windowSize)) % 2 ^ e.snSize

theorem inCountWindow_iff (h : e.SnCoherent) (hsn : sn < 2 ^ e.snSize) :
    e.InCountWindow sn c ↔ c = e.windowCount sn := by
  unfold InCountWindow windowCount
  obtain ⟨hn, hw⟩ | ⟨hn, hw⟩ := h.values
  all_goals
    rw [hn] at hsn ⊢
    rw [hw]
    simp only [Nat.reducePow, Int.reducePow] at hsn ⊢
    omega

theorem windowCount_neg_iff (h : e.SnCoherent) (hsn : sn < 2 ^ e.snSize) :
    e.windowCount sn < 0 ↔ e.rxDeliv + e.windowSize ≤ sn := by
  unfold windowCount
  obtain ⟨hn, hw⟩ | ⟨hn, hw⟩ := h.values
  all_goals
    rw [hn] at hsn ⊢
    rw [hw]
    simp only [Nat.reducePow, Int.reducePow] at hsn ⊢
    omega

theorem windowCount_ge_iff (h : e.SnCoherent) (hd : e.rxDeliv < uint32Modulus)
    (hsn : sn < 2 ^ e.snSize) : (uint32Modulus : Int) ≤ e.windowCount sn ↔
      uint32Modulus ≤ e.rxDeliv + 2 ^ e.snSize - e.rxDeliv % 2 ^ e.snSize ∧
        sn + e.windowSize < e.rxDeliv % 2 ^ e.snSize := by
  have hm : uint32Modulus = 4294967296 := rfl
  unfold windowCount
  rw [hm] at hd ⊢
  obtain ⟨hn, hw⟩ | ⟨hn, hw⟩ := h.values
  all_goals
    rw [hn] at hsn ⊢
    rw [hw]
    simp only [Nat.reducePow, Int.reducePow] at hsn ⊢
    omega

/-- A COUNT in the window is the one computed. -/
theorem rcvdCount_eq_windowCount (h : e.SnCoherent) (hsn : sn < 2 ^ e.snSize)
    (h0 : 0 ≤ e.windowCount sn) (hlt : e.windowCount sn < uint32Modulus) :
    (e.rcvdCount sn : Int) = e.windowCount sn := by
  obtain ⟨hmod, hlo, hhi⟩ := (inCountWindow_iff h hsn).2 rfl
  obtain ⟨count, hcount⟩ := Int.eq_ofNat_of_zero_le h0
  rw [hcount] at hmod hlo hhi hlt ⊢
  have hsn' : count % 2 ^ e.snSize = sn := by exact_mod_cast hmod
  have hdist : dist uint32Modulus (e.rxDeliv - e.windowSize) count < 2 ^ e.snSize :=
    dist_window h (by omega) (by omega)
  have heq := rcvdCount_eq h (by exact_mod_cast hlt) hdist
  rw [hsn'] at heq
  rw [heq]

/-- Below zero the COUNT computed has the last HFN. -/
theorem rcvdCount_below_zero (h : e.SnCoherent) (hsn : sn < 2 ^ e.snSize)
    (hlow : e.rxDeliv + e.windowSize ≤ sn) :
    e.rcvdCount sn = uint32Modulus - 2 ^ e.snSize + sn ∧ e.rxDeliv < e.rcvdCount sn := by
  rw [rcvdCount_eq_add h hsn, rcvdHfn_eq h]
  have hm : uint32Modulus = 4294967296 := rfl
  rw [hm]
  obtain ⟨hn, hw⟩ | ⟨hn, hw⟩ := h.values
  all_goals
    rw [hn] at hsn ⊢
    rw [hw] at hlow ⊢
    simp only [Nat.reducePow, Nat.reduceSub] at hsn ⊢
    split_ifs <;> omega

/-- An SDU that is not the next to deliver is one more in the list. -/
theorem receptionActions_rxList {sdu : NrPdcpSdu} (hne : sdu.count ≠ e.rxDeliv) :
    ((e.storeSdu sdu).receptionActions sdu.count).rxList = nrPdcpSduListAdd e.rxList sdu := by
  have hif : (e.storeSdu sdu).deliverIfNext sdu.count = e.storeSdu sdu :=
    if_neg hne
  rw [receptionActions, startReordering_rxList, stopReordering_rxList, hif]
  rfl

/-- Below zero a PDU changes nothing exactly if something stops it. -/
theorem receptionUnchanged_iff (h : e.SnCoherent)
    (hlow : e.rxDeliv + e.windowSize ≤ e.rcvdSn (e.setDcBit buffer)) :
    e.ReceptionUnchanged (e.recvPdu k buffer) ↔ ¬e.StoredBelowZero k buffer := by
  obtain ⟨hcount, hahead⟩ := rcvdCount_below_zero h (rcvdSn_lt (e.setDcBit buffer) h) hlow
  have hacc : (e.entitySuspended = false ∧ e.acceptsPdu k (e.setDcBit buffer)) ↔
      e.StoredBelowZero k buffer := by
    unfold acceptsPdu StoredBelowZero ComputesCount
    rw [length_setDcBit, ← hcount]
    have hle := hahead.le
    dsimp only
    tauto
  rw [recvPdu_eq, ← hacc]
  split_ifs with hst
  · refine iff_of_false (fun hsame => ?_) fun hno => hno hst
    have hlist := hsame.2.2.1
    have hne : (e.sduOf k (e.setDcBit buffer)).count ≠ e.rxDeliv := hahead.ne'
    rw [receptionActions_rxList hne] at hlist
    have hlen := congrArg List.length hlist
    rw [nrPdcpSduListAdd, (insertBefore_perm _).length_eq, List.length_cons] at hlen
    omega
  · exact iff_of_true ⟨rfl, rfl, rfl, rfl, rfl⟩ hst

/-- For any RX_DELIV, and any PDU. -/
theorem count_derived_iff (k : PdcpCrypto) {e : NrPdcpEntity} (buffer : List UInt8)
    (h : e.SnCoherent) (hd : e.rxDeliv < uint32Modulus) :
    CountDerived k e buffer ↔ ¬e.AboveCounts buffer ∧ ¬e.StoredBelowZero k buffer := by
  have hsn := rcvdSn_lt (e.setDcBit buffer) h
  have hneg := windowCount_neg_iff h hsn
  have hge := windowCount_ge_iff h hd hsn
  have hlt := (rcvdCount_spec h hsn).1
  have hderived : CountDerived k e buffer ↔
      (0 ≤ e.windowCount (e.rcvdSn (e.setDcBit buffer)) → e.ComputesCount buffer →
        (e.rcvdCount (e.rcvdSn (e.setDcBit buffer)) : Int) =
          e.windowCount (e.rcvdSn (e.setDcBit buffer))) ∧
      (e.windowCount (e.rcvdSn (e.setDcBit buffer)) < 0 →
        e.ReceptionUnchanged (e.recvPdu k buffer)) := by
    unfold CountDerived
    constructor
    · exact fun hall => hall.2 _ ((inCountWindow_iff h hsn).2 rfl)
    · refine fun hcount => ⟨⟨_, (inCountWindow_iff h hsn).2 rfl,
        fun c hc => (inCountWindow_iff h hsn).1 hc⟩, fun c hc => ?_⟩
      rwa [(inCountWindow_iff h hsn).1 hc]
  rw [hderived]
  rcases lt_or_ge (e.windowCount (e.rcvdSn (e.setDcBit buffer))) 0 with h0 | h0
  · -- below zero
    have hnot : ¬e.AboveCounts buffer := fun ha => by
      have := hge.2 ha.2
      omega
    rw [and_iff_right hnot, ← receptionUnchanged_iff h (hneg.1 h0)]
    exact ⟨fun hd => hd.2 h0, fun hu => ⟨fun h0' => absurd h0 (not_lt.2 h0'), fun _ => hu⟩⟩
  · have hnot : ¬e.StoredBelowZero k buffer := fun hb => absurd (hneg.2 hb.2.1) (not_lt.2 h0)
    rw [and_iff_left hnot, and_iff_left fun hlow => absurd hlow (not_lt.2 h0)]
    rcases lt_or_ge (e.windowCount (e.rcvdSn (e.setDcBit buffer))) uint32Modulus with h1 | h1
    · refine iff_of_true (fun _ _ => rcvdCount_eq_windowCount h hsn h0 h1) fun ha => ?_
      exact absurd (hge.2 ha.2) (not_le.2 h1)
    · -- no COUNT is that large
      constructor
      · intro hcount ha
        have := hcount h0 ha.1
        omega
      · intro hno _ hcomp
        exact absurd ⟨hcomp, hge.1 h1⟩ hno

theorem count_derived_plainDrb : CountDerived .null plainDrbEntity [0x80, 1, 7] ↔
    ¬plainDrbEntity.AboveCounts [0x80, 1, 7] ∧
      ¬StoredBelowZero .null plainDrbEntity [0x80, 1, 7] :=
  count_derived_iff .null _ ⟨.inl rfl, rfl, rfl⟩ (by decide)

/-- The first PDU of a DRB has SN 2048 : it is stored, and RX_NEXT is then `2^32 - 2047`. -/
theorem count_derived_fails : ¬∀ (k : PdcpCrypto) (e : NrPdcpEntity) (buffer : List UInt8),
    e.SnCoherent → e.rxDeliv < uint32Modulus → CountDerived k e buffer := by
  intro h
  have hall := (h .null plainDrbEntity [0x88, 0, 7] ⟨.inl rfl, rfl, rfl⟩ (by decide)).2
  have hneg := (hall (-2048) (by unfold InCountWindow; decide)).2 (by decide)
  have hnext : (plainDrbEntity.recvPdu .null [0x88, 0, 7]).rxNext = 4294965249 := by
    decide +kernel
  have hsame := hneg.1
  rw [hnext] at hsame
  exact absurd hsame (by decide)

end NrPdcpEntity

end NrStack
