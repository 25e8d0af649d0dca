import NrStack.Rlc.AmRxRun
import NrStack.Rlc.AmTxRun

/-!
# The announced size of a STATUS PDU

`status_size` and `missing_size` are written like `generate_status` and
`generate_missing`, and count the bytes without encoding anything. The size counted and the
position of the encoder agree after every NACK (`SizeAgrees`), and so do the two ends of a
report that is cut for lack of room; `status_size` looks at the head of the reception list
as long as it has counted no range, which is the case of the first missing part only.
-/

namespace NrStack

/-! ## The position of the encoder -/

namespace NrRlcPduEncoder

/-- How many bits have been put. -/
def position (enc : NrRlcPduEncoder) : Nat :=
  8 * enc.buffer.length + enc.bit

theorem length_written (enc : NrRlcPduEncoder) : enc.written.length = enc.position := by
  rw [written, List.length_append, length_bitsOf, length_natBits, position]

/-- The encoder of a buffer of size `size` has put `k` bits. -/
structure At (enc : NrRlcPduEncoder) (k : Nat) (size : Int) : Prop where
  position_eq : enc.position = k
  bit_lt : enc.bit < 8
  size_eq : enc.size = size

theorem At.init (size : Int) : (NrRlcPduEncoder.init size).At 0 size :=
  ⟨rfl, by simp [NrRlcPduEncoder.init], rfl⟩

theorem At.putBits {enc : NrRlcPduEncoder} {k : Nat} {size : Int} (h : enc.At k size)
    (value n : Nat) : (enc.putBits value n).At (k + n) size := by
  obtain ⟨hw, hb, hs⟩ := written_putBits value n h.bit_lt
  refine ⟨?_, hb, hs.trans h.size_eq⟩
  rw [← length_written, hw, List.length_append, length_natBits, length_written, h.position_eq]

theorem At.putBitsIf {enc : NrRlcPduEncoder} {k : Nat} {size : Int} (h : enc.At k size)
    (b : Bool) (value n : Nat) :
    (if b then enc.putBits value n else enc).At (k + if b then n else 0) size := by
  cases b
  · exact h
  · exact h.putBits value n

/-- Between two bytes. -/
theorem At.byte_eq {enc : NrRlcPduEncoder} {k : Nat} {size : Int} (h : enc.At (8 * k) size) :
    enc.bit = 0 ∧ enc.byte = k := by
  have hpos := h.position_eq
  have hbit := h.bit_lt
  unfold position at hpos
  unfold byte
  omega

end NrRlcPduEncoder

/-! ## The functions -/

/-- `nr_rlc_entity_buffer_status_t`. -/
structure NrRlcBufferStatus where
  statusSize : Int
  txSize : Int
  retxSize : Int
deriving DecidableEq, Repr

/-- What `missing_size` leaves : the size, the number of ranges it returns, and whether it
has set `m->next` to `NULL`. -/
structure MissingSize where
  size : Int
  rangeCount : Int
  cut : Bool
deriving DecidableEq, Repr

namespace NrRlcEntityAm

section Source

variable (e : NrRlcEntityAm)

/-- What `missing_size` adds for one NACK. -/
def countedNackSize (snStart soStart snEnd soEnd : Int) : Int :=
  let rBits := if e.snFieldLength = 18 then 3 else 1
  if snStart = snEnd then
    if soStart = 0 ∧ soEnd = 0xffff then (e.snFieldLength + 3 + rBits) / 8
    else (e.snFieldLength + 3 + rBits + 16 * 2) / 8
  else if soStart = 0 ∧ soEnd = 0xffff then (e.snFieldLength + 3 + rBits + 8) / 8
  else (e.snFieldLength + 3 + rBits + 16 * 2 + 8) / 8

/-- The loop of `missing_size`, with `snCount` SNs left from `snStart` on. The first argument
is the fuel : `snCount` is enough. -/
def missingSizeFrom (m : MissingData) (maxsize : Int) :
    Nat → Int → Int → MissingSize → MissingSize
  | 0, _, _, r => r
  | n + 1, snCount, snStart, r =>
    if snCount = 0 then r
    else
      let curSnCount := min snCount 255
      let soStart := if snStart = m.snStart then m.soStart else 0
      let snEnd := if curSnCount = snCount then m.snEnd else (snStart + 254) % e.snModulus
      let soEnd := if curSnCount = snCount then m.soEnd else 0xffff
      if r.size + e.nackSize snStart soStart snEnd soEnd > maxsize then { r with cut := true }
      else
        missingSizeFrom m maxsize n (snCount - curSnCount) ((snStart + curSnCount) % e.snModulus)
          { r with
            size := r.size + e.countedNackSize snStart soStart snEnd soEnd
            rangeCount := r.rangeCount + 1 }

/-- `missing_size`. -/
def missingSize (m : MissingData) (size maxsize : Int) : MissingSize :=
  let snCount := (m.snEnd - m.snStart + e.snModulus) % e.snModulus + 1
  e.missingSizeFrom m maxsize snCount.toNat snCount m.snStart
    { size, rangeCount := 0, cut := false }

/-- The loop of `status_size` over the reception list. The first argument is the fuel : one
more than the length of the list is enough. -/
def statusSizeFrom (maxsize : Int) : Nat → List NrRlcPdu → Int → Int → Int
  | 0, _, _, size => size
  | _ + 1, [], _, size => size
  | n + 1, cur :: rest, nackCount, size =>
    match e.nextMissing cur rest (decide (nackCount = 0)) with
    | none => size
    | some m =>
      let r := e.missingSize m size maxsize
      statusSizeFrom maxsize n (if r.cut then [] else m.next) (nackCount + r.rangeCount) r.size

/-- `status_size`. -/
def statusSize (maxsize : Int) : Int :=
  if maxsize < 3 then 0 else e.statusSizeFrom maxsize (e.rxList.length + 1) e.rxList 0 3

/-- `nr_rlc_entity_am_buffer_status`. -/
def bufferStatus (maxsize : Int) : NrRlcBufferStatus :=
  { statusSize := if e.statusToReport then e.statusSize maxsize else 0
    txSize := e.bstatusTxSize
    retxSize := e.bstatusRetxSize }

end Source

variable {e e' : NrRlcEntityAm} {m : MissingData} {maxsize : Int} {s : StatusEncoder}
  {r : MissingSize}

/-! ## The fuel -/

/-- What is left to look at is shorter, but for the missing part before the head. -/
theorem nextMissingFrom_length {maxSo : Int} {lastReached : Bool} {cur : NrRlcPdu} :
    ∀ {rest : List NrRlcPdu}, e.nextMissingFrom maxSo lastReached cur rest = some m →
      m.next.length ≤ rest.length
  | [], h => by
    have hhighest : ∀ start, e.missingToHighest start = some m → m.next.length ≤ 0 := by
      intro start h
      unfold missingToHighest at h
      split_ifs at h
      cases h
      rfl
    unfold nextMissingFrom at h
    split_ifs at h
    · exact hhighest _ h
    · exact hhighest _ h
  | p :: rest, h => by
    have hpdu : ∀ start, (e.missingToPdu start p rest).next.length ≤ rest.length + 1 := by
      intro start
      unfold missingToPdu
      dsimp only
      split_ifs <;> simp
    unfold nextMissingFrom at h
    dsimp only at h
    split_ifs at h
    · exact (nextMissingFrom_length h).trans (Nat.le_succ _)
    · exact (nextMissingFrom_length h).trans (Nat.le_succ _)
    · cases h
      rfl
    · cases h
      exact hpdu _

theorem nextMissing_length {cur : NrRlcPdu} {rest : List NrRlcPdu} {checkHead : Bool}
    (h : e.nextMissing cur rest checkHead = some m) :
    m.next.length ≤ rest.length + checkHead.toNat := by
  unfold nextMissing at h
  split_ifs at h with hhead
  · cases h
    unfold missingToPdu
    dsimp only
    rw [hhead.1]
    split_ifs <;> simp
  · exact (nextMissingFrom_length h).trans (Nat.le_add_right _ _)

/-- `generate_status` ends : with this fuel the loop does not run out of it. -/
theorem generateNacks_fuel : ∀ {n : Nat} {checkHead : Bool} {l : List NrRlcPdu}
    {s : StatusEncoder}, l.length + checkHead.toNat ≤ n →
      e.generateNacks (n + 1) checkHead l s = e.generateNacks n checkHead l s
  | 0, checkHead, [], s, _ => rfl
  | n + 1, checkHead, [], s, _ => rfl
  | 0, checkHead, cur :: rest, s, h => by
    rw [List.length_cons] at h
    omega
  | n + 1, checkHead, cur :: rest, s, h => by
    rw [generateNacks, generateNacks]
    cases hm : e.nextMissing cur rest checkHead with
    | none => rfl
    | some m =>
      have hlen := nextMissing_length hm
      dsimp only
      refine generateNacks_fuel ?_
      rw [List.length_cons] at h
      split_ifs <;> simp only [List.length_nil, Bool.toNat_false] <;> omega

/-! ## Both loops over a missing part -/

/-- The size counted is where the encoder is, between two bytes. -/
structure SizeAgrees (maxsize : Int) (s : StatusEncoder) (r : MissingSize) : Prop where
  at_byte : s.encoder.At (8 * s.encoder.byte) maxsize
  byte_eq : (s.encoder.byte : Int) = r.size
  cut_eq : s.generationTruncated = r.cut

theorem countedNackSize_eq (hn : e.snFieldLength = 12 ∨ e.snFieldLength = 18)
    (snStart soStart snEnd soEnd : Int) :
    e.countedNackSize snStart soStart snEnd soEnd = e.nackSize snStart soStart snEnd soEnd := by
  unfold countedNackSize nackSize
  rcases hn with hn | hn <;> simp [hn]

/-- A NACK is whole bytes, as many as `nack_size` says. -/
theorem putNack_at (hn : e.snFieldLength = 12 ∨ e.snFieldLength = 18)
    (h : s.encoder.At (8 * s.encoder.byte) maxsize) (snStart soStart snEnd soEnd curSnCount : Int) :
    ∃ k : Nat, (k : Int) = e.nackSize snStart soStart snEnd soEnd ∧
      (e.putNack s snStart soStart snEnd soEnd curSnCount).encoder.At
        (8 * (s.encoder.byte + k)) maxsize := by
  have hset : ({ s.encoder with
      buffer := s.encoder.buffer.modify s.e1Byte fun b => b ||| UInt8.ofNat (2 ^ s.e1Bit) } :
      NrRlcPduEncoder).At (8 * s.encoder.byte) maxsize := by
    refine ⟨?_, h.bit_lt, h.size_eq⟩
    rw [← h.position_eq, NrRlcPduEncoder.position, List.length_modify]
    rfl
  have hfields := (((hset.putBits snStart.toNat e.snFieldLength).putBits 0 1).putBits
    (decide ¬(soStart = 0 ∧ soEnd = 0xffff)).toNat 1).putBits (decide (snStart ≠ snEnd)).toNat 1
  have hput := (((hfields.putBits 0 (if e.snFieldLength = 18 then 3 else 1)).putBitsIf
    (decide ¬(soStart = 0 ∧ soEnd = 0xffff)) soStart.toNat 16).putBitsIf
      (decide ¬(soStart = 0 ∧ soEnd = 0xffff)) soEnd.toNat 16).putBitsIf
        (decide (snStart ≠ snEnd)) curSnCount.toNat 8
  refine ⟨(e.nackSize snStart soStart snEnd soEnd).toNat, ?_, ?_⟩
  · refine Int.toNat_of_nonneg ?_
    unfold nackSize
    dsimp only
    split_ifs <;> omega
  · have hlen : 8 * (s.encoder.byte + (e.nackSize snStart soStart snEnd soEnd).toNat) =
        8 * s.encoder.byte + e.snFieldLength + 1 + 1 + 1 +
          (if e.snFieldLength = 18 then 3 else 1) +
            (if decide ¬(soStart = 0 ∧ soEnd = 0xffff) then 16 else 0) +
              (if decide ¬(soStart = 0 ∧ soEnd = 0xffff) then 16 else 0) +
                (if decide (snStart ≠ snEnd) then 8 else 0) := by
      unfold nackSize
      by_cases h2 : soStart = 0 ∧ soEnd = 0xffff <;> by_cases h3 : snStart = snEnd <;>
        rcases hn with hn | hn <;> simp [h2, h3, hn] <;> omega
    rw [hlen]
    exact hput

/-- The loops of `generate_missing` and of `missing_size` go through the same ranges. -/
theorem SizeAgrees.missingFrom (hn : e.snFieldLength = 12 ∨ e.snFieldLength = 18) :
    ∀ (n : Nat) (snCount snStart : Int) {s : StatusEncoder} {r : MissingSize},
      SizeAgrees maxsize s r →
        SizeAgrees maxsize (e.generateMissingFrom m n snCount snStart s)
          (e.missingSizeFrom m maxsize n snCount snStart r)
  | 0, _, _, _, _, h => h
  | n + 1, snCount, snStart, s, r, h => by
    unfold generateMissingFrom missingSizeFrom
    by_cases h0 : snCount = 0
    · rwa [if_pos h0, if_pos h0]
    rw [if_neg h0, if_neg h0]
    dsimp only
    rw [h.byte_eq, h.at_byte.size_eq]
    generalize (if snStart = m.snStart then m.soStart else 0) = soStart
    generalize (if min snCount 255 = snCount then m.snEnd else (snStart + 254) % e.snModulus) = snEnd
    generalize (if min snCount 255 = snCount then m.soEnd else 0xffff) = soEnd
    split_ifs with hroom
    · exact ⟨h.at_byte, h.byte_eq, rfl⟩
    · refine SizeAgrees.missingFrom hn n _ _ ?_
      obtain ⟨k, hk, hat⟩ := putNack_at hn h.at_byte snStart soStart snEnd soEnd (min snCount 255)
      obtain ⟨-, hbyte⟩ := hat.byte_eq
      refine ⟨hbyte ▸ hat, ?_, h.cut_eq⟩
      rw [hbyte, countedNackSize_eq hn, ← hk]
      push_cast
      rw [h.byte_eq]

theorem SizeAgrees.missing (hn : e.snFieldLength = 12 ∨ e.snFieldLength = 18)
    (h : s.encoder.At (8 * s.encoder.byte) maxsize) :
    SizeAgrees maxsize (patchSoEnd (e.generateMissing m s))
      (e.missingSize m s.encoder.byte maxsize) := by
  have hfrom : SizeAgrees maxsize (e.generateMissing m s)
      (e.missingSize m s.encoder.byte maxsize) :=
    SizeAgrees.missingFrom hn _ _ _ ⟨h, rfl, rfl⟩
  unfold patchSoEnd
  split
  · refine ⟨⟨?_, hfrom.at_byte.bit_lt, hfrom.at_byte.size_eq⟩, ?_, hfrom.cut_eq⟩
    · have hpos := hfrom.at_byte.position_eq
      simpa [NrRlcPduEncoder.position, NrRlcPduEncoder.byte] using hpos
    · have hbyte := hfrom.byte_eq
      simpa [NrRlcPduEncoder.byte] using hbyte
  · exact hfrom

variable (e m maxsize) in
/-- One turn of the loop of `missing_size` : the report is cut, or a range is counted. -/
theorem missingSizeFrom_succ (n : Nat) {snCount : Int} (snStart : Int) (r : MissingSize)
    (h0 : snCount ≠ 0) :
    e.missingSizeFrom m maxsize (n + 1) snCount snStart r = { r with cut := true } ∨
      ∃ snCount' snStart' size, e.missingSizeFrom m maxsize (n + 1) snCount snStart r =
        e.missingSizeFrom m maxsize n snCount' snStart'
          { r with size, rangeCount := r.rangeCount + 1 } := by
  rw [missingSizeFrom, if_neg h0]
  dsimp only
  generalize (if snStart = m.snStart then m.soStart else 0) = soStart
  generalize (if min snCount 255 = snCount then m.snEnd else (snStart + 254) % e.snModulus) = snEnd
  generalize (if min snCount 255 = snCount then m.soEnd else 0xffff) = soEnd
  split_ifs
  · exact .inl rfl
  · exact .inr ⟨_, _, _, rfl⟩

variable (e m maxsize) in
theorem le_rangeCount_missingSizeFrom : ∀ (n : Nat) (snCount snStart : Int) (r : MissingSize),
    r.rangeCount ≤ (e.missingSizeFrom m maxsize n snCount snStart r).rangeCount
  | 0, _, _, _ => le_rfl
  | n + 1, snCount, snStart, r => by
    by_cases h0 : snCount = 0
    · rw [missingSizeFrom, if_pos h0]
    rcases missingSizeFrom_succ e m maxsize n snStart r h0 with
      hcut | ⟨snCount', snStart', size, hnext⟩
    · rw [hcut]
    · have hle := le_rangeCount_missingSizeFrom n snCount' snStart'
        { r with size, rangeCount := r.rangeCount + 1 }
      rw [hnext]
      dsimp only at hle
      omega

variable (m maxsize) in
/-- `missing_size` counts a range, unless it has cut the report before. -/
theorem missingSize_rangeCount (hM : 0 < e.snModulus) (size : Int) :
    0 ≤ (e.missingSize m size maxsize).rangeCount ∧
      ((e.missingSize m size maxsize).cut = false →
        (e.missingSize m size maxsize).rangeCount ≠ 0) := by
  refine ⟨le_rangeCount_missingSizeFrom e m maxsize _ _ _ { size, rangeCount := 0, cut := false }, ?_⟩
  have hcount : 0 ≤ (m.snEnd - m.snStart + e.snModulus) % e.snModulus :=
    Int.emod_nonneg _ hM.ne'
  unfold missingSize
  dsimp only
  obtain ⟨n, hfuel⟩ : ∃ n : Nat,
      ((m.snEnd - m.snStart + e.snModulus) % e.snModulus + 1).toNat = n + 1 :=
    ⟨((m.snEnd - m.snStart + e.snModulus) % e.snModulus).toNat, by omega⟩
  rw [hfuel]
  rcases missingSizeFrom_succ e m maxsize n m.snStart
    { size, rangeCount := 0, cut := false }
    (show (m.snEnd - m.snStart + e.snModulus) % e.snModulus + 1 ≠ 0 by omega) with
    hcut | ⟨snCount', snStart', size', hnext⟩
  · rw [hcut]
    exact fun h => Bool.noConfusion h
  · have hle := le_rangeCount_missingSizeFrom e m maxsize n snCount' snStart'
      { size := size', rangeCount := 0 + 1, cut := false }
    rw [hnext]
    dsimp only at hle ⊢
    exact fun _ => by omega

/-! ## The whole report -/

/-- The loops of `generate_status` and of `status_size` : the head is checked as long as no
range has been counted. -/
theorem statusSizeFrom_eq (hn : e.snFieldLength = 12 ∨ e.snFieldLength = 18)
    (hM : 0 < e.snModulus) : ∀ (n : Nat) (checkHead : Bool) (l : List NrRlcPdu) (nackCount : Int)
    {s : StatusEncoder}, s.encoder.At (8 * s.encoder.byte) maxsize →
      0 ≤ nackCount → (l = [] ∨ checkHead = decide (nackCount = 0)) →
        e.statusSizeFrom maxsize n l nackCount s.encoder.byte =
          (e.generateNacks n checkHead l s).encoder.byte
  | 0, _, _, _, _, _, _, _ => rfl
  | _ + 1, _, [], _, _, _, _, _ => rfl
  | n + 1, checkHead, cur :: rest, nackCount, s, h, h0, hcheck => by
    have hcheck' := hcheck.resolve_left (List.cons_ne_nil _ _)
    unfold statusSizeFrom generateNacks
    rw [hcheck']
    cases hm : e.nextMissing cur rest (decide (nackCount = 0)) with
    | none => rfl
    | some m =>
      dsimp only
      have hagrees := SizeAgrees.missing (m := m) hn h
      obtain ⟨hnonneg, hpos⟩ := missingSize_rangeCount m maxsize hM s.encoder.byte
      rw [← hagrees.byte_eq, ← hagrees.cut_eq]
      refine statusSizeFrom_eq hn hM n false _ _ hagrees.at_byte (by omega) ?_
      by_cases hcut : (patchSoEnd (e.generateMissing m s)).generationTruncated
      · exact .inl (if_pos hcut)
      · refine .inr (decide_eq_false ?_).symm
        have hne := hpos (by rw [← hagrees.cut_eq]; simpa using hcut)
        omega

theorem length_putAckSn (ackSn : Nat) (buffer : List UInt8) :
    (e.putAckSn ackSn buffer).length = buffer.length := by
  unfold putAckSn
  split_ifs <;> simp

theorem statusSize_eq (hn : e.snFieldLength = 12 ∨ e.snFieldLength = 18) (hM : 0 < e.snModulus)
    (maxsize : Int) : e.statusSize maxsize = (e.generateStatus maxsize).pdu.length := by
  unfold statusSize generateStatus
  split_ifs
  · rfl
  · have hheader := (NrRlcPduEncoder.At.init maxsize).putBits 0 24
    have hat : (e.initStatus maxsize).encoder.At (8 * 3) maxsize := by
      unfold initStatus
      dsimp only
      exact hheader
    obtain ⟨-, hbyte⟩ := hat.byte_eq
    have hloop := statusSizeFrom_eq hn hM (e.rxList.length + 1) true e.rxList 0
      (s := e.initStatus maxsize) (hbyte ▸ hat) le_rfl (.inr rfl)
    have hpdu : (e.statusPdu maxsize).length = (e.generateNacks (e.rxList.length + 1) true
        e.rxList (e.initStatus maxsize)).encoder.byte := by
      rw [statusPdu, length_putAckSn, NrRlcPduEncoder.byte]
    rw [hbyte, ← hpdu] at hloop
    exact hloop

/-! ## Runs -/

theorem snFieldLength_recvPdu (e : NrRlcEntityAm) (buffer : List UInt8) :
    (e.recvPdu buffer).snFieldLength = e.snFieldLength := by
  rcases e.recvPdu_cases buffer with ⟨-, hview⟩ | ⟨pdu, p, -, -, heq⟩
  · exact congrArg RxView.snFieldLength hview
  · have hframe : (e.recvPdu buffer).txFrame = e.txFrame := by
      rw [heq]
      simp
    exact congrArg (fun e => e.snFieldLength) (hframe : _ = e.txFrame)

theorem snFieldLength_step {op : AmOp} (h : amStep e op = some e') :
    e'.snFieldLength = e.snFieldLength := by
  cases op with
  | recvSdu buffer sduId => exact congrArg RxView.snFieldLength (rxView_recvSdu h)
  | recvPdu buffer => exact Option.some.inj h ▸ snFieldLength_recvPdu e buffer
  | generatePdu size =>
    obtain ⟨r, hr, rfl⟩ := Option.map_eq_some_iff.1 h
    exact congrArg RxView.snFieldLength (rxView_generatePdu hr)
  | setTime now =>
    obtain ⟨e₁, he₁, rfl⟩ := Option.map_eq_some_iff.1 h
    exact (congrArg NrRlcEntityAm.snFieldLength txFrame_checkTReassembly).trans
      (congrArg RxView.snFieldLength (rxView_checkTPollRetransmit he₁))
  | discardSdu sduId =>
    exact Option.some.inj h ▸ congrArg RxView.snFieldLength (rxView_discardSdu sduId)
  | reestablishment => exact Option.some.inj h ▸ rfl

theorem snFieldLength_of_reach {c : AmConfig} (h : AmReach c e) :
    e.snFieldLength = 12 ∨ e.snFieldLength = 18 := by
  have heq : e.snFieldLength = c.snFieldLength :=
    Reach.invariant (P := fun e => e.snFieldLength = c.snFieldLength) h rfl
      fun _ _ _ hi _ hs => (snFieldLength_step hs).trans hi
  rw [heq]
  exact c.snFieldLength_valid

/-- The buffer status announces the STATUS PDU that is generated. -/
theorem status_size_eq_length {c : AmConfig} (h : AmReach c e) (maxsize : Int) :
    e.statusSize maxsize = (e.generateStatus maxsize).pdu.length :=
  statusSize_eq (snFieldLength_of_reach h) (rxInv_of_reach h).core.space.modulus_pos maxsize

/-- A part of SDU 1 and SDU 4 arrive, and t-Reassembly expires : SDU 0 and the end of SDU 1 are
reported, and 8 bytes have room for the first NACK only. -/
theorem status_size_eq_length_gap : ∃ c e, AmReach c e ∧ e.statusSize 20 = 11 ∧
    e.statusSize 20 = (e.generateStatus 20).pdu.length ∧
      e.statusSize 8 = (e.generateStatus 8).pdu.length := by
  let c : AmConfig := ⟨1000, 1000, 45, 35, 0, -1, -1, 8, 12, .inl rfl⟩
  let ops : List AmOp := [.setTime 1, .recvPdu [0x90, 1, 7], .recvPdu [0x80, 4, 9], .setTime 40]
  have hrun : (ops.foldlM amStep (newNrRlcEntityAm c)).any fun e =>
      decide (e.statusSize 20 = 11) := by decide +kernel
  obtain ⟨e, he, hsize⟩ := (Option.any_eq_true _ _).1 hrun
  exact ⟨c, e, reach_foldlM he, of_decide_eq_true hsize,
    status_size_eq_length (reach_foldlM he) 20, status_size_eq_length (reach_foldlM he) 8⟩

end NrRlcEntityAm

end NrStack
