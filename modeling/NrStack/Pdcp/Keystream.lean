import NrStack.Library.Run
import NrStack.Pdcp.RoundTrip

/-!
# COUNTs used for ciphering

The history of an entity records the COUNT of each SDU processed, the resets of TX_NEXT
and the ciphering keys installed. `CountsFrom` says that the COUNTs of a history follow
each other from a given one on, a reset starting over from `0` ; every history an entity
can have does (`reach_txFollows`). So a COUNT comes back only after a reset of TX_NEXT or
after `2^32` SDUs (`count_not_reused`).

A reset does not install a key. Suspend resets TX_NEXT, the re-establishment of an SRB and
of a UM DRB too, and each keeps its ciphering key if the parameters say `-1`
(`count_reused`).
-/

namespace NrStack

/-! ## Histories -/

/-- TX_NEXT after what the history says. -/
def countAfter : Nat → List PdcpEvent → Nat
  | count, [] => count
  | count, .processSdu _ _ :: l => countAfter ((count + 1) % uint32Modulus) l
  | _, .resetTxNext :: l => countAfter 0 l
  | count, .deliverSdu _ :: l => countAfter count l
  | count, .cipheringKey _ :: l => countAfter count l

/-- The COUNTs of the history are those of a TX_NEXT that starts at `count`. -/
def CountsFrom : Nat → List PdcpEvent → Prop
  | _, [] => True
  | count, .processSdu c _ :: l => c = count ∧ CountsFrom ((count + 1) % uint32Modulus) l
  | _, .resetTxNext :: l => CountsFrom 0 l
  | count, .deliverSdu _ :: l => CountsFrom count l
  | count, .cipheringKey _ :: l => CountsFrom count l

/-- The number of SDUs processed. -/
def sdusProcessed : List PdcpEvent → Nat
  | [] => 0
  | .processSdu _ _ :: l => sdusProcessed l + 1
  | .resetTxNext :: l | .deliverSdu _ :: l | .cipheringKey _ :: l => sdusProcessed l

variable {count : Nat} {l m : List PdcpEvent}

theorem countAfter_append : ∀ (l : List PdcpEvent) (count : Nat),
    countAfter count (l ++ m) = countAfter (countAfter count l) m
  | [], _ => rfl
  | .processSdu _ _ :: l, _ => countAfter_append l _
  | .resetTxNext :: l, _ => countAfter_append l _
  | .deliverSdu _ :: l, _ => countAfter_append l _
  | .cipheringKey _ :: l, _ => countAfter_append l _

theorem countsFrom_append : ∀ {l : List PdcpEvent} {count : Nat},
    CountsFrom count (l ++ m) ↔ CountsFrom count l ∧ CountsFrom (countAfter count l) m
  | [], _ => by simp [CountsFrom, countAfter]
  | .processSdu _ _ :: l, _ => by
    rw [List.cons_append, CountsFrom, CountsFrom, countsFrom_append (l := l), and_assoc]
    rfl
  | .resetTxNext :: l, _ => countsFrom_append (l := l)
  | .deliverSdu _ :: l, _ => countsFrom_append (l := l)
  | .cipheringKey _ :: l, _ => countsFrom_append (l := l)

/-- Without a reset TX_NEXT counts the SDUs. -/
theorem countAfter_eq : ∀ {l : List PdcpEvent} {count : Nat}, .resetTxNext ∉ l →
    count < uint32Modulus → countAfter count l = (count + sdusProcessed l) % uint32Modulus
  | [], _, _, hc => (Nat.mod_eq_of_lt hc).symm
  | .processSdu _ _ :: l, count, hl, _ => by
    have hl' : .resetTxNext ∉ l := fun h => hl (by simp [h])
    rw [countAfter, countAfter_eq hl' (Nat.mod_lt _ (by decide)), sdusProcessed, Nat.mod_add_mod]
    congr 1
    omega
  | .resetTxNext :: _, _, hl, _ => absurd (by simp) hl
  | .deliverSdu _ :: l, count, hl, hc =>
    countAfter_eq (l := l) (fun h => hl (by simp [h])) hc
  | .cipheringKey _ :: l, count, hl, hc =>
    countAfter_eq (l := l) (fun h => hl (by simp [h])) hc

/-- Two SDUs of a history, fewer than `2^32` SDUs apart and with no reset between them,
have different COUNTs. -/
theorem CountsFrom.ne {pre mid post : List PdcpEvent} {c₁ c₂ : Nat} {b₁ b₂ : Bool}
    (h : CountsFrom count (pre ++ .processSdu c₁ b₁ :: (mid ++ .processSdu c₂ b₂ :: post)))
    (hreset : .resetTxNext ∉ mid) (hmid : sdusProcessed mid + 1 < uint32Modulus) : c₁ ≠ c₂ := by
  obtain ⟨-, hc₁, h'⟩ := countsFrom_append.1 h
  obtain ⟨-, hc₂, -⟩ := countsFrom_append.1 h'
  rw [← hc₁] at hc₂
  rw [countAfter_eq hreset (Nat.mod_lt _ (by decide)), Nat.mod_add_mod] at hc₂
  have hm : uint32Modulus = 4294967296 := rfl
  rw [hm] at hc₂ hmid
  omega

namespace NrPdcpEntity

/-! ## What each function does to TX_NEXT -/

/-- What happens from `e` to `e'` is recorded, and TX_NEXT follows it. -/
def TxFollows (e e' : NrPdcpEntity) : Prop :=
  ∃ new, e'.out = e.out ++ new ∧ CountsFrom e.txNext new ∧ e'.txNext = countAfter e.txNext new

variable {e e' e'' : NrPdcpEntity} {k : PdcpCrypto} {buffer : List UInt8}
  {p : NrPdcpSecurityKeysAndAlgos}

theorem TxFollows.refl (hout : e'.out = e.out) (htx : e'.txNext = e.txNext) : TxFollows e e' :=
  ⟨[], by simpa using hout, trivial, htx⟩

theorem TxFollows.trans (h : TxFollows e e') (h' : TxFollows e' e'') : TxFollows e e'' := by
  obtain ⟨l, hout, hl, htx⟩ := h
  obtain ⟨m, hout', hm, htx'⟩ := h'
  refine ⟨l ++ m, ?_, countsFrom_append.2 ⟨hl, htx ▸ hm⟩, ?_⟩
  · rw [hout', hout, List.append_assoc]
  · rw [htx', htx, countAfter_append]

theorem countsFrom_deliverSdu : ∀ l : List NrPdcpSdu, CountsFrom count (l.map .deliverSdu)
  | [] => trivial
  | _ :: l => countsFrom_deliverSdu l

theorem countAfter_deliverSdu : ∀ l : List NrPdcpSdu, countAfter count (l.map .deliverSdu) = count
  | [] => rfl
  | _ :: l => countAfter_deliverSdu l

/-- Delivery does not touch TX_NEXT. -/
theorem TxFollows.deliver {l : List NrPdcpSdu} (hout : e'.out = e.out ++ l.map .deliverSdu)
    (htx : e'.txNext = e.txNext) : TxFollows e e' :=
  ⟨_, hout, countsFrom_deliverSdu l, by rw [htx, countAfter_deliverSdu]⟩

theorem txFollows_startReordering : TxFollows e e.startReordering := by
  unfold startReordering
  split_ifs <;> exact .refl rfl rfl

theorem txFollows_recvPdu : TxFollows e (e.recvPdu k buffer) := by
  rw [recvPdu_eq]
  split_ifs
  · obtain ⟨new, hout, -⟩ := receptionActions_delivers e (e.sduOf k (e.setDcBit buffer))
    refine .deliver hout ?_
    unfold receptionActions startReordering stopReordering deliverIfNext
    split_ifs <;> rfl
  · exact .refl rfl rfl

theorem txFollows_expireReordering : TxFollows e e.expireReordering := by
  have hbefore : TxFollows e ({ e with tReorderingStart := 0 } : NrPdcpEntity).deliverBeforeReord :=
    .deliver rfl rfl
  have hfrom : TxFollows ({ e with tReorderingStart := 0 } : NrPdcpEntity).deliverBeforeReord
      (({ e with
        tReorderingStart := 0 } : NrPdcpEntity).deliverBeforeReord.deliverFrom e.rxReord) :=
    .deliver rfl rfl
  exact (hbefore.trans hfrom).trans txFollows_startReordering

theorem txFollows_setTime {now : UInt64} : TxFollows e (e.setTime now) := by
  have hclock : TxFollows e { e with tCurrent := now } := .refl rfl rfl
  unfold setTime checkTReordering
  split_ifs
  · exact hclock
  · exact hclock
  · exact hclock.trans txFollows_expireReordering

theorem txFollows_flushReordering : TxFollows e e.flushReordering := by
  unfold flushReordering
  split_ifs
  · exact .deliver rfl rfl
  · exact .refl rfl rfl

theorem txFollows_resetCounters : TxFollows e e.resetCounters :=
  ⟨[.resetTxNext], rfl, trivial, rfl⟩

theorem txFollows_setSecurity (h : e.setSecurity p = some e') : TxFollows e e' := by
  obtain ⟨e₁, h₁, h₂⟩ := Option.bind_eq_some_iff.1 h
  have hi : TxFollows e e₁ := by
    unfold setIntegrity at h₁
    split_ifs at h₁ <;> cases h₁ <;> exact .refl rfl rfl
  refine hi.trans ?_
  unfold setCiphering at h₂
  split_ifs at h₂ <;> cases h₂
  · exact .refl rfl rfl
  · exact .refl rfl rfl
  · exact ⟨[.cipheringKey _], rfl, trivial, rfl⟩

theorem txFollows_resume (h : e.resume p = some e') : TxFollows e e' := by
  obtain ⟨e₁, h₁, rfl⟩ := Option.map_eq_some_iff.1 h
  exact (txFollows_setSecurity h₁).trans (.refl rfl rfl)

theorem txFollows_reestablish (h : e.reestablish p = some e') : TxFollows e e' := by
  unfold reestablish at h
  split at h
  · exact txFollows_resume h
  · exact (txFollows_flushReordering.trans txFollows_resetCounters).trans (txFollows_resume h)
  · have hfree : TxFollows e { e.freeRxList with tReorderingStart := 0 } := .refl rfl rfl
    exact (hfree.trans txFollows_resetCounters).trans (txFollows_resume h)

theorem txFollows_processSdu {pduMaxSize : Int} {r : NrPdcpEntity × Option (List UInt8)}
    (h : e.processSdu k buffer pduMaxSize = some r) : TxFollows e r.1 := by
  unfold processSdu at h
  split_ifs at h <;> cases h
  · exact .refl rfl rfl
  · exact ⟨[.processSdu e.txNext e.hasCiphering], rfl, ⟨rfl, trivial⟩, rfl⟩

theorem txFollows_step {op : PdcpOp} (h : pdcpStep k e op = some e') : TxFollows e e' := by
  cases op with
  | processSdu buffer pduMaxSize =>
    obtain ⟨r, hr, rfl⟩ := Option.map_eq_some_iff.1 h
    exact txFollows_processSdu hr
  | recvPdu buffer =>
    cases h
    exact txFollows_recvPdu
  | setTime now =>
    cases h
    exact txFollows_setTime
  | setSecurity parameters => exact txFollows_setSecurity h
  | suspend =>
    cases h
    exact (txFollows_flushReordering.trans txFollows_resetCounters).trans (.refl rfl rfl)
  | reestablish parameters => exact txFollows_reestablish h
  | release =>
    cases h
    exact .deliver rfl rfl

/-! ## Runs -/

theorem reach_txFollows {ok : NrPdcpEntity → PdcpOp → Prop} (h : Reach (pdcpStep k) ok e e') :
    TxFollows e e' :=
  h.invariant (.refl rfl rfl) fun _ _ _ hf _ hs => hf.trans (txFollows_step hs)

/-- The history of an entity is one of COUNTs that follow each other from `0` on. -/
theorem reach_countsFrom {c : PdcpConfig} (h₀ : newNrPdcpEntity c = some e)
    (h : Reach (pdcpStep k) anyStep e e') : CountsFrom 0 e'.out := by
  obtain ⟨new, hout, hnew, -⟩ := (txFollows_setSecurity h₀).trans (reach_txFollows h)
  rw [hout]
  exact hnew

/-- Two PDUs ciphered with one COUNT have a reset of TX_NEXT between them, or are `2^32`
SDUs apart. -/
theorem count_not_reused (k : PdcpCrypto) {c : PdcpConfig} (h₀ : newNrPdcpEntity c = some e)
    (h : Reach (pdcpStep k) anyStep e e') {pre mid post : List PdcpEvent} {c₁ c₂ : Nat}
    (hout : e'.out = pre ++ .processSdu c₁ true :: (mid ++ .processSdu c₂ true :: post))
    (hreset : .resetTxNext ∉ mid) (hmid : sdusProcessed mid + 1 < 2 ^ 32) : c₁ ≠ c₂ :=
  (hout ▸ reach_countsFrom h₀ h).ne hreset hmid

/-- A DRB ciphered with NEA2. -/
def cipheredDrb : PdcpConfig :=
  { plainDrb with securityParameters := ⟨0, 2, [], [1]⟩ }

/-- Its entity. -/
def cipheredDrbEntity : NrPdcpEntity :=
  { plainDrbEntity with
    hasCiphering := true
    securityContext := ⟨2, [1]⟩
    out := [.cipheringKey ⟨2, [1]⟩] }

theorem newNrPdcpEntity_cipheredDrb : newNrPdcpEntity cipheredDrb = some cipheredDrbEntity := by
  decide

theorem count_not_reused_cipheredDrb : ∃ e,
    Reach (pdcpStep .null) anyStep cipheredDrbEntity e ∧
      e.out = [.cipheringKey ⟨2, [1]⟩, .processSdu 0 true, .processSdu 1 true] ∧ 0 ≠ 1 := by
  have hrun : [PdcpOp.processSdu [7] 16, .processSdu [7] 16].foldlM (pdcpStep .null)
      cipheredDrbEntity = some { cipheredDrbEntity with
        txNext := 2
        out := [.cipheringKey ⟨2, [1]⟩, .processSdu 0 true, .processSdu 1 true] } := by
    decide
  have hout : [.cipheringKey ⟨2, [1]⟩, .processSdu 0 true, .processSdu 1 true] =
      [PdcpEvent.cipheringKey ⟨2, [1]⟩] ++ .processSdu 0 true :: ([] ++ .processSdu 1 true :: []) :=
    rfl
  exact ⟨_, reach_foldlM hrun, rfl, count_not_reused .null newNrPdcpEntity_cipheredDrb
    (reach_foldlM hrun) hout List.not_mem_nil (by decide)⟩

/-- Suspend and re-establishment with the key kept : COUNT `0` is used twice. -/
theorem count_reused : newNrPdcpEntity cipheredDrb = some cipheredDrbEntity ∧ ∃ e,
    Reach (pdcpStep .null) anyStep cipheredDrbEntity e ∧
      e.out = [.cipheringKey ⟨2, [1]⟩, .processSdu 0 true, .resetTxNext, .processSdu 0 true] := by
  have hrun : [PdcpOp.processSdu [7] 16, .suspend, .reestablish ⟨-1, -1, [], []⟩,
      .processSdu [7] 16].foldlM (pdcpStep .null) cipheredDrbEntity =
        some { cipheredDrbEntity with
          txNext := 1
          out := [.cipheringKey ⟨2, [1]⟩, .processSdu 0 true, .resetTxNext,
            .processSdu 0 true] } := by
    decide
  exact ⟨newNrPdcpEntity_cipheredDrb, _, reach_foldlM hrun, rfl⟩

end NrPdcpEntity

end NrStack
