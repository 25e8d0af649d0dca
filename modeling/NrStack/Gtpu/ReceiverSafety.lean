import NrStack.Gtpu.Receiver

/-!
# What the GTP-U receiver accepts

`ExtHeaders` is the grammar of a chain of extension headers : each one is a whole number of four
octet units, at least one, with the type of the next one in its last octet. A run of the receiver is
safe (`GtpuContext.ReceiveOk`) if it ends, has read only octets of the datagram and has released
`gtp_lock`, and the T-PDU goes to its tunnel as it is or is dropped.

A chain that is not in the grammar is always harmful : a length of zero makes the walk go round
for ever, and one that goes past the end makes it read there, or return with the lock held. So the
safe datagrams are those of `GtpuContext.Complete`.
-/

namespace NrStack

/-! ## Extension headers -/

/-- An extension header, with all the octets of the datagram after its content. -/
structure ExtHeader where
  type : UInt8
  content : List UInt8
  after : List UInt8

/-- A chain of extension headers, the first of the given type, and what follows them. -/
inductive ExtHeaders : UInt8 → List UInt8 → List ExtHeader → List UInt8 → Prop
  | nil (rest : List UInt8) : ExtHeaders 0 rest [] rest
  | cons {type n next : UInt8} {content tail rest : List UInt8} {exts : List ExtHeader} :
      type ≠ 0 → content.length + 2 = 4 * n.toNat → ExtHeaders next tail exts rest →
      ExtHeaders type (n :: (content ++ next :: tail))
        (⟨type, content, next :: tail⟩ :: exts) rest

/-- No extension header has a length of zero. -/
theorem not_extHeaders_zero {type : UInt8} {l tPdu : List UInt8} {exts : List ExtHeader}
    (h : type ≠ 0) : ¬ExtHeaders type (0 :: l) exts tPdu := by
  intro hchain
  cases hchain with
  | nil => exact h rfl
  | cons _ hlen _ => simp at hlen

namespace ExtHeader

variable (h : ExtHeader)

/-- The octets from the content on. -/
def octets : List UInt8 :=
  h.content ++ h.after

/-- The PDCP SN of a DL USER DATA frame that asks for a report is in the datagram. -/
def ReportFits : Prop :=
  h.type = 0x84 → ∀ flags report : UInt8, h.octets[0]? = some flags → h.octets[1]? = some report →
    flags >>> 4 = 0 → report.toNat.testBit 3 →
      UdpData.additionalOffset flags + 2 ≤ h.octets.length

/-- The QFI and the RQI of a PDU session container. -/
def qos? : Option (UInt8 × Bool) :=
  if h.type = 0x85 then h.content[1]?.map fun octet => (octet &&& 0x3f, octet.toNat.testBit 6)
  else none

end ExtHeader

/-- The QFI and the RQI of the last PDU session container, or `q`. -/
def lastQos (q : Option (UInt8 × Bool)) (exts : List ExtHeader) : Option (UInt8 × Bool) :=
  exts.foldl (fun q h => h.qos?.or q) q

/-! ## What is asked of a run -/

/-- Only octets of the datagram were read. -/
def GtpuRx.InRange (s : GtpuRx) (b : UdpData) : Prop :=
  ∀ i ∈ s.reads, i < b.length

/-- Whether it is the call of a callback. -/
def GtpuEvent.isCallback : GtpuEvent → Bool
  | .sendto .. => false
  | .callBack .. | .callBackSDAP .. => true

/-- The callbacks that were called. -/
def GtpuRx.callbacks (s : GtpuRx) : List GtpuEvent :=
  s.events.filter GtpuEvent.isCallback

/-- The T-PDU of a datagram, after its extension headers. -/
def UdpData.TPdu (b : UdpData) (exts : List ExtHeader) (tPdu : List UInt8) : Prop :=
  if b.msgHeader.e then ExtHeaders (b.octet 11) (b.datagram.drop 12) exts tPdu
  else exts = [] ∧ tPdu = b.datagram.drop (if b.msgHeader.s ∨ b.msgHeader.pn then 12 else 8)

/-- The call of a tunnel's callback. -/
def UeidData.delivery (tunnel : UeidData) (originInstance : Int64) (tPdu : List UInt8) :
    Option (UInt8 × Bool) → GtpuEvent
  | some (qfi, rqi) =>
    if tunnel.callBackSDAP ≠ 0 then
      .callBackSDAP tunnel.callBackSDAP originInstance tunnel.ueId tunnel.incomingRbId tPdu qfi rqi
        tunnel.pdusessionId
    else .callBack tunnel.callBack originInstance tunnel.ueId tunnel.incomingRbId tPdu
  | none => .callBack tunnel.callBack originInstance tunnel.ueId tunnel.incomingRbId tPdu

namespace GtpuContext

variable (g : GtpuContext) (b : UdpData)

/-- The T-PDU has been given to the callback of its tunnel. -/
def Delivered (s : GtpuRx) : Prop :=
  ∃ originInstance tunnel exts tPdu, g.inst? = some originInstance ∧
    g.endPoints.handleGpdu b.msgHeader.teid = some tunnel ∧ b.TPdu exts tPdu ∧
      s.callbacks = [tunnel.delivery originInstance tPdu (lastQos none exts)]

/-- What the receiver is asked for. -/
def ReceiveOk : Prop :=
  ∃ fuel s, g.gtpv1uReceiver fuel b = some s ∧ s.InRange b ∧ s.locked = false ∧
    (b.msgHeader.msgType = 255 → s.callbacks = [] ∨ g.Delivered b s)

/-- The datagram is not one of these : an echo request with the S flag and no room for the sequence
number, or a G-PDU of a tunnel with the E flag whose extension headers are not a chain. -/
def Complete : Prop :=
  sizeofGtpv1uMsgHeader ≤ b.length → b.msgHeader.msgLength + sizeofGtpv1uMsgHeader = b.length →
    b.msgHeader.version = 1 → b.msgHeader.pt →
      (b.msgHeader.msgType = 1 → b.msgHeader.s → 10 ≤ b.length) ∧
      (b.msgHeader.msgType = 255 → g.inst?.isSome →
        (g.endPoints.handleGpdu b.msgHeader.teid).isSome → b.msgHeader.e →
          12 ≤ b.length ∧ ∃ exts tPdu, ExtHeaders (b.octet 11) (b.datagram.drop 12) exts tPdu ∧
            ∀ h ∈ exts, h.ReportFits)

end GtpuContext

/-! ## Octets -/

section Walk

variable {b : UdpData} {s s' : GtpuRx} {type n next : UInt8} {offset i : ℕ} {x x' : ExtInfo}
  {content tail tPdu l : List UInt8} {exts : List ExtHeader} {q : Option (UInt8 × Bool)}

theorem UdpData.octet_add (b : UdpData) (offset k : ℕ) :
    b.octet (offset + k) = (b.datagram.drop offset).getD k (b.stale (offset + k)) := by
  simp [UdpData.octet, List.getD_eq_getElem?_getD, List.getElem?_drop]

theorem UdpData.length_drop (b : UdpData) (offset : ℕ) :
    (b.datagram.drop offset).length = b.length - offset :=
  List.length_drop ..

@[simp] theorem inRange_readOctet : (s.readOctet b i).2.InRange b ↔ s.InRange b ∧ i < b.length := by
  simp [GtpuRx.InRange, GtpuRx.readOctet, or_imp, forall_and]

/-- Nothing but reads. -/
structure GtpuRx.ReadsFrom (s s' : GtpuRx) : Prop where
  locked_eq : s'.locked = s.locked
  events_eq : s'.events = s.events
  reads_subset : s.reads ⊆ s'.reads

namespace GtpuRx.ReadsFrom

theorem refl (s : GtpuRx) : s.ReadsFrom s :=
  ⟨rfl, rfl, List.Subset.refl _⟩

theorem trans {s'' : GtpuRx} (h : s.ReadsFrom s') (h' : s'.ReadsFrom s'') : s.ReadsFrom s'' :=
  ⟨h'.locked_eq.trans h.locked_eq, h'.events_eq.trans h.events_eq,
    List.Subset.trans h.reads_subset h'.reads_subset⟩

theorem readOctet (s : GtpuRx) (b : UdpData) (i : ℕ) : s.ReadsFrom (s.readOctet b i).2 :=
  ⟨rfl, rfl, List.subset_append_left _ _⟩

theorem inRange (h : s.ReadsFrom s') (hs : s'.InRange b) : s.InRange b :=
  fun i hi => hs i (h.reads_subset hi)

end GtpuRx.ReadsFrom

/-! ## One extension header -/

theorem readsFrom_extension (type : UInt8) (offset : ℕ) (x : ExtInfo) (s : GtpuRx) :
    s.ReadsFrom (b.extension type offset x s).1 := by
  have hread : ∀ (s : GtpuRx) (i : ℕ), s.ReadsFrom (s.readOctet b i).2 :=
    fun s i => .readOctet s b i
  unfold UdpData.extension UdpData.pduSessionContainer UdpData.nrRanContainer
  dsimp only
  split_ifs
  · exact .refl s
  · exact hread _ _
  · exact .refl s
  · exact (((((hread _ _).trans (hread _ _)).trans (hread _ _)).trans (hread _ _)).trans
      (hread _ _))
  · exact (hread _ _).trans (hread _ _)
  · exact hread _ _
  · exact .refl s

/-- What the extension headers have told so far. -/
def ExtInfo.Tells (x : ExtInfo) (q : Option (UInt8 × Bool)) : Prop :=
  x.qfi = q.map Prod.fst ∧ x.rqi = (q.map Prod.snd).getD false

/-- A PDU session container. -/
theorem pduSessionContainer_spec {c₀ c₁ : UInt8} {cs : List UInt8}
    (hdrop : b.datagram.drop (offset + 1) = c₀ :: c₁ :: cs) (hs : s.InRange b) :
    ∃ s', b.pduSessionContainer offset x s =
        (s', some { x with qfi := some (c₁ &&& 0x3f), rqi := c₁.toNat.testBit 6 }) ∧
      s'.InRange b := by
  have hle := b.length_drop (offset + 1)
  have hoctet := b.octet_add (offset + 1) 1
  rw [hdrop, List.length_cons, List.length_cons] at hle
  rw [hdrop, List.getD_cons_succ, List.getD_cons_zero] at hoctet
  unfold UdpData.pduSessionContainer
  rw [if_neg (by omega)]
  have hread : (s.readOctet b (offset + 1 + 1)).1 = c₁ := hoctet
  exact ⟨_, by rw [← hread], inRange_readOctet.2 ⟨hs, by omega⟩⟩

/-- A NR RAN container. -/
theorem nrRanContainer_spec {c₀ c₁ : UInt8} {cs : List UInt8}
    (hdrop : b.datagram.drop (offset + 1) = c₀ :: c₁ :: cs) (hs : s.InRange b) :
    ∃ s' sn, b.nrRanContainer offset x s = (s', some { x with nrPdcpPduSn := sn }) ∧
      (s'.InRange b ↔ (c₀ >>> 4 = 0 → c₁.toNat.testBit 3 →
        UdpData.additionalOffset c₀ + 2 ≤ (c₀ :: c₁ :: cs).length)) := by
  have hle := b.length_drop (offset + 1)
  have h₀ := b.octet_add (offset + 1) 0
  have h₁ := b.octet_add (offset + 1) 1
  rw [hdrop] at hle h₀ h₁
  rw [List.getD_cons_zero, Nat.add_zero] at h₀
  rw [List.getD_cons_succ, List.getD_cons_zero] at h₁
  rw [List.length_cons, List.length_cons] at hle
  unfold UdpData.nrRanContainer
  rw [if_neg (by omega)]
  have hread₀ : (s.readOctet b (offset + 1)).1 = c₀ := h₀
  have hread₁ : ((s.readOctet b (offset + 1)).2.readOctet b (offset + 2)).1 = c₁ := h₁
  dsimp only
  rw [hread₀, hread₁]
  by_cases hdl : c₀ >>> 4 = 0
  · rw [if_pos hdl]
    by_cases hreport : c₁.toNat.testBit 3
    · rw [if_pos hreport]
      refine ⟨_, _, rfl, ?_⟩
      simp only [inRange_readOctet, hs, true_and, hdl, hreport, forall_true_left, List.length_cons]
      omega
    · rw [if_neg hreport]
      refine ⟨_, x.nrPdcpPduSn, rfl, iff_of_true ?_ fun _ h => absurd h hreport⟩
      simp only [inRange_readOctet, hs, true_and]
      omega
  · rw [if_neg hdl]
    refine ⟨_, x.nrPdcpPduSn, rfl, iff_of_true ?_ fun h => absurd h hdl⟩
    simp only [inRange_readOctet, hs, true_and]
    omega

variable (type x) in
/-- The case of a whole extension header : what is read is in the datagram if the report fits. -/
theorem extension_spec (hdrop : b.datagram.drop (offset + 1) = content ++ tail)
    (hlen : 2 ≤ content.length) (hs : s.InRange b) :
    ∃ s' x', b.extension type offset x s = (s', some x') ∧
      (∀ q, x.Tells q → x'.Tells ((ExtHeader.mk type content tail).qos?.or q)) ∧
        (s'.InRange b ↔ (ExtHeader.mk type content tail).ReportFits) := by
  obtain ⟨c₀, c₁, cs, rfl⟩ : ∃ c₀ c₁ cs, content = c₀ :: c₁ :: cs := by
    match content, hlen with
    | c₀ :: c₁ :: cs, _ => exact ⟨c₀, c₁, cs, rfl⟩
  unfold UdpData.extension
  by_cases h85 : type = 0x85
  · rw [if_pos h85]
    obtain ⟨s', heq, hin⟩ := pduSessionContainer_spec (x := x) hdrop hs
    refine ⟨s', _, heq, fun q _ => ?_, iff_of_true hin fun h84 => ?_⟩
    · simp [ExtInfo.Tells, ExtHeader.qos?, h85]
    · exact absurd (h85.symm.trans h84) (by decide)
  rw [if_neg h85]
  have hqos : (ExtHeader.mk type (c₀ :: c₁ :: cs) tail).qos? = none := if_neg h85
  simp only [hqos, Option.none_or]
  by_cases h84 : type = 0x84
  · rw [if_pos h84]
    obtain ⟨s', sn, heq, hin⟩ := nrRanContainer_spec (x := x) hdrop hs
    refine ⟨s', _, heq, fun _ hx => hx, hin.trans ?_⟩
    simp [ExtHeader.ReportFits, ExtHeader.octets, h84]
  · rw [if_neg h84]
    exact ⟨s, x, rfl, fun _ hx => hx, iff_of_true hs fun h => absurd h h84⟩

/-! ## The walk -/

theorem drop_eq_octet_cons (hlt : offset < b.length) :
    b.datagram.drop offset = b.octet offset :: b.datagram.drop (offset + 1) := by
  have hlt' : offset < b.datagram.length := hlt
  have hoctet : b.octet offset = b.datagram[offset] := by simp [UdpData.octet, hlt']
  rw [hoctet, List.drop_eq_getElem_cons hlt']

/-- The octets of an extension header that does not go past the end. -/
theorem exists_extHeader (hlt : offset < b.length) (hpos : b.octet offset ≠ 0)
    (hend : offset + (b.octet offset).toNat * 4 ≤ b.length) : ∃ content,
      content.length + 2 = 4 * (b.octet offset).toNat ∧
        b.datagram.drop offset = b.octet offset :: (content ++
          b.octet (offset + (b.octet offset).toNat * 4 - 1) ::
            b.datagram.drop (offset + (b.octet offset).toNat * 4)) := by
  have hn : 1 ≤ (b.octet offset).toNat :=
    Nat.one_le_iff_ne_zero.2 fun h0 => hpos (UInt8.toNat_inj.1 h0)
  obtain ⟨k, hk⟩ : ∃ k, k = (b.octet offset).toNat * 4 := ⟨_, rfl⟩
  have hlength : b.length = b.datagram.length := rfl
  rw [← hk] at hend ⊢
  refine ⟨(b.datagram.drop (offset + 1)).take (k - 2), ?_, ?_⟩
  · rw [List.length_take, List.length_drop]
    omega
  · have hlast : b.datagram.drop (offset + k - 1) =
        b.octet (offset + k - 1) :: b.datagram.drop (offset + k) := by
      rw [drop_eq_octet_cons (by omega), Nat.sub_add_cancel (by omega)]
    have hrest : b.datagram.drop (offset + k - 1) =
        (b.datagram.drop (offset + 1)).drop (k - 2) := by
      rw [List.drop_drop]
      congr 1
      omega
    rw [← hlast, hrest, List.take_append_drop, drop_eq_octet_cons hlt]

theorem readsFrom_walkExtensions : ∀ {fuel : ℕ} {type : UInt8} {offset : ℕ} {x : ExtInfo}
    {s s' : GtpuRx} {r : Option (ℕ × ExtInfo)},
      b.walkExtensions fuel type offset x s = some (s', r) → s.ReadsFrom s'
  | 0, _, _, _, _, _, _, h => by cases h
  | fuel + 1, type, offset, x, s, s', r, h => by
    unfold UdpData.walkExtensions at h
    split_ifs at h with h0
    · obtain ⟨rfl, -⟩ := Prod.mk.inj (Option.some.inj h)
      exact .refl s
    · have hext := (GtpuRx.ReadsFrom.readOctet s b offset).trans
        (readsFrom_extension (b := b) type offset x (s.readOctet b offset).2)
      dsimp only at h
      split at h
      · next s₁ heq =>
        obtain ⟨rfl, -⟩ := Prod.mk.inj (Option.some.inj h)
        rwa [heq] at hext
      · next s₁ x₁ heq =>
        rw [heq] at hext
        split_ifs at h with hover
        · obtain ⟨rfl, -⟩ := Prod.mk.inj (Option.some.inj h)
          exact hext
        · exact hext.trans ((GtpuRx.ReadsFrom.readOctet _ b _).trans
            (readsFrom_walkExtensions h))

/-- A walk that ends, and has read only octets of the datagram, has gone over a chain. -/
theorem extHeaders_of_walkExtensions : ∀ {fuel : ℕ} {type : UInt8} {offset : ℕ} {x : ExtInfo}
    {s s' : GtpuRx} {r : ℕ × ExtInfo}, type = b.octet (offset - 1) →
      b.walkExtensions fuel type offset x s = some (s', some r) → s'.InRange b →
        ∃ exts tPdu, ExtHeaders type (b.datagram.drop offset) exts tPdu ∧
          ∀ h ∈ exts, h.ReportFits
  | 0, _, _, _, _, _, _, _, h, _ => by cases h
  | fuel + 1, type, offset, x, s, s', r, htype, h, hin => by
    unfold UdpData.walkExtensions at h
    split_ifs at h with h0
    · subst h0
      exact ⟨[], _, .nil _, by simp⟩
    dsimp only at h
    split at h
    · cases h
    next s₁ x₁ heq =>
    split_ifs at h with hover
    · cases h
    have hwalk := (GtpuRx.ReadsFrom.readOctet _ b _).trans (readsFrom_walkExtensions h)
    have hin₁ : s₁.InRange b := hwalk.inRange hin
    have hread : (s.readOctet b offset).2.InRange b := by
      have hext := readsFrom_extension (b := b) type offset x (s.readOctet b offset).2
      rw [heq] at hext
      exact hext.inRange hin₁
    have hlt := (inRange_readOctet.1 hread).2
    obtain ⟨exts, tPdu, hchain, hfits⟩ := extHeaders_of_walkExtensions rfl h hin
    change ExtHeaders (b.octet (offset + (b.octet offset).toNat * 4 - 1))
      (b.datagram.drop (offset + (b.octet offset).toNat * 4)) _ _ at hchain
    by_cases hpos : b.octet offset = 0
    · -- a length of zero : the walk is where it was, and there is no chain from there
      have hoffset : offset + (b.octet offset).toNat * 4 = offset := by simp [hpos]
      rw [hoffset, ← htype, drop_eq_octet_cons hlt, hpos] at hchain
      exact absurd hchain (not_extHeaders_zero h0)
    · obtain ⟨content, hlen, hdrop⟩ := exists_extHeader hlt hpos (not_lt.1 hover)
      have hrest : b.datagram.drop (offset + 1) = content ++
          b.octet (offset + (b.octet offset).toNat * 4 - 1) ::
            b.datagram.drop (offset + (b.octet offset).toNat * 4) := by
        rw [← List.tail_drop, hdrop, List.tail_cons]
      have hpos' : 1 ≤ (b.octet offset).toNat :=
        Nat.one_le_iff_ne_zero.2 fun h0 => hpos (UInt8.toNat_inj.1 h0)
      obtain ⟨s₂, x₂, heq₂, -, hiff⟩ :=
        extension_spec type x hrest (by omega) hread
      have hs₂ : s₂ = s₁ := congrArg Prod.fst (heq₂.symm.trans heq)
      have hfits₁ := hiff.1 (hs₂ ▸ hin₁)
      rw [hdrop]
      exact ⟨_, tPdu, .cons h0 hlen hchain, List.forall_mem_cons.2 ⟨hfits₁, hfits⟩⟩

/-- A chain in which the reports fit is walked to its end. -/
theorem walkExtensions_of_extHeaders (h : ExtHeaders type l exts tPdu) :
    ∀ {fuel offset : ℕ} {x : ExtInfo} {s : GtpuRx} {q : Option (UInt8 × Bool)},
      b.datagram.drop offset = l → offset ≤ b.length → s.InRange b → x.Tells q →
        (∀ h ∈ exts, h.ReportFits) → exts.length < fuel →
          ∃ s' offset' x', b.walkExtensions fuel type offset x s = some (s', some (offset', x')) ∧
            s'.InRange b ∧ x'.Tells (lastQos q exts) ∧ offset' ≤ b.length ∧
              b.datagram.drop offset' = tPdu := by
  induction h with
  | nil rest =>
    intro fuel offset x s q hdrop hle hs hx _ hfuel
    obtain ⟨fuel, rfl⟩ := Nat.exists_eq_succ_of_ne_zero (Nat.ne_zero_of_lt hfuel)
    exact ⟨s, offset, x, by rw [UdpData.walkExtensions, if_pos rfl], hs, hx, hle, hdrop⟩
  | @cons type n next content tail rest exts h0 hlen _ ih =>
    intro fuel offset x s q hdrop hle hs hx hfits hfuel
    rw [List.length_cons] at hfuel
    obtain ⟨fuel, rfl⟩ := Nat.exists_eq_succ_of_ne_zero (Nat.ne_zero_of_lt hfuel)
    obtain ⟨hfit, hfits⟩ := List.forall_mem_cons.1 hfits
    have hlength := b.length_drop offset
    rw [hdrop] at hlength
    simp only [List.length_cons, List.length_append] at hlength
    have hoctet : b.octet offset = n := by
      have hadd := b.octet_add offset 0
      rwa [hdrop, List.getD_cons_zero, Nat.add_zero] at hadd
    have hread : (s.readOctet b offset).2.InRange b := inRange_readOctet.2 ⟨hs, by omega⟩
    have hrest : b.datagram.drop (offset + 1) = content ++ next :: tail := by
      rw [← List.tail_drop, hdrop, List.tail_cons]
    obtain ⟨s₁, x₁, hext, htells, hiff⟩ :=
      extension_spec type x hrest (by omega) hread
    have hnext : b.octet (offset + n.toNat * 4 - 1) = next := by
      have hadd := b.octet_add (offset + 1) content.length
      rw [hrest, List.getD_eq_getElem?_getD, List.getElem?_append_right le_rfl, Nat.sub_self,
        List.getElem?_cons_zero, Option.getD_some] at hadd
      rw [← hadd]
      congr 1
      omega
    have htail : b.datagram.drop (offset + n.toNat * 4) = tail := by
      have hsum : offset + n.toNat * 4 = offset + 1 + (content.length + 1) := by omega
      rw [hsum, ← List.drop_drop, hrest, ← List.drop_drop, List.drop_left, List.drop_one,
        List.tail_cons]
    have hin₁ : (s₁.readOctet b (offset + n.toNat * 4 - 1)).2.InRange b :=
      inRange_readOctet.2 ⟨hiff.2 hfit, by omega⟩
    obtain ⟨s', offset', x', hwalk, hin', htells', hle', hdrop'⟩ :=
      ih htail (by omega) hin₁ (htells q hx) hfits (show exts.length < fuel by omega)
    refine ⟨s', offset', x', ?_, hin', htells', hle', hdrop'⟩
    have hfirst : (s.readOctet b offset).1 = n := hoctet
    have hsecond : (s₁.readOctet b (offset + n.toNat * 4 - 1)).1 = next := hnext
    rw [UdpData.walkExtensions, if_neg h0]
    dsimp only
    rw [hext, hfirst]
    dsimp only
    rw [if_neg (by omega), hsecond]
    exact hwalk

/-! ## What is done besides reading -/

/-- Nothing but datagrams that are sent. -/
structure GtpuRx.SendsFrom (s s' : GtpuRx) : Prop where
  reads_eq : s'.reads = s.reads
  locked_eq : s'.locked = s.locked
  callbacks_eq : s'.callbacks = s.callbacks

namespace GtpuContext

variable (g : GtpuContext)

theorem sendsFrom_createAndSendMsg {fuel : ℕ} {msgType : UInt8} {teid : UInt32} {msg : List UInt8}
    {seqNumFlag : Bool} {seqNum : UInt16} {extHdrType : UInt8} {buffer : List UInt8}
    (h : g.createAndSendMsg fuel msgType teid msg seqNumFlag seqNum extHdrType buffer s = some s') :
    s.SendsFrom s' := by
  obtain ⟨out, -, rfl⟩ := Option.map_eq_some_iff.1 h
  exact ⟨rfl, rfl, by simp [GtpuRx.callbacks, GtpuRx.event, GtpuEvent.isCallback]⟩

/-- A message with no extension header, or with one that says it is the last, is sent. -/
theorem exists_createAndSendMsg {fuel : ℕ} (hfuel : 2 ≤ fuel) (msgType : UInt8) (teid : UInt32)
    (msg : List UInt8) (seqNumFlag : Bool) (seqNum : UInt16) (extHdrType : UInt8)
    (buffer : List UInt8) (hlast : extHdrType = 0 ∨ buffer.getLast? = some 0) (s : GtpuRx) :
    ∃ s', g.createAndSendMsg fuel msgType teid msg seqNumFlag seqNum extHdrType buffer s =
      some s' := by
  obtain ⟨fuel, rfl⟩ : ∃ k, fuel = k + 2 := ⟨fuel - 2, by omega⟩
  have hput : ∀ out, ∃ out', putExtensionHeaders buffer (fuel + 2) extHdrType out = some out' := by
    intro out
    rw [putExtensionHeaders]
    split_ifs with h0
    · exact ⟨out, rfl⟩
    · rw [hlast.resolve_left h0]
      exact ⟨out ++ buffer, if_pos rfl⟩
  unfold createAndSendMsg
  dsimp only
  obtain ⟨out', hout⟩ := hput _
  rw [hout]
  exact ⟨_, rfl⟩

theorem sduBuffer_eq (hle : offset ≤ b.length) :
    ((List.range ((b.length : Int) - offset).toNat).map fun i => b.octet (offset + i)) =
      b.datagram.drop offset := by
  have hlen : b.length = b.datagram.length := rfl
  refine List.ext_getElem (by simp; omega) fun i h₁ h₂ => ?_
  rw [List.length_drop] at h₂
  have hlt : offset + i < b.datagram.length := by omega
  simp [UdpData.octet, hlt]

variable (b offset x) in
theorem deliver_frame (originInstance : Int64) (tunnel : UeidData) (s : GtpuRx) :
    (deliver b originInstance tunnel offset x s).reads = s.reads ∧
      (deliver b originInstance tunnel offset x s).locked = s.locked := by
  unfold deliver
  rcases x with ⟨_ | qfi, rqi, sn⟩
  · dsimp only
    split_ifs <;> exact ⟨rfl, rfl⟩
  · dsimp only
    split_ifs <;> exact ⟨rfl, rfl⟩

/-- The call for a T-PDU that is not empty. -/
theorem events_deliver_of_lt (originInstance : Int64) (tunnel : UeidData) (hx : x.Tells q)
    (hlt : offset < b.length) (s : GtpuRx) :
    (deliver b originInstance tunnel offset x s).events = s.events ++
      [tunnel.delivery originInstance (b.datagram.drop offset) q] := by
  have hsize : (b.length : Int) - offset > 0 := by omega
  unfold deliver
  dsimp only
  rw [if_pos hsize, sduBuffer_eq hlt.le, hx.1, hx.2]
  cases q with
  | none => rfl
  | some q =>
    simp only [Option.map_some, Option.getD_some, UeidData.delivery]
    split_ifs <;> rfl

/-- There is none for an empty one. -/
theorem deliver_of_ge (originInstance : Int64) (tunnel : UeidData) (hge : b.length ≤ offset)
    (s : GtpuRx) : deliver b originInstance tunnel offset x s = s :=
  if_neg (by omega)

variable (b offset) in
theorem deliver_spec (originInstance : Int64) (tunnel : UeidData) (hx : x.Tells q) (s : GtpuRx) :
    deliver b originInstance tunnel offset x s = s ∨
      (deliver b originInstance tunnel offset x s).events = s.events ++
        [tunnel.delivery originInstance (b.datagram.drop offset) q] := by
  rcases Nat.lt_or_ge offset b.length with hlt | hge
  · exact .inr (events_deliver_of_lt originInstance tunnel hx hlt s)
  · exact .inl (deliver_of_ge originInstance tunnel hge s)

theorem inRange_readHeader {s : GtpuRx} (hlen : sizeofGtpv1uMsgHeader ≤ b.length)
    (hs : s.InRange b) : (s.readHeader b).2.InRange b := by
  intro i hi
  rcases List.mem_append.1 hi with hi | hi
  · exact hs i hi
  · exact (List.mem_range.1 hi).trans_le hlen

/-- The extension headers of a complete G-PDU are walked to their end. -/
theorem extensionHeaders_of_complete (hs : s.InRange b)
    (hchain : b.msgHeader.e → 12 ≤ b.length ∧ ∃ exts tPdu,
      ExtHeaders (b.octet 11) (b.datagram.drop 12) exts tPdu ∧ ∀ h ∈ exts, h.ReportFits) :
    ∃ fuel s' offset x exts, 2 ≤ fuel ∧ b.extensionHeaders fuel (sizeofGtpv1uMsgHeader +
        if b.msgHeader.e ∨ b.msgHeader.s ∨ b.msgHeader.pn then 4 else 0) s =
          some (s', some (offset, x)) ∧ s'.InRange b ∧ s.ReadsFrom s' ∧
        x.Tells (lastQos none exts) ∧ b.TPdu exts (b.datagram.drop offset) := by
  have hinit : ExtInfo.init.Tells none := ⟨rfl, rfl⟩
  by_cases he : b.msgHeader.e
  · obtain ⟨hlen, exts, tPdu, hexts, hfits⟩ := hchain he
    have hread : (s.readOctet b 11).2.InRange b := inRange_readOctet.2 ⟨hs, by omega⟩
    obtain ⟨s', offset, x, hwalk, hin, htells, -, hdrop⟩ :=
      walkExtensions_of_extHeaders hexts rfl hlen hread hinit hfits
        (show exts.length < exts.length + 2 by omega)
    refine ⟨exts.length + 2, s', offset, x, exts, by omega, ?_, hin, ?_, htells, ?_⟩
    · rw [if_pos (.inl he)]
      exact (if_pos he).trans hwalk
    · exact (GtpuRx.ReadsFrom.readOctet s b 11).trans (readsFrom_walkExtensions hwalk)
    · unfold UdpData.TPdu
      rw [if_pos he, hdrop]
      exact hexts
  · refine ⟨2, s, _, .init, [], le_rfl, if_neg he, hs, .refl s, hinit, ?_⟩
    unfold UdpData.TPdu
    rw [if_neg he]
    refine ⟨rfl, ?_⟩
    simp only [he, false_or, Bool.false_eq_true]
    split_ifs <;> rfl

theorem filter_delivery (tunnel : UeidData) (originInstance : Int64) (tPdu : List UInt8)
    (q : Option (UInt8 × Bool)) :
    [tunnel.delivery originInstance tPdu q].filter GtpuEvent.isCallback =
      [tunnel.delivery originInstance tPdu q] := by
  cases q with
  | none => rfl
  | some q =>
    unfold UeidData.delivery
    split_ifs <;> rfl

/-- A complete G-PDU of a tunnel is delivered, or is empty. -/
theorem handleTunnelGpdu_of_complete (originInstance : Int64) (tunnel : UeidData)
    (hs : s.InRange b) (hcalls : s.callbacks = [])
    (hchain : b.msgHeader.e → 12 ≤ b.length ∧ ∃ exts tPdu,
      ExtHeaders (b.octet 11) (b.datagram.drop 12) exts tPdu ∧ ∀ h ∈ exts, h.ReportFits) :
    ∃ fuel s', g.handleTunnelGpdu fuel b originInstance tunnel s = some s' ∧ s'.InRange b ∧
      s'.locked = false ∧ (s'.callbacks = [] ∨ ∃ exts tPdu, b.TPdu exts tPdu ∧
        s'.callbacks = [tunnel.delivery originInstance tPdu (lastQos none exts)]) := by
  obtain ⟨fuel, s₁, offset, x, exts, hfuel, hwalk, hin, hreads, htells, htPdu⟩ :=
    extensionHeaders_of_complete hs hchain
  obtain ⟨s₂, hs₂⟩ : ∃ s₂, deliver b originInstance tunnel offset x s₁.unlock = s₂ := ⟨_, rfl⟩
  obtain ⟨hreads₂, hlocked₂⟩ := deliver_frame b offset x originInstance tunnel s₁.unlock
  have hevents₂ := deliver_spec b offset originInstance tunnel htells s₁.unlock
  rw [hs₂] at hreads₂ hlocked₂ hevents₂
  have hcalls₁ : s₁.callbacks = [] := by rw [GtpuRx.callbacks, hreads.events_eq]; exact hcalls
  have hin₂ : s₂.InRange b := fun i hi => hin i (hreads₂ ▸ hi)
  have hcalls₂ : s₂.callbacks = [] ∨ ∃ exts tPdu, b.TPdu exts tPdu ∧
      s₂.callbacks = [tunnel.delivery originInstance tPdu (lastQos none exts)] := by
    rcases hevents₂ with hsame | hevents
    · exact .inl (hsame ▸ hcalls₁)
    · refine .inr ⟨exts, _, htPdu, ?_⟩
      rw [GtpuRx.callbacks, hevents, List.filter_append, filter_delivery]
      exact congrArg (· ++ _) hcalls₁
  refine ⟨fuel, ?_⟩
  unfold handleTunnelGpdu
  dsimp only
  rw [hwalk]
  dsimp only
  rw [hs₂]
  split_ifs with hreport
  · obtain ⟨s₃, hsend⟩ := g.exists_createAndSendMsg hfuel 255 tunnel.outgoingTeid [] false 0
      0x84 (g.deliveryStatus (g.nrRlcGetAvailableTxSpace tunnel.ueId.toUInt32
        (tunnel.incomingRbId.toUInt32 + 3)) x.nrPdcpPduSn) (.inr rfl) s₂
    have hs₃ := g.sendsFrom_createAndSendMsg hsend
    exact ⟨s₃, hsend, fun i hi => hin₂ i (hs₃.reads_eq ▸ hi), hs₃.locked_eq.trans hlocked₂,
      hs₃.callbacks_eq ▸ hcalls₂⟩
  · exact ⟨s₂, rfl, hin₂, hlocked₂, hcalls₂⟩

/-! ## The datagrams that are received safely -/

/-- A run in which nothing is called, and the lock is not held. -/
structure Quiet (b : UdpData) (s : GtpuRx) : Prop where
  inRange : s.InRange b
  unlocked : s.locked = false
  no_callback : s.callbacks = []

theorem Quiet.readHeader (hlen : sizeofGtpv1uMsgHeader ≤ b.length) (hs : Quiet b s) :
    Quiet b (s.readHeader b).2 :=
  ⟨inRange_readHeader hlen hs.inRange, hs.unlocked, hs.no_callback⟩

theorem quiet_init (b : UdpData) : Quiet b .init :=
  ⟨by simp [GtpuRx.InRange, GtpuRx.init], rfl, rfl⟩

/-- The checks of the receiver. -/
theorem gtpv1uReceiver_cases (b : UdpData) :
    (∃ s, (∀ fuel, g.gtpv1uReceiver fuel b = some s) ∧ Quiet b s ∧
      ¬(sizeofGtpv1uMsgHeader ≤ b.length ∧
        b.msgHeader.msgLength + sizeofGtpv1uMsgHeader = b.length)) ∨
    ∃ s, Quiet b s ∧ sizeofGtpv1uMsgHeader ≤ b.length ∧
      b.msgHeader.msgLength + sizeofGtpv1uMsgHeader = b.length ∧
        ∀ fuel, g.gtpv1uReceiver fuel b =
          if b.msgHeader.msgType = 1 then g.gtpv1uHandleEchoReq fuel b s
          else if b.msgHeader.msgType = 254 then some (g.gtpv1uHandleEndMarker b s)
          else if b.msgHeader.msgType = 255 then g.gtpv1uHandleGpdu fuel b s
          else some s := by
  by_cases hshort : b.length < sizeofGtpv1uMsgHeader
  · refine .inl ⟨_, fun fuel => ?_, quiet_init b, fun h => hshort.not_ge h.1⟩
    unfold gtpv1uReceiver
    dsimp only
    rw [if_pos hshort, ite_self]
  have hlen := not_lt.1 hshort
  have h0 : b.length ≠ 0 := by
    unfold sizeofGtpv1uMsgHeader at hlen
    omega
  have hrun : ∀ fuel, g.gtpv1uReceiver fuel b =
      if b.msgHeader.msgLength + sizeofGtpv1uMsgHeader ≠ b.length then
        some (GtpuRx.init.readHeader b).2
      else if b.msgHeader.msgType = 1 then
        g.gtpv1uHandleEchoReq fuel b (GtpuRx.init.readHeader b).2
      else if b.msgHeader.msgType = 254 then
        some (g.gtpv1uHandleEndMarker b (GtpuRx.init.readHeader b).2)
      else if b.msgHeader.msgType = 255 then
        g.gtpv1uHandleGpdu fuel b (GtpuRx.init.readHeader b).2
      else some (GtpuRx.init.readHeader b).2 :=
    fun fuel => (if_neg h0).trans (if_neg hshort)
  have hquiet := (quiet_init b).readHeader hlen
  by_cases hmatch : b.msgHeader.msgLength + sizeofGtpv1uMsgHeader = b.length
  · exact .inr ⟨_, hquiet, hlen, hmatch, fun fuel => by rw [hrun, if_neg (not_not.2 hmatch)]⟩
  · exact .inl ⟨_, fun fuel => by rw [hrun, if_pos hmatch], hquiet, fun h => hmatch h.2⟩

/-- The echo request has a sequence number, if it should. -/
theorem echoReq_iff (hlen : sizeofGtpv1uMsgHeader ≤ b.length) (hs : Quiet b s) :
    (∃ fuel s', g.gtpv1uHandleEchoReq fuel b s = some s' ∧ s'.InRange b ∧ s'.locked = false) ↔
      (b.msgHeader.version = 1 → b.msgHeader.pt → b.msgHeader.s → 10 ≤ b.length) := by
  have hhead := hs.readHeader hlen
  unfold gtpv1uHandleEchoReq
  dsimp only
  by_cases hgtp : (s.readHeader b).1.version ≠ 1 ∨ (s.readHeader b).1.pt = false
  · simp only [if_pos hgtp]
    refine iff_of_true ⟨0, _, rfl, hhead.inRange, hhead.unlocked⟩ fun hv hp => ?_
    exact absurd hgtp (by simp [show (s.readHeader b).1 = b.msgHeader from rfl, hv, hp])
  simp only [if_neg hgtp]
  by_cases hseq : (s.readHeader b).1.s = false
  · simp only [if_pos hseq]
    refine iff_of_true ⟨0, _, rfl, hhead.inRange, hhead.unlocked⟩ fun _ _ h => ?_
    exact absurd (hseq.symm.trans h) Bool.false_ne_true
  simp only [if_neg hseq]
  have hgtp' := not_or.1 hgtp
  rw [not_not, Bool.not_eq_false] at hgtp'
  have hcond : (b.msgHeader.version = 1 → b.msgHeader.pt → b.msgHeader.s → 10 ≤ b.length) ↔
      10 ≤ b.length :=
    ⟨fun h => h hgtp'.1 hgtp'.2 (Bool.not_eq_false _ ▸ hseq), fun h _ _ _ => h⟩
  have hread : ∀ s' : GtpuRx, s'.reads = (((s.readHeader b).2.readOctet b
      sizeofGtpv1uMsgHeader).2.readOctet b (sizeofGtpv1uMsgHeader + 1)).2.reads →
        (s'.InRange b ↔ 10 ≤ b.length) := by
    intro s' hreads
    have hiff : s'.InRange b ↔ (((s.readHeader b).2.readOctet b
        sizeofGtpv1uMsgHeader).2.readOctet b (sizeofGtpv1uMsgHeader + 1)).2.InRange b := by
      unfold GtpuRx.InRange
      rw [hreads]
    rw [hiff, inRange_readOctet, inRange_readOctet]
    simp only [hhead.inRange, true_and, sizeofGtpv1uMsgHeader]
    omega
  rw [hcond]
  constructor
  · rintro ⟨fuel, s', hsend, hin, -⟩
    exact (hread s' (g.sendsFrom_createAndSendMsg hsend).reads_eq).1 hin
  · intro hten
    obtain ⟨s', hsend⟩ := g.exists_createAndSendMsg le_rfl 2 (s.readHeader b).1.teid [14, 0] true
      (UInt16.ofNat (((s.readHeader b).2.readOctet b sizeofGtpv1uMsgHeader).1.toNat * 256 +
        (((s.readHeader b).2.readOctet b sizeofGtpv1uMsgHeader).2.readOctet b
          (sizeofGtpv1uMsgHeader + 1)).1.toNat)) 0 [] (.inl rfl)
      (((s.readHeader b).2.readOctet b sizeofGtpv1uMsgHeader).2.readOctet b
        (sizeofGtpv1uMsgHeader + 1)).2
    have hs' := g.sendsFrom_createAndSendMsg hsend
    exact ⟨2, s', hsend, (hread s' hs'.reads_eq).2 hten, hs'.locked_eq.trans hhead.unlocked⟩

/-- A G-PDU whose extension headers are not a chain is not handled safely : if the walk ends, it has
read past the datagram, or it returns with the lock held. -/
theorem chain_of_handleTunnelGpdu {originInstance : Int64} {tunnel : UeidData} {fuel : ℕ}
    (hlocked : s.locked = true) (h : g.handleTunnelGpdu fuel b originInstance tunnel s = some s')
    (hin : s'.InRange b) (hunlocked : s'.locked = false) (he : b.msgHeader.e) :
    12 ≤ b.length ∧ ∃ exts tPdu, ExtHeaders (b.octet 11) (b.datagram.drop 12) exts tPdu ∧
      ∀ h ∈ exts, h.ReportFits := by
  have hwalk : ∀ offset, b.extensionHeaders fuel offset s = b.walkExtensions fuel
      (s.readOctet b (offset - 1)).1 offset .init (s.readOctet b (offset - 1)).2 :=
    fun offset => if_pos he
  unfold handleTunnelGpdu at h
  dsimp only at h
  rw [if_pos (.inl he), hwalk] at h
  have hreads := GtpuRx.ReadsFrom.readOctet s b (sizeofGtpv1uMsgHeader + 4 - 1)
  split at h
  · cases h
  · next s₁ heq =>
    obtain rfl := Option.some.inj h
    have hsame := (hreads.trans (readsFrom_walkExtensions heq)).locked_eq
    rw [hlocked, hunlocked] at hsame
    exact absurd hsame Bool.false_ne_true
  · next s₁ offset x heq =>
    have hin₁ : s₁.InRange b := by
      have hdeliver : (deliver b originInstance tunnel offset x s₁.unlock).reads = s₁.reads :=
        (deliver_frame b offset x originInstance tunnel s₁.unlock).1
      have hsame : s'.reads = s₁.reads := by
        split_ifs at h
        · exact (g.sendsFrom_createAndSendMsg h).reads_eq.trans hdeliver
        · obtain rfl := Option.some.inj h
          exact hdeliver
      exact fun i hi => hin i (hsame ▸ hi)
    have hfirst := (inRange_readOctet.1 ((readsFrom_walkExtensions heq).inRange hin₁)).2
    exact ⟨hfirst, extHeaders_of_walkExtensions rfl heq hin₁⟩

/-- A G-PDU of a tunnel is handled safely if its extension headers are a chain. -/
theorem gpdu_iff (hlen : sizeofGtpv1uMsgHeader ≤ b.length) (hs : Quiet b s) :
    (∃ fuel s', g.gtpv1uHandleGpdu fuel b s = some s' ∧ s'.InRange b ∧ s'.locked = false ∧
      (s'.callbacks = [] ∨ g.Delivered b s')) ↔
      (b.msgHeader.version = 1 → b.msgHeader.pt → g.inst?.isSome →
        (g.endPoints.handleGpdu b.msgHeader.teid).isSome → b.msgHeader.e →
          12 ≤ b.length ∧ ∃ exts tPdu, ExtHeaders (b.octet 11) (b.datagram.drop 12) exts tPdu ∧
            ∀ h ∈ exts, h.ReportFits) := by
  have hhead := hs.readHeader hlen
  unfold gtpv1uHandleGpdu
  dsimp only
  by_cases hgtp : (s.readHeader b).1.version ≠ 1 ∨ (s.readHeader b).1.pt = false
  · simp only [if_pos hgtp]
    refine iff_of_true ⟨0, _, rfl, hhead.inRange, hhead.unlocked, .inl hhead.no_callback⟩
      fun hv hp => ?_
    exact absurd hgtp (by simp [show (s.readHeader b).1 = b.msgHeader from rfl, hv, hp])
  simp only [if_neg hgtp]
  cases hinst : g.inst? with
  | none =>
    exact iff_of_true ⟨0, _, rfl, hhead.inRange, rfl, .inl hhead.no_callback⟩
      fun _ _ h => absurd h Bool.false_ne_true
  | some originInstance =>
    have hteid : (s.readHeader b).1.teid = b.msgHeader.teid := rfl
    rw [hteid]
    cases htunnel : g.endPoints.handleGpdu b.msgHeader.teid with
    | none =>
      exact iff_of_true ⟨0, _, rfl, hhead.inRange, rfl, .inl hhead.no_callback⟩
        fun _ _ _ h => absurd h Bool.false_ne_true
    | some tunnel =>
      constructor
      · rintro ⟨fuel, s', h, hin, hunlocked, -⟩ - - - - he
        exact g.chain_of_handleTunnelGpdu rfl h hin hunlocked he
      · intro hchain
        have hgtp' := not_or.1 hgtp
        rw [not_not, Bool.not_eq_false] at hgtp'
        obtain ⟨fuel, s', h, hin, hunlocked, hcalls⟩ := g.handleTunnelGpdu_of_complete
          (s := (s.readHeader b).2.lock) originInstance tunnel hhead.inRange hhead.no_callback
          (hchain hgtp'.1 hgtp'.2 rfl rfl)
        refine ⟨fuel, s', h, hin, hunlocked, hcalls.imp_right ?_⟩
        rintro ⟨exts, tPdu, htPdu, heq⟩
        exact ⟨originInstance, tunnel, exts, tPdu, hinst, htunnel, htPdu, heq⟩

theorem endMarker_quiet (hlen : sizeofGtpv1uMsgHeader ≤ b.length) (hs : Quiet b s) :
    (g.gtpv1uHandleEndMarker b s).InRange b ∧ (g.gtpv1uHandleEndMarker b s).locked = false := by
  have hhead := hs.readHeader hlen
  unfold gtpv1uHandleEndMarker
  dsimp only
  split_ifs
  · exact ⟨hhead.inRange, hhead.unlocked⟩
  · split <;> exact ⟨hhead.inRange, rfl⟩

/-- A datagram is received safely if and only if it is complete. -/
theorem gtpv1uReceiver_ok_iff (g : GtpuContext) (b : UdpData) : g.ReceiveOk b ↔ g.Complete b := by
  unfold ReceiveOk Complete
  rcases g.gtpv1uReceiver_cases b with ⟨s, hrun, hs, hno⟩ | ⟨s, hs, hlen, hmatch, hrun⟩
  · exact iff_of_true ⟨0, s, hrun 0, hs.inRange, hs.unlocked, fun _ => .inl hs.no_callback⟩
      fun hlen hmatch => absurd ⟨hlen, hmatch⟩ hno
  simp only [hrun, hlen, hmatch, forall_true_left]
  by_cases h1 : b.msgHeader.msgType = 1
  · have hne : b.msgHeader.msgType ≠ 255 := by rw [h1]; decide
    simp only [if_pos h1]
    refine Iff.trans ?_ ((g.echoReq_iff hlen hs).trans ?_)
    · exact ⟨fun ⟨fuel, s', h, hin, hlock, _⟩ => ⟨fuel, s', h, hin, hlock⟩,
        fun ⟨fuel, s', h, hin, hlock⟩ => ⟨fuel, s', h, hin, hlock, fun h => absurd h hne⟩⟩
    · exact ⟨fun h hv hp => ⟨fun _ => h hv hp, fun h => absurd h hne⟩,
        fun h hv hp => (h hv hp).1 h1⟩
  by_cases h254 : b.msgHeader.msgType = 254
  · have hne : b.msgHeader.msgType ≠ 255 := by rw [h254]; decide
    obtain ⟨hin, hlock⟩ := g.endMarker_quiet hlen hs
    simp only [if_neg h1, if_pos h254]
    exact iff_of_true ⟨0, _, rfl, hin, hlock, fun h => absurd h hne⟩
      fun _ _ => ⟨fun h => absurd h h1, fun h => absurd h hne⟩
  by_cases h255 : b.msgHeader.msgType = 255
  · simp only [if_neg h1, if_neg h254, if_pos h255]
    refine Iff.trans ?_ ((g.gpdu_iff hlen hs).trans ?_)
    · simp only [h255, forall_true_left]
    · exact ⟨fun h hv hp => ⟨fun h1' => absurd h1' h1, fun _ => h hv hp⟩,
        fun h hv hp => (h hv hp).2 h255⟩
  · simp only [if_neg h1, if_neg h254, if_neg h255]
    exact iff_of_true ⟨0, s, rfl, hs.inRange, hs.unlocked, fun h => absurd h h255⟩
      fun _ _ => ⟨fun h => absurd h h1, fun h => absurd h h255⟩

end GtpuContext

end Walk

namespace GtpuContext

/-- A socket with one tunnel, of TEID 1. -/
def oneTunnelContext : GtpuContext where
  h := 5
  legacyInstanceMapping := 0
  instances := (∅ : Std.ExtTreeMap UInt64 Int64).insert 5 7
  endPoints := ⟨∅, (∅ : Std.ExtTreeMap UInt64 UeidData).insert 1 ⟨9, 1, 100, 2, 200, 10⟩⟩
  peerPort := 2152
  peerIp := 0
  nrRlcGetAvailableTxSpace := fun _ _ => 0
  uninitialized := (0, 0)

/-- A G-PDU with a PDU session container, and two octets of data. -/
def sampleGpdu : UdpData where
  datagram := [0x34, 255, 0, 10, 0, 0, 0, 1, 0, 0, 0, 0x85, 1, 0, 5, 0, 0xab, 0xcd]
  stale := fun _ => 0
  length_le := by decide

example : (oneTunnelContext.gtpv1uReceiver 2 sampleGpdu).map (fun s => (s.locked, s.events)) =
    some (false, [.callBackSDAP 200 7 9 1 [0xab, 0xcd] 5 false 10]) := by decide +kernel

/-- A G-PDU with an extension header of length zero. -/
def zeroLengthGpdu : UdpData where
  datagram := [0x34, 255, 0, 5, 0, 0, 0, 1, 0, 0, 0, 0x40, 0]
  stale := fun _ => 0
  length_le := by decide

/-- An extension header of length zero is walked for ever. -/
theorem gtpv1uReceiver_not_ok : ¬∀ (g : GtpuContext) (b : UdpData), g.ReceiveOk b := by
  intro h
  obtain ⟨fuel, s, hrun, hin, hunlocked, hcalls⟩ := h oneTunnelContext zeroLengthGpdu
  rcases oneTunnelContext.gtpv1uReceiver_cases zeroLengthGpdu with
    ⟨_, -, -, hno⟩ | ⟨s₀, hs₀, hlen, -, hrun₀⟩
  · exact hno ⟨by decide, by decide⟩
  · rw [hrun₀, if_neg (by decide), if_neg (by decide), if_pos (by decide)] at hrun
    obtain ⟨-, exts, tPdu, hchain, -⟩ := (oneTunnelContext.gpdu_iff hlen hs₀).1
      ⟨fuel, s, hrun, hin, hunlocked, hcalls (by decide)⟩ (by decide) (by decide)
        (by decide +kernel) (by decide +kernel) (by decide)
    exact not_extHeaders_zero (by decide) hchain

end GtpuContext

end NrStack
