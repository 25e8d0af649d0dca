import NrStack.Flexric.TcSm

/-!
# What the traffic-control codec writes and reads

`sized_tc*` : the sizes computed beforehand are those of the formats that the encoder writes.
`finds_tc*` : the decoder reads those formats, with the same assertions that the buffer goes on. It
finds only messages that carry a zero where the encoder drops a member : the `id` of a queue, and the
`dummy` of a round-robin scheduler.
-/

namespace NrStack

open Wire

/-! ## Known tags, and the members that are dropped -/

/-- The tag is known. -/
def TcSch.Known : TcSch → Prop
  | rr _ => True
  | prio _ => True
  | other _ _ => False

/-- The tag is known. -/
def TcCls.Known : TcCls → Prop
  | rr _ => True
  | osi _ => True
  | sto _ => True
  | other _ _ => False

/-- The tag is known. -/
def TcQueueUnion.Known : TcQueueUnion → Prop
  | fifo _ => True
  | codel _ => True
  | ecn _ => True
  | other _ _ => False

/-- The tags are known. -/
structure TcIndMsg.Known (ind : TcIndMsg) : Prop where
  sch : ind.sch.Known
  cls : ind.cls.Known
  queues : ∀ x ∈ ind.queues.contents, x.q.union.Known

/-- The encoder drops nothing of the scheduler but a zero. -/
def TcSch.Carried : TcSch → Prop
  | rr dummy => dummy = 0
  | prio _ => True
  | other _ _ => True

/-- The encoder drops nothing but zeros. -/
def TcIndMsg.Carried (ind : TcIndMsg) : Prop :=
  ind.sch.Carried ∧ ∀ x ∈ ind.queues.contents, x.q.id = 0

/-! ## The sizes -/

theorem sized_tcMtr (m : TcMtr) : Sized (calMtrPayload m) (TcEnc.mtr m) :=
  (Sized.u32 _).append (.u32 _)

theorem sized_tcSch {s : TcSch} (h : s.Known) :
    ∃ n, calSchPayload s = some n ∧ Sized n (TcEnc.sch s) := by
  cases s with
  | rr dummy => exact ⟨_, rfl, Sized.u32 _⟩
  | prio qPrio =>
    exact ⟨_, rfl, ((Sized.u32 _).append (Sized.words qPrio)).of_eq (by omega)⟩
  | other type htype => exact h.elim

theorem sized_tcPcr (p : TcPcr) : Sized (calPcrPayload p) (TcEnc.pcr p) :=
  (Sized.u32 _).append ((Sized.u32 _).append (sized_tcMtr _))

theorem sized_tcClsOsiFilter (flt : TcClsOsiFilter) : Sized 48 (TcEnc.clsOsiFilter flt) :=
  (Sized.u32 _).append ((Sized.u32 _).append (((Sized.u64 _).append (.u64 _)).append
    (((Sized.u32 _).append ((Sized.u32 _).append (.u32 _))).append
      ((Sized.u32 _).append ((Sized.u32 _).append (.u32 _))))))

theorem sized_tcCls {c : TcCls} (h : c.Known) :
    ∃ n, calClsPayload c = some n ∧ Sized n (TcEnc.cls c) := by
  cases c with
  | rr dummy => exact ⟨_, rfl, (Sized.u32 _).append (.u32 _)⟩
  | osi flt =>
    have hflt : Sized (4 + (flt.contents.map fun _ => 48).sum) (arrayWire TcEnc.clsOsiFilter flt) :=
      .array fun x _ => sized_tcClsOsiFilter x
    rw [List.map_const', List.sum_replicate, smul_eq_mul, Nat.mul_comm] at hflt
    exact ⟨_, rfl, (Sized.u32 _).append hflt⟩
  | sto dummy => exact ⟨_, rfl, (Sized.u32 _).append (.u32 _)⟩
  | other type htype => exact h.elim

theorem sized_tcShp (s : TcShp) : Sized (calShpPayload s) (TcEnc.shp s) :=
  (Sized.u32 _).append ((Sized.u32 _).append ((Sized.u32 _).append (sized_tcMtr _)))

theorem sized_tcPlc (p : TcPlc) : Sized (calPlcPayload p) (TcEnc.plc p) :=
  (Sized.u32 _).append ((sized_tcMtr _).append ((Sized.u32 _).append ((Sized.u32 _).append
    ((Sized.u32 _).append ((Sized.u32 _).append ((Sized.u32 _).append (.u32 _)))))))

theorem sized_tcQueueData {loss : Type} {enc : loss → Wire} (henc : ∀ x, Sized 4 (enc x))
    (q : TcQueueData loss) : Sized 32 (TcEnc.queueData enc q) :=
  (Sized.u32 _).append ((Sized.u32 _).append ((Sized.u32 _).append ((Sized.u32 _).append
    ((henc _).append ((Sized.u32 _).append (.u64 _))))))

theorem sized_tcQ {q : TcQueue} (h : q.union.Known) :
    ∃ n, calQPayload q = some n ∧ Sized n (TcEnc.q q) := by
  obtain ⟨id, union⟩ := q
  cases union with
  | fifo fifo => exact ⟨_, rfl, (Sized.u32 _).append (sized_tcQueueData (fun _ => .u32 _) fifo)⟩
  | codel codel => exact ⟨_, rfl, (Sized.u32 _).append (sized_tcQueueData (fun _ => .u32 _) codel)⟩
  | ecn ecn => exact ⟨_, rfl, (Sized.u32 _).append (sized_tcQueueData (fun _ => .u32 _) ecn)⟩
  | other type htype => exact h.elim

theorem sized_tcShpPlcQ {xs : List TcShpPlcQ} (h : ∀ x ∈ xs, x.q.union.Known) :
    ∃ n, calQShpPlc xs = some n ∧ Sized n (xs.flatMap TcEnc.shpPlcQ) := by
  induction xs with
  | nil => exact ⟨0, rfl, .nil⟩
  | cons x xs ih =>
    obtain ⟨szQ, hq, hsizedQ⟩ := sized_tcQ (h x List.mem_cons_self)
    obtain ⟨sz, hsz, hsized⟩ := ih fun y hy => h y (List.mem_cons_of_mem _ hy)
    refine ⟨szQ + calShpPayload x.shp + calPlcPayload x.plc + sz, by rw [calQShpPlc, hq, hsz]; rfl,
      ?_⟩
    have hx : Sized _ (TcEnc.shpPlcQ x) :=
      (sized_tcShp x.shp).append
        ((sized_tcPlc x.plc).append (hsizedQ.append Sized.nil.room).room).room
    exact (hx.append hsized).of_eq (by omega)

theorem sized_tcIndMsg {ind : TcIndMsg} (h : ind.Known) :
    ∃ n, calTcIndMsgPayload ind = some n ∧ Sized n (TcEnc.indMsg ind) := by
  obtain ⟨szSch, hsch, hsizedSch⟩ := sized_tcSch h.sch
  obtain ⟨szCls, hcls, hsizedCls⟩ := sized_tcCls h.cls
  obtain ⟨szQ, hq, hsizedQ⟩ := sized_tcShpPlcQ h.queues
  refine ⟨szSch + calPcrPayload ind.pcr + szCls + 4 + szQ + 8,
    by rw [calTcIndMsgPayload, hsch, hcls, hq]; rfl, ?_⟩
  have hqueues : Sized _ (TcEnc.queues ind.queues) := (Sized.u32 _).append hsizedQ.room
  exact (hsizedSch.append ((sized_tcPcr ind.pcr).append ((hsizedCls.append
    (hqueues.append (.u64 ind.tstamp)).room).room)).room).of_eq (by omega)

/-- The time stamp ends the message, so the buffer goes on before it. -/
theorem goesOn_tcIndMsg (ind : TcIndMsg) : (TcEnc.indMsg ind).GoesOn := by
  have htstamp : (u64Wire ind.tstamp).octets ≠ [] := fun h => by
    have hlen := congrArg List.length h
    rw [length_octets_u64Wire] at hlen
    cases hlen
  have happend : TcEnc.indMsg ind = (TcEnc.sch ind.sch ++ (.room :: (TcEnc.pcr ind.pcr ++ (.room ::
      (TcEnc.cls ind.cls ++ (.room :: TcEnc.queues ind.queues)))))) ++ u64Wire ind.tstamp := by
    simp only [TcEnc.indMsg, List.append_assoc, List.cons_append]
  rw [happend]
  exact .of_octets (goesOn_wordWire 8 _) htstamp

/-! ## The decoder -/

theorem finds_tcSch : Finds TcDec.sch TcEnc.sch TcSch.Carried := by
  refine .tagged TcSch.type (fun _ => List.prefix_append _ _) fun type => ?_
  split_ifs with hrr hprio
  · refine (Finds.pure fun s => ?_).congr (fun _ => Iff.rfl) fun s hs => ?_
    · cases s <;> grind [TcSch.type, TcSch.Carried]
    · cases s with
      | rr dummy => rfl
      | prio qPrio => exact absurd (hs.1.trans hrr) UInt32.zero_ne_one.symm
      | other type htype => exact absurd (hs.1.trans hrr) htype.1
  · refine Finds.u32.arrayOf.case (fun s => ?_) fun qPrio => rfl
    cases s <;> grind [TcSch.type, TcSch.Carried]
  · refine .unknown (fun s hs => ?_) ⟨.other type ⟨hrr, hprio⟩, rfl, trivial⟩
    cases s with
    | rr dummy => exact absurd hs.1.symm hrr
    | prio qPrio => exact absurd hs.1.symm hprio
    | other type htype => rfl

theorem finds_tcMtr : Finds TcDec.mtr TcEnc.mtr fun _ => True := by
  refine Finds.u32.field TcMtr.bnd fun bnd =>
    Finds.u32.last TcMtr.timeWindowMs (fun m => ?_) fun _ => rfl
  simp [TcMtr.ext_iff]

theorem finds_tcPcr : Finds TcDec.pcr TcEnc.pcr fun _ => True := by
  refine Finds.u32.field TcPcr.type fun type => Finds.u32.field TcPcr.id fun id =>
    (finds_tcMtr).last TcPcr.mtr (fun p => ?_) fun _ => rfl
  simp only [TcPcr.ext_iff]
  tauto

theorem finds_tcL3Filter : Finds TcDec.l3Filter TcEnc.l3Filter fun _ => True := by
  refine Finds.u64.field L3Filter.srcAddr fun srcAddr =>
    Finds.u64.last L3Filter.dstAddr (fun l3 => ?_) fun _ => rfl
  simp [L3Filter.ext_iff]

theorem finds_tcL4Filter : Finds TcDec.l4Filter TcEnc.l4Filter fun _ => True := by
  refine Finds.u32.field L4Filter.srcPort fun srcPort =>
    Finds.u32.field L4Filter.dstPort fun dstPort =>
    Finds.u32.last L4Filter.protocol (fun l4 => ?_) fun _ => rfl
  simp only [L4Filter.ext_iff]
  tauto

theorem finds_tcClsOsiFilter : Finds TcDec.clsOsiFilter TcEnc.clsOsiFilter fun _ => True := by
  refine Finds.u32.field TcClsOsiFilter.id fun id =>
    Finds.u32.field TcClsOsiFilter.idPad fun idPad =>
    (finds_tcL3Filter).field TcClsOsiFilter.l3 fun l3 =>
    (finds_tcL4Filter).field TcClsOsiFilter.l4 fun l4 =>
    Finds.u32.field TcClsOsiFilter.l7Dummy fun l7Dummy =>
    Finds.u32.field TcClsOsiFilter.dstQueue fun dstQueue =>
    Finds.u32.last TcClsOsiFilter.dstQueuePad (fun flt => ?_) fun _ => rfl
  simp only [TcClsOsiFilter.ext_iff]
  tauto

theorem finds_tcCls : Finds TcDec.cls TcEnc.cls fun _ => True := by
  refine .tagged TcCls.type (fun _ => List.prefix_append _ _) fun type => ?_
  split_ifs with hrr hosi hsto
  · refine Finds.u32.case (fun c => ?_) fun dummy => rfl
    cases c <;> grind [TcCls.type]
  · refine (finds_tcClsOsiFilter).arrayOf.case (fun c => ?_) fun flt => rfl
    cases c <;> grind [TcCls.type]
  · refine Finds.u32.case (fun c => ?_) fun dummy => rfl
    cases c <;> grind [TcCls.type]
  · refine .unknown (fun c hc => ?_) ⟨.other type ⟨hrr, hosi, hsto⟩, rfl, trivial⟩
    cases c with
    | rr dummy => exact absurd hc.1.symm hrr
    | osi flt => exact absurd hc.1.symm hosi
    | sto dummy => exact absurd hc.1.symm hsto
    | other type htype => rfl

theorem finds_tcShp : Finds TcDec.shp TcEnc.shp fun _ => True := by
  refine Finds.u32.field TcShp.id fun id => Finds.u32.field TcShp.active fun active =>
    Finds.u32.field TcShp.maxRateKbps fun maxRateKbps =>
    (finds_tcMtr).last TcShp.mtr (fun s => ?_) fun _ => rfl
  simp only [TcShp.ext_iff]
  tauto

theorem finds_tcDrp : Finds TcDec.drp TcEnc.drp fun _ => True :=
  Finds.u32.last TcDrp.droppedPkts (fun _ => iff_of_true trivial ⟨trivial, rfl⟩) fun _ => rfl

theorem finds_tcMrk : Finds TcDec.mrk TcEnc.mrk fun _ => True :=
  Finds.u32.last TcMrk.markedPkts (fun _ => iff_of_true trivial ⟨trivial, rfl⟩) fun _ => rfl

theorem finds_tcPlc : Finds TcDec.plc TcEnc.plc fun _ => True := by
  refine Finds.u32.field TcPlc.id fun id => (finds_tcMtr).field TcPlc.mtr fun mtr =>
    (finds_tcDrp).field TcPlc.drp fun drp => (finds_tcMrk).field TcPlc.mrk fun mrk =>
    Finds.u32.field TcPlc.maxRateKbps fun maxRateKbps =>
    Finds.u32.field TcPlc.active fun active => Finds.u32.field TcPlc.dstId fun dstId =>
    Finds.u32.last TcPlc.devId (fun p => ?_) fun _ => rfl
  simp only [TcPlc.ext_iff]
  tauto

theorem finds_tcQueueData {loss : Type} {dec : Reader loss} {enc : loss → Wire}
    (h : Finds dec enc fun _ => True) :
    Finds (TcDec.queueData dec) (TcEnc.queueData enc) fun _ => True := by
  refine Finds.u32.field TcQueueData.bytes fun bytes =>
    Finds.u32.field TcQueueData.pkts fun pkts =>
    Finds.u32.field TcQueueData.bytesFwd fun bytesFwd =>
    Finds.u32.field TcQueueData.pktsFwd fun pktsFwd =>
    h.field TcQueueData.loss fun loss =>
    Finds.u32.field TcQueueData.avgSojournTime fun avgSojournTime =>
    Finds.u64.last TcQueueData.lastSojournTime (fun q => ?_) fun _ => rfl
  simp only [TcQueueData.ext_iff]
  tauto

theorem finds_tcQueueUnion : Finds TcDec.queueUnion TcEnc.queueUnion fun _ => True := by
  refine .tagged TcQueueUnion.type (fun _ => List.prefix_append _ _) fun type => ?_
  split_ifs with hfifo hcodel hecn
  · refine (finds_tcQueueData finds_tcDrp).case (fun u => ?_) fun fifo => rfl
    cases u <;> grind [TcQueueUnion.type]
  · refine (finds_tcQueueData finds_tcDrp).case (fun u => ?_) fun codel => rfl
    cases u <;> grind [TcQueueUnion.type]
  · refine (finds_tcQueueData finds_tcMrk).case (fun u => ?_) fun ecn => rfl
    cases u <;> grind [TcQueueUnion.type]
  · refine .unknown (fun u hu => ?_) ⟨.other type ⟨hfifo, hcodel, hecn⟩, rfl, trivial⟩
    cases u with
    | fifo fifo => exact absurd hu.1.symm hfifo
    | codel codel => exact absurd hu.1.symm hcodel
    | ecn ecn => exact absurd hu.1.symm hecn
    | other type htype => rfl

theorem finds_tcQ : Finds TcDec.q TcEnc.q fun q => q.id = 0 := by
  refine (finds_tcQueueUnion).last TcQueue.union (fun q => ?_) fun _ => rfl
  simp [TcQueue.ext_iff]

theorem finds_tcShpPlcQ : Finds TcDec.shpPlcQ TcEnc.shpPlcQ fun x => x.q.id = 0 := by
  refine (finds_tcShp).field TcShpPlcQ.shp fun shp => Finds.afterRoom <|
    (finds_tcPlc).field TcShpPlcQ.plc fun plc => Finds.afterRoom <|
    (finds_tcQ).bind TcShpPlcQ.q (fun x hx => hx.2.2) fun q hq =>
    (Finds.pure fun x => ?_).afterRoom
  simp only [TcShpPlcQ.ext_iff]
  constructor
  · tauto
  · rintro ⟨rfl, rfl, rfl⟩
    exact ⟨rfl, rfl, rfl, hq⟩

theorem finds_tcQueues :
    Finds TcDec.queues TcEnc.queues fun xs => ∀ x ∈ xs.contents, x.q.id = 0 :=
  Finds.u32.field WireArray.len fun len => ((finds_tcShpPlcQ).contents len).afterRoom

theorem finds_tcIndMsg : Finds TcDec.indMsg TcEnc.indMsg TcIndMsg.Carried := by
  refine (finds_tcSch).bind TcIndMsg.sch (fun ind hind => hind.1) fun sch hsch => Finds.afterRoom <|
    (finds_tcPcr).field TcIndMsg.pcr fun pcr => Finds.afterRoom <|
    (finds_tcCls).field TcIndMsg.cls fun cls => Finds.afterRoom <|
    (finds_tcQueues).bind TcIndMsg.queues (fun ind hind => hind.2.2.2.2) fun queues hqueues =>
    Finds.u64.last TcIndMsg.tstamp (fun ind => ?_) fun _ => rfl
  simp only [TcIndMsg.ext_iff, TcIndMsg.Carried]
  constructor
  · tauto
  · rintro ⟨-, rfl, rfl, rfl, rfl, -⟩
    exact ⟨rfl, rfl, rfl, rfl, hsch, hqueues⟩

/-! ## Round trips -/

/-- A message comes back exactly if nothing of it is dropped. -/
theorem tcIndMsg_roundTrips_iff {ind : TcIndMsg} (h : ind.Known) :
    RoundTrips calTcIndMsgPayload tcEncIndMsgPlain tcDecIndMsgPlain ind ↔ ind.Carried := by
  refine ⟨(finds_tcIndMsg).of_round_trip, fun hcarried => ?_⟩
  obtain ⟨n, hcal, hsized⟩ := sized_tcIndMsg h
  refine ⟨(TcEnc.indMsg ind).octets, ?_, by rw [hcal, hsized.length], ?_⟩
  · rw [tcEncIndMsgPlain, hcal]
    exact hsized.write (goesOn_tcIndMsg ind)
  · exact (finds_tcIndMsg).round_trip hcarried hsized.known (goesOn_tcIndMsg ind)

end NrStack
