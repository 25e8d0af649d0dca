import Mathlib.Tactic

/-!
# The tunnel tables of GTP-U

`gtp_itf.cpp` keeps two maps in opposite directions : `ue2te_mapping` leads from a UE id and a
bearer id to the bearer, `te2ue_mapping` from an incoming TEID to the UE it belongs to. A packet to
be sent is looked up in the first (`sendDirect`), one that was received in the second
(`handleGpdu`).

The keys of both are 64 bits wide, whatever the type of the id that is looked up, so an `int` is
sign-extended (`bearerKey`). `gtpv1u_update_ue_id` goes through the bearers by position
(`updateUeIds`), and `operator[]` adds the bearer and the TEID it does not find.
-/

namespace NrStack

open Std

/-! ## Maps -/

section Maps

variable {α β : Type*} [Ord α] [TransOrd α] [LawfulEqOrd α]

theorem getElem?_insert_ite (t : ExtTreeMap α β) (k a : α) (v : β) [Decidable (k = a)] :
    (t.insert k v)[a]? = if k = a then some v else t[a]? := by
  rw [ExtTreeMap.getElem?_insert]
  exact if_congr LawfulEqOrd.compare_eq_iff_eq rfl rfl

theorem getElem?_erase_ite (t : ExtTreeMap α β) (k a : α) [Decidable (k = a)] :
    (t.erase k)[a]? = if k = a then none else t[a]? := by
  rw [ExtTreeMap.getElem?_erase]
  exact if_congr LawfulEqOrd.compare_eq_iff_eq rfl rfl

omit [LawfulEqOrd α] in
theorem mem_iff_getElem? {t : ExtTreeMap α β} {k : α} : k ∈ t ↔ ∃ v, t[k]? = some v := by
  rw [← ExtTreeMap.isSome_getElem?_iff_mem, Option.isSome_iff_exists]

theorem mem_insert_iff {t : ExtTreeMap α β} {k a : α} {v : β} :
    a ∈ t.insert k v ↔ k = a ∨ a ∈ t := by
  rw [ExtTreeMap.mem_insert, LawfulEqOrd.compare_eq_iff_eq]

/-- Storing what is there changes nothing. -/
theorem insert_getD_of_mem [DecidableEq α] {t : ExtTreeMap α β} {k : α} (d : β) (h : k ∈ t) :
    t.insert k (t.getD k d) = t := by
  obtain ⟨v, hv⟩ := mem_iff_getElem?.1 h
  refine ExtTreeMap.ext_getElem? fun a => ?_
  rw [getElem?_insert_ite, ExtTreeMap.getD_eq_getD_getElem?, hv]
  split_ifs with ha
  · rw [← ha, hv, Option.getD_some]
  · rfl

end Maps

/-! ## The tables -/

/-- `gtpv1u_bearer_t`. -/
structure GtpuBearer where
  teidIncoming : UInt32
  teidOutgoing : UInt32
  outgoingIpAddr : Vector UInt8 4
  outgoingIp6Addr : Vector UInt8 16
  outgoingPort : UInt16
  seqNum : UInt16
  npduNum : UInt8
  outgoingQfi : Int32
deriving DecidableEq

/-- What `operator[]` adds for a bearer id it does not find. -/
def GtpuBearer.zero : GtpuBearer :=
  ⟨0, 0, .replicate 4 0, .replicate 16 0, 0, 0, 0, 0⟩

/-- `ueidData_t` ; the callbacks are addresses. -/
structure UeidData where
  ueId : UInt64
  incomingRbId : UInt8
  callBack : UInt64
  outgoingTeid : UInt32
  callBackSDAP : UInt64
  pdusessionId : Int32
deriving DecidableEq

/-- What `operator[]` adds for a TEID it does not find. -/
def UeidData.zero : UeidData :=
  ⟨0, 0, 0, 0, 0, 0⟩

/-- What `gtpv1u_update_ue_id` makes of an entry. -/
def UeidData.rename (oldUeId newUeId : UInt64) (data : UeidData) : UeidData :=
  if data.ueId = oldUeId then { data with ueId := newUeId } else data

/-- The bearers of a UE. -/
abbrev GtpuBearers := ExtTreeMap UInt64 GtpuBearer

/-- The two maps, for an instance. -/
structure GtpEndPoints where
  ue2teMapping : ExtTreeMap UInt64 GtpuBearers
  te2ueMapping : ExtTreeMap UInt64 UeidData

/-- `transport_layer_addr_t`, with its length in bits. -/
structure TransportLayerAddr where
  length : UInt8
  buffer : Vector UInt8 20
deriving DecidableEq

/-- An `int` as a key. -/
def bearerKey (bearerId : Int32) : UInt64 :=
  bearerId.toInt64.toUInt64

namespace GtpEndPoints

/-- No tunnel. -/
def init : GtpEndPoints :=
  ⟨∅, ∅⟩

/-- The two lookups in `ue2te_mapping`. -/
def bearer? (s : GtpEndPoints) (ueId key : UInt64) : Option GtpuBearer :=
  s.ue2teMapping[ueId]?.bind fun bearers => bearers[key]?

/-! ## The operations -/

/-- `gtpv1uNewTeid`, from two results of `random`. -/
def gtpv1uNewTeid (r : Fin (2 ^ 31) × Fin (2 ^ 31)) : UInt32 :=
  UInt32.ofNat (r.1 + r.2 % (2 ^ 31 - 1 - 1) + 1)

/-- The first TEID drawn that is not in use ; `none` if `draws` has none, and more are needed. -/
def freshTeid (s : GtpEndPoints) (draws : List (Fin (2 ^ 31) × Fin (2 ^ 31))) : Option UInt32 :=
  (draws.map gtpv1uNewTeid).find? fun teid => !s.te2ueMapping.contains teid.toUInt64

/-- The `switch` over the length of the address ; the case of both addresses falls through into
the assertion. -/
def setRemoteAddr (remoteAddr : TransportLayerAddr) (tmp : GtpuBearer) : Option GtpuBearer :=
  match remoteAddr.length.toNat / 8 with
  | 4 => some { tmp with outgoingIpAddr := remoteAddr.buffer.extract 0 4 }
  | 16 => some { tmp with outgoingIp6Addr := remoteAddr.buffer.extract 0 16 }
  | _ => none

/-- The arguments of `newGtpuCreateTunnel`. -/
structure CreateTunnel where
  ueId : UInt64
  incomingBearerId : Int32
  outgoingBearerId : Int32
  outgoingTeid : UInt32
  outgoingQfi : Int32
  remoteAddr : TransportLayerAddr
  port : Int32
  callBack : UInt64
  callBackSDAP : UInt64

/-- The entry of `te2ue_mapping` for a new tunnel. -/
def CreateTunnel.data (r : CreateTunnel) : UeidData where
  ueId := r.ueId
  incomingRbId := r.incomingBearerId.toUInt32.toUInt8
  callBack := r.callBack
  outgoingTeid := r.outgoingTeid
  callBackSDAP := r.callBackSDAP
  pdusessionId := r.outgoingBearerId.toUInt32.toUInt8.toUInt32.toInt32

/-- `newGtpuCreateTunnel`. -/
def newGtpuCreateTunnel (s : GtpEndPoints) (r : CreateTunnel)
    (draws : List (Fin (2 ^ 31) × Fin (2 ^ 31))) : Option GtpEndPoints :=
  let key := bearerKey r.outgoingBearerId
  let ue2te :=
    -- the tunnel exists : the whole UE goes
    if (s.bearer? r.ueId key).isSome then s.ue2teMapping.erase r.ueId else s.ue2teMapping
  match s.freshTeid draws with
  | none => none
  | some incomingTeid =>
    let bearers := ue2te.getD r.ueId ∅
    match setRemoteAddr r.remoteAddr (bearers.getD key .zero) with
    | none => none
    | some tmp => some {
        ue2teMapping := ue2te.insert r.ueId (bearers.insert key { tmp with
          teidIncoming := incomingTeid
          outgoingPort := r.port.toUInt32.toUInt16
          teidOutgoing := r.outgoingTeid
          outgoingQfi := r.outgoingQfi })
        te2ueMapping := s.te2ueMapping.insert incomingTeid.toUInt64 r.data }

/-- Store what `f` makes of a bearer that is there. -/
def modifyBearer (s : GtpEndPoints) (ueId key : UInt64) (f : GtpuBearer → GtpuBearer) :
    GtpEndPoints :=
  match s.ue2teMapping[ueId]? with
  | none => s
  | some bearers =>
    match bearers[key]? with
    | none => s
    | some bearer =>
      { s with ue2teMapping := s.ue2teMapping.insert ueId (bearers.insert key (f bearer)) }

/-- `GtpuUpdateTunnelOutgoingAddressAndTeid`. -/
def updateTunnelOutgoingAddressAndTeid (s : GtpEndPoints) (ueId : UInt64) (bearerId : UInt8)
    (newOutgoingAddr : Vector UInt8 4) (newOutgoingTeid : UInt32) : GtpEndPoints :=
  s.modifyBearer ueId bearerId.toUInt64 fun bearer => { bearer with
    outgoingIpAddr := newOutgoingAddr
    teidOutgoing := newOutgoingTeid }

/-- `gtpv1uSendDirect` : the bearer whose address and TEID the packet gets, if there is one, and
the tables afterwards. -/
def sendDirect (s : GtpEndPoints) (ueId : UInt64) (bearerId : Int32)
    (seqNumFlag npduNumFlag : Bool) : Option GtpuBearer × GtpEndPoints :=
  let count (bearer : GtpuBearer) : GtpuBearer := { bearer with
    seqNum := if seqNumFlag then bearer.seqNum + 1 else bearer.seqNum
    npduNum := if npduNumFlag then bearer.npduNum + 1 else bearer.npduNum }
  ((s.bearer? ueId (bearerKey bearerId)).map count, s.modifyBearer ueId (bearerKey bearerId) count)

/-- `Gtpv1uHandleGpdu` : the UE, the radio bearer and the callbacks a packet goes to. -/
def handleGpdu (s : GtpEndPoints) (teid : UInt32) : Option UeidData :=
  s.te2ueMapping[teid.toUInt64]?

/-- The loop of `gtpv1u_update_ue_id`, from position `i` on. There are `fuel` values of `i` left
before the 32 bit counter wraps ; then every bearer it visits exists and the loop never ends. -/
def updateUeIds (oldUeId newUeId : UInt64) :
    (fuel : ℕ) → (i : ℕ) → GtpuBearers → ExtTreeMap UInt64 UeidData →
      Option (GtpuBearers × ExtTreeMap UInt64 UeidData)
  | 0, _, _, _ => none
  | fuel + 1, i, bearers, te2ue =>
    if i < bearers.size then
      let bearer := bearers.getD (UInt64.ofNat i) .zero
      let incomingTeid := bearer.teidIncoming.toUInt64
      let data := te2ue.getD incomingTeid .zero
      -- `operator[]` stores both, in case they were not there
      updateUeIds oldUeId newUeId fuel (i + 1) (bearers.insert (UInt64.ofNat i) bearer)
        (te2ue.insert incomingTeid (data.rename oldUeId newUeId))
    else some (bearers, te2ue)

/-- `gtpv1u_update_ue_id`. -/
def gtpv1uUpdateUeId (s : GtpEndPoints) (oldUeId newUeId : UInt64) : Option GtpEndPoints :=
  match s.ue2teMapping[oldUeId]? with
  | none => some s
  | some bearers =>
    match updateUeIds oldUeId newUeId (2 ^ 32) 0 bearers s.te2ueMapping with
    | none => none
    | some (bearers, te2ue) =>
      some ⟨(s.ue2teMapping.insert newUeId bearers).erase oldUeId, te2ue⟩

/-- `newGtpuDeleteOneTunnel` ; the TEID goes through an `int`. -/
def newGtpuDeleteOneTunnel (s : GtpEndPoints) (ueId : UInt64) (rbId : Int32) : GtpEndPoints :=
  match s.ue2teMapping[ueId]? with
  | none => s
  | some bearers =>
    match bearers[bearerKey rbId]? with
    | none => s
    | some bearer => {
        ue2teMapping := s.ue2teMapping.insert ueId (bearers.erase (bearerKey rbId))
        te2ueMapping := s.te2ueMapping.erase bearer.teidIncoming.toInt32.toInt64.toUInt64 }

/-- `newGtpuDeleteAllTunnels`. -/
def newGtpuDeleteAllTunnels (s : GtpEndPoints) (ueId : UInt64) : GtpEndPoints :=
  match s.ue2teMapping[ueId]? with
  | none => s
  | some bearers => {
      ue2teMapping := s.ue2teMapping.erase ueId
      te2ueMapping := bearers.foldl (fun te2ue _ bearer =>
        te2ue.erase bearer.teidIncoming.toUInt64) s.te2ueMapping }

/-- `newGtpuDeleteTunnels`. -/
def newGtpuDeleteTunnels (s : GtpEndPoints) (ueId : UInt64) (pdusessionId : List UInt8) :
    GtpEndPoints :=
  match s.ue2teMapping[ueId]? with
  | none => s
  | some bearers => {
      -- no tunnels on this UE id, erase the UE entry
      ue2teMapping := if bearers.size = 0 then s.ue2teMapping.erase ueId else s.ue2teMapping
      te2ueMapping := pdusessionId.foldl (fun te2ue id =>
        match bearers[id.toUInt64]? with
        | none => te2ue
        | some bearer => te2ue.erase bearer.teidIncoming.toUInt64) s.te2ueMapping }

end GtpEndPoints

/-- The operations on an instance. -/
inductive GtpuOp
  | createTunnel (r : GtpEndPoints.CreateTunnel) (draws : List (Fin (2 ^ 31) × Fin (2 ^ 31)))
  | updateOutgoing (ueId : UInt64) (bearerId : UInt8) (newOutgoingAddr : Vector UInt8 4)
      (newOutgoingTeid : UInt32)
  | updateUeId (oldUeId newUeId : UInt64)
  | deleteOneTunnel (ueId : UInt64) (rbId : Int32)
  | deleteAllTunnels (ueId : UInt64)
  | deleteTunnels (ueId : UInt64) (pdusessionId : List UInt8)
  | sendDirect (ueId : UInt64) (bearerId : Int32) (seqNumFlag npduNumFlag : Bool)

/-- One operation ; `none` where the code aborts or does not return. -/
def GtpEndPoints.step (s : GtpEndPoints) : GtpuOp → Option GtpEndPoints
  | .createTunnel r draws => s.newGtpuCreateTunnel r draws
  | .updateOutgoing ueId bearerId addr teid =>
    some (s.updateTunnelOutgoingAddressAndTeid ueId bearerId addr teid)
  | .updateUeId oldUeId newUeId => s.gtpv1uUpdateUeId oldUeId newUeId
  | .deleteOneTunnel ueId rbId => some (s.newGtpuDeleteOneTunnel ueId rbId)
  | .deleteAllTunnels ueId => some (s.newGtpuDeleteAllTunnels ueId)
  | .deleteTunnels ueId pdusessionId => some (s.newGtpuDeleteTunnels ueId pdusessionId)
  | .sendDirect ueId bearerId seqNumFlag npduNumFlag =>
    some (s.sendDirect ueId bearerId seqNumFlag npduNumFlag).2

end NrStack
