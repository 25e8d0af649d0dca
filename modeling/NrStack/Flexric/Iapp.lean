import Mathlib
import NrStack.Flexric.RicGenId

/-!
# The iApp of the near-RT RIC

The iApp hands an id to every xApp, forwards the requests of the xApps to the E2 nodes under
a `ric_req_id` of its own (`map_ric_id.c`), and forwards what the nodes answer to the xApp of
that id under the id of its request (`msg_handler_iapp.c`). `Iapp.step` is one message of an
xApp or of an E2 node ; `none` is a failed assertion.

The counter `req_id` of the near-RT RIC (`near_ric.c`) is part of the state. It never
decreases, so it is kept without its wrap : only its value modulo 2^16 is used.
-/

namespace NrStack

/-! ## Ids -/

/-- `xapp_ric_id_t` -/
structure XappRicId where
  ricId : RicGenId
  xappId : Nat
  deriving DecidableEq

def cmpXappRicGenId : XappRicId → XappRicId → Int :=
  cmpField XappRicId.xappId fun m0 m1 => cmpRicGenId m0.ricId m1.ricId

def eqXappId (m0 m1 : Nat) : Bool :=
  m0 = m1

/-- `eq_xapp_ric_gen_id` : both arguments of `eq_xapp_id` are of `m0`. -/
def eqXappRicGenId (m0 m1 : XappRicId) : Bool :=
  if eqXappId m0.xappId m0.xappId = false then false else eqRicGenId m0.ricId m1.ricId

/-- `eq_xapp_id_gen_wrapper` -/
def eqXappIdGen (m0 m1 : XappRicId) : Bool :=
  m0.xappId = m1.xappId

/-- `ric_request_type_e` -/
inductive RicRequestType where
  | subscription
  | control
  deriving DecidableEq

/-- `e2_node_ric_id_t` -/
structure E2NodeRicId (ν : Type) where
  e2NodeId : ν
  ricId : RicGenId
  ricReqType : RicRequestType
  deriving DecidableEq

variable {ν : Type}

def cmpUint32 (m0 m1 : Nat) : Int :=
  if m0 < m1 then -1 else if m0 = m1 then 0 else 1

/-- `cmp_e2_node_ric_req_wrapper` -/
def cmpE2NodeRicReq (m0 m1 : E2NodeRicId ν) : Int :=
  cmpUint32 m0.ricId.ricReqId m1.ricId.ricReqId

def eqE2NodeRicReq (m0 m1 : E2NodeRicId ν) : Bool :=
  m0.ricId.ricReqId = m1.ricId.ricReqId

/-- `sctp_info_t` : the address of an xApp, and the part that no comparison reads. -/
structure SctpInfo where
  sinPort : Nat
  sAddr : Nat
  sinFamily : Nat
  sri : Nat
  deriving DecidableEq

/-- `cmp_sctp_info_wrapper` -/
def cmpSctpInfo : SctpInfo → SctpInfo → Int :=
  cmpField SctpInfo.sinPort (cmpField SctpInfo.sAddr (cmpField SctpInfo.sinFamily
    fun _ _ => 0))

/-- `cmp_uint16_wrapper` -/
def cmpUint16 : Nat → Nat → Int :=
  cmpField id fun _ _ => 0

theorem isCmp_xappRicGenId : IsCmp cmpXappRicGenId :=
  (isCmp_ricGenId.comap XappRicId.ricId).field _

theorem cmpUint32_eq : cmpUint32 = fun m0 m1 => cmpField id (fun _ _ => 0) m1 m0 := by
  funext m0 m1
  unfold cmpUint32 cmpField
  rcases lt_trichotomy m0 m1 with h | h | h
  · simp [h, h.not_gt]
  · simp [h]
  · simp [h, h.not_gt, h.ne']

theorem isCmp_e2NodeRicReq : IsCmp (cmpE2NodeRicReq (ν := ν)) := by
  have h : IsCmp cmpUint32 := cmpUint32_eq ▸ (isCmp_zero.field id).flip
  exact h.comap fun n : E2NodeRicId ν => n.ricId.ricReqId

theorem isCmp_sctpInfo : IsCmp cmpSctpInfo :=
  ((isCmp_zero.field _).field _).field _

theorem isCmp_uint16 : IsCmp cmpUint16 :=
  (isCmp_zero).field _

/-! ## `map_ric_id.c` -/

/-- `map_ric_id_t` -/
abbrev MapRicId (ν : Type) := BiMap (E2NodeRicId ν) XappRicId

def addMapRicId (map : MapRicId ν) (node : E2NodeRicId ν) (x : XappRicId) :
    Option (MapRicId ν) := do
  let it ← map.left.findKey (eqE2NodeRicReq node)
  if it.isSome then none
  else map.insert cmpE2NodeRicReq cmpXappRicGenId node x

def rmMapRicId (map : MapRicId ν) (ricId : XappRicId) : Option (MapRicId ν) :=
  (map.extractRight cmpE2NodeRicReq cmpXappRicGenId ricId).map Prod.snd

/-- `find_xapp_map_ric_id` : `some none` without a value. -/
def findXappMapRicId (map : MapRicId ν) (ricReqId : Nat) : Option (Option XappRicId) :=
  if ricReqId = 0 then none
  else do
    let it ← map.left.findKey fun n => ricReqId = n.ricId.ricReqId
    some (it.map Prod.snd)

def findRicReqMapRicId (map : MapRicId ν) (x : XappRicId) : Option (E2NodeRicId ν) := do
  let it ← map.right.findKey (eqXappRicGenId x)
  it.map Prod.snd

/-! ## `map_xapps_sockaddr.c` -/

/-- `map_xapps_sockaddr_t` -/
abbrev MapXappsSockaddr := BiMap Nat SctpInfo

def addMapXappsSad (m : MapXappsSockaddr) (xappId : Nat) (s : SctpInfo) :
    Option MapXappsSockaddr := do
  let it ← m.left.findKey fun k => xappId = k
  if it.isSome then none
  else m.insert cmpUint16 cmpSctpInfo xappId s

def findMapXappsSad (m : MapXappsSockaddr) (xappId : Nat) : Option SctpInfo := do
  let it ← m.left.findKey fun k => xappId = k
  it.map Prod.snd

/-! ## Messages -/

/-- The messages of the E2 nodes that the iApp forwards. -/
inductive E2Answer where
  | subscriptionResponse
  | subscriptionDeleteResponse
  | controlAck
  | indication
  deriving DecidableEq

/-- What happens at the iApp : a message of an xApp, an answer of an E2 node, and an E2 node
that comes or goes. -/
inductive IappEvent (ν : Type) where
  | setupRequest (lenRf : Nat) (info : SctpInfo)
  | request (type : RicRequestType) (xappId : Nat) (node : ν) (ricId : RicGenId)
  | subscriptionDeleteRequest (xappId : Nat) (ricId : RicGenId)
  | answer (type : E2Answer) (ricId : RicGenId)
  | addE2Node (node : ν)
  | rmE2Node (node : ν)

/-- What the iApp sends. -/
inductive IappMsg (ν : Type) where
  | setupResponse (info : SctpInfo) (xappId : Nat)
  | request (type : RicRequestType) (node : ν) (ricId : RicGenId)
  | subscriptionDeleteRequest (node : ν) (ricId : RicGenId)
  | answer (type : E2Answer) (info : SctpInfo) (ricId : RicGenId)
  deriving DecidableEq

/-- `e42_iapp_t`, with the counter `req_id` of `near_ric_t`. -/
structure Iapp (ν : Type) where
  xappId : Nat
  mapRicId : MapRicId ν
  xapps : MapXappsSockaddr
  e2Nodes : List ν
  reqId : Nat

namespace Iapp

/-- `init_e42_iapp` and `init_near_ric` -/
def init : Iapp ν where
  xappId := 7
  mapRicId := .init
  xapps := .init
  e2Nodes := []
  reqId := 1021

/-! ## Messages of the xApps -/

/-- `e2ap_handle_e42_setup_request_iapp`, and the event loop that registers the address : the
counter `xapp_id` has 32 bits, an id 16. -/
def setupRequest (iapp : Iapp ν) (lenRf : Nat) (info : SctpInfo) :
    Option (Iapp ν × List (IappMsg ν)) :=
  if lenRf = 0 then none
  else do
    let xappId := iapp.xappId % 2 ^ 16
    let xapps ← addMapXappsSad iapp.xapps xappId info
    some ({ iapp with xappId := (iapp.xappId + 1) % 2 ^ 32, xapps := xapps },
      [.setupResponse info xappId])

def validXappId (iapp : Iapp ν) (xappId : Nat) : Option Bool :=
  if xappId < 2 ^ 16 then some (xappId ≤ iapp.xappId) else none

/-- `fwd_ric_subscription_request` and `fwd_ric_control_request` : the new id, and the id that
goes to the E2 node, whose lower half is overwritten. -/
def fwdRequest (iapp : Iapp ν) (ricId : RicGenId) : Nat × RicGenId × Iapp ν :=
  let ricReqId := iapp.reqId % 2 ^ 16
  (ricReqId, { ricId with ricReqId := ricId.ricReqId / 2 ^ 16 * 2 ^ 16 + ricReqId },
    { iapp with reqId := iapp.reqId + 1 })

variable [DecidableEq ν]

/-- The two request handlers, which differ in the type of the entry. -/
def request (type : RicRequestType) (iapp : Iapp ν) (xappId : Nat) (node : ν)
    (ricId : RicGenId) : Option (Iapp ν × List (IappMsg ν)) := do
  let valid ← iapp.validXappId xappId
  if valid = false ∨ node ∉ iapp.e2Nodes then none
  else do
    let xappRicId : XappRicId := ⟨ricId, xappId⟩
    let (newRicId, sent, iapp) := iapp.fwdRequest ricId
    let n : E2NodeRicId ν := ⟨node, { ricId with ricReqId := newRicId }, type⟩
    let map ← addMapRicId iapp.mapRicId n xappRicId
    some ({ iapp with mapRicId := map }, [.request type node sent])

/-- `e2ap_handle_e42_ric_subscription_request_iapp` -/
def subscriptionRequest : Iapp ν → Nat → ν → RicGenId → Option (Iapp ν × List (IappMsg ν)) :=
  request .subscription

/-- `e2ap_handle_e42_ric_control_request_iapp` -/
def controlRequest : Iapp ν → Nat → ν → RicGenId → Option (Iapp ν × List (IappMsg ν)) :=
  request .control

omit [DecidableEq ν] in
/-- `e2ap_handle_e42_ric_subscription_delete_request_iapp` -/
def subscriptionDeleteRequest (iapp : Iapp ν) (xappId : Nat) (ricId : RicGenId) :
    Option (Iapp ν × List (IappMsg ν)) := do
  let n ← findRicReqMapRicId iapp.mapRicId ⟨ricId, xappId⟩
  if n.ricReqType ≠ .subscription then none
  else some (iapp, [.subscriptionDeleteRequest n.e2NodeId
    { ricId with ricReqId := n.ricId.ricReqId }])

/-! ## Messages of the E2 nodes -/

/-- The handlers of the messages of the E2 nodes : some drop a message whose id no entry has,
some remove the entry, and some restore the whole id. -/
def answer (type : E2Answer) (drop remove whole : Bool) (iapp : Iapp ν) (src : RicGenId) :
    Option (Iapp ν × List (IappMsg ν)) := do
  let xpctd ← findXappMapRicId iapp.mapRicId (src.ricReqId % 2 ^ 16)
  match xpctd with
  | none => if drop then some (iapp, []) else none
  | some x =>
    if src.ranFuncId ≠ x.ricId.ranFuncId ∨ src.ricInstId ≠ x.ricId.ricInstId then none
    else do
      let dst := if whole then x.ricId else { src with ricReqId := x.ricId.ricReqId }
      let info ← findMapXappsSad iapp.xapps x.xappId
      let map ← (if remove then rmMapRicId iapp.mapRicId x else some iapp.mapRicId)
      some ({ iapp with mapRicId := map }, [.answer type info dst])

/-- `e2ap_handle_subscription_response_iapp` -/
def subscriptionResponse : Iapp ν → RicGenId → Option (Iapp ν × List (IappMsg ν)) :=
  answer .subscriptionResponse false false false

/-- `e2ap_handle_subscription_delete_response_iapp` -/
def subscriptionDeleteResponse : Iapp ν → RicGenId → Option (Iapp ν × List (IappMsg ν)) :=
  answer .subscriptionDeleteResponse true true true

/-- `e2ap_handle_e42_ric_control_ack_iapp` -/
def controlAck : Iapp ν → RicGenId → Option (Iapp ν × List (IappMsg ν)) :=
  answer .controlAck false true true

/-- `e2ap_handle_ric_indication_iapp` -/
def indication : Iapp ν → RicGenId → Option (Iapp ν × List (IappMsg ν)) :=
  answer .indication true false false

/-- `notify_msg_iapp` -/
def notifyMsg (iapp : Iapp ν) : E2Answer → RicGenId → Option (Iapp ν × List (IappMsg ν))
  | .subscriptionResponse => iapp.subscriptionResponse
  | .subscriptionDeleteResponse => iapp.subscriptionDeleteResponse
  | .controlAck => iapp.controlAck
  | .indication => iapp.indication

/-- One event. -/
def step (iapp : Iapp ν) : IappEvent ν → Option (Iapp ν × List (IappMsg ν))
  | .setupRequest lenRf info => iapp.setupRequest lenRf info
  | .request .subscription xappId node ricId => iapp.subscriptionRequest xappId node ricId
  | .request .control xappId node ricId => iapp.controlRequest xappId node ricId
  | .subscriptionDeleteRequest xappId ricId => iapp.subscriptionDeleteRequest xappId ricId
  | .answer type ricId => iapp.notifyMsg type ricId
  | .addE2Node node => some ({ iapp with e2Nodes := node :: iapp.e2Nodes }, [])
  | .rmE2Node node => some ({ iapp with e2Nodes := iapp.e2Nodes.filter (· ≠ node) }, [])

end Iapp

end NrStack
