import Mathlib.Tactic

/-!
# The UE contexts of the gNB MAC

A UE context comes to life in `get_new_nr_ue_inst`, with a uid of the linear allocator, and ends in
`delete_nr_ue_data`. In between it is an entry of the access list, while the UE does random access,
and of the connected list afterwards. Both lists are arrays of pointers that end with NULL.

`heap` says which contexts are alive. Reading through a NULL pointer or the pointer of a context
that was freed, and a failed assertion, end the run (`none`).
-/

namespace NrStack

/-! ## The allocator of uids -/

/-- `UID_LINEAR_ALLOCATOR_BITMAP_SIZE`. -/
def uidBitmapSize : ℕ :=
  1024 / 8 / 4 + 1

/-- The inner loop of `uid_linear_allocator_new` : the lowest bit that is not set. -/
def lowestFreeBit (word : BitVec 32) : (fuel : ℕ) → (uid : ℕ) → ℕ
  | 0, uid => uid
  | fuel + 1, uid =>
    if word &&& (1#32 <<< uid) = 1#32 <<< uid then lowestFreeBit word fuel (uid + 1) else uid

/-- `uid_linear_allocator_new`, from word `i` on. -/
def uidLinearAllocatorNew (i : ℕ) : List (BitVec 32) → ℕ × List (BitVec 32)
  | [] => (2 ^ 32 - 1, [])
  | word :: bitmap =>
    if word ≠ BitVec.allOnes 32 then
      let uid := lowestFreeBit word 32 0
      (uid + i * 4 * 8, (word ||| (1#32 <<< uid)) :: bitmap)
    else
      let (uid, bitmap) := uidLinearAllocatorNew (i + 1) bitmap
      (uid, word :: bitmap)

/-- `uid_linear_allocator_free`. -/
def uidLinearAllocatorFree (bitmap : List (BitVec 32)) (uid : ℕ) : List (BitVec 32) :=
  bitmap.modify (uid / 4 / 8) fun word => word &&& ~~~(1#32 <<< (uid % (4 * 8)))

/-! ## The lists -/

/-- `NR_UE_info_t`, as far as the lists depend on it. -/
structure UeContext where
  rnti : UInt16
  uid : ℕ
  /-- There is an RA process. -/
  ra : Bool
deriving DecidableEq

/-- `MAX_MOBILES_PER_GNB`. -/
def maxMobilesPerGnb : ℕ := 16

/-- `NR_NB_RA_PROC_MAX`. -/
def nrNbRaProcMax : ℕ := 4

/-- `NR_UEs_t`, with the contexts its lists point to and those that were freed. -/
structure NrUes where
  heap : ℕ → Option UeContext
  /-- The pointer the next context gets. -/
  next : ℕ
  freed : List ℕ
  connectedUeList : List (Option ℕ)
  accessUeList : List (Option ℕ)
  uidAllocator : List (BitVec 32)

/-- `add_UE_to_list`. -/
def addUeToList (ue : ℕ) : (listSize : ℕ) → List (Option ℕ) → Bool × List (Option ℕ)
  | 0, list => (false, list)
  | _ + 1, [] => (false, [])
  | _ + 1, none :: list => (true, some ue :: list)
  | listSize + 1, some other :: list =>
    let (added, list) := addUeToList ue listSize list
    (added, some other :: list)

/-- The loop of `remove_UE_from_list` over the entries : the position of the UE, if there is one.
Every entry before it is read. -/
def findRnti (heap : ℕ → Option UeContext) (rnti : UInt16) :
    List (Option ℕ) → (i : ℕ) → Option (Option (ℕ × ℕ))
  | [], _ => some none
  | none :: _, _ => none
  | some ue :: list, i =>
    match heap ue with
    | none => none
    | some context => if context.rnti ≠ rnti then findRnti heap rnti list (i + 1)
      else some (some (i, ue))

/-- `remove_UE_from_list` : the pointer it returns and the list. -/
def removeUeFromList (heap : ℕ → Option UeContext) (listSize : ℕ) (list : List (Option ℕ))
    (rnti : UInt16) : Option (Option ℕ × List (Option ℕ)) :=
  match findRnti heap rnti (list.take listSize) 0 with
  | none => none
  | some none => some (none, list)
  | some (some (i, ue)) =>
    some (some ue, list.take i ++ (list.take listSize).drop (i + 1) ++ none :: list.drop listSize)

namespace NrUes

/-- No UE. -/
def init : NrUes where
  heap _ := none
  next := 0
  freed := []
  connectedUeList := List.replicate (maxMobilesPerGnb + 1) none
  accessUeList := List.replicate (nrNbRaProcMax + 1) none
  uidAllocator := List.replicate uidBitmapSize 0

/-- `UE_iterator` over a list, up to the UE with this RNTI. -/
def iterate (s : NrUes) (rnti : UInt16) (list : List (Option ℕ)) : Option ℕ :=
  ((list.takeWhile Option.isSome).filterMap id).find? fun ue =>
    (s.heap ue).map UeContext.rnti = some rnti

/-- `find_nr_UE`. -/
def findNrUe (s : NrUes) (rnti : UInt16) : Option ℕ :=
  s.iterate rnti s.connectedUeList

/-- `find_ra_UE`. -/
def findRaUe (s : NrUes) (rnti : UInt16) : Option ℕ :=
  s.iterate rnti s.accessUeList

/-- `nr_mac_get_new_rnti`, from the numbers `taus` returns : of a hundred the last is not used. -/
def getNewRnti (s : NrUes) (draws : ℕ → UInt32) : Option UInt16 :=
  ((List.range 99).map fun i => (draws i % 0xffef + 1).toUInt16).find? fun rnti =>
    (s.findNrUe rnti).isNone && (s.findRaUe rnti).isNone

/-- `delete_nr_ue_data`. -/
def deleteNrUeData (s : NrUes) : Option ℕ → Option NrUes
  | none => none
  | some ue =>
    match s.heap ue with
    | none => none
    | some context => some { s with
        heap := Function.update s.heap ue none
        freed := ue :: s.freed
        uidAllocator := uidLinearAllocatorFree s.uidAllocator context.uid }

/-- `get_new_nr_ue_inst`. -/
def getNewNrUeInst (s : NrUes) (rnti : UInt16) : Option ℕ × NrUes :=
  let (uid, bitmap) := uidLinearAllocatorNew 0 s.uidAllocator
  if uid ≥ maxMobilesPerGnb then
    (none, { s with uidAllocator := uidLinearAllocatorFree bitmap uid })
  else
    (some s.next, { s with
      heap := Function.update s.heap s.next (some ⟨rnti, uid, true⟩)
      next := s.next + 1
      uidAllocator := bitmap })

/-- `add_new_UE_RA`. -/
def addNewUeRa (s : NrUes) (ue : ℕ) : Option (Bool × NrUes) :=
  match s.heap ue with
  | none => none
  | some context =>
    if context.ra then
      let (added, list) := addUeToList ue nrNbRaProcMax s.accessUeList
      some (added, { s with accessUeList := list })
    else none

/-- `add_connected_nr_ue`. -/
def addConnectedNrUe (s : NrUes) (ue : ℕ) : Option (Bool × NrUes) :=
  match s.heap ue with
  | none => none
  | some context =>
    if context.ra then none
    else
      match addUeToList ue maxMobilesPerGnb s.connectedUeList with
      | (true, list) => some (true, { s with connectedUeList := list })
      | (false, _) => (s.deleteNrUeData (some ue)).map (Prod.mk false)

/-- `transition_ra_connected_nr_ue`. -/
def transitionRaConnectedNrUe (s : NrUes) (ue : ℕ) : Option (Bool × NrUes) :=
  match s.heap ue with
  | none => none
  | some context =>
    match removeUeFromList s.heap nrNbRaProcMax s.accessUeList context.rnti with
    | none => none
    | some (r, list) =>
      if r = some ue then
        addConnectedNrUe { s with
          heap := Function.update s.heap ue (some { context with ra := false })
          accessUeList := list } ue
      else none

/-- `nr_release_ra_UE`. -/
def nrReleaseRaUe (s : NrUes) (rnti : UInt16) : Option NrUes :=
  match removeUeFromList s.heap nrNbRaProcMax s.accessUeList rnti with
  | none => none
  | some (none, list) => some { s with accessUeList := list }
  | some (some ue, list) => { s with accessUeList := list }.deleteNrUeData (some ue)

/-- `mac_remove_nr_ue`. -/
def macRemoveNrUe (s : NrUes) (rnti : UInt16) : Option NrUes :=
  match removeUeFromList s.heap (maxMobilesPerGnb + 1) s.connectedUeList rnti with
  | none => none
  | some (ue, list) => { s with connectedUeList := list }.deleteNrUeData ue

/-- `nr_initiate_ra_proc` for a preamble no UE was given, outside of NSA. -/
def nrInitiateRaProc (s : NrUes) (draws : ℕ → UInt32) : Option NrUes :=
  match s.getNewRnti draws with
  | none => some s
  | some rnti =>
    match s.getNewNrUeInst rnti with
    | (none, s) => some s
    | (some ue, s) =>
      match s.addNewUeRa ue with
      | none => none
      | some (true, s) => some s
      | some (false, s) => s.deleteNrUeData (some ue)

end NrUes

/-- What happens to the lists. -/
inductive UeListOp
  /-- A PRACH, of a UE that has an RA process or is ignored (`known`), or of a new one. -/
  | prach (known : Bool) (draws : ℕ → UInt32)
  /-- Msg4 or MsgB of the UE is acknowledged. -/
  | msg4Ack (rnti : UInt16)
  /-- Msg3 of a contention free random access arrives. -/
  | cfraMsg3 (rnti : UInt16)
  /-- Msg3 with a C-RNTI control element, whether the UE it names is known or not. -/
  | crntiMsg3 (rnti : UInt16)
  /-- The contention resolution timer expires ; the release is requested from the CU, if it knows
  the UE. -/
  | contentionTimeout (rnti : UInt16) (requested : Bool)
  /-- The random access fails, in Msg2 or Msg3. -/
  | releaseRa (rnti : UInt16)
  /-- The CU releases the UE, at once or later by a timer. -/
  | releaseCommand (rnti : UInt16) (now : Bool)
  /-- The timer of the release or of the UL failure of a connected UE. -/
  | releaseTimer (rnti : UInt16)
  /-- A request to remove a UE. -/
  | macRemove (rnti : UInt16)

/-- One step ; `none` for a crash. -/
def NrUes.step (s : NrUes) : UeListOp → Option NrUes
  | .prach known draws => if known then some s else s.nrInitiateRaProc draws
  | .msg4Ack rnti =>
    match s.findRaUe rnti with
    | none => some s
    -- the result of the transition is not looked at
    | some ue => (s.transitionRaConnectedNrUe ue).map Prod.snd
  | .cfraMsg3 rnti =>
    match s.findRaUe rnti with
    | none => some s
    | some ue =>
      match s.transitionRaConnectedNrUe ue with
      | none => none
      | some (true, s) => some s
      | some (false, s) => s.deleteNrUeData (some ue)
  | .crntiMsg3 rnti =>
    match s.findRaUe rnti with
    | none => some s
    | some _ => s.nrReleaseRaUe rnti
  | .contentionTimeout rnti requested =>
    match s.findRaUe rnti with
    | none => some s
    | some _ => if requested then some s else s.nrReleaseRaUe rnti
  | .releaseRa rnti => s.nrReleaseRaUe rnti
  | .releaseCommand rnti now =>
    match s.findNrUe rnti with
    | none => some s
    | some _ => if now then s.macRemoveNrUe rnti else some s
  | .releaseTimer rnti =>
    match s.findNrUe rnti with
    | none => some s
    | some _ => s.macRemoveNrUe rnti
  | .macRemove rnti => s.macRemoveNrUe rnti

end NrStack
