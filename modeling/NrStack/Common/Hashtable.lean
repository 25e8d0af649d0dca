import NrStack.Library.Chain
import NrStack.Library.Fuel

/-!
# The common hash table

`hashtable.c` : an array of buckets, each a linked list of nodes with a key and a value, which may be
null. A key is in the bucket of its hash. The iterator goes through the buckets with an index of type
`int`, while their number is a `size_t`, so `HashtableRefines`, which asks that the table is a finite
map over any run of calls, holds for the sizes that an `int` can count (`hashtableRefines_iff`).
-/

namespace NrStack

/-! ## The table -/

/-- The key and the value of a `hash_node_t`. -/
structure HashNode (D : Type) where
  key : UInt64
  data : Option D

/-- `hash_table_t`, the nodes it points to, and the values that `freefunc` was called with. -/
structure HashTable (A D : Type) where
  size : ℕ
  nodes : ℕ → Option A
  memory : Memory A (HashNode D)
  freed : List D

/-- `hashtable_rc_t` ; `invalid` is the -1 of `hashtable_insert`. -/
inductive HashtableRc where
  | ok
  | insertOverwrittenData
  | keyNotExists
  | invalid
  deriving DecidableEq, Repr

/-- `hash_table_iterator_s` -/
structure HashIterator (A : Type) where
  index : ℕ
  node : Option A

/-- What `malloc` answers : no memory, or an address that is not in use. -/
structure Malloc (A α : Type) where
  answer : Memory A α → Option A
  fresh : ∀ m a, answer m = some a → m a = none

namespace HashTable

variable {A D : Type} [DecidableEq A]

/-- `hashtable_create` -/
def create (A D : Type) (size : ℕ) : HashTable A D where
  size := size
  nodes _ := none
  memory _ := none
  freed := []

/-! ## The calls

`none` is a division by zero, an access outside of the array or to a node that was freed, an overflow,
or too little fuel. -/

variable (hashfunc : UInt64 → UInt64)

/-- `hashfunc(key) % size` -/
def hash (t : HashTable A D) (key : UInt64) : Option ℕ :=
  if t.size = 0 then none else some ((hashfunc key).toNat % t.size)

/-- `freefunc` is called with a value that is not null. -/
def freeData (t : HashTable A D) (data : Option D) : HashTable A D :=
  { t with freed := t.freed ++ data.toList }

/-- The loop that looks for the key, with the node before. -/
def findNode (m : Memory A (HashNode D)) (key : UInt64) :
    ℕ → Option A → Option A → Option (Option A × Option A)
  | 0, _, _ => none
  | _ + 1, prevnode, none => some (prevnode, none)
  | fuel + 1, prevnode, some a => do
    let n ← m a
    if n.val.key = key then some (prevnode, some a) else findNode m key fuel (some a) n.next

/-- `hashtable_insert` -/
def insert (t : HashTable A D) (malloc : Malloc A (HashNode D)) (key : UInt64) (data : Option D)
    (fuel : ℕ) : Option (HashtableRc × HashTable A D) := do
  let hash ← t.hash hashfunc key
  let (_, node) ← findNode t.memory key fuel none (t.nodes hash)
  match node with
  | some a =>
    let n ← t.memory a
    let t := t.freeData n.val.data
    some (.insertOverwrittenData,
      { t with memory := Function.update t.memory a (some ⟨⟨n.val.key, data⟩, n.next⟩) })
  | none =>
    match malloc.answer t.memory with
    | none => some (.invalid, t)
    | some a =>
      some (.ok, { t with
        memory := Function.update t.memory a (some ⟨⟨key, data⟩, t.nodes hash⟩)
        nodes := Function.update t.nodes hash (some a) })

/-- `hashtable_remove` -/
def remove (t : HashTable A D) (key : UInt64) (fuel : ℕ) :
    Option (HashtableRc × HashTable A D) := do
  let hash ← t.hash hashfunc key
  let (prevnode, node) ← findNode t.memory key fuel none (t.nodes hash)
  match node with
  | some a =>
    let n ← t.memory a
    let t ← match prevnode with
      | some b => (t.memory.setNext (some b) n.next).map fun m => { t with memory := m }
      | none => some { t with nodes := Function.update t.nodes hash n.next }
    let t := t.freeData n.val.data
    some (.ok, { t with memory := t.memory.free a })
  | none => some (.keyNotExists, t)

/-- `hashtable_get` -/
def get (t : HashTable A D) (key : UInt64) (fuel : ℕ) : Option (HashtableRc × Option D) := do
  let hash ← t.hash hashfunc key
  let (_, node) ← findNode t.memory key fuel none (t.nodes hash)
  match node with
  | some a =>
    let n ← t.memory a
    some (.ok, n.val.data)
  | none => some (.keyNotExists, none)

/-- `hashtable_is_key_exists` -/
def isKeyExists (t : HashTable A D) (key : UInt64) (fuel : ℕ) : Option HashtableRc := do
  let hash ← t.hash hashfunc key
  let (_, node) ← findNode t.memory key fuel none (t.nodes hash)
  some (if node.isSome then .ok else .keyNotExists)

/-- `hashtable_get_iterator` -/
def getIterator (t : HashTable A D) : Option (HashIterator A) :=
  if 0 < t.size then some ⟨0, t.nodes 0⟩ else none

/-- The loop of `hashtable_iterator_getnext` over the indexes ; it says whether there is a node. -/
def nextIndex (t : HashTable A D) : ℕ → HashIterator A → Option (Bool × HashIterator A)
  | 0, _ => none
  | _ + 1, ⟨index, some a⟩ => some (true, ⟨index, some a⟩)
  | fuel + 1, ⟨index, none⟩ =>
    if index + 1 < 2 ^ 31 then
      if index + 1 ≥ t.size then some (false, ⟨index + 1, none⟩)
      else nextIndex t fuel ⟨index + 1, t.nodes (index + 1)⟩
    else none

/-- `hashtable_iterator_getnext` ; the answer is the value, or that there is none. -/
def iteratorGetnext (t : HashTable A D) (iterator : HashIterator A) (fuel : ℕ) :
    Option (Option (Option D) × HashIterator A) := do
  let (found, iterator) ← t.nextIndex fuel iterator
  if found then
    let a ← iterator.node
    let n ← t.memory a
    some (some n.val.data, { iterator with node := n.next })
  else some (none, iterator)

/-- The caller's loop `while (hashtable_iterator_getnext(&iterator, &data))`. -/
def visit (t : HashTable A D) : ℕ → HashIterator A → Option (List (Option D))
  | 0, _ => none
  | fuel + 1, iterator => do
    let (data, iterator) ← t.iteratorGetnext iterator fuel
    match data with
    | some data => (visit t fuel iterator).map (data :: ·)
    | none => some []

/-- An iteration from its start to its end. -/
def iterate (t : HashTable A D) (fuel : ℕ) : Option (List (Option D)) := do
  let iterator ← t.getIterator
  t.visit fuel iterator

/-- The loop of `hashtable_destroy` over one bucket. -/
def destroyNodes : ℕ → HashTable A D → Option A → Option (HashTable A D)
  | 0, _, _ => none
  | _ + 1, t, none => some t
  | fuel + 1, t, some a => do
    let n ← t.memory a
    let t := t.freeData n.val.data
    destroyNodes fuel { t with memory := t.memory.free a } n.next

/-- The loop of `hashtable_destroy` over the buckets. -/
def destroyBuckets (fuel : ℕ) : List ℕ → HashTable A D → Option (HashTable A D)
  | [], t => some t
  | n :: ns, t => (destroyNodes fuel t (t.nodes n)).bind (destroyBuckets fuel ns)

/-- `hashtable_destroy` -/
def destroy (t : HashTable A D) (fuel : ℕ) : Option (HashTable A D) :=
  destroyBuckets fuel (List.range t.size) t

end HashTable

/-! ## Runs -/

/-- A call. -/
inductive HashOp (A D : Type) where
  | insert (malloc : Malloc A (HashNode D)) (key : UInt64) (data : Option D)
  | remove (key : UInt64)
  | get (key : UInt64)
  | isKeyExists (key : UInt64)
  | iterate

/-- What the caller sees. -/
inductive HashOut (D : Type) where
  | rc (rc : HashtableRc)
  | data (rc : HashtableRc) (data : Option D)
  | visited (data : List (Option D))

namespace HashOp

variable {A D : Type} [DecidableEq A] (hashfunc : UInt64 → UInt64)

def run (fuel : ℕ) (t : HashTable A D) : HashOp A D → Option (HashOut D × HashTable A D)
  | insert malloc key data =>
    (t.insert hashfunc malloc key data fuel).map fun r => (.rc r.1, r.2)
  | remove key => (t.remove hashfunc key fuel).map fun r => (.rc r.1, r.2)
  | get key => (t.get hashfunc key fuel).map fun r => (.data r.1 r.2, t)
  | isKeyExists key => (t.isKeyExists hashfunc key fuel).map fun r => (.rc r, t)
  | iterate => (t.iterate fuel).map fun r => (.visited r, t)

/-- One call after the other, with what the callers see. -/
def runAll (fuel : ℕ) : List (HashOp A D) → HashTable A D → Option (List (HashOut D) × HashTable A D)
  | [], t => some ([], t)
  | op :: ops, t => (op.run hashfunc fuel t).bind fun r =>
    (runAll fuel ops r.2).map fun r' => (r.1 :: r'.1, r'.2)

end HashOp

/-! ## The finite map -/

/-- A map from keys to values, the values that were put into it, and the ones that were freed. -/
structure HashMapRef (D : Type) where
  map : UInt64 → Option (Option D)
  stored : List D
  freed : List D

/-- The empty map. -/
def HashMapRef.empty (D : Type) : HashMapRef D :=
  ⟨fun _ => none, [], []⟩

/-- `entries` lists a map, each key once. -/
def Lists {D : Type} (entries : List (UInt64 × Option D)) (map : UInt64 → Option (Option D)) :
    Prop :=
  (entries.map Prod.fst).Nodup ∧ ∀ key data, (key, data) ∈ entries ↔ map key = some data

/-- What a call does to the map, and what it answers. An insertion may fail when there is no memory
for a new key. -/
def HashOp.Spec {A D : Type} (r : HashMapRef D) (out : HashOut D) (r' : HashMapRef D) :
    HashOp A D → Prop
  | .insert malloc key data =>
    match r.map key with
    | some old => out = .rc .insertOverwrittenData ∧
        r' = ⟨Function.update r.map key (some data), r.stored ++ data.toList, r.freed ++ old.toList⟩
    | none =>
      out = .rc .ok ∧
        r' = ⟨Function.update r.map key (some data), r.stored ++ data.toList, r.freed⟩ ∨
      out = .rc .invalid ∧ r' = r ∧ ∃ m, malloc.answer m = none
  | .remove key =>
    match r.map key with
    | some old => out = .rc .ok ∧
        r' = ⟨Function.update r.map key none, r.stored, r.freed ++ old.toList⟩
    | none => out = .rc .keyNotExists ∧ r' = r
  | .get key => r' = r ∧ out = match r.map key with
    | some data => .data .ok data
    | none => .data .keyNotExists none
  | .isKeyExists key => r' = r ∧
      out = .rc (if (r.map key).isSome then .ok else .keyNotExists)
  | .iterate => r' = r ∧ ∃ entries, Lists entries r.map ∧ out = .visited (entries.map Prod.snd)

/-- A run of the map. -/
def HashOp.SpecAll {A D : Type} : List (HashOp A D) → List (HashOut D) → HashMapRef D →
    HashMapRef D → Prop
  | [], outs, r, r' => outs = [] ∧ r' = r
  | op :: ops, outs, r, r' => ∃ out outs' r₁, outs = out :: outs' ∧ op.Spec r out r₁ ∧
      SpecAll ops outs' r₁ r'

namespace HashTable

variable {A D : Type} [DecidableEq A] (hashfunc : UInt64 → UInt64)

/-- The buckets hold the map : each is a list in memory, with the keys that hash to it, each once,
and the values are those of the map. -/
structure Holds (t : HashTable A D) (map : UInt64 → Option (Option D))
    (bucket : ℕ → List (A × HashNode D)) : Prop where
  chain : ∀ n < t.size, Chain t.memory (t.nodes n) (bucket n) none
  hash : ∀ n < t.size, ∀ e ∈ bucket n, (hashfunc e.2.key).toNat % t.size = n
  nodup : ∀ n < t.size, ((bucket n).map fun e => e.2.key).Nodup
  lookup : ∀ key data, map key = some data ↔
    ∃ n < t.size, ∃ e ∈ bucket n, e.2 = ⟨key, data⟩

end HashTable

/-- Any run of calls on a table of this size returns, and is one of a finite map : the buckets hold
the map, and the values that were freed are the ones that left it. When the table is destroyed then,
the values that were freed are the ones that were stored. -/
def HashtableRefines (A D : Type) [DecidableEq A] (hashfunc : UInt64 → UInt64) (size : ℕ) : Prop :=
  ∀ ops : List (HashOp A D), ∃ outs t r,
    Returns (fun fuel => HashOp.runAll hashfunc fuel ops (HashTable.create A D size)) (outs, t) ∧
    HashOp.SpecAll ops outs (HashMapRef.empty D) r ∧
    (∃ bucket, t.size = size ∧ t.Holds hashfunc r.map bucket) ∧ t.freed = r.freed ∧
    ∃ t', Returns (fun fuel => t.destroy fuel) t' ∧ t'.freed.Perm r.stored

end NrStack
