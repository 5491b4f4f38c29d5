import LibAmqp.Fault
import LibAmqp.Lib.Path
import Mathlib.Data.Finmap

/-!
# Hash tables (`AmqpTypes/AmqpHashTable.c`, `AmqpTypes/AmqpEntry.h`, `Misc/Bits.c`)

An entry is in the chain of its bucket and in the list of all entries. Keys are of any type; data are
addresses, and `0` is the null pointer. The `prev` links are written, but nothing reads them: they are
left out.
-/

namespace Amqp

open Lib

/-- `amqp_entry_t`. -/
structure AmqpEntry (κ : Type) where
  key : κ
  data : Nat
  /-- `collision_list.next` -/
  collisionNext : Nat
  /-- `entry_list.next` -/
  entryNext : Nat

structure AmqpHashTable (κ : Type) where
  capacity : Nat
  count : Nat
  buckets : Nat → Nat
  entryList : Nat
  hash : κ → BitVec 32
  compare : κ → κ → Int

namespace AmqpHashTable

variable {κ : Type}

/-- `amqp_next_power_two_64`. -/
def nextPowerTwo (n : BitVec 64) : BitVec 64 :=
  let n := n - 1
  let n := n ||| n >>> 1
  let n := n ||| n >>> 2
  let n := n ||| n >>> 4
  let n := n ||| n >>> 8
  let n := n ||| n >>> 16
  let n := n ||| n >>> 32
  n + 1

/-- `amqp_next_power_two_32`: `amqp_next_power_two` where addresses have 32 bits. -/
def nextPowerTwo32 (n : BitVec 32) : BitVec 32 :=
  let n := n - 1
  let n := n ||| n >>> 1
  let n := n ||| n >>> 2
  let n := n ||| n >>> 4
  let n := n ||| n >>> 8
  let n := n ||| n >>> 16
  n + 1

/-- `amqp_hash_table_initialize`. The number of buckets is an `int` for `amqp_malloc_array`. -/
def amqpHashTableInitialize (initialCapacity : BitVec 32) (hash : κ → BitVec 32) (compare : κ → κ → Int) :
    Except Fault (AmqpHashTable κ) :=
  let capacity := (nextPowerTwo (initialCapacity.signExtend 64)).toNat
  if capacity = 0 then .error .assertFailed
  else if capacity < 2 ^ 31 then .ok {
    capacity := capacity
    count := 0
    buckets := fun _ => 0
    entryList := 0
    hash := hash
    compare := compare }
  else .error .wildPointer

/-- A table and the entries that are allocated. -/
structure State (κ : Type) where
  heap : Heap (AmqpEntry κ)
  map : AmqpHashTable κ

/-- `calculate_index`; the result is an `int`. -/
def calculateIndex (map : AmqpHashTable κ) (key : κ) : Int :=
  let mask := BitVec.ofNat 32 (map.capacity - 1)
  (map.hash key &&& mask).toInt

/-- `capacity - 1` is a mask of ones, and the bucket of every key is one of the table. -/
def MasksBuckets (map : AmqpHashTable κ) : Prop :=
  (∃ k, map.capacity - 1 = 2 ^ k - 1) ∧
    ∀ key, 0 ≤ map.calculateIndex key ∧ map.calculateIndex key < map.capacity

/-- `map->buckets[index]`. -/
def bucket (map : AmqpHashTable κ) (index : Int) : Except Fault Nat :=
  if 0 ≤ index ∧ index < map.capacity then .ok (map.buckets index.toNat) else .error .wildPointer

/-- `add_entry`, at a bucket that has been read. -/
def addEntry (M : Malloc) (s : State κ) (index : Int) (key : κ) (data : Nat) : State κ :=
  let (entry, heap) := s.heap.malloc M {
    key := key
    data := data
    collisionNext := s.map.buckets index.toNat
    entryNext := s.map.entryList }
  { heap := heap
    map := { s.map with
      buckets := fun i => if i = index.toNat then entry else s.map.buckets i
      entryList := entry
      count := s.map.count + 1 } }

/-- `search_chain`. -/
def searchChain (s : State κ) : (fuel : Nat) → (chain : Nat) → κ → Except Fault Nat
  | 0, _, _ => .error .outOfFuel
  | fuel + 1, chain, key =>
    if chain = 0 then .ok 0
    else match s.heap.get chain with
      | none => .error .wildPointer
      | some entry =>
        if s.map.compare entry.key key ≠ 0 then searchChain s fuel entry.collisionNext key
        else .ok chain

/-- No chain is longer than there are entries. -/
def State.fuel (s : State κ) : Nat := s.heap.dom.length + 1

/-- `amqp_hash_table_put`. -/
def put (M : Malloc) (s : State κ) (key : κ) (data : Nat) : Except Fault (Bool × State κ) := do
  let index := s.map.calculateIndex key
  let chain ← s.map.bucket index
  let found ← if chain ≠ 0 then searchChain s s.fuel chain key else .ok 0
  if found ≠ 0 then .ok (false, s)
  else .ok (true, addEntry M s index key data)

/-- `amqp_hash_table_get`. -/
def get (s : State κ) (key : κ) : Except Fault Nat := do
  let index := s.map.calculateIndex key
  let chain ← s.map.bucket index
  let entry ← searchChain s s.fuel chain key
  if entry = 0 then .ok 0
  else match s.heap.get entry with
    | none => .error .wildPointer
    | some entry => .ok entry.data

/-- The loop of `amqp_hash_table_cleanup`: the calls of the callback, and what is left allocated. -/
def cleanup.go (heap : Heap (AmqpEntry κ)) :
    (fuel : Nat) → (list : Nat) → Except Fault (List (κ × Nat) × Heap (AmqpEntry κ))
  | 0, _ => .error .outOfFuel
  | fuel + 1, list =>
    if list = 0 then .ok ([], heap)
    else match heap.get list with
      | none => .error .wildPointer
      | some entry => do
        let (calls, heap) ← cleanup.go (heap.free list) fuel entry.entryNext
        .ok ((entry.key, entry.data) :: calls, heap)

/-- `amqp_hash_table_cleanup` with a callback. -/
def cleanup (s : State κ) : Except Fault (List (κ × Nat) × Heap (AmqpEntry κ)) :=
  cleanup.go s.heap s.fuel s.map.entryList

/-! ## Sequences of calls -/

inductive Op (κ : Type)
  | put (key : κ) (data : Nat)
  | get (key : κ)

inductive Result
  | put (added : Bool)
  | get (data : Nat)
  deriving DecidableEq

def step (M : Malloc) (s : State κ) : Op κ → Except Fault (Result × State κ)
  | .put key data => do
    let (added, s) ← put M s key data
    .ok (.put added, s)
  | .get key => do
    let data ← get s key
    .ok (.get data, s)

def run (M : Malloc) (s : State κ) : List (Op κ) → Except Fault (List Result × State κ)
  | [] => .ok ([], s)
  | op :: ops => do
    let (r, s) ← step M s op
    let (rs, s) ← run M s ops
    .ok (r :: rs, s)

/-! ## What a table is -/

/-- A hash function and a comparison that is an equivalence compatible with it. -/
structure Keys (κ : Type) where
  hash : κ → BitVec 32
  compare : κ → κ → Int
  equivalence : Equivalence fun a b => compare a b = 0
  compatible : ∀ a b, compare a b = 0 → hash a = hash b

def Keys.setoid (K : Keys κ) : Setoid κ := ⟨fun a b => K.compare a b = 0, K.equivalence⟩

/-- A key, up to those that compare equal. -/
abbrev Keys.Class (K : Keys κ) := Quotient K.setoid

instance (K : Keys κ) : DecidableEq K.Class :=
  @Quotient.decidableEq κ K.setoid fun a b => inferInstanceAs (Decidable (K.compare a b = 0))

def Keys.classOf (K : Keys κ) (key : κ) : K.Class := Quotient.mk K.setoid key

/-- The finite map that a table refines. -/
abbrev Keys.Map (K : Keys κ) := Finmap fun _ : K.Class => Nat

/-- The first binding of a key wins. -/
def Keys.step (K : Keys κ) (m : K.Map) : Op κ → Result × K.Map
  | .put key data =>
    if K.classOf key ∈ m then (.put false, m) else (.put true, m.insert (K.classOf key) data)
  | .get key => (.get ((m.lookup (K.classOf key)).getD 0), m)

def Keys.run (K : Keys κ) (m : K.Map) : List (Op κ) → List Result × K.Map
  | [] => ([], m)
  | op :: ops =>
    let (r, m) := K.step m op
    let (rs, m) := K.run m ops
    (r :: rs, m)

def Keys.binding (K : Keys κ) (cell : Nat × AmqpEntry κ) : Sigma fun _ : K.Class => Nat :=
  ⟨K.classOf cell.2.key, cell.2.data⟩

/-- The list of all entries visits every binding of the map once, and `count` is their number; cleaning
up calls the callback for each of them, and leaves no entry allocated. -/
structure Keys.Represents (K : Keys κ) (s : State κ) (m : K.Map) : Prop where
  count : s.map.count = m.keys.card
  visits : ∃ cells, Path AmqpEntry.entryNext s.heap s.map.entryList cells ∧
    (cells.map K.binding : Multiset _) = m.entries ∧
    ∃ heap, cleanup s = .ok (cells.map fun cell => (cell.2.key, cell.2.data), heap) ∧ heap.dom = []

end AmqpHashTable
end Amqp
