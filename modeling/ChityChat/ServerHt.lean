import Mathlib.Algebra.Group.Int.Defs
import Mathlib.Algebra.Group.Nat.Defs
import Mathlib.Data.List.Basic
import Mathlib.Data.Rat.Defs

namespace ChityChat.ServerHt

variable {V L : Type}

/-- The float arithmetic behind the load factor: what `ght_calc_load` stores for a count and a
size, and its comparisons with `max_load` and `min_load`. No result depends on its rounding. -/
structure LoadFactor (L : Type) where
  ratio : Nat → Nat → L
  aboveMax : L → Bool
  belowMin : L → Bool

/-- The quotient without rounding and the thresholds `GHT_MAX_LOAD` and `GHT_MIN_LOAD`. -/
def exactLoad : LoadFactor ℚ :=
  ⟨fun count size => count / size, fun load => decide (7 / 10 < load),
    fun load => decide (load < 1 / 5)⟩

def inHeap : Int := -1
def inArray : Int := 0

/-- `ght_bucket_t` without `next`. A NULL `data` is `none`. -/
structure GhtBucket (V : Type) where
  key : Nat
  data : Option V
  inheap : Int

structure Chain (V : Type) where
  head : GhtBucket V
  next : List (GhtBucket V)

def zeroed : GhtBucket V := ⟨0, none, inArray⟩

def Chain.empty : Chain V := ⟨zeroed, []⟩

def Chain.buckets (c : Chain V) : List (GhtBucket V) := c.head :: c.next

/-- `server_ght_t`. The last two fields are logs: the elements passed to `ht->free` and the nodes
passed to `free`. -/
structure ServerGht (V L : Type) where
  table : List (Chain V)
  size : Nat
  minSize : Nat
  count : Nat
  ignoreResize : Bool
  free : Bool
  load : L
  released : List V
  freed : List (GhtBucket V)

def ghtHash (ht : ServerGht V L) (key : Nat) : Nat := key % ht.size

def ghtChain (ht : ServerGht V L) (key : Nat) : Chain V :=
  ht.table.getD (ghtHash ht key) Chain.empty

def ghtCalcLoad (A : LoadFactor L) (ht : ServerGht V L) : ServerGht V L :=
  { ht with load := A.ratio ht.count ht.size }

def ghtInc (A : LoadFactor L) (ht : ServerGht V L) : ServerGht V L :=
  ghtCalcLoad A { ht with count := ht.count + 1 }

def ghtDec (A : LoadFactor L) (ht : ServerGht V L) : ServerGht V L :=
  ghtCalcLoad A { ht with count := if ht.count = 0 then 2 ^ 64 - 1 else ht.count - 1 }

/-- The walk of `ght_insert` behind a used array bucket: fail on the key, else link a new node. -/
def ghtLink (key : Nat) (data : V) : List (GhtBucket V) → Option (List (GhtBucket V))
  | [] => some [⟨key, some data, inHeap⟩]
  | b :: bs => if b.key = key then none else (ghtLink key data bs).map (b :: ·)

def Chain.insert (c : Chain V) (key : Nat) (data : V) : Option (Chain V) :=
  if c.head.key = key then none
  else if c.head.data.isSome then (ghtLink key data c.next).map (fun next => ⟨c.head, next⟩)
  else some ⟨{ c.head with key := key, data := some data }, c.next⟩

def ghtInsert (A : LoadFactor L) (ht : ServerGht V L) (key : Nat) (data : V) :
    Bool × ServerGht V L :=
  match (ghtChain ht key).insert key data with
  | none => (false, ht)
  | some c => (true, ghtInc A { ht with table := ht.table.set (ghtHash ht key) c })

def ghtMove (A : LoadFactor L) (ht : ServerGht V L) (old : GhtBucket V) : ServerGht V L :=
  let ht := match old.data with
    | some data => (ghtInsert A ht old.key data).2
    | none => ht
  if old.inheap ≠ 0 then { ht with freed := ht.freed ++ [old] } else ht

def ghtRehash (A : LoadFactor L) (ht : ServerGht V L) (oldTable : List (Chain V)) : ServerGht V L :=
  oldTable.foldl (fun ht c => c.buckets.foldl (ghtMove A) ht) ht

def ghtResize (A : LoadFactor L) (ht : ServerGht V L) (newSize : Nat) : ServerGht V L :=
  let newSize := if newSize < ht.minSize then ht.minSize else newSize
  if newSize = ht.size ∨ ht.ignoreResize then ht
  else ghtRehash A
    { ht with size := newSize, table := List.replicate newSize Chain.empty, count := 0 } ht.table

def ghtCheckLoad (A : LoadFactor L) (ht : ServerGht V L) : ServerGht V L :=
  if A.aboveMax ht.load then ghtResize A ht (ht.size * 2)
  else if A.belowMin ht.load then ghtResize A ht (ht.size / 2)
  else ht

/-- What `ght_del_bucket` leaves in the bucket that heads `c`: its successor moves in, or the
bucket is released (`none`), or it is cleared. -/
def Chain.delete (c : Chain V) : Option (Chain V) :=
  match c.next with
  | b :: bs => some ⟨if c.head.inheap = inArray then { b with inheap := inArray } else b, bs⟩
  | [] => if c.head.inheap = inHeap then none else some Chain.empty

def Chain.deleteFreed (c : Chain V) : List (GhtBucket V) :=
  match c.next with
  | b :: _ => [b]
  | [] => if c.head.inheap = inHeap then [c.head] else []

/-- `c` is the deleted bucket with what its `next` links. It is stored in the array at `slot`, or,
when `slot` is `none`, nothing in the table links to it any more. -/
def ghtDelBucket (A : LoadFactor L) (ht : ServerGht V L) (slot : Option Nat) (c : Chain V) :
    ServerGht V L :=
  let table := match slot, c.delete with
    | some i, some c' => ht.table.set i c'
    | _, _ => ht.table
  ghtCheckLoad A (ghtDec A { ht with
    table := table
    released := if ht.free then ht.released ++ c.head.data.toList else ht.released
    freed := ht.freed ++ c.deleteFreed })

def emptyGht (A : LoadFactor L) (initialSize : Nat) (free : Bool) : ServerGht V L :=
  ⟨List.replicate initialSize Chain.empty, initialSize, initialSize, 0, false, free,
    A.ratio 0 initialSize, [], []⟩

def serverGhtInit (A : LoadFactor L) (initialSize : Nat) (free : Bool) : Option (ServerGht V L) :=
  if initialSize = 0 then none else some (emptyGht A initialSize free)

def serverGhtInsert (A : LoadFactor L) (ht : ServerGht V L) (key : Nat) (data : Option V) :
    Bool × ServerGht V L :=
  match data with
  | none => (false, ht)
  | some data =>
      match ghtInsert A ht key data with
      | (true, ht') => (true, ghtCheckLoad A ht')
      | (false, ht') => (false, ht')

def Chain.get (c : Chain V) (key : Nat) : Option V :=
  if c.head.data.isNone then none
  else if c.head.key = key then c.head.data
  else (c.buckets.find? (fun b => b.key = key)).bind GhtBucket.data

def serverGhtGet (ht : ServerGht V L) (key : Nat) : Option V := (ghtChain ht key).get key

/-- The walk of `server_ght_del`: the nodes before the hit, and the hit with its successors. -/
def ghtFind (key : Nat) : List (GhtBucket V) → Option (List (GhtBucket V) × Chain V)
  | [] => none
  | b :: bs =>
      if b.key = key then some ([], ⟨b, bs⟩)
      else (ghtFind key bs).map (fun p => (b :: p.1, p.2))

/-- Behind the array bucket, `prev->next = NULL` runs before the hit is deleted: the chain ends
with the nodes before it. -/
def serverGhtDel (A : LoadFactor L) (ht : ServerGht V L) (key : Nat) : Bool × ServerGht V L :=
  let idx := ghtHash ht key
  let c := ghtChain ht key
  if c.head.key = key then (true, ghtDelBucket A ht (some idx) c)
  else
    match ghtFind key c.next with
    | some (before, hit) =>
        (true, ghtDelBucket A { ht with table := ht.table.set idx ⟨c.head, before⟩ } none hit)
    | none => (false, ht)

end ChityChat.ServerHt
