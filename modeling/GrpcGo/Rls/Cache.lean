import GrpcGo.Lib.GoMap
import GrpcGo.Lib.Machine

/-!
# The RLS LRU cache

`balancer/rls/internal/cache`: the `LRU` of RLS response entries, with its size accounting and
its eviction loop.

The model keeps the cache's three pieces of state as the Go code has them.
* `ll`, a `container/list`, is the list of its elements from front (most recently added or
  read) to back; an element is a handle into `elems`, which holds each element's `Value`.
  `ll.Remove(e)` and `ll.MoveToFront(e)` do nothing to an element that is not in the list, as
  `container/list` does: the handles let a stale element of the map be told apart from a
  linked one.
* `cache`, the `map[Key]*list.Element`, maps a key to a handle.
* `usedSize` and `maxSize`, the `int64` sizes, as integers (no size comes near `2 ^ 63`).

Times are natural numbers, with `0` for the zero `time.Time`; each `removeToFit` reads the
clock once, and the operations that reach it take that reading as `now`.  Each `Add` is passed
a fresh `*Entry`: its `key` field is whatever the caller's entry holds, which for an entry built
outside the package is the zero `Key`.  `onEvicted` is a flag for whether a callback is set;
the outputs of the model are the calls made to it.
-/

namespace GrpcGo
namespace Rls
namespace Cache

open GoStd Machine

/-- `cache.Key`. -/
structure Key where
  Path : String
  KeyMap : String
deriving DecidableEq, Repr, Inhabited

/-- The fields of `cache.Entry` that the LRU reads or writes. -/
structure Entry where
  EarliestEvictTime : Nat
  HeaderData : String
  size : Int
  key : Key
deriving DecidableEq, Repr, Inhabited

/-- `cache.LRU`. -/
structure LRU where
  maxSize : Int
  usedSize : Int
  onEvicted : Bool
  ll : List Nat
  elems : List Entry
  cache : List (Key × Nat)
deriving DecidableEq, Repr

/-- `NewLRU(maxSize, onEvicted)`. -/
def NewLRU (maxSize : Int) (onEvicted : Bool) : LRU :=
  ⟨maxSize, 0, onEvicted, [], [], []⟩

/-- `entrySize(key, value)`: the bytes of the key and of the header data. -/
def entrySize (key : Key) (value : Entry) : Int :=
  ((key.Path.utf8ByteSize + key.KeyMap.utf8ByteSize + value.HeaderData.utf8ByteSize : Nat) : Int)

namespace LRU

/-- `e.Value.(*Entry)`. -/
def value (lru : LRU) (e : Nat) : Entry :=
  lru.elems.getD e default

/-- `lru.ll.MoveToFront(e)`. -/
def moveToFront (lru : LRU) (e : Nat) : LRU :=
  if e ∈ lru.ll then { lru with ll := e :: lru.ll.erase e } else lru

/-- `removeElement(e)`: unlink the element, delete its entry's key from the map, give its size
back, and report it. -/
def removeElement (lru : LRU) (e : Nat) : List (Key × Entry) × LRU :=
  let entry := lru.value e
  (if lru.onEvicted then [(entry.key, entry)] else [],
    { lru with ll := lru.ll.erase e, cache := Map.erase entry.key lru.cache,
               usedSize := lru.usedSize - entry.size })

/-- The loop of `removeToFit(newSize)`, reading the clock once as `now`.  Each round that does
not return unlinks the back element, so `fuel` rounds for the `ll.length` elements never cut
the loop short. -/
def removeToFitLoop (now : Nat) (newSize : Int) : Nat → LRU → List (Key × Entry) × LRU
  | 0, lru => ([], lru)
  | fuel + 1, lru =>
    if lru.usedSize + newSize > lru.maxSize then
      match lru.ll.getLast? with
      -- the cache is empty, and the new entry alone exceeds `maxSize`
      | none => ([], lru)
      | some elem =>
        let entry := lru.value elem
        -- `!t.IsZero() && t.Before(now)`
        if entry.EarliestEvictTime ≠ 0 ∧ entry.EarliestEvictTime < now then ([], lru)
        else
          let r := lru.removeElement elem
          let r' := removeToFitLoop now newSize fuel r.2
          (r.1 ++ r'.1, r'.2)
    else ([], lru)

/-- `removeToFit(newSize)`. -/
def removeToFit (lru : LRU) (now : Nat) (newSize : Int) : List (Key × Entry) × LRU :=
  removeToFitLoop now newSize lru.ll.length lru

/-- `Resize(newMaxSize)`. -/
def Resize (lru : LRU) (now : Nat) (newMaxSize : Int) : List (Key × Entry) × LRU :=
  { lru with maxSize := newMaxSize }.removeToFit now 0

/-- `Add(key, value)`.  A new key gets a new element at the front.  For a key already present
the element's value is replaced, without setting the new value's `key`, after `removeToFit`
has run with the element still linked. -/
def Add (lru : LRU) (now : Nat) (key : Key) (value : Entry) : List (Key × Entry) × LRU :=
  let size := entrySize key value
  match lru.cache.lookup key with
  | none =>
    let r := lru.removeToFit now size
    let lru := { r.2 with usedSize := r.2.usedSize + size }
    -- `ll.PushFront(value)` makes a new element
    let elem := lru.elems.length
    (r.1, { lru with elems := lru.elems ++ [{ value with size := size, key := key }],
                     ll := elem :: lru.ll, cache := Map.insert key elem lru.cache })
  | some elem =>
    let existing := lru.value elem
    let sizeDiff := size - existing.size
    let r := lru.removeToFit now sizeDiff
    let lru := { r.2 with elems := r.2.elems.set elem { value with size := size } }.moveToFront elem
    (r.1, { lru with usedSize := lru.usedSize + sizeDiff })

/-- `Remove(key)`. -/
def Remove (lru : LRU) (key : Key) : List (Key × Entry) × LRU :=
  match lru.cache.lookup key with
  | some elem => lru.removeElement elem
  | none => ([], lru)

/-- `Get(key)`: the entry, read after its element moved to the front. -/
def Get (lru : LRU) (key : Key) : Option Entry × LRU :=
  match lru.cache.lookup key with
  | none => (none, lru)
  | some elem => (some (lru.value elem), lru.moveToFront elem)

end LRU

/-- The calls made on the cache. -/
inductive op where
  | Add (now : Nat) (key : Key) (value : Entry)
  | Get (key : Key)
  | Remove (key : Key)
  | Resize (now : Nat) (newMaxSize : Int)
deriving DecidableEq, Repr

namespace LRU

/-- One call, with the evictions it reports. -/
def step (lru : LRU) : op → List (Key × Entry) × LRU
  | .Add now key value => lru.Add now key value
  | .Get key => ([], (lru.Get key).2)
  | .Remove key => lru.Remove key
  | .Resize now newMaxSize => lru.Resize now newMaxSize

/-- Every call but an `Add` of a key the cache already holds: the runs that keep away from the
update path of `Add`. -/
def AddsNew (lru : LRU) : op → Prop
  | .Add _ key _ => key ∉ lru.cache.map Prod.fst
  | _ => True

instance (lru : LRU) (o : op) : Decidable (lru.AddsNew o) :=
  match o with
  | .Add _ key _ => inferInstanceAs (Decidable (key ∉ lru.cache.map Prod.fst))
  | .Get _ => isTrue trivial
  | .Remove _ => isTrue trivial
  | .Resize _ _ => isTrue trivial

end LRU

end Cache
end Rls
end GrpcGo
