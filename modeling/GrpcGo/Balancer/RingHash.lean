import GrpcGo.Balancer.Priority
import GrpcGo.Lib.GoMap
import GrpcGo.Lib.GoSlice
import GrpcGo.Lib.GoSort

/-!
# The ring_hash balancer (`xds/internal/balancer/ringhash`)

`updateAddresses` keeps one `subConn` for each address of the resolver's update, keyed by the
address with its weight (an unset weight counts as 1).  `UpdateClientConnState` rebuilds the ring
with `newRing` whenever those keys change, and panics when `newRing` fails.  `newRing` divides
the weights by their sum (`normalizeWeights`, which sums them in `uint32`), scales the shares to
the ring's size, gives each SubConn as many entries as its share of the ring, hashes each entry
and sorts the entries by hash.

The picker takes the entry of the request's hash.  An entry in TransientFailure goes to
`handleTransientFailure`, which walks the ring with `nextSkippingDuplicates` (the next entry of
another SubConn) until it comes back to the first entry.

Go's `float64` arithmetic is taken as exact, on `ℚ`; the entries' hash (`xxhash.Sum64String`)
is a parameter; `sort.Slice` is taken to be stable.  The loop of `handleTransientFailure` has no
bound in Go: the model runs it for `fuel` turns and returns `none` when they are used up.  The
states of the SubConns are those the picker reads during one pick, which its `queueConnect`
calls do not change; those calls are its output.

* `normalizeWeights_eq_ok_iff`, `sum_normalizeWeights`: the weights are accepted exactly when
  their sum modulo `2 ^ 32` is not zero, and the shares then add up to the exact sum over that.
* `next_iterate_length`: `next` comes back to an entry after going once round the ring, so
  the loop of `nextSkippingDuplicates` ends within that many turns.
* `weights_wrap_panics`: two addresses of weight `2 ^ 31` make `UpdateClientConnState` panic.
* `handleTransientFailure_loops`: on the ring `A, B, A, A` with both SubConns failing, a pick at
  the first entry never ends.
-/

namespace GrpcGo
namespace RingHash

open GoStd Priority

/-! ## SubConns and the ring -/

/-- The state of a ring_hash `subConn` that `effectiveState` reads. -/
structure scState where
  state : connectivityState
  failing : Bool
  deriving DecidableEq, Repr

/-- `sc.effectiveState()`: Idle and Connecting count as TransientFailure while failing. -/
def scState.effectiveState (s : scState) : connectivityState :=
  if s.failing && (s.state == .Idle || s.state == .Connecting) then .TransientFailure else s.state

/-- A ring_hash `subConn`: its address, and the number of the `balancer.SubConn` it wraps. -/
structure subConn where
  addr : String
  sc : Nat
  deriving DecidableEq, Repr

/-- An address of the resolver's update, with the weight `GetAddrInfo` finds on it. -/
structure Address where
  Addr : String
  Weight : UInt32
  deriving DecidableEq, Repr

/-- The key of `subConns`: the address without attributes, with its weight as `Metadata`. -/
abbrev addressKey := String × UInt32

/-- Keys compare field by field, so both models of `updateAddresses` decide membership in the
update's keys through this one instance. -/
instance : LawfulBEq addressKey := inferInstance

/-- `ringEntry`. -/
structure ringEntry where
  idx : Nat
  hash : UInt64
  sc : subConn
  deriving DecidableEq, Repr

/-- `ring`: its entries, each with its position in the ring as `idx`. -/
structure ring where
  items : List ringEntry
  idx_eq : ∀ (i : Nat) (h : i < items.length), (items.get ⟨i, h⟩).idx = i

/-- `subConnWithWeight`. -/
structure subConnWithWeight where
  sc : subConn
  weight : ℚ
  deriving DecidableEq, Repr

/-- `math.MaxFloat64`. -/
def MaxFloat64 : ℚ := (2 ^ 53 - 1) * 2 ^ 971

/-- `normalizeWeights(subConns)`: each SubConn's weight over the `uint32` sum of the weights,
sorted by address, and the least of them. -/
def normalizeWeights (subConns : List (addressKey × subConn)) :
    Except String (List subConnWithWeight × ℚ) :=
  if subConns.length = 0 then .error "number of subconns is 0"
  else
    let weightSum : UInt32 := (subConns.map fun a => a.1.2).foldl (· + ·) 0
    if weightSum = 0 then .error "total weight of all subconns is 0"
    else
      let weightSumF : ℚ := weightSum.toNat
      let ret := subConns.map fun a => (⟨a.2, (a.1.2.toNat : ℚ) / weightSumF⟩ : subConnWithWeight)
      let min := ret.foldl (fun m scw => if scw.weight < m then scw.weight else m) MaxFloat64
      .ok (ret.mergeSort fun a b => decide (a.sc.addr < b.sc.addr), min)

/-- The inner loop of `newRing` for one SubConn: `count` entries, each hashed from the SubConn's
address and the number of entries before it. -/
def addEntries (hash : String → UInt64) (sc : subConn) : Nat → List ringEntry → List ringEntry
  | 0, items => items
  | count + 1, items =>
    addEntries hash sc count (items ++ [⟨items.length, hash (sc.addr ++ toString items.length), sc⟩])

/-- The entries after the sort, each given its position as `idx`. -/
def reindex (items : List ringEntry) : List ringEntry :=
  items.mapIdx fun i e => { e with idx := i }

theorem reindex_idx (items : List ringEntry) :
    ∀ (i : Nat) (h : i < (reindex items).length), ((reindex items).get ⟨i, h⟩).idx = i := by
  intro i h
  simp [reindex]

/-- `newRing(subConns, minRingSize, maxRingSize)`, with `hash` for `xxhash.Sum64String`.  The loop
over the weights adds a SubConn's entries while `idx`, the number of entries so far, is below
`targetIdx`: up to its ceiling. -/
def newRing (hash : String → UInt64) (subConns : List (addressKey × subConn))
    (minRingSize maxRingSize : UInt64) : Except String ring := do
  let (normalizedWeights, minWeight) ← normalizeWeights subConns
  let scale : ℚ :=
    min ((⌈minWeight * minRingSize.toNat⌉ : ℚ) / minWeight) maxRingSize.toNat
  let (items, _) := normalizedWeights.foldl (fun (acc : List ringEntry × ℚ) scw =>
      let targetIdx := acc.2 + scale * scw.weight
      (addEntries hash scw.sc (⌈targetIdx⌉ - acc.1.length).toNat acc.1, targetIdx)) ([], 0)
  let sorted := items.mergeSort fun a b => decide (a.hash < b.hash)
  return ⟨reindex sorted, reindex_idx sorted⟩

/-- `r.pick(h)`: the first entry whose hash is at least `h`, found by `sort.Search`, and the
first entry when there is none. -/
def ring.pick (r : ring) (h : UInt64) : Except Failure ringEntry :=
  let i := Search r.items.length fun i => (r.items[i]?.map fun e => decide (h ≤ e.hash)).getD true
  let i := if i = r.items.length then 0 else i
  match r.items[i]? with
  | some e => .ok e
  | none => .error (.panic ("runtime error: index out of range [" ++ toString i ++
      "] with length " ++ toString r.items.length))

/-- `r.next(e)`: the entry after `e`, round the ring. -/
def ring.next (r : ring) (e : ringEntry) : ringEntry :=
  r.items.getD ((e.idx + 1) % r.items.length) e

/-- The loop of `nextSkippingDuplicates` from `next`, for at most `fuel` entries. -/
def nextSkippingDuplicatesLoop (r : ring) (entry : ringEntry) :
    Nat → ringEntry → Option ringEntry
  | 0, _ => none
  | fuel + 1, next =>
    if next = entry then none
    else if next.sc ≠ entry.sc then some next
    else nextSkippingDuplicatesLoop r entry fuel (r.next next)

/-- `nextSkippingDuplicates(ring, entry)`: the next entry of another SubConn, or `nil` when the
loop comes back to `entry`, which it does within one turn of the ring (`next_iterate_length`). -/
def nextSkippingDuplicates (r : ring) (entry : ringEntry) : Option ringEntry :=
  nextSkippingDuplicatesLoop r entry r.items.length (r.next entry)

/-! ## The picker -/

/-- What a pick ends with: a SubConn, an error, or a run-time panic. -/
inductive pickOutcome where
  | pick (sc : subConn)
  | error (err : String)
  | panic (msg : String)
  deriving DecidableEq, Repr

/-- `balancer.ErrNoSubConnAvailable`. -/
def ErrNoSubConnAvailable : String := "no SubConn is available"

/-- `p.handleRICS(e)`: the outcome for an entry that is not in TransientFailure, and the SubConns
`queueConnect` was called on. -/
def handleRICS (st : subConn → scState) (e : ringEntry) : Option pickOutcome × List subConn :=
  match (st e.sc).effectiveState with
  | .Ready => (some (.pick e.sc), [])
  | .Idle => (some (.error ErrNoSubConnAvailable), [e.sc])
  | .Connecting => (some (.error ErrNoSubConnAvailable), [])
  | .TransientFailure => (none, [])
  | .Shutdown => (some (.error ErrNoSubConnAvailable), [])

/-- The loop of `handleTransientFailure` from `ee`, for at most `fuel` turns: `none` when they
are used up. -/
def handleTransientFailureLoop (r : ring) (st : subConn → scState) (e : ringEntry) :
    Nat → Option ringEntry → Bool → List subConn → Option (pickOutcome × List subConn)
  | 0, _, _, _ => none
  -- `ee != e` holds for `nil`, whose `ee.sc` then panics
  | _ + 1, none, _, queued => some (.panic "invalid memory address or nil pointer dereference", queued)
  | fuel + 1, some ee, firstNonFailedFound, queued =>
    if ee = e then some (.error "no connection is Ready", queued)
    else
      let scState := (st ee.sc).effectiveState
      if scState = .Ready then some (.pick ee.sc, queued)
      else if firstNonFailedFound then
        handleTransientFailureLoop r st e fuel (nextSkippingDuplicates r ee) true queued
      else if scState = .TransientFailure then
        handleTransientFailureLoop r st e fuel (nextSkippingDuplicates r ee) false (queued ++ [ee.sc])
      else
        handleTransientFailureLoop r st e fuel (nextSkippingDuplicates r ee) true
          (if scState = .Idle then queued ++ [ee.sc] else queued)

/-- `p.handleTransientFailure(e)`, with its loop run for at most `fuel` turns. -/
def handleTransientFailure (r : ring) (st : subConn → scState) (e : ringEntry) (fuel : Nat) :
    Option (pickOutcome × List subConn) :=
  match nextSkippingDuplicates r e with
  | none => some (.error "the only SubConn is in Transient Failure", [e.sc])
  | some e2 =>
    match handleRICS st e2 with
    | (some res, queued) => some (res, [e.sc] ++ queued)
    | (none, _) =>
      handleTransientFailureLoop r st e fuel (nextSkippingDuplicates r e2) false [e.sc, e2.sc]

/-- `p.Pick(info)`, for a request whose hash is `h`. -/
def Pick (r : ring) (st : subConn → scState) (h : UInt64) (fuel : Nat) :
    Option (pickOutcome × List subConn) :=
  match r.pick h with
  | .error (.panic msg) => some (.panic msg, [])
  | .error (.error err) => some (.error err, [])
  | .ok e =>
    match handleRICS st e with
    | (some res, queued) => some (res, queued)
    | (none, _) => handleTransientFailure r st e fuel

/-! ## The balancer -/

/-- The fields of `ringhashBalancer` that `UpdateClientConnState` reads and writes. -/
structure ringhashBalancer where
  subConns : List (addressKey × subConn)
  /-- The number of SubConns the ClientConn made, which numbers the next one. -/
  created : Nat
  ring : Option ring

/-- `LBConfig`. -/
structure LBConfig where
  MinRingSize : UInt64
  MaxRingSize : UInt64
  deriving DecidableEq, Repr

/-- The key of an address: an unset weight counts as 1. -/
def addressKeyOf (a : Address) : addressKey :=
  (a.Addr, if a.Weight = 0 then 1 else a.Weight)

/-- `b.updateAddresses(addrs)`: a SubConn for each new key, none for the keys no longer in the
update, and whether the keys changed.  `NewSubConn` is taken to succeed. -/
def updateAddresses (b : ringhashBalancer) (addrs : List Address) : ringhashBalancer × Bool :=
  let added := addrs.foldl (fun (acc : ringhashBalancer × Bool) a =>
      let aNoAttrs := addressKeyOf a
      match acc.1.subConns.lookup aNoAttrs with
      | none =>
        ({ acc.1 with
            subConns := Map.insert aNoAttrs ⟨a.Addr, acc.1.created⟩ acc.1.subConns
            created := acc.1.created + 1 }, true)
      | some _ => acc) (b, false)
  let addrsSet := addrs.map addressKeyOf
  let kept := added.1.subConns.filter fun e => decide (e.1 ∈ addrsSet)
  ({ added.1 with subConns := kept }, added.2 || decide (kept.length ≠ added.1.subConns.length))

/-- `b.UpdateClientConnState(s)` for the addresses `addrs`: the ring is rebuilt when the keys
changed, and a failure of `newRing` panics; an empty update is `ErrBadResolverState`. -/
def UpdateClientConnState (hash : String → UInt64) (b : ringhashBalancer) (config : LBConfig)
    (addrs : List Address) : Except Failure (ringhashBalancer × Option String) := do
  let (b, addrsUpdated) := updateAddresses b addrs
  let b ← if addrsUpdated then
      match newRing hash b.subConns config.MinRingSize config.MaxRingSize with
      | .error err => .error (.panic err)
      | .ok r => .ok { b with ring := some r }
    else .ok b
  if addrs.length = 0 then return (b, some "bad resolver state") else return (b, none)

/-! ## The weights -/

/-- A `uint32` sum is the exact sum modulo `2 ^ 32`. -/
theorem toNat_foldl_add (l : List UInt32) :
    ∀ acc : UInt32, (l.foldl (· + ·) acc).toNat = (acc.toNat + (l.map UInt32.toNat).sum) % 2 ^ 32 := by
  induction l with
  | nil =>
    intro acc
    simp [Nat.mod_eq_of_lt acc.toNat_lt]
  | cons x xs ih =>
    intro acc
    rw [List.foldl_cons, ih, UInt32.toNat_add, List.map_cons, List.sum_cons, Nat.mod_add_mod,
      Nat.add_assoc]

/-- The exact sum of the weights of `subConns`. -/
def weightTotal (subConns : List (addressKey × subConn)) : Nat :=
  (subConns.map fun a => a.1.2.toNat).sum

theorem toNat_weightSum (subConns : List (addressKey × subConn)) :
    ((subConns.map fun a : addressKey × subConn => a.1.2).foldl (· + ·) 0).toNat =
      weightTotal subConns % 2 ^ 32 := by
  rw [toNat_foldl_add, UInt32.toNat_zero, Nat.zero_add, List.map_map]
  rfl

/-- **Which weights `normalizeWeights` accepts**: some, whose sum modulo `2 ^ 32` is not zero. -/
theorem normalizeWeights_eq_ok_iff (subConns : List (addressKey × subConn)) :
    (∃ r, normalizeWeights subConns = .ok r) ↔
      subConns ≠ [] ∧ weightTotal subConns % 2 ^ 32 ≠ 0 := by
  have hsum := toNat_weightSum subConns
  unfold normalizeWeights
  by_cases hnil : subConns = []
  · subst hnil
    simp
  · have hlen : subConns.length ≠ 0 := fun h => hnil (List.length_eq_zero_iff.mp h)
    rw [if_neg hlen]
    dsimp only
    by_cases hzero : (subConns.map fun a : addressKey × subConn => a.1.2).foldl (· + ·) 0 = 0
    · -- the sum wrapped to zero
      rw [hzero, UInt32.toNat_zero] at hsum
      rw [if_pos hzero]
      exact iff_of_false (fun ⟨_, h⟩ => by cases h) (fun h => h.2 hsum.symm)
    · have hne : weightTotal subConns % 2 ^ 32 ≠ 0 := by
        rw [← hsum]
        exact fun h => hzero (UInt32.toNat_inj.mp h)
      rw [if_neg hzero]
      exact iff_of_true ⟨_, rfl⟩ ⟨hnil, hne⟩

/-- **The shares add up to the exact sum over the wrapped one.**  They add up to one exactly when
the `uint32` sum does not wrap. -/
theorem sum_normalizeWeights {subConns : List (addressKey × subConn)}
    {ret : List subConnWithWeight} {min : ℚ} (h : normalizeWeights subConns = .ok (ret, min)) :
    (ret.map (·.weight)).sum = (weightTotal subConns : ℚ) / (weightTotal subConns % 2 ^ 32 : Nat) := by
  have hsum := toNat_weightSum subConns
  unfold normalizeWeights at h
  dsimp only at h
  split_ifs at h
  cases h
  -- the sort only reorders the shares
  rw [((List.mergeSort_perm _ _).map _).sum_eq, List.map_map, ← hsum, weightTotal]
  simp only [Function.comp_def, div_eq_mul_inv]
  rw [List.sum_map_mul_right, Nat.cast_list_sum, List.map_map]
  rfl

/-! ## Going round the ring -/

/-- `next` moves one place round the ring. -/
theorem next_of_mem {r : ring} {e : ringEntry} (he : r.items[e.idx]? = some e) :
    r.items[(e.idx + 1) % r.items.length]? = some (r.next e) := by
  have hpos : 0 < r.items.length := by
    have := (List.getElem?_eq_some_iff.mp he).1
    omega
  rw [ring.next, List.getD_eq_getElem?_getD, List.getElem?_eq_getElem (Nat.mod_lt _ hpos)]
  rfl

/-- An entry of the ring is at the position its `idx` names. -/
theorem idx_of_mem {r : ring} {i : Nat} {e : ringEntry} (he : r.items[i]? = some e) : e.idx = i := by
  obtain ⟨hi, hget⟩ := List.getElem?_eq_some_iff.mp he
  rw [← hget]
  exact r.idx_eq i hi

/-- `k` turns of `next` move `k` places round the ring. -/
theorem next_iterate {r : ring} {e : ringEntry} (he : r.items[e.idx]? = some e) :
    ∀ k, r.items[(e.idx + k) % r.items.length]? = some (r.next^[k] e)
  | 0 => by
    have hlt := (List.getElem?_eq_some_iff.mp he).1
    rw [Nat.add_zero, Nat.mod_eq_of_lt hlt, Function.iterate_zero, id]
    exact he
  | k + 1 => by
    have hk := next_iterate he k
    have hidx := idx_of_mem hk
    rw [Function.iterate_succ_apply', ← next_of_mem (hidx ▸ hk), hidx, Nat.mod_add_mod,
      Nat.add_assoc]

/-- **`next` comes back after one turn of the ring.** -/
theorem next_iterate_length {r : ring} {e : ringEntry} (he : r.items[e.idx]? = some e) :
    r.next^[r.items.length] e = e := by
  have h := next_iterate he r.items.length
  rw [Nat.add_mod_right, Nat.mod_eq_of_lt (List.getElem?_eq_some_iff.mp he).1, he] at h
  exact (Option.some.inj h).symm

/-! ## Where the weights wrap -/

/-- **Two heavy addresses make the balancer panic.**  Two addresses of weight `2 ^ 31` sum to zero
in `uint32`, so `normalizeWeights` fails, and `UpdateClientConnState` on a balancer without
SubConns panics with its error. -/
theorem weights_wrap_panics (hash : String → UInt64) (config : LBConfig) :
    normalizeWeights [(("a", 2147483648), ⟨"a", 0⟩), (("b", 2147483648), ⟨"b", 1⟩)] =
        .error "total weight of all subconns is 0" ∧
      UpdateClientConnState hash ⟨[], 0, none⟩ config [⟨"a", 2147483648⟩, ⟨"b", 2147483648⟩] =
        .error (.panic "total weight of all subconns is 0") :=
  ⟨rfl, rfl⟩

/-! ## A pick that never ends -/

/-- The SubConn `A`. -/
def scA : subConn := ⟨"a", 0⟩

/-- The SubConn `B`. -/
def scB : subConn := ⟨"b", 1⟩

/-- A ring whose entries belong, in hash order, to `A`, `B`, `A` and `A`. -/
def ringABAA : ring :=
  ⟨[⟨0, 1, scA⟩, ⟨1, 2, scB⟩, ⟨2, 3, scA⟩, ⟨3, 4, scA⟩], by decide⟩

/-- The request hash `0` picks the first entry of any ring. -/
theorem pick_zero {r : ring} {e : ringEntry} (he : r.items[0]? = some e) : r.pick 0 = .ok e := by
  have htrue : ∀ i : Nat,
      (r.items[i]?.map fun e : ringEntry => decide ((0 : UInt64) ≤ e.hash)).getD true = true := by
    intro i
    cases r.items[i]? <;> simp [UInt64.zero_le]
  have hsearch := Search_eq_zero (n := r.items.length) (fun _ b _ _ => htrue b) (htrue 0)
  have hlen : r.items.length ≠ 0 := by
    have := (List.getElem?_eq_some_iff.mp he).1
    omega
  unfold ring.pick
  simp only [hsearch, if_neg (Ne.symm hlen), he]

section Failing

variable (st : subConn → scState) (hA : (st scA).effectiveState = .TransientFailure)
  (hB : (st scB).effectiveState = .TransientFailure)
include hA hB

/-- With `A` and `B` failing, the loop started at the first entry goes from the third entry to the
second and back, forever: `nextSkippingDuplicates` from the third entry skips the first, whose
SubConn is the third's. -/
theorem loop_ABAA : ∀ fuel queued,
    handleTransientFailureLoop ringABAA st ⟨0, 1, scA⟩ fuel (some ⟨2, 3, scA⟩) false queued = none ∧
      handleTransientFailureLoop ringABAA st ⟨0, 1, scA⟩ fuel (some ⟨1, 2, scB⟩) false queued =
        none
  | 0, _ => ⟨rfl, rfl⟩
  | fuel + 1, queued => by
    have hnext2 : nextSkippingDuplicates ringABAA ⟨2, 3, scA⟩ = some ⟨1, 2, scB⟩ := by decide
    have hnext1 : nextSkippingDuplicates ringABAA ⟨1, 2, scB⟩ = some ⟨2, 3, scA⟩ := by decide
    constructor
    · simp only [handleTransientFailureLoop, hA, hnext2]
      exact (loop_ABAA fuel _).2
    · simp only [handleTransientFailureLoop, hB, hnext1]
      exact (loop_ABAA fuel _).1

/-- With `A` and `B` failing, a pick of the request hash `0` on the ring `A, B, A, A` does not end
within any number of turns of its loop. -/
theorem Pick_ABAA (fuel : Nat) : Pick ringABAA st 0 fuel = none := by
  have hpick : ringABAA.pick 0 = .ok ⟨0, 1, scA⟩ := pick_zero rfl
  have hnext0 : nextSkippingDuplicates ringABAA ⟨0, 1, scA⟩ = some ⟨1, 2, scB⟩ := by decide
  have hnext1 : nextSkippingDuplicates ringABAA ⟨1, 2, scB⟩ = some ⟨2, 3, scA⟩ := by decide
  simp only [Pick, hpick, handleRICS, hA, handleTransientFailure, hnext0, hB, hnext1]
  exact (loop_ABAA st hA hB fuel _).1

end Failing

/-- **The fallback loop of the picker does not end.**  On the ring `A, B, A, A` with both
SubConns in TransientFailure, the pick of the request hash `0` reaches `handleTransientFailure` at
the first entry, whose loop visits the third and second entries in turn and never comes back to
the first: no number of turns ends it. -/
theorem handleTransientFailure_loops (fuel : Nat) :
    Pick ringABAA (fun _ => ⟨.TransientFailure, true⟩) 0 fuel = none :=
  Pick_ABAA _ rfl rfl fuel

end RingHash
end GrpcGo
