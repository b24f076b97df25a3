import GrpcGo.Balancer.RingHash
import GrpcGo.Lib.Machine
import GrpcGo.Lib.StateTally

/-!
# The ring_hash balancer's connectivity counters

`ringhashBalancer` keeps the `subConn` of each SubConn it made in `scStates` until that SubConn's
Shutdown arrives, and a `connectivityStateEvaluator` whose `nums [5]uint64` count the SubConns by
`effectiveState()` (Idle and Connecting read as TransientFailure while the SubConn is failing).
`recordTransition(old, new)` adds `2*uint64(idx) - 1` to the counter of each of its two states,
one down for `old` and one up for `new`, and evaluates the counters.  `updateAddresses` records
each SubConn it makes as a transition from Shutdown to Idle, and `UpdateSubConnState` records
the effective state before and after `setState`, and deletes the SubConn on Shutdown.

The counters are the code's `uint64`: they wrap, and the count they hold is the number of SubConns
modulo `2 ^ 64`.  The outputs of the model are the results of `recordTransition`, each with the
SubConn states it was computed after (a ghost copy of `scStates`, which nothing in the code reads).
The ring, which the counters do not read, and the panic of `newRing` which ends a run, are those
of `RingHash.UpdateClientConnState`; `NewSubConn` is taken to succeed, and a queued `Connect`
changes no state.

`counters_exact`: after any events the counters hold the number of SubConns in each state but
Shutdown, and every result `recordTransition` gave was the aggregate its documentation states of
the counts at that moment.
-/

namespace GrpcGo
namespace RingHash

open GoStd Priority Tally Machine

/-- `sc.setState(s)`: Ready clears `failing` and TransientFailure sets it. -/
def scState.setState (sc : scState) (s : connectivityState) : scState :=
  match s with
  | .Ready => { state := s, failing := false }
  | .TransientFailure => { state := s, failing := true }
  | _ => { sc with state := s }

/-- `connectivityStateEvaluator`: `nums [5]uint64`, a counter per state. -/
structure connectivityStateEvaluator where
  nums : connectivityState → UInt64

/-- `cse.recordTransition(oldState, newState)`. -/
def connectivityStateEvaluator.recordTransition (cse : connectivityStateEvaluator)
    (oldState newState : connectivityState) : connectivityState × connectivityStateEvaluator :=
  -- `updateVal` is -1 for `oldState` and +1 for `newState`
  let cse := [oldState, newState].zipIdx.foldl (fun (cse : connectivityStateEvaluator) (state, idx) =>
      let updateVal : UInt64 := 2 * UInt64.ofNat idx - 1
      { nums := Function.update cse.nums state (cse.nums state + updateVal) }) cse
  (if cse.nums .Ready > 0 then .Ready
    else if cse.nums .TransientFailure > 1 then .TransientFailure
    else if cse.nums .Connecting > 0 then .Connecting
    else if cse.nums .Idle > 0 then .Idle
    else .TransientFailure, cse)

/-- The aggregate `recordTransition` documents, of a count per state: Ready if one is Ready;
else TransientFailure if two are; else Connecting if one is; else Idle if one is; else
TransientFailure. -/
def aggregateOf (n : connectivityState → UInt64) : connectivityState :=
  if 0 < n .Ready then .Ready
  else if 1 < n .TransientFailure then .TransientFailure
  else if 0 < n .Connecting then .Connecting
  else if 0 < n .Idle then .Idle
  else .TransientFailure

/-- The fields of `ringhashBalancer` with the SubConns' states: `scStates` holds the `subConn`
state of each SubConn by its number. -/
structure ringhashStates extends ringhashBalancer where
  scStates : List (Nat × scState)
  csEvltr : connectivityStateEvaluator
  state : connectivityState

/-- A result of `recordTransition`, with the SubConn states it was computed after. -/
structure record where
  result : connectivityState
  scStates : List (Nat × scState)

/-- The SubConn `updateAddresses` makes for the new address `a`: numbered `created`, set Idle and
recorded as a transition from Shutdown. -/
def ringhashStates.newSubConn (b : ringhashStates) (a : Address) : record × ringhashStates :=
  let sc := b.created
  let scs := scState.setState ⟨.Idle, false⟩ .Idle
  let rt := b.csEvltr.recordTransition .Shutdown .Idle
  let scStates := Map.insert sc scs b.scStates
  let b' : ringhashStates :=
    { b with
      subConns := Map.insert (addressKeyOf a) ⟨a.Addr, sc⟩ b.subConns
      created := sc + 1
      scStates, csEvltr := rt.2, state := rt.1 }
  (⟨rt.1, scStates⟩, b')

/-- The loop body of `updateAddresses` for the address `a`. -/
def updateAddress (acc : List record × ringhashStates × Bool) (a : Address) :
    List record × ringhashStates × Bool :=
  match acc.2.1.subConns.lookup (addressKeyOf a) with
  | none => (acc.1 ++ [(acc.2.1.newSubConn a).1], (acc.2.1.newSubConn a).2, true)
  | some _ => acc

/-- `b.updateAddresses(addrs)`: a SubConn whose key is gone keeps its state until its Shutdown. -/
def ringhashStates.updateAddresses (b : ringhashStates) (addrs : List Address) :
    List record × ringhashStates × Bool :=
  let acc := addrs.foldl updateAddress ([], b, false)
  let addrsSet := addrs.map addressKeyOf
  let kept := acc.2.1.subConns.filter fun e => decide (e.1 ∈ addrsSet)
  (acc.1, { acc.2.1 with subConns := kept },
    acc.2.2 || decide (kept.length ≠ acc.2.1.subConns.length))

/-- `b.ResolverError(err)`: TransientFailure when no SubConn is left. -/
def ringhashStates.ResolverError (b : ringhashStates) : ringhashStates :=
  if b.subConns.length = 0 then { b with state := .TransientFailure } else b

/-- What `b.UpdateClientConnState(s)` does to the states: `updateAddresses`, and for an update
with no address `ResolverError`. -/
def ringhashStates.UpdateClientConnState (b : ringhashStates) (addrs : List Address) :
    List record × ringhashStates :=
  let r := b.updateAddresses addrs
  if addrs.length = 0 then (r.1, r.2.1.ResolverError) else (r.1, r.2.1)

/-- `b.UpdateSubConnState(sc, s)` for the SubConn numbered `sc`. -/
def ringhashStates.UpdateSubConnState (b : ringhashStates) (sc : Nat) (s : connectivityState) :
    List record × ringhashStates :=
  match b.scStates.lookup sc with
  | none => ([], b)
  | some scs =>
    let oldSCState := scs.effectiveState
    let scs := scs.setState s
    let newSCState := scs.effectiveState
    let rt := b.csEvltr.recordTransition oldSCState newSCState
    let scStates := Map.insert sc scs b.scStates
    -- a SubConn's state is kept until its Shutdown
    let scStates := if s = .Shutdown then Map.erase sc scStates else scStates
    ([⟨rt.1, scStates⟩], { b with scStates, csEvltr := rt.2, state := rt.1 })

/-- The calls the ClientConn makes on the balancer. -/
inductive event
  | UpdateClientConnState (addrs : List Address)
  | UpdateSubConnState (sc : Nat) (s : connectivityState)

def step (b : ringhashStates) : event → List record × ringhashStates
  | .UpdateClientConnState addrs => b.UpdateClientConnState addrs
  | .UpdateSubConnState sc s => b.UpdateSubConnState sc s

/-- The balancer `Build` returns. -/
def New : ringhashStates :=
  ⟨⟨[], 0, none⟩, [], ⟨fun _ => 0⟩, .Idle⟩

/-! ## The evaluator -/

/-- `recordTransition` moves one count from `oldState` to `newState`. -/
theorem recordTransition_nums (cse : connectivityStateEvaluator) (o n : connectivityState) :
    (cse.recordTransition o n).2.nums = shift cse.nums o n := by
  have hdown : (2 * UInt64.ofNat 0 - 1 : UInt64) = -1 := by decide
  have hup : (2 * UInt64.ofNat 1 - 1 : UInt64) = 1 := by decide
  funext s
  simp only [connectivityStateEvaluator.recordTransition, List.zipIdx_cons, List.zipIdx_nil,
    List.foldl_cons, List.foldl_nil, hdown, hup, Function.update_apply, shift]
  by_cases ho : o = s <;> by_cases hn : n = s <;> simp [ho, hn, eq_comm]
  abel

theorem recordTransition_result (cse : connectivityStateEvaluator) (o n : connectivityState) :
    (cse.recordTransition o n).1 = aggregateOf (cse.recordTransition o n).2.nums := by
  simp only [connectivityStateEvaluator.recordTransition, aggregateOf, gt_iff_lt]

/-- The aggregate reads no count of Shutdown. -/
theorem aggregateOf_congr {n n' : connectivityState → UInt64}
    (h : ∀ s, s ≠ .Shutdown → n s = n' s) : aggregateOf n = aggregateOf n' := by
  simp only [aggregateOf, h .Ready (by decide), h .TransientFailure (by decide),
    h .Connecting (by decide), h .Idle (by decide)]

/-- The number of SubConns whose effective state is `s`, in `uint64`. -/
def count (scStates : List (Nat × scState)) (s : connectivityState) : UInt64 :=
  UInt64.ofNat (scStates.countP fun e => e.2.effectiveState = s)

theorem tally_eq_count (scStates : List (Nat × scState)) (s : connectivityState) :
    tally scState.effectiveState scStates s = count scStates s :=
  nsmul_one_eq_ofNat _

/-- A result computed from counters that hold the counts is the aggregate of the counts. -/
theorem recordTransition_result_of_counts {cse : connectivityStateEvaluator}
    {o n : connectivityState} {m : List (Nat × scState)}
    (h : Counts (cse.recordTransition o n).2.nums scState.effectiveState m .Shutdown) :
    (cse.recordTransition o n).1 = aggregateOf (count m) := by
  rw [recordTransition_result]
  exact aggregateOf_congr fun s hs => by rw [h s hs, tally_eq_count]

/-! ## The SubConns -/

/-- **The states model makes the SubConns `RingHash.updateAddresses` makes.** -/
theorem updateAddresses_toringhashBalancer (b : ringhashStates) (addrs : List Address) :
    ((b.updateAddresses addrs).2.1.toringhashBalancer, (b.updateAddresses addrs).2.2) =
      RingHash.updateAddresses b.toringhashBalancer addrs := by
  unfold RingHash.updateAddresses ringhashStates.updateAddresses
  -- the loop of `RingHash.updateAddresses` is the image of `updateAddress`'s
  rw [@List.foldl_hom _ _ _
    (fun acc : List record × ringhashStates × Bool => (acc.2.1.toringhashBalancer, acc.2.2))
    updateAddress _ addrs ([], b, false) ?step]
  intro acc a
  simp only [updateAddress]
  rcases acc.2.1.subConns.lookup (addressKeyOf a) with _ | _ <;> rfl

/-! ## The invariant -/

/-- What every state the balancer reaches keeps: no SubConn twice in `scStates`, none numbered
from `created` on, and counters that hold the number of SubConns in each effective state. -/
structure Inv (b : ringhashStates) : Prop where
  nodup : (b.scStates.map Prod.fst).Nodup
  fresh : ∀ sc ∈ b.scStates.map Prod.fst, sc < b.created
  counts : Counts b.csEvltr.nums scState.effectiveState b.scStates .Shutdown

/-- Every recorded result is the aggregate of the counts it was computed after. -/
def Recorded (out : List record) : Prop :=
  ∀ r ∈ out, r.result = aggregateOf (count r.scStates)

theorem recorded_nil : Recorded [] := fun _ h => absurd h List.not_mem_nil

theorem inv_New : Inv New where
  nodup := List.nodup_nil
  fresh := by simp [New]
  counts := counts_nil _

theorem Recorded.append {out out' : List record} (h : Recorded out) (h' : Recorded out') :
    Recorded (out ++ out') := by
  intro r hr
  rcases List.mem_append.mp hr with hr | hr
  · exact h r hr
  · exact h' r hr

/-- A new SubConn: its number is fresh, so the counters shift from Shutdown to Idle. -/
theorem newSubConn_inv {b : ringhashStates} (h : Inv b) (a : Address) :
    Inv (b.newSubConn a).2 ∧ Recorded [(b.newSubConn a).1] := by
  -- the SubConn numbered `b.created` is not in `scStates`
  have hnone : b.scStates.lookup b.created = none := by
    rcases hl : b.scStates.lookup b.created with _ | v
    · rfl
    · have := h.fresh _ (List.mem_map.mpr ⟨_, Map.mem_of_lookup_eq_some hl, rfl⟩)
      omega
  have hcounts := h.counts.insert_of_lookup_none hnone (scState.setState ⟨.Idle, false⟩ .Idle)
  rw [← recordTransition_nums] at hcounts
  refine ⟨⟨Map.nodup_keys_insert _ _ _ h.nodup, ?_, hcounts⟩, ?_⟩
  · intro sc hsc
    obtain ⟨e, he, rfl⟩ := List.mem_map.mp hsc
    rcases Map.keys_insert_subset _ _ _ e he with rfl | he'
    · exact Nat.lt_succ_self _
    · exact Nat.lt_succ_of_lt (h.fresh _ (List.mem_map.mpr ⟨e, he', rfl⟩))
  · intro r hr
    rw [List.mem_singleton] at hr
    subst hr
    exact recordTransition_result_of_counts hcounts

theorem updateAddress_inv {out : List record} {b : ringhashStates} {addrsUpdated : Bool}
    (h : Inv b) (hout : Recorded out) (a : Address) :
    Inv (updateAddress (out, b, addrsUpdated) a).2.1 ∧
      Recorded (updateAddress (out, b, addrsUpdated) a).1 := by
  simp only [updateAddress]
  split
  · exact ⟨(newSubConn_inv h a).1, hout.append (newSubConn_inv h a).2⟩
  · exact ⟨h, hout⟩

theorem foldl_updateAddress_inv : ∀ (addrs : List Address) {acc : List record × ringhashStates × Bool},
    Inv acc.2.1 → Recorded acc.1 →
      Inv (addrs.foldl updateAddress acc).2.1 ∧ Recorded (addrs.foldl updateAddress acc).1
  | [], _, h, hout => ⟨h, hout⟩
  | a :: addrs, (_, _, _), h, hout => by
    obtain ⟨h', hout'⟩ := updateAddress_inv h hout a
    exact foldl_updateAddress_inv addrs h' hout'

theorem ResolverError_inv {b : ringhashStates} (h : Inv b) : Inv b.ResolverError := by
  unfold ringhashStates.ResolverError
  split_ifs
  · exact ⟨h.nodup, h.fresh, h.counts⟩
  · exact h

theorem UpdateClientConnState_inv {b : ringhashStates} (h : Inv b) (addrs : List Address) :
    Inv (b.UpdateClientConnState addrs).2 ∧ Recorded (b.UpdateClientConnState addrs).1 := by
  obtain ⟨h', hout⟩ := foldl_updateAddress_inv addrs
    (show Inv ([], b, false).2.1 from h) recorded_nil
  -- deleting keys from `subConns` leaves `scStates` and the counters
  have hupd : Inv (b.updateAddresses addrs).2.1 := ⟨h'.nodup, h'.fresh, h'.counts⟩
  unfold ringhashStates.UpdateClientConnState
  split_ifs
  · exact ⟨ResolverError_inv hupd, hout⟩
  · exact ⟨hupd, hout⟩

/-- A SubConn's Shutdown leaves it in Shutdown, which no counter of the aggregate reads. -/
theorem effectiveState_setState_Shutdown (sc : scState) :
    (sc.setState .Shutdown).effectiveState = .Shutdown := by
  simp [scState.setState, scState.effectiveState]

theorem UpdateSubConnState_inv {b : ringhashStates} (h : Inv b) (sc : Nat)
    (s : connectivityState) :
    Inv (b.UpdateSubConnState sc s).2 ∧ Recorded (b.UpdateSubConnState sc s).1 := by
  unfold ringhashStates.UpdateSubConnState
  split
  · exact ⟨h, recorded_nil⟩
  · rename_i scs hl
    have hsub : ∀ k ∈ (Map.insert sc (scs.setState s) b.scStates).map Prod.fst,
        k ∈ b.scStates.map Prod.fst := by
      intro k hk
      obtain ⟨e, he, rfl⟩ := List.mem_map.mp hk
      rcases Map.keys_insert_subset _ _ _ e he with rfl | he'
      · exact List.mem_map.mpr ⟨_, Map.mem_of_lookup_eq_some hl, rfl⟩
      · exact List.mem_map.mpr ⟨e, he', rfl⟩
    have hnodup := Map.nodup_keys_insert sc (scs.setState s) _ h.nodup
    -- the counters after the transition, over the states after it
    have hcounts : Counts (b.csEvltr.recordTransition scs.effectiveState
        (scs.setState s).effectiveState).2.nums scState.effectiveState
        (if s = .Shutdown then Map.erase sc (Map.insert sc (scs.setState s) b.scStates)
          else Map.insert sc (scs.setState s) b.scStates) .Shutdown := by
      rw [recordTransition_nums]
      split_ifs with hs
      · subst hs
        rw [Map.erase_insert_self, effectiveState_setState_Shutdown]
        exact h.counts.erase_of_lookup h.nodup hl
      · exact h.counts.insert_of_lookup h.nodup hl _
    refine ⟨⟨?_, ?_, hcounts⟩, ?_⟩
    · split_ifs
      · exact Map.nodup_keys_erase _ _ hnodup
      · exact hnodup
    · intro k hk
      refine h.fresh k (hsub k ?_)
      split_ifs at hk
      · obtain ⟨e, he, rfl⟩ := List.mem_map.mp hk
        exact List.mem_map.mpr ⟨e, Map.erase_subset _ _ e he, rfl⟩
      · exact hk
    · intro r hr
      rw [List.mem_singleton] at hr
      subst hr
      exact recordTransition_result_of_counts hcounts

theorem inv_step : Invariant (fun _ _ => True) step Inv := by
  rintro b (addrs | ⟨sc, s⟩) h -
  · exact (UpdateClientConnState_inv h addrs).1
  · exact (UpdateSubConnState_inv h sc s).1

/-- **The counters stay exact.**  After any calls, the counter of each state but Shutdown holds
the number of SubConns in `scStates` whose effective state it is (in `uint64`), and every
result `recordTransition` gave is the documented aggregate of the counts it was computed after. -/
theorem counters_exact (es : List event) :
    (∀ s, s ≠ .Shutdown → (run step New es).2.csEvltr.nums s = count (run step New es).2.scStates s) ∧
      ∀ r ∈ (run step New es).1, r.result = aggregateOf (count r.scStates) := by
  have hadm : Admits (fun _ _ => True) step New es := admits_of_forall (fun _ _ => trivial) New es
  have hinv := inv_step.run inv_New hadm
  have hrec := inv_step.outputs (P := fun out b => Recorded out)
    (fun out b e h _ hout => by
      cases e with
      | UpdateClientConnState addrs => exact hout.append (UpdateClientConnState_inv h addrs).2
      | UpdateSubConnState sc s => exact hout.append (UpdateSubConnState_inv h sc s).2)
    inv_New hadm recorded_nil
  rw [List.nil_append] at hrec
  exact ⟨fun s hs => by rw [hinv.counts s hs, tally_eq_count], hrec⟩

end RingHash
end GrpcGo
