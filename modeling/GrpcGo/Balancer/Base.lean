import GrpcGo.Balancer.Priority
import GrpcGo.Lib.Machine
import GrpcGo.Lib.StateTally

/-!
# The base balancer's connectivity counters (`balancer/base`)

`baseBalancer` keeps the last state of each SubConn it made in `scStates` until that SubConn's
Shutdown arrives, and a `ConnectivityStateEvaluator` whose `uint64` fields count the SubConns in
Ready, Connecting, TransientFailure and Idle.  `RecordTransition(old, new)` adds
`2*uint64(idx) - 1` to the counter of each of its two states (Shutdown has none) and evaluates the
counters.  `UpdateClientConnState` records each SubConn it makes as a transition from Shutdown to
Idle and drops the result; `UpdateSubConnState` ignores a SubConn it does not know and a
TransientFailure SubConn's move to Connecting or Idle, and otherwise records the transition and
sets `b.state` to the result.  When an update has no address, `ResolverError` sets `b.state` to
TransientFailure if no address is left, whatever states the SubConns still awaiting their
Shutdown hold.

Addresses are strings; `NewSubConn` is taken to succeed, numbering the SubConns in turn; pickers,
errors and `Connect` calls are left out.  The outputs are the states sent with
`cc.UpdateState`.

* `baseBalancer_counters_exact`: after any calls the counters hold the number of SubConns in
  each state, and an `UpdateSubConnState` that records a transition leaves `b.state` the
  aggregate `RecordTransition` documents of those counts.
* `ignored_transition_keeps_state`: after an update with no address, a TransientFailure SubConn's
  ignored move to Idle leaves `b.state` TransientFailure while a removed SubConn is still Ready.
-/

namespace GrpcGo
namespace Base

open GoStd Priority Tally Machine

/-- `balancer.ConnectivityStateEvaluator`. -/
structure ConnectivityStateEvaluator where
  numReady : UInt64
  numConnecting : UInt64
  numTransientFailure : UInt64
  numIdle : UInt64
  deriving DecidableEq

/-- The counter of a state; Shutdown has none. -/
def ConnectivityStateEvaluator.num (cse : ConnectivityStateEvaluator) :
    connectivityState → UInt64
  | .Ready => cse.numReady
  | .Connecting => cse.numConnecting
  | .TransientFailure => cse.numTransientFailure
  | .Idle => cse.numIdle
  | .Shutdown => 0

/-- The `switch state` of `RecordTransition`'s loop. -/
def ConnectivityStateEvaluator.update (cse : ConnectivityStateEvaluator)
    (state : connectivityState) (updateVal : UInt64) : ConnectivityStateEvaluator :=
  match state with
  | .Ready => { cse with numReady := cse.numReady + updateVal }
  | .Connecting => { cse with numConnecting := cse.numConnecting + updateVal }
  | .TransientFailure => { cse with numTransientFailure := cse.numTransientFailure + updateVal }
  | .Idle => { cse with numIdle := cse.numIdle + updateVal }
  | .Shutdown => cse

/-- `cse.RecordTransition(oldState, newState)`. -/
def ConnectivityStateEvaluator.RecordTransition (cse : ConnectivityStateEvaluator)
    (oldState newState : connectivityState) : connectivityState × ConnectivityStateEvaluator :=
  -- `updateVal` is -1 for `oldState` and +1 for `newState`
  let cse := [oldState, newState].zipIdx.foldl
    (fun (cse : ConnectivityStateEvaluator) (state, idx) =>
      cse.update state (2 * UInt64.ofNat idx - 1)) cse
  (if cse.numReady > 0 then .Ready
    else if cse.numConnecting > 0 then .Connecting
    else if cse.numTransientFailure > 0 then .TransientFailure
    else if cse.numIdle > 0 then .Idle
    else .TransientFailure, cse)

/-- The aggregate `RecordTransition` documents, of a count per state: Ready if one is Ready;
else Connecting if one is; else TransientFailure if one is; else Idle if one is; else (no
SubConn) TransientFailure. -/
def aggregateOf (n : connectivityState → UInt64) : connectivityState :=
  if 0 < n .Ready then .Ready
  else if 0 < n .Connecting then .Connecting
  else if 0 < n .TransientFailure then .TransientFailure
  else if 0 < n .Idle then .Idle
  else .TransientFailure

/-- The fields of `baseBalancer` the states are in: `subConns` maps an address to the number of
its SubConn, and `created` numbers the next one. -/
structure baseBalancer where
  subConns : List (String × Nat)
  scStates : List (Nat × connectivityState)
  csEvltr : ConnectivityStateEvaluator
  state : connectivityState
  created : Nat

/-- The loop body of `UpdateClientConnState` for the address `a`: a SubConn for a new address,
Idle, recorded as a transition from Shutdown. -/
def updateAddress (b : baseBalancer) (a : String) : baseBalancer :=
  match b.subConns.lookup a with
  | none =>
    let sc := b.created
    { b with
      subConns := Map.insert a sc b.subConns
      scStates := Map.insert sc .Idle b.scStates
      csEvltr := (b.csEvltr.RecordTransition .Shutdown .Idle).2
      created := sc + 1 }
  | some _ => b

/-- `b.ResolverError(err)`: TransientFailure when no address is left, sent to the ClientConn. -/
def baseBalancer.ResolverError (b : baseBalancer) : List connectivityState × baseBalancer :=
  let b := if b.subConns.length = 0 then { b with state := .TransientFailure } else b
  if b.state = .TransientFailure then ([b.state], b) else ([], b)

/-- `b.UpdateClientConnState(s)` for the addresses `addrs`: a SubConn whose address is gone keeps
its state until its Shutdown. -/
def baseBalancer.UpdateClientConnState (b : baseBalancer) (addrs : List String) :
    List connectivityState × baseBalancer :=
  let b := addrs.foldl updateAddress b
  let b := { b with subConns := b.subConns.filter fun e => decide (e.1 ∈ addrs) }
  if addrs.length = 0 then b.ResolverError else ([], b)

/-- Whether `UpdateSubConnState` ignores the move of a TransientFailure SubConn to `s`. -/
def ignored (oldS s : connectivityState) : Prop :=
  oldS = .TransientFailure ∧ (s = .Connecting ∨ s = .Idle)

instance (oldS s : connectivityState) : Decidable (ignored oldS s) :=
  inferInstanceAs (Decidable (_ ∧ _))

/-- `b.UpdateSubConnState(sc, s)` for the SubConn numbered `sc`. -/
def baseBalancer.UpdateSubConnState (b : baseBalancer) (sc : Nat) (s : connectivityState) :
    List connectivityState × baseBalancer :=
  match b.scStates.lookup sc with
  | none => ([], b)
  | some oldS =>
    if ignored oldS s then ([], b)
    else
      let scStates := Map.insert sc s b.scStates
      -- a SubConn's state is kept until its Shutdown
      let scStates := if s = .Shutdown then Map.erase sc scStates else scStates
      let rt := b.csEvltr.RecordTransition oldS s
      ([rt.1], { b with scStates, csEvltr := rt.2, state := rt.1 })

/-- The calls the ClientConn makes on the balancer. -/
inductive event
  | UpdateClientConnState (addrs : List String)
  | UpdateSubConnState (sc : Nat) (s : connectivityState)

def step (b : baseBalancer) : event → List connectivityState × baseBalancer
  | .UpdateClientConnState addrs => b.UpdateClientConnState addrs
  | .UpdateSubConnState sc s => b.UpdateSubConnState sc s

/-- The balancer `Build` returns. -/
def New : baseBalancer :=
  ⟨[], [], ⟨0, 0, 0, 0⟩, .Idle, 0⟩

/-! ## The evaluator -/

theorem num_update (cse : ConnectivityStateEvaluator) (state : connectivityState)
    (updateVal : UInt64) {s : connectivityState} (hs : s ≠ .Shutdown) :
    (cse.update state updateVal).num s = cse.num s + if state = s then updateVal else 0 := by
  cases state <;> cases s <;> simp_all [ConnectivityStateEvaluator.update,
    ConnectivityStateEvaluator.num]

/-- `RecordTransition` moves one count from `oldState` to `newState`. -/
theorem RecordTransition_num (cse : ConnectivityStateEvaluator) (o n : connectivityState)
    {s : connectivityState} (hs : s ≠ .Shutdown) :
    (cse.RecordTransition o n).2.num s = shift cse.num o n s := by
  have hdown : (2 * UInt64.ofNat 0 - 1 : UInt64) = -1 := by decide
  have hup : (2 * UInt64.ofNat 1 - 1 : UInt64) = 1 := by decide
  simp only [ConnectivityStateEvaluator.RecordTransition, List.zipIdx_cons, List.zipIdx_nil,
    List.foldl_cons, List.foldl_nil, num_update _ _ _ hs, hdown, hup, shift]
  split_ifs <;> abel

theorem RecordTransition_result (cse : ConnectivityStateEvaluator) (o n : connectivityState) :
    (cse.RecordTransition o n).1 = aggregateOf (cse.RecordTransition o n).2.num := by
  simp only [ConnectivityStateEvaluator.RecordTransition, aggregateOf, gt_iff_lt,
    ConnectivityStateEvaluator.num]

/-- The aggregate reads no count of Shutdown. -/
theorem aggregateOf_congr {n n' : connectivityState → UInt64}
    (h : ∀ s, s ≠ .Shutdown → n s = n' s) : aggregateOf n = aggregateOf n' := by
  simp only [aggregateOf, h .Ready (by decide), h .TransientFailure (by decide),
    h .Connecting (by decide), h .Idle (by decide)]

/-- The number of SubConns whose state is `s`, in `uint64`. -/
def count (scStates : List (Nat × connectivityState)) (s : connectivityState) : UInt64 :=
  UInt64.ofNat (scStates.countP fun e => e.2 = s)

/-- Counters that hold the counts after a transition give the aggregate of the counts. -/
theorem RecordTransition_result_of_counts {cse : ConnectivityStateEvaluator}
    {o n : connectivityState} {m : List (Nat × connectivityState)}
    (h : Counts (cse.RecordTransition o n).2.num id m .Shutdown) :
    (cse.RecordTransition o n).1 = aggregateOf (count m) := by
  rw [RecordTransition_result]
  exact aggregateOf_congr fun s hs => by rw [h s hs, tally, nsmul_one_eq_ofNat]; rfl

/-! ## The invariant -/

/-- What every state the balancer reaches keeps: no SubConn twice in `scStates`, none numbered
from `created` on, and counters that hold the number of SubConns in each state. -/
structure Inv (b : baseBalancer) : Prop where
  nodup : (b.scStates.map Prod.fst).Nodup
  fresh : ∀ sc ∈ b.scStates.map Prod.fst, sc < b.created
  counts : Counts b.csEvltr.num id b.scStates .Shutdown

theorem inv_New : Inv New where
  nodup := List.nodup_nil
  fresh := by simp [New]
  counts := fun s hs => by cases s <;> simp_all [New, ConnectivityStateEvaluator.num]

/-- Setting fields other than `scStates`, `csEvltr` and `created` keeps the invariant. -/
theorem Inv.of_eq {b b' : baseBalancer} (h : Inv b) (hsc : b'.scStates = b.scStates)
    (hcse : b'.csEvltr = b.csEvltr) (hcr : b'.created = b.created) : Inv b' where
  nodup := hsc ▸ h.nodup
  fresh := hsc ▸ hcr ▸ h.fresh
  counts := hsc ▸ hcse ▸ h.counts

/-- A new SubConn: its number is fresh, so the counters shift from Shutdown to Idle. -/
theorem updateAddress_inv {b : baseBalancer} (h : Inv b) (a : String) :
    Inv (updateAddress b a) := by
  unfold updateAddress
  split
  · -- the SubConn numbered `b.created` is not in `scStates`
    have hnone : b.scStates.lookup b.created = none := by
      rcases hl : b.scStates.lookup b.created with _ | v
      · rfl
      · have := h.fresh _ (List.mem_map.mpr ⟨_, Map.mem_of_lookup_eq_some hl, rfl⟩)
        omega
    have hcounts := h.counts.insert_of_lookup_none hnone .Idle
    refine ⟨Map.nodup_keys_insert _ _ _ h.nodup, ?_, hcounts.congr fun s hs => ?_⟩
    · intro sc hsc
      obtain ⟨e, he, rfl⟩ := List.mem_map.mp hsc
      rcases Map.keys_insert_subset _ _ _ e he with rfl | he'
      · exact Nat.lt_succ_self _
      · exact Nat.lt_succ_of_lt (h.fresh _ (List.mem_map.mpr ⟨e, he', rfl⟩))
    · exact RecordTransition_num _ _ _ hs
  · exact h

theorem foldl_updateAddress_inv :
    ∀ (addrs : List String) {b : baseBalancer}, Inv b → Inv (addrs.foldl updateAddress b)
  | [], _, h => h
  | a :: addrs, _, h => foldl_updateAddress_inv addrs (updateAddress_inv h a)

theorem UpdateClientConnState_inv {b : baseBalancer} (h : Inv b) (addrs : List String) :
    Inv (b.UpdateClientConnState addrs).2 := by
  have h' := foldl_updateAddress_inv addrs h
  unfold baseBalancer.UpdateClientConnState baseBalancer.ResolverError
  dsimp only
  -- the address loop, then changes to `subConns` and `state` only
  split_ifs <;> exact h'.of_eq rfl rfl rfl

theorem UpdateSubConnState_inv {b : baseBalancer} (h : Inv b) (sc : Nat)
    (s : connectivityState) : Inv (b.UpdateSubConnState sc s).2 := by
  unfold baseBalancer.UpdateSubConnState
  dsimp only
  split
  · exact h
  · rename_i oldS hl
    split_ifs with hign hs
    · exact h
    · -- a Shutdown: the SubConn leaves `scStates`
      subst hs
      refine ⟨Map.nodup_keys_erase _ _ (Map.nodup_keys_insert _ _ _ h.nodup), ?_, ?_⟩
      · intro k hk
        obtain ⟨e, he, rfl⟩ := List.mem_map.mp hk
        rw [Map.erase_insert_self] at he
        exact h.fresh _ (List.mem_map.mpr ⟨e, Map.erase_subset _ _ e he, rfl⟩)
      · have hnum : ∀ s, s ≠ .Shutdown → (b.csEvltr.RecordTransition oldS .Shutdown).2.num s =
            shift b.csEvltr.num (id oldS) (id .Shutdown) s := fun s hs' =>
          RecordTransition_num _ _ _ hs'
        rw [Map.erase_insert_self]
        exact (h.counts.erase_of_lookup h.nodup hl).congr hnum
    · refine ⟨Map.nodup_keys_insert _ _ _ h.nodup, ?_,
        (h.counts.insert_of_lookup h.nodup hl s).congr fun s hs' => RecordTransition_num _ _ _ hs'⟩
      intro k hk
      obtain ⟨e, he, rfl⟩ := List.mem_map.mp hk
      rcases Map.keys_insert_subset _ _ _ e he with rfl | he'
      · exact h.fresh _ (List.mem_map.mpr ⟨_, Map.mem_of_lookup_eq_some hl, rfl⟩)
      · exact h.fresh _ (List.mem_map.mpr ⟨e, he', rfl⟩)

theorem inv_step : Invariant (fun _ _ => True) step Inv := by
  rintro b (addrs | ⟨sc, s⟩) h -
  · exact UpdateClientConnState_inv h addrs
  · exact UpdateSubConnState_inv h sc s

/-- A recorded transition leaves `b.state` the aggregate of the counts after it. -/
theorem UpdateSubConnState_state {b : baseBalancer} (h : Inv b) {sc : Nat} {oldS : connectivityState}
    (hl : b.scStates.lookup sc = some oldS) {s : connectivityState} (hign : ¬ ignored oldS s) :
    (b.UpdateSubConnState sc s).2.state = aggregateOf (count (b.UpdateSubConnState sc s).2.scStates) := by
  have hinv := (UpdateSubConnState_inv h sc s).counts
  simp only [baseBalancer.UpdateSubConnState, hl, if_neg hign] at hinv ⊢
  exact RecordTransition_result_of_counts hinv

/-- **The counters stay exact.**  After any calls, each counter holds the number of SubConns in
`scStates` in its state (in `uint64`), and an `UpdateSubConnState` that records a transition (of a
SubConn in `scStates`, not an ignored one) leaves `b.state` the documented aggregate of the
counts after it. -/
theorem baseBalancer_counters_exact (es : List event) :
    (∀ s, s ≠ .Shutdown → (run step New es).2.csEvltr.num s = count (run step New es).2.scStates s) ∧
      ∀ sc s oldS, (run step New es).2.scStates.lookup sc = some oldS → ¬ ignored oldS s →
        ((run step New es).2.UpdateSubConnState sc s).2.state =
          aggregateOf (count ((run step New es).2.UpdateSubConnState sc s).2.scStates) := by
  have hinv := inv_step.run inv_New (admits_of_forall (fun _ _ => trivial) New es)
  exact ⟨fun s hs => by rw [hinv.counts s hs, tally, nsmul_one_eq_ofNat]; rfl,
    fun _ _ _ hl hign => UpdateSubConnState_state hinv hl hign⟩

/-- A SubConn made by an update and then Ready: the transition is recorded, and `b.state` is
the aggregate of the counts. -/
theorem baseBalancer_counters_exact_ready :
    ((run step New [.UpdateClientConnState ["a"]]).2.UpdateSubConnState 0 .Ready).2.state =
      aggregateOf (count ((run step New [.UpdateClientConnState ["a"]]).2.UpdateSubConnState 0
        .Ready).2.scStates) :=
  (baseBalancer_counters_exact [.UpdateClientConnState ["a"]]).2 0 .Ready .Idle (by decide)
    (by decide)

/-- Two SubConns, one Ready and one failing; an update with no address removes both, and
`ResolverError` sets TransientFailure; the failing one's move to Idle is then ignored.  `b.state`
stays TransientFailure while the removed Ready SubConn, still in `scStates`, makes the aggregate
of the counts Ready. -/
theorem ignored_transition_keeps_state :
    (run step New [.UpdateClientConnState ["a", "b"], .UpdateSubConnState 0 .Ready,
        .UpdateSubConnState 1 .TransientFailure, .UpdateClientConnState [],
        .UpdateSubConnState 1 .Idle]).2.state = .TransientFailure ∧
      aggregateOf (count (run step New [.UpdateClientConnState ["a", "b"],
        .UpdateSubConnState 0 .Ready, .UpdateSubConnState 1 .TransientFailure,
        .UpdateClientConnState [], .UpdateSubConnState 1 .Idle]).2.scStates) = .Ready := by
  decide

end Base
end GrpcGo
