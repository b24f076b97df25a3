import GrpcGo.Balancer.Priority
import GrpcGo.Xds.WeightedClusters

/-!
# The state aggregators of weighted_target and cluster_manager

`xds/internal/balancer/weightedtarget/weightedaggregator` and the `balancerStateAggregator` of
`xds/internal/balancer/clustermanager`.  Each keeps, for every child, the last state it reported
and a `stateToAggregate`, and sends the parent the aggregate of the `stateToAggregate`s: Ready if
one is Ready, else Connecting if one is, else Idle if one is, else TransientFailure.

Both `UpdateState`s apply one rule, `nextStateToAggregate`: a Connecting report right after a
TransientFailure report leaves `stateToAggregate` as it was.  The test reads the last reported
state, not `stateToAggregate`, so the rule keeps TransientFailure through one Connecting report
and not through two.  The rule the struct's comment describes, `stickyState`, keeps it through any
number: the two agree on every report sequence with no two Connecting reports in a row
(`stateToAggregate_follows_sticky`), and a child that reports TransientFailure, Connecting,
Connecting is aggregated as Connecting (`sticky_lost_after_two_reports`).

While the weighted aggregate is Ready its picker is the `randomWRR` of the pickers of the
children whose `stateToAggregate` is Ready, each Ready too, with their weights (`build_picks`).

The children's pickers are values of a type `π`; `errPicker` is the picker
`base.NewErrPicker(balancer.ErrNoSubConnAvailable)` that `Add` and `Stop` give a child.  The
pickers cluster_manager builds from its children are not modelled; its `build` is the aggregated
state.
-/

namespace GrpcGo
namespace WeightedAggregator

open GoStd Machine Priority

variable {π : Type}

/-! ## The shared rule -/

/-- `balancer.State`. -/
structure State (π : Type) where
  ConnectivityState : connectivityState
  Picker : π

/-- The `stateToAggregate` after a child in `oldState` reports `newState`. -/
def nextStateToAggregate (oldState newState stateToAggregate : connectivityState) :
    connectivityState :=
  if oldState = .TransientFailure ∧ newState = .Connecting then stateToAggregate else newState

/-- The `switch` of `build`: the aggregate of the counts of Ready, Connecting and Idle children. -/
def aggregatedState (readyN connectingN idleN : Nat) : connectivityState :=
  if readyN > 0 then .Ready
  else if connectingN > 0 then .Connecting
  else if idleN > 0 then .Idle
  else .TransientFailure

/-! ## `weightedaggregator.Aggregator` -/

/-- `weightedPickerState`; the weight is a `uint32`. -/
structure weightedPickerState (π : Type) where
  weight : Nat
  state : State π
  stateToAggregate : connectivityState

/-- `Aggregator`: whether it is started, and the map `idToPickerState`. -/
structure Aggregator (π : Type) where
  started : Bool
  idToPickerState : List (String × weightedPickerState π)

/-- The picker of an aggregated state. -/
inductive aggPicker (π : Type)
  | errTransientFailure
  | errNoSubConnAvailable
  /-- `weightedPickerGroup`. -/
  | group (w : Wrr.randomWRR π)

/-- The `balancer.State` sent to the parent. -/
structure aggState (π : Type) where
  ConnectivityState : connectivityState
  Picker : aggPicker π

/-- `New`. -/
def New : Aggregator π := ⟨false, []⟩

/-- `Start`. -/
def Start (a : Aggregator π) : Aggregator π := { a with started := true }

/-- `clearStates`: every child back to Connecting, weights kept. -/
def clearStates (errPicker : π) (a : Aggregator π) : Aggregator π :=
  { a with idToPickerState := a.idToPickerState.map fun e =>
      (e.1, { e.2 with state := ⟨.Connecting, errPicker⟩, stateToAggregate := .Connecting }) }

/-- `Stop`. -/
def Stop (errPicker : π) (a : Aggregator π) : Aggregator π :=
  clearStates errPicker { a with started := false }

/-- `Add(id, weight)`: a child in Connecting. -/
def Add (errPicker : π) (a : Aggregator π) (id : String) (weight : Nat) : Aggregator π :=
  { a with idToPickerState :=
      Map.insert id ⟨weight, ⟨.Connecting, errPicker⟩, .Connecting⟩ a.idToPickerState }

/-- `Remove(id)`. -/
def Remove (a : Aggregator π) (id : String) : Aggregator π :=
  if (a.idToPickerState.lookup id).isSome then
    { a with idToPickerState := Map.erase id a.idToPickerState }
  else a

/-- `UpdateWeight(id, newWeight)`. -/
def UpdateWeight (a : Aggregator π) (id : String) (newWeight : Nat) : Aggregator π :=
  match a.idToPickerState.lookup id with
  | none => a
  | some pState =>
    { a with idToPickerState := Map.insert id { pState with weight := newWeight } a.idToPickerState }

/-- `newWeightedPickerGroup`: a `randomWRR` of the pickers, each with its weight. -/
def newWeightedPickerGroup (readyWeightedPickers : List (weightedPickerState π)) :
    Wrr.randomWRR π :=
  readyWeightedPickers.foldl (fun w ps => w.Add ps.state.Picker ps.weight) Wrr.NewRandom

/-- The children whose `stateToAggregate` is Ready, in the map's order. -/
def readyPickers (a : Aggregator π) : List (weightedPickerState π) :=
  (a.idToPickerState.map Prod.snd).filter fun ps => ps.stateToAggregate = .Ready

/-- `build`. -/
def build (a : Aggregator π) : aggState π :=
  let m := a.idToPickerState.map Prod.snd
  let aggregated := aggregatedState (m.countP fun ps => ps.stateToAggregate = .Ready)
    (m.countP fun ps => ps.stateToAggregate = .Connecting)
    (m.countP fun ps => ps.stateToAggregate = .Idle)
  { ConnectivityState := aggregated
    Picker :=
      match aggregated with
      | .TransientFailure => .errTransientFailure
      | .Connecting => .errNoSubConnAvailable
      | _ => .group (newWeightedPickerGroup (readyPickers a)) }

/-- `UpdateState(id, newState)`: the state sent to the parent, if any. -/
def UpdateState (a : Aggregator π) (id : String) (newState : State π) :
    Option (aggState π) × Aggregator π :=
  match a.idToPickerState.lookup id with
  | none => (none, a)
  | some oldState =>
    let pState : weightedPickerState π :=
      { oldState with
        stateToAggregate := nextStateToAggregate oldState.state.ConnectivityState
          newState.ConnectivityState oldState.stateToAggregate
        state := newState }
    let a := { a with idToPickerState := Map.insert id pState a.idToPickerState }
    if a.started then (some (build a), a) else (none, a)

/-- `BuildAndUpdate`. -/
def BuildAndUpdate (a : Aggregator π) : Option (aggState π) :=
  if a.started then some (build a) else none

/-- The calls on an aggregator. -/
inductive event (π : Type)
  | Start
  | Stop
  | Add (id : String) (weight : Nat)
  | Remove (id : String)
  | UpdateWeight (id : String) (newWeight : Nat)
  | UpdateState (id : String) (newState : State π)
  | BuildAndUpdate

/-- One call: the states sent to the parent and the aggregator after it. -/
def step (errPicker : π) (a : Aggregator π) : event π → List (aggState π) × Aggregator π
  | .Start => ([], Start a)
  | .Stop => ([], Stop errPicker a)
  | .Add id weight => ([], Add errPicker a id weight)
  | .Remove id => ([], Remove a id)
  | .UpdateWeight id newWeight => ([], UpdateWeight a id newWeight)
  | .UpdateState id newState => ((UpdateState a id newState).1.toList, (UpdateState a id newState).2)
  | .BuildAndUpdate => ((BuildAndUpdate a).toList, a)

/-! ## clustermanager's `balancerStateAggregator` -/

namespace ClusterManager

/-- `subBalancerState`. -/
structure subBalancerState (π : Type) where
  state : State π
  stateToAggregate : connectivityState

/-- `balancerStateAggregator`. -/
structure balancerStateAggregator (π : Type) where
  started : Bool
  idToPickerState : List (String × subBalancerState π)

/-- `start`. -/
def start (bsa : balancerStateAggregator π) : balancerStateAggregator π :=
  { bsa with started := true }

/-- `add(id)`: a child in Connecting. -/
def add (errPicker : π) (bsa : balancerStateAggregator π) (id : String) :
    balancerStateAggregator π :=
  { bsa with idToPickerState :=
      Map.insert id ⟨⟨.Connecting, errPicker⟩, .Connecting⟩ bsa.idToPickerState }

/-- The state `build` aggregates. -/
def build (bsa : balancerStateAggregator π) : connectivityState :=
  let m := bsa.idToPickerState.map Prod.snd
  aggregatedState (m.countP fun ps => ps.stateToAggregate = .Ready)
    (m.countP fun ps => ps.stateToAggregate = .Connecting)
    (m.countP fun ps => ps.stateToAggregate = .Idle)

/-- `UpdateState(id, state)`: the aggregated state sent to the parent, if any. -/
def UpdateState (bsa : balancerStateAggregator π) (id : String) (state : State π) :
    Option connectivityState × balancerStateAggregator π :=
  match bsa.idToPickerState.lookup id with
  | none => (none, bsa)
  | some pickerSt =>
    let pickerSt' : subBalancerState π :=
      { stateToAggregate := nextStateToAggregate pickerSt.state.ConnectivityState
          state.ConnectivityState pickerSt.stateToAggregate
        state }
    let bsa := { bsa with idToPickerState := Map.insert id pickerSt' bsa.idToPickerState }
    if bsa.started then (some (build bsa), bsa) else (none, bsa)

end ClusterManager

/-! ## The sticky rule -/

/-- The aggregation state the comment on `stateToAggregate` describes: after TransientFailure,
Connecting reports leave it TransientFailure until another state is reported. -/
def stickyState (aggregation newState : connectivityState) : connectivityState :=
  if aggregation = .TransientFailure ∧ newState = .Connecting then .TransientFailure else newState

/-- One report on a child: its last reported state and its `stateToAggregate`. -/
def reportStep (st : connectivityState × connectivityState) (newState : connectivityState) :
    connectivityState × connectivityState :=
  (newState, nextStateToAggregate st.1 newState st.2)

/-- How the code's pair `(state, stateToAggregate)` tracks the sticky rule's state `agg`, with
what the next report must not be for the tracking to go on. -/
structure Tracks (st : connectivityState × connectivityState) (agg : connectivityState)
    (next : Option connectivityState) : Prop where
  eq : st.2 = agg
  failing : st.1 = .TransientFailure → agg = .TransientFailure
  stuck : agg = .TransientFailure → st.1 = .TransientFailure ∨ st.1 = .Connecting
  /-- Stuck at TransientFailure on a Connecting report, the next report is another. -/
  guard : agg = .TransientFailure → st.1 = .Connecting → next ≠ some .Connecting

/-- The induction: a report sequence with no two Connecting reports in a row keeps the code's
pair on the sticky rule. -/
theorem foldl_reportStep_tracks :
    ∀ (reports : List connectivityState) {st : connectivityState × connectivityState}
      {agg : connectivityState},
      Tracks st agg reports.head? →
      reports.IsChain (fun a b => ¬ (a = .Connecting ∧ b = .Connecting)) →
      (reports.foldl reportStep st).2 = reports.foldl stickyState agg
  | [], _, _, h, _ => h.eq
  | r :: reports, st, agg, h, hc => by
    rw [List.foldl_cons, List.foldl_cons]
    apply foldl_reportStep_tracks reports _ hc.of_cons
    obtain ⟨heq, hfail, hstuck, hguard⟩ := h
    have hguard' := hguard
    simp only [List.head?_cons, ne_eq, Option.some.injEq] at hguard'
    -- the next report is not Connecting when this one is
    have hnext : r = .Connecting → reports.head? ≠ some .Connecting :=
      fun hr hhead => (List.isChain_cons.mp hc).1 _ hhead ⟨hr, rfl⟩
    refine ⟨?_, ?_, ?_, ?_⟩
    · simp only [reportStep, nextStateToAggregate, stickyState, heq]
      by_cases hr : r = .Connecting
      · by_cases ha : agg = .TransientFailure
        · rcases hstuck ha with h1 | h1
          · simp [h1, ha, hr]
          · exact absurd hr (hguard' ha h1)
        · have : st.1 ≠ .TransientFailure := fun h1 => ha (hfail h1)
          simp [this, ha]
      · simp [hr]
    · intro h1
      simp only [reportStep] at h1
      simp [stickyState, h1]
    · intro h1
      simp only [reportStep]
      by_cases hr : r = .Connecting
      · exact .inr hr
      · simp only [stickyState, hr, and_false, if_false] at h1
        exact .inl h1
    · intro _ h1
      exact hnext h1

/-- **The code follows the sticky rule on a child that never reports Connecting twice in a
row.**  From `Add`'s Connecting entry, `stateToAggregate` is the rule's state after the
reports. -/
theorem stateToAggregate_follows_sticky (reports : List connectivityState)
    (h : reports.IsChain (fun a b => ¬ (a = .Connecting ∧ b = .Connecting))) :
    (reports.foldl reportStep (.Connecting, .Connecting)).2 = reports.foldl stickyState .Connecting :=
  foldl_reportStep_tracks reports
    { eq := rfl
      failing := fun h => nomatch h
      stuck := fun h => nomatch h
      guard := fun h => nomatch h } h

/-- A child reporting TransientFailure, Connecting, Connecting: the sticky rule keeps it in
TransientFailure, both aggregators send Connecting at the second Connecting report. -/
theorem sticky_lost_after_two_reports :
    [connectivityState.TransientFailure, .Connecting, .Connecting].foldl stickyState .Connecting =
        .TransientFailure ∧
      (run (step 0) New [.Add "a" 1, .Start, .UpdateState "a" ⟨.TransientFailure, 1⟩,
          .UpdateState "a" ⟨.Connecting, 1⟩, .UpdateState "a" ⟨.Connecting, 1⟩]).1.map
          (·.ConnectivityState) = [.TransientFailure, .TransientFailure, .Connecting] ∧
      (let bsa := ClusterManager.start (ClusterManager.add 0 ⟨false, []⟩ "a")
       let (o₁, bsa) := ClusterManager.UpdateState bsa "a" ⟨.TransientFailure, 1⟩
       let (o₂, bsa) := ClusterManager.UpdateState bsa "a" ⟨.Connecting, 1⟩
       let (o₃, _) := ClusterManager.UpdateState bsa "a" ⟨.Connecting, 1⟩
       [o₁, o₂, o₃]) = [some .TransientFailure, some .TransientFailure, some .Connecting] := by
  decide

/-! ## What a Ready aggregate picks -/

/-- A child's entry: Ready to aggregate only after a Ready report, and TransientFailure to
aggregate while its last report is TransientFailure. -/
structure Entry (ps : weightedPickerState π) : Prop where
  ready : ps.stateToAggregate = .Ready → ps.state.ConnectivityState = .Ready
  failing : ps.state.ConnectivityState = .TransientFailure → ps.stateToAggregate = .TransientFailure

/-- Every child's entry. -/
def Inv (a : Aggregator π) : Prop :=
  ∀ e ∈ a.idToPickerState, Entry e.2

theorem entry_connecting (weight : Nat) (p : π) :
    Entry ⟨weight, ⟨.Connecting, p⟩, .Connecting⟩ where
  ready h := nomatch h
  failing h := nomatch h

/-- A report keeps the entry. -/
theorem Entry.report {ps : weightedPickerState π} (h : Entry ps) (newState : State π) :
    Entry { ps with
      stateToAggregate := nextStateToAggregate ps.state.ConnectivityState
        newState.ConnectivityState ps.stateToAggregate
      state := newState } := by
  unfold nextStateToAggregate
  split
  · rename_i hc
    -- stuck: the entry was failing, and the report is Connecting
    have hf := h.failing hc.1
    refine ⟨fun hr => ?_, fun hs => ?_⟩
    · simp only [hf] at hr
      cases hr
    · simp only [hc.2] at hs
      cases hs
  · exact ⟨id, id⟩

theorem Inv.insert {a : Aggregator π} (h : Inv a) {id : String} {ps : weightedPickerState π}
    (hps : Entry ps) : ∀ e ∈ Map.insert id ps a.idToPickerState, Entry e.2 := by
  intro e he
  rcases Map.keys_insert_subset _ _ _ e he with rfl | he
  · exact hps
  · exact h e he

/-- Every call keeps every entry. -/
theorem inv_step (errPicker : π) : Invariant (fun _ _ => True) (step errPicker) Inv := by
  intro a ev h _
  cases ev with
  | Start => exact h
  | Stop =>
    intro e he
    obtain ⟨e', -, rfl⟩ := List.mem_map.mp he
    exact entry_connecting _ _
  | Add id weight => exact h.insert (entry_connecting _ _)
  | Remove id =>
    simp only [step, Remove]
    split
    · exact fun e he => h e (Map.erase_subset _ _ e he)
    · exact h
  | UpdateWeight id newWeight =>
    simp only [step, UpdateWeight]
    split
    · exact h
    · rename_i pState hl
      have hp := h _ (Map.mem_of_lookup_eq_some hl)
      exact h.insert ⟨hp.ready, hp.failing⟩
  | UpdateState id newState =>
    simp only [step, UpdateState]
    split
    · exact h
    · rename_i oldState hl
      have hnew := (h _ (Map.mem_of_lookup_eq_some hl)).report newState
      split <;> exact h.insert hnew
  | BuildAndUpdate => exact h

/-- What a call sends is `build` of the aggregator after it. -/
theorem eq_build_of_mem_step {errPicker : π} {a : Aggregator π} {ev : event π} {o : aggState π}
    (ho : o ∈ (step errPicker a ev).1) : o = build (step errPicker a ev).2 := by
  cases ev with
  | UpdateState id newState =>
    simp only [step, UpdateState] at ho ⊢
    rcases hl : a.idToPickerState.lookup id with _ | oldState
    · simp [hl] at ho
    · simp only [hl] at ho ⊢
      split at ho
      · rename_i hs
        simp only [Option.toList_some, List.mem_singleton] at ho
        rw [if_pos hs]
        exact ho
      · simp at ho
  | BuildAndUpdate =>
    simp only [step, BuildAndUpdate] at ho ⊢
    split at ho
    · simpa using ho
    · simp at ho
  | _ => simp [step] at ho

/-- The ready children's pickers with their weights. -/
def readyItems (a : Aggregator π) : List (π × Nat) :=
  (readyPickers a).map fun ps => (ps.state.Picker, ps.weight)

theorem newWeightedPickerGroup_eq (a : Aggregator π) :
    newWeightedPickerGroup (readyPickers a) =
      ⟨(readyItems a).map fun e => (e.1, (e.2 : Int)), WeightedPick.total (readyItems a)⟩ := by
  unfold newWeightedPickerGroup
  refine (Wrr.foldl_Add (fun ps : weightedPickerState π => ps.state.Picker)
    (fun ps => (ps.weight : Int)) _ _).trans ?_
  simp [Wrr.NewRandom, readyItems, WeightedPick.total, List.map_map, Function.comp_def,
    Nat.cast_list_sum]

/-- A Ready aggregate's picker is the group of the ready children. -/
theorem build_picker_of_Ready {a : Aggregator π} (hr : (build a).ConnectivityState = .Ready) :
    (build a).Picker = .group (newWeightedPickerGroup (readyPickers a)) := by
  simp only [build] at hr ⊢
  rw [hr]

section Picks

variable [DecidableEq π]

/-- **While the weighted aggregate is Ready, each pick goes to a Ready child, by weight.**  The
picker is a `randomWRR` over the pickers of the children whose `stateToAggregate` is Ready: a
value below the sum `W` of their weights picks the picker of such a child, which reported Ready,
and a picker is picked by as many of the `W` values as the ready children with it weigh. -/
theorem build_picks {a : Aggregator π} (h : Inv a) (hr : (build a).ConnectivityState = .Ready) :
    ∃ w, (build a).Picker = .group w ∧ w.sumOfWeights = WeightedPick.total (readyItems a) ∧
      (∀ v : Nat, v < WeightedPick.total (readyItems a) → ∀ p, w.Next v = some p →
        ∃ e ∈ a.idToPickerState, e.2.stateToAggregate = .Ready ∧
          e.2.state.ConnectivityState = .Ready ∧ e.2.state.Picker = p) ∧
      ∀ p, (List.range (WeightedPick.total (readyItems a))).countP
        (fun v : Nat => w.Next v = some p) = WeightedPick.weightOf (readyItems a) p := by
  refine ⟨_, build_picker_of_Ready hr, ?_, ?_, ?_⟩
  · rw [newWeightedPickerGroup_eq]
  · intro v hv p hp
    rw [newWeightedPickerGroup_eq, Wrr.Next_eq_pick _ hv] at hp
    obtain ⟨w, hw⟩ := WeightedPick.mem_of_pick hp
    -- the item comes from a child whose `stateToAggregate` is Ready
    obtain ⟨ps, hps, hpsw⟩ := List.mem_map.mp hw
    obtain ⟨hmem, hready⟩ := List.mem_filter.mp hps
    obtain ⟨e, he, rfl⟩ := List.mem_map.mp hmem
    have hready' : e.2.stateToAggregate = .Ready := of_decide_eq_true hready
    simp only [Prod.mk.injEq] at hpsw
    exact ⟨e, he, hready', (h e he).ready hready', hpsw.1⟩
  · intro p
    rw [newWeightedPickerGroup_eq]
    exact Wrr.countP_Next (readyItems a) p

end Picks

/-- Every state an aggregator sends is `build` of an aggregator whose entries all hold. -/
theorem run_sends_built (errPicker : π) (es : List (event π)) :
    ∀ o ∈ (run (step errPicker) New es).1, ∃ a, Inv a ∧ o = build a := by
  have hout := (inv_step errPicker).outputs
    (P := fun out _ => ∀ o ∈ out, ∃ a, Inv a ∧ o = build a)
    (fun out a ev ha _ hP o ho => by
      rcases List.mem_append.mp ho with ho | ho
      · exact hP o ho
      · exact ⟨_, inv_step errPicker a ev ha trivial, eq_build_of_mem_step ho⟩)
    (fun e he => absurd he List.not_mem_nil)
    (admits_of_forall (fun _ _ => trivial) New es)
    (show ∀ o ∈ ([] : List (aggState π)), ∃ a, Inv a ∧ o = build a from
      fun o ho => absurd ho List.not_mem_nil)
  simpa using hout

end WeightedAggregator
end GrpcGo
