import GrpcGo.Lib.SwapCounter

/-!
# grpclb's client load reports (`balancer/grpclb/grpclb_picker.go`)

`lbPicker.Pick` goes round the server list: a drop counts a started, a dropped (by the server's
load balance token) and a finished call in the shared `rpcStats`; a backend pick returns a `done`
callback, which counts a call that failed to send (`!BytesSent`) or one whose response was
received (`BytesSent && BytesReceived`), each as started and finished.  `toClientStats` swaps each
of the four `int64` counters with zero and replaces the map of drops under its lock; the grpclb
balancer sends what it read as a load report.  Each counter is updated by its own atomic
operation, so the calls interleave at that grain: a call's operations are its thread's, and any
interleaving of the threads is a permutation of them.

The counters are `SwapCounter`'s, keyed by `statKey`; `int64` overflow is not modelled.

* `reports_count_calls`: over any interleaving, the reports and the counters left hold one
  started and one finished call for each drop, each `done` with `!BytesSent` and each `done`
  with `BytesSent && BytesReceived`, and nothing else;
* `done_sent_not_received_uncounted`: a backend pick whose `done` reports bytes sent and none
  received is in no report, started or finished.
-/

namespace GrpcGo
namespace Grpclb

open Machine SwapCounter

/-- The counters of `rpcStats`: its four `int64` fields and the entries of `numCallsDropped`. -/
inductive statKey
  | numCallsStarted
  | numCallsFinished
  | numCallsFinishedWithClientFailedToSend
  | numCallsFinishedKnownReceived
  | numCallsDropped (token : String)
  deriving DecidableEq

/-- `atomic.AddInt64(&s.k, 1)`, or `s.numCallsDropped[token]++` under `s.mu`. -/
def inc (k : statKey) : op statKey Nat := .add k 1

/-- `s.drop(token)`. -/
def drop (token : String) : List (op statKey Nat) :=
  [inc .numCallsStarted, inc (.numCallsDropped token), inc .numCallsFinished]

/-- `s.failedToSend()`. -/
def failedToSend : List (op statKey Nat) :=
  [inc .numCallsStarted, inc .numCallsFinishedWithClientFailedToSend, inc .numCallsFinished]

/-- `s.knownReceived()`. -/
def knownReceived : List (op statKey Nat) :=
  [inc .numCallsStarted, inc .numCallsFinishedKnownReceived, inc .numCallsFinished]

def isDropped : statKey → Bool
  | .numCallsDropped _ => true
  | _ => false

/-- `s.toClientStats()`: the four `atomic.SwapInt64`, then the map of drops replaced under
`s.mu`. -/
def toClientStats : List (op statKey Nat) :=
  [.swap (· == .numCallsStarted), .swap (· == .numCallsFinished),
    .swap (· == .numCallsFinishedWithClientFailedToSend),
    .swap (· == .numCallsFinishedKnownReceived), .swap isDropped]

/-- `balancer.DoneInfo`, the fields `done` reads. -/
structure DoneInfo where
  BytesSent : Bool
  BytesReceived : Bool
  deriving DecidableEq

/-- The `done` callback of a backend pick. -/
def done (info : DoneInfo) : List (op statKey Nat) :=
  if !info.BytesSent then failedToSend
  else if info.BytesReceived then knownReceived
  else []

/-- `lbpb.Server`, the fields `Pick` reads. -/
structure Server where
  Drop : Bool
  LoadBalanceToken : String
  deriving DecidableEq

/-- `lbPicker`: a server list that is never empty, with the next entry in it, and the Ready
SubConns (never empty when the balancer builds the picker) with the next one. -/
structure lbPicker where
  serverList : List Server
  serverListNext : Nat
  subConns : List Nat
  subConnsNext : Nat
  serverListNext_lt : serverListNext < serverList.length
  subConnsNext_lt : subConns ≠ [] → subConnsNext < subConns.length

/-- What `Pick` returns. -/
inductive pickResult
  /-- `status.Errorf(codes.Unavailable, "request dropped by grpclb")` -/
  | dropped
  /-- `balancer.ErrNoSubConnAvailable` -/
  | noSubConn
  /-- the SubConn, with `done` -/
  | backend (sc : Nat)
  deriving DecidableEq

/-- `p.Pick(info)`: the result, the stats operations it runs, and the picker after. -/
def lbPicker.Pick (p : lbPicker) : pickResult × List (op statKey Nat) × lbPicker :=
  let s := p.serverList.get ⟨p.serverListNext, p.serverListNext_lt⟩
  have hpos : 0 < p.serverList.length := Nat.lt_of_le_of_lt (Nat.zero_le _) p.serverListNext_lt
  let p₁ : lbPicker :=
    { p with
      serverListNext := (p.serverListNext + 1) % p.serverList.length
      serverListNext_lt := Nat.mod_lt _ hpos }
  if s.Drop then (.dropped, drop s.LoadBalanceToken, p₁)
  else if h : p.subConns.length ≤ 0 then (.noSubConn, [], p₁)
  else
    have hsc : 0 < p.subConns.length := Nat.pos_of_ne_zero (by omega)
    let sc := p.subConns.get ⟨p.subConnsNext, p.subConnsNext_lt (List.ne_nil_of_length_pos hsc)⟩
    (.backend sc, [],
      { p₁ with
        subConnsNext := (p.subConnsNext + 1) % p.subConns.length
        subConnsNext_lt := fun _ => Nat.mod_lt _ hsc })

/-- A pick runs the operations of a drop when it drops, and none otherwise. -/
theorem Pick_ops (p : lbPicker) :
    (p.Pick.1 = .dropped ∧ ∃ token, p.Pick.2.1 = drop token) ∨
      (p.Pick.1 ≠ .dropped ∧ p.Pick.2.1 = []) := by
  unfold lbPicker.Pick
  dsimp only
  split_ifs with hdrop hsc
  · exact .inl ⟨rfl, _, rfl⟩
  · exact .inr ⟨nofun, rfl⟩
  · exact .inr ⟨nofun, rfl⟩

/-! ## The reports -/

/-- A call whose stats operations a thread runs: a pick that dropped (with the server's
token), a `done` callback, or a `toClientStats`. -/
inductive call
  | drop (token : String)
  | done (info : DoneInfo)
  | report

/-- The operations of a call. -/
def call.ops : call → List (op statKey Nat)
  | .drop token => Grpclb.drop token
  | .done info => Grpclb.done info
  | .report => toClientStats

/-- The number of calls that count as started and finished: drops, and `done` callbacks that
failed to send or received. -/
def counted (c : call) : Bool :=
  match c with
  | .drop _ => true
  | .done info => !info.BytesSent || info.BytesReceived
  | .report => false

def failedToSendCall : call → Bool
  | .done info => !info.BytesSent
  | _ => false

def knownReceivedCall : call → Bool
  | .done info => info.BytesSent && info.BytesReceived
  | _ => false

def dropOf (token : String) : call → Bool
  | .drop t => token == t
  | _ => false

/-- What one call adds to each counter. -/
theorem added_ops (c : call) (k : statKey) :
    added c.ops k =
      match k with
      | .numCallsStarted => if counted c then 1 else 0
      | .numCallsFinished => if counted c then 1 else 0
      | .numCallsFinishedWithClientFailedToSend => if failedToSendCall c then 1 else 0
      | .numCallsFinishedKnownReceived => if knownReceivedCall c then 1 else 0
      | .numCallsDropped token => if dropOf token c then 1 else 0 := by
  rcases c with token | ⟨sent, received⟩ | _
  · cases k <;> simp [call.ops, Grpclb.drop, inc, added, counted, failedToSendCall,
      knownReceivedCall, dropOf, Pi.single_apply]
  · cases sent <;> cases received <;> cases k <;> simp [call.ops, Grpclb.done, failedToSend,
      knownReceived, inc, added, counted, failedToSendCall, knownReceivedCall, dropOf]
  · cases k <;> simp [call.ops, toClientStats, added, counted, failedToSendCall,
      knownReceivedCall, dropOf]

theorem sum_added_ops (calls : List call) (k : statKey) :
    (calls.map fun c => added c.ops).sum k = (calls.map fun c => added c.ops k).sum := by
  induction calls with
  | nil => rfl
  | cons c cs ih => simp only [List.map_cons, List.sum_cons, Pi.add_apply, ih]

theorem sum_ite_eq_countP (calls : List call) (p : call → Bool) :
    (calls.map fun c => if p c then 1 else 0).sum = calls.countP p := by
  induction calls with
  | nil => rfl
  | cons c cs ih =>
    rw [List.map_cons, List.sum_cons, ih, List.countP_cons]
    omega

/-- **Every counted call is reported once.**  For any calls and any interleaving `ops` of their
operations, the reports and the counters left hold, for started and for finished calls, the
drops and the `done` callbacks with `!BytesSent` or `BytesReceived`; for calls that failed to
send and calls known received, those callbacks; and for each token, its drops. -/
theorem reports_count_calls (calls : List call) {ops : List (op statKey Nat)}
    (h : ops.Perm (calls.map call.ops).flatten) :
    let held := (run step 0 ops).1.sum + (run step 0 ops).2
    held .numCallsStarted = calls.countP counted ∧
      held .numCallsFinished = calls.countP counted ∧
      held .numCallsFinishedWithClientFailedToSend = calls.countP failedToSendCall ∧
      held .numCallsFinishedKnownReceived = calls.countP knownReceivedCall ∧
      ∀ token, held (.numCallsDropped token) = calls.countP (dropOf token) := by
  have hcons := run_conserved_of_perm 0 h
  rw [zero_add, List.map_map] at hcons
  simp only [hcons, Function.comp_def, sum_added_ops, added_ops, sum_ite_eq_countP, and_self,
    implies_true]

/-- A picker with one backend server and one Ready SubConn. -/
def oneBackend : lbPicker :=
  ⟨[⟨false, "lb"⟩], 0, [0], 0, by decide, fun _ => by decide⟩

/-- A backend pick whose RPC sent bytes and received none: its `done` counts nothing, so no
report holds it as started or finished. -/
theorem done_sent_not_received_uncounted :
    oneBackend.Pick.1 = .backend 0 ∧ done ⟨true, false⟩ = [] ∧
      (run step 0 (done ⟨true, false⟩ ++ toClientStats)).1.sum .numCallsStarted = 0 ∧
      (run step 0 (done ⟨true, false⟩ ++ toClientStats)).1.sum .numCallsFinished = 0 := by
  refine ⟨rfl, rfl, ?_, ?_⟩ <;> simp [done, toClientStats, step]

end Grpclb
end GrpcGo
