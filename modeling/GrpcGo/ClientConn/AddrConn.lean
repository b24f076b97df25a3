import GrpcGo.Balancer.Priority
import GrpcGo.Lib.Machine

/-!
# The subchannel's connectivity state (`clientconn.go`, `addrConn`)

An `addrConn` is one subchannel.  Its state is changed under `ac.mu` from several goroutines, and
each change is reported to the balancer by `updateConnectivityState`, which calls
`handleSubConnStateChange` unless the state is the one it already has.

* `connect` moves an Idle addrConn to Connecting and runs `resetTransport`.
* `resetTransport` tries the addresses in turn (`tryAllAddrs`).  For each one, `createTransport`
  dials it, then waits in a select for the connect deadline, the server preface, or the close of
  the connection.  When every address fails, it reports TransientFailure, waits for the backoff,
  and goes back to Idle.
* The transport calls `onPrefaceReceipt`, `onGoAway` and `onClose` from its own goroutines.
* A health-check goroutine may report Connecting, Ready or TransientFailure while its transport
  is the current one.
* `tearDown` moves the addrConn to Shutdown and cancels its context.

The model is a machine whose events are these atomic sections, under `ac.mu` or in a select.  A
list of events is any interleaving of them.  The goroutines running `resetTransport` are a list of
stages.  The transports `createTransport` made are a list indexed by the order they were made
in, with the events and flags each `createTransport` call keeps for its own.  The outputs are
the states passed to `handleSubConnStateChange`.

* `reports_alternate`: no state is reported twice in a row, nor Idle first;
* `shutdown_reported_last`: Shutdown is reported at most once, and nothing after it;
* `ready_has_live_transport`: when the state is Ready, `ac.transport` is a transport whose
  preface was received and whose `onClose` has not run;
* `connClosed_after_preface_strands_connecting`: an interleaving after which the state is
  Connecting, no `resetTransport` runs and there is no transport, and no event but `tearDown`
  moves it on.  When the preface and the close both come before `createTransport`'s select
  runs, the select may take the close.  It then returns success without changing the state,
  and `onClose` has done nothing, since `hcStarted` was not yet set.
-/

namespace GrpcGo
namespace AddrConn

open Machine
open Priority (connectivityState)

/-- What one `createTransport` call keeps for its transport: whether the events
`prefaceReceived` and `connClosed` have fired, `hcStarted`, whether `hcancel` has been called,
and whether `startHealthCheck` started a health-check goroutine on it. -/
structure transportInfo where
  prefaceReceived : Bool
  connClosed : Bool
  hcStarted : Bool
  hcCancelled : Bool
  healthCheck : Bool
  deriving DecidableEq, Repr

/-- A transport as `NewClientTransport` returns it. -/
def transportInfo.new : transportInfo := ⟨false, false, false, false, false⟩

/-- Where a goroutine running `resetTransport` stands:
* at the lock at its start;
* at the head of `tryAllAddrs`'s loop, with the addresses left and whether `firstConnErr` is
  set;
* in `NewClientTransport` for an address;
* in `createTransport`'s select over the transport `tr`;
* at the lock after `tryAllAddrs` returned an error;
* in the backoff select. -/
inductive resetStage (α : Type)
  | resetTransport
  | tryAllAddrs (addrs : List α) (firstConnErr : Bool)
  | dial (addr : α) (rest : List α) (firstConnErr : Bool)
  | select (addr : α) (rest : List α) (firstConnErr : Bool) (tr : ℕ)
  | failed
  | backoff
  deriving DecidableEq, Repr

/-- The fields of `addrConn` these goroutines read and write: `state`, `transport` (by the index
of the transport), `addrs`, `curAddr` (`none` for the zero address), and whether `ac.ctx` is
cancelled; with the transports made so far and the goroutines running `resetTransport`. -/
structure addrConn (α : Type) where
  state : connectivityState
  transport : Option ℕ
  addrs : List α
  curAddr : Option α
  ctxCancelled : Bool
  transports : List transportInfo
  resets : List (resetStage α)
  deriving DecidableEq

/-- The events: `connect`; a step of the `i`-th goroutine running `resetTransport` (its next
lock section, `NewClientTransport` failing or returning a transport, a case of one of its
selects); a callback of transport `tr`; a health-check update on transport `tr`; `tearDown`;
`tryUpdateAddrs`. -/
inductive event (α : Type)
  | connect
  | reset (i : ℕ)
  | dialFailed (i : ℕ)
  | dialed (i : ℕ)
  | connectDeadline (i : ℕ)
  | prefaceCase (i : ℕ) (healthCheck : Bool)
  | connClosedCase (i : ℕ)
  | backoffDone (i : ℕ)
  | ctxDone (i : ℕ)
  | prefaceReceipt (tr : ℕ)
  | onClose (tr : ℕ)
  | onGoAway (tr : ℕ)
  | setConnectivityState (tr : ℕ) (s : connectivityState)
  | tearDown
  | tryUpdateAddrs (addrs : List α)

variable {α : Type}

/-- `cc.newAddrConn`: Idle, with no transport and no goroutine. -/
def newAddrConn (addrs : List α) : addrConn α := ⟨.Idle, none, addrs, none, false, [], []⟩

/-- `updateConnectivityState`, which reports the new state unless it is the current one. -/
def updateConnectivityState (ac : addrConn α) (s : connectivityState) :
    List connectivityState × addrConn α :=
  if ac.state = s then ([], ac) else ([s], { ac with state := s })

/-- The `i`-th `resetTransport` goroutine moves to stage `st`. -/
def setStage (ac : addrConn α) (i : ℕ) (st : resetStage α) : addrConn α :=
  { ac with resets := ac.resets.set i st }

/-- The `i`-th `resetTransport` goroutine returns. -/
def finish (ac : addrConn α) (i : ℕ) : addrConn α :=
  { ac with resets := ac.resets.eraseIdx i }

/-- What `createTransport` keeps for transport `tr` changes by `f`. -/
def modifyTransport (ac : addrConn α) (tr : ℕ) (f : transportInfo → transportInfo) :
    addrConn α :=
  { ac with transports := ac.transports.modify tr f }

/-- `connect`: only an Idle addrConn moves, to Connecting, and runs `resetTransport`. -/
def connect (ac : addrConn α) : List connectivityState × addrConn α :=
  if ac.state = .Shutdown then ([], ac)
  else if ac.state ≠ .Idle then ([], ac)
  else
    let (out, ac) := updateConnectivityState ac .Connecting
    (out, { ac with resets := ac.resets ++ [.resetTransport] })

/-- The lock section at the start of `resetTransport`: it takes `ac.addrs` and reports
Connecting. -/
def resetTransport (ac : addrConn α) (i : ℕ) : List connectivityState × addrConn α :=
  if ac.state = .Shutdown then ([], finish ac i)
  else
    let (out, ac') := updateConnectivityState ac .Connecting
    (out, setStage ac' i (.tryAllAddrs ac.addrs false))

/-- The head of `tryAllAddrs`'s loop.  With no address left it returns `firstConnErr`, which is
`nil` when nothing failed: `resetTransport` then takes it as success and returns. -/
def tryAllAddrs (ac : addrConn α) (i : ℕ) : List α → Bool → List connectivityState × addrConn α
  | [], firstConnErr => if firstConnErr then ([], setStage ac i .failed) else ([], finish ac i)
  | addr :: rest, firstConnErr =>
    -- `errConnClosing`
    if ac.state = .Shutdown then ([], setStage ac i .failed)
    else ([], setStage ac i (.dial addr rest firstConnErr))

/-- `NewClientTransport` returns transport number `ac.transports.length`, and `createTransport`
waits in its select. -/
def dialed (ac : addrConn α) (i : ℕ) (addr : α) (rest : List α) (firstConnErr : Bool) :
    addrConn α :=
  { setStage ac i (.select addr rest firstConnErr ac.transports.length) with
    transports := ac.transports ++ [transportInfo.new] }

/-- `startHealthCheck`: Ready, unless a health-check goroutine is started to manage the state. -/
def startHealthCheck (ac : addrConn α) (tr : ℕ) (healthcheckManagingState : Bool) :
    List connectivityState × addrConn α :=
  if healthcheckManagingState then ([], modifyTransport ac tr fun t => { t with healthCheck := true })
  else updateConnectivityState ac .Ready

/-- `case <-prefaceReceived.Done()` of `createTransport`'s select, for transport `tr` of address
`addr`; `createTransport` then returns `nil`. -/
def prefaceCase (ac : addrConn α) (i : ℕ) (addr : α) (tr : ℕ) (healthCheck : Bool) :
    List connectivityState × addrConn α :=
  if (ac.transports[tr]?.map (·.connClosed)) = some true then
    -- `onClose` called first; go idle but do nothing else
    if ac.state ≠ .Shutdown then
      let (out, ac) := updateConnectivityState ac .Idle
      (out, finish ac i)
    else ([], finish ac i)
  -- `go newTr.Close(...)`: its `onClose` is a later event
  else if ac.state = .Shutdown then ([], finish ac i)
  else
    let ac := modifyTransport { ac with curAddr := some addr, transport := some tr } tr
      fun t => { t with hcStarted := true }
    let (out, ac) := startHealthCheck ac tr healthCheck
    (out, finish ac i)

/-- `case <-connClosed.Done()`: success when the preface was received, else the next address. -/
def connClosedCase (ac : addrConn α) (i : ℕ) (rest : List α) (tr : ℕ) :
    List connectivityState × addrConn α :=
  if (ac.transports[tr]?.map (·.prefaceReceived)) = some true then ([], finish ac i)
  else ([], setStage ac i (.tryAllAddrs rest true))

/-- The lock section after `tryAllAddrs` returned an error: TransientFailure, then the backoff. -/
def transientFailure (ac : addrConn α) (i : ℕ) : List connectivityState × addrConn α :=
  if ac.state = .Shutdown then ([], finish ac i)
  else
    let (out, ac) := updateConnectivityState ac .TransientFailure
    (out, setStage ac i .backoff)

/-- The end of the backoff: Idle unless shut down. -/
def backoffDone (ac : addrConn α) (i : ℕ) : List connectivityState × addrConn α :=
  if ac.state ≠ .Shutdown then
    let (out, ac) := updateConnectivityState ac .Idle
    (out, finish ac i)
  else ([], finish ac i)

/-- The transport's `onClose` callback.  It does nothing but fire `connClosed` unless the health
check was started and `hctx` is not cancelled (`hctx` is cancelled with `ac.ctx` too); then it
cancels `hctx`, clears `ac.transport` and goes Idle. -/
def onClose (ac : addrConn α) (tr : ℕ) : List connectivityState × addrConn α :=
  match ac.transports[tr]? with
  | none => ([], ac)
  | some t =>
    if !t.hcStarted || (t.hcCancelled || ac.ctxCancelled) then
      ([], modifyTransport ac tr fun t => { t with connClosed := true })
    else
      let ac := modifyTransport { ac with transport := none } tr
        fun t => { t with hcCancelled := true, connClosed := true }
      if ac.state ≠ .Shutdown then updateConnectivityState ac .Idle else ([], ac)

/-- `onGoAway`: `adjustParams` changes the keepalive time of the ClientConn only, then
`onClose`. -/
def onGoAway (ac : addrConn α) (tr : ℕ) : List connectivityState × addrConn α :=
  onClose ac tr

/-- The health check's `setConnectivityState`, for the transport it was started on. -/
def setConnectivityState (ac : addrConn α) (tr : ℕ) (s : connectivityState) :
    List connectivityState × addrConn α :=
  if ac.transport ≠ some tr then ([], ac) else updateConnectivityState ac s

/-- `tearDown`: Shutdown, with the transport cleared and the context cancelled. -/
def tearDown (ac : addrConn α) : List connectivityState × addrConn α :=
  if ac.state = .Shutdown then ([], ac)
  else
    let (out, ac) := updateConnectivityState { ac with transport := none } .Shutdown
    (out, { ac with ctxCancelled := true, curAddr := none })

/-- `tryUpdateAddrs`: the new addresses are taken unless the addrConn is Connecting, or Ready on
an address they do not contain. -/
def tryUpdateAddrs [DecidableEq α] (ac : addrConn α) (addrs : List α) : Bool × addrConn α :=
  if ac.state = .Shutdown ∨ ac.state = .TransientFailure ∨ ac.state = .Idle then
    (true, { ac with addrs := addrs })
  else if ac.state = .Connecting then (false, ac)
  else
    let curAddrFound := addrs.any fun a => some a == ac.curAddr
    (curAddrFound, if curAddrFound then { ac with addrs := addrs } else ac)

/-- One event.  A goroutine's event at a stage it is not at does nothing. -/
def step [DecidableEq α] (ac : addrConn α) : event α → List connectivityState × addrConn α
  | .connect => connect ac
  | .reset i =>
    match ac.resets[i]? with
    | some .resetTransport => resetTransport ac i
    | some (.tryAllAddrs addrs firstConnErr) => tryAllAddrs ac i addrs firstConnErr
    | some .failed => transientFailure ac i
    | _ => ([], ac)
  | .dialFailed i =>
    match ac.resets[i]? with
    | some (.dial _ rest _) => ([], setStage ac i (.tryAllAddrs rest true))
    | _ => ([], ac)
  | .dialed i =>
    match ac.resets[i]? with
    | some (.dial addr rest firstConnErr) => ([], dialed ac i addr rest firstConnErr)
    | _ => ([], ac)
  | .connectDeadline i =>
    -- "failed to receive server preface within timeout"
    match ac.resets[i]? with
    | some (.select _ rest _ _) => ([], setStage ac i (.tryAllAddrs rest true))
    | _ => ([], ac)
  | .prefaceCase i healthCheck =>
    match ac.resets[i]? with
    | some (.select addr _ _ tr) => prefaceCase ac i addr tr healthCheck
    | _ => ([], ac)
  | .connClosedCase i =>
    match ac.resets[i]? with
    | some (.select _ rest _ tr) => connClosedCase ac i rest tr
    | _ => ([], ac)
  | .backoffDone i =>
    match ac.resets[i]? with
    | some .backoff => backoffDone ac i
    | _ => ([], ac)
  | .ctxDone i =>
    -- `connectCtx` cancelled with `ac.ctx`: `createTransport` returns `nil`; or the backoff's
    -- `ac.ctx.Done()`
    match ac.resets[i]? with
    | some (.select ..) => ([], finish ac i)
    | some .backoff => ([], finish ac i)
    | _ => ([], ac)
  | .prefaceReceipt tr => ([], modifyTransport ac tr fun t => { t with prefaceReceived := true })
  | .onClose tr => onClose ac tr
  | .onGoAway tr => onGoAway ac tr
  | .setConnectivityState tr s => setConnectivityState ac tr s
  | .tearDown => tearDown ac
  | .tryUpdateAddrs addrs => ([], (tryUpdateAddrs ac addrs).2)

/-- Whether the channel that `flag` reads is ready for the select of the `i`-th goroutine, when
it is in `createTransport`'s select. -/
def selectReady (ac : addrConn α) (i : ℕ) (flag : transportInfo → Bool) : Bool :=
  match ac.resets[i]? with
  | some (.select _ _ _ tr) => (ac.transports[tr]?.map flag) == some true
  | _ => true

/-- When an event can come: a select case when its channel is ready, `ac.ctx.Done()` once the
context is cancelled, a health-check update on a transport that has a health check and with one
of the states `health/client.go` reports, and `tryUpdateAddrs` with addresses, as
`UpdateAddresses` calls it. -/
def Allowed (ac : addrConn α) : event α → Prop
  | .prefaceCase i _ => selectReady ac i (·.prefaceReceived) = true
  | .connClosedCase i => selectReady ac i (·.connClosed) = true
  | .ctxDone _ => ac.ctxCancelled = true
  | .setConnectivityState tr s =>
    (ac.transports[tr]?.map (·.healthCheck)) = some true ∧
      (s = .Connecting ∨ s = .Ready ∨ s = .TransientFailure)
  | .tryUpdateAddrs addrs => addrs ≠ []
  | _ => True

instance (ac : addrConn α) (e : event α) : Decidable (Allowed ac e) := by
  cases e <;> unfold Allowed <;> infer_instance

/-! ## What a step reports -/

/-- `updateConnectivityState` as a pair: the report, and the record with the new state. -/
theorem updateConnectivityState_eq (ac : addrConn α) (s : connectivityState) :
    updateConnectivityState ac s = (if ac.state = s then [] else [s], { ac with state := s }) := by
  unfold updateConnectivityState
  split_ifs with h
  · rw [← h]
  · rfl

/-- What a step reports: nothing, with the state as it was; or its new state, which differs
from the old. -/
def Reports (ac : addrConn α) (r : List connectivityState × addrConn α) : Prop :=
  (r.1 = [] ∧ r.2.state = ac.state) ∨ (r.1 = [r.2.state] ∧ r.2.state ≠ ac.state)

theorem Reports.silent {ac ac' : addrConn α} (h : ac'.state = ac.state) : Reports ac ([], ac') :=
  Or.inl ⟨rfl, h⟩

theorem reports_updateConnectivityState (ac : addrConn α) (s : connectivityState) :
    Reports ac (updateConnectivityState ac s) := by
  unfold updateConnectivityState
  split_ifs with h
  · exact Reports.silent rfl
  · exact Or.inr ⟨rfl, Ne.symm h⟩

/-- A report from a record with the same state, followed by a change that keeps the state. -/
theorem Reports.then {ac ac₀ : addrConn α} {r : List connectivityState × addrConn α}
    (h₀ : ac₀.state = ac.state) (h : Reports ac₀ r) (g : addrConn α → addrConn α)
    (hg : ∀ x, (g x).state = x.state) : Reports ac (r.1, g r.2) := by
  rcases h with ⟨h₁, h₂⟩ | ⟨h₁, h₂⟩
  · exact Or.inl ⟨h₁, by rw [hg, h₂, h₀]⟩
  · refine Or.inr ⟨by rw [h₁, hg], ?_⟩
    rw [hg, ← h₀]
    exact h₂

/-- `updateConnectivityState`, then a change that keeps the state. -/
theorem reports_update_then (ac : addrConn α) (s : connectivityState)
    (g : addrConn α → addrConn α) (hg : ∀ x, (g x).state = x.state) :
    Reports ac ((updateConnectivityState ac s).1, g (updateConnectivityState ac s).2) :=
  (reports_updateConnectivityState ac s).then rfl g hg

theorem reports_startHealthCheck (ac : addrConn α) (tr : ℕ) (hc : Bool) :
    Reports ac (startHealthCheck ac tr hc) := by
  unfold startHealthCheck
  split_ifs
  · exact Reports.silent rfl
  · exact reports_updateConnectivityState ac _

theorem reports_onClose (ac : addrConn α) (tr : ℕ) : Reports ac (onClose ac tr) := by
  unfold onClose
  split
  · exact Reports.silent rfl
  · dsimp only
    split_ifs
    · exact Reports.silent rfl
    · exact (reports_updateConnectivityState _ _).then rfl id fun _ => rfl
    · exact Reports.silent rfl

theorem reports_prefaceCase (ac : addrConn α) (i : ℕ) (addr : α) (tr : ℕ) (hc : Bool) :
    Reports ac (prefaceCase ac i addr tr hc) := by
  unfold prefaceCase
  split_ifs
  · exact reports_update_then ac _ (finish · i) fun _ => rfl
  · exact Reports.silent rfl
  · exact Reports.silent rfl
  · exact (reports_startHealthCheck _ tr hc).then rfl (finish · i) fun _ => rfl

theorem tryUpdateAddrs_state [DecidableEq α] (ac : addrConn α) (addrs : List α) :
    (tryUpdateAddrs ac addrs).2.state = ac.state := by
  unfold tryUpdateAddrs
  dsimp only
  split_ifs <;> rfl

/-- **Every event reports at most one state, the one it leaves, and only when it changes.** -/
theorem reports_step [DecidableEq α] (ac : addrConn α) (e : event α) : Reports ac (step ac e) := by
  cases e with
  | connect =>
    dsimp only [step]
    unfold connect
    split_ifs
    · exact Reports.silent rfl
    · exact Reports.silent rfl
    · exact reports_update_then ac _ (fun x => { x with resets := x.resets ++ [.resetTransport] })
        fun _ => rfl
  | reset i =>
    dsimp only [step]
    split
    · unfold resetTransport
      split_ifs
      · exact Reports.silent rfl
      · exact reports_update_then ac _ (setStage · i _) fun _ => rfl
    · unfold tryAllAddrs
      split <;> split_ifs <;> exact Reports.silent rfl
    · unfold transientFailure
      split_ifs
      · exact Reports.silent rfl
      · exact reports_update_then ac _ (setStage · i _) fun _ => rfl
    · exact Reports.silent rfl
  | prefaceCase i hc =>
    dsimp only [step]
    split
    · exact reports_prefaceCase ac i _ _ hc
    · exact Reports.silent rfl
  | connClosedCase i =>
    dsimp only [step]
    split
    · unfold connClosedCase
      split_ifs <;> exact Reports.silent rfl
    · exact Reports.silent rfl
  | backoffDone i =>
    dsimp only [step]
    split
    · unfold backoffDone
      split_ifs
      · exact reports_update_then ac _ (finish · i) fun _ => rfl
      · exact Reports.silent rfl
    · exact Reports.silent rfl
  | onClose tr => exact reports_onClose ac tr
  | onGoAway tr => exact reports_onClose ac tr
  | setConnectivityState tr s =>
    dsimp only [step]
    unfold setConnectivityState
    split_ifs
    · exact Reports.silent rfl
    · exact reports_updateConnectivityState ac s
  | tearDown =>
    dsimp only [step]
    unfold tearDown
    split_ifs
    · exact Reports.silent rfl
    · exact (reports_updateConnectivityState _ _).then rfl
        (fun x => { x with ctxCancelled := true, curAddr := none }) fun _ => rfl
  | tryUpdateAddrs addrs => exact Reports.silent (tryUpdateAddrs_state ac addrs)
  | dialFailed i => dsimp only [step]; split <;> exact Reports.silent rfl
  | dialed i => dsimp only [step]; split <;> exact Reports.silent rfl
  | connectDeadline i => dsimp only [step]; split <;> exact Reports.silent rfl
  | ctxDone i => dsimp only [step]; split <;> exact Reports.silent rfl
  | prefaceReceipt tr => exact Reports.silent rfl

/-! ## The invariant -/

/-- What holds in every reachable state:
* the context is cancelled exactly at Shutdown;
* the current transport has received the preface and has not closed, its health check has
  started with `hctx` live, and no `resetTransport` runs beside it;
* a transport whose health check started and whose `hctx` is live is the current one;
* Ready has a transport;
* Idle has neither a transport nor a `resetTransport`;
* at most one `resetTransport` runs, and the transport its select waits on has not started a
  health check. -/
structure Inv (ac : addrConn α) : Prop where
  ctx_iff : ac.ctxCancelled = true ↔ ac.state = .Shutdown
  live : ∀ tr, ac.transport = some tr → ac.ctxCancelled = false ∧ ac.resets = [] ∧
    ∃ t, ac.transports[tr]? = some t ∧ t.prefaceReceived = true ∧ t.connClosed = false ∧
      t.hcStarted = true ∧ t.hcCancelled = false
  current : ∀ tr t, ac.transports[tr]? = some t → t.hcStarted = true → t.hcCancelled = false →
    ac.ctxCancelled = false → ac.transport = some tr
  ready : ac.state = .Ready → ac.transport ≠ none
  idle : ac.state = .Idle → ac.resets = [] ∧ ac.transport = none
  resets_le : ac.resets.length ≤ 1
  selecting : ∀ (i : ℕ) (a : α) (rest : List α) (err : Bool) (tr : ℕ),
    ac.resets[i]? = some (.select a rest err tr) →
    ∃ t, ac.transports[tr]? = some t ∧ t.hcStarted = false ∧ t.hcCancelled = false

theorem inv_newAddrConn (addrs : List α) : Inv (newAddrConn addrs) where
  ctx_iff := by simp [newAddrConn]
  live _ h := nomatch h
  current _ _ h := nomatch h
  ready h := nomatch h
  idle _ := ⟨rfl, rfl⟩
  resets_le := Nat.zero_le 1
  selecting _ _ _ _ _ h := nomatch h

/-- Before Shutdown the addrConn's context is live. -/
theorem Inv.ctx_live {ac : addrConn α} (h : Inv ac) (hst : ac.state ≠ .Shutdown) :
    ac.ctxCancelled = false :=
  Bool.eq_false_iff.mpr fun hc => hst (h.ctx_iff.mp hc)

section Threads

variable {ac : addrConn α} {i : ℕ} {st : resetStage α}

/-- A running `resetTransport` is the only one. -/
theorem Inv.single (h : Inv ac) (hi : ac.resets[i]? = some st) : ac.resets = [st] ∧ i = 0 := by
  have hlen := h.resets_le
  match hr : ac.resets, hi with
  | [x], hx =>
    have hi0 : i = 0 := by
      rcases i with _ | i
      · rfl
      · simp at hx
    subst hi0
    exact ⟨by simpa using hx, rfl⟩
  | _ :: _ :: _, _ =>
    rw [hr] at hlen
    simp at hlen

/-- While `resetTransport` runs there is no transport, and the state is not Idle. -/
theorem Inv.alive (h : Inv ac) (hi : ac.resets[i]? = some st) :
    ac.transport = none ∧ ac.state ≠ .Idle := by
  have hne : ac.resets ≠ [] := fun he => by rw [he] at hi; simp at hi
  refine ⟨?_, fun hs => hne (h.idle hs).1⟩
  cases ht : ac.transport with
  | none => rfl
  | some tr => exact absurd (h.live tr ht).2.1 hne

/-- `resetTransport` returns. -/
theorem Inv.after_finish (h : Inv ac) (hi : ac.resets[i]? = some st) : Inv (finish ac i) := by
  obtain ⟨hr, rfl⟩ := h.single hi
  obtain ⟨ht, hidle⟩ := h.alive hi
  have hf : finish ac 0 = { ac with resets := [] } := by simp [finish, hr]
  rw [hf]
  exact { ctx_iff := h.ctx_iff, live := fun _ h' => by rw [ht] at h'; cases h'
          current := h.current, ready := h.ready, idle := fun hs => absurd hs hidle
          resets_le := Nat.zero_le 1, selecting := fun _ _ _ _ _ h' => by simp at h' }

/-- `resetTransport` moves to a stage; a select waits on a transport without a health check. -/
theorem Inv.after_setStage (h : Inv ac) (hi : ac.resets[i]? = some st) {st' : resetStage α}
    (hst : ∀ a rest err tr, st' = .select a rest err tr →
      ∃ t, ac.transports[tr]? = some t ∧ t.hcStarted = false ∧ t.hcCancelled = false) :
    Inv (setStage ac i st') := by
  obtain ⟨hr, rfl⟩ := h.single hi
  obtain ⟨ht, hidle⟩ := h.alive hi
  have hs : setStage ac 0 st' = { ac with resets := [st'] } := by simp [setStage, hr]
  rw [hs]
  refine { ctx_iff := h.ctx_iff, live := fun _ h' => by rw [ht] at h'; cases h'
           current := h.current, ready := h.ready, idle := fun hs => absurd hs hidle
           resets_le := le_refl 1, selecting := fun j a rest err tr hj => ?_ }
  rcases j with _ | j
  · exact hst a rest err tr (by simpa using hj)
  · simp at hj

/-- While `resetTransport` runs, a report of a state other than Shutdown, Idle and Ready. -/
theorem Inv.after_update (h : Inv ac) (hi : ac.resets[i]? = some st) (hst : ac.state ≠ .Shutdown)
    {s : connectivityState} (hs : s ≠ .Shutdown) (hidle : s ≠ .Idle) (hready : s ≠ .Ready) :
    Inv { ac with state := s } := by
  obtain ⟨ht, -⟩ := h.alive hi
  have hctx : ac.ctxCancelled = false := h.ctx_live hst
  exact { ctx_iff := by simp [hctx, hs], live := h.live, current := h.current
          ready := fun h' => absurd h' hready, idle := fun h' => absurd h' hidle
          resets_le := h.resets_le, selecting := h.selecting }

/-- `resetTransport` goes Idle and returns. -/
theorem Inv.after_idle_finish (h : Inv ac) (hi : ac.resets[i]? = some st) (hst : ac.state ≠ .Shutdown) :
    Inv (finish { ac with state := .Idle } i) := by
  obtain ⟨hr, rfl⟩ := h.single hi
  obtain ⟨ht, -⟩ := h.alive hi
  have hctx : ac.ctxCancelled = false := h.ctx_live hst
  have hf : finish { ac with state := .Idle } 0 = { ac with state := .Idle, resets := [] } := by
    simp [finish, hr]
  rw [hf]
  exact { ctx_iff := by simp [hctx], live := fun _ h' => by rw [ht] at h'; cases h'
          current := h.current, ready := nofun, idle := fun _ => ⟨rfl, ht⟩
          resets_le := Nat.zero_le 1, selecting := fun _ _ _ _ _ h' => by simp at h' }

/-- A change to the flags of transport `tr` that keeps `hcStarted` and `hcCancelled`, does not
take back a received preface, and keeps `connClosed` of the current transport. -/
theorem Inv.after_modify (h : Inv ac) (tr : ℕ) (f : transportInfo → transportInfo)
    (hf : ∀ t, (t.prefaceReceived = true → (f t).prefaceReceived = true) ∧
      (f t).hcStarted = t.hcStarted ∧ (f t).hcCancelled = t.hcCancelled)
    (hcur : ac.transport = some tr → ∀ t, (f t).connClosed = t.connClosed) :
    Inv (modifyTransport ac tr f) := by
  -- the flags `live`, `current` and `selecting` read, at each index of the new list
  have hat : ∀ (k : ℕ) (t' : transportInfo), (ac.transports.modify tr f)[k]? = some t' →
      ∃ t, ac.transports[k]? = some t ∧ (k = tr → t' = f t) ∧ (k ≠ tr → t' = t) := by
    intro k t' hk
    rw [List.getElem?_modify] at hk
    cases hget : ac.transports[k]? with
    | none => simp [hget] at hk
    | some t =>
      rw [hget] at hk
      by_cases hkt : tr = k
      · subst hkt
        exact ⟨t, rfl, fun _ => by simpa using hk.symm, fun hne => absurd rfl hne⟩
      · exact ⟨t, rfl, fun he => absurd he.symm hkt, fun _ => by simpa [hkt] using hk.symm⟩
  have hflags : ∀ (k : ℕ) (t' : transportInfo), (ac.transports.modify tr f)[k]? = some t' →
      ∃ t : transportInfo, ac.transports[k]? = some t ∧
        t'.hcStarted = t.hcStarted ∧ t'.hcCancelled = t.hcCancelled := by
    intro k t' hk
    obtain ⟨t, ht, heq, hne⟩ := hat k t' hk
    by_cases hkt : k = tr
    · rw [heq hkt]
      exact ⟨t, ht, (hf t).2.1, (hf t).2.2⟩
    · rw [hne hkt]
      exact ⟨t, ht, rfl, rfl⟩
  refine { ctx_iff := h.ctx_iff, live := fun k hk => ?_, current := fun k t' hk hs hc hctx => ?_
           ready := h.ready, idle := h.idle, resets_le := h.resets_le
           selecting := fun j a rest err k hj => ?_ }
  · obtain ⟨hctx, hr, t, ht, hp, hcl, hs, hc⟩ := h.live k hk
    refine ⟨hctx, hr, ?_⟩
    by_cases hkt : k = tr
    · subst hkt
      refine ⟨f t, by simp [modifyTransport, ht], (hf t).1 hp, ?_, ?_, ?_⟩
      · rw [hcur hk t, hcl]
      · rw [(hf t).2.1, hs]
      · rw [(hf t).2.2, hc]
    · exact ⟨t, by simp [modifyTransport, Ne.symm hkt, ht], hp, hcl, hs, hc⟩
  · obtain ⟨t, ht, hs', hc'⟩ := hflags k t' hk
    exact h.current k t ht (hs' ▸ hs) (hc' ▸ hc) hctx
  · obtain ⟨t, ht, hs, hc⟩ := h.selecting j a rest err k hj
    by_cases hkt : k = tr
    · subst hkt
      exact ⟨f t, by simp [modifyTransport, ht], by rw [(hf t).2.1, hs],
        by rw [(hf t).2.2, hc]⟩
    · exact ⟨t, by simp [modifyTransport, Ne.symm hkt, ht], hs, hc⟩

/-- `NewClientTransport` returns a fresh transport, and the select waits on it. -/
theorem Inv.after_dialed (h : Inv ac) {addr : α} {rest : List α} {err : Bool}
    (hi : ac.resets[i]? = some (.dial addr rest err)) : Inv (dialed ac i addr rest err) := by
  obtain ⟨hr, rfl⟩ := h.single hi
  obtain ⟨ht, hidle⟩ := h.alive hi
  -- the old transports keep their index; the new one has no flag set
  have hold : ∀ (k : ℕ) (t : transportInfo), (ac.transports ++ [transportInfo.new])[k]? = some t →
      k < ac.transports.length ∧ ac.transports[k]? = some t ∨
        k = ac.transports.length ∧ t = transportInfo.new := by
    intro k t hk
    rcases Nat.lt_or_ge k ac.transports.length with hlt | hge
    · rw [List.getElem?_append_left hlt] at hk
      exact Or.inl ⟨hlt, hk⟩
    · rw [List.getElem?_append_right hge] at hk
      have hk0 : k - ac.transports.length = 0 := by
        by_contra hne
        rw [List.getElem?_eq_none (by simp; omega)] at hk
        cases hk
      rw [hk0] at hk
      exact Or.inr ⟨by omega, by simpa using hk.symm⟩
  have hd : dialed ac 0 addr rest err =
      { ac with resets := [.select addr rest err ac.transports.length],
                transports := ac.transports ++ [transportInfo.new] } := by
    simp [dialed, setStage, hr]
  rw [hd]
  refine { ctx_iff := h.ctx_iff, live := fun _ h' => by rw [ht] at h'; cases h'
           current := fun k t hk hs hc hctx => ?_, ready := h.ready
           idle := fun hs => absurd hs hidle, resets_le := le_refl 1
           selecting := fun j a rest' err' k hj => ?_ }
  · rcases hold k t hk with ⟨-, hk'⟩ | ⟨-, rfl⟩
    · exact h.current k t hk' hs hc hctx
    · cases hs
  · rcases j with _ | j
    · simp only [List.getElem?_cons_zero, Option.some.injEq, resetStage.select.injEq] at hj
      obtain ⟨-, -, -, rfl⟩ := hj
      exact ⟨transportInfo.new, List.getElem?_concat_length, rfl, rfl⟩
    · simp at hj

/-- `createTransport` takes the transport `tr` after its preface: it becomes the current one, with
its health check started, and `resetTransport` returns. -/
theorem Inv.adopt (h : Inv ac) (hi : ac.resets[i]? = some st) (hst : ac.state ≠ .Shutdown)
    {s : connectivityState} (hs : s = ac.state ∨ s = .Ready) {tr : ℕ} {ts : List transportInfo}
    (hother : ∀ k, k ≠ tr → ts[k]? = ac.transports[k]?)
    (hnew : ∃ t, ts[tr]? = some t ∧ t.prefaceReceived = true ∧ t.connClosed = false ∧
      t.hcStarted = true ∧ t.hcCancelled = false) (a : Option α) :
    Inv { ac with state := s, transport := some tr, curAddr := a, transports := ts, resets := [] } := by
  obtain ⟨ht, hidle⟩ := h.alive hi
  have hctx : ac.ctxCancelled = false := h.ctx_live hst
  refine { ctx_iff := ?_, live := fun k hk => ?_, current := fun k t hk hs' hc hctx' => ?_
           ready := fun _ => nofun, idle := fun h' => ?_, resets_le := Nat.zero_le 1
           selecting := fun _ _ _ _ _ h' => by simp at h' }
  · rcases hs with rfl | rfl
    · simp [hctx, hst]
    · simp [hctx]
  · cases hk
    exact ⟨hctx, rfl, hnew⟩
  · -- any other transport with a live health check would have been the current one
    by_contra hne
    have hk' : k ≠ tr := fun he => hne (by rw [he])
    rw [hother k hk'] at hk
    rw [h.current k t hk hs' hc hctx] at ht
    cases ht
  · rcases hs with rfl | rfl
    · exact absurd h' hidle
    · cases h'

end Threads

section Events

variable {ac : addrConn α}

theorem inv_connect (h : Inv ac) : Inv (connect ac).2 := by
  unfold connect
  split_ifs with hsd hidle
  · exact h
  · exact h
  · -- from Idle, with neither a transport nor a `resetTransport`
    have hs : ac.state = .Idle := by simpa using hidle
    obtain ⟨hr, ht⟩ := h.idle hs
    have hctx : ac.ctxCancelled = false := h.ctx_live hsd
    simp only [updateConnectivityState_eq, hr, List.nil_append]
    exact { ctx_iff := by simp [hctx], live := fun _ h' => by rw [ht] at h'; cases h'
            current := h.current, ready := nofun, idle := nofun, resets_le := le_refl 1
            selecting := fun j _ _ _ _ hj => by rcases j with _ | j <;> simp at hj }

theorem inv_resetTransport (h : Inv ac) {i : ℕ} (hi : ac.resets[i]? = some .resetTransport) :
    Inv (resetTransport ac i).2 := by
  unfold resetTransport
  split_ifs with hsd
  · exact h.after_finish hi
  · simp only [updateConnectivityState_eq]
    exact (h.after_update hi hsd (s := .Connecting) (by decide) (by decide) (by decide)).after_setStage
      hi (by nofun)

theorem inv_tryAllAddrs (h : Inv ac) {i : ℕ} {addrs : List α} {err : Bool}
    (hi : ac.resets[i]? = some (.tryAllAddrs addrs err)) : Inv (tryAllAddrs ac i addrs err).2 := by
  cases addrs with
  | nil =>
    dsimp only [tryAllAddrs]
    split_ifs
    · exact h.after_setStage hi (by nofun)
    · exact h.after_finish hi
  | cons addr rest =>
    dsimp only [tryAllAddrs]
    split_ifs
    · exact h.after_setStage hi (by nofun)
    · exact h.after_setStage hi (by nofun)

theorem inv_transientFailure (h : Inv ac) {i : ℕ} (hi : ac.resets[i]? = some .failed) :
    Inv (transientFailure ac i).2 := by
  unfold transientFailure
  split_ifs with hsd
  · exact h.after_finish hi
  · simp only [updateConnectivityState_eq]
    exact (h.after_update hi hsd (s := .TransientFailure) (by decide) (by decide)
      (by decide)).after_setStage hi (by nofun)

theorem inv_backoffDone (h : Inv ac) {i : ℕ} (hi : ac.resets[i]? = some .backoff) :
    Inv (backoffDone ac i).2 := by
  unfold backoffDone
  split_ifs with hsd
  · simp only [updateConnectivityState_eq]
    exact h.after_idle_finish hi hsd
  · exact h.after_finish hi

/-- The preface case of the select: Idle when the transport has already closed, nothing at
Shutdown, else the transport becomes the current one. -/
theorem inv_prefaceCase (h : Inv ac) {i tr : ℕ} {addr : α} {rest : List α} {err : Bool}
    (hi : ac.resets[i]? = some (.select addr rest err tr))
    (hready : (ac.transports[tr]?.map (·.prefaceReceived)) = some true) (hc : Bool) :
    Inv (prefaceCase ac i addr tr hc).2 := by
  obtain ⟨t, ht, hs, hcan⟩ := h.selecting i addr rest err tr hi
  have hp : t.prefaceReceived = true := by simpa [ht] using hready
  unfold prefaceCase
  split_ifs with hclosed hsd hsd'
  · simp only [updateConnectivityState_eq]
    exact h.after_idle_finish hi hsd
  · exact h.after_finish hi
  · exact h.after_finish hi
  · have hcl : t.connClosed = false := by simpa [ht] using hclosed
    obtain ⟨hr, rfl⟩ := h.single hi
    -- the new flags of `tr`, and the others as they were; with a health check a second
    -- modification of `tr` sets `healthCheck`
    cases hc with
    | false =>
      simp only [startHealthCheck, Bool.false_eq_true, ↓reduceIte, updateConnectivityState_eq,
        finish, modifyTransport, hr]
      refine h.adopt hi hsd' (Or.inr rfl) (fun k hk => ?_)
        ⟨{ t with hcStarted := true }, ?_, hp, hcl, rfl, hcan⟩ (some addr)
      · simp [Ne.symm hk]
      · simp [ht]
    | true =>
      simp only [startHealthCheck, ↓reduceIte, finish, modifyTransport, hr]
      refine h.adopt hi hsd' (Or.inl rfl) (fun k hk => ?_)
        ⟨{ t with hcStarted := true, healthCheck := true }, ?_, hp, hcl, rfl, hcan⟩ (some addr)
      · simp [Ne.symm hk]
      · simp [ht]

/-- `onClose`: only `connClosed` fires unless the transport is the current one, which is
cleared, and the addrConn goes Idle. -/
theorem inv_onClose (h : Inv ac) (tr : ℕ) : Inv (onClose ac tr).2 := by
  unfold onClose
  split
  · exact h
  · rename_i t ht
    dsimp only
    split_ifs with hguard hsd
    · -- not the current transport: `connClosed` of the current one is untouched
      refine h.after_modify tr _ (fun _ => ⟨id, rfl, rfl⟩) fun hcur => ?_
      obtain ⟨hctx, -, t', ht', -, -, hs, hc⟩ := h.live tr hcur
      rw [ht] at ht'
      cases ht'
      simp [hs, hc, hctx] at hguard
    · -- the current transport: it is cleared and the addrConn goes Idle
      simp only [Bool.or_eq_true, Bool.not_eq_eq_eq_not, Bool.not_true, not_or] at hguard
      obtain ⟨hs, hc, hctx⟩ := hguard
      simp only [Bool.not_eq_true] at hs hc hctx
      have hcur := h.current tr t ht (by simpa using hs) hc hctx
      obtain ⟨-, hr, -⟩ := h.live tr hcur
      simp only [updateConnectivityState_eq, modifyTransport]
      refine { ctx_iff := by simp [hctx], live := fun _ h' => by cases h'
               current := fun k t' hk hs' hc' hctx' => ?_, ready := nofun
               idle := fun _ => ⟨hr, rfl⟩, resets_le := by rw [hr]; exact Nat.zero_le 1
               selecting := fun _ _ _ _ _ h' => by rw [hr] at h'; simp at h' }
      by_cases hkt : tr = k
      · subst hkt
        simp [ht] at hk
        rw [← hk] at hc'
        cases hc'
      · have hk' : ac.transports[k]? = some t' := by simpa [hkt] using hk
        rw [h.current k t' hk' hs' hc' hctx] at hcur
        cases hcur
        exact absurd rfl hkt
    · -- the current transport's `hctx` is live, so the addrConn is not shut down
      simp only [Bool.or_eq_true, Bool.not_eq_eq_eq_not, Bool.not_true, not_or] at hguard
      have hctx : ac.ctxCancelled = false := by simpa using hguard.2.2
      have : ac.state ≠ .Shutdown := fun hs => by rw [← h.ctx_iff] at hs; rw [hs] at hctx; cases hctx
      exact absurd (by simpa [modifyTransport] using hsd) this

/-- A health-check update on the current transport, with one of the states it reports. -/
theorem inv_setConnectivityState (h : Inv ac) (tr : ℕ) {s : connectivityState}
    (hs : s = .Connecting ∨ s = .Ready ∨ s = .TransientFailure) :
    Inv (setConnectivityState ac tr s).2 := by
  unfold setConnectivityState
  split_ifs with hcur
  · exact h
  · have hcur' : ac.transport = some tr := by simpa using hcur
    obtain ⟨hctx, hr, -⟩ := h.live tr hcur'
    simp only [updateConnectivityState_eq]
    have hsd : s ≠ .Shutdown := by rcases hs with rfl | rfl | rfl <;> decide
    have hidle : s ≠ .Idle := by rcases hs with rfl | rfl | rfl <;> decide
    exact { ctx_iff := by simp [hctx, hsd], live := h.live, current := h.current
            ready := fun _ => by rw [hcur']; nofun, idle := fun h' => absurd h' hidle
            resets_le := h.resets_le, selecting := h.selecting }

theorem inv_tearDown (h : Inv ac) : Inv (tearDown ac).2 := by
  unfold tearDown
  split_ifs
  · exact h
  · simp only [updateConnectivityState_eq]
    exact { ctx_iff := by simp, live := fun _ h' => by cases h'
            current := (fun _ _ _ _ _ h' => by cases h'), ready := nofun, idle := nofun
            resets_le := h.resets_le, selecting := h.selecting }

theorem inv_tryUpdateAddrs [DecidableEq α] (h : Inv ac) (addrs : List α) :
    Inv (tryUpdateAddrs ac addrs).2 := by
  unfold tryUpdateAddrs
  dsimp only
  split_ifs
  · exact ⟨h.ctx_iff, h.live, h.current, h.ready, h.idle, h.resets_le, h.selecting⟩
  · exact h
  · exact ⟨h.ctx_iff, h.live, h.current, h.ready, h.idle, h.resets_le, h.selecting⟩
  · exact h

end Events

/-- **Every allowed event keeps the invariant.** -/
theorem inv_step [DecidableEq α] : Invariant Allowed (step (α := α)) Inv := by
  intro ac e h he
  cases e with
  | connect => exact inv_connect h
  | reset i =>
    dsimp only [step]
    split
    next hi => exact inv_resetTransport h hi
    next hi => exact inv_tryAllAddrs h hi
    next hi => exact inv_transientFailure h hi
    next => exact h
  | dialFailed i =>
    dsimp only [step]
    split
    next hi => exact h.after_setStage hi (by nofun)
    next => exact h
  | dialed i =>
    dsimp only [step]
    split
    next hi => exact h.after_dialed hi
    next => exact h
  | connectDeadline i =>
    dsimp only [step]
    split
    next hi => exact h.after_setStage hi (by nofun)
    next => exact h
  | prefaceCase i hc =>
    dsimp only [step]
    split
    next hi =>
      have hready : selectReady ac i (·.prefaceReceived) = true := he
      simp only [selectReady, hi, beq_iff_eq] at hready
      exact inv_prefaceCase h hi hready hc
    next => exact h
  | connClosedCase i =>
    dsimp only [step]
    split
    next hi =>
      unfold connClosedCase
      split_ifs
      · exact h.after_finish hi
      · exact h.after_setStage hi (by nofun)
    next => exact h
  | backoffDone i =>
    dsimp only [step]
    split
    next hi => exact inv_backoffDone h hi
    next => exact h
  | ctxDone i =>
    dsimp only [step]
    split
    next hi => exact h.after_finish hi
    next hi => exact h.after_finish hi
    next => exact h
  | prefaceReceipt tr =>
    exact h.after_modify tr _ (fun _ => ⟨fun _ => rfl, rfl, rfl⟩) fun _ _ => rfl
  | onClose tr => exact inv_onClose h tr
  | onGoAway tr => exact inv_onClose h tr
  | setConnectivityState tr s => exact inv_setConnectivityState h tr he.2
  | tearDown => exact inv_tearDown h
  | tryUpdateAddrs addrs => exact inv_tryUpdateAddrs h addrs

/-- Only `tearDown` writes `ac.ctx`'s cancellation, and it is never undone. -/
theorem ctxCancelled_step [DecidableEq α] (ac : addrConn α) (e : event α)
    (h : ac.ctxCancelled = true) : (step ac e).2.ctxCancelled = true := by
  cases e with
  | connect =>
    unfold step connect
    split_ifs <;> simp [updateConnectivityState_eq, h]
  | reset i =>
    dsimp only [step]
    split
    · unfold resetTransport
      split_ifs <;> simp [updateConnectivityState_eq, finish, setStage, h]
    · unfold tryAllAddrs
      split <;> split_ifs <;> simp [finish, setStage, h]
    · unfold transientFailure
      split_ifs <;> simp [updateConnectivityState_eq, finish, setStage, h]
    · exact h
  | prefaceCase i hc =>
    dsimp only [step]
    split
    · unfold prefaceCase startHealthCheck
      split_ifs <;> simp [updateConnectivityState_eq, finish, modifyTransport, h]
    · exact h
  | connClosedCase i =>
    dsimp only [step]
    split
    · unfold connClosedCase
      split_ifs <;> simp [finish, setStage, h]
    · exact h
  | backoffDone i =>
    dsimp only [step]
    split
    · unfold backoffDone
      split_ifs <;> simp [updateConnectivityState_eq, finish, h]
    · exact h
  | onClose tr | onGoAway tr =>
    dsimp only [step, onGoAway]
    unfold onClose
    split
    · exact h
    · dsimp only
      split_ifs <;> simp [updateConnectivityState_eq, modifyTransport, h]
  | setConnectivityState tr s =>
    dsimp only [step]
    unfold setConnectivityState
    split_ifs <;> simp [updateConnectivityState_eq, h]
  | tearDown =>
    dsimp only [step]
    unfold tearDown
    split_ifs <;> simp [h]
  | tryUpdateAddrs addrs =>
    dsimp only [step]
    unfold tryUpdateAddrs
    dsimp only
    split_ifs <;> simp [h]
  | dialFailed i | dialed i | connectDeadline i | ctxDone i =>
    dsimp only [step]
    split <;> simp [setStage, dialed, finish, h]
  | prefaceReceipt tr => simp [step, modifyTransport, h]

/-- At Shutdown an allowed event reports nothing: the context stays cancelled, so the state
stays Shutdown. -/
theorem silent_of_shutdown [DecidableEq α] {ac : addrConn α} (h : Inv ac) {e : event α}
    (he : Allowed ac e) (hs : ac.state = .Shutdown) :
    (step ac e).1 = [] ∧ (step ac e).2.state = .Shutdown := by
  have hctx' := ctxCancelled_step ac e (h.ctx_iff.mpr hs)
  have hs' : (step ac e).2.state = .Shutdown := (inv_step ac e h he).ctx_iff.mp hctx'
  rcases reports_step ac e with ⟨hout, -⟩ | ⟨-, hne⟩
  · exact ⟨hout, hs'⟩
  · exact absurd (hs'.trans hs.symm) hne

/-! ## The reports over a run -/

/-- The reports so far, after the Idle an addrConn starts in, never name one state twice in a
row, and end with its state. -/
def ReportLog (out : List connectivityState) (s : connectivityState) : Prop :=
  List.IsChain (· ≠ ·) (.Idle :: out) ∧ (.Idle :: out).getLast? = some s

theorem ReportLog.step {out : List connectivityState} {ac : addrConn α}
    {r : List connectivityState × addrConn α} (h : ReportLog out ac.state) (hr : Reports ac r) :
    ReportLog (out ++ r.1) r.2.state := by
  rcases hr with ⟨h₁, h₂⟩ | ⟨h₁, h₂⟩
  · rw [h₁, List.append_nil, h₂]
    exact h
  · -- the new report follows the last, which is the old state
    rw [h₁]
    refine ⟨?_, by rw [← List.cons_append, List.getLast?_concat]⟩
    rw [← List.cons_append]
    refine List.isChain_append.mpr ⟨h.1, List.isChain_singleton _, ?_⟩
    intro x hx y hy
    rw [h.2, Option.mem_some_iff] at hx
    simp only [List.head?_cons, Option.mem_some_iff] at hy
    rw [← hx, ← hy]
    exact h₂.symm

/-- **No state is reported twice in a row**, over every interleaving of the events; nor is
Idle, the state an addrConn starts in, the first report. -/
theorem reports_alternate [DecidableEq α] (addrs : List α) (es : List (event α)) :
    List.IsChain (· ≠ ·) (.Idle :: (run step (newAddrConn addrs) es).1) := by
  have htriv : Invariant (fun _ _ => True) (step (α := α)) fun _ => True := fun _ _ _ _ => trivial
  have hnil : ReportLog [] (newAddrConn addrs).state := ⟨List.isChain_singleton _, rfl⟩
  have h := htriv.outputs (P := fun out ac => ReportLog out ac.state)
    (fun _ ac e _ _ hlog => hlog.step (reports_step ac e)) trivial
    (admits_of_forall (fun _ _ => trivial) (newAddrConn addrs) es) hnil
  rw [List.nil_append] at h
  exact h.1

/-- A Shutdown among the reports so far is the last of them, and the state is Shutdown. -/
def ShutdownLast (out : List connectivityState) (s : connectivityState) : Prop :=
  ∀ i, out[i]? = some .Shutdown → i + 1 = out.length ∧ s = .Shutdown

theorem ShutdownLast.step [DecidableEq α] {out : List connectivityState} {ac : addrConn α}
    (hinv : Inv ac) {e : event α} (he : Allowed ac e) (h : ShutdownLast out ac.state) :
    ShutdownLast (out ++ (step ac e).1) (step ac e).2.state := by
  by_cases hs : ac.state = .Shutdown
  · -- nothing more is reported
    obtain ⟨hout, hs'⟩ := silent_of_shutdown hinv he hs
    rw [hout, List.append_nil, hs']
    intro i hi
    exact ⟨(h i hi).1, rfl⟩
  · -- no Shutdown was reported yet, so one now is the last
    intro i hi
    have hlt : ¬ i < out.length := fun hlt => by
      rw [List.getElem?_append_left hlt] at hi
      exact hs (h i hi).2
    rw [List.getElem?_append_right (by omega)] at hi
    rcases reports_step ac e with ⟨h₁, -⟩ | ⟨h₁, -⟩
    · rw [h₁] at hi
      simp at hi
    · rw [h₁] at hi ⊢
      have hi0 : i - out.length = 0 := by
        by_contra hne
        rw [List.getElem?_eq_none (by simp; omega)] at hi
        cases hi
      rw [hi0] at hi
      exact ⟨by simp; omega, by simpa using hi⟩

/-- **Shutdown is reported at most once, and nothing after it**: a Shutdown report is the last
report, over every interleaving the environment allows. -/
theorem shutdown_reported_last [DecidableEq α] (addrs : List α) {es : List (event α)}
    (hadm : Admits Allowed step (newAddrConn addrs) es) (i : ℕ)
    (hi : (run step (newAddrConn addrs) es).1[i]? = some .Shutdown) :
    i + 1 = (run step (newAddrConn addrs) es).1.length := by
  have hnil : ShutdownLast [] (newAddrConn addrs).state := fun _ h => by simp at h
  have h := inv_step.outputs (P := fun out ac => ShutdownLast out ac.state)
    (fun _ _ _ hs he hlog => hlog.step hs he) (inv_newAddrConn addrs) hadm hnil
  rw [List.nil_append] at h
  exact (h i hi).1

example : (run step (newAddrConn [0])
    ([.connect, .tearDown, .connect, .tearDown] : List (event ℕ))).1 = [.Connecting, .Shutdown] := by
  decide

/-- **When the state is Ready, `ac.transport` is a transport whose preface was received and whose
`onClose` has not run**, over every interleaving the environment allows. -/
theorem ready_has_live_transport [DecidableEq α] (addrs : List α) {es : List (event α)}
    (hadm : Admits Allowed step (newAddrConn addrs) es)
    (hready : (run step (newAddrConn addrs) es).2.state = .Ready) :
    ∃ tr t, (run step (newAddrConn addrs) es).2.transport = some tr ∧
      (run step (newAddrConn addrs) es).2.transports[tr]? = some t ∧
      t.prefaceReceived = true ∧ t.connClosed = false := by
  have h := inv_step.run (inv_newAddrConn addrs) hadm
  obtain ⟨tr, htr⟩ := Option.ne_none_iff_exists'.mp (h.ready hready)
  obtain ⟨-, -, t, ht, hp, hc, -⟩ := h.live tr htr
  exact ⟨tr, t, htr, ht, hp, hc⟩

example : (run step (newAddrConn [0]) ([.connect, .reset 0, .reset 0, .dialed 0, .prefaceReceipt 0,
    .prefaceCase 0 false] : List (event ℕ))).2.state = .Ready := by
  decide

/-! ## An addrConn left in Connecting -/

/-- Connecting, with no `resetTransport` running, no transport, and no transport whose health
check was started: nothing is left that moves the state. -/
structure Stranded (ac : addrConn α) : Prop where
  connecting : ac.state = .Connecting
  no_reset : ac.resets = []
  no_transport : ac.transport = none
  no_health : ∀ (tr : ℕ) (t : transportInfo), ac.transports[tr]? = some t → t.hcStarted = false

/-- A stranded addrConn keeps no health check through a change of flags that keeps
`hcStarted`. -/
theorem Stranded.modify {ac : addrConn α} (h : Stranded ac) (tr : ℕ)
    (f : transportInfo → transportInfo) (hf : ∀ t, (f t).hcStarted = t.hcStarted) :
    Stranded (modifyTransport ac tr f) := by
  refine ⟨h.connecting, h.no_reset, h.no_transport, fun k t hk => ?_⟩
  simp only [modifyTransport, List.getElem?_modify] at hk
  cases hget : ac.transports[k]? with
  | none => simp [hget] at hk
  | some t₀ =>
    rw [hget] at hk
    have := h.no_health k t₀ hget
    by_cases hkt : tr = k
    · simp only [hkt, ↓reduceIte, Option.map_eq_map, Option.map_some, Option.some.injEq] at hk
      rw [← hk, hf, this]
    · simp only [hkt, ↓reduceIte, Option.map_eq_map, Option.map_some, Option.some.injEq] at hk
      rw [← hk, this]

/-- **No event but `tearDown` moves a stranded addrConn**: it reports nothing and stays
stranded. -/
theorem stranded_step [DecidableEq α] {ac : addrConn α} (h : Stranded ac) {e : event α}
    (he : e ≠ .tearDown) : (step ac e).1 = [] ∧ Stranded (step ac e).2 := by
  have hnone : ∀ i : ℕ, ac.resets[i]? = none := fun i => by rw [h.no_reset]; simp
  cases e with
  | connect =>
    have : connect ac = ([], ac) := by simp [connect, h.connecting]
    rw [show step ac .connect = connect ac from rfl, this]
    exact ⟨rfl, h⟩
  | reset i | dialFailed i | dialed i | connectDeadline i | prefaceCase i _ | connClosedCase i
    | backoffDone i | ctxDone i =>
    simp only [step, hnone, true_and]
    exact h
  | prefaceReceipt tr => exact ⟨rfl, h.modify tr _ fun _ => rfl⟩
  | onClose tr | onGoAway tr =>
    -- no health check was started, so `onClose` only fires `connClosed`
    simp only [step, onGoAway, onClose]
    split
    · exact ⟨rfl, h⟩
    · rename_i t ht
      simp only [h.no_health tr t ht, Bool.not_false, Bool.true_or, ↓reduceIte, true_and]
      exact h.modify tr _ fun _ => rfl
  | setConnectivityState tr s =>
    simp only [step, setConnectivityState, h.no_transport, ne_eq, reduceCtorEq, not_false_eq_true,
      ↓reduceIte, true_and]
    exact h
  | tearDown => exact absurd rfl he
  | tryUpdateAddrs addrs =>
    have : (tryUpdateAddrs ac addrs).2 = ac := by simp [tryUpdateAddrs, h.connecting]
    simp only [step, this, true_and]
    exact h

/-- Over any events but `tearDown`, a stranded addrConn reports nothing and stays Connecting. -/
theorem stranded_run [DecidableEq α] {ac : addrConn α} (h : Stranded ac) {es : List (event α)}
    (hes : ∀ e ∈ es, e ≠ .tearDown) :
    (run step ac es).1 = [] ∧ (run step ac es).2.state = .Connecting := by
  have hinv : Invariant (fun _ e => e ≠ .tearDown) (step (α := α)) Stranded :=
    fun _ _ hs he => (stranded_step hs he).2
  have hadm : Admits (fun _ e => e ≠ .tearDown) (step (α := α)) ac es :=
    admits_of_forall_mem (fun e he _ => hes e he) ac
  have hout := hinv.outputs (P := fun out _ => out = [])
    (fun _ _ _ hs he hout => by rw [hout, (stranded_step hs he).1]; rfl) h hadm rfl
  rw [List.nil_append] at hout
  exact ⟨hout, (hinv.run h hadm).connecting⟩

/-- **An interleaving that leaves the addrConn in Connecting, with nothing to move it on.**  The
transport receives the preface and closes before `createTransport`'s select runs, and the select
takes `connClosed`: `createTransport` returns `nil` since the preface was received, so
`resetTransport` returns as after a success.  The state is still the Connecting that
`resetTransport` reported, and `onClose` has done nothing, since `hcStarted` was not set.  No
`resetTransport` runs, there is no transport, and no event but `tearDown` changes the state. -/
theorem connClosed_after_preface_strands_connecting :
    let es : List (event ℕ) :=
      [.connect, .reset 0, .reset 0, .dialed 0, .prefaceReceipt 0, .onClose 0, .connClosedCase 0]
    Admits Allowed step (newAddrConn [0]) es ∧
      (run step (newAddrConn [0]) es).1 = [.Connecting] ∧
      Stranded (run step (newAddrConn [0]) es).2 ∧
      ∀ es' : List (event ℕ), (∀ e ∈ es', e ≠ .tearDown) →
        (run step (run step (newAddrConn [0]) es).2 es').1 = [] ∧
          (run step (run step (newAddrConn [0]) es).2 es').2.state = .Connecting := by
  intro es
  have hend : (run step (newAddrConn [0]) es).2 =
      ⟨.Connecting, none, [0], none, false, [⟨true, true, false, false, false⟩], []⟩ := by decide
  have hstranded : Stranded (run step (newAddrConn [0]) es).2 := by
    rw [hend]
    refine ⟨rfl, rfl, rfl, fun tr t ht => ?_⟩
    rcases tr with _ | tr
    · cases ht
      rfl
    · cases ht
  exact ⟨by decide, by decide, hstranded, fun _ hes' => stranded_run hstranded hes'⟩

end AddrConn
end GrpcGo
