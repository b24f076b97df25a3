import GrpcGo.Lib.GoMap
import GrpcGo.Lib.Machine

/-!
# The priority balancer (`xds/internal/balancer/priority`)

`priorityBalancer` keeps a child balancer for each name of its config and uses one of them,
`childInUse` at `priorityInUse`: the first of the priorities that is new, Ready, Idle or the
last (`syncPriority`, after each config), or the next one when the one in use fails or does not
connect before its init timer fires.  `switchToChild` stops the children after the new one,
starts it if it was not started (with an init timer), and returns early when it is already the
child in use.

The model is the machine of the balancer's state, whose events are a config
(`UpdateClientConnState`), a state a child reports (`handleChildStateUpdate`, as `run` takes it
from the buffer), an init timer firing, and `Close`.  Its outputs are what it does outside: the
states and pickers it sends to the ClientConn, and the children it adds to, removes from and
updates in the balancer group.  A timer is the number it was made with and the priority its
callback captured; `stopPriorityInitTimer` sets `stopped`, which the model reads as clearing
`priorityInitTimer`, the only place a running timer is kept.  A config's child is its name and
the name of its balancing policy (which `parseConfig` has checked to be registered, so
`balancer.Get` finds it); the config and addresses a child is sent are left out, and
`sendUpdate` is an output.
-/

namespace GrpcGo
namespace Priority

open GoStd

/-- `connectivity.State`. -/
inductive connectivityState
  | Idle
  | Connecting
  | Ready
  | TransientFailure
  | Shutdown
  deriving DecidableEq, Repr

/-- A picker, by where it comes from: an error picker, or the `n`-th picker a child sent. -/
inductive picker
  | errNoSubConnAvailable
  | errAllPrioritiesRemoved
  | fromChild (n : Nat)
  deriving DecidableEq, Repr

/-- `balancer.State`. -/
structure balancerState where
  ConnectivityState : connectivityState
  Picker : picker
  deriving DecidableEq, Repr

/-- The state a child starts and restarts in: Connecting, with a picker that asks to re-pick. -/
def connectingState : balancerState := ⟨.Connecting, .errNoSubConnAvailable⟩

/-- `childBalancer`: its policy's name, whether it is started, and the state it last reported. -/
structure childBalancer where
  bb : String
  started : Bool
  state : balancerState
  deriving DecidableEq, Repr

/-- A running init timer: its number, and the priority its callback captured. -/
structure initTimer where
  id : Nat
  priority : Nat
  deriving DecidableEq, Repr

/-- `priorityBalancer`. -/
structure priorityBalancer where
  childInUse : String
  priorityInUse : Nat
  priorities : List String
  childToPriority : List (String × Nat)
  children : List (String × childBalancer)
  priorityInitTimer : Option initTimer
  nextTimer : Nat
  done : Bool
  deriving DecidableEq, Repr

/-- `bb.Build`. -/
def newPriorityBalancer : priorityBalancer :=
  ⟨"", 0, [], [], [], none, 0, false⟩

/-- `LBConfig`: each child's name with its policy's name, and the priorities. -/
structure LBConfig where
  Children : List (String × String)
  Priorities : List String
  deriving DecidableEq, Repr

/-- What the balancer does outside. -/
inductive output
  /-- `b.cc.UpdateState`. -/
  | ccUpdateState (s : balancerState)
  /-- `bg.Add`, from `childBalancer.start`. -/
  | bgAdd (name : String)
  /-- `bg.Remove`, from `childBalancer.stop`. -/
  | bgRemove (name : String)
  /-- `childBalancer.sendUpdate`. -/
  | sendUpdate (name : String)
  /-- `bg.Close`. -/
  | bgClose
  deriving DecidableEq, Repr

namespace priorityBalancer

/-- The child of a name. -/
def getChild (b : priorityBalancer) (name : String) : Option childBalancer :=
  b.children.lookup name

/-- The state the child of a name last reported. -/
def childState (b : priorityBalancer) (name : String) : balancerState :=
  ((b.getChild name).map (·.state)).getD connectingState

/-- A change to the child of a name, if there is one. -/
def updateChild (b : priorityBalancer) (name : String) (f : childBalancer → childBalancer) :
    priorityBalancer :=
  match b.getChild name with
  | none => b
  | some cb => { b with children := Map.insert name (f cb) b.children }

/-- `childBalancer.start`. -/
def startChild (b : priorityBalancer) (name : String) : List output × priorityBalancer :=
  match b.getChild name with
  | some cb =>
    if cb.started then ([], b) else ([.bgAdd name], b.updateChild name ({ · with started := true }))
  | none => ([], b)

/-- `childBalancer.stop`: a started child is removed from the group and its state reset. -/
def stopChild (b : priorityBalancer) (name : String) : List output × priorityBalancer :=
  match b.getChild name with
  | some cb =>
    if cb.started then
      ([.bgRemove name], b.updateChild name ({ · with started := false, state := connectingState }))
    else ([], b)
  | none => ([], b)

/-- `childBalancer.stop` on each name in turn. -/
def stopChildren (b : priorityBalancer) : List String → List output × priorityBalancer
  | [] => ([], b)
  | name :: rest =>
    let r := b.stopChild name
    let r' := r.2.stopChildren rest
    (r.1 ++ r'.1, r'.2)

/-- `stopPriorityInitTimer`. -/
def stopPriorityInitTimer (b : priorityBalancer) : priorityBalancer :=
  { b with priorityInitTimer := none }

/-- `stopSubBalancersLowerThanPriority`: stop the children at the priorities after `p`. -/
def stopSubBalancersLowerThanPriority (b : priorityBalancer) (p : Nat) :
    List output × priorityBalancer :=
  b.stopChildren (b.priorities.drop (p + 1))

/-- `switchToChild`. -/
def switchToChild (b : priorityBalancer) (name : String) (priority : Nat) :
    List output × priorityBalancer :=
  -- the children after `priority` are stopped even when this child is already in use
  let r := b.stopSubBalancersLowerThanPriority priority
  let b := r.2
  match b.getChild name with
  | none => (r.1, b)
  | some child =>
    -- already in use: nothing else, not even `priorityInUse`
    if b.childInUse = name ∧ child.started = true then (r.1, b)
    else
      let b := { b with childInUse := name, priorityInUse := priority }.stopPriorityInitTimer
      if child.started then (r.1, b)
      else
        let s := b.startChild name
        (r.1 ++ s.1, { s.2 with priorityInitTimer := some ⟨s.2.nextTimer, priority⟩,
                                nextTimer := s.2.nextTimer + 1 })

/-- The loop of `syncPriority` from priority `p`: switch to the first child that is not started,
is Ready or Idle, or is the last, and send it its update. -/
def syncPriorityLoop (b : priorityBalancer) : Nat → List String → List output × priorityBalancer
  | _, [] => ([], b)
  | p, name :: rest =>
    match b.getChild name with
    | none => b.syncPriorityLoop (p + 1) rest
    | some child =>
      if !child.started || child.state.ConnectivityState == .Ready ||
          child.state.ConnectivityState == .Idle || p == b.priorities.length - 1 then
        -- the ClientConn drops the old picker at once
        let out := if b.childInUse ≠ "" ∧ b.childInUse ≠ name then [output.ccUpdateState child.state]
          else []
        let r := b.switchToChild name p
        (out ++ r.1 ++ [.sendUpdate name], r.2)
      else b.syncPriorityLoop (p + 1) rest

/-- `syncPriority`. -/
def syncPriority (b : priorityBalancer) : List output × priorityBalancer :=
  if b.priorities = [] then
    ([.ccUpdateState ⟨.TransientFailure, .errAllPrioritiesRemoved⟩],
      { b with childInUse := "", priorityInUse := 0 }.stopPriorityInitTimer)
  else b.syncPriorityLoop 0 b.priorities

/-- One child of the config, in the first loop of `UpdateClientConnState`: a new name gets a
child that is not started; a child whose policy changes is stopped and takes the new one. -/
def addChild (b : priorityBalancer) (name bbName : String) : List output × priorityBalancer :=
  match b.getChild name with
  | none => ([], { b with children := Map.insert name ⟨bbName, false, connectingState⟩ b.children })
  | some currentChild =>
    if currentChild.bb ≠ bbName then
      let s := b.stopChild name
      (s.1, s.2.updateChild name ({ · with bb := bbName }))
    else ([], b)

/-- The first loop of `UpdateClientConnState`. -/
def addChildren (b : priorityBalancer) : List (String × String) → List output × priorityBalancer
  | [] => ([], b)
  | (name, bbName) :: rest =>
    let r := b.addChild name bbName
    let r' := r.2.addChildren rest
    (r.1 ++ r'.1, r'.2)

/-- The priorities of a config, and `childToPriority` built from them. -/
def setPriorities (b : priorityBalancer) (priorities : List String) : priorityBalancer :=
  { b with
    priorities := priorities
    childToPriority := priorities.zipIdx.foldl
      (fun (m : List (String × Nat)) (e : String × Nat) => Map.insert e.1 e.2 m) [] }

/-- `UpdateClientConnState`: add and stop children, take the new priorities, and sync. -/
def UpdateClientConnState (b : priorityBalancer) (newConfig : LBConfig) :
    List output × priorityBalancer :=
  let added := b.addChildren newConfig.Children
  -- the children not in the config are stopped, and stay in `children`
  let removed := added.2.stopChildren
    ((added.2.children.map Prod.fst).filter fun name => name ∉ newConfig.Children.map Prod.fst)
  let synced := (removed.2.setPriorities newConfig.Priorities).syncPriority
  (added.1 ++ removed.1 ++ synced.1, synced.2)

/-- The failover of a TransientFailure, or of Ready to Connecting, at `priority`: the next
priority, if any, is switched to and its state forwarded; else this child's state is. -/
def switchToNext (b : priorityBalancer) (name : String) (priority : Nat) :
    List output × priorityBalancer :=
  match b.priorities[priority + 1]? with
  | none => ([.ccUpdateState (b.childState name)], b)
  | some nameNext =>
    let r := b.switchToChild nameNext (priority + 1)
    (r.1 ++ [.ccUpdateState (r.2.childState nameNext), .sendUpdate nameNext], r.2)

/-- `handlePriorityWithNewStateReady`. -/
def handlePriorityWithNewStateReady (b : priorityBalancer) (name : String) (priority : Nat) :
    List output × priorityBalancer :=
  let b := b.stopPriorityInitTimer
  let r := if priority < b.priorityInUse then b.switchToChild name priority else ([], b)
  (r.1 ++ [.ccUpdateState (r.2.childState name)], r.2)

/-- `handlePriorityWithNewStateTransientFailure`. -/
def handlePriorityWithNewStateTransientFailure (b : priorityBalancer) (name : String)
    (priority : Nat) : List output × priorityBalancer :=
  -- "from a higher priority": nothing
  if priority < b.priorityInUse then ([], b)
  else b.stopPriorityInitTimer.switchToNext name priority

/-- `handlePriorityWithNewStateConnecting`. -/
def handlePriorityWithNewStateConnecting (b : priorityBalancer) (name : String) (priority : Nat)
    (oldState : connectivityState) : List output × priorityBalancer :=
  if priority < b.priorityInUse then ([], b)
  else
    match oldState with
    -- out of Ready: as a failure, but the init timer is left as it is
    | .Ready => b.switchToNext name priority
    | .Idle => ([.ccUpdateState (b.childState name)], b)
    | _ => ([], b)

/-- `handleChildStateUpdate`. -/
def handleChildStateUpdate (b : priorityBalancer) (childName : String) (s : balancerState) :
    List output × priorityBalancer :=
  if b.done then ([], b)
  else
    match b.childToPriority.lookup childName with
    | none => ([], b)
    | some priority =>
      if b.childInUse = "" then ([], b)
      -- an update from a priority after the one in use
      else if b.priorityInUse < priority then ([], b)
      else
        match b.getChild childName with
        | none => ([], b)
        | some child =>
          let oldState := child.state.ConnectivityState
          let b := b.updateChild childName ({ · with state := s })
          match s.ConnectivityState with
          | .Ready | .Idle => b.handlePriorityWithNewStateReady childName priority
          | .TransientFailure => b.handlePriorityWithNewStateTransientFailure childName priority
          | .Connecting => b.handlePriorityWithNewStateConnecting childName priority oldState
          | .Shutdown => ([], b)

/-- The callback of the init timer numbered `id`: unless it was stopped, the timer is cleared and
the priority after the one it captured, if any, is switched to. -/
def initTimerFired (b : priorityBalancer) (id : Nat) : List output × priorityBalancer :=
  match b.priorityInitTimer with
  | some timer =>
    if timer.id = id then
      let b := { b with priorityInitTimer := none }
      match b.priorities[timer.priority + 1]? with
      | some nameNext =>
        match b.getChild nameNext with
        | some _ =>
          let r := b.switchToChild nameNext (timer.priority + 1)
          (r.1 ++ [.sendUpdate nameNext], r.2)
        | none => ([], b)
      | none => ([], b)
    else ([], b)
  | none => ([], b)

/-- `Close`. -/
def Close (b : priorityBalancer) : List output × priorityBalancer :=
  ([.bgClose], { b with done := true, childInUse := "" }.stopPriorityInitTimer)

end priorityBalancer

/-- What the balancer is given to handle. -/
inductive priorityEvent
  | updateClientConnState (config : LBConfig)
  | childStateUpdate (name : String) (s : balancerState)
  | initTimeout (id : Nat)
  | close
  deriving DecidableEq, Repr

/-- What `parseConfig` accepts: every priority has a child, and every child a priority. -/
def LBConfig.Valid (config : LBConfig) : Prop :=
  (∀ name ∈ config.Priorities, name ∈ config.Children.map Prod.fst) ∧
    ∀ name ∈ config.Children.map Prod.fst, name ∈ config.Priorities

instance (config : LBConfig) : Decidable config.Valid :=
  inferInstanceAs (Decidable (_ ∧ _))

namespace priorityBalancer

/-- One event. -/
def step (b : priorityBalancer) : priorityEvent → List output × priorityBalancer
  | .updateClientConnState config => b.UpdateClientConnState config
  | .childStateUpdate name s => b.handleChildStateUpdate name s
  | .initTimeout id => b.initTimerFired id
  | .close => b.Close

/-- The configs the balancer is given are ones `parseConfig` accepts. -/
def Allowed (_ : priorityBalancer) : priorityEvent → Prop
  | .updateClientConnState config => config.Valid
  | _ => True

instance (b : priorityBalancer) : (e : priorityEvent) → Decidable (b.Allowed e)
  | .updateClientConnState config => inferInstanceAs (Decidable config.Valid)
  | .childStateUpdate _ _ => isTrue trivial
  | .initTimeout _ => isTrue trivial
  | .close => isTrue trivial

end priorityBalancer

end Priority
end GrpcGo
