import GrpcGo.Balancer.Priority

/-!
# The balancer group (`xds/internal/balancer/balancergroup/balancergroup.go`)

A `BalancerGroup` keeps a sub-balancer for each id its parent added, wrapped in a
`subBalancerWrapper` that remembers the id and the builder and holds the balancer while it is
built.  `Remove` does not close a sub-balancer at once: the wrapper goes into a
`TimeoutCache` (`internal/cache/timeoutCache.go`), whose timer, when it fires, closes the
balancer and removes its SubConns; `Add` of the id before that takes the wrapper back, or, for
another builder, closes it and builds a new one.  `scToSubBalancer` records which wrapper made
each SubConn, so that `UpdateSubConnState` reaches it and `cleanupSubConns` and `Close` can
remove what it made.  The group can be closed and started again: `Close` removes every SubConn
and closes every balancer, `Start` builds the balancers of the ids it still holds.

The model is the machine of the group's state, whose events are its API calls, the cache timer
of an id firing, a sub-balancer calling `NewSubConn` and the ClientConn reporting a SubConn's
state.  A wrapper is a pointer, its place in `wrappers`; a built balancer is the number of the
`Build` that made it, and a SubConn the number the ClientConn gave it.  The outputs are what the
group asks of the ClientConn and of the balancers it builds.  Each locked section of a method
is one step of the model, in the order the method runs them; map iteration takes the order of
the entries.  The item of a cache entry is the wrapper `Remove` put there, whose callback is
always the closure `Remove` passes (`removeCallback`).
-/

namespace GrpcGo

open GoStd
open Priority (connectivityState)

namespace Cache

/-- `TimeoutCache`: the entries that have not timed out, each a key with its item. -/
structure TimeoutCache (κ α : Type) where
  cache : List (κ × α)
  deriving DecidableEq, Repr

namespace TimeoutCache

variable {κ α : Type} [DecidableEq κ]

/-- `Add`: the item stored and whether it is new; an existing entry is kept as it is. -/
def Add (c : TimeoutCache κ α) (key : κ) (item : α) : (α × Bool) × TimeoutCache κ α :=
  match c.cache.lookup key with
  | some e => ((e, false), c)
  | none => ((item, true), ⟨Map.insert key item c.cache⟩)

/-- `Remove`: the entry's item, if there is one, which is then gone and whose callback will not
run.  The timer of an entry, when it fires, deletes it in the same way and runs its callback. -/
def Remove (c : TimeoutCache κ α) (key : κ) : Option α × TimeoutCache κ α :=
  match c.cache.lookup key with
  | some e => (some e, ⟨Map.erase key c.cache⟩)
  | none => (none, c)

/-- `Clear`: all entries are removed; the items, whose callbacks `Clear(true)` then runs. -/
def Clear (c : TimeoutCache κ α) : List α × TimeoutCache κ α :=
  (c.cache.map Prod.snd, ⟨[]⟩)

end TimeoutCache

end Cache

namespace Balancergroup

open Cache

/-- `subBalancerWrapper`, the fields the group reads: the `id`, the builder (by its name) and
`balancer`, the number of the balancer `startBalancer` built, `none` before it and after
`stopBalancer`. -/
structure subBalancerWrapper where
  id : String
  builder : String
  balancer : Option Nat
  deriving DecidableEq, Repr

/-- `BalancerGroup`: the outgoing half (`outgoingStarted`, `idToBalancerConfig`,
`balancerCache`), the incoming half (`incomingStarted`, `scToSubBalancer`), the wrappers by
pointer, and the numbers of the next balancer built and of the next SubConn the ClientConn
creates. -/
structure BalancerGroup where
  outgoingStarted : Bool
  idToBalancerConfig : List (String × Nat)
  balancerCache : TimeoutCache String Nat
  incomingStarted : Bool
  scToSubBalancer : List (Nat × Nat)
  wrappers : List subBalancerWrapper
  nextBalancer : Nat
  nextSubConn : Nat
  deriving DecidableEq, Repr

/-- `New`. -/
def New : BalancerGroup :=
  ⟨false, [], ⟨[]⟩, false, [], [], 0, 0⟩

/-- What the group asks of the balancers it builds and of the ClientConn. -/
inductive output
  /-- `builder.Build` made balancer `b`. -/
  | build (b : Nat)
  /-- `b.Close()`. -/
  | close (b : Nat)
  /-- `cc.NewSubConn`, called for balancer `b`, created SubConn `sc`. -/
  | newSubConn (b sc : Nat)
  /-- `cc.RemoveSubConn(sc)`. -/
  | removeSubConn (sc : Nat)
  /-- `b.UpdateSubConnState(sc, state)`. -/
  | updateSubConnState (b sc : Nat) (s : connectivityState)
  deriving DecidableEq, Repr

namespace BalancerGroup

/-- The balancer of wrapper `p`, if it is built. -/
def balancerOf (g : BalancerGroup) (p : Nat) : Option Nat :=
  (g.wrappers[p]?).bind (·.balancer)

/-- The builder of wrapper `p`. -/
def builderOf (g : BalancerGroup) (p : Nat) : Option String :=
  (g.wrappers[p]?).map (·.builder)

/-- The wrapper `p` with its balancer set to `v`. -/
def setBalancer (g : BalancerGroup) (p : Nat) (v : Option Nat) : BalancerGroup :=
  { g with wrappers := g.wrappers.modify p fun w => { w with balancer := v } }

/-- `sbc.startBalancer()`: the builder builds a new balancer. -/
def startBalancer (g : BalancerGroup) (p : Nat) : List output × BalancerGroup :=
  ([.build g.nextBalancer],
    { g.setBalancer p (some g.nextBalancer) with nextBalancer := g.nextBalancer + 1 })

/-- `sbc.stopBalancer()`: the balancer is closed and cleared.  (Go dereferences the balancer
here; the group only stops a wrapper whose balancer is built.) -/
def stopBalancer (g : BalancerGroup) (p : Nat) : List output × BalancerGroup :=
  ((g.balancerOf p).toList.map output.close, g.setBalancer p none)

/-- `cleanupSubConns`: every SubConn of the wrapper is removed. -/
def cleanupSubConns (g : BalancerGroup) (p : Nat) : List output × BalancerGroup :=
  ((g.scToSubBalancer.filter (·.2 = p)).map (output.removeSubConn ·.1),
    { g with scToSubBalancer := g.scToSubBalancer.filter (·.2 ≠ p) })

/-- The callback `Remove` gives the cache: the balancer is closed if the group is started, and
its SubConns are removed. -/
def removeCallback (g : BalancerGroup) (p : Nat) : List output × BalancerGroup :=
  let stopped := if g.outgoingStarted then g.stopBalancer p else ([], g)
  let cleaned := stopped.2.cleanupSubConns p
  (stopped.1 ++ cleaned.1, cleaned.2)

/-- `Start`: the incoming half is started, then, if the outgoing half is not, the balancer of
every id is built. -/
def Start (g : BalancerGroup) : List output × BalancerGroup :=
  let g := { g with incomingStarted := true }
  if g.outgoingStarted then ([], g)
  else
    let started := Machine.run startBalancer g (g.idToBalancerConfig.map Prod.snd)
    (started.1, { started.2 with outgoingStarted := true })

/-- The cache half of `Add`: a started group takes the id's wrapper out of the cache, to reuse it
if its builder is `builder`, and otherwise closes its balancer and removes its SubConns.  The
wrapper to reuse, if any, the outputs and the state. -/
def reuseCached (g : BalancerGroup) (id builder : String) :
    Option Nat × List output × BalancerGroup :=
  if g.outgoingStarted then
    match g.balancerCache.Remove id with
    | (some old, cache) =>
      let g := { g with balancerCache := cache }
      if g.builderOf old ≠ some builder then
        -- the SubConns go before a new balancer can make any
        let stopped := g.stopBalancer old
        let cleaned := stopped.2.cleanupSubConns old
        (none, stopped.1 ++ cleaned.1, cleaned.2)
      else (some old, [], g)
    | (none, _) => (none, [], g)
  -- the cache of a group that is not started is empty
  else (none, [], g)

/-- A new wrapper for `id`, started if the group is: its pointer, the outputs and the state. -/
def newWrapper (g : BalancerGroup) (id builder : String) : Nat × List output × BalancerGroup :=
  let p := g.wrappers.length
  let g := { g with wrappers := g.wrappers ++ [(⟨id, builder, none⟩ : subBalancerWrapper)] }
  (p, if g.outgoingStarted then g.startBalancer p else ([], g))

/-- `Add`: the wrapper taken back from the cache, or a new one, becomes the id's. -/
def Add (g : BalancerGroup) (id builder : String) : List output × BalancerGroup :=
  let found := g.reuseCached id builder
  let sbc : Nat × List output × BalancerGroup :=
    match found.1 with
    | none => found.2.2.newWrapper id builder
    -- a wrapper back from the cache resends its cached picker, which the model leaves out
    | some old => (old, [], found.2.2)
  (found.2.1 ++ sbc.2.1,
    { sbc.2.2 with idToBalancerConfig := Map.insert id sbc.1 sbc.2.2.idToBalancerConfig })

/-- `Remove`: a started group puts the id's wrapper in the cache; the id leaves the group. -/
def Remove (g : BalancerGroup) (id : String) : List output × BalancerGroup :=
  match g.idToBalancerConfig.lookup id with
  | some sbToRemove =>
    let cache := if g.outgoingStarted then (g.balancerCache.Add id sbToRemove).2
      else g.balancerCache
    ([], { g with balancerCache := cache, idToBalancerConfig := Map.erase id g.idToBalancerConfig })
  -- a missing id is only logged
  | none => ([], g)

/-- The timer of the cache entry of `id` fires: the entry is deleted and its callback runs. -/
def timerFired (g : BalancerGroup) (id : String) : List output × BalancerGroup :=
  match g.balancerCache.Remove id with
  | (some p, cache) => { g with balancerCache := cache }.removeCallback p
  | (none, _) => ([], g)

/-- `UpdateSubConnState`: the state goes to the wrapper that made the SubConn, which hands it to
its balancer if it is built; a SubConn that is shut down leaves the map. -/
def UpdateSubConnState (g : BalancerGroup) (sc : Nat) (state : connectivityState) :
    List output × BalancerGroup :=
  match g.scToSubBalancer.lookup sc with
  | none => ([], g)
  | some config =>
    let g := if state = .Shutdown then
      { g with scToSubBalancer := Map.erase sc g.scToSubBalancer } else g
    ((g.balancerOf config).toList.map (output.updateSubConnState · sc state), g)

/-- `newSubConn`, called by the balancer of wrapper `config`: the ClientConn creates a SubConn
(unless it fails, `ok = false`), which is recorded as the wrapper's.  A closed group refuses. -/
def newSubConn (g : BalancerGroup) (config : Nat) (ok : Bool) : List output × BalancerGroup :=
  if !g.incomingStarted then ([], g)
  else if !ok then ([], g)
  else
    let sc := g.nextSubConn
    ((g.balancerOf config).toList.map (output.newSubConn · sc),
      { g with scToSubBalancer := Map.insert sc config g.scToSubBalancer, nextSubConn := sc + 1 })

/-- `Close`: the incoming half removes every SubConn, the cache is cleared with its callbacks
run, and the outgoing half closes the balancer of every id. -/
def Close (g : BalancerGroup) : List output × BalancerGroup :=
  let removed := if g.incomingStarted then
      (g.scToSubBalancer.map (output.removeSubConn ·.1),
        { g with incomingStarted := false, scToSubBalancer := [] })
    else ([], g)
  let entries := removed.2.balancerCache.Clear
  let cleared := Machine.run removeCallback { removed.2 with balancerCache := entries.2 } entries.1
  let stopped := if cleared.2.outgoingStarted then
      let s := Machine.run stopBalancer cleared.2 (cleared.2.idToBalancerConfig.map Prod.snd)
      (s.1, { s.2 with outgoingStarted := false })
    else ([], cleared.2)
  (removed.1 ++ cleared.1 ++ stopped.1, stopped.2)

end BalancerGroup

/-- The events of a balancer group. -/
inductive groupEvent
  | Start
  | Add (id builder : String)
  | Remove (id : String)
  /-- The cache timer of `id` fires. -/
  | timeout (id : String)
  | Close
  /-- The balancer of wrapper `config` calls `NewSubConn`; `ok` is whether the ClientConn
  creates the SubConn. -/
  | newSubConn (config : Nat) (ok : Bool)
  | UpdateSubConnState (sc : Nat) (state : connectivityState)
  deriving DecidableEq, Repr

namespace BalancerGroup

/-- One event. -/
def step (g : BalancerGroup) : groupEvent → List output × BalancerGroup
  | .Start => g.Start
  | .Add id builder => g.Add id builder
  | .Remove id => g.Remove id
  | .timeout id => g.timerFired id
  | .Close => g.Close
  | .newSubConn config ok => g.newSubConn config ok
  | .UpdateSubConnState sc state => g.UpdateSubConnState sc state

/-- The events that can come: a timer fires only for an entry in the cache, and only a built
balancer calls `NewSubConn` (one that is closed and still does would leak its SubConns, as
`cleanupSubConns` notes). -/
def Allowed (g : BalancerGroup) : groupEvent → Prop
  | .timeout id => id ∈ g.balancerCache.cache.map Prod.fst
  | .newSubConn config _ => (g.balancerOf config).isSome
  | _ => True

instance (g : BalancerGroup) : (e : groupEvent) → Decidable (g.Allowed e)
  | .timeout id => inferInstanceAs (Decidable (id ∈ g.balancerCache.cache.map Prod.fst))
  | .newSubConn config _ => inferInstanceAs (Decidable ((g.balancerOf config).isSome = true))
  | .Start => isTrue trivial
  | .Add _ _ => isTrue trivial
  | .Remove _ => isTrue trivial
  | .Close => isTrue trivial
  | .UpdateSubConnState _ _ => isTrue trivial

/-- What the group's parents keep to: `Add` only of an id the group does not hold. -/
def AddsNew (g : BalancerGroup) : groupEvent → Prop
  | .Add id _ => id ∉ g.idToBalancerConfig.map Prod.fst
  | _ => True

instance (g : BalancerGroup) : (e : groupEvent) → Decidable (g.AddsNew e)
  | .Add id _ => inferInstanceAs (Decidable (id ∉ g.idToBalancerConfig.map Prod.fst))
  | .Start => isTrue trivial
  | .Remove _ => isTrue trivial
  | .timeout _ => isTrue trivial
  | .Close => isTrue trivial
  | .newSubConn _ _ => isTrue trivial
  | .UpdateSubConnState _ _ => isTrue trivial

end BalancerGroup

end Balancergroup
end GrpcGo
