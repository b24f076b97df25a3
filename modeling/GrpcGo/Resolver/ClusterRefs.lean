import GrpcGo.Lib.GoMap
import GrpcGo.Lib.Machine

/-!
# Cluster references of the xDS resolver (`xds/internal/resolver`)

`xdsResolver.run` (`xds_resolver.go`) turns each service update into a `configSelector`
(`serviceconfig.go`), and keeps in `activeClusters` a `clusterInfo` with a reference count for
each cluster a route names.  `newConfigSelector` takes one reference on each cluster of the
selector it builds, once no further error may occur; `SelectConfig` takes one for the RPC it
routes, which the RPC's `OnCommitted` drops; `configSelector.stop` drops the selector's own.
Before a service config is sent, `pruneActiveClusters` deletes the clusters whose count is zero,
so that the `xds_cluster_manager` config lists the clusters still in use.

The `clusterInfo`s are cells of a heap: a pointer is a number, `refCount` gives each cell its
count, and a new cell takes the next address.  Besides the resolver's own fields the model keeps
what the Go program holds elsewhere: every config selector built, with whether `stop` has run on
it, and every RPC that went through `SelectConfig` with a cluster, with the cell its `OnCommitted`
closure holds and whether its interceptor was built.  A route is reduced to the clusters it names
and whether `RouteToMatcher` accepts it; which route an RPC matches and which cluster the route's
WRR picks is the environment's choice.  `xdsResolver.step` is one turn of `run`'s loop, or a call
into the current selector: `SelectConfig` runs under the ClientConn's lock on its config
selector, which `UpdateState` swaps before `run` stops the previous one, so it always sees
`curConfigSelector`.
-/

namespace GrpcGo
namespace Resolver

open GoStd

/-- A route of the update as `newConfigSelector` reads it: the names of its weighted clusters,
and whether `xdsclient.RouteToMatcher` accepts its matchers. -/
structure updateRoute where
  WeightedClusters : List String
  matcherOk : Bool
  deriving DecidableEq, Repr

/-- A config selector: its `clusters` map from cluster name to the address of the cluster's
`clusterInfo`, and whether `stop` has dropped its references (which the Go value does not
record). -/
structure configSelector where
  clusters : List (String × Nat)
  stopped : Bool
  deriving DecidableEq, Repr

/-- Where an RPC that `SelectConfig` gave a cluster is: holding the reference for its
`OnCommitted`, committed, or failed in `newInterceptor` after the reference was taken. -/
inductive rpcPhase
  | selected
  | committed
  | failed
  deriving DecidableEq, Repr

/-- An RPC that `SelectConfig` gave a cluster: the cluster's name, the address `ref` of its
`clusterInfo`, and the RPC's phase. -/
structure rpcRef where
  cluster : String
  ref : Nat
  phase : rpcPhase
  deriving DecidableEq, Repr

/-- The resolver's `activeClusters` and `curConfigSelector` (the index of a selector built), the
heap of `clusterInfo` counts with its next free address, and the selectors and RPCs so far. -/
structure xdsResolver where
  refCount : Nat → Int
  nextAddr : Nat
  activeClusters : List (String × Nat)
  curConfigSelector : Option Nat
  selectors : List configSelector
  rpcs : List rpcRef

/-- A resolver that has not had an update. -/
def newXdsResolver : xdsResolver := ⟨fun _ => 0, 0, [], none, [], []⟩

/-- What `sendNewServiceConfig` hands to `ClientConn.UpdateState`: the empty config `{}`, or an
`xds_cluster_manager` config with these `children` and the config selector set on the state. -/
inductive serviceConfigUpdate
  | empty
  | clusterManager (children : List String) (configSelector : Option Nat)
  deriving DecidableEq, Repr

/-- The clusters a service config lists. -/
def serviceConfigUpdate.children : serviceConfigUpdate → List String
  | .empty => []
  | .clusterManager children _ => children

/-- What reaches the resolver's goroutine or its current config selector. -/
inductive resolverEvent
  /-- A service update on `updateCh` whose virtual host has these routes. -/
  | serviceUpdate (routes : List updateRoute)
  /-- A watch error of type `ErrorTypeResourceNotFound`. -/
  | resourceNotFound
  /-- Any other watch error, which only goes to `ReportError`. -/
  | watchError
  /-- The `emptyUpdate` that `stop` and `OnCommitted` put on `updateCh` when a count drops to
  zero (or any other time: the send does not block, so a pending one stands for several). -/
  | emptyUpdate
  /-- `SelectConfig` for an RPC whose route's WRR picks `cluster` (`none`: no route matches),
  and whose `newInterceptor` succeeds iff `interceptorOk`. -/
  | selectConfig (cluster : Option String) (interceptorOk : Bool)
  /-- `OnCommitted` of the `k`-th RPC that `SelectConfig` gave a cluster. -/
  | committed (k : Nat)
  deriving DecidableEq, Repr

namespace xdsResolver

/-- `atomic.AddInt32(&ci.refCount, d)` on the cell at address `p`. -/
def addRef (r : xdsResolver) (p : Nat) (d : Int) : xdsResolver :=
  { r with refCount := fun q => r.refCount q + if q = p then d else 0 }

/-- `addRef` on the cell of every entry, as the loops `for _, ci := range cs.clusters` of
`newConfigSelector` (with `1`) and `stop` (with `-1`). -/
def addRefs (r : xdsResolver) (clusters : List (String × Nat)) (d : Int) : xdsResolver :=
  clusters.foldl (fun r e => r.addRef e.2 d) r

/-- `r.activeClusters[cluster]`, with a new `clusterInfo{refCount: 0}` entered at the next address
where there is none. -/
def activeCluster (r : xdsResolver) (cluster : String) : Nat × xdsResolver :=
  match r.activeClusters.lookup cluster with
  | some ci => (ci, r)
  | none =>
    (r.nextAddr, { r with nextAddr := r.nextAddr + 1,
                          activeClusters := Map.insert cluster r.nextAddr r.activeClusters })

/-- The inner loop of `newConfigSelector`, over a route's weighted clusters: each gets its entry
in `cs.clusters`, pointing to its `activeClusters` entry. -/
def addRouteClusters : xdsResolver → List (String × Nat) → List String →
    xdsResolver × List (String × Nat)
  | r, cs, [] => (r, cs)
  | r, cs, cluster :: clusters =>
    addRouteClusters (r.activeCluster cluster).2 (Map.insert cluster (r.activeCluster cluster).1 cs)
      clusters

/-- The loop of `newConfigSelector` over the routes: `none` when `RouteToMatcher` fails on a
route, which returns after that route's clusters have their entries in `activeClusters`. -/
def addRoutes : xdsResolver → List (String × Nat) → List updateRoute →
    xdsResolver × Option (List (String × Nat))
  | r, cs, [] => (r, some cs)
  | r, cs, rt :: rts =>
    let added := addRouteClusters r cs rt.WeightedClusters
    if rt.matcherOk then addRoutes added.1 added.2 rts else (added.1, none)

/-- `newConfigSelector`: the selector's clusters, with a reference on each taken only after the
last error may have returned. -/
def newConfigSelector (r : xdsResolver) (routes : List updateRoute) :
    xdsResolver × Option configSelector :=
  match addRoutes r [] routes with
  | (r, some cs) => (r.addRefs cs 1, some ⟨cs, false⟩)
  | (r, none) => (r, none)

/-- `configSelector.stop` on the selector numbered `i` (`cs == nil` for `none`). -/
def stop (r : xdsResolver) : Option Nat → xdsResolver
  | none => r
  | some i =>
    match r.selectors[i]? with
    | some cs =>
      { r.addRefs cs.clusters (-1) with selectors := r.selectors.set i { cs with stopped := true } }
    | none => r

/-- `pruneActiveClusters`: delete the entries whose count is zero. -/
def pruneActiveClusters (r : xdsResolver) : xdsResolver :=
  { r with activeClusters := r.activeClusters.filter fun e => r.refCount e.2 != 0 }

/-- The service config of `sendNewServiceConfig` for the (pruned) active clusters: `{}` when there
are none and no config selector to send, and otherwise one child for each (`serviceConfigJSON`,
whose `json.Marshal` of these plain values does not fail). -/
def serviceConfig (r : xdsResolver) (cs : Option Nat) : serviceConfigUpdate :=
  if cs.isNone && r.activeClusters.isEmpty then .empty
  else .clusterManager (r.activeClusters.map Prod.fst) cs

/-- `sendNewServiceConfig`: prune, then send the service config with the selector `cs`. -/
def sendNewServiceConfig (r : xdsResolver) (cs : Option Nat) :
    List serviceConfigUpdate × xdsResolver :=
  ([serviceConfig r.pruneActiveClusters cs], r.pruneActiveClusters)

/-- The selector the ClientConn calls `SelectConfig` on. -/
def currentSelector (r : xdsResolver) : Option configSelector :=
  r.curConfigSelector.bind fun i => r.selectors[i]?

/-- `SelectConfig` on the selector `cs` for an RPC whose route picks `cluster`: the reference on
the cluster is taken before `newInterceptor` runs, and kept when it returns an error. -/
def SelectConfig (r : xdsResolver) (cs : Option configSelector) (cluster : Option String)
    (interceptorOk : Bool) : xdsResolver :=
  match cs, cluster with
  | some cs, some c =>
    match cs.clusters.lookup c with
    | some ci =>
      { r.addRef ci 1 with
        rpcs := r.rpcs ++ [⟨c, ci, if interceptorOk then .selected else .failed⟩] }
    | none => r
  | _, _ => r

/-- The `OnCommitted` closure of the `k`-th RPC: drop the reference it holds. -/
def onCommitted (r : xdsResolver) (k : Nat) : xdsResolver :=
  match r.rpcs[k]? with
  | some rpc => { r.addRef rpc.ref (-1) with rpcs := r.rpcs.set k { rpc with phase := .committed } }
  | none => r

/-- One turn of `run`'s loop, or a call into the current config selector. -/
def step (r : xdsResolver) : resolverEvent → List serviceConfigUpdate × xdsResolver
  | .serviceUpdate routes =>
    match r.newConfigSelector routes with
    -- the error goes to `ReportError`, and the current selector stays
    | (r, none) => ([], r)
    | (r, some cs) =>
      let sent := { r with selectors := r.selectors ++ [cs] }.sendNewServiceConfig
        (some r.selectors.length)
      (sent.1, { sent.2.stop sent.2.curConfigSelector with
                 curConfigSelector := some r.selectors.length })
  | .resourceNotFound =>
    let sent := r.sendNewServiceConfig none
    (sent.1, { sent.2.stop sent.2.curConfigSelector with curConfigSelector := none })
  | .watchError => ([], r)
  | .emptyUpdate => r.sendNewServiceConfig r.curConfigSelector
  | .selectConfig cluster interceptorOk =>
    ([], r.SelectConfig r.currentSelector cluster interceptorOk)
  | .committed k => ([], r.onCommitted k)

/-- Whether the `k`-th RPC holds the reference of an `RPCConfig` returned to it, so that the
ClientConn calls its `OnCommitted` (once). -/
def committable (r : xdsResolver) (k : Nat) : Bool :=
  match r.rpcs[k]? with
  | some rpc => rpc.phase == .selected
  | none => false

/-- The events the environment delivers: `OnCommitted` exactly once, for an RPC that got its
config. -/
def Allowed (r : xdsResolver) : resolverEvent → Prop
  | .committed k => r.committable k = true
  | _ => True

instance (r : xdsResolver) : (e : resolverEvent) → Decidable (r.Allowed e)
  | .committed k => inferInstanceAs (Decidable (r.committable k = true))
  | .serviceUpdate _ => isTrue trivial
  | .resourceNotFound => isTrue trivial
  | .watchError => isTrue trivial
  | .emptyUpdate => isTrue trivial
  | .selectConfig _ _ => isTrue trivial

end xdsResolver

end Resolver
end GrpcGo
