import GrpcGo.Lib.GoMap
import GrpcGo.Lib.GoSlice
import GrpcGo.Lib.GoStrings

/-!
# The cluster_resolver config builder (`xds/internal/balancer/clusterresolver/configbuilder.go`)

`buildPriorityConfig` turns the discovery mechanisms of a cluster, each with its EDS update or
its DNS addresses, into the config of a `priority` balancer and the addresses for it.  Each EDS
mechanism gives one child for each EDS priority that has a locality of non-zero weight
(`groupLocalitiesByPriority`, in ascending order without repeats), named
`priority-<mechanism>-<priority>`; each DNS mechanism gives one child `priority-<mechanism>`.
Every address carries a hierarchical path (`internal/hierarchy`): the child's name, then the
locality's string for EDS, which `hierarchy.Group` in the `priority` and `weighted_target`
balancers reads to hand each address to its child.

The drop rates of the cluster_impl configs are `uint32` arithmetic (`dropConfig`): a drop whose
denominator is zero, which `parseDropPolicy` makes of an unknown enum value, makes the builder
panic.  `LocalityID.ToString`, the JSON encoding of a locality ID, is a parameter of the model
(`localityString`).  The cluster_impl fields that are copied from the mechanism unread, and the
ring_hash config passed through from `xdsLBPolicy`, are left out.
-/

namespace GrpcGo

/-- `internal.LocalityID`. -/
structure LocalityID where
  Region : String
  Zone : String
  SubZone : String
  deriving DecidableEq, Repr

namespace Hierarchy

/-- A `resolver.Address` as the config builder and the balancers under it see it: the address,
the hierarchical path in its balancer attributes (`nil` when unset), and the locality ID and the
`weightedroundrobin.AddrInfo` weight set on it. -/
structure Address where
  Addr : String
  path : List String
  localityID : Option LocalityID
  addrInfoWeight : Option UInt32
  deriving DecidableEq, Repr

/-- `hierarchy.Get`. -/
def Get (addr : Address) : List String := addr.path

/-- `hierarchy.Set`. -/
def Set (addr : Address) (path : List String) : Address := { addr with path := path }

/-- One address of `hierarchy.Group`'s loop: an address with no path is dropped, any other goes
to the child its path starts with, the rest of the path kept. -/
def groupAddress (ret : List (String × List Address)) (addr : Address) :
    List (String × List Address) :=
  match Get addr with
  | [] => ret
  | curPath :: newPath =>
    GoStd.Map.insert curPath ((ret.lookup curPath).getD [] ++ [Set addr newPath]) ret

/-- `hierarchy.Group`: the addresses by the first element of their path. -/
def Group (addrs : List Address) : List (String × List Address) :=
  addrs.foldl groupAddress []

end Hierarchy

namespace ClusterResolver

open GoStd Hierarchy

/-- `xdsclient.EndpointHealthStatus`. -/
inductive EndpointHealthStatus
  | Unknown
  | Healthy
  | Unhealthy
  | Draining
  | Timeout
  | Degraded
  deriving DecidableEq, Repr

/-- `xdsclient.Endpoint`. -/
structure Endpoint where
  Address : String
  HealthStatus : EndpointHealthStatus
  Weight : UInt32
  deriving DecidableEq, Repr

/-- `xdsclient.Locality`. -/
structure Locality where
  Endpoints : List Endpoint
  ID : LocalityID
  Priority : UInt32
  Weight : UInt32
  deriving DecidableEq, Repr

/-- `xdsclient.OverloadDropConfig`. -/
structure OverloadDropConfig where
  Category : String
  Numerator : UInt32
  Denominator : UInt32
  deriving DecidableEq, Repr

/-- `xdsclient.EndpointsUpdate`. -/
structure EndpointsUpdate where
  Drops : List OverloadDropConfig
  Localities : List Locality
  deriving DecidableEq, Repr

/-- `DiscoveryMechanismType`. -/
inductive DiscoveryMechanismType
  | EDS
  | LogicalDNS
  deriving DecidableEq, Repr

/-- The fields of `DiscoveryMechanism` the builder reads. -/
structure DiscoveryMechanism where
  Cluster : String
  «Type» : DiscoveryMechanismType
  deriving DecidableEq, Repr

/-- `priorityConfig`: a mechanism, with its EDS update (for EDS) or its addresses (for DNS). -/
structure priorityConfig where
  mechanism : DiscoveryMechanism
  edsResp : EndpointsUpdate
  addresses : List String
  deriving DecidableEq, Repr

/-- `clusterimpl.DropConfig`. -/
structure DropConfig where
  Category : String
  RequestsPerMillion : UInt32
  deriving DecidableEq, Repr

/-- The `xdsLBPolicy` balancer config, by its name. -/
structure BalancerConfig where
  Name : String
  deriving DecidableEq, Repr

/-- The child policy of a cluster_impl config: `weighted_target` with its targets (locality
string and weight; each target's child is `round_robin`), `ring_hash`, or `pick_first`. -/
inductive childPolicy
  | weightedTarget (targets : List (String × UInt32))
  | ringHash
  | pickFirst
  deriving DecidableEq, Repr

/-- The fields of `clusterimpl.LBConfig` the builder computes. -/
structure clusterImplConfig where
  Cluster : String
  DropCategories : List DropConfig
  ChildPolicy : childPolicy
  deriving DecidableEq, Repr

/-- `priority.Child`. -/
structure priorityChild where
  Config : clusterImplConfig
  IgnoreReresolutionRequests : Bool
  deriving DecidableEq, Repr

/-- `priority.LBConfig`. -/
structure priorityLBConfig where
  Children : List (String × priorityChild)
  Priorities : List String
  deriving DecidableEq, Repr

/-- `million`. -/
def million : UInt32 := 1000000

/-- `roundrobin.Name`. -/
def rrName : String := "round_robin"

/-- `ringhash.Name`. -/
def rhName : String := "ring_hash_experimental"

/-- The health statuses an address is built for: healthy and unknown. -/
def isHealthy (e : Endpoint) : Bool :=
  e.HealthStatus == .Healthy || e.HealthStatus == .Unknown

/-- `dedupSortedIntSlice`: the loop keeps in `a[i]` the last value kept, and moves each `a[j]`
that differs from it to the next place. -/
def dedupLoop (last : Nat) : List Nat → List Nat
  | [] => []
  | x :: xs => if last = x then dedupLoop last xs else x :: dedupLoop x xs

/-- `dedupSortedIntSlice`. -/
def dedupSortedIntSlice : List Nat → List Nat
  | [] => []
  | a :: rest => a :: dedupLoop a rest

/-- The loop of `groupLocalitiesByPriority`: the localities by the string of their priority, and
the priorities as numbers, skipping the localities of weight zero. -/
def groupLocalitiesLoop :
    List Locality → List (String × List Locality) × List Nat →
      List (String × List Locality) × List Nat
  | [], acc => acc
  | locality :: rest, (priorities, priorityIntSlice) =>
    if locality.Weight = 0 then groupLocalitiesLoop rest (priorities, priorityIntSlice)
    else
      let priorityName := toString locality.Priority.toNat
      groupLocalitiesLoop rest
        (Map.insert priorityName ((priorities.lookup priorityName).getD [] ++ [locality])
          priorities, priorityIntSlice ++ [locality.Priority.toNat])

/-- `groupLocalitiesByPriority`: the priority names in order (sorted with `sort.Ints`, without
repeats), and the localities of each. -/
def groupLocalitiesByPriority (localities : List Locality) :
    List String × List (String × List Locality) :=
  let grouped := groupLocalitiesLoop localities ([], [])
  ((dedupSortedIntSlice grouped.2.mergeSort).map toString, grouped.1)

section Builder

variable (localityString : LocalityID → String)

/-- One locality of `localitiesToWeightedTarget`'s loop: its target, and an address for each
healthy endpoint with path `[priorityName, localityStr]`; the child is `round_robin`, so no
`AddrInfo` is set. -/
def addLocalityTarget (priorityName : String) (acc : List (String × UInt32) × List Address)
    (locality : Locality) : List (String × UInt32) × List Address :=
  let localityStr := localityString locality.ID
  (Map.insert localityStr locality.Weight acc.1,
    acc.2 ++ (locality.Endpoints.filter isHealthy).map fun endpoint =>
      ⟨endpoint.Address, [priorityName, localityStr], some locality.ID, none⟩)

/-- `localitiesToWeightedTarget`, with `round_robin` children. -/
def localitiesToWeightedTarget (localities : List Locality) (priorityName : String) :
    List (String × UInt32) × List Address :=
  localities.foldl (addLocalityTarget localityString priorityName) ([], [])

/-- `localitiesToRingHash`: an address for each healthy endpoint, weighted
`locality_weight * endpoint_weight` (each 1 when zero) in `uint32`. -/
def localitiesToRingHash (localities : List Locality) (priorityName : String) : List Address :=
  localities.flatMap fun locality =>
    let lw : UInt32 := if locality.Weight ≠ 0 then locality.Weight else 1
    let localityStr := localityString locality.ID
    (locality.Endpoints.filter isHealthy).map fun endpoint =>
      let ew : UInt32 := if endpoint.Weight ≠ 0 then endpoint.Weight else 1
      ⟨endpoint.Address, [priorityName, localityStr], some locality.ID, some (lw * ew)⟩

/-- `priorityLocalitiesToClusterImpl`. -/
def priorityLocalitiesToClusterImpl (localities : List Locality) (priorityName : String)
    (mechanism : DiscoveryMechanism) (drops : List DropConfig)
    (xdsLBPolicy : Option BalancerConfig) : Except String (clusterImplConfig × List Address) :=
  let weightedTarget :=
    let wt := localitiesToWeightedTarget localityString localities priorityName
    Except.ok (⟨mechanism.Cluster, drops, .weightedTarget wt.1⟩, wt.2)
  match xdsLBPolicy with
  | none => weightedTarget
  | some policy =>
    if policy.Name = rrName then weightedTarget
    else if policy.Name = rhName then
      .ok (⟨mechanism.Cluster, drops, .ringHash⟩,
        localitiesToRingHash localityString localities priorityName)
    else
      .error ("unsupported xds LB policy " ++ Strconv.quote policy.Name ++ ", not one of \x7b" ++
        Strconv.quote rrName ++ "," ++ Strconv.quote rhName ++ "\x7d")

/-- The loop of `buildClusterImplConfigForEDS` over the priority names: the child names, configs
and addresses so far. -/
def edsPriorityLoop (parentPriority : Nat) (priorities : List (String × List Locality))
    (mechanism : DiscoveryMechanism) (drops : List DropConfig)
    (xdsLBPolicy : Option BalancerConfig) :
    List String → List String × List (String × clusterImplConfig) × List Address →
      Except String (List String × List (String × clusterImplConfig) × List Address)
  | [], acc => .ok acc
  | priorityName :: rest, (retNames, retConfigs, retAddrs) =>
    let pName := "priority-" ++ toString parentPriority ++ "-" ++ priorityName
    match priorityLocalitiesToClusterImpl localityString ((priorities.lookup priorityName).getD [])
        pName mechanism drops xdsLBPolicy with
    | .error err => .error err
    | .ok (cfg, addrs) =>
      edsPriorityLoop parentPriority priorities mechanism drops xdsLBPolicy rest
        (retNames ++ [pName], Map.insert pName cfg retConfigs, retAddrs ++ addrs)

/-- The `DropConfig` that `buildClusterImplConfigForEDS` makes of a drop: the rate
`d.Numerator * million / d.Denominator` is `uint32` arithmetic, where the product wraps and a
zero denominator panics. -/
def dropConfig (d : OverloadDropConfig) : Except Failure DropConfig :=
  (fun rpm => ⟨d.Category, rpm⟩) <$> divU32 (d.Numerator * million) d.Denominator

/-- `buildClusterImplConfigForEDS`. -/
def buildClusterImplConfigForEDS (parentPriority : Nat) (edsResp : EndpointsUpdate)
    (mechanism : DiscoveryMechanism) (xdsLBPolicy : Option BalancerConfig) :
    Except Failure (List String × List (String × clusterImplConfig) × List Address) := do
  let drops ← edsResp.Drops.mapM dropConfig
  let grouped := groupLocalitiesByPriority edsResp.Localities
  (edsPriorityLoop localityString parentPriority grouped.2 mechanism drops xdsLBPolicy grouped.1
    ([], [], [])).mapError .error

/-- `buildClusterImplConfigForDNS`: one child, `pick_first`, its addresses with path
`[pName]`. -/
def buildClusterImplConfigForDNS (parentPriority : Nat) (addrStrs : List String) :
    String × clusterImplConfig × List Address :=
  let pName := "priority-" ++ toString parentPriority
  (pName, ⟨"", [], .pickFirst⟩, addrStrs.map fun addrStr => ⟨addrStr, [pName], none, none⟩)

/-- The loop of `buildPriorityConfig` over the mechanisms, numbered from `i`. -/
def buildPriorityLoop (xdsLBPolicy : Option BalancerConfig) :
    List priorityConfig → Nat → priorityLBConfig × List Address →
      Except Failure (priorityLBConfig × List Address)
  | [], _, acc => .ok acc
  | p :: ps, i, (retConfig, retAddrs) =>
    match p.mechanism.«Type» with
    | .EDS =>
      match buildClusterImplConfigForEDS localityString i p.edsResp p.mechanism xdsLBPolicy with
      | .error err => .error err
      | .ok (names, configs, addrs) =>
        -- EDS children ignore re-resolution requests
        buildPriorityLoop xdsLBPolicy ps (i + 1)
          (⟨configs.foldl (fun children c => Map.insert c.1 ⟨c.2, true⟩ children)
              retConfig.Children, retConfig.Priorities ++ names⟩, retAddrs ++ addrs)
    | .LogicalDNS =>
      let dns := buildClusterImplConfigForDNS i p.addresses
      buildPriorityLoop xdsLBPolicy ps (i + 1)
        (⟨Map.insert dns.1 ⟨dns.2.1, false⟩ retConfig.Children, retConfig.Priorities ++ [dns.1]⟩,
          retAddrs ++ dns.2.2)

/-- `buildPriorityConfig`. -/
def buildPriorityConfig (priorities : List priorityConfig) (xdsLBPolicy : Option BalancerConfig) :
    Except Failure (priorityLBConfig × List Address) :=
  buildPriorityLoop localityString xdsLBPolicy priorities 0 (⟨[], []⟩, [])

end Builder

end ClusterResolver
end GrpcGo
