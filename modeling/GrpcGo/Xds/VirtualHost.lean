import GrpcGo.Lib.ExceptBind
import GrpcGo.Lib.GoStrings

/-!
# Virtual host selection (`xds/internal/xdsclient/matcher.go`, `filter_chain.go`)

`FindBestMatchingVirtualHost` picks, for the client, the virtual host with the best matching
domain: a better match type (Exact > Suffix > Prefix > Universal), then a longer domain, the
first one on a tie; an invalid domain makes the whole route configuration unusable.
`FindBestMatchingVirtualHostServer` is the same double loop over the virtual hosts the server
built with `ConstructUsableRouteConfiguration`.

Two details of the server side are modelled as the source has them.  The server loop stores
`&vh`, the address of its range variable; the module declares Go 1.14, where one variable serves
every iteration, so after the loop the pointer reads the last virtual host of the slice whatever
matched.  `ConstructUsableRouteConfiguration` makes its slice with a length and then appends, so
the converted virtual hosts follow as many empty ones.

Routes are kept abstract: `R` is a route of the update and `RI` a route with its interceptors;
`convertRoute` is the body of the route loop of `convertVirtualHost` (`RouteToMatcher` and the
HTTP filters, with their overrides from the route and then the virtual host).
-/

namespace GrpcGo
namespace XdsClient

open GoStd

/-! ## Domains -/

/-- `domainMatchType`, in the order of its values. -/
inductive domainMatchType
  | domainMatchTypeInvalid
  | domainMatchTypeUniversal
  | domainMatchTypePrefix
  | domainMatchTypeSuffix
  | domainMatchTypeExact
  deriving DecidableEq, Repr

/-- The value of a `domainMatchType` (`iota`). -/
def domainMatchType.toNat : domainMatchType → Nat
  | .domainMatchTypeInvalid => 0
  | .domainMatchTypeUniversal => 1
  | .domainMatchTypePrefix => 2
  | .domainMatchTypeSuffix => 3
  | .domainMatchTypeExact => 4

/-- `t.betterThan(b)`: Exact > Suffix > Prefix > Universal > Invalid. -/
def domainMatchType.betterThan (t b : domainMatchType) : Bool :=
  decide (t.toNat > b.toNat)

/-- `matchTypeForDomain(d)`. -/
def matchTypeForDomain (d : String) : domainMatchType :=
  if d = "" then .domainMatchTypeInvalid
  else if d = "*" then .domainMatchTypeUniversal
  else if Strings.hasPrefix d "*" then .domainMatchTypeSuffix
  else if Strings.hasSuffix d "*" then .domainMatchTypePrefix
  else if Strings.contains d "*" then .domainMatchTypeInvalid
  else .domainMatchTypeExact

/-- `match(domain, host)` (`match` is a keyword of Lean). -/
def domainMatch (domain host : String) : domainMatchType × Bool :=
  match matchTypeForDomain domain with
  | .domainMatchTypeInvalid => (.domainMatchTypeInvalid, false)
  | .domainMatchTypeUniversal => (.domainMatchTypeUniversal, true)
  | .domainMatchTypePrefix =>
    (.domainMatchTypePrefix, Strings.hasPrefix host (Strings.trimSuffix domain "*"))
  | .domainMatchTypeSuffix =>
    (.domainMatchTypeSuffix, Strings.hasSuffix host (Strings.trimPrefix domain "*"))
  | .domainMatchTypeExact => (.domainMatchTypeExact, domain == host)

/-! ## The selection loop -/

/-- The variables of the selection loop: what `matchVh` points at, the match type and the
length in bytes of the best domain so far. -/
structure vhSearch (P : Type) where
  matchVh : Option P
  matchType : domainMatchType
  matchLen : Nat
  deriving DecidableEq, Repr

/-- The variables before the loop. -/
def vhSearch.init {P : Type} : vhSearch P := ⟨none, .domainMatchTypeInvalid, 0⟩

/-- One domain of the loop, for a virtual host that `matchVh = p` would point at; `none` is the
`return nil` of an invalid domain. -/
def vhSearch.step {P : Type} (host : String) (p : P) (st : vhSearch P) (domain : String) :
    Option (vhSearch P) :=
  let (typ, matched) := domainMatch domain host
  if typ = .domainMatchTypeInvalid then none
  else if st.matchType.betterThan typ ||
      (st.matchType == typ && st.matchLen ≥ domain.utf8ByteSize) || !matched then some st
  else some ⟨some p, typ, domain.utf8ByteSize⟩

/-- The double loop over the virtual hosts and their domains; `store vh` is what `matchVh` is
set to for a better match in `vh`. -/
def findBestLoop {V P : Type} (host : String) (domains : V → List String) (store : V → P)
    (vHosts : List V) : Option (vhSearch P) :=
  vHosts.foldlM (fun st vh => (domains vh).foldlM (vhSearch.step host (store vh)) st) vhSearch.init

/-- A client virtual host: its domains and routes. -/
structure VirtualHost (R : Type) where
  Domains : List String
  Routes : List R
  deriving DecidableEq, Repr

/-- A server virtual host: its domains and routes with their interceptors. -/
structure VirtualHostWithInterceptors (RI : Type) where
  Domains : List String
  Routes : List RI
  deriving DecidableEq, Repr

/-- The virtual hosts of a `RouteConfigUpdate`. -/
structure RouteConfigUpdate (R : Type) where
  VirtualHosts : List (VirtualHost R)
  deriving DecidableEq, Repr

/-- `FindBestMatchingVirtualHost(host, vHosts)`: `matchVh = vh` keeps the element. -/
def FindBestMatchingVirtualHost {R : Type} (host : String) (vHosts : List (VirtualHost R)) :
    Option (VirtualHost R) :=
  match findBestLoop host VirtualHost.Domains id vHosts with
  | none => none
  | some st => st.matchVh

/-- `FindBestMatchingVirtualHostServer(authority, vHosts)`: `matchVh = &vh` keeps the address
of the range variable, one for the whole loop, which reads the last virtual host afterwards. -/
def FindBestMatchingVirtualHostServer {RI : Type} (authority : String)
    (vHosts : List (VirtualHostWithInterceptors RI)) : Option (VirtualHostWithInterceptors RI) :=
  match findBestLoop authority VirtualHostWithInterceptors.Domains (fun _ => ()) vHosts with
  | none => none
  | some st => st.matchVh.bind fun _ => vHosts.getLast?

/-! ## Building the server's virtual hosts -/

section Construct

variable {R RI : Type} (convertRoute : VirtualHost R → R → Except String RI)

/-- `f.convertVirtualHost(virtualHost)`. -/
def convertVirtualHost (virtualHost : VirtualHost R) :
    Except String (VirtualHostWithInterceptors RI) := do
  let rs ← virtualHost.Routes.mapM (convertRoute virtualHost)
  pure ⟨virtualHost.Domains, rs⟩

/-- `f.ConstructUsableRouteConfiguration(config)`: `make` with the length gives that many empty
virtual hosts, and each converted one is appended after them. -/
def ConstructUsableRouteConfiguration (config : RouteConfigUpdate R) :
    Except String (List (VirtualHostWithInterceptors RI)) :=
  config.VirtualHosts.foldlM (fun vhs vh => do
      let vhwi ← (convertVirtualHost convertRoute vh).mapError
        fun err => "virtual host construction: " ++ err
      pure (vhs ++ [vhwi]))
    (List.replicate config.VirtualHosts.length ⟨[], []⟩)

end Construct

/-! ## The server loop reads the last virtual host -/

namespace vhSearch

variable {P Q : Type}

/-- The loop variables with what `matchVh` points at renamed by `g`. -/
def mapPtr (g : P → Q) (st : vhSearch P) : vhSearch Q :=
  ⟨st.matchVh.map g, st.matchType, st.matchLen⟩

/-- A step does not look at what `matchVh` points at. -/
theorem step_mapPtr (g : P → Q) (host : String) (p : P) (st : vhSearch P) (domain : String) :
    step host (g p) (st.mapPtr g) domain = (step host p st domain).map (mapPtr g) := by
  unfold step mapPtr
  dsimp only
  split_ifs <;> rfl

theorem foldlM_step_mapPtr (g : P → Q) (host : String) (p : P) :
    ∀ (domains : List String) (st : vhSearch P),
      domains.foldlM (step host (g p)) (st.mapPtr g) =
        (domains.foldlM (step host p) st).map (mapPtr g)
  | [], st => rfl
  | d :: ds, st => by
    rw [List.foldlM_cons, List.foldlM_cons, step_mapPtr]
    cases step host p st d with
    | none => rfl
    | some st' => exact foldlM_step_mapPtr g host p ds st'

end vhSearch

section Loop

variable {V W P Q : Type} (host : String)

/-- Virtual hosts without domains leave the loop variables as they are. -/
theorem foldlM_hosts_of_domains_nil (domains : V → List String) (store : V → P) :
    ∀ (vs : List V) (st : vhSearch P), (∀ v ∈ vs, domains v = []) →
      vs.foldlM (fun st vh => (domains vh).foldlM (vhSearch.step host (store vh)) st) st = some st
  | [], _, _ => rfl
  | v :: vs, st, h => by
    rw [List.foldlM_cons, h v List.mem_cons_self, List.foldlM_nil]
    exact foldlM_hosts_of_domains_nil domains store vs st
      (fun v' hv' => h v' (List.mem_cons_of_mem _ hv'))

/-- Two lists of virtual hosts related one by one, with the same domains, run the same loop up
to what `matchVh` points at. -/
theorem foldlM_hosts_forall₂ {rel : V → W → Prop} {domains : V → List String}
    {domains' : W → List String} (store : V → P) (store' : W → Q) (g : P → Q)
    (hdom : ∀ v w, rel v w → domains' w = domains v)
    (hstore : ∀ v w, rel v w → store' w = g (store v)) :
    ∀ {vs : List V} {ws : List W}, List.Forall₂ rel vs ws → ∀ st : vhSearch P,
      ws.foldlM (fun st vh => (domains' vh).foldlM (vhSearch.step host (store' vh)) st)
          (st.mapPtr g) =
        (vs.foldlM (fun st vh => (domains vh).foldlM (vhSearch.step host (store vh)) st) st).map
          (vhSearch.mapPtr g)
  | [], [], .nil, _ => rfl
  | v :: vs, w :: ws, .cons hvw hrest, st => by
    rw [List.foldlM_cons, List.foldlM_cons, hdom v w hvw, hstore v w hvw,
      vhSearch.foldlM_step_mapPtr]
    cases (domains v).foldlM (vhSearch.step host (store v)) st with
    | none => rfl
    | some st' => exact foldlM_hosts_forall₂ store store' g hdom hstore hrest st'

end Loop

section Construct

variable {R RI : Type} (convertRoute : VirtualHost R → R → Except String RI)

theorem convertVirtualHost_Domains {vh : VirtualHost R} {cv : VirtualHostWithInterceptors RI}
    (h : convertVirtualHost convertRoute vh = .ok cv) : cv.Domains = vh.Domains := by
  unfold convertVirtualHost at h
  rw [Except.bind_eq_ok_iff] at h
  obtain ⟨rs, -, h⟩ := h
  rw [Except.pure_eq_ok, Except.ok.injEq] at h
  rw [← h]

/-- **What `ConstructUsableRouteConfiguration` builds**: as many empty virtual hosts as the
update has, followed by the conversion of each. -/
theorem ConstructUsableRouteConfiguration_eq_ok {config : RouteConfigUpdate R}
    {vhs : List (VirtualHostWithInterceptors RI)}
    (h : ConstructUsableRouteConfiguration convertRoute config = .ok vhs) :
    ∃ cvs, List.Forall₂ (fun vh cv => convertVirtualHost convertRoute vh = .ok cv)
        config.VirtualHosts cvs ∧
      vhs = List.replicate config.VirtualHosts.length ⟨[], []⟩ ++ cvs := by
  obtain ⟨cvs, hmap, rfl⟩ := (Except.foldlM_append_eq_ok _ _ _).mp h
  refine ⟨cvs, ?_, rfl⟩
  exact (Except.forall₂_of_mapM_eq_ok hmap).imp fun _ _ hcv => Except.mapError_eq_ok_iff.mp hcv

/-- **The server selection on the server's virtual hosts**: it finds a virtual host exactly when
the client selection on the update does, and then reads the last virtual host of the slice. -/
theorem FindBestMatchingVirtualHostServer_construct {config : RouteConfigUpdate R}
    {vhs : List (VirtualHostWithInterceptors RI)}
    (h : ConstructUsableRouteConfiguration convertRoute config = .ok vhs) (authority : String) :
    FindBestMatchingVirtualHostServer authority vhs =
      (FindBestMatchingVirtualHost authority config.VirtualHosts).bind fun _ => vhs.getLast? := by
  obtain ⟨cvs, hcvs, hvhs⟩ := ConstructUsableRouteConfiguration_eq_ok convertRoute h
  -- the empty virtual hosts have no domain to match
  have hempty := foldlM_hosts_of_domains_nil authority VirtualHostWithInterceptors.Domains
    (fun _ => ()) (List.replicate config.VirtualHosts.length (⟨[], []⟩ : VirtualHostWithInterceptors RI))
    vhSearch.init
    (fun v hv => by rw [List.eq_of_mem_replicate hv])
  -- the converted ones run the client's loop, with the address of `vh` for each element
  have hsim := foldlM_hosts_forall₂ authority id (fun _ => ()) (fun _ => ())
    (fun _ _ hcv => convertVirtualHost_Domains convertRoute hcv) (fun _ _ _ => rfl) hcvs
    vhSearch.init
  have hloop : findBestLoop authority VirtualHostWithInterceptors.Domains (fun _ => ()) vhs =
      (findBestLoop authority VirtualHost.Domains id config.VirtualHosts).map
        (vhSearch.mapPtr fun _ => ()) := by
    unfold findBestLoop
    rw [hvhs, List.foldlM_append, hempty]
    exact hsim
  unfold FindBestMatchingVirtualHostServer FindBestMatchingVirtualHost
  rw [hloop]
  cases findBestLoop authority VirtualHost.Domains id config.VirtualHosts with
  | none => rfl
  | some st =>
    -- `matchVh` is set in both loops or in neither
    rcases st with ⟨_ | vh, typ, len⟩ <;> rfl

/-- The server finds a virtual host exactly when the client does. -/
theorem FindBestMatchingVirtualHostServer_isSome {config : RouteConfigUpdate R}
    {vhs : List (VirtualHostWithInterceptors RI)}
    (h : ConstructUsableRouteConfiguration convertRoute config = .ok vhs) (authority : String) :
    (FindBestMatchingVirtualHostServer authority vhs).isSome =
      (FindBestMatchingVirtualHost authority config.VirtualHosts).isSome := by
  rw [FindBestMatchingVirtualHostServer_construct convertRoute h]
  cases hc : FindBestMatchingVirtualHost authority config.VirtualHosts with
  | none => rfl
  | some vh =>
    -- a match needs a virtual host, and each one puts two in the slice
    have hne : config.VirtualHosts ≠ [] := by
      intro hnil
      rw [hnil] at hc
      cases hc
    obtain ⟨cvs, -, rfl⟩ := ConstructUsableRouteConfiguration_eq_ok convertRoute h
    have hpos : 0 < config.VirtualHosts.length := List.length_pos_iff.mpr hne
    rw [Option.bind_some, Option.isSome_some, List.getLast?_isSome]
    intro hnil
    have hlen := congrArg List.length hnil
    rw [List.length_append, List.length_replicate, List.length_nil] at hlen
    omega

end Construct

/-- An update with a virtual host for `foo.com` with route 1, then one for `bar.com` with
route 2. -/
def twoHostsUpdate : RouteConfigUpdate Nat :=
  ⟨[⟨["foo.com"], [1]⟩, ⟨["bar.com"], [2]⟩]⟩

theorem FindBestMatchingVirtualHostServer_reads_last :
    FindBestMatchingVirtualHost "foo.com" twoHostsUpdate.VirtualHosts = some ⟨["foo.com"], [1]⟩ ∧
      (ConstructUsableRouteConfiguration (fun _ r => (.ok r : Except String Nat))
          twoHostsUpdate).map
        (fun vhs => (vhs.length, FindBestMatchingVirtualHostServer "foo.com" vhs)) =
        .ok (4, some ⟨["bar.com"], [2]⟩) := by
  decide

end XdsClient
end GrpcGo
