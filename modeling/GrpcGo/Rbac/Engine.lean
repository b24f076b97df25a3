import GrpcGo.Xds.Matcher
import GrpcGo.Lib.GoNet
import GrpcGo.Status
import GrpcGo.Lib.ExceptBind

/-!
# The RBAC engine (`internal/xds/rbac`)

The v3 RBAC protos, their compilation into a tree of matchers (`matchersFromPermissions`,
`matchersFromPrincipals`, the leaf constructors), the evaluation of that tree on the data of one
RPC, and the chain of ALLOW/DENY engines that `IsAuthorized` walks.

Compilation can fail in two ways, which `Failure` keeps apart: a returned Go error, and a
run-time panic (a nil message whose field is read, or `mList[0]` on an empty list).  A Go map
(`RBAC.policies`, `engine.policies`) is the list of its entries in one iteration order.

`newRPCData`, which pulls the data of an RPC out of its context, is not modelled: the engine's
functions are stated over every `RPCData`.
-/

namespace GrpcGo
namespace Rbac

open GoStd GoStd.Net XdsMatcher

/-! ## Protos -/

/-- A `core.v3.CidrRange`; `prefixLen` is `none` for a nil `UInt32Value` wrapper. -/
structure CidrRange where
  addressPrefix : String
  prefixLen : Option UInt32
  deriving DecidableEq, Repr

/-- The `header_match_specifier` oneof of a route `HeaderMatcher`.  `safeRegexMatch` holds the
`regex` of its `RegexMatcher` and `rangeMatch` the `start` and `end` of its `Int64Range`, `none`
for a nil message; `other` is an unset oneof or a variant gRPC does not know. -/
inductive HeaderMatchSpecifier where
  | exactMatch (exact : String)
  | safeRegexMatch (regex : Option String)
  | rangeMatch (range : Option (Int × Int))
  | presentMatch (present : Bool)
  | prefixMatch (pfx : String)
  | suffixMatch (sfx : String)
  | containsMatch (contains : String)
  | other
  deriving DecidableEq, Repr

/-- A route `HeaderMatcher` proto. -/
structure HeaderMatcherProto where
  name : String
  invertMatch : Bool
  specifier : HeaderMatchSpecifier
  deriving DecidableEq, Repr

/-- A v3 RBAC `Permission`, by its `rule` oneof.  `unset` is an empty oneof, and also stands for
a nil `Permission`: both are dropped in a list and make a `not_rule` panic. -/
inductive Permission where
  | andRules (rules : List Permission)
  | orRules (rules : List Permission)
  | any
  | header (header : HeaderMatcherProto)
  | urlPath (path : Option StringMatcherProto)
  | destinationIp (range : CidrRange)
  | destinationPort (port : UInt32)
  | metadata
  | notRule (rule : Permission)
  | requestedServerName
  | unset
  deriving Repr

/-- A v3 RBAC `Principal`, by its `identifier` oneof (`unset` as for `Permission`). -/
inductive Principal where
  | andIds (ids : List Principal)
  | orIds (ids : List Principal)
  | any
  | authenticated (principalName : Option StringMatcherProto)
  | sourceIp (range : CidrRange)
  | directRemoteIp (range : CidrRange)
  | remoteIp (range : CidrRange)
  | header (header : HeaderMatcherProto)
  | urlPath (path : Option StringMatcherProto)
  | metadata
  | notId (id : Principal)
  | unset
  deriving Repr

/-- A v3 RBAC `Policy`. -/
structure Policy where
  permissions : List Permission
  principals : List Principal
  deriving Repr

/-- The `Action` of an RBAC config. -/
inductive RBACAction where
  | allow | deny | log
  deriving DecidableEq, Repr

/-- A v3 `RBAC` config: its action and its map of named policies. -/
structure RBAC where
  action : RBACAction
  policies : List (String × Policy)
  deriving Repr

/-! ## Data of an RPC -/

/-- What the engine reads of the peer's leaf certificate: its URI SANs (each as `URL.String()`),
its DNS SANs and its subject (as `Name.String()`). -/
structure Certificate where
  uris : List String
  dnsNames : List String
  subject : String
  deriving DecidableEq, Repr

/-- `rpcData`; `peerAddr` and `localAddr` are the `String()` of the two `net.Addr`s. -/
structure RPCData where
  md : MD
  peerAddr : String
  fullMethod : String
  destinationPort : UInt32
  localAddr : String
  authType : String
  certs : List Certificate
  deriving DecidableEq, Repr

/-! ## Matchers -/

/-- The matcher tree: one constructor per Go type implementing `matcher`. -/
inductive Matcher (R : Type) where
  | andMatcher (matchers : List (Matcher R))
  | orMatcher (matchers : List (Matcher R))
  | alwaysMatcher
  | notMatcher (matcherToNot : Matcher R)
  | headerMatcher (matcher : HeaderMatcher R)
  | urlPathMatcher (stringMatcher : StringMatcher R)
  | remoteIPMatcher (ipNet : IPNet)
  | localIPMatcher (ipNet : IPNet)
  | portMatcher (destinationPort : UInt32)
  | authenticatedMatcher (stringMatcher : Option (StringMatcher R))

variable (E : Regexp.Engine)

/-- `authenticatedMatcher.match`: a TLS peer, then any name if no matcher is set; otherwise the
empty string without a certificate, and the leaf certificate's URI SANs, DNS SANs and subject,
in that order. -/
def authenticatedMatch (sm : Option (StringMatcher E.Expr)) (data : RPCData) : Bool :=
  if data.authType ≠ "tls" then false
  else
    match sm with
    | none => true
    | some sm =>
      match data.certs with
      | [] => sm.Match E ""
      | cert :: _ =>
        cert.uris.any (sm.Match E) || cert.dnsNames.any (sm.Match E) || sm.Match E cert.subject

mutual
/-- `match(data)` of each matcher. -/
def Matcher.match : Matcher E.Expr → RPCData → Bool
  | .andMatcher ms, data => Matcher.matchAll ms data
  | .orMatcher ms, data => Matcher.matchAny ms data
  | .alwaysMatcher, _ => true
  | .notMatcher m, data => !m.match data
  | .headerMatcher hm, data => hm.Match E data.md
  | .urlPathMatcher sm, data => sm.Match E data.fullMethod
  | .remoteIPMatcher n, data => n.Contains ((ParseIP data.peerAddr).getD [])
  | .localIPMatcher n, data => n.Contains ((ParseIP data.localAddr).getD [])
  | .portMatcher p, data => data.destinationPort == p
  | .authenticatedMatcher sm, data => authenticatedMatch E sm data

/-- The loop of `andMatcher.match`: false at the first child that does not match. -/
def Matcher.matchAll : List (Matcher E.Expr) → RPCData → Bool
  | [], _ => true
  | m :: ms, data => m.match data && Matcher.matchAll ms data

/-- The loop of `orMatcher.match`: true at the first child that matches. -/
def Matcher.matchAny : List (Matcher E.Expr) → RPCData → Bool
  | [], _ => false
  | m :: ms, data => m.match data || Matcher.matchAny ms data
end

/-! ## Compilation -/

/-- How compiling a config can fail: a returned error, or a run-time panic. -/
inductive Failure where
  | error (msg : String)
  | panic (what : String)
  deriving DecidableEq, Repr

/-- `newHeaderMatcher(headerMatcherConfig)`. -/
def newHeaderMatcher (h : HeaderMatcherProto) : Except Failure (HeaderMatcher E.Expr) :=
  match h.specifier with
  | .exactMatch e => .ok (.exact h.name e h.invertMatch)
  | .safeRegexMatch none => .error (.panic "nil pointer dereference: GetSafeRegexMatch().Regex")
  | .safeRegexMatch (some r) =>
    match E.compile r with
    | .ok re => .ok (.regex h.name re h.invertMatch)
    | .error msg => .error (.error msg)
  | .rangeMatch none => .error (.panic "nil pointer dereference: GetRangeMatch().Start")
  | .rangeMatch (some (start, stop)) => .ok (.range h.name start stop h.invertMatch)
  | .presentMatch p => .ok (NewHeaderPresentMatcher h.name p h.invertMatch)
  | .prefixMatch p => .ok (.pfx h.name p h.invertMatch)
  | .suffixMatch p => .ok (.sfx h.name p h.invertMatch)
  | .containsMatch p => .ok (.contains h.name p h.invertMatch)
  | .other => .error (.error "unknown header matcher type")

/-- `newURLPathMatcher(pathMatcher)`, from `pathMatcher.GetPath()`. -/
def newURLPathMatcher (path : Option StringMatcherProto) : Except Failure (StringMatcher E.Expr) :=
  (StringMatcherFromProto E path).mapError .error

/-- The network of a CIDR range, shared by `newRemoteIPMatcher` and `newLocalIPMatcher`: the
range is printed as `"%s/%d"` and parsed back by `net.ParseCIDR`. -/
def cidrRangeNet (r : CidrRange) : Except Failure IPNet :=
  match r.prefixLen with
  | none => .error (.panic "nil pointer dereference: PrefixLen.Value")
  | some len =>
    let text := r.addressPrefix ++ "/" ++ toString len.toNat
    match ParseCIDR text with
    | some (_, n) => .ok n
    | none => .error (.error ("invalid CIDR address: " ++ text))

/-- `newRemoteIPMatcher(cidrRange)`. -/
def newRemoteIPMatcher (r : CidrRange) : Except Failure (Matcher E.Expr) :=
  (cidrRangeNet r).map .remoteIPMatcher

/-- `newLocalIPMatcher(cidrRange)`. -/
def newLocalIPMatcher (r : CidrRange) : Except Failure (Matcher E.Expr) :=
  (cidrRangeNet r).map .localIPMatcher

/-- `newAuthenticatedMatcher(authenticatedMatcherConfig)`: no principal name matches every
authenticated peer. -/
def newAuthenticatedMatcher (principalName : Option StringMatcherProto) :
    Except Failure (Matcher E.Expr) :=
  match principalName with
  | none => .ok (.authenticatedMatcher none)
  | some p => ((StringMatcherFromProto E (some p)).mapError .error).map (.authenticatedMatcher ∘ some)

/-- The `mList[0]` of a `not_rule` or `not_id`: a panic when the inner rule compiled to nothing. -/
def firstMatcher : List (Matcher E.Expr) → Except Failure (Matcher E.Expr)
  | m :: _ => .ok m
  | [] => .error (.panic "index out of range [0] with length 0")

mutual
/-- `matchersFromPermissions(permissions)`: the matchers of a list of permissions, in order, with
the unsupported ones dropped; the first failure wins. -/
def matchersFromPermissions : List Permission → Except Failure (List (Matcher E.Expr))
  | [] => .ok []
  | p :: ps => do
    let m ← matcherFromPermission p
    let ms ← matchersFromPermissions ps
    pure (m.toList ++ ms)

/-- One case of the switch of `matchersFromPermissions`; `none` for a no-op. -/
def matcherFromPermission : Permission → Except Failure (Option (Matcher E.Expr))
  | .andRules rs => do return some (.andMatcher (← matchersFromPermissions rs))
  | .orRules rs => do return some (.orMatcher (← matchersFromPermissions rs))
  | .any => .ok (some .alwaysMatcher)
  | .header h => do return some (.headerMatcher (← newHeaderMatcher E h))
  | .urlPath p => do return some (.urlPathMatcher (← newURLPathMatcher E p))
  | .destinationIp r => do return some (← newLocalIPMatcher E r)
  | .destinationPort p => .ok (some (.portMatcher p))
  | .notRule r => do
    -- `matchersFromPermissions([]*Permission{{Rule: ..}})` on the one inner rule, written through
    -- `matcherFromPermission` (see `matchersFromPermissions_singleton`).
    let mList := (← matcherFromPermission r).toList
    return some (.notMatcher (← firstMatcher E mList))
  | .metadata => .ok none
  | .requestedServerName => .ok none
  | .unset => .ok none
end

mutual
/-- `matchersFromPrincipals(principals)`. -/
def matchersFromPrincipals : List Principal → Except Failure (List (Matcher E.Expr))
  | [] => .ok []
  | p :: ps => do
    let m ← matcherFromPrincipal p
    let ms ← matchersFromPrincipals ps
    pure (m.toList ++ ms)

/-- One case of the switch of `matchersFromPrincipals`; `none` for a no-op. -/
def matcherFromPrincipal : Principal → Except Failure (Option (Matcher E.Expr))
  | .andIds ps => do return some (.andMatcher (← matchersFromPrincipals ps))
  | .orIds ps => do return some (.orMatcher (← matchersFromPrincipals ps))
  | .any => .ok (some .alwaysMatcher)
  | .authenticated pn => do return some (← newAuthenticatedMatcher E pn)
  | .directRemoteIp r => do return some (← newRemoteIPMatcher E r)
  | .header h => do return some (.headerMatcher (← newHeaderMatcher E h))
  | .urlPath p => do return some (.urlPathMatcher (← newURLPathMatcher E p))
  | .notId p => do
    let mList := (← matcherFromPrincipal p).toList
    return some (.notMatcher (← firstMatcher E mList))
  -- The deprecated `source_ip` is a no-op; `remote_ip` is treated as `direct_remote_ip`.
  | .sourceIp _ => .ok none
  | .remoteIp r => do return some (← newRemoteIPMatcher E r)
  | .metadata => .ok none
  | .unset => .ok none
end

/-- The list `[r]` that a `not_rule` compiles is the inner rule's own matcher, if any. -/
theorem matchersFromPermissions_singleton (r : Permission) :
    matchersFromPermissions E [r] = (matcherFromPermission E r).map Option.toList := by
  rcases h : matcherFromPermission E r with e | m <;> simp [matchersFromPermissions, h]

/-- The list `[p]` that a `not_id` compiles is the inner principal's own matcher, if any. -/
theorem matchersFromPrincipals_singleton (p : Principal) :
    matchersFromPrincipals E [p] = (matcherFromPrincipal E p).map Option.toList := by
  rcases h : matcherFromPrincipal E p with e | m <;> simp [matchersFromPrincipals, h]

/-- `policyMatcher`: an `orMatcher` over the permissions and one over the principals. -/
structure PolicyMatcher (R : Type) where
  permissions : List (Matcher R)
  principals : List (Matcher R)

/-- `policyMatcher.match`: some permission and some principal match. -/
def PolicyMatcher.match (pm : PolicyMatcher E.Expr) (data : RPCData) : Bool :=
  Matcher.matchAny E pm.permissions data && Matcher.matchAny E pm.principals data

/-- `newPolicyMatcher(policy)`. -/
def newPolicyMatcher (policy : Policy) : Except Failure (PolicyMatcher E.Expr) := do
  let permissions ← matchersFromPermissions E policy.permissions
  let principals ← matchersFromPrincipals E policy.principals
  pure ⟨permissions, principals⟩

/-! ## Engines -/

/-- An `engine`: its policies in one iteration order, and an action that is ALLOW or DENY. -/
structure Engine (R : Type) where
  policies : List (String × PolicyMatcher R)
  action : RBACAction
  action_ne_log : action ≠ .log

/-- The policy loop of `newEngine`: compile each policy of the map, in iteration order. -/
def compilePolicies : List (String × Policy) → Except Failure (List (String × PolicyMatcher E.Expr))
  | [] => .ok []
  | (name, policy) :: rest => do
    let m ← newPolicyMatcher E policy
    let ms ← compilePolicies rest
    pure ((name, m) :: ms)

/-- `newEngine(config)`: rejects an action other than ALLOW and DENY, then compiles the
policies. -/
def newEngine (config : RBAC) : Except Failure (Engine E.Expr) :=
  if h : config.action = .log then .error (.error "unsupported action LOG")
  else (compilePolicies E config.policies).map fun ps => ⟨ps, config.action, h⟩

/-- `findMatchingPolicy(rpcData)`: the name of the first policy, in iteration order, that
matches. -/
def Engine.findMatchingPolicy (e : Engine E.Expr) (data : RPCData) : Option String :=
  (e.policies.find? fun p => p.2.match E data).map (·.1)

/-- `ChainEngine`. -/
structure ChainEngine (R : Type) where
  chainedEngines : List (Engine R)

/-- `NewChainEngine(policies)`: an engine per config, in order; the first failure wins. -/
def NewChainEngine : List RBAC → Except Failure (ChainEngine E.Expr)
  | [] => .ok ⟨[]⟩
  | c :: cs => do
    let e ← newEngine E c
    let ce ← NewChainEngine cs
    pure ⟨e :: ce.chainedEngines⟩

/-- The engine loop of `IsAuthorized`: every engine is queried in order; an ALLOW engine without
a matching policy and a DENY engine with one reject the RPC. -/
def checkEngines (data : RPCData) : List (Engine E.Expr) → Option Status
  | [] => none
  | e :: es =>
    match e.findMatchingPolicy E data, e.action with
    | none, .allow => some ⟨.permissionDenied, "incoming RPC did not match an allow policy"⟩
    | some name, .deny =>
      some ⟨.permissionDenied, "incoming RPC matched a deny policy " ++ Strconv.quote name⟩
    | _, _ => checkEngines data es

/-- `ChainEngine.IsAuthorized` on the data of an RPC: `none` is a nil error. -/
def ChainEngine.IsAuthorized (ce : ChainEngine E.Expr) (data : RPCData) : Option Status :=
  checkEngines E data ce.chainedEngines

end Rbac
end GrpcGo
