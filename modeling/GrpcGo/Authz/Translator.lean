import GrpcGo.Rbac.Engine
import GrpcGo.Lib.GoMap

/-!
# The SDK authorization policy and its translation to RBAC (`authz`)

`translatePolicy` turns an SDK authorization policy into one DENY and one ALLOW RBAC config (or
an ALLOW config alone), and `NewStatic` compiles them into a `ChainEngine`.  The JSON decoding
step is not modelled: the input is the decoded `authorizationPolicy`, where an absent
`principals` list (`nil` in Go) and an empty one are told apart.

Each rule becomes one policy, named `prefixName ++ "_" ++ name`, in a Go map: a later rule of the
same name overwrites an earlier one.  A value pattern `"*"` becomes a `safe_regex` with no
`RegexMatcher` message, `"p*"` a prefix, `"*s"` a suffix and anything else an exact match.
-/

namespace GrpcGo
namespace Authz

open GoStd XdsMatcher Rbac

/-! ## The decoded policy -/

/-- `header`: a request header key and its accepted values. -/
structure Header where
  key : String
  values : List String
  deriving DecidableEq, Repr

/-- `peer`; `principals` is `none` when the field is absent. -/
structure Peer where
  principals : Option (List String)
  deriving DecidableEq, Repr

/-- `request`. -/
structure Request where
  paths : List String
  headers : List Header
  deriving DecidableEq, Repr

/-- `rule`. -/
structure Rule where
  name : String
  source : Peer
  request : Request
  deriving DecidableEq, Repr

/-- `authorizationPolicy`. -/
structure AuthorizationPolicy where
  name : String
  denyRules : List Rule
  allowRules : List Rule
  deriving DecidableEq, Repr

/-! ## Translation -/

/-- `principalOr(principals)`. -/
def principalOr (principals : List Principal) : Principal := .orIds principals

/-- `permissionOr(permission)`. -/
def permissionOr (permission : List Permission) : Permission := .orRules permission

/-- `permissionAnd(permission)`. -/
def permissionAnd (permission : List Permission) : Permission := .andRules permission

/-- The switch shared by `getStringMatcher` and `getHeaderMatcher`: `"*"`, then a trailing `*`
(a prefix), then a leading `*` (a suffix), and otherwise the value itself. -/
def wildcardPattern {α : Type} (value : String) (any : α) (pfx sfx exact : String → α) : α :=
  if value = "*" then any
  else if Strings.hasSuffix value "*" then pfx (Strings.trimSuffix value "*")
  else if Strings.hasPrefix value "*" then sfx (Strings.trimPrefix value "*")
  else exact value

/-- `getStringMatcher(value)`. -/
def getStringMatcher (value : String) : StringMatcherProto :=
  wildcardPattern value ⟨.safeRegex none, false⟩ (fun p => ⟨.pfx p, false⟩)
    (fun s => ⟨.sfx s, false⟩) (fun v => ⟨.exact v, false⟩)

/-- `getHeaderMatcher(key, value)`. -/
def getHeaderMatcher (key value : String) : HeaderMatcherProto :=
  ⟨key, false, wildcardPattern value (.safeRegexMatch none) .prefixMatch .suffixMatch .exactMatch⟩

/-- `parsePrincipalNames(principalNames)`. -/
def parsePrincipalNames (principalNames : List String) : List Principal :=
  principalNames.map fun principalName => .authenticated (some (getStringMatcher principalName))

/-- `parsePeer(source)`; its error result is always nil. -/
def parsePeer (source : Peer) : Principal :=
  match source.principals with
  | none => .any
  | some [] => .authenticated none
  | some principals => principalOr (parsePrincipalNames principals)

/-- `parsePaths(paths)`. -/
def parsePaths (paths : List String) : List Permission :=
  paths.map fun path => .urlPath (some (getStringMatcher path))

/-- `parseHeaderValues(key, values)`. -/
def parseHeaderValues (key : String) (values : List String) : List Permission :=
  values.map fun value => .header (getHeaderMatcher key value)

/-- The keys of `unsupportedHeaders`. -/
def unsupportedHeaders : List String :=
  ["host", "connection", "keep-alive", "proxy-authenticate", "proxy-authorization", "te",
    "trailer", "transfer-encoding", "upgrade"]

/-- `unsupportedHeader(key)`, on a nonempty key. -/
def unsupportedHeader (key : String) : Bool :=
  key.toList.head? == some ':' || Strings.hasPrefix key "grpc-" || unsupportedHeaders.contains key

/-- The loop of `parseHeaders` from the header at index `i`. -/
def parseHeadersFrom (i : Nat) : List Header → Except String (List Permission)
  | [] => .ok []
  | header :: headers => do
    if header.key = "" then
      throw ("\"headers\" " ++ toString i ++ ": \"key\" is not present")
    let key := Strings.toLower header.key
    if unsupportedHeader key then
      throw ("\"headers\" " ++ toString i ++ ": unsupported \"key\" " ++ key)
    if header.values.length = 0 then
      throw ("\"headers\" " ++ toString i ++ ": \"values\" is not present")
    let hs ← parseHeadersFrom (i + 1) headers
    pure (permissionOr (parseHeaderValues key header.values) :: hs)

/-- `parseHeaders(headers)`. -/
def parseHeaders (headers : List Header) : Except String (List Permission) :=
  parseHeadersFrom 0 headers

/-- `parseRequest(request)`: the paths rule and the headers rule that are present, under one
`and_rules`; `any` when there is neither. -/
def parseRequest (request : Request) : Except String Permission := do
  let pathRules := if 0 < request.paths.length then [permissionOr (parsePaths request.paths)] else []
  let headerRules ←
    if 0 < request.headers.length then do
      let headers ← parseHeaders request.headers
      pure [permissionAnd headers]
    else pure []
  let andRules := pathRules ++ headerRules
  if 0 < andRules.length then pure (permissionAnd andRules) else pure .any

/-- The loop of `parseRules` from the rule at index `i`, with the map built so far. -/
def parseRulesFrom (prefixName : String) (i : Nat) (policies : List (String × Policy)) :
    List Rule → Except String (List (String × Policy))
  | [] => .ok policies
  | rule :: rules => do
    if rule.name = "" then throw (toString i ++ ": \"name\" is not present")
    let principal := parsePeer rule.source
    let permission ← (parseRequest rule.request).mapError fun err => toString i ++ ": " ++ err
    let policyName := prefixName ++ "_" ++ rule.name
    parseRulesFrom prefixName (i + 1)
      (Map.insert policyName ⟨[permission], [principal]⟩ policies) rules

/-- `parseRules(rules, prefixName)`. -/
def parseRules (rules : List Rule) (prefixName : String) :
    Except String (List (String × Policy)) :=
  parseRulesFrom prefixName 0 [] rules

/-- `translatePolicy(policyStr)` on the decoded policy. -/
def translatePolicy (policy : AuthorizationPolicy) : Except String (List RBAC) := do
  if policy.name = "" then throw "\"name\" is not present"
  if policy.allowRules.length = 0 then throw "\"allow_rules\" is not present"
  let rbacs ←
    if 0 < policy.denyRules.length then do
      let denyPolicies ←
        (parseRules policy.denyRules policy.name).mapError ("\"deny_rules\" " ++ ·)
      pure [⟨.deny, denyPolicies⟩]
    else pure []
  let allowPolicies ←
    (parseRules policy.allowRules policy.name).mapError ("\"allow_rules\" " ++ ·)
  pure (rbacs ++ [⟨.allow, allowPolicies⟩])

/-! ## The interceptor -/

variable (E : Regexp.Engine)

/-- `NewStatic(authzPolicy)`: the chain engine of the translated configs. -/
def NewStatic (authzPolicy : AuthorizationPolicy) : Except Rbac.Failure (ChainEngine E.Expr) := do
  let rbacs ← (translatePolicy authzPolicy).mapError .error
  NewChainEngine E rbacs

/-- `StaticInterceptor.UnaryInterceptor` before the handler: `none` lets the RPC through; a
PERMISSION_DENIED status of the engines is replaced by a fixed one. -/
def UnaryInterceptor (engines : ChainEngine E.Expr) (data : RPCData) : Option Status :=
  match engines.IsAuthorized E data with
  | none => none
  | some st =>
    if st.code = .permissionDenied then some ⟨.permissionDenied, "unauthorized RPC request rejected"⟩
    else some st

end Authz
end GrpcGo
