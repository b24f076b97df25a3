import GrpcGo.Authz.Translator
import GrpcGo.Rbac.Semantics

/-!
# What an SDK authorization policy means, and that `NewStatic` enforces it

The meaning of an SDK policy, over the decoded policy and the data of an RPC: a rule matches when
its source and its request do, and the policy rejects an RPC when a DENY rule matches or no ALLOW
rule does.  Two facts of the translation enter the meaning as the code has them: rules are kept
in a map by name, so only the last rule of each name counts (`Effective`), and a header pattern
is tested against the values of its key joined with `","`.

The main result, `newStatic_isAuthorized`, covers the policies without a `"*"` pattern.  The
translator turns `"*"` into a `safe_regex` with no `RegexMatcher` message: `newHeaderMatcher`
dereferences that nil message, and a principal or path matcher compiles the empty expression,
whose full match accepts only the empty string.
-/

namespace GrpcGo
namespace Authz

open GoStd XdsMatcher Rbac

/-! ## The meaning of a policy -/

/-- What a value pattern accepts: `"*"` every nonempty value, `"p*"` every value with prefix `p`,
`"*s"` every value with suffix `s`, and any other pattern only itself. -/
def patternMatches (pattern value : String) : Prop :=
  if pattern = "*" then value ≠ ""
  else if pattern.toList.getLast? = some '*' then pattern.toList.dropLast <+: value.toList
  else if pattern.toList.head? = some '*' then pattern.toList.tail <:+ value.toList
  else value = pattern

instance (pattern value : String) : Decidable (patternMatches pattern value) :=
  inferInstanceAs (Decidable (if pattern = "*" then value ≠ ""
    else if pattern.toList.getLast? = some '*' then pattern.toList.dropLast <+: value.toList
    else if pattern.toList.head? = some '*' then pattern.toList.tail <:+ value.toList
    else value = pattern))

/-- The source of a rule matches: any peer without `principals`, a TLS peer for an empty list,
and otherwise a TLS peer whose leaf certificate has a URI SAN, a DNS SAN or a subject that some
pattern accepts (the empty string when there is no certificate). -/
def Peer.Matches (source : Peer) (data : RPCData) : Prop :=
  match source.principals with
  | none => True
  | some [] => data.authType = "tls"
  | some principals =>
    data.authType = "tls" ∧ ∃ pattern ∈ principals,
      match data.certs with
      | [] => patternMatches pattern ""
      | cert :: _ =>
        (∃ uri ∈ cert.uris, patternMatches pattern uri) ∨
          (∃ dns ∈ cert.dnsNames, patternMatches pattern dns) ∨
            patternMatches pattern cert.subject

/-- The request of a rule matches: no paths or a path pattern that accepts the full method, and
for each header a pattern that accepts the values of its lowered key joined with `","`. -/
def Request.Matches (request : Request) (data : RPCData) : Prop :=
  (request.paths = [] ∨ ∃ pattern ∈ request.paths, patternMatches pattern data.fullMethod) ∧
    ∀ header ∈ request.headers, ∃ values,
      data.md.lookup (Strings.toLower header.key) = some values ∧
        ∃ pattern ∈ header.values, patternMatches pattern (Strings.join values ",")

/-- A rule matches when its source and its request do. -/
def Rule.Matches (rule : Rule) (data : RPCData) : Prop :=
  rule.source.Matches data ∧ rule.request.Matches data

/-- `rule` stands in `rules` with no later rule of the same name: it is the rule that the policy
map keeps under its name. -/
def Effective (rules : List Rule) (rule : Rule) : Prop :=
  ∃ pre post, rules = pre ++ rule :: post ∧ ∀ r ∈ post, r.name ≠ rule.name

/-- The policy rejects an RPC: an effective DENY rule matches it, or no effective ALLOW rule
does. -/
def AuthorizationPolicy.Rejects (policy : AuthorizationPolicy) (data : RPCData) : Prop :=
  (∃ rule, Effective policy.denyRules rule ∧ rule.Matches data) ∨
    ¬ ∃ rule, Effective policy.allowRules rule ∧ rule.Matches data

/-- No principal, path or header value of the rule is the pattern `"*"`. -/
def Rule.NoWildcard (rule : Rule) : Prop :=
  "*" ∉ rule.source.principals.getD [] ∧ "*" ∉ rule.request.paths ∧
    ∀ header ∈ rule.request.headers, "*" ∉ header.values

instance : DecidablePred Rule.NoWildcard := fun rule =>
  inferInstanceAs (Decidable ("*" ∉ rule.source.principals.getD [] ∧ "*" ∉ rule.request.paths ∧
    ∀ header ∈ rule.request.headers, "*" ∉ header.values))

/-- No rule of the policy has a `"*"` pattern. -/
def AuthorizationPolicy.NoWildcard (policy : AuthorizationPolicy) : Prop :=
  ∀ rule ∈ policy.denyRules ++ policy.allowRules, rule.NoWildcard

instance : DecidablePred AuthorizationPolicy.NoWildcard := fun policy =>
  inferInstanceAs (Decidable (∀ rule ∈ policy.denyRules ++ policy.allowRules, rule.NoWildcard))

/-! ## Patterns -/

theorem star_toList : "*".toList = ['*'] := rfl

/-- Away from `"*"`, the switch of `wildcardPattern` reads the last and the first character. -/
theorem wildcardPattern_of_ne_star {α : Type} {value : String} (hv : value ≠ "*") (any : α)
    (pfx sfx exact : String → α) :
    wildcardPattern value any pfx sfx exact =
      if value.toList.getLast? = some '*' then pfx (String.ofList value.toList.dropLast)
      else if value.toList.head? = some '*' then sfx (String.ofList value.toList.tail)
      else exact value := by
  have hs := Strings.hasSuffix_iff_getLast (s := value) star_toList
  have hp := Strings.hasPrefix_iff_head (s := value) star_toList
  unfold wildcardPattern
  rw [if_neg hv]
  by_cases hl : value.toList.getLast? = some '*'
  · have hsuf := hs.mpr hl
    rw [if_pos hsuf, if_pos hl, ← Strings.trimSuffix_toList star_toList hsuf,
      String.ofList_toList]
  · rw [if_neg (mt hs.mp hl), if_neg hl]
    by_cases hh : value.toList.head? = some '*'
    · have hpre := hp.mpr hh
      rw [if_pos hpre, if_pos hh, ← Strings.trimPrefix_toList star_toList hpre,
        String.ofList_toList]
    · rw [if_neg (mt hp.mp hh), if_neg hh]

/-- A pattern other than `"*"` that ends in `*` leaves a nonempty prefix. -/
theorem dropLast_ne_nil_of_ne_star {value : String} (hv : value ≠ "*")
    (hl : value.toList.getLast? = some '*') : value.toList.dropLast ≠ [] := by
  intro hnil
  apply hv
  have h := List.dropLast_append_getLast? '*' hl
  rw [hnil, List.nil_append] at h
  exact String.toList_inj.mp (h.symm.trans star_toList.symm)

/-- A pattern that starts but does not end with `*` leaves a nonempty suffix. -/
theorem tail_ne_nil_of_getLast_ne {value : String} (hl : value.toList.getLast? ≠ some '*')
    (hh : value.toList.head? = some '*') : value.toList.tail ≠ [] := by
  intro hnil
  obtain ⟨ys, hys⟩ := List.head?_eq_some_iff.mp hh
  rw [hys, List.tail_cons] at hnil
  subst hnil
  exact hl (by rw [hys]; rfl)

variable (E : Regexp.Engine)

theorem getStringMatcher_compiles {value : String} (hv : value ≠ "*") :
    ∃ sm, StringMatcherFromProto E (some (getStringMatcher value)) = .ok sm := by
  rw [getStringMatcher, wildcardPattern_of_ne_star hv]
  split_ifs with hl hh
  · have hne := Strings.ofList_ne_empty (dropLast_ne_nil_of_ne_star hv hl)
    exact ⟨⟨.prefixMatch (String.ofList value.toList.dropLast), false⟩,
      by simp [StringMatcherFromProto, hne]⟩
  · have hne := Strings.ofList_ne_empty (tail_ne_nil_of_getLast_ne hl hh)
    exact ⟨⟨.suffixMatch (String.ofList value.toList.tail), false⟩,
      by simp [StringMatcherFromProto, hne]⟩
  · exact ⟨_, rfl⟩

theorem getStringMatcher_accepts {value : String} (hv : value ≠ "*") (input : String) :
    (getStringMatcher value).Accepts E input ↔ patternMatches value input := by
  unfold patternMatches
  rw [getStringMatcher, wildcardPattern_of_ne_star hv, if_neg hv]
  split_ifs <;> simp [StringMatcherProto.Accepts]

theorem getHeaderMatcher_compiles (key : String) {value : String} (hv : value ≠ "*") :
    ∃ hm, newHeaderMatcher E (getHeaderMatcher key value) = .ok hm := by
  rw [getHeaderMatcher, wildcardPattern_of_ne_star hv]
  split_ifs <;> exact ⟨_, rfl⟩

theorem getHeaderMatcher_holds (key : String) {value : String} (hv : value ≠ "*") (md : MD) :
    (getHeaderMatcher key value).Holds E md ↔
      ∃ s, mdValuesFromOutgoingCtx md key = some s ∧ patternMatches value s := by
  unfold patternMatches
  simp only [getHeaderMatcher, wildcardPattern_of_ne_star hv, if_neg hv]
  split_ifs <;> simp [HeaderMatcherProto.Holds]

/-! ## Translated permissions -/

/-- A permission the translator builds: it is supported, it compiles, and it holds exactly when
`P` does. -/
def Translates (r : Permission) (P : RPCData → Prop) : Prop :=
  r.Supported = true ∧ (∃ m, matcherFromPermission E r = .ok m) ∧
    ∀ data, r.Holds E data ↔ P data

theorem Translates.congr {r : Permission} {P Q : RPCData → Prop} (h : Translates E r P)
    (hPQ : ∀ data, P data ↔ Q data) : Translates E r Q :=
  ⟨h.1, h.2.1, fun data => (h.2.2 data).trans (hPQ data)⟩

theorem translates_any : Translates E .any fun _ => True :=
  ⟨rfl, ⟨_, rfl⟩, fun _ => by simp [Permission.Holds]⟩

theorem translates_urlPath {value : String} (hv : value ≠ "*") :
    Translates E (.urlPath (some (getStringMatcher value)))
      fun data => patternMatches value data.fullMethod := by
  obtain ⟨sm, hsm⟩ := getStringMatcher_compiles E hv
  refine ⟨rfl, ⟨some (.urlPathMatcher sm), ?_⟩, fun data => ?_⟩
  · simp [matcherFromPermission, newURLPathMatcher, hsm]
  · simp [Permission.Holds, getStringMatcher_accepts E hv]

theorem translates_header (key : String) {value : String} (hv : value ≠ "*") :
    Translates E (.header (getHeaderMatcher key value))
      fun data => ∃ s, mdValuesFromOutgoingCtx data.md key = some s ∧ patternMatches value s := by
  obtain ⟨hm, hhm⟩ := getHeaderMatcher_compiles E key hv
  refine ⟨rfl, ⟨some (.headerMatcher hm), by simp [matcherFromPermission, hhm]⟩, fun data => ?_⟩
  rw [Permission.Holds, getHeaderMatcher_holds E key hv]

/-- Rules that translate compile as a list, which then holds as their meanings do. -/
theorem translates_list {rs : List Permission} {Ps : List (RPCData → Prop)}
    (h : List.Forall₂ (Translates E) rs Ps) :
    (∀ r ∈ rs, ∃ m, matcherFromPermission E r = .ok m) ∧
      ∀ data, (Permission.SomeHolds E data rs ↔ ∃ P ∈ Ps, P data) ∧
        (Permission.AllHold E data rs ↔ ∀ P ∈ Ps, P data) := by
  induction h with
  | nil => simp [Permission.SomeHolds, Permission.AllHold]
  | cons hr _ ih =>
    obtain ⟨hsup, hcomp, hholds⟩ := hr
    refine ⟨?_, fun data => ?_⟩
    · intro r' hr'
      rcases List.mem_cons.mp hr' with rfl | hr'
      · exact hcomp
      · exact ih.1 r' hr'
    · simp [Permission.SomeHolds, Permission.AllHold, hsup, hholds, (ih.2 data).1,
        (ih.2 data).2]

theorem translates_orRules {rs : List Permission} {Ps : List (RPCData → Prop)}
    (h : List.Forall₂ (Translates E) rs Ps) :
    Translates E (permissionOr rs) fun data => ∃ P ∈ Ps, P data := by
  obtain ⟨hok, hmeaning⟩ := translates_list E h
  obtain ⟨ms, hms⟩ := matchersFromPermissions_ok E hok
  refine ⟨rfl, ⟨some (.orMatcher ms), by simp [permissionOr, matcherFromPermission, hms]⟩,
    fun data => ?_⟩
  rw [permissionOr, Permission.Holds]
  exact (hmeaning data).1

theorem translates_andRules {rs : List Permission} {Ps : List (RPCData → Prop)}
    (h : List.Forall₂ (Translates E) rs Ps) :
    Translates E (permissionAnd rs) fun data => ∀ P ∈ Ps, P data := by
  obtain ⟨hok, hmeaning⟩ := translates_list E h
  obtain ⟨ms, hms⟩ := matchersFromPermissions_ok E hok
  refine ⟨rfl, ⟨some (.andMatcher ms), by simp [permissionAnd, matcherFromPermission, hms]⟩,
    fun data => ?_⟩
  rw [permissionAnd, Permission.Holds]
  exact (hmeaning data).2

/-- Each element of a list translated element by element. -/
theorem forall₂_translates_map {α : Type} {xs : List α} {f : α → Permission}
    {P : α → RPCData → Prop} (h : ∀ x ∈ xs, Translates E (f x) (P x)) :
    List.Forall₂ (Translates E) (xs.map f) (xs.map P) :=
  List.forall₂_map_left_iff.mpr (List.forall₂_map_right_iff.mpr (List.forall₂_same.mpr h))

theorem translates_paths {paths : List String} (hw : "*" ∉ paths) :
    Translates E (permissionOr (parsePaths paths))
      fun data => ∃ pattern ∈ paths, patternMatches pattern data.fullMethod := by
  have h := translates_orRules E (forall₂_translates_map E fun path hpath =>
    translates_urlPath E (fun he : path = "*" => hw (he ▸ hpath)))
  exact h.congr E fun data => by simp

theorem translates_headerValues (key : String) {values : List String} (hw : "*" ∉ values) :
    Translates E (permissionOr (parseHeaderValues key values))
      fun data => ∃ vs, data.md.lookup key = some vs ∧
        ∃ pattern ∈ values, patternMatches pattern (Strings.join vs ",") := by
  have h := translates_orRules E (forall₂_translates_map E fun value hvalue =>
    translates_header E key (fun he : value = "*" => hw (he ▸ hvalue)))
  refine h.congr E fun data => ?_
  simp only [List.mem_map, mdValuesFromOutgoingCtx, Option.map_eq_some_iff]
  constructor
  · rintro ⟨P, ⟨value, hvalue, rfl⟩, s, ⟨vs, hvs, rfl⟩, hmatch⟩
    exact ⟨vs, hvs, value, hvalue, hmatch⟩
  · rintro ⟨vs, hvs, value, hvalue, hmatch⟩
    exact ⟨_, ⟨value, hvalue, rfl⟩, _, ⟨vs, hvs, rfl⟩, hmatch⟩

/-- The permission for the headers of a request. -/
theorem translates_headers {headers : List Header} (hw : ∀ header ∈ headers, "*" ∉ header.values) :
    Translates E
      (permissionAnd (headers.map fun header =>
        permissionOr (parseHeaderValues (Strings.toLower header.key) header.values)))
      fun data => ∀ header ∈ headers, ∃ vs, data.md.lookup (Strings.toLower header.key) = some vs ∧
        ∃ pattern ∈ header.values, patternMatches pattern (Strings.join vs ",") := by
  have h := translates_andRules E (forall₂_translates_map E fun header hheader =>
    translates_headerValues E (Strings.toLower header.key) (hw header hheader))
  exact h.congr E fun data => by simp

theorem parseHeadersFrom_eq_ok : ∀ {i : Nat} {headers : List Header} {ps : List Permission},
    parseHeadersFrom i headers = .ok ps →
      ps = headers.map fun header =>
        permissionOr (parseHeaderValues (Strings.toLower header.key) header.values)
  | i, [], ps, h => by
    simp only [parseHeadersFrom, Except.ok.injEq] at h
    simp [← h]
  | i, header :: headers, ps, h => by
    simp only [parseHeadersFrom] at h
    -- The three checks of the header fail with an error; past them the loop goes on.
    split_ifs at h
    all_goals try (simp at h; done)
    obtain ⟨rest, hrest, h⟩ := Except.bind_eq_ok_iff.mp h
    simp only [Except.pure_eq_ok, Except.ok.injEq] at h
    rw [← h, parseHeadersFrom_eq_ok hrest, List.map_cons]

/-- A request that `parseRequest` accepts translates to a permission with the meaning of
`Request.Matches`. -/
theorem parseRequest_translates {request : Request} {p : Permission}
    (h : parseRequest request = .ok p)
    (hw : "*" ∉ request.paths ∧ ∀ header ∈ request.headers, "*" ∉ header.values) :
    Translates E p request.Matches := by
  obtain ⟨paths, headers⟩ := request
  obtain ⟨hwp, hwh⟩ := hw
  have hpaths := translates_paths E hwp
  -- The four cases of `parseRequest`: with or without paths, with or without headers.
  cases headers with
  | nil =>
    cases paths with
    | nil =>
      simp only [parseRequest, List.length_nil, Nat.lt_irrefl, if_false, Except.pure_eq_ok,
        Except.ok_bind, List.append_nil, Except.ok.injEq] at h
      subst h
      exact (translates_any E).congr E fun data => by simp [Request.Matches]
    | cons path paths =>
      simp only [parseRequest, List.length_nil, Nat.lt_irrefl, if_false, Except.pure_eq_ok,
        Except.ok_bind, List.append_nil, List.length_cons, Nat.zero_lt_succ, if_true,
        Nat.lt_add_one, Except.ok.injEq] at h
      subst h
      exact (translates_andRules E (.cons hpaths .nil)).congr E fun data => by
        simp [Request.Matches]
  | cons header headers =>
    simp only [parseRequest, List.length_cons, Nat.zero_lt_succ, if_true] at h
    obtain ⟨ps, hps, h⟩ := Except.bind_eq_ok_iff.mp h
    obtain rfl := parseHeadersFrom_eq_ok hps
    have hheaders := translates_headers E hwh
    cases paths with
    | nil =>
      simp only [List.length_nil, Nat.lt_irrefl, if_false, List.nil_append, Except.pure_eq_ok,
        Except.ok_bind, List.length_singleton, Nat.lt_add_one, if_true, Except.ok.injEq] at h
      subst h
      exact (translates_andRules E (.cons hheaders .nil)).congr E fun data => by
        simp [Request.Matches]
    | cons path paths =>
      simp only [List.length_cons, Nat.zero_lt_succ, if_true, List.singleton_append,
        Except.pure_eq_ok, Except.ok_bind, Except.ok.injEq] at h
      subst h
      exact (translates_andRules E (.cons hpaths (.cons hheaders .nil))).congr E fun data => by
        simp [Request.Matches]

/-! ## Translated principals -/

theorem authenticated_getStringMatcher_holds {value : String} (hv : value ≠ "*")
    (data : RPCData) :
    AuthenticatedHolds E (some (getStringMatcher value)) data ↔
      data.authType = "tls" ∧
        match data.certs with
        | [] => patternMatches value ""
        | cert :: _ =>
          (∃ uri ∈ cert.uris, patternMatches value uri) ∨
            (∃ dns ∈ cert.dnsNames, patternMatches value dns) ∨
              patternMatches value cert.subject := by
  unfold AuthenticatedHolds
  simp only [Option.some.injEq, forall_eq', getStringMatcher_accepts E hv]
  cases data.certs <;> simp

/-- The principal of a rule's source: supported, compiled, and meaning `Peer.Matches`. -/
theorem parsePeer_spec {source : Peer} (hw : "*" ∉ source.principals.getD []) :
    (parsePeer source).Supported = true ∧
      (∃ m, matcherFromPrincipal E (parsePeer source) = .ok m) ∧
        ∀ data, (parsePeer source).Holds E data ↔ source.Matches data := by
  obtain ⟨_ | _ | ⟨name, names⟩⟩ := source
  · exact ⟨rfl, ⟨_, rfl⟩, fun data => by simp [parsePeer, Principal.Holds, Peer.Matches]⟩
  · exact ⟨rfl, ⟨_, rfl⟩, fun data => by
      simp [parsePeer, Principal.Holds, AuthenticatedHolds, Peer.Matches]⟩
  · have hv : ∀ n ∈ name :: names, n ≠ "*" := fun n hn he => hw (he ▸ hn)
    -- Every name compiles to an authenticated matcher.
    have hok : ∀ p ∈ parsePrincipalNames (name :: names),
        ∃ m, matcherFromPrincipal E p = .ok m := by
      intro p hp
      obtain ⟨n, hn, rfl⟩ := List.mem_map.mp hp
      obtain ⟨sm, hsm⟩ := getStringMatcher_compiles E (hv n hn)
      exact ⟨some (.authenticatedMatcher (some sm)),
        by simp [matcherFromPrincipal, newAuthenticatedMatcher, hsm]⟩
    obtain ⟨ms, hms⟩ := matchersFromPrincipals_ok E hok
    refine ⟨rfl, ⟨some (.orMatcher ms), by simp [parsePeer, principalOr, matcherFromPrincipal,
      hms]⟩, fun data => ?_⟩
    simp only [parsePeer, principalOr, Principal.Holds, Principal.someHolds_iff,
      parsePrincipalNames, List.mem_map, Peer.Matches]
    constructor
    · rintro ⟨_, ⟨n, hn, rfl⟩, -, hholds⟩
      rw [Principal.Holds, authenticated_getStringMatcher_holds E (hv n hn)] at hholds
      exact ⟨hholds.1, n, hn, hholds.2⟩
    · rintro ⟨htls, n, hn, hmatch⟩
      refine ⟨_, ⟨n, hn, rfl⟩, rfl, ?_⟩
      rw [Principal.Holds, authenticated_getStringMatcher_holds E (hv n hn)]
      exact ⟨htls, hmatch⟩

/-! ## Rules and the policy map -/

/-- The permission `parseRequest` builds for a request it accepts. -/
def requestPermission (request : Request) : Permission :=
  match parseRequest request with
  | .ok permission => permission
  | .error _ => .any

/-- The policy of one rule in the map `parseRules` builds. -/
def rulePolicy (rule : Rule) : Policy :=
  ⟨[requestPermission rule.request], [parsePeer rule.source]⟩

theorem rulePolicy_spec {rule : Rule} {p : Permission} (hp : parseRequest rule.request = .ok p)
    (hw : rule.NoWildcard) :
    (∃ pm, newPolicyMatcher E (rulePolicy rule) = .ok pm) ∧
      ∀ data, (rulePolicy rule).Matches E data ↔ rule.Matches data := by
  obtain ⟨hwp, hwr, hwh⟩ := hw
  have hreq : requestPermission rule.request = p := by simp [requestPermission, hp]
  obtain ⟨hsup, ⟨m, hm⟩, hholds⟩ := parseRequest_translates E hp ⟨hwr, hwh⟩
  obtain ⟨psup, ⟨pm, hpm⟩, pholds⟩ := parsePeer_spec E hwp
  refine ⟨newPolicyMatcher_ok E ?_ ?_, fun data => ?_⟩
  · simp [rulePolicy, hreq, hm]
  · simp [rulePolicy, hpm]
  · simp [rulePolicy, Policy.Matches, Rule.Matches, hreq, hsup, hholds, psup, pholds, and_comm]

theorem parseRulesFrom_eq_ok (prefixName : String) :
    ∀ {i : Nat} {m : List (String × Policy)} {rules : List Rule} {m' : List (String × Policy)},
      parseRulesFrom prefixName i m rules = .ok m' →
        (∀ rule ∈ rules, ∃ p, parseRequest rule.request = .ok p) ∧
          m' = rules.foldl
            (fun m rule => Map.insert (prefixName ++ "_" ++ rule.name) (rulePolicy rule) m) m
  | i, m, [], m', h => by
    simp only [parseRulesFrom, Except.ok.injEq] at h
    simp [h]
  | i, m, rule :: rules, m', h => by
    simp only [parseRulesFrom] at h
    -- A rule without a name stops the loop with an error.
    split_ifs at h
    all_goals try (simp at h; done)
    obtain ⟨p, hp, h⟩ := Except.bind_eq_ok_iff.mp h
    have hp' := Except.mapError_eq_ok_iff.mp hp
    have hreq : requestPermission rule.request = p := by simp [requestPermission, hp']
    obtain ⟨hrest, rfl⟩ := parseRulesFrom_eq_ok prefixName h
    refine ⟨?_, by simp [rulePolicy, hreq]⟩
    intro r hr
    rcases List.mem_cons.mp hr with rfl | hr
    · exact ⟨p, hp'⟩
    · exact hrest r hr

theorem policyName_inj {prefixName a b : String} :
    prefixName ++ "_" ++ a = prefixName ++ "_" ++ b ↔ a = b := by
  constructor
  · intro h
    have := congrArg String.toList h
    simp only [String.toList_append, List.append_cancel_left_eq] at this
    exact String.toList_inj.mp this
  · rintro rfl
    rfl

/-- The policy map of a rule list: every policy compiles, and some policy matches exactly when
an effective rule does. -/
theorem parseRules_spec {rules : List Rule} {prefixName : String} {ps : List (String × Policy)}
    (h : parseRules rules prefixName = .ok ps) (hw : ∀ rule ∈ rules, rule.NoWildcard) :
    (∀ p ∈ ps, ∃ pm, newPolicyMatcher E p.2 = .ok pm) ∧
      ∀ data, (∃ p ∈ ps, p.2.Matches E data) ↔ ∃ rule, Effective rules rule ∧ rule.Matches data := by
  obtain ⟨hreq, rfl⟩ := parseRulesFrom_eq_ok prefixName h
  have hmem := Map.mem_foldl_insert
    (fun rule => (prefixName ++ "_" ++ rule.name, rulePolicy rule)) rules
    (m := []) List.nodup_nil
  simp only [List.not_mem_nil, false_and, false_or, ne_eq, policyName_inj] at hmem
  -- Each rule of the list has a translating request and no wildcard.
  have hrule : ∀ rule ∈ rules, (∃ pm, newPolicyMatcher E (rulePolicy rule) = .ok pm) ∧
      ∀ data, (rulePolicy rule).Matches E data ↔ rule.Matches data := fun rule hr =>
    let ⟨_, hp⟩ := hreq rule hr
    rulePolicy_spec E hp (hw rule hr)
  refine ⟨fun p hp => ?_, fun data => ?_⟩
  · obtain ⟨pre, rule, post, hsplit, -, rfl⟩ := (hmem p).mp hp
    exact (hrule rule (hsplit ▸ List.mem_append_cons_self)).1
  · constructor
    · rintro ⟨p, hp, hmatch⟩
      obtain ⟨pre, rule, post, hsplit, hlast, rfl⟩ := (hmem p).mp hp
      have hr : rule ∈ rules := hsplit ▸ List.mem_append_cons_self
      exact ⟨rule, ⟨pre, post, hsplit, hlast⟩, ((hrule rule hr).2 data).mp hmatch⟩
    · rintro ⟨rule, ⟨pre, post, hsplit, hlast⟩, hmatch⟩
      have hr : rule ∈ rules := hsplit ▸ List.mem_append_cons_self
      exact ⟨_, (hmem _).mpr ⟨pre, rule, post, hsplit, hlast, rfl⟩,
        ((hrule rule hr).2 data).mpr hmatch⟩

/-! ## The policy -/

theorem translatePolicy_eq_ok {policy : AuthorizationPolicy} {rbacs : List RBAC}
    (h : translatePolicy policy = .ok rbacs) :
    ∃ allowPolicies, parseRules policy.allowRules policy.name = .ok allowPolicies ∧
      ((policy.denyRules = [] ∧ rbacs = [⟨.allow, allowPolicies⟩]) ∨
        ∃ denyPolicies, parseRules policy.denyRules policy.name = .ok denyPolicies ∧
          rbacs = [⟨.deny, denyPolicies⟩, ⟨.allow, allowPolicies⟩]) := by
  simp only [translatePolicy] at h
  -- A missing name or a missing `allow_rules` is an error; then the DENY config is built when
  -- there are deny rules.
  split_ifs at h
  all_goals try (simp at h; done)
  · obtain ⟨denyPolicies, hdp, h⟩ := Except.bind_eq_ok_iff.mp h
    simp only [Except.pure_eq_ok, Except.ok_bind] at h
    obtain ⟨allowPolicies, hap, h⟩ := Except.bind_eq_ok_iff.mp h
    simp only [Except.ok.injEq] at h
    exact ⟨allowPolicies, Except.mapError_eq_ok_iff.mp hap,
      .inr ⟨denyPolicies, Except.mapError_eq_ok_iff.mp hdp, by simp [← h]⟩⟩
  · obtain ⟨allowPolicies, hap, h⟩ := Except.bind_eq_ok_iff.mp (by simpa using h)
    simp only [Except.ok.injEq] at h
    have hnil : policy.denyRules = [] := by simpa using ‹¬0 < policy.denyRules.length›
    exact ⟨allowPolicies, Except.mapError_eq_ok_iff.mp hap, .inl ⟨hnil, by simp [← h]⟩⟩

/-- **`NewStatic` enforces the SDK policy.**  For every policy without a `"*"` pattern that
`translatePolicy` accepts, `NewStatic` succeeds, and the chain engine admits an RPC exactly when
the policy does not reject it; every rejection is PERMISSION_DENIED. -/
theorem newStatic_isAuthorized {policy : AuthorizationPolicy} {rbacs : List RBAC}
    (ht : translatePolicy policy = .ok rbacs) (hw : policy.NoWildcard) :
    ∃ engines, NewStatic E policy = .ok engines ∧ ∀ data,
      (engines.IsAuthorized E data = none ↔ ¬ policy.Rejects data) ∧
        ∀ st, engines.IsAuthorized E data = some st → st.code = .permissionDenied := by
  have hwd : ∀ rule ∈ policy.denyRules, rule.NoWildcard :=
    fun rule hr => hw rule (List.mem_append_left _ hr)
  have hwa : ∀ rule ∈ policy.allowRules, rule.NoWildcard :=
    fun rule hr => hw rule (List.mem_append_right _ hr)
  obtain ⟨ap, hap, hcases⟩ := translatePolicy_eq_ok ht
  obtain ⟨hapc, hapm⟩ := parseRules_spec E hap hwa
  -- Every config compiles, and the configs all pass exactly when the policy does not reject.
  have hconfigs : (∀ c ∈ rbacs, c.action ≠ .log ∧
      ∀ p ∈ c.policies, ∃ pm, newPolicyMatcher E p.2 = .ok pm) ∧
      ∀ data, (∀ c ∈ rbacs, Passes E c data) ↔ ¬ policy.Rejects data := by
    rcases hcases with ⟨hnil, rfl⟩ | ⟨dp, hdp, rfl⟩
    · refine ⟨fun c hc => ?_, fun data => ?_⟩
      · rw [List.mem_singleton] at hc
        subst hc
        exact ⟨by simp, hapc⟩
      · simp only [List.forall_mem_singleton, Passes]
        rw [hapm data, AuthorizationPolicy.Rejects, hnil]
        -- Without deny rules no DENY rule can match.
        have hnone : ¬ ∃ rule, Effective [] rule ∧ rule.Matches data := by
          rintro ⟨rule, ⟨pre, post, hsplit, -⟩, -⟩
          simp at hsplit
        simp [hnone]
    · obtain ⟨hdpc, hdpm⟩ := parseRules_spec E hdp hwd
      refine ⟨fun c hc => ?_, fun data => ?_⟩
      · simp only [List.mem_cons, List.not_mem_nil, or_false] at hc
        rcases hc with rfl | rfl
        · exact ⟨by simp, hdpc⟩
        · exact ⟨by simp, hapc⟩
      · simp only [List.forall_mem_cons, Passes]
        rw [hapm data, hdpm data, AuthorizationPolicy.Rejects]
        simp [and_comm]
  obtain ⟨engines, he⟩ := newChainEngine_ok E hconfigs.1
  refine ⟨engines, by simp [NewStatic, ht, he], fun data =>
    ⟨?_, fun st hst => checkEngines_code E data hst⟩⟩
  rw [ChainEngine.IsAuthorized, checkEngines_eq_none_iff E (newChainEngine_realizes E he) data]
  exact hconfigs.2 data

theorem newStatic_isAuthorized_denyBarAllowProd :
    (∃ rbacs, translatePolicy
        ⟨"authz", [⟨"deny_bar", ⟨some ["spiffe://bar*"]⟩, ⟨[], []⟩⟩],
          [⟨"allow_prod", ⟨none⟩, ⟨["/pkg.Svc/*"], [⟨"X-Env", ["prod"]⟩]⟩⟩]⟩ = .ok rbacs) ∧
      AuthorizationPolicy.NoWildcard
        ⟨"authz", [⟨"deny_bar", ⟨some ["spiffe://bar*"]⟩, ⟨[], []⟩⟩],
          [⟨"allow_prod", ⟨none⟩, ⟨["/pkg.Svc/*"], [⟨"X-Env", ["prod"]⟩]⟩⟩]⟩ ∧
      ∃ engines, NewStatic Regexp.Engine.literal
          ⟨"authz", [⟨"deny_bar", ⟨some ["spiffe://bar*"]⟩, ⟨[], []⟩⟩],
            [⟨"allow_prod", ⟨none⟩, ⟨["/pkg.Svc/*"], [⟨"X-Env", ["prod"]⟩]⟩⟩]⟩ = .ok engines ∧
        ∀ data,
          (engines.IsAuthorized Regexp.Engine.literal data = none ↔
            ¬ AuthorizationPolicy.Rejects
              ⟨"authz", [⟨"deny_bar", ⟨some ["spiffe://bar*"]⟩, ⟨[], []⟩⟩],
                [⟨"allow_prod", ⟨none⟩, ⟨["/pkg.Svc/*"], [⟨"X-Env", ["prod"]⟩]⟩⟩]⟩ data) ∧
          ∀ st, engines.IsAuthorized Regexp.Engine.literal data = some st →
            st.code = .permissionDenied :=
  ⟨⟨_, rfl⟩, by decide, newStatic_isAuthorized _ rfl (by decide)⟩

/-- Two DENY rules of one name: the later one replaces the earlier in the policy map, so an RPC
that only the earlier rule matches is admitted. -/
theorem newStatic_sameNameDenyRules :
    ∃ engines, NewStatic Regexp.Engine.literal
        ⟨"authz", [⟨"r", ⟨none⟩, ⟨["/pkg.Svc/A"], []⟩⟩, ⟨"r", ⟨none⟩, ⟨["/pkg.Svc/B"], []⟩⟩],
          [⟨"all", ⟨none⟩, ⟨[], []⟩⟩]⟩ = .ok engines ∧
      engines.IsAuthorized Regexp.Engine.literal
          ⟨[], "10.0.0.1:5000", "/pkg.Svc/A", 443, "10.0.0.2:443", "", []⟩ = none ∧
      ∃ rule ∈ [(⟨"r", ⟨none⟩, ⟨["/pkg.Svc/A"], []⟩⟩ : Rule), ⟨"r", ⟨none⟩, ⟨["/pkg.Svc/B"], []⟩⟩],
        rule.Matches ⟨[], "10.0.0.1:5000", "/pkg.Svc/A", 443, "10.0.0.2:443", "", []⟩ := by
  refine ⟨_, rfl, rfl, _, List.mem_cons_self, ?_⟩
  exact ⟨trivial, .inr ⟨_, List.mem_cons_self, by decide⟩, by simp⟩

end Authz
end GrpcGo
