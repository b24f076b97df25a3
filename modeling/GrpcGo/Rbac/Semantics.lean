import GrpcGo.Rbac.Engine

/-!
# What an RBAC policy means, and that the engine computes it

A declarative reading of the v3 RBAC protos, written over the protos themselves: `and_rules`
holds when all of its rules hold, `or_rules` when one does, `not_rule` when its rule does not,
`any` always, and each leaf (`header`, `url_path`, `destination_ip`, `destination_port`,
`authenticated`, `direct_remote_ip`, `remote_ip`) by a predicate on the RPC's data.  The
variants gRPC does not support (`metadata`, `requested_server_name`, `source_ip`, and an unset
rule) are no-ops: they are left out of the list they stand in.

The main results say that whenever `NewChainEngine` accepts a list of configs, the matcher tree of
every policy evaluates to exactly this meaning (`matchersFromPermissions_spec` and its principal
twin, by mutual induction over the proto tree), and `IsAuthorized` admits an RPC exactly when
every ALLOW engine has a matching policy and no DENY engine has one, whatever order its policy
maps are iterated in (`isAuthorized_eq_none_iff`).
-/

namespace GrpcGo
namespace Rbac

open GoStd GoStd.Net XdsMatcher

variable (E : Regexp.Engine)

/-! ## Leaf predicates -/

/-- The meaning of a route `HeaderMatcher` proto on request metadata: its test on the values of
its key joined with `","`, inverted by `invert_match`; a missing key matches only a `present_match`
that asks for absence. -/
def HeaderMatcherProto.Holds (h : HeaderMatcherProto) (md : MD) : Prop :=
  let v := mdValuesFromOutgoingCtx md h.name
  let tested (test : String → Prop) : Prop := ∃ s, v = some s ∧ (test s ↔ h.invertMatch = false)
  match h.specifier with
  | .exactMatch e => tested (· = e)
  | .safeRegexMatch (some r) =>
    ∃ re, E.compile r = .ok re ∧ tested (Grpcutil.FullMatchWithRegex E re · = true)
  | .rangeMatch (some (start, stop)) =>
    tested fun s => ∃ i, Strconv.parseInt s = some i ∧ start ≤ i ∧ i < stop
  | .presentMatch p => (∃ s, v = some s ∧ s ≠ "") ↔ p ≠ h.invertMatch
  | .prefixMatch q => tested fun s => q.toList <+: s.toList
  | .suffixMatch q => tested fun s => q.toList <:+ s.toList
  | .containsMatch q => tested fun s => q.toList <:+: s.toList
  | .safeRegexMatch none | .rangeMatch none | .other => False

/-- The address `addr` lies in the CIDR range (printed as `"%s/%d"` and parsed by `ParseCIDR`). -/
def CidrRange.ContainsAddr (r : CidrRange) (addr : String) : Prop :=
  ∃ len ip n, r.prefixLen = some len ∧
    ParseCIDR (r.addressPrefix ++ "/" ++ toString len.toNat) = some (ip, n) ∧
    n.Contains ((ParseIP addr).getD []) = true

/-- The meaning of an `authenticated` principal: a TLS peer and, if a principal name is set, a
match of the empty string without a certificate, or of a URI SAN, a DNS SAN or the subject of
the leaf certificate. -/
def AuthenticatedHolds (principalName : Option StringMatcherProto) (data : RPCData) : Prop :=
  data.authType = "tls" ∧
    ∀ p, principalName = some p →
      (data.certs = [] ∧ p.Accepts E "") ∨
      ∃ cert certs, data.certs = cert :: certs ∧
        ((∃ u ∈ cert.uris, p.Accepts E u) ∨ (∃ n ∈ cert.dnsNames, p.Accepts E n) ∨
          p.Accepts E cert.subject)

theorem newHeaderMatcher_spec {h : HeaderMatcherProto} {hm : HeaderMatcher E.Expr}
    (hc : newHeaderMatcher E h = .ok hm) (md : MD) : hm.Match E md = true ↔ h.Holds E md := by
  unfold newHeaderMatcher at hc
  unfold HeaderMatcherProto.Holds
  cases hs : h.specifier with
  | exactMatch e =>
    simp only [hs, Except.ok.injEq] at hc
    subst hc
    simp [HeaderMatcher.Match, headerValueMatch_eq_true_iff]
  | safeRegexMatch r =>
    cases r with
    | none => simp only [hs] at hc; cases hc
    | some r =>
      simp only [hs] at hc
      split at hc
      · rename_i re hre
        simp only [Except.ok.injEq] at hc
        subst hc
        simp [HeaderMatcher.Match, headerValueMatch_eq_true_iff, hre]
      · cases hc
  | rangeMatch r =>
    cases r with
    | none => simp only [hs] at hc; cases hc
    | some r =>
      obtain ⟨start, stop⟩ := r
      simp only [hs, Except.ok.injEq] at hc
      subst hc
      simp only [HeaderMatcher.Match]
      cases mdValuesFromOutgoingCtx md h.name with
      | none => simp
      | some v =>
        cases hp : Strconv.parseInt v with
        | none => cases h.invertMatch <;> simp [hp]
        | some i =>
          by_cases hr : start ≤ i ∧ i < stop <;> cases h.invertMatch <;> simp [hr, hp]
          -- Outside the range: `¬ (start ≤ i ∧ i < stop)` read as an implication.
          omega
  | presentMatch p =>
    simp only [hs, Except.ok.injEq] at hc
    subst hc
    simp only [NewHeaderPresentMatcher, HeaderMatcher.Match]
    cases mdValuesFromOutgoingCtx md h.name with
    | none => cases p <;> cases h.invertMatch <;> simp
    | some v =>
      have hv := Strings.ne_empty_iff_length_pos v
      cases p <;> cases h.invertMatch <;> simp [hv]
  | prefixMatch q =>
    simp only [hs, Except.ok.injEq] at hc
    subst hc
    simp [HeaderMatcher.Match, headerValueMatch_eq_true_iff, Strings.hasPrefix_iff]
  | suffixMatch q =>
    simp only [hs, Except.ok.injEq] at hc
    subst hc
    simp [HeaderMatcher.Match, headerValueMatch_eq_true_iff, Strings.hasSuffix_iff]
  | containsMatch q =>
    simp only [hs, Except.ok.injEq] at hc
    subst hc
    simp [HeaderMatcher.Match, headerValueMatch_eq_true_iff, Strings.contains_iff]
  | other => simp only [hs] at hc; cases hc

theorem cidrRangeNet_spec {r : CidrRange} {n : IPNet} (hc : cidrRangeNet r = .ok n)
    (addr : String) : n.Contains ((ParseIP addr).getD []) = true ↔ r.ContainsAddr addr := by
  unfold cidrRangeNet at hc
  unfold CidrRange.ContainsAddr
  cases hl : r.prefixLen with
  | none => simp only [hl] at hc; cases hc
  | some len =>
    simp only [hl] at hc
    split at hc
    · rename_i ip n' hp
      simp only [Except.ok.injEq] at hc
      subst hc
      constructor
      · intro hn
        exact ⟨len, ip, n', rfl, hp, hn⟩
      · rintro ⟨len', ip', n'', hlen, hp', hn⟩
        cases hlen
        rw [hp] at hp'
        cases hp'
        exact hn
    · cases hc

theorem authenticatedMatch_spec {pn : Option StringMatcherProto} {m : Matcher E.Expr}
    (hc : newAuthenticatedMatcher E pn = .ok m) (data : RPCData) :
    m.match E data = true ↔ AuthenticatedHolds E pn data := by
  unfold newAuthenticatedMatcher at hc
  unfold AuthenticatedHolds
  cases pn with
  | none =>
    simp only [Except.ok.injEq] at hc
    subst hc
    simp [Matcher.match, authenticatedMatch]
  | some p =>
    obtain ⟨sm, hsm, rfl⟩ := Except.map_eq_ok_iff.mp hc
    have hspec := StringMatcherFromProto_spec E (Except.mapError_eq_ok_iff.mp hsm)
    simp only [Matcher.match, authenticatedMatch, Function.comp]
    by_cases ht : data.authType = "tls"
    · cases hcerts : data.certs with
      | nil => simp [ht, hspec]
      | cons cert certs => simp [ht, hspec, or_assoc]
    · simp [ht]

/-! ## Trees -/

/-- The permission variants that compile to a matcher; the others are no-ops. -/
def Permission.Supported : Permission → Bool
  | .metadata | .requestedServerName | .unset => false
  | _ => true

/-- The principal variants that compile to a matcher; the others are no-ops. -/
def Principal.Supported : Principal → Bool
  | .sourceIp _ | .metadata | .unset => false
  | _ => true

mutual
/-- When a permission holds of an RPC. -/
def Permission.Holds (data : RPCData) : Permission → Prop
  | .andRules rs => Permission.AllHold data rs
  | .orRules rs => Permission.SomeHolds data rs
  | .any => True
  | .header h => h.Holds E data.md
  | .urlPath p => ∃ sp, p = some sp ∧ sp.Accepts E data.fullMethod
  | .destinationIp r => r.ContainsAddr data.localAddr
  | .destinationPort port => data.destinationPort = port
  | .notRule r => ¬ r.Holds data
  | .metadata | .requestedServerName | .unset => False

/-- Every supported permission of a list holds. -/
def Permission.AllHold (data : RPCData) : List Permission → Prop
  | [] => True
  | r :: rs => (r.Supported = true → r.Holds data) ∧ Permission.AllHold data rs

/-- Some supported permission of a list holds. -/
def Permission.SomeHolds (data : RPCData) : List Permission → Prop
  | [] => False
  | r :: rs => (r.Supported = true ∧ r.Holds data) ∨ Permission.SomeHolds data rs
end

mutual
/-- When a principal holds of an RPC. -/
def Principal.Holds (data : RPCData) : Principal → Prop
  | .andIds ps => Principal.AllHold data ps
  | .orIds ps => Principal.SomeHolds data ps
  | .any => True
  | .authenticated pn => AuthenticatedHolds E pn data
  | .directRemoteIp r | .remoteIp r => r.ContainsAddr data.peerAddr
  | .header h => h.Holds E data.md
  | .urlPath p => ∃ sp, p = some sp ∧ sp.Accepts E data.fullMethod
  | .notId p => ¬ p.Holds data
  | .sourceIp _ | .metadata | .unset => False

/-- Every supported principal of a list holds. -/
def Principal.AllHold (data : RPCData) : List Principal → Prop
  | [] => True
  | p :: ps => (p.Supported = true → p.Holds data) ∧ Principal.AllHold data ps

/-- Some supported principal of a list holds. -/
def Principal.SomeHolds (data : RPCData) : List Principal → Prop
  | [] => False
  | p :: ps => (p.Supported = true ∧ p.Holds data) ∨ Principal.SomeHolds data ps
end

theorem Permission.allHold_iff (data : RPCData) (rs : List Permission) :
    Permission.AllHold E data rs ↔ ∀ r ∈ rs, r.Supported = true → r.Holds E data := by
  induction rs with
  | nil => simp [Permission.AllHold]
  | cons r rs ih => simp [Permission.AllHold, ih]

theorem Permission.someHolds_iff (data : RPCData) (rs : List Permission) :
    Permission.SomeHolds E data rs ↔ ∃ r ∈ rs, r.Supported = true ∧ r.Holds E data := by
  induction rs with
  | nil => simp [Permission.SomeHolds]
  | cons r rs ih => simp [Permission.SomeHolds, ih]

theorem Principal.allHold_iff (data : RPCData) (ps : List Principal) :
    Principal.AllHold E data ps ↔ ∀ p ∈ ps, p.Supported = true → p.Holds E data := by
  induction ps with
  | nil => simp [Principal.AllHold]
  | cons p ps ih => simp [Principal.AllHold, ih]

theorem Principal.someHolds_iff (data : RPCData) (ps : List Principal) :
    Principal.SomeHolds E data ps ↔ ∃ p ∈ ps, p.Supported = true ∧ p.Holds E data := by
  induction ps with
  | nil => simp [Principal.SomeHolds]
  | cons p ps ih => simp [Principal.SomeHolds, ih]

/-! ## Compilation computes the meaning

`matcherFromPermission_spec` and `matchersFromPermissions_spec` go down the proto tree together:
a supported rule compiles to one matcher that evaluates to its meaning, a no-op to nothing, and a
list to matchers whose `andMatcher` loop is `AllHold` and whose `orMatcher` loop is `SomeHolds`.
The `not_rule` case is where compilation would panic on a no-op inner rule; an accepted tree has
none. -/

/-- Compiling the leaf `m` into a one-element matcher: the shape shared by every leaf case. -/
theorem leaf_spec {P : RPCData → Prop} {mm : Matcher E.Expr}
    (hmm : ∀ data, mm.match E data = true ↔ P data) :
    (some mm).isSome = true ∧
      ∀ mm', some mm = some mm' → ∀ data, mm'.match E data = true ↔ P data := by
  refine ⟨rfl, ?_⟩
  rintro mm' ⟨⟩ data
  exact hmm data

mutual
theorem matcherFromPermission_spec : ∀ {r : Permission} {m : Option (Matcher E.Expr)},
    matcherFromPermission E r = .ok m →
      m.isSome = r.Supported ∧
        ∀ mm, m = some mm → ∀ data, mm.match E data = true ↔ r.Holds E data
  | .andRules rs, m, h => by
    simp only [matcherFromPermission, Except.bind_eq_ok_iff, Except.pure_eq_ok,
      Except.ok.injEq] at h
    obtain ⟨ms, hms, rfl⟩ := h
    exact leaf_spec E fun data => (matchersFromPermissions_spec hms data).1
  | .orRules rs, m, h => by
    simp only [matcherFromPermission, Except.bind_eq_ok_iff, Except.pure_eq_ok,
      Except.ok.injEq] at h
    obtain ⟨ms, hms, rfl⟩ := h
    exact leaf_spec E fun data => (matchersFromPermissions_spec hms data).2
  | .any, m, h => by
    simp only [matcherFromPermission, Except.ok.injEq] at h
    subst h
    exact leaf_spec E fun data => by simp [Matcher.match, Permission.Holds]
  | .header hp, m, h => by
    simp only [matcherFromPermission, Except.bind_eq_ok_iff, Except.pure_eq_ok,
      Except.ok.injEq] at h
    obtain ⟨hm, hhm, rfl⟩ := h
    exact leaf_spec E fun data => newHeaderMatcher_spec E hhm data.md
  | .urlPath path, m, h => by
    simp only [matcherFromPermission, Except.bind_eq_ok_iff, Except.pure_eq_ok,
      Except.ok.injEq] at h
    obtain ⟨sm, hsm, rfl⟩ := h
    cases path with
    | none => simp [newURLPathMatcher, StringMatcherFromProto] at hsm
    | some sp =>
      have hspec := StringMatcherFromProto_spec E
        (Except.mapError_eq_ok_iff.mp (show newURLPathMatcher E (some sp) = .ok sm from hsm))
      exact leaf_spec E fun data => by simp [Matcher.match, Permission.Holds, hspec]
  | .destinationIp range, m, h => by
    simp only [matcherFromPermission, Except.bind_eq_ok_iff, Except.pure_eq_ok,
      Except.ok.injEq] at h
    obtain ⟨mm, hmm, rfl⟩ := h
    obtain ⟨n, hn, rfl⟩ := Except.map_eq_ok_iff.mp hmm
    exact leaf_spec E fun data => by
      simpa [Matcher.match, Permission.Holds] using cidrRangeNet_spec hn data.localAddr
  | .destinationPort port, m, h => by
    simp only [matcherFromPermission, Except.ok.injEq] at h
    subst h
    exact leaf_spec E fun data => by simp [Matcher.match, Permission.Holds]
  | .notRule r, m, h => by
    simp only [matcherFromPermission, Except.bind_eq_ok_iff, Except.pure_eq_ok,
      Except.ok.injEq] at h
    obtain ⟨inner, hinner, mm, hfirst, rfl⟩ := h
    -- `mList[0]` succeeded, so the inner rule compiled to exactly one matcher.
    obtain ⟨hsome, hspec⟩ := matcherFromPermission_spec hinner
    cases inner with
    | none => cases hfirst
    | some im =>
      simp only [Option.toList_some, firstMatcher, Except.ok.injEq] at hfirst
      subst hfirst
      exact leaf_spec E fun data => by
        rw [Matcher.match, Permission.Holds, ← hspec im rfl data]
        simp
  | .metadata, m, h => by
    simp only [matcherFromPermission, Except.ok.injEq] at h
    subst h
    simp [Permission.Supported]
  | .requestedServerName, m, h => by
    simp only [matcherFromPermission, Except.ok.injEq] at h
    subst h
    simp [Permission.Supported]
  | .unset, m, h => by
    simp only [matcherFromPermission, Except.ok.injEq] at h
    subst h
    simp [Permission.Supported]

theorem matchersFromPermissions_spec : ∀ {rs : List Permission} {ms : List (Matcher E.Expr)},
    matchersFromPermissions E rs = .ok ms → ∀ data,
      (Matcher.matchAll E ms data = true ↔ Permission.AllHold E data rs) ∧
        (Matcher.matchAny E ms data = true ↔ Permission.SomeHolds E data rs)
  | [], ms, h, data => by
    simp only [matchersFromPermissions, Except.ok.injEq] at h
    subst h
    simp [Matcher.matchAll, Matcher.matchAny, Permission.AllHold, Permission.SomeHolds]
  | r :: rs, ms, h, data => by
    simp only [matchersFromPermissions, Except.bind_eq_ok_iff, Except.pure_eq_ok,
      Except.ok.injEq] at h
    obtain ⟨m, hm, ms', hms', rfl⟩ := h
    obtain ⟨hsome, hspec⟩ := matcherFromPermission_spec hm
    have ih := matchersFromPermissions_spec hms' data
    cases m with
    | none =>
      -- A no-op rule adds no matcher and is skipped by both list readings.
      have hns : r.Supported = false := by simpa using hsome.symm
      simp [Permission.AllHold, Permission.SomeHolds, hns, ih]
    | some mm =>
      have hs : r.Supported = true := by simpa using hsome.symm
      simp [Matcher.matchAll, Matcher.matchAny, Permission.AllHold, Permission.SomeHolds, hs,
        hspec mm rfl data, ih]
end

mutual
theorem matcherFromPrincipal_spec : ∀ {p : Principal} {m : Option (Matcher E.Expr)},
    matcherFromPrincipal E p = .ok m →
      m.isSome = p.Supported ∧
        ∀ mm, m = some mm → ∀ data, mm.match E data = true ↔ p.Holds E data
  | .andIds ps, m, h => by
    simp only [matcherFromPrincipal, Except.bind_eq_ok_iff, Except.pure_eq_ok,
      Except.ok.injEq] at h
    obtain ⟨ms, hms, rfl⟩ := h
    exact leaf_spec E fun data => (matchersFromPrincipals_spec hms data).1
  | .orIds ps, m, h => by
    simp only [matcherFromPrincipal, Except.bind_eq_ok_iff, Except.pure_eq_ok,
      Except.ok.injEq] at h
    obtain ⟨ms, hms, rfl⟩ := h
    exact leaf_spec E fun data => (matchersFromPrincipals_spec hms data).2
  | .any, m, h => by
    simp only [matcherFromPrincipal, Except.ok.injEq] at h
    subst h
    exact leaf_spec E fun data => by simp [Matcher.match, Principal.Holds]
  | .authenticated pn, m, h => by
    simp only [matcherFromPrincipal, Except.bind_eq_ok_iff, Except.pure_eq_ok,
      Except.ok.injEq] at h
    obtain ⟨mm, hmm, rfl⟩ := h
    exact leaf_spec E fun data => by
      simpa [Principal.Holds] using authenticatedMatch_spec E hmm data
  | .directRemoteIp range, m, h => by
    simp only [matcherFromPrincipal, Except.bind_eq_ok_iff, Except.pure_eq_ok,
      Except.ok.injEq] at h
    obtain ⟨mm, hmm, rfl⟩ := h
    obtain ⟨n, hn, rfl⟩ := Except.map_eq_ok_iff.mp hmm
    exact leaf_spec E fun data => by
      simpa [Matcher.match, Principal.Holds] using cidrRangeNet_spec hn data.peerAddr
  | .remoteIp range, m, h => by
    simp only [matcherFromPrincipal, Except.bind_eq_ok_iff, Except.pure_eq_ok,
      Except.ok.injEq] at h
    obtain ⟨mm, hmm, rfl⟩ := h
    obtain ⟨n, hn, rfl⟩ := Except.map_eq_ok_iff.mp hmm
    exact leaf_spec E fun data => by
      simpa [Matcher.match, Principal.Holds] using cidrRangeNet_spec hn data.peerAddr
  | .header hp, m, h => by
    simp only [matcherFromPrincipal, Except.bind_eq_ok_iff, Except.pure_eq_ok,
      Except.ok.injEq] at h
    obtain ⟨hm, hhm, rfl⟩ := h
    exact leaf_spec E fun data => newHeaderMatcher_spec E hhm data.md
  | .urlPath path, m, h => by
    simp only [matcherFromPrincipal, Except.bind_eq_ok_iff, Except.pure_eq_ok,
      Except.ok.injEq] at h
    obtain ⟨sm, hsm, rfl⟩ := h
    cases path with
    | none => simp [newURLPathMatcher, StringMatcherFromProto] at hsm
    | some sp =>
      have hspec := StringMatcherFromProto_spec E
        (Except.mapError_eq_ok_iff.mp (show newURLPathMatcher E (some sp) = .ok sm from hsm))
      exact leaf_spec E fun data => by simp [Matcher.match, Principal.Holds, hspec]
  | .notId p, m, h => by
    simp only [matcherFromPrincipal, Except.bind_eq_ok_iff, Except.pure_eq_ok,
      Except.ok.injEq] at h
    obtain ⟨inner, hinner, mm, hfirst, rfl⟩ := h
    obtain ⟨hsome, hspec⟩ := matcherFromPrincipal_spec hinner
    cases inner with
    | none => cases hfirst
    | some im =>
      simp only [Option.toList_some, firstMatcher, Except.ok.injEq] at hfirst
      subst hfirst
      exact leaf_spec E fun data => by
        rw [Matcher.match, Principal.Holds, ← hspec im rfl data]
        simp
  | .sourceIp _, m, h => by
    simp only [matcherFromPrincipal, Except.ok.injEq] at h
    subst h
    simp [Principal.Supported]
  | .metadata, m, h => by
    simp only [matcherFromPrincipal, Except.ok.injEq] at h
    subst h
    simp [Principal.Supported]
  | .unset, m, h => by
    simp only [matcherFromPrincipal, Except.ok.injEq] at h
    subst h
    simp [Principal.Supported]

theorem matchersFromPrincipals_spec : ∀ {ps : List Principal} {ms : List (Matcher E.Expr)},
    matchersFromPrincipals E ps = .ok ms → ∀ data,
      (Matcher.matchAll E ms data = true ↔ Principal.AllHold E data ps) ∧
        (Matcher.matchAny E ms data = true ↔ Principal.SomeHolds E data ps)
  | [], ms, h, data => by
    simp only [matchersFromPrincipals, Except.ok.injEq] at h
    subst h
    simp [Matcher.matchAll, Matcher.matchAny, Principal.AllHold, Principal.SomeHolds]
  | p :: ps, ms, h, data => by
    simp only [matchersFromPrincipals, Except.bind_eq_ok_iff, Except.pure_eq_ok,
      Except.ok.injEq] at h
    obtain ⟨m, hm, ms', hms', rfl⟩ := h
    obtain ⟨hsome, hspec⟩ := matcherFromPrincipal_spec hm
    have ih := matchersFromPrincipals_spec hms' data
    cases m with
    | none =>
      have hns : p.Supported = false := by simpa using hsome.symm
      simp [Principal.AllHold, Principal.SomeHolds, hns, ih]
    | some mm =>
      have hs : p.Supported = true := by simpa using hsome.symm
      simp [Matcher.matchAll, Matcher.matchAny, Principal.AllHold, Principal.SomeHolds, hs,
        hspec mm rfl data, ih]
end

/-! ## Policies, engines and the chain -/

/-- A policy matches when some supported permission and some supported principal hold. -/
def Policy.Matches (policy : Policy) (data : RPCData) : Prop :=
  (∃ r ∈ policy.permissions, r.Supported = true ∧ r.Holds E data) ∧
    ∃ p ∈ policy.principals, p.Supported = true ∧ p.Holds E data

theorem newPolicyMatcher_spec {policy : Policy} {pm : PolicyMatcher E.Expr}
    (h : newPolicyMatcher E policy = .ok pm) (data : RPCData) :
    pm.match E data = true ↔ policy.Matches E data := by
  simp only [newPolicyMatcher, Except.bind_eq_ok_iff, Except.pure_eq_ok, Except.ok.injEq] at h
  obtain ⟨perms, hperms, princs, hprincs, rfl⟩ := h
  have hr := (matchersFromPermissions_spec E hperms data).2
  have hp := (matchersFromPrincipals_spec E hprincs data).2
  rw [PolicyMatcher.match, Bool.and_eq_true, hr, hp, Permission.someHolds_iff,
    Principal.someHolds_iff, Policy.Matches]

/-- A compiled policy map: the same names, each bound to a matcher that evaluates to the meaning
of its policy. -/
def CompiledAs (ps : List (String × Policy)) (cps : List (String × PolicyMatcher E.Expr)) : Prop :=
  List.Forall₂ (fun p c => p.1 = c.1 ∧ ∀ data, c.2.match E data = true ↔ p.2.Matches E data)
    ps cps

theorem compilePolicies_spec : ∀ {ps : List (String × Policy)}
    {cps : List (String × PolicyMatcher E.Expr)},
    compilePolicies E ps = .ok cps → CompiledAs E ps cps
  | [], cps, h => by
    simp only [compilePolicies, Except.ok.injEq] at h
    subst h
    exact List.Forall₂.nil
  | (name, policy) :: ps, cps, h => by
    simp only [compilePolicies, Except.bind_eq_ok_iff, Except.pure_eq_ok, Except.ok.injEq] at h
    obtain ⟨pm, hpm, cps', hcps', rfl⟩ := h
    exact List.Forall₂.cons ⟨rfl, newPolicyMatcher_spec E hpm⟩ (compilePolicies_spec hcps')

/-- Some policy of a compiled map matches exactly when some policy of the config does. -/
theorem compiledAs_any_iff {ps : List (String × Policy)}
    {cps : List (String × PolicyMatcher E.Expr)} (h : CompiledAs E ps cps) (data : RPCData) :
    (∃ c ∈ cps, c.2.match E data = true) ↔ ∃ p ∈ ps, p.2.Matches E data := by
  induction h with
  | nil => simp
  | cons hpc _ ih =>
    obtain ⟨-, hmatch⟩ := hpc
    simp [hmatch, ih]

/-- An engine realizes a config when it has the config's action and, in some iteration order,
its compiled policies. -/
def Realizes (c : RBAC) (e : Engine E.Expr) : Prop :=
  e.action = c.action ∧ ∃ cps, CompiledAs E c.policies cps ∧ e.policies.Perm cps

theorem newEngine_realizes {c : RBAC} {e : Engine E.Expr} (h : newEngine E c = .ok e) :
    Realizes E c e := by
  unfold newEngine at h
  split at h
  · cases h
  · obtain ⟨cps, hcps, rfl⟩ := Except.map_eq_ok_iff.mp h
    exact ⟨rfl, cps, compilePolicies_spec E hcps, List.Perm.refl _⟩

/-- Iterating an engine's policy map in another order gives an engine that realizes the same
config. -/
theorem Realizes.reorder {c : RBAC} {e e' : Engine E.Expr} (h : Realizes E c e)
    (hact : e'.action = e.action) (hperm : e'.policies.Perm e.policies) : Realizes E c e' := by
  obtain ⟨hc, cps, hcps, hp⟩ := h
  exact ⟨hact.trans hc, cps, hcps, hperm.trans hp⟩

/-- Whether `findMatchingPolicy` finds a policy does not depend on the iteration order: it does
exactly when some policy of the config matches. -/
theorem findMatchingPolicy_isSome_iff {c : RBAC} {e : Engine E.Expr} (h : Realizes E c e)
    (data : RPCData) :
    (e.findMatchingPolicy E data).isSome ↔ ∃ p ∈ c.policies, p.2.Matches E data := by
  obtain ⟨-, cps, hcps, hperm⟩ := h
  rw [← compiledAs_any_iff E hcps data, Engine.findMatchingPolicy, Option.isSome_map,
    List.find?_isSome]
  constructor
  · rintro ⟨x, hx, hm⟩
    exact ⟨x, hperm.subset hx, hm⟩
  · rintro ⟨x, hx, hm⟩
    exact ⟨x, hperm.symm.subset hx, hm⟩

/-- The decision an RBAC config asks for: an ALLOW config needs a matching policy, a DENY
config needs none. -/
def Passes (c : RBAC) (data : RPCData) : Prop :=
  (c.action = .allow ∧ ∃ p ∈ c.policies, p.2.Matches E data) ∨
    (c.action = .deny ∧ ¬ ∃ p ∈ c.policies, p.2.Matches E data)

/-- One engine of the chain lets the RPC on to the next when its action and whether a policy
matched agree: an ALLOW engine needs a match, a DENY engine needs none. -/
theorem checkEngines_cons_eq_none (data : RPCData) (e : Engine E.Expr) (es : List (Engine E.Expr)) :
    checkEngines E data (e :: es) = none ↔
      ((e.action = .allow ∧ (e.findMatchingPolicy E data).isSome = true) ∨
        (e.action = .deny ∧ (e.findMatchingPolicy E data).isSome = false)) ∧
      checkEngines E data es = none := by
  have hlog := e.action_ne_log
  cases hf : e.findMatchingPolicy E data <;> cases ha : e.action <;> simp_all [checkEngines]

theorem checkEngines_eq_none_iff {cs : List RBAC} {es : List (Engine E.Expr)}
    (h : List.Forall₂ (Realizes E) cs es) (data : RPCData) :
    checkEngines E data es = none ↔ ∀ c ∈ cs, Passes E c data := by
  induction h with
  | nil => simp [checkEngines]
  | @cons c e cs es hce _ ih =>
    have hfind := findMatchingPolicy_isSome_iff E hce data
    have hact : e.action = c.action := hce.1
    rw [checkEngines_cons_eq_none, ih, List.forall_mem_cons]
    refine and_congr_left' ?_
    rw [Passes, ← hact, ← hfind, Bool.not_eq_true]

theorem newChainEngine_realizes : ∀ {cs : List RBAC} {ce : ChainEngine E.Expr},
    NewChainEngine E cs = .ok ce → List.Forall₂ (Realizes E) cs ce.chainedEngines
  | [], ce, h => by
    simp only [NewChainEngine, Except.ok.injEq] at h
    subst h
    exact List.Forall₂.nil
  | c :: cs, ce, h => by
    simp only [NewChainEngine, Except.bind_eq_ok_iff, Except.pure_eq_ok, Except.ok.injEq] at h
    obtain ⟨e, he, ce', hce', rfl⟩ := h
    exact List.Forall₂.cons (newEngine_realizes E he) (newChainEngine_realizes hce')

/-- Engines of a chain that realizes some configs still realize them with their policy maps
iterated in other orders. -/
theorem forall₂_realizes_reorder {cs : List RBAC} {es es' : List (Engine E.Expr)}
    (h : List.Forall₂ (Realizes E) cs es)
    (ho : List.Forall₂ (fun e e' => e'.action = e.action ∧ e'.policies.Perm e.policies) es es') :
    List.Forall₂ (Realizes E) cs es' := by
  induction h generalizing es' with
  | nil =>
    cases ho
    exact List.Forall₂.nil
  | cons hce _ ih =>
    cases ho with
    | cons ho₁ ho₂ => exact List.Forall₂.cons (hce.reorder E ho₁.1 ho₁.2) (ih ho₂)

/-- **The RBAC decision follows the policy semantics.**  For every list of configs that
`NewChainEngine` accepts, and for the engines with their policy maps iterated in any order,
`IsAuthorized` returns nil exactly when every config passes: an ALLOW config with some matching
policy, a DENY config with none. -/
theorem isAuthorized_eq_none_iff {cs : List RBAC} {ce : ChainEngine E.Expr}
    (hce : NewChainEngine E cs = .ok ce) (ce' : ChainEngine E.Expr)
    (horder : List.Forall₂ (fun e e' => e'.action = e.action ∧ e'.policies.Perm e.policies)
      ce.chainedEngines ce'.chainedEngines)
    (data : RPCData) :
    ce'.IsAuthorized E data = none ↔ ∀ c ∈ cs, Passes E c data := by
  have hreal' := forall₂_realizes_reorder E (newChainEngine_realizes E hce) horder
  exact checkEngines_eq_none_iff E hreal' data

theorem isAuthorized_denyHeader_then_allowAny :
    ∃ ce, NewChainEngine Regexp.Engine.literal
        [⟨.deny, [("block", ⟨[.any], [.header ⟨"x-block", false, .presentMatch true⟩]⟩)]⟩,
         ⟨.allow, [("all", ⟨[.any], [.any]⟩)]⟩] = .ok ce ∧
      (ce.IsAuthorized Regexp.Engine.literal
          ⟨[("x-block", ["1"])], "10.0.0.1:443", "/pkg.Svc/Get", 443, "10.0.0.2:443", "", []⟩ = none ↔
        ∀ c ∈ [(⟨.deny, [("block", ⟨[.any], [.header ⟨"x-block", false, .presentMatch true⟩]⟩)]⟩ : RBAC),
         ⟨.allow, [("all", ⟨[.any], [.any]⟩)]⟩],
          Passes Regexp.Engine.literal c
            ⟨[("x-block", ["1"])], "10.0.0.1:443", "/pkg.Svc/Get", 443, "10.0.0.2:443", "", []⟩) :=
  ⟨_, rfl, isAuthorized_eq_none_iff _ rfl _ (.cons ⟨rfl, .refl _⟩ (.cons ⟨rfl, .refl _⟩ .nil)) _⟩

/-! ## When compilation succeeds

Compilation succeeds as soon as every part of the config does; a config built by another
component (such as the SDK translator) is shown to compile through these lemmas. -/

theorem matchersFromPermissions_ok : ∀ {rs : List Permission},
    (∀ r ∈ rs, ∃ m, matcherFromPermission E r = .ok m) →
      ∃ ms, matchersFromPermissions E rs = .ok ms
  | [], _ => ⟨[], rfl⟩
  | r :: rs, h => by
    obtain ⟨m, hm⟩ := h r List.mem_cons_self
    obtain ⟨ms, hms⟩ := matchersFromPermissions_ok fun r' hr' => h r' (List.mem_cons_of_mem _ hr')
    exact ⟨m.toList ++ ms, by simp [matchersFromPermissions, hm, hms]⟩

theorem matchersFromPrincipals_ok : ∀ {ps : List Principal},
    (∀ p ∈ ps, ∃ m, matcherFromPrincipal E p = .ok m) →
      ∃ ms, matchersFromPrincipals E ps = .ok ms
  | [], _ => ⟨[], rfl⟩
  | p :: ps, h => by
    obtain ⟨m, hm⟩ := h p List.mem_cons_self
    obtain ⟨ms, hms⟩ := matchersFromPrincipals_ok fun p' hp' => h p' (List.mem_cons_of_mem _ hp')
    exact ⟨m.toList ++ ms, by simp [matchersFromPrincipals, hm, hms]⟩

theorem newPolicyMatcher_ok {policy : Policy}
    (hr : ∀ r ∈ policy.permissions, ∃ m, matcherFromPermission E r = .ok m)
    (hp : ∀ p ∈ policy.principals, ∃ m, matcherFromPrincipal E p = .ok m) :
    ∃ pm, newPolicyMatcher E policy = .ok pm := by
  obtain ⟨rs, hrs⟩ := matchersFromPermissions_ok E hr
  obtain ⟨ps, hps⟩ := matchersFromPrincipals_ok E hp
  exact ⟨⟨rs, ps⟩, by simp [newPolicyMatcher, hrs, hps]⟩

theorem compilePolicies_ok : ∀ {ps : List (String × Policy)},
    (∀ p ∈ ps, ∃ pm, newPolicyMatcher E p.2 = .ok pm) →
      ∃ cps, compilePolicies E ps = .ok cps
  | [], _ => ⟨[], rfl⟩
  | (name, policy) :: ps, h => by
    obtain ⟨pm, hpm⟩ := h (name, policy) List.mem_cons_self
    obtain ⟨cps, hcps⟩ := compilePolicies_ok fun p hp => h p (List.mem_cons_of_mem _ hp)
    exact ⟨(name, pm) :: cps, by simp [compilePolicies, hpm, hcps]⟩

theorem newChainEngine_ok : ∀ {cs : List RBAC},
    (∀ c ∈ cs, c.action ≠ .log ∧ ∀ p ∈ c.policies, ∃ pm, newPolicyMatcher E p.2 = .ok pm) →
      ∃ ce, NewChainEngine E cs = .ok ce
  | [], _ => ⟨⟨[]⟩, rfl⟩
  | c :: cs, h => by
    obtain ⟨hlog, hps⟩ := h c List.mem_cons_self
    obtain ⟨cps, hcps⟩ := compilePolicies_ok E hps
    obtain ⟨ce, hce⟩ := newChainEngine_ok fun c' hc' => h c' (List.mem_cons_of_mem _ hc')
    refine ⟨⟨⟨cps, c.action, hlog⟩ :: ce.chainedEngines⟩, ?_⟩
    simp [NewChainEngine, newEngine, hlog, hcps, hce]

/-! ## Where compilation panics

Nothing before `NewChainEngine` rejects a `not_rule` or a `not_id` whose inner rule is a no-op
(`metadata`, `requested_server_name`, `source_ip`, or an unset oneof): the inner list then
compiles to no matcher and `mList[0]` reads an empty list.  A failure of one part of a config is
the failure of the whole, in the order the loops compile the parts. -/

/-- A `not_rule` over a rule that compiles to no matcher panics. -/
theorem matcherFromPermission_notRule_panics {r : Permission}
    (h : matcherFromPermission E r = .ok none) :
    matcherFromPermission E (.notRule r) = .error (.panic "index out of range [0] with length 0") := by
  simp only [matcherFromPermission, h, Except.ok_bind, Option.toList_none, firstMatcher,
    Except.error_bind]

/-- A `not_id` over a principal that compiles to no matcher panics. -/
theorem matcherFromPrincipal_notId_panics {p : Principal}
    (h : matcherFromPrincipal E p = .ok none) :
    matcherFromPrincipal E (.notId p) = .error (.panic "index out of range [0] with length 0") := by
  simp only [matcherFromPrincipal, h, Except.ok_bind, Option.toList_none, firstMatcher,
    Except.error_bind]

theorem matchersFromPermissions_cons_of_error {r : Permission} {f : Failure}
    (h : matcherFromPermission E r = .error f) (rs : List Permission) :
    matchersFromPermissions E (r :: rs) = .error f := by
  rw [matchersFromPermissions, h, Except.error_bind]

theorem matchersFromPrincipals_cons_of_error {p : Principal} {f : Failure}
    (h : matcherFromPrincipal E p = .error f) (ps : List Principal) :
    matchersFromPrincipals E (p :: ps) = .error f := by
  rw [matchersFromPrincipals, h, Except.error_bind]

/-- The permissions are compiled first: their failure is the policy's. -/
theorem newPolicyMatcher_of_permissions_error {policy : Policy} {f : Failure}
    (h : matchersFromPermissions E policy.permissions = .error f) :
    newPolicyMatcher E policy = .error f := by
  rw [newPolicyMatcher, h, Except.error_bind]

/-- Once the permissions compile, a failure of the principals is the policy's. -/
theorem newPolicyMatcher_of_principals_error {policy : Policy} {f : Failure}
    {ms : List (Matcher E.Expr)} (hr : matchersFromPermissions E policy.permissions = .ok ms)
    (h : matchersFromPrincipals E policy.principals = .error f) :
    newPolicyMatcher E policy = .error f := by
  rw [newPolicyMatcher, hr, Except.ok_bind, h, Except.error_bind]

theorem compilePolicies_cons_of_error {name : String} {policy : Policy} {f : Failure}
    (h : newPolicyMatcher E policy = .error f) (rest : List (String × Policy)) :
    compilePolicies E ((name, policy) :: rest) = .error f := by
  rw [compilePolicies, h, Except.error_bind]

/-- A config with an ALLOW or DENY action whose policies fail to compile fails the chain. -/
theorem NewChainEngine_cons_of_error {c : RBAC} {f : Failure} (hlog : c.action ≠ .log)
    (h : compilePolicies E c.policies = .error f) (cs : List RBAC) :
    NewChainEngine E (c :: cs) = .error f := by
  rw [NewChainEngine, newEngine, dif_neg hlog, h]
  rfl

/-- **`NewChainEngine` panics on a negated no-op.**  Whatever its action, the config's other
policies and the configs after it: a config whose first policy starts its permissions with
`not_rule { metadata }`, or has no permissions and starts its principals with
`not_id { metadata }`, makes `NewChainEngine` panic at `mList[0]` unless the action is LOG,
which is rejected first. -/
theorem NewChainEngine_not_metadata_panics (action : RBACAction) (name : String)
    (ps : List Permission) (prs : List Principal) (rest : List (String × Policy))
    (cs : List RBAC) :
    NewChainEngine E ({ action, policies := (name, ⟨.notRule .metadata :: ps, prs⟩) :: rest } :: cs) =
        (if action = .log then .error (.error "unsupported action LOG")
        else .error (.panic "index out of range [0] with length 0")) ∧
      NewChainEngine E ({ action, policies := (name, ⟨[], .notId .metadata :: prs⟩) :: rest } :: cs) =
        (if action = .log then .error (.error "unsupported action LOG")
        else .error (.panic "index out of range [0] with length 0")) := by
  by_cases hlog : action = .log
  · subst hlog
    exact ⟨rfl, rfl⟩
  · rw [if_neg hlog]
    -- the inner `metadata` compiles to nothing, so the negation panics
    have hperm := matchersFromPermissions_cons_of_error E
      (matcherFromPermission_notRule_panics E (r := .metadata) rfl) ps
    have hprin := matchersFromPrincipals_cons_of_error E
      (matcherFromPrincipal_notId_panics E (p := .metadata) rfl) prs
    exact ⟨NewChainEngine_cons_of_error E hlog
        (compilePolicies_cons_of_error E (newPolicyMatcher_of_permissions_error E hperm) rest) cs,
      NewChainEngine_cons_of_error E hlog
        (compilePolicies_cons_of_error E (newPolicyMatcher_of_principals_error E rfl hprin) rest) cs⟩

/-- Every status `IsAuthorized` returns is PERMISSION_DENIED. -/
theorem checkEngines_code (data : RPCData) :
    ∀ {es : List (Engine E.Expr)} {st : Status}, checkEngines E data es = some st →
      st.code = .permissionDenied
  | [], st, h => by simp [checkEngines] at h
  | e :: es, st, h => by
    unfold checkEngines at h
    split at h
    · cases h
      rfl
    · cases h
      rfl
    · exact checkEngines_code data h

end Rbac
end GrpcGo
