import GrpcGo.Lib.ExceptBind
import GrpcGo.Lib.ListCount
import GrpcGo.Xds.Matcher

/-!
# The match of a route (`xds/internal/xdsclient/xds.go`, `matcher.go`, `matcher_path.go`)

`routesProtoToSlice` reads the `match` of each route proto into the matcher fields of a `Route`:
its path specifier, its case sensitivity, its header matchers and its runtime fraction.
`RouteToMatcher` compiles those fields into a `CompositeMatcher`, which passes an RPC when the
path matcher, every header matcher and the fraction matcher pass.

The runtime fraction is scaled to parts per million in `uint32` (`n *= 10000` for a percentage,
`n *= 100` for parts per ten thousand), and the fraction matcher passes when the value
`RandInt63n(1000000)` drew is at most the fraction.

* `CompositeMatcher.Match_iff`: what a compiled route matches.
* `routeFraction_toNat`: the fraction a route carries, the numerator scaled modulo `2 ^ 32`.
* `countP_fraction_match`: the fraction matcher passes for `min (fraction + 1) 1000000` of the
  million values the random draw can take: one more than the fraction, so a route of fraction
  zero still passes one RPC in a million (`zero_fraction_matches`).

The text `%+v` prints of a route proto, which its error messages carry, is an argument; what
`metadata.FromOutgoingContext` and `grpcutil.ExtraMetadata` give of an RPC's context is its
metadata `md`; the random draw is an argument.
-/

namespace GrpcGo
namespace XdsClient

open GoStd XdsMatcher Except

/-! ## The protos -/

/-- `FractionalPercent_DenominatorType`: its three values, and any other number the enum field
of a proto may hold. -/
inductive DenominatorType where
  | HUNDRED
  | TEN_THOUSAND
  | MILLION
  | other (v : Int)
  deriving DecidableEq, Repr

/-- A `FractionalPercent` proto. -/
structure FractionalPercent where
  Numerator : UInt32
  Denominator : DenominatorType
  deriving DecidableEq, Repr

/-- The `path_specifier` oneof of a `RouteMatch`; `other` is a kind the code does not know, and
`unset` an empty oneof. -/
inductive PathSpecifier where
  | pfx (pfx : String)
  | path (path : String)
  | safeRegex (regex : String)
  | other
  | unset
  deriving DecidableEq, Repr

/-- The `header_match_specifier` oneof of a `HeaderMatcher` proto; `other` is a kind the code does
not know, or an empty oneof. -/
inductive HeaderMatchSpecifier where
  | exactMatch (exact : String)
  | safeRegexMatch (regex : String)
  | rangeMatch (start stop : Int)
  | presentMatch (present : Bool)
  | prefixMatch (pfx : String)
  | suffixMatch (sfx : String)
  | other
  deriving DecidableEq, Repr

/-- A `HeaderMatcher` proto. -/
structure HeaderMatcherProto where
  name : String
  specifier : HeaderMatchSpecifier
  invertMatch : Bool
  deriving DecidableEq, Repr

/-- The fields of a `RouteMatch` proto that `routesProtoToSlice` reads. -/
structure RouteMatchProto where
  hasQueryParameters : Bool
  pathSpecifier : PathSpecifier
  caseSensitive : Option Bool
  headers : List HeaderMatcherProto
  runtimeFraction : Option FractionalPercent
  deriving DecidableEq, Repr

/-! ## `routesProtoToSlice`: the matcher fields of a `Route` -/

/-- `xdsclient.HeaderMatcher`: the name, and the one match field `routesProtoToSlice` set. -/
structure HeaderMatcherFields (R : Type) where
  Name : String
  InvertMatch : Option Bool
  ExactMatch : Option String
  RegexMatch : Option R
  PrefixMatch : Option String
  SuffixMatch : Option String
  RangeMatch : Option (Int × Int)
  PresentMatch : Option Bool

/-- The matcher fields of `xdsclient.Route`. -/
structure Route (R : Type) where
  Path : Option String
  Prefix : Option String
  Regex : Option R
  CaseInsensitive : Bool
  Headers : List (HeaderMatcherFields R)
  Fraction : Option UInt32

variable (E : Regexp.Engine)

/-- The `HeaderMatcher` that `routesProtoToSlice` makes of a header matcher proto of the route
printed `r`. -/
def headerMatcherProtoToFields (r : String) (h : HeaderMatcherProto) :
    Except String (HeaderMatcherFields E.Expr) :=
  let header : HeaderMatcherFields E.Expr :=
    ⟨h.name, some h.invertMatch, none, none, none, none, none, none⟩
  match h.specifier with
  | .exactMatch s => .ok { header with ExactMatch := some s }
  | .safeRegexMatch regex =>
    match E.compile regex with
    | .ok re => .ok { header with RegexMatch := some re }
    | .error _ => .error ("route " ++ r ++ " contains an invalid regex " ++ Strconv.quote regex)
  | .rangeMatch start stop => .ok { header with RangeMatch := some (start, stop) }
  | .presentMatch p => .ok { header with PresentMatch := some p }
  | .prefixMatch s => .ok { header with PrefixMatch := some s }
  | .suffixMatch s => .ok { header with SuffixMatch := some s }
  -- Go appends the matcher's `%+v` text to this message.
  | .other => .error ("route " ++ r ++ " has an unrecognized header matcher: ")

/-- The runtime fraction of a route in parts per million: the numerator scaled in `uint32` by the
denominator, and left as it is for any other denominator. -/
def runtimeFraction (fr : FractionalPercent) : UInt32 :=
  match fr.Denominator with
  | .HUNDRED => fr.Numerator * 10000
  | .TEN_THOUSAND => fr.Numerator * 100
  | .MILLION => fr.Numerator
  | .other _ => fr.Numerator

/-- The route that `routesProtoToSlice` starts from for the path specifier of the route printed
`r`. -/
def pathSpecifierToRoute (r : String) : PathSpecifier → Except String (Route E.Expr)
  | .pfx p => .ok ⟨none, some p, none, false, [], none⟩
  | .path p => .ok ⟨some p, none, none, false, [], none⟩
  | .safeRegex regex =>
    match E.compile regex with
    | .ok re => .ok ⟨none, none, some re, false, [], none⟩
    | .error _ => .error ("route " ++ r ++ " contains an invalid regex " ++ Strconv.quote regex)
  | .unset => .error ("route " ++ r ++ " doesn't have a path specifier")
  -- Go appends the specifier's `%+v` text to this message.
  | .other => .error ("route " ++ r ++ " has an unrecognized path specifier: ")

/-- The part of `routesProtoToSlice`'s loop that reads the `match` of the route printed `r`: the
matcher fields of the route, `none` for a route with query parameters, which is skipped. -/
def parseRouteMatch (r : String) (m : Option RouteMatchProto) :
    Except String (Option (Route E.Expr)) := do
  let some m := m | .error ("route " ++ r ++ " doesn't have a match")
  if m.hasQueryParameters then return none
  let pathRoute ← pathSpecifierToRoute E r m.pathSpecifier
  let caseInsensitive := match m.caseSensitive with
    | some caseSensitive => !caseSensitive
    | none => false
  let headers ← m.headers.mapM (headerMatcherProtoToFields E r)
  return some { pathRoute with
    CaseInsensitive := caseInsensitive
    Headers := headers
    Fraction := m.runtimeFraction.map runtimeFraction }

/-! ## `RouteToMatcher` and `CompositeMatcher` -/

/-- The path matchers of `matcher_path.go`.  The exact and prefix matchers hold their path upper
cased when they ignore case. -/
inductive pathMatcher (R : Type) where
  | exact (fullPath : String) (caseInsensitive : Bool)
  | pfx (pfx : String) (caseInsensitive : Bool)
  | regex (re : R)

/-- `newPathExactMatcher(p, caseInsensitive)`. -/
def newPathExactMatcher (p : String) (caseInsensitive : Bool) : pathMatcher E.Expr :=
  .exact (if caseInsensitive then Strings.toUpper p else p) caseInsensitive

/-- `newPathPrefixMatcher(p, caseInsensitive)`. -/
def newPathPrefixMatcher (p : String) (caseInsensitive : Bool) : pathMatcher E.Expr :=
  .pfx (if caseInsensitive then Strings.toUpper p else p) caseInsensitive

/-- `match(path)` of each path matcher. -/
def pathMatcher.match : pathMatcher E.Expr → String → Bool
  | .exact fullPath caseInsensitive, path =>
    if caseInsensitive then fullPath == Strings.toUpper path else fullPath == path
  | .pfx p caseInsensitive, path =>
    if caseInsensitive then Strings.hasPrefix (Strings.toUpper path) p
    else Strings.hasPrefix path p
  | .regex re, path => Grpcutil.FullMatchWithRegex E re path

/-- `fractionMatcher`: the fraction in parts per million, an `int64`. -/
structure fractionMatcher where
  fraction : Int
  deriving DecidableEq, Repr

/-- `newFractionMatcher(fraction)`. -/
def newFractionMatcher (fraction : UInt32) : fractionMatcher :=
  ⟨fraction.toNat⟩

/-- `fm.match()`, for the value `t` that `RandInt63n(1000000)` drew. -/
def fractionMatcher.match (fm : fractionMatcher) (t : Int) : Bool :=
  decide (t ≤ fm.fraction)

/-- `CompositeMatcher`. -/
structure CompositeMatcher (R : Type) where
  pm : pathMatcher R
  hms : List (HeaderMatcher R)
  fm : Option fractionMatcher

/-- `a.Match(info)`, for an RPC of method `method` whose context carries the metadata `md`, with
`t` drawn for the fraction matcher. -/
def CompositeMatcher.Match (a : CompositeMatcher E.Expr) (method : String) (md : MD) (t : Int) :
    Bool :=
  if !a.pm.match E method then false
  else if a.hms.any (fun m => !m.Match E md) then false
  else
    match a.fm with
    | some fm => fm.match t
    | none => true

/-- The `HeaderMatcher` that `RouteToMatcher` compiles of a header's fields: the first match field
set, where an empty exact, prefix or suffix value counts as unset. -/
def headerFieldsToMatcher (h : HeaderMatcherFields E.Expr) : Except String (HeaderMatcher E.Expr) :=
  let invert := h.InvertMatch == some true
  match h.ExactMatch.filter (· != ""), h.RegexMatch, h.PrefixMatch.filter (· != ""),
      h.SuffixMatch.filter (· != ""), h.RangeMatch, h.PresentMatch with
  | some e, _, _, _, _, _ => .ok (.exact h.Name e invert)
  | none, some re, _, _, _, _ => .ok (.regex h.Name re invert)
  | none, none, some p, _, _, _ => .ok (.pfx h.Name p invert)
  | none, none, none, some s, _, _ => .ok (.sfx h.Name s invert)
  | none, none, none, none, some (start, stop), _ => .ok (.range h.Name start stop invert)
  | none, none, none, none, none, some present => .ok (NewHeaderPresentMatcher h.Name present invert)
  | none, none, none, none, none, none => .error "illegal route: missing header_match_specifier"

/-- The path matcher of `RouteToMatcher`: a regular expression first, then a full path, then a
prefix. -/
def routePathMatcher (r : Route E.Expr) : Except String (pathMatcher E.Expr) :=
  match r.Regex, r.Path, r.Prefix with
  | some re, _, _ => .ok (.regex re)
  | none, some p, _ => .ok (newPathExactMatcher E p r.CaseInsensitive)
  | none, none, some p => .ok (newPathPrefixMatcher E p r.CaseInsensitive)
  | none, none, none => .error "illegal route: missing path_matcher"

/-- `RouteToMatcher(r)`. -/
def RouteToMatcher (r : Route E.Expr) : Except String (CompositeMatcher E.Expr) := do
  let pm ← routePathMatcher E r
  let headerMatchers ← r.Headers.mapM (headerFieldsToMatcher E)
  return ⟨pm, headerMatchers, r.Fraction.map newFractionMatcher⟩

/-! ## What a compiled route matches -/

/-- A compiled route passes an RPC when its path matcher, each of its header matchers and its
fraction matcher, if any, pass. -/
theorem CompositeMatcher.Match_iff (a : CompositeMatcher E.Expr) (method : String) (md : MD)
    (t : Int) :
    a.Match E method md t = true ↔
      a.pm.match E method = true ∧ (∀ m ∈ a.hms, m.Match E md = true) ∧
        ∀ fm ∈ a.fm, fm.match t = true := by
  unfold CompositeMatcher.Match
  by_cases hpm : a.pm.match E method = true
  · rw [if_neg (by simp [hpm])]
    by_cases hhms : a.hms.any (fun m => !m.Match E md) = true
    · -- a header matcher fails
      obtain ⟨m, hm, hneg⟩ := List.any_eq_true.mp hhms
      rw [if_pos hhms]
      simp only [Bool.false_eq_true, false_iff, not_and]
      intro _ hall
      simp [hall m hm] at hneg
    · have hall : ∀ m ∈ a.hms, m.Match E md = true := by simpa using hhms
      rw [if_neg hhms]
      cases a.fm with
      | none => exact iff_of_true rfl ⟨hpm, hall, fun _ h => by cases h⟩
      | some fm =>
        constructor
        · intro h
          exact ⟨hpm, hall, fun fm' hfm' => by cases hfm'; exact h⟩
        · intro h
          exact h.2.2 fm rfl
  · simp [hpm]

/-- The fraction a parsed route carries: the numerator scaled to parts per million, modulo
`2 ^ 32`. -/
theorem routeFraction_toNat (fr : FractionalPercent) :
    (runtimeFraction fr).toNat = fr.Numerator.toNat *
      (match fr.Denominator with
        | .HUNDRED => 10000
        | .TEN_THOUSAND => 100
        | _ => 1) % 2 ^ 32 := by
  unfold runtimeFraction
  have hlt := fr.Numerator.toNat_lt
  cases fr.Denominator <;> simp [UInt32.toNat_mul, Nat.mod_eq_of_lt hlt]

/-- Of the million values `RandInt63n(1000000)` can draw, a fraction matcher passes for one more
than its fraction, up to all of them. -/
theorem countP_fraction_match (fraction : UInt32) :
    (List.range 1000000).countP (fun t : Nat => (newFractionMatcher fraction).match (t : Int)) =
      min (fraction.toNat + 1) 1000000 := by
  have hmatch : (fun t : Nat => (newFractionMatcher fraction).match (t : Int)) =
      fun t => decide (t ≤ fraction.toNat) := by
    funext t
    simp [fractionMatcher.match, newFractionMatcher]
  rw [hmatch]
  exact List.countP_range_le_eq fraction.toNat 1000000

/-! ## The share of RPCs a route's fraction passes -/

/-- A parsed route carries the runtime fraction of its proto, scaled. -/
theorem parseRouteMatch_fraction {r : String} {m : RouteMatchProto} {route : Route E.Expr}
    (h : parseRouteMatch E r (some m) = .ok (some route)) :
    route.Fraction = m.runtimeFraction.map runtimeFraction := by
  unfold parseRouteMatch at h
  by_cases hq : m.hasQueryParameters = true
  · simp [hq] at h
  · simp only [hq, Bool.false_eq_true, ↓reduceIte, bind_eq_ok_iff] at h
    obtain ⟨_, _, _, _, h⟩ := h
    cases h
    rfl

/-- A compiled route's fraction matcher is made of the route's fraction. -/
theorem RouteToMatcher_fm {route : Route E.Expr} {cm : CompositeMatcher E.Expr}
    (h : RouteToMatcher E route = .ok cm) : cm.fm = route.Fraction.map newFractionMatcher := by
  unfold RouteToMatcher at h
  simp only [bind_eq_ok_iff] at h
  obtain ⟨_, _, _, _, h⟩ := h
  cases h
  rfl

/-- **The share a route's fraction passes.**  For an RPC that passes the path and header matchers
of a route parsed with a runtime fraction and compiled, the route passes for one more of the
million values of the draw than the fraction scaled in `uint32`, up to all of them. -/
theorem route_fraction_count {r : String} {m : RouteMatchProto} {fr : FractionalPercent}
    (hfr : m.runtimeFraction = some fr) {route : Route E.Expr} {cm : CompositeMatcher E.Expr}
    (hparse : parseRouteMatch E r (some m) = .ok (some route))
    (hcomp : RouteToMatcher E route = .ok cm) (method : String) (md : MD)
    (hpass : cm.pm.match E method = true ∧ ∀ h ∈ cm.hms, h.Match E md = true) :
    (List.range 1000000).countP (fun t : Nat => cm.Match E method md t) =
      min ((runtimeFraction fr).toNat + 1) 1000000 := by
  have hfm : cm.fm = some (newFractionMatcher (runtimeFraction fr)) := by
    rw [RouteToMatcher_fm E hcomp, parseRouteMatch_fraction E hparse, hfr]
    rfl
  -- the route passes exactly when its fraction matcher does
  have hmatch : (fun t : Nat => cm.Match E method md t) =
      fun t : Nat => (newFractionMatcher (runtimeFraction fr)).match (t : Int) := by
    funext t
    apply Bool.eq_iff_iff.mpr
    rw [CompositeMatcher.Match_iff, hfm]
    exact ⟨fun h => h.2.2 _ rfl, fun h => ⟨hpass.1, hpass.2, fun _ hf => by cases hf; exact h⟩⟩
  rw [hmatch, countP_fraction_match]

/-- A route of the prefix `/` with the runtime fraction `fr` and no headers. -/
def fractionRoute (fr : FractionalPercent) : RouteMatchProto :=
  ⟨false, .pfx "/", none, [], some fr⟩

/-- **A route of fraction zero still matches.**  A route of 0 percent is parsed and compiled into
a matcher that passes an RPC for one of the million values `RandInt63n(1000000)` can draw, and
one of `429497` percent, where every value should pass, for `2705` of them: the numerator wraps
when it is scaled in `uint32`. -/
theorem zero_fraction_matches (E : Regexp.Engine) (method : String) (md : MD) :
    (∃ route cm, parseRouteMatch E "" (some (fractionRoute ⟨0, .HUNDRED⟩)) = .ok (some route) ∧
      RouteToMatcher E route = .ok cm ∧
      (List.range 1000000).countP (fun t : Nat => cm.Match E ("/" ++ method) md t) = 1) ∧
    (∃ route cm, parseRouteMatch E "" (some (fractionRoute ⟨429497, .HUNDRED⟩)) =
        .ok (some route) ∧ RouteToMatcher E route = .ok cm ∧
      (List.range 1000000).countP (fun t : Nat => cm.Match E ("/" ++ method) md t) = 2705) := by
  -- the prefix `/` passes every method under it, and there are no header matchers
  have hpass : (pathMatcher.pfx "/" false : pathMatcher E.Expr).match E ("/" ++ method) = true ∧
      ∀ h ∈ ([] : List (HeaderMatcher E.Expr)), h.Match E md = true :=
    ⟨by simp [pathMatcher.match, Strings.hasPrefix], fun _ h => by cases h⟩
  refine ⟨⟨_, _, rfl, rfl, ?_⟩, ⟨_, _, rfl, rfl, ?_⟩⟩
  · rw [@route_fraction_count E "" (fractionRoute ⟨0, .HUNDRED⟩) _ rfl _ _ rfl rfl _ md hpass]
    rfl
  · rw [@route_fraction_count E "" (fractionRoute ⟨429497, .HUNDRED⟩) _ rfl _ _ rfl rfl _ md hpass]
    rfl

end XdsClient
end GrpcGo
