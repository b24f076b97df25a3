import GrpcGo.Lib.GoStrings
import GrpcGo.Lib.GoRegexp

/-!
# String and header matchers (`internal/xds/matcher`, `internal/grpcutil`)

The internal `StringMatcher` built from an xDS `StringMatcher` proto, and the seven header
matchers that read one key of the request metadata.  Every header matcher first joins the values
of its key with `","` and then tests the joined string; the exact, regex, prefix, suffix and
contains matchers share that shape and differ only in the test, which `headerValueMatch`
takes as a parameter.

Regular expressions come from an engine parameter (`GoStd.Regexp.Engine`); everything else is
computed.
-/

namespace GrpcGo

open GoStd

/-- Metadata, a Go `metadata.MD` (`map[string][]string`), as its list of entries. -/
abbrev MD := List (String × List String)

namespace Grpcutil

variable (E : Regexp.Engine)

/-- `FullMatchWithRegex(re, s)`: the leftmost-longest match of `re` in `s` is as long as `s`. -/
def FullMatchWithRegex (re : E.Expr) (s : String) : Bool :=
  (E.findString re s).length == s.length

end Grpcutil

namespace XdsMatcher

variable (E : Regexp.Engine)

/-! ## The `StringMatcher` proto and its internal form -/

/-- The `match_pattern` oneof of an xDS `StringMatcher` proto.  A `safe_regex` holds the `regex`
field of its `RegexMatcher` message, `none` for a nil message; `unset` is an empty oneof. -/
inductive StringMatchPattern where
  | exact (exact : String)
  | pfx (pfx : String)
  | sfx (sfx : String)
  | safeRegex (regex : Option String)
  | contains (contains : String)
  | unset
  deriving DecidableEq, Repr

/-- An xDS `StringMatcher` proto. -/
structure StringMatcherProto where
  matchPattern : StringMatchPattern
  ignoreCase : Bool
  deriving DecidableEq, Repr

/-- The one match criterion an internal `StringMatcher` has set. -/
inductive MatchKind (R : Type) where
  | exactMatch (exact : String)
  | prefixMatch (pfx : String)
  | suffixMatch (sfx : String)
  | regexMatch (re : R)
  | containsMatch (contains : String)

/-- The internal `StringMatcher`: the criterion `StringMatcherFromProto` set, and `ignoreCase`.
Exact, prefix, suffix and contains values are stored lowered when `ignoreCase` holds. -/
structure StringMatcher (R : Type) where
  kind : MatchKind R
  ignoreCase : Bool

/-- `StringMatcher.Match(input)`. -/
def StringMatcher.Match (sm : StringMatcher E.Expr) (input : String) : Bool :=
  let input := if sm.ignoreCase then Strings.toLower input else input
  match sm.kind with
  | .exactMatch s => input == s
  | .prefixMatch p => Strings.hasPrefix input p
  | .suffixMatch p => Strings.hasSuffix input p
  | .regexMatch re => Grpcutil.FullMatchWithRegex E re input
  | .containsMatch s => Strings.contains input s

/-- `StringMatcherFromProto(matcherProto)`: rejects a nil proto, empty prefix, suffix and contains
values, regular expressions that do not compile and an unset pattern. -/
def StringMatcherFromProto : Option StringMatcherProto → Except String (StringMatcher E.Expr)
  | none => .error "input StringMatcher proto is nil"
  | some p =>
    let low (s : String) : String := if p.ignoreCase then Strings.toLower s else s
    match p.matchPattern with
    | .exact s => .ok ⟨.exactMatch (low s), p.ignoreCase⟩
    | .pfx s =>
      if s = "" then .error "empty prefix is not allowed in StringMatcher"
      else .ok ⟨.prefixMatch (low s), p.ignoreCase⟩
    | .sfx s =>
      if s = "" then .error "empty suffix is not allowed in StringMatcher"
      else .ok ⟨.suffixMatch (low s), p.ignoreCase⟩
    | .safeRegex r =>
      match E.compile (r.getD "") with
      | .ok re => .ok ⟨.regexMatch re, p.ignoreCase⟩
      | .error _ => .error ("safe_regex matcher " ++ Strconv.quote (r.getD "") ++ " is invalid")
    | .contains s =>
      if s = "" then .error "empty contains is not allowed in StringMatcher"
      else .ok ⟨.containsMatch (low s), p.ignoreCase⟩
    -- Go appends the proto's `%+v` text to this message.
    | .unset => .error "unrecognized string matcher"

/-- The meaning of an xDS `StringMatcher` proto on an input: the pattern tested against the
input, both lowered when `ignore_case` is set. -/
def StringMatcherProto.Accepts (p : StringMatcherProto) (input : String) : Prop :=
  let low (s : String) : String := if p.ignoreCase then Strings.toLower s else s
  match p.matchPattern with
  | .exact s => low input = low s
  | .pfx s => (low s).toList <+: (low input).toList
  | .sfx s => (low s).toList <:+ (low input).toList
  | .safeRegex r =>
    ∃ re, E.compile (r.getD "") = .ok re ∧ Grpcutil.FullMatchWithRegex E re (low input) = true
  | .contains s => (low s).toList <:+: (low input).toList
  | .unset => False

theorem StringMatcherFromProto_spec {p : StringMatcherProto} {sm : StringMatcher E.Expr}
    (h : StringMatcherFromProto E (some p) = .ok sm) (input : String) :
    sm.Match E input = true ↔ p.Accepts E input := by
  unfold StringMatcherFromProto at h
  unfold StringMatcherProto.Accepts
  cases hp : p.matchPattern with
  | exact s =>
    simp only [hp, Except.ok.injEq] at h
    subst h
    simp [StringMatcher.Match]
  | pfx s =>
    simp only [hp] at h
    split at h
    · cases h
    · simp only [Except.ok.injEq] at h
      subst h
      simp [StringMatcher.Match, Strings.hasPrefix_iff]
  | sfx s =>
    simp only [hp] at h
    split at h
    · cases h
    · simp only [Except.ok.injEq] at h
      subst h
      simp [StringMatcher.Match, Strings.hasSuffix_iff]
  | safeRegex r =>
    simp only [hp] at h
    split at h
    · rename_i re hre
      simp only [Except.ok.injEq] at h
      subst h
      simp [StringMatcher.Match, hre]
    · cases h
  | contains s =>
    simp only [hp] at h
    split at h
    · cases h
    · simp only [Except.ok.injEq] at h
      subst h
      simp [StringMatcher.Match, Strings.contains_iff]
  | unset => simp only [hp] at h; cases h

/-! ## Header matchers -/

/-- The seven header matchers, each with the key it reads.  `present` already holds the flag
`NewHeaderPresentMatcher` computed from `present_match` and `invert_match`. -/
inductive HeaderMatcher (R : Type) where
  | exact (key exact : String) (invert : Bool)
  | regex (key : String) (re : R) (invert : Bool)
  | range (key : String) (start stop : Int) (invert : Bool)
  | present (key : String) (present : Bool)
  | pfx (key pfx : String) (invert : Bool)
  | sfx (key sfx : String) (invert : Bool)
  | contains (key contains : String) (invert : Bool)

/-- `NewHeaderPresentMatcher(key, present, invert)`. -/
def NewHeaderPresentMatcher (key : String) (present invert : Bool) : HeaderMatcher R :=
  .present key (if invert then !present else present)

/-- `mdValuesFromOutgoingCtx(md, key)`: the values of `key` joined with `","`, if the key is
present. -/
def mdValuesFromOutgoingCtx (md : MD) (key : String) : Option String :=
  (md.lookup key).map (Strings.join · ",")

/-- The shared body of the exact, regex, prefix, suffix and contains matchers: a missing key
fails, and otherwise the test on the joined value is inverted by `invert`. -/
def headerValueMatch (md : MD) (key : String) (test : String → Bool) (invert : Bool) : Bool :=
  match mdValuesFromOutgoingCtx md key with
  | none => false
  | some v => test v != invert

theorem headerValueMatch_eq_true_iff (md : MD) (key : String) (test : String → Bool)
    (invert : Bool) :
    headerValueMatch md key test invert = true ↔
      ∃ s, mdValuesFromOutgoingCtx md key = some s ∧ (test s = true ↔ invert = false) := by
  unfold headerValueMatch
  cases mdValuesFromOutgoingCtx md key with
  | none => simp
  | some s => cases test s <;> cases invert <;> simp

/-- `HeaderMatcher.Match(md)` of each matcher. -/
def HeaderMatcher.Match : HeaderMatcher E.Expr → MD → Bool
  | .exact key e invert, md => headerValueMatch md key (· == e) invert
  | .regex key re invert, md => headerValueMatch md key (Grpcutil.FullMatchWithRegex E re) invert
  | .range key start stop invert, md =>
    match mdValuesFromOutgoingCtx md key with
    | none => false
    | some v =>
      match Strconv.parseInt v with
      | some i => if start ≤ i ∧ i < stop then !invert else invert
      | none => invert
  | .present key want, md =>
    -- `present := ok && len(vs) > 0`, where `vs` is the joined string.
    (match mdValuesFromOutgoingCtx md key with
      | some vs => decide (0 < vs.length)
      | none => false) == want
  | .pfx key p invert, md => headerValueMatch md key (Strings.hasPrefix · p) invert
  | .sfx key s invert, md => headerValueMatch md key (Strings.hasSuffix · s) invert
  | .contains key s invert, md => headerValueMatch md key (Strings.contains · s) invert

end XdsMatcher
end GrpcGo
