import GrpcGo.Metadata.Outgoing

/-!
# RLS request keys

`balancer/rls/internal/keys`: `MakeBuilderMap` compiles the `grpc_keybuilders` of a
`RouteLookupConfig` into a map from request path to `builder`, and `BuilderMap.RLSKey` builds the
keys of a request: for each header matcher, the values of the first of its header names the
request carries, joined with `","`.  `KeyMap.Str`, the cache key of the RLS request cache
(`cache.Key.KeyMap`), is `mapToString` of the key map: the keys sorted and rendered as
`k=v`, joined with `","`.

The rendering does not separate a value that holds `","` and `"="` from two entries:
`mapToString_collision` for any two keys, and `RLSKey_collision` for the requests of one key
builder, where two different key maps get one cache key.

The `{%+v}` rendering of the key builders in `MakeBuilderMap`'s errors is the parameter `fmt`.
An `MD` entry is a non-nil slice, so `md.Get(name) != nil` is the entry being there.
-/

namespace GrpcGo
namespace Rls
namespace Keys

open GoStd Metadata

/-! ## The configuration -/

/-- `rlspb.NameMatcher`. -/
structure NameMatcher where
  key : String
  names : List String
  required_match : Bool

/-- `rlspb.GrpcKeyBuilder_Name`. -/
structure Name where
  service : String
  method : String

/-- `rlspb.GrpcKeyBuilder`. -/
structure GrpcKeyBuilder where
  names : List Name
  headers : List NameMatcher

/-- The field of `rlspb.RouteLookupConfig` that `MakeBuilderMap` reads. -/
structure RouteLookupConfig where
  grpc_keybuilders : List GrpcKeyBuilder

/-- `matcher`: a key and the header names whose values it takes. -/
structure matcher where
  key : String
  names : List String
deriving DecidableEq

/-- `builder`. -/
structure builder where
  matchers : List matcher
deriving DecidableEq

/-- `BuilderMap`. -/
abbrev BuilderMap := List (String × builder)

/-! ## `MakeBuilderMap` -/

/-- The header loop of one key builder, with the keys seen so far: the matchers, or the error
for a `required_match` or a repeated key. -/
def headerMatchers (err : String → String) : List NameMatcher → List String →
    Except String (List matcher)
  | [], _ => .ok []
  | h :: hs, seenKeys =>
    if h.required_match then .error (err "has required_match field set")
    else if h.key ∈ seenKeys then .error (err "contains repeated Key field in headers")
    else do
      let ms ← headerMatchers err hs (h.key :: seenKeys)
      pure (⟨h.key, h.names⟩ :: ms)

/-- The name loop of one key builder: `bm[path] = b` for each name, or the error for a name with
no service, a method with a slash, or a path already taken. -/
def addNames (err : String → String) (b : builder) : List Name → BuilderMap →
    Except String BuilderMap
  | [], bm => .ok bm
  | name :: names, bm =>
    if name.service = "" then .error (err "contains a Name field with no Service")
    else if Strings.contains name.method "/" then .error (err "contains a method with a slash")
    else
      let path := "/" ++ name.service ++ "/" ++ name.method
      if (bm.lookup path).isSome then .error (err "contains repeated Name field")
      else addNames err b names (Map.insert path b bm)

/-- `MakeBuilderMap(cfg)`. -/
def MakeBuilderMap (fmt : List GrpcKeyBuilder → String) (cfg : RouteLookupConfig) :
    Except String BuilderMap :=
  let kbs := cfg.grpc_keybuilders
  let err := fun msg => "rls: GrpcKeyBuilder in RouteLookupConfig " ++ msg ++ " \x7b" ++
    fmt kbs ++ "\x7d"
  if kbs.isEmpty then .error "rls: RouteLookupConfig does not contain any GrpcKeyBuilder"
  else
    kbs.foldlM (fun bm kb => do
      let matchers ← headerMatchers err kb.headers []
      if kb.names.isEmpty then throw (err "does not contain any Name")
      addNames err ⟨matchers⟩ kb.names bm) []

/-! ## Request keys -/

/-- `KeyMap`. -/
structure KeyMap where
  Map : List (String × String)
  Str : String
deriving DecidableEq

/-- `md.Get(k)`. -/
def Get (md : MD) (k : String) : Option (List String) :=
  md.lookup (Strings.toLower k)

/-- `mapToString(kv)`: the keys sorted, each rendered `k=v`, joined with `","`. -/
def mapToString (kv : List (String × String)) : String :=
  let keys := (kv.map Prod.fst).mergeSort fun a b => decide (a ≤ b)
  Strings.join (keys.map fun k => k ++ "=" ++ (kv.lookup k).getD "") ","

/-- `b.keys(md)`: each matcher takes the values of the first of its names the request carries. -/
def builder.keys (b : builder) (md : MD) : KeyMap :=
  let kvMap := b.matchers.foldl (fun kvMap m =>
    match m.names.findSome? (Get md) with
    | some vals => Map.insert m.key (Strings.join vals ",") kvMap
    | none => kvMap) []
  { Map := kvMap, Str := mapToString kvMap }

/-- `path[:strings.LastIndex(path, "/")+1]`: the path up to its last slash, or `""`. -/
def throughLastSlash (path : String) : String :=
  String.ofList (path.toList.reverse.dropWhile (· ≠ '/')).reverse

/-- `bm.RLSKey(md, path)`: the builder of the full path, else of the service. -/
def RLSKey (bm : BuilderMap) (md : MD) (path : String) : KeyMap :=
  match bm.lookup path with
  | some b => b.keys md
  | none =>
    match bm.lookup (throughLastSlash path) with
    | some b => b.keys md
    | none => ⟨[], ""⟩

/-! ## Collisions -/

/-- Two keys, and one value that spells the second entry after a comma: one string for two
different maps. -/
theorem mapToString_collision {k₁ k₂ : String} (h : k₁ < k₂) (v₁ v₂ : String) :
    mapToString [(k₁, v₁ ++ "," ++ k₂ ++ "=" ++ v₂)] = mapToString [(k₁, v₁), (k₂, v₂)] := by
  have hsorted : ([k₁, k₂].mergeSort fun a b => decide (a ≤ b)) = [k₁, k₂] :=
    List.mergeSort_eq_self (· ≤ ·) (by simp [le_of_lt h])
  have hne : k₂ ≠ k₁ := ne_of_gt h
  simp only [mapToString, List.map_cons, List.map_nil, List.mergeSort_singleton, hsorted,
    List.lookup_cons, beq_self_eq_true, Option.getD_some, Strings.join,
    beq_eq_false_iff_ne.mpr hne, String.append_assoc]

/-- The cache key of a request is the rendering of its key map. -/
theorem RLSKey_Str (bm : BuilderMap) (md : MD) (path : String) :
    (RLSKey bm md path).Str = mapToString (RLSKey bm md path).Map := by
  unfold RLSKey
  split
  · rfl
  · split
    · rfl
    · simp [mapToString, Strings.join]

/-- One key builder for `/s/m` with the keys `k1` (header `h1`) and `k2` (header `h2`): a request
whose `h1` value is `"a,k2=b"` and a request with `h1: a` and `h2: b` have different key maps and
one cache key. -/
theorem RLSKey_collision (fmt : List GrpcKeyBuilder → String) :
    MakeBuilderMap fmt ⟨[⟨[⟨"s", "m"⟩], [⟨"k1", ["h1"], false⟩, ⟨"k2", ["h2"], false⟩]⟩]⟩ =
        .ok [("/s/m", ⟨[⟨"k1", ["h1"]⟩, ⟨"k2", ["h2"]⟩]⟩)] ∧
      (RLSKey [("/s/m", ⟨[⟨"k1", ["h1"]⟩, ⟨"k2", ["h2"]⟩]⟩)] [("h1", ["a,k2=b"])] "/s/m").Map =
        [("k1", "a,k2=b")] ∧
      (RLSKey [("/s/m", ⟨[⟨"k1", ["h1"]⟩, ⟨"k2", ["h2"]⟩]⟩)] [("h1", ["a"]), ("h2", ["b"])]
        "/s/m").Map = [("k1", "a"), ("k2", "b")] ∧
      (RLSKey [("/s/m", ⟨[⟨"k1", ["h1"]⟩, ⟨"k2", ["h2"]⟩]⟩)] [("h1", ["a,k2=b"])] "/s/m").Str =
        (RLSKey [("/s/m", ⟨[⟨"k1", ["h1"]⟩, ⟨"k2", ["h2"]⟩]⟩)] [("h1", ["a"]), ("h2", ["b"])]
          "/s/m").Str := by
  have h₁ : (RLSKey [("/s/m", ⟨[⟨"k1", ["h1"]⟩, ⟨"k2", ["h2"]⟩]⟩)] [("h1", ["a,k2=b"])]
      "/s/m").Map = [("k1", "a,k2=b")] := by decide
  have h₂ : (RLSKey [("/s/m", ⟨[⟨"k1", ["h1"]⟩, ⟨"k2", ["h2"]⟩]⟩)] [("h1", ["a"]), ("h2", ["b"])]
      "/s/m").Map = [("k1", "a"), ("k2", "b")] := by decide
  have hv : "a,k2=b" = "a" ++ "," ++ "k2" ++ "=" ++ "b" := by decide
  refine ⟨rfl, h₁, h₂, ?_⟩
  rw [RLSKey_Str, RLSKey_Str, h₁, h₂, hv]
  exact mapToString_collision (by decide) "a" "b"

end Keys
end Rls
end GrpcGo
