import GrpcGo.Lib.ExceptBind
import GrpcGo.Lib.GoMap
import GrpcGo.Lib.GoSlice
import GrpcGo.Lib.GoStrings

/-!
# Outgoing metadata

`metadata/metadata.go`: `NewOutgoingContext`, `AppendToOutgoingContext` and
`FromOutgoingContext`.  A context is modelled by the one value these functions read and write,
`ctx.Value(mdOutgoingKey{})`, which is `none` when no outgoing metadata is set.  An `MD` is a Go
map, held as its entries in the order a `range` over it visits them (`GoStd.Map`).

`FromOutgoingContext_merge`: after `NewOutgoingContext(md)` and any sequence of
`AppendToOutgoingContext` calls, the merged map has lowercase keys, none twice, and for each key
`k` the values of the last entry of `md` (in iteration order) whose lowercased key is `k`,
followed by the appended values for `k` in call and argument order.  The first loop assigns
`out[key] = v`, so entries of `md` whose keys differ only by case overwrite each other
(`FromOutgoingContext_case_collision`); a map built by `New`, `Pairs` or `Join` has no such
entries, and then every value of `md` is kept.
-/

namespace GrpcGo
namespace Metadata

open GoStd

/-- `metadata.MD`. -/
abbrev MD := List (String × List String)

/-- `rawMD`. -/
structure rawMD where
  md : MD
  added : List (List String)

/-- `NewOutgoingContext(ctx, md)`: the outgoing metadata of the new context. -/
def NewOutgoingContext (md : MD) : Option rawMD :=
  some { md, added := [] }

/-- `AppendToOutgoingContext(ctx, kv...)`, from the outgoing metadata of `ctx`. -/
def AppendToOutgoingContext (ctx : Option rawMD) (kv : List String) :
    Except Failure (Option rawMD) :=
  if kv.length % 2 = 1 then
    .error (.panic ("metadata: AppendToOutgoingContext got an odd number of input pairs for " ++
      "metadata: " ++ toString kv.length))
  else
    -- `md, _ := ctx.Value(mdOutgoingKey{}).(rawMD)` is the zero `rawMD` when none is set
    let md := ctx.getD ⟨[], []⟩
    .ok (some { md := md.md, added := md.added ++ [kv] })

/-- The first loop of `FromOutgoingContext`: `out[strings.ToLower(k)] = v` for each entry. -/
def lowerKeys (md : MD) : MD :=
  md.foldl (fun out e => Map.insert (Strings.toLower e.1) e.2 out) []

/-- The loop over one `added` list: `out[key] = append(out[key], added[i+1])`. -/
def appendPairs (out : MD) : List String → MD
  | k :: v :: kv =>
    appendPairs
      (Map.insert (Strings.toLower k) ((out.lookup (Strings.toLower k)).getD [] ++ [v]) out) kv
  | _ => out

/-- `FromOutgoingContext(ctx)`; `none` is Go's `(nil, false)`. -/
def FromOutgoingContext (ctx : Option rawMD) : Except Failure (Option MD) :=
  match ctx with
  | none => .ok none
  | some raw => do
    let out ← raw.added.foldlM (fun out added =>
      if added.length % 2 = 1 then
        .error (.panic ("metadata: FromOutgoingContext got an odd number of input pairs for " ++
          "metadata: " ++ toString added.length))
      else .ok (appendPairs out added)) (lowerKeys raw.md)
    pure (some out)

/-! ## What the merge holds -/

/-- The pairs `(kv[i], kv[i+1])` of one `kv...` list. -/
def pairsOf : List String → List (String × String)
  | k :: v :: kv => (k, v) :: pairsOf kv
  | _ => []

/-- The appended values for the key `k`, in call and argument order. -/
def addedValues (added : List (List String)) (k : String) : List String :=
  ((added.flatMap pairsOf).filter fun p => Strings.toLower p.1 = k).map Prod.snd

/-- The values of the last entry of `md` whose lowercased key is `k`. -/
def lastValues (md : MD) (k : String) : Option (List String) :=
  (md.reverse.find? fun e => Strings.toLower e.1 = k).map Prod.snd

/-- A merged map: every key lowercase, none twice. -/
structure WellKeyed (out : MD) : Prop where
  lowered : ∀ k ∈ out.map Prod.fst, Strings.toLower k = k
  nodup : (out.map Prod.fst).Nodup

theorem WellKeyed.insert {out : MD} (h : WellKeyed out) (k : String) (v : List String) :
    WellKeyed (Map.insert (Strings.toLower k) v out) where
  lowered := by
    intro k' hk'
    obtain ⟨e, he, rfl⟩ := List.mem_map.mp hk'
    rcases Map.keys_insert_subset _ _ out e he with rfl | he
    · exact Strings.toLower_toLower k
    · exact h.lowered e.1 (List.mem_map_of_mem he)
  nodup := Map.nodup_keys_insert _ _ _ h.nodup

theorem wellKeyed_nil : WellKeyed ([] : MD) :=
  ⟨fun _ h => absurd h List.not_mem_nil, List.nodup_nil⟩

/-! ### The first loop -/

/-- The first loop reads, for each key, the last entry that lowers to it. -/
theorem lookup_foldl_lowerKeys (k : String) :
    ∀ (md out : MD),
      (md.foldl (fun out e => Map.insert (Strings.toLower e.1) e.2 out) out).lookup k =
        (lastValues md k).or (out.lookup k)
  | [], out => rfl
  | e :: md, out => by
    rw [List.foldl_cons, lookup_foldl_lowerKeys k md, Map.lookup_insert]
    simp only [lastValues, List.reverse_cons, List.find?_append, List.find?_singleton]
    -- the entries after `e` come first in the reversed list
    cases md.reverse.find? (fun e => Strings.toLower e.1 = k) with
    | some e' => rfl
    | none =>
      by_cases hk : k = Strings.toLower e.1
      · simp [hk]
      · simp [hk, Ne.symm hk]

theorem lookup_lowerKeys (md : MD) (k : String) : (lowerKeys md).lookup k = lastValues md k := by
  rw [lowerKeys, lookup_foldl_lowerKeys, List.lookup_nil, Option.or_none]

theorem wellKeyed_foldl_lowerKeys :
    ∀ (md : MD) {out : MD}, WellKeyed out →
      WellKeyed (md.foldl (fun out e => Map.insert (Strings.toLower e.1) e.2 out) out)
  | [], _, h => h
  | e :: md, _, h => wellKeyed_foldl_lowerKeys md (h.insert e.1 e.2)

/-! ### The appended pairs -/

/-- One `added` list appends its values to the keys they lower to. -/
theorem lookup_appendPairs (k : String) :
    ∀ (kv : List String) (out : MD),
      ((appendPairs out kv).lookup k).getD [] =
        (out.lookup k).getD [] ++
          ((pairsOf kv).filter fun p => Strings.toLower p.1 = k).map Prod.snd
  | k' :: v :: kv, out => by
    rw [appendPairs, lookup_appendPairs k kv, Map.lookup_insert, pairsOf, List.filter_cons]
    by_cases hk : k = Strings.toLower k'
    · subst hk
      simp
    · simp [hk, Ne.symm hk]
  | [], out => by simp [appendPairs, pairsOf]
  | [_], out => by simp [appendPairs, pairsOf]

theorem WellKeyed.appendPairs :
    ∀ (kv : List String) {out : MD}, WellKeyed out → WellKeyed (appendPairs out kv)
  | k :: v :: kv, _, h => by
    rw [Metadata.appendPairs]
    exact WellKeyed.appendPairs kv (h.insert k _)
  | [], _, h => h
  | [_], _, h => h

theorem lookup_foldl_appendPairs (k : String) :
    ∀ (added : List (List String)) (out : MD),
      ((added.foldl appendPairs out).lookup k).getD [] =
        (out.lookup k).getD [] ++ addedValues added k
  | [], out => by simp [addedValues]
  | kv :: added, out => by
    rw [List.foldl_cons, lookup_foldl_appendPairs k added, lookup_appendPairs, addedValues,
      addedValues, List.flatMap_cons, List.filter_append, List.map_append, List.append_assoc]

theorem WellKeyed.foldl_appendPairs :
    ∀ (added : List (List String)) {out : MD}, WellKeyed out →
      WellKeyed (added.foldl Metadata.appendPairs out)
  | [], _, h => h
  | kv :: added, _, h => WellKeyed.foldl_appendPairs added (h.appendPairs kv)

/-! ### The contexts -/

/-- A sequence of appends keeps `md` and records each `kv` list, all of even length. -/
theorem foldlM_AppendToOutgoingContext :
    ∀ (kvs : List (List String)) {raw : rawMD} {ctx : Option rawMD},
      kvs.foldlM AppendToOutgoingContext (some raw) = .ok ctx →
        ctx = some { md := raw.md, added := raw.added ++ kvs } ∧ ∀ kv ∈ kvs, kv.length % 2 = 0
  | [], raw, ctx, h => by
    rw [List.foldlM_nil, Except.pure_eq_ok, Except.ok.injEq] at h
    subst h
    exact ⟨by simp, fun _ h => absurd h List.not_mem_nil⟩
  | kv :: kvs, raw, ctx, h => by
    rw [List.foldlM_cons, Except.bind_eq_ok_iff] at h
    obtain ⟨ctx₁, h₁, h⟩ := h
    unfold AppendToOutgoingContext at h₁
    split at h₁
    · cases h₁
    · rename_i heven
      cases h₁
      obtain ⟨rfl, hkvs⟩ := foldlM_AppendToOutgoingContext kvs h
      refine ⟨by simp, ?_⟩
      intro kv' hkv'
      rcases List.mem_cons.mp hkv' with rfl | hkv'
      · omega
      · exact hkvs kv' hkv'

/-- With every `added` list of even length, the merge runs both loops to the end. -/
theorem FromOutgoingContext_of_even {raw : rawMD} (h : ∀ kv ∈ raw.added, kv.length % 2 = 0) :
    FromOutgoingContext (some raw) = .ok (some (raw.added.foldl appendPairs (lowerKeys raw.md))) := by
  rw [FromOutgoingContext, Except.foldlM_eq_ok_of_forall raw.added _
    (fun out kv hkv => by rw [if_neg (by have := h kv hkv; omega)])]
  rfl

/-- **The merge law.**  After `NewOutgoingContext(md)` and the appends `kvs`, the merged map
has lowercase keys, none twice, and for each key the values of the last entry of `md` that
lowers to it, then the appended values for it in call and argument order. -/
theorem FromOutgoingContext_merge (md : MD) (kvs : List (List String)) {ctx : Option rawMD}
    (h : kvs.foldlM AppendToOutgoingContext (NewOutgoingContext md) = .ok ctx) :
    ∃ out, FromOutgoingContext ctx = .ok (some out) ∧ WellKeyed out ∧
      ∀ k, (out.lookup k).getD [] = (lastValues md k).getD [] ++ addedValues kvs k := by
  obtain ⟨rfl, heven⟩ := foldlM_AppendToOutgoingContext kvs h
  refine ⟨_, FromOutgoingContext_of_even (by simpa using heven), ?_, fun k => ?_⟩
  · exact WellKeyed.foldl_appendPairs _ (wellKeyed_foldl_lowerKeys md wellKeyed_nil)
  · simp only [List.nil_append]
    rw [lookup_foldl_appendPairs, lookup_lowerKeys]

theorem FromOutgoingContext_merge_sample :
    ∃ out, FromOutgoingContext (some ⟨[("K", ["1"])], [["k", "2"]]⟩) = .ok (some out) ∧
      WellKeyed out ∧
      ∀ k, (out.lookup k).getD [] = (lastValues [("K", ["1"])] k).getD [] ++
        addedValues [["k", "2"]] k :=
  FromOutgoingContext_merge [("K", ["1"])] [["k", "2"]] rfl

example : FromOutgoingContext (some ⟨[("K", ["1"])], [["k", "2"]]⟩) =
    .ok (some [("k", ["1", "2"])]) := by decide

/-- Entries whose keys differ only by case overwrite each other: whichever the `range` visits
last is the only one kept. -/
theorem FromOutgoingContext_case_collision :
    FromOutgoingContext (NewOutgoingContext [("A", ["1"]), ("a", ["2"])]) =
        .ok (some [("a", ["2"])]) ∧
      FromOutgoingContext (NewOutgoingContext [("a", ["2"]), ("A", ["1"])]) =
        .ok (some [("a", ["1"])]) := by
  decide

end Metadata
end GrpcGo
