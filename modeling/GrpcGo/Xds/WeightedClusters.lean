import GrpcGo.Lib.GoMap
import GrpcGo.Lib.WeightedPick

/-!
# Weighted clusters of a route and the picker over them

`routesProtoToSlice` (`xds/internal/xdsclient/xds.go`) turns a route action's cluster specifier
into the route's `WeightedClusters` map.  For `weighted_clusters` it skips the clusters of weight
zero, enters each other one under its name, and adds its weight to `totalWeight`, a `uint32`;
the route is accepted when that total is `total_weight` (100 when unset) and not zero.
`newConfigSelector` (`xds/internal/resolver/serviceconfig.go`) then adds one item to the route's
`randomWRR` (`internal/wrr/random.go`) for each entry of the map, and `SelectConfig` takes the
cluster that `Next` returns for a random value below `sumOfWeights`.

The override configs of the clusters are read by `processHTTPFilterOverrides`, a parameter of
the model that may fail.  `weightedClustersToMap_accepts_iff` is when a route is accepted: the
exact sum of its weights, taken modulo `2 ^ 32`, must be `total_weight` and not zero.
`weightedClusters_picks` is what the picker then does: each cluster is picked by as many random
values as the weight its map entry kept, the last one given under its name.
-/

namespace GrpcGo

/-! ## `internal/wrr`: the random picker -/

namespace Wrr

variable {α : Type _}

/-- `randomWRR`: its items with their `int64` weights, and their sum. -/
structure randomWRR (α : Type _) where
  items : List (α × Int)
  sumOfWeights : Int

/-- `NewRandom`. -/
def NewRandom : randomWRR α := ⟨[], 0⟩

/-- `randomWRR.Add`. -/
def randomWRR.Add (rw : randomWRR α) (item : α) (weight : Int) : randomWRR α :=
  ⟨rw.items ++ [(item, weight)], rw.sumOfWeights + weight⟩

/-- The loop of `Next`: subtract each weight from the random value, and return the first item
where it drops below zero. -/
def nextLoop : List (α × Int) → Int → Option α
  | [], _ => none
  | (x, w) :: items, randomWeight =>
    if randomWeight - w < 0 then some x else nextLoop items (randomWeight - w)

/-- `randomWRR.Next`, for the value `randomWeight` that `grpcrandInt63n(sumOfWeights)` drew: the
item the loop finds, and otherwise the last one. -/
def randomWRR.Next (rw : randomWRR α) (randomWeight : Int) : Option α :=
  if rw.sumOfWeights = 0 then none
  else (nextLoop rw.items randomWeight).or (rw.items.getLast?.map Prod.fst)

/-- Adding items one by one. -/
theorem foldl_Add {β : Type _} (f : β → α) (g : β → Int) :
    ∀ (xs : List β) (rw : randomWRR α),
      xs.foldl (fun rw x => rw.Add (f x) (g x)) rw =
        ⟨rw.items ++ xs.map (fun x => (f x, g x)), rw.sumOfWeights + (xs.map g).sum⟩
  | [], rw => by simp
  | x :: xs, rw => by
    rw [List.foldl_cons, foldl_Add f g xs]
    simp only [randomWRR.Add, List.append_assoc, List.map_cons, List.singleton_append,
      List.sum_cons, randomWRR.mk.injEq, true_and]
    omega

/-- With weights that are not negative, the loop is `WeightedPick.pick`. -/
theorem nextLoop_ofNat : ∀ (items : List (α × Nat)) (v : Nat),
    nextLoop (items.map fun e => (e.1, (e.2 : Int))) v = WeightedPick.pick items v
  | [], _ => rfl
  | (x, w) :: items, v => by
    simp only [List.map_cons, nextLoop, WeightedPick.pick]
    by_cases hv : v < w
    · have hneg : (v : Int) - w < 0 := by omega
      simp [hv, hneg]
    · have hpos : ¬ (v : Int) - w < 0 := by omega
      have hsub : (v : Int) - w = ((v - w : Nat) : Int) := by omega
      simp only [hv, ↓reduceIte, hsub]
      exact nextLoop_ofNat items (v - w)

/-- Below the sum of weights that are not negative, `Next` is `WeightedPick.pick`. -/
theorem Next_eq_pick (items : List (α × Nat)) {v : Nat} (hv : v < WeightedPick.total items) :
    (⟨items.map fun e => (e.1, (e.2 : Int)), WeightedPick.total items⟩ : randomWRR α).Next
      (v : Int) = WeightedPick.pick items v := by
  -- below the total the loop finds an item, so `Next` is the loop
  have hsome := WeightedPick.pick_isSome hv
  have htot : ((WeightedPick.total items : Nat) : Int) ≠ 0 := by omega
  simp only [randomWRR.Next, htot, ↓reduceIte, nextLoop_ofNat]
  obtain ⟨x, hx⟩ := Option.isSome_iff_exists.mp hsome
  simp [hx]

/-- A picker built from weights that are not negative picks each item for as many of the
values below `sumOfWeights` as its entries weigh. -/
theorem countP_Next [DecidableEq α] (items : List (α × Nat)) (a : α) :
    (List.range (WeightedPick.total items)).countP (fun (v : Nat) =>
      (⟨items.map fun e => (e.1, (e.2 : Int)), WeightedPick.total items⟩ : randomWRR α).Next
        (v : Int) = some a) = WeightedPick.weightOf items a := by
  rw [← WeightedPick.countP_pick items a]
  apply List.countP_congr
  intro v hv
  rw [Next_eq_pick items (List.mem_range.mp hv)]

end Wrr

namespace XdsClient

open GoStd

/-! ## `routesProtoToSlice`: the cluster specifier of a route action -/

/-- A cluster of `weighted_clusters`: its `name`, the value of its `weight` (zero when unset), and
its `typed_per_filter_config`. -/
structure clusterWeight (τ : Type _) where
  Name : String
  Weight : UInt32
  TypedPerFilterConfig : τ

/-- `weighted_clusters`: its clusters, and `total_weight` when set. -/
structure weightedClusters (τ : Type _) where
  Clusters : List (clusterWeight τ)
  TotalWeight : Option UInt32

/-- `WeightedCluster`: the weight, and the override configs (`nil` for v2). -/
structure WeightedCluster (φ : Type _) where
  Weight : UInt32
  HTTPFilterConfigOverride : Option φ
  deriving DecidableEq, Repr

/-- The cluster specifier of a route action. -/
inductive clusterSpecifier (τ : Type _)
  | Cluster (name : String)
  | WeightedClusters (wcs : weightedClusters τ)
  | ClusterHeader
  | unknown

/-- The errors of the cluster specifier, with what their messages print besides the route and
the action. -/
inductive routeActionError (ε : Type _)
  /-- `"route %+v, action %+v: %v"`, the error of `processHTTPFilterOverrides`. -/
  | filterOverride (err : ε)
  /-- `"... weights of clusters do not add up to total total weight, got: %v, expected total weight
  from response: %v"`. -/
  | totalWeightMismatch (got want : UInt32)
  /-- `"... has no valid cluster in WeightedCluster action"`. -/
  | noValidCluster
  /-- `"route %+v, has an unknown ClusterSpecifier: %+v"`. -/
  | unknownClusterSpecifier
  deriving DecidableEq, Repr

section Specifier

variable {τ φ ε : Type _} (processHTTPFilterOverrides : τ → Except ε φ)

/-- The override configs of a cluster: none for v2, and otherwise those
`processHTTPFilterOverrides` reads. -/
def clusterOverrides (v2 : Bool) (c : clusterWeight τ) : Except (routeActionError ε) (Option φ) :=
  if v2 then .ok none
  else
    match processHTTPFilterOverrides c.TypedPerFilterConfig with
    | .ok cfgs => .ok (some cfgs)
    | .error err => .error (.filterOverride err)

/-- The loop over `wcs.Clusters`: the map so far and `totalWeight`, a `uint32`. -/
def addWeightedClusters (v2 : Bool) :
    List (clusterWeight τ) → List (String × WeightedCluster φ) → UInt32 →
      Except (routeActionError ε) (List (String × WeightedCluster φ) × UInt32)
  | [], m, totalWeight => .ok (m, totalWeight)
  | c :: cs, m, totalWeight =>
    if c.Weight = 0 then addWeightedClusters v2 cs m totalWeight
    else
      match clusterOverrides processHTTPFilterOverrides v2 c with
      | .error err => .error err
      | .ok cfgs =>
        addWeightedClusters v2 cs (Map.insert c.Name ⟨c.Weight, cfgs⟩ m) (totalWeight + c.Weight)

/-- The `weighted_clusters` case: the map, once the total is checked. -/
def weightedClustersToMap (v2 : Bool) (wcs : weightedClusters τ) :
    Except (routeActionError ε) (List (String × WeightedCluster φ)) :=
  match addWeightedClusters processHTTPFilterOverrides v2 wcs.Clusters [] 0 with
  | .error err => .error err
  | .ok (m, totalWeight) =>
    let wantTotalWeight := wcs.TotalWeight.getD 100
    if totalWeight ≠ wantTotalWeight then .error (.totalWeightMismatch totalWeight wantTotalWeight)
    else if totalWeight = 0 then .error .noValidCluster
    else .ok m

/-- The switch on the cluster specifier: the route's `WeightedClusters`, or `none` for a route
that is skipped (`cluster_header`). -/
def routeClusters (v2 : Bool) :
    clusterSpecifier τ → Except (routeActionError ε) (Option (List (String × WeightedCluster φ)))
  | .Cluster name => .ok (some [(name, ⟨1, none⟩)])
  | .WeightedClusters wcs =>
    match weightedClustersToMap processHTTPFilterOverrides v2 wcs with
    | .ok m => .ok (some m)
    | .error err => .error err
  | .ClusterHeader => .ok none
  | .unknown => .error .unknownClusterSpecifier

/-- Every cluster of non-zero weight has its override configs read without error. -/
def OverridesOk (v2 : Bool) (cs : List (clusterWeight τ)) : Prop :=
  ∀ c ∈ cs, c.Weight ≠ 0 → ∃ o, clusterOverrides processHTTPFilterOverrides v2 c = .ok o

/-- The exact sum of the weights. -/
def exactTotal (wcs : weightedClusters τ) : Nat :=
  (wcs.Clusters.map fun c => c.Weight.toNat).sum

/-- The loop fails only where an override config does. -/
theorem addWeightedClusters_isOk_iff (v2 : Bool) :
    ∀ (cs : List (clusterWeight τ)) (m : List (String × WeightedCluster φ)) (t : UInt32),
      (∃ r, addWeightedClusters processHTTPFilterOverrides v2 cs m t = .ok r) ↔
        OverridesOk processHTTPFilterOverrides v2 cs
  | [], _, _ => by simp [addWeightedClusters, OverridesOk]
  | c :: cs, m, t => by
    have hcons : OverridesOk processHTTPFilterOverrides v2 (c :: cs) ↔
        (c.Weight ≠ 0 → ∃ o, clusterOverrides processHTTPFilterOverrides v2 c = .ok o) ∧
          OverridesOk processHTTPFilterOverrides v2 cs := by
      simp [OverridesOk]
    rw [hcons, addWeightedClusters]
    by_cases hw : c.Weight = 0
    · rw [if_pos hw, addWeightedClusters_isOk_iff v2 cs m t]
      simp [hw]
    · rw [if_neg hw]
      cases ho : clusterOverrides processHTTPFilterOverrides v2 c with
      | error err => simp [hw]
      | ok cfgs =>
        rw [addWeightedClusters_isOk_iff v2 cs _ _]
        simp [hw]

/-- The loop's `totalWeight` is the sum of the weights modulo `2 ^ 32`. -/
theorem addWeightedClusters_total (v2 : Bool) :
    ∀ (cs : List (clusterWeight τ)) (m : List (String × WeightedCluster φ)) (t : UInt32)
      {m' : List (String × WeightedCluster φ)} {t' : UInt32},
      addWeightedClusters processHTTPFilterOverrides v2 cs m t = .ok (m', t') →
        t'.toNat = (t.toNat + (cs.map fun c => c.Weight.toNat).sum) % 2 ^ 32
  | [], _, t, _, _, h => by
    cases h
    rw [List.map_nil, List.sum_nil, Nat.add_zero, Nat.mod_eq_of_lt (UInt32.toNat_lt t)]
  | c :: cs, m, t, m', t', h => by
    rw [addWeightedClusters] at h
    rw [List.map_cons, List.sum_cons]
    by_cases hw : c.Weight = 0
    · rw [if_pos hw] at h
      have hrest := addWeightedClusters_total v2 cs m t h
      rw [hw, UInt32.toNat_zero, zero_add]
      exact hrest
    · rw [if_neg hw] at h
      cases ho : clusterOverrides processHTTPFilterOverrides v2 c with
      | error err => rw [ho] at h; cases h
      | ok cfgs =>
        rw [ho] at h
        have hrest := addWeightedClusters_total v2 cs _ _ h
        rw [hrest, UInt32.toNat_add]
        omega

/-- The map the loop builds has one entry for each name. -/
theorem addWeightedClusters_nodup (v2 : Bool) :
    ∀ (cs : List (clusterWeight τ)) (m : List (String × WeightedCluster φ)) (t : UInt32)
      {m' : List (String × WeightedCluster φ)} {t' : UInt32},
      (m.map Prod.fst).Nodup →
        addWeightedClusters processHTTPFilterOverrides v2 cs m t = .ok (m', t') →
          (m'.map Prod.fst).Nodup
  | [], _, _, _, _, hnd, h => by
    cases h
    exact hnd
  | c :: cs, m, t, m', t', hnd, h => by
    rw [addWeightedClusters] at h
    by_cases hw : c.Weight = 0
    · rw [if_pos hw] at h
      exact addWeightedClusters_nodup v2 cs m t hnd h
    · rw [if_neg hw] at h
      cases ho : clusterOverrides processHTTPFilterOverrides v2 c with
      | error err => rw [ho] at h; cases h
      | ok cfgs =>
        rw [ho] at h
        exact addWeightedClusters_nodup v2 cs _ _ (Map.nodup_keys_insert _ _ _ hnd) h

/-- A `weighted_clusters` action is accepted exactly when every override config of a cluster of
non-zero weight is read, and the sum of the weights modulo `2 ^ 32` is `total_weight` (100 when
unset) and not zero. -/
theorem weightedClustersToMap_accepts_iff (v2 : Bool) (wcs : weightedClusters τ) :
    (∃ m, weightedClustersToMap processHTTPFilterOverrides v2 wcs = .ok m) ↔
      OverridesOk processHTTPFilterOverrides v2 wcs.Clusters ∧
        exactTotal wcs % 2 ^ 32 = (wcs.TotalWeight.getD 100).toNat ∧
        exactTotal wcs % 2 ^ 32 ≠ 0 := by
  rw [← addWeightedClusters_isOk_iff processHTTPFilterOverrides v2 wcs.Clusters ([] : List (String × WeightedCluster φ)) 0]
  unfold weightedClustersToMap
  cases hloop : addWeightedClusters processHTTPFilterOverrides v2 wcs.Clusters [] 0 with
  | error err => simp
  | ok r =>
    obtain ⟨m, t⟩ := r
    -- the loop's total, read as a number
    have ht := addWeightedClusters_total processHTTPFilterOverrides v2 wcs.Clusters [] 0 hloop
    rw [UInt32.toNat_zero, zero_add] at ht
    have ht' : t.toNat = exactTotal wcs % 2 ^ 32 := ht
    rw [← ht']
    have hiff : t.toNat = (wcs.TotalWeight.getD 100).toNat ↔ t = wcs.TotalWeight.getD 100 :=
      UInt32.toNat_inj
    have hzero : t.toNat ≠ 0 ↔ t ≠ 0 := by
      rw [ne_eq, ne_eq, ← UInt32.toNat_inj, UInt32.toNat_zero]
    rw [hiff, hzero]
    by_cases hne : t = wcs.TotalWeight.getD 100
    · rw [← hne]
      by_cases h0 : t = 0 <;> simp [h0]
    · simp [hne]

/-! ## The picker of an accepted route -/

/-- The `randomWRR` of a route in `newConfigSelector`: one item for each entry of the route's
`WeightedClusters`, in the order `range` gives them, with weight `int64(wc.Weight)`. -/
def routeWRR (entries : List (String × WeightedCluster φ)) : Wrr.randomWRR String :=
  entries.foldl (fun wrr e => wrr.Add e.1 e.2.Weight.toNat) Wrr.NewRandom

/-- The weights of the entries, as `WeightedPick` items. -/
def entryWeights (entries : List (String × WeightedCluster φ)) : List (String × Nat) :=
  entries.map fun e => (e.1, e.2.Weight.toNat)

theorem routeWRR_eq (entries : List (String × WeightedCluster φ)) :
    routeWRR entries =
      ⟨(entryWeights entries).map fun e => (e.1, (e.2 : Int)),
        WeightedPick.total (entryWeights entries)⟩ := by
  rw [routeWRR, Wrr.foldl_Add]
  -- the `int64` sum of the weights is the sum of the numbers
  have hcast : ∀ l : List (String × WeightedCluster φ),
      (((l.map fun e => e.2.Weight.toNat).sum : Nat) : Int) =
        (l.map fun e => (e.2.Weight.toNat : Int)).sum := by
    intro l
    induction l with
    | nil => rfl
    | cons e l ih => simp [ih]
  simp [Wrr.NewRandom, entryWeights, WeightedPick.total, Function.comp_def, hcast]

theorem lookup_entryWeights (entries : List (String × WeightedCluster φ)) (c : String) :
    (entryWeights entries).lookup c = (entries.lookup c).map fun wc => wc.Weight.toNat := by
  induction entries with
  | nil => rfl
  | cons e entries ih =>
    obtain ⟨k, wc⟩ := e
    rw [entryWeights, List.map_cons, List.lookup_cons, List.lookup_cons, ← entryWeights, ih]
    cases c == k <;> rfl

/-- Whatever order the map's `range` gives the entries in, each cluster of an accepted route is
picked by as many of the random values below `sumOfWeights` as the weight its entry kept, and
`sumOfWeights` is the sum of the kept weights. -/
theorem weightedClusters_picks (v2 : Bool) {wcs : weightedClusters τ}
    {m : List (String × WeightedCluster φ)}
    (h : weightedClustersToMap processHTTPFilterOverrides v2 wcs = .ok m)
    {order : List (String × WeightedCluster φ)} (horder : order.Perm m) (c : String) :
    (List.range (routeWRR order).sumOfWeights.toNat).countP
        (fun (v : Nat) => (routeWRR order).Next (v : Int) = some c) =
      ((m.lookup c).map fun wc => wc.Weight.toNat).getD 0 ∧
      (routeWRR order).sumOfWeights = WeightedPick.total (entryWeights m) := by
  -- the accepted map has one entry for each name
  have hnd : (m.map Prod.fst).Nodup := by
    unfold weightedClustersToMap at h
    cases hloop : addWeightedClusters processHTTPFilterOverrides v2 wcs.Clusters [] 0 with
    | error err => rw [hloop] at h; cases h
    | ok r =>
      obtain ⟨m', t⟩ := r
      rw [hloop] at h
      have hm' := addWeightedClusters_nodup processHTTPFilterOverrides v2 wcs.Clusters [] 0
        List.nodup_nil hloop
      dsimp only at h
      split at h
      · cases h
      · split at h
        · cases h
        · cases h
          exact hm'
  have hperm : (entryWeights order).Perm (entryWeights m) := horder.map _
  have hnd' : ((entryWeights m).map Prod.fst).Nodup := by
    simpa [entryWeights, Function.comp_def] using hnd
  rw [routeWRR_eq]
  refine ⟨?_, by rw [WeightedPick.total_perm hperm]⟩
  simp only [Int.toNat_natCast]
  rw [Wrr.countP_Next, WeightedPick.weightOf_perm hperm, WeightedPick.weightOf_of_nodup hnd',
    lookup_entryWeights]

end Specifier

/-- No override config to read. -/
def noOverrides : Unit → Except Unit Unit :=
  fun _ => .ok ()

/-- Weights whose `uint32` sum wraps around to the default total of 100. -/
def wrappingWeights : weightedClusters Unit :=
  ⟨[⟨"A", 4294967295, ()⟩, ⟨"B", 101, ()⟩], none⟩

/-- Weights that name the cluster `A` twice. -/
def duplicateWeights : weightedClusters Unit :=
  ⟨[⟨"A", 50, ()⟩, ⟨"B", 25, ()⟩, ⟨"A", 25, ()⟩], none⟩

/-- The route's map for `duplicateWeights`: the second `A` overwrote the first. -/
def duplicateWeightsMap : List (String × WeightedCluster Unit) :=
  [("A", ⟨25, some ()⟩), ("B", ⟨25, some ()⟩)]

theorem weightedClusters_validation_diverges :
    weightedClustersToMap noOverrides false wrappingWeights =
        .ok [("A", ⟨4294967295, some ()⟩), ("B", ⟨101, some ()⟩)] ∧
      exactTotal wrappingWeights = 4294967396 ∧
      weightedClustersToMap noOverrides false duplicateWeights = .ok duplicateWeightsMap ∧
      (routeWRR duplicateWeightsMap).sumOfWeights = 50 ∧
      (List.range 50).countP
          (fun (v : Nat) => (routeWRR duplicateWeightsMap).Next (v : Int) = some "A") = 25 ∧
      WeightedPick.weightOf
          (duplicateWeights.Clusters.map fun c => (c.Name, c.Weight.toNat)) "A" = 75 :=
  ⟨rfl, rfl, rfl, rfl, by decide, by decide⟩

end XdsClient
end GrpcGo
