import GrpcGo.Balancer.ConfigBuilder
import GrpcGo.Lib.ExceptBind
import GrpcGo.Xds.RouteMatch
import GrpcGo.Xds.WeightedClusters

/-!
# EDS drop overloads (`xdsclient/xds.go`, `clusterresolver/configbuilder.go`, `clusterimpl/picker.go`)

A drop overload of an EDS update travels through three functions.  `parseDropPolicy` turns its
`FractionalPercent` into a numerator and a denominator of 100, 10000 or 1000000, and 0 for an
enum value it does not know.  `buildClusterImplConfigForEDS` computes the drop rate
`Numerator * million / Denominator` in `uint32` (`dropConfig`) and hands it to every cluster_impl
config it builds (`buildClusterImplConfigForEDS_drops`).  `newDropper` then adds two items to a
random WRR, `true` with the rate and `false` with the rest of a million, both divided by their
greatest common divisor, and `drop` takes the item the WRR picks.

* `gcd_toNat`: the loop of `gcd` computes the greatest common divisor.
* `newDropper_share`: for a rate of at most a million, the dropper drops for exactly that many
  parts per million of the values its random draw can take.
* `drop_overload_wraps`: the product `Numerator * million` wraps in `uint32`, so that a drop of
  5000 in ten thousand is handed on as 70503 per million, and a denominator of zero panics.
-/

namespace GrpcGo

open GoStd Except

namespace XdsClient

open ClusterResolver

/-- A `ClusterLoadAssignment_Policy_DropOverload` proto. -/
structure DropOverloadProto where
  category : String
  dropPercentage : FractionalPercent
  deriving DecidableEq, Repr

/-- `parseDropPolicy(dropPolicy)`: the denominator is zero for an enum value the switch does not
name. -/
def parseDropPolicy (dropPolicy : DropOverloadProto) : OverloadDropConfig :=
  let percentage := dropPolicy.dropPercentage
  let denominator : UInt32 := match percentage.Denominator with
    | .HUNDRED => 100
    | .TEN_THOUSAND => 10000
    | .MILLION => 1000000
    | .other _ => 0
  ⟨dropPolicy.category, percentage.Numerator, denominator⟩

end XdsClient

namespace ClusterResolver

open Hierarchy

/-! ## The drops the builder hands on -/

section Drops

variable (localityString : LocalityID → String)

/-- A drop's config carries the quotient when the division does not panic. -/
theorem dropConfig_eq_ok {d : OverloadDropConfig} {c : DropConfig} (h : dropConfig d = .ok c) :
    c = ⟨d.Category, d.Numerator * million / d.Denominator⟩ := by
  unfold dropConfig divU32 at h
  split at h
  · cases h
  · cases h
    rfl

/-- Every cluster_impl config of a priority carries the drops it was given. -/
theorem priorityLocalitiesToClusterImpl_drops {localities : List Locality} {pName : String}
    {mechanism : DiscoveryMechanism} {drops : List DropConfig}
    {xdsLBPolicy : Option BalancerConfig} {cfg : clusterImplConfig} {addrs : List Address}
    (h : priorityLocalitiesToClusterImpl localityString localities pName mechanism drops
      xdsLBPolicy = .ok (cfg, addrs)) :
    cfg.DropCategories = drops := by
  unfold priorityLocalitiesToClusterImpl at h
  split at h
  · cases h
    rfl
  · split_ifs at h <;> cases h <;> rfl

/-- The loop over the priorities adds only configs that carry the drops. -/
theorem edsPriorityLoop_drops (parentPriority : Nat) (priorities : List (String × List Locality))
    (mechanism : DiscoveryMechanism) (drops : List DropConfig)
    (xdsLBPolicy : Option BalancerConfig) :
    ∀ (names : List String) (acc r : List String × List (String × clusterImplConfig) × List Address),
      edsPriorityLoop localityString parentPriority priorities mechanism drops xdsLBPolicy names
        acc = .ok r →
      (∀ c ∈ acc.2.1, c.2.DropCategories = drops) → ∀ c ∈ r.2.1, c.2.DropCategories = drops
  | [], acc, r, h, hacc => by
    cases h
    exact hacc
  | priorityName :: rest, (retNames, retConfigs, retAddrs), r, h, hacc => by
    unfold edsPriorityLoop at h
    dsimp only at h
    split at h
    · cases h
    · rename_i cfg addrs hcfg
      refine edsPriorityLoop_drops parentPriority priorities mechanism drops xdsLBPolicy rest _ r h ?_
      -- the config of this priority goes in beside the earlier ones
      intro c hc
      rcases Map.keys_insert_subset _ _ _ c hc with rfl | hc
      · exact priorityLocalitiesToClusterImpl_drops localityString hcfg
      · exact hacc c hc

/-- **The builder hands the drops to every config.**  A successful build computed a config for
each drop without a panic, and every cluster_impl config it returns carries those. -/
theorem buildClusterImplConfigForEDS_drops {parentPriority : Nat} {edsResp : EndpointsUpdate}
    {mechanism : DiscoveryMechanism} {xdsLBPolicy : Option BalancerConfig}
    {names : List String} {configs : List (String × clusterImplConfig)} {addrs : List Address}
    (h : buildClusterImplConfigForEDS localityString parentPriority edsResp mechanism xdsLBPolicy =
      .ok (names, configs, addrs)) :
    ∃ drops, edsResp.Drops.mapM dropConfig = .ok drops ∧
      ∀ c ∈ configs, c.2.DropCategories = drops := by
  unfold buildClusterImplConfigForEDS at h
  rw [bind_eq_ok_iff] at h
  obtain ⟨drops, hdrops, h⟩ := h
  refine ⟨drops, hdrops, ?_⟩
  rw [mapError_eq_ok_iff] at h
  exact edsPriorityLoop_drops localityString _ _ _ _ _ _ _ _ h (fun _ hc => by simp at hc)

end Drops

end ClusterResolver

namespace ClusterImpl

open ClusterResolver

/-! ## `clusterimpl`: the dropper -/

/-- `million`. -/
def million : UInt32 := 1000000

/-- `gcd(a, b)`: Euclid's loop on `uint32`. -/
def gcd (a b : UInt32) : UInt32 :=
  if b = 0 then a else gcd b (a % b)
termination_by b.toNat
decreasing_by
  rw [UInt32.toNat_mod]
  exact Nat.mod_lt _ (Nat.pos_of_ne_zero fun h0 => ‹¬b = 0› (UInt32.toNat_inj.mp h0))

/-- `dropper`: its category and its random WRR. -/
structure dropper where
  category : String
  w : Wrr.randomWRR Bool

/-- `newDropper(c)`: `true` weighs the rate and `false` the rest of a million, both divided by
their greatest common divisor and converted to `int64`. -/
def newDropper (c : DropConfig) : dropper :=
  let gcdv := gcd c.RequestsPerMillion million
  let w := (Wrr.NewRandom.Add true ((c.RequestsPerMillion / gcdv).toNat : Int)).Add false
    (((million - c.RequestsPerMillion) / gcdv).toNat : Int)
  ⟨c.Category, w⟩

/-- `d.drop()`, for the value `randomWeight` that `grpcrandInt63n(sumOfWeights)` drew: the item
`Next` returns, asserted to be a `bool`; the assertion panics on the `nil` of an empty WRR. -/
def dropper.drop (d : dropper) (randomWeight : Int) : Except Failure Bool :=
  match d.w.Next randomWeight with
  | some b => .ok b
  | none => .error (.panic "interface conversion: interface \x7b\x7d is nil, not bool")

/-- A dropper returns the item its WRR picks. -/
theorem dropper.drop_eq_ok_iff (d : dropper) (v : Int) (b : Bool) :
    d.drop v = .ok b ↔ d.w.Next v = some b := by
  unfold dropper.drop
  split <;> simp_all

/-- The loop of `gcd` computes the greatest common divisor. -/
theorem gcd_toNat (a b : UInt32) : (gcd a b).toNat = Nat.gcd a.toNat b.toNat := by
  fun_induction gcd a b with
  | case1 a =>
    rw [UInt32.toNat_zero, Nat.gcd_zero_right]
  | case2 a b _ ih =>
    -- one turn of the loop: `gcd(a, b) = gcd(b, a mod b)`
    rw [ih, UInt32.toNat_mod, Nat.gcd_comm a.toNat, Nat.gcd_rec b.toNat a.toNat, Nat.gcd_comm]

/-- The WRR of a dropper of a rate within a million: the two items, with the rate and the rest
of a million divided by their greatest common divisor. -/
theorem newDropper_w {c : DropConfig} (h : c.RequestsPerMillion.toNat ≤ 1000000) :
    (newDropper c).w =
      ⟨[(true, ((c.RequestsPerMillion.toNat / Nat.gcd c.RequestsPerMillion.toNat 1000000 : Nat) :
          Int)),
        (false, (((1000000 - c.RequestsPerMillion.toNat) /
          Nat.gcd c.RequestsPerMillion.toNat 1000000 : Nat) : Int))],
        ((c.RequestsPerMillion.toNat / Nat.gcd c.RequestsPerMillion.toNat 1000000 +
          (1000000 - c.RequestsPerMillion.toNat) / Nat.gcd c.RequestsPerMillion.toNat 1000000 :
            Nat) : Int)⟩ := by
  have hg : (gcd c.RequestsPerMillion million).toNat = Nat.gcd c.RequestsPerMillion.toNat 1000000 :=
    gcd_toNat _ _
  -- the rest of a million does not wrap
  have hsub : (million - c.RequestsPerMillion).toNat = 1000000 - c.RequestsPerMillion.toNat := by
    rw [UInt32.toNat_sub_of_le _ _ (UInt32.le_iff_toNat_le.mpr h)]
    rfl
  simp only [newDropper, Wrr.randomWRR.Add, Wrr.NewRandom, List.nil_append, List.cons_append,
    UInt32.toNat_div, hg, hsub, Int.zero_add, Int.natCast_add]

/-- **A dropper drops its share.**  For a rate of at most a million, the draw of a dropper ranges
over a positive number of values, and the dropper drops for exactly the rate's share of them, in
parts per million. -/
theorem newDropper_share (c : DropConfig) (h : c.RequestsPerMillion.toNat ≤ 1000000) :
    0 < (newDropper c).w.sumOfWeights ∧
      (List.range (newDropper c).w.sumOfWeights.toNat).countP
          (fun v : Nat => (newDropper c).drop (v : Int) = .ok true) * 1000000 =
        c.RequestsPerMillion.toNat * (newDropper c).w.sumOfWeights.toNat := by
  obtain ⟨g, hg⟩ : ∃ g, g = Nat.gcd c.RequestsPerMillion.toNat 1000000 := ⟨_, rfl⟩
  have hgpos : 0 < g := hg ▸ Nat.gcd_pos_of_pos_right _ (by decide)
  -- the rate and a million are multiples of their divisor
  obtain ⟨a, ha⟩ : g ∣ c.RequestsPerMillion.toNat := hg ▸ Nat.gcd_dvd_left _ _
  obtain ⟨b, hb⟩ : g ∣ 1000000 := hg ▸ Nat.gcd_dvd_right _ _
  have hab : a ≤ b := Nat.le_of_mul_le_mul_left (ha ▸ hb ▸ h) hgpos
  have hrest : (1000000 - c.RequestsPerMillion.toNat) / g = b - a := by
    rw [hb, ha, ← Nat.mul_sub, Nat.mul_div_cancel_left _ hgpos]
  have hrate : c.RequestsPerMillion.toNat / g = a := by
    rw [ha, Nat.mul_div_cancel_left _ hgpos]
  have hbpos : 0 < b := Nat.pos_of_ne_zero fun hb0 => by rw [hb0, Nat.mul_zero] at hb; cases hb
  -- the WRR is the picker of `WeightedPick` over the two items
  have hw : (newDropper c).w =
      ⟨[(true, a), (false, b - a)].map fun e => (e.1, (e.2 : Int)),
        WeightedPick.total [(true, a), (false, b - a)]⟩ := by
    rw [newDropper_w h, ← hg, hrest, hrate]
    simp only [List.map_cons, List.map_nil, WeightedPick.total_cons, WeightedPick.total_nil,
      Nat.add_zero]
  have htotal : WeightedPick.total [(true, a), (false, b - a)] = b := by
    simp only [WeightedPick.total_cons, WeightedPick.total_nil]
    omega
  have hsum : (newDropper c).w.sumOfWeights = (b : Int) := by
    rw [hw, htotal]
  refine ⟨by rw [hsum]; exact Int.natCast_pos.mpr hbpos, ?_⟩
  -- the dropper drops exactly where the WRR picks `true`
  have hdrop : (fun v : Nat => decide ((newDropper c).drop v = .ok true)) =
      fun v : Nat => decide ((newDropper c).w.Next v = some true) := by
    funext v
    rw [decide_eq_decide]
    exact dropper.drop_eq_ok_iff _ _ _
  have hcount := Wrr.countP_Next [(true, a), (false, b - a)] true
  rw [WeightedPick.weightOf_cons, WeightedPick.weightOf_cons, WeightedPick.weightOf_nil,
    ← hw] at hcount
  rw [hsum, Int.toNat_natCast, hdrop, ← htotal, hcount, htotal, hb, ha]
  simp only [↓reduceIte, Bool.false_eq_true, Nat.add_zero]
  rw [Nat.mul_comm g a, Nat.mul_assoc]

end ClusterImpl

/-! ## Where the drop rate wraps -/

open XdsClient ClusterResolver ClusterImpl in
/-- **The drop rate wraps.**  A drop of 5000 in ten thousand, half the requests, is handed by
`buildClusterImplConfigForEDS` to every config it builds as 70503 per million, since
`5000 * 1000000` wraps in `uint32`; the dropper built from it drops for 70503 of every million
draws.  A denominator the enum does not name is zero, and the builder panics on the division. -/
theorem drop_overload_wraps (localityString : LocalityID → String) :
    parseDropPolicy ⟨"lb", ⟨5000, .TEN_THOUSAND⟩⟩ = ⟨"lb", 5000, 10000⟩ ∧
    (∀ localities mechanism names configs addrs,
      buildClusterImplConfigForEDS localityString 0
          ⟨[parseDropPolicy ⟨"lb", ⟨5000, .TEN_THOUSAND⟩⟩], localities⟩ mechanism none =
        .ok (names, configs, addrs) →
      ∀ c ∈ configs, c.2.DropCategories = [⟨"lb", 70503⟩]) ∧
    (List.range (newDropper ⟨"lb", 70503⟩).w.sumOfWeights.toNat).countP
        (fun v : Nat => (newDropper ⟨"lb", 70503⟩).drop (v : Int) = .ok true) * 1000000 =
      70503 * (newDropper ⟨"lb", 70503⟩).w.sumOfWeights.toNat ∧
    (∀ localities mechanism,
      buildClusterImplConfigForEDS localityString 0
          ⟨[parseDropPolicy ⟨"lb", ⟨1, .other 3⟩⟩], localities⟩ mechanism none =
        .error (.panic "runtime error: integer divide by zero")) := by
  refine ⟨rfl, ?_, (newDropper_share ⟨"lb", 70503⟩ (by decide)).2, fun _ _ => rfl⟩
  intro localities mechanism names configs addrs h c hc
  obtain ⟨drops, hdrops, hcfg⟩ := buildClusterImplConfigForEDS_drops localityString h
  -- the one drop's config is computed by the division that wraps
  have hone : [parseDropPolicy ⟨"lb", ⟨5000, .TEN_THOUSAND⟩⟩].mapM dropConfig =
      .ok [⟨"lb", 70503⟩] := rfl
  rw [hone] at hdrops
  cases hdrops
  exact hcfg c hc

end GrpcGo
