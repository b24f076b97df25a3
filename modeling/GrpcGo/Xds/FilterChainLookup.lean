import GrpcGo.Lib.ExceptBind
import GrpcGo.Lib.GoNetPrefix
import GrpcGo.Xds.FilterChain

/-!
# What `Lookup` finds (`xds/internal/xdsclient/filter_chain.go`)

`NewFilterChainManager` keys each prefix map by `prefix.String()`, so no two entries of a map have
prefixes that print the same, and by `networkNumberAndMask_eq_of_contains` no two entries have
prefixes of one size that contain one address.  `PrefixMapOK` is this invariant of a map; every
step of the builder keeps it, for the destination map and for the source map of every source
type of every entry (`NewFilterChainManager_ok`).

On a listener bound to the wildcard address the two prefix levels of `Lookup` then keep at most
one entry each, so `Lookup` makes the walk `FilterChainManager.walk` states one level at a time,
and never reports multiple matching filter chains.  On a listener bound to a specific address the
destination level keeps every entry, and two filter chains with different destination prefixes
and the same source match reach that error.
-/

namespace GrpcGo
namespace XdsClient

open GoStd GoStd.Net

variable {Rest FC : Type}

/-! ## Prefix maps -/

/-- The prefix of an entry prints as its key: no prefix for `unspecifiedPrefixMapKey`, and for
`prefix.String()` a prefix `ParseCIDR` returned. -/
def NetFits (k : PrefixKey) : Option IPNet → Prop
  | none => k = .unspecified
  | some n => CIDRNet n ∧ k = prefixKey n

/-- A prefix map as the builder keeps it: no key twice, and the prefix of each entry prints as
its key. -/
structure PrefixMapOK {β : Type} (net : β → Option IPNet) (m : List (PrefixKey × β)) : Prop where
  nodup : (m.map Prod.fst).Nodup
  fits : ∀ p ∈ m, NetFits p.1 (net p.2)

namespace PrefixMapOK

variable {β : Type} {net : β → Option IPNet} {m : List (PrefixKey × β)}

theorem nil (net : β → Option IPNet) : PrefixMapOK net [] :=
  ⟨List.nodup_nil, fun _ h => absurd h List.not_mem_nil⟩

/-- `m[k] = v` for an entry whose prefix prints as `k`. -/
theorem insert (hm : PrefixMapOK net m) {k : PrefixKey} {v : β} (hk : NetFits k (net v)) :
    PrefixMapOK net (Map.insert k v m) := by
  constructor
  · exact Map.nodup_keys_insert k v m hm.nodup
  · intro p hp
    rcases Map.keys_insert_subset k v m p hp with rfl | hp
    · exact hk
    · exact hm.fits p hp

/-- The entry of a key, or else a new entry whose prefix prints as the key, has a prefix that
prints as the key. -/
theorem fits_lookup_getD (hm : PrefixMapOK net m) {k : PrefixKey} {d : β}
    (hd : NetFits k (net d)) : NetFits k (net ((m.lookup k).getD d)) := by
  cases hl : m.lookup k with
  | none => exact hd
  | some v => exact hm.fits (k, v) (Map.mem_of_lookup_eq_some hl)

end PrefixMapOK

/-! ## The builder keeps its maps prefix maps -/

section Build

variable (fromProto : Rest → Except String FC)

theorem addSourcePort_net {fc : FC} {e e' : sourcePrefixEntry FC} {port : Int}
    (h : addSourcePort fc e port = .ok e') : e'.net = e.net := by
  unfold addSourcePort at h
  split at h
  · cases h
  · cases h
    rfl

/-- Adding a filter chain on its source ports keeps the entry's prefix. -/
theorem addFilterChainsForSourcePorts_net {e e' : sourcePrefixEntry FC}
    {fc : FilterChainProto Rest} (h : addFilterChainsForSourcePorts fromProto e fc = .ok e') :
    e'.net = e.net := by
  unfold addFilterChainsForSourcePorts at h
  rw [Except.bind_eq_ok_iff] at h
  obtain ⟨c, -, h⟩ := h
  split at h
  · exact addSourcePort_net h
  · exact Except.foldlM_invariant (fun e'' => e''.net = e.net) _
      (fun _ _ _ _ hb hstep => (addSourcePort_net hstep).trans hb) rfl h

/-- The prefixes of a list of ranges are prefixes `ParseCIDR` returned. -/
theorem parsePrefixRanges_net {err : CidrRange → FilterChainError} {ranges : List CidrRange}
    {ns : List IPNet} (h : parsePrefixRanges err ranges = .ok ns) : ∀ n ∈ ns, CIDRNet n := by
  intro n hn
  obtain ⟨pr, -, hpr⟩ := Except.mem_of_mapM_eq_ok h n hn
  split at hpr
  · rename_i hparse
    cases hpr
    exact ParseCIDR_net hparse
  · cases hpr

theorem addSourcePrefix_ok {fc : FilterChainProto Rest}
    {m m' : List (PrefixKey × sourcePrefixEntry FC)} {key : PrefixKey} {net : Option IPNet}
    (hm : PrefixMapOK sourcePrefixEntry.net m) (hk : NetFits key net)
    (h : addSourcePrefix fromProto fc m key net = .ok m') :
    PrefixMapOK sourcePrefixEntry.net m' := by
  unfold addSourcePrefix at h
  rw [Except.bind_eq_ok_iff] at h
  obtain ⟨e, he, h⟩ := h
  rw [Except.pure_eq_ok, Except.ok.injEq] at h
  subst h
  apply hm.insert
  rw [addFilterChainsForSourcePorts_net fromProto he]
  exact hm.fits_lookup_getD hk

theorem addFilterChainsForSourcePrefixes_ok {fc : FilterChainProto Rest}
    {m m' : List (PrefixKey × sourcePrefixEntry FC)} (hm : PrefixMapOK sourcePrefixEntry.net m)
    (h : addFilterChainsForSourcePrefixes fromProto m fc = .ok m') :
    PrefixMapOK sourcePrefixEntry.net m' := by
  unfold addFilterChainsForSourcePrefixes at h
  rw [Except.bind_eq_ok_iff] at h
  obtain ⟨ns, hns, h⟩ := h
  split at h
  · exact addSourcePrefix_ok fromProto hm (show NetFits .unspecified none from rfl) h
  · -- each source prefix under the key it prints as
    exact Except.foldlM_invariant (PrefixMapOK sourcePrefixEntry.net) ns
      (fun _ n _ hn hm₁ hstep =>
        addSourcePrefix_ok fromProto hm₁
          (show NetFits (prefixKey n) (some n) from ⟨parsePrefixRanges_net hns n hn, rfl⟩) hstep)
      hm h

/-- The source map of every source type of a destination entry is a prefix map. -/
def SlotsOK (e : destPrefixEntry FC) : Prop :=
  ∀ t sp, e.srcTypeArr t = some sp → PrefixMapOK sourcePrefixEntry.net sp.srcPrefixMap

theorem addFilterChainsForSourceType_ok {e e' : destPrefixEntry FC} {fc : FilterChainProto Rest}
    (he : SlotsOK e) (h : addFilterChainsForSourceType fromProto e fc = .ok e') :
    SlotsOK e' ∧ e'.net = e.net := by
  unfold addFilterChainsForSourceType at h
  rw [Except.bind_eq_ok_iff] at h
  obtain ⟨t, -, h⟩ := h
  rw [Except.bind_eq_ok_iff] at h
  obtain ⟨m, hm, h⟩ := h
  rw [Except.pure_eq_ok, Except.ok.injEq] at h
  subst h
  -- the source map of `t` before: the entry's, or an empty one
  have hsp : PrefixMapOK sourcePrefixEntry.net ((e.srcTypeArr t).getD ⟨[], []⟩).srcPrefixMap := by
    cases ht : e.srcTypeArr t with
    | none => exact PrefixMapOK.nil _
    | some sp => exact he t sp ht
  refine ⟨fun t' sp' ht' => ?_, rfl⟩
  dsimp only at ht'
  by_cases htt : t' = t
  · subst htt
    rw [Function.update_self, Option.some.injEq] at ht'
    subst ht'
    exact addFilterChainsForSourcePrefixes_ok fromProto hsp hm
  · rw [Function.update_of_ne htt] at ht'
    exact he t' sp' ht'

theorem addFilterChainsForApplicationProtocols_ok {e e' : destPrefixEntry FC}
    {fc : FilterChainProto Rest} (he : SlotsOK e)
    (h : addFilterChainsForApplicationProtocols fromProto e fc = .ok e') :
    SlotsOK e' ∧ e'.net = e.net := by
  unfold addFilterChainsForApplicationProtocols at h
  split at h
  · cases h
    exact ⟨he, rfl⟩
  · exact addFilterChainsForSourceType_ok fromProto he h

theorem addFilterChainsForTransportProtocols_ok {e e' : destPrefixEntry FC}
    {fc : FilterChainProto Rest} (he : SlotsOK e)
    (h : addFilterChainsForTransportProtocols fromProto e fc = .ok e') :
    SlotsOK e' ∧ e'.net = e.net := by
  unfold addFilterChainsForTransportProtocols at h
  dsimp only at h
  split at h
  · cases h
    exact ⟨he, rfl⟩
  · split at h
    · cases h
      exact ⟨he, rfl⟩
    · -- the first `raw_buffer` filter chain of the entry clears its source types
      split at h
      · have hcleared : SlotsOK
            ({ net := e.net, rawBufferSeen := true, srcTypeArr := fun _ => none } : destPrefixEntry FC) :=
          fun _ _ ht => by cases ht
        -- the cleared entry keeps the prefix
        obtain ⟨hs, hnet⟩ := addFilterChainsForApplicationProtocols_ok fromProto hcleared h
        exact ⟨hs, hnet⟩
      · exact addFilterChainsForApplicationProtocols_ok fromProto he h

theorem addFilterChainsForServerNames_ok {e e' : destPrefixEntry FC}
    {fc : FilterChainProto Rest} (he : SlotsOK e)
    (h : addFilterChainsForServerNames fromProto e fc = .ok e') :
    SlotsOK e' ∧ e'.net = e.net := by
  unfold addFilterChainsForServerNames at h
  split at h
  · cases h
    exact ⟨he, rfl⟩
  · exact addFilterChainsForTransportProtocols_ok fromProto he h

/-- The destination map as the builder keeps it. -/
structure DstMapOK (m : List (PrefixKey × destPrefixEntry FC)) : Prop where
  keys : PrefixMapOK destPrefixEntry.net m
  slots : ∀ p ∈ m, SlotsOK p.2

theorem addDestPrefix_ok {fc : FilterChainProto Rest}
    {m m' : List (PrefixKey × destPrefixEntry FC)} {key : PrefixKey} {net : Option IPNet}
    (hm : DstMapOK m) (hk : NetFits key net) (h : addDestPrefix fromProto fc m key net = .ok m') :
    DstMapOK m' := by
  unfold addDestPrefix at h
  rw [Except.bind_eq_ok_iff] at h
  obtain ⟨e, he, h⟩ := h
  rw [Except.pure_eq_ok, Except.ok.injEq] at h
  subst h
  -- the entry found or made for `key`
  have hslots : SlotsOK ((m.lookup key).getD ⟨net, false, fun _ => none⟩) := by
    cases hl : m.lookup key with
    | none => exact fun _ _ ht => by cases ht
    | some e₀ => exact hm.slots (key, e₀) (Map.mem_of_lookup_eq_some hl)
  obtain ⟨hslots', hnet⟩ := addFilterChainsForServerNames_ok fromProto hslots he
  constructor
  · apply hm.keys.insert
    rw [hnet]
    exact hm.keys.fits_lookup_getD hk
  · intro p hp
    rcases Map.keys_insert_subset _ _ m p hp with rfl | hp
    · exact hslots'
    · exact hm.slots p hp

theorem addFilterChainsForDestPrefixes_ok {fc : FilterChainProto Rest}
    {m m' : List (PrefixKey × destPrefixEntry FC)} (hm : DstMapOK m)
    (h : addFilterChainsForDestPrefixes fromProto m fc = .ok m') : DstMapOK m' := by
  unfold addFilterChainsForDestPrefixes at h
  rw [Except.bind_eq_ok_iff] at h
  obtain ⟨ns, hns, h⟩ := h
  split at h
  · exact addDestPrefix_ok fromProto hm (show NetFits .unspecified none from rfl) h
  · -- each destination prefix under the key it prints as
    exact Except.foldlM_invariant DstMapOK ns
      (fun _ n _ hn hm₁ hstep =>
        addDestPrefix_ok fromProto hm₁
          (show NetFits (prefixKey n) (some n) from ⟨parsePrefixRanges_net hns n hn, rfl⟩) hstep)
      hm h

/-- The destination map `addFilterChains` builds from an empty one. -/
theorem addFilterChains_ok {fcs : List (FilterChainProto Rest)}
    {m : List (PrefixKey × destPrefixEntry FC)} (h : addFilterChains fromProto [] fcs = .ok m) :
    DstMapOK m := by
  unfold addFilterChains at h
  refine Except.foldlM_invariant DstMapOK fcs (fun m₁ fc m₂ _ hm₁ hstep => ?_)
    ⟨PrefixMapOK.nil _, fun _ h => absurd h List.not_mem_nil⟩ h
  split at hstep
  · cases hstep
    exact hm₁
  · exact addFilterChainsForDestPrefixes_ok fromProto hm₁ hstep

/-- What `Lookup` reads of a manager `NewFilterChainManager` built: the destination map is a
prefix map and the slice is its values, and so are the source map and slice of every source type
of every entry. -/
structure ManagerOK (fci : FilterChainManager FC) : Prop where
  keys : PrefixMapOK destPrefixEntry.net fci.dstPrefixMap
  dstPrefixes : fci.dstPrefixes = fci.dstPrefixMap.map Prod.snd
  srcPrefixes : ∀ e ∈ fci.dstPrefixes, ∀ t sp, e.srcTypeArr t = some sp →
    PrefixMapOK sourcePrefixEntry.net sp.srcPrefixMap ∧ sp.srcPrefixes = sp.srcPrefixMap.map Prod.snd

/-- Building the slices keeps the prefix of each entry. -/
theorem PrefixMapOK.map_withSlices {m : List (PrefixKey × destPrefixEntry FC)}
    (hm : PrefixMapOK destPrefixEntry.net m) :
    PrefixMapOK destPrefixEntry.net (m.map fun (k, e) => (k, e.withSlices)) := by
  constructor
  · rw [List.map_map]
    exact hm.nodup
  · intro p hp
    obtain ⟨q, hq, rfl⟩ := List.mem_map.mp hp
    exact hm.fits q hq

/-- The slices of an entry are the values of its source maps. -/
theorem SlotsOK.withSlices {e : destPrefixEntry FC} (he : SlotsOK e) (t : SourceType)
    (sp : sourcePrefixes FC) (ht : e.withSlices.srcTypeArr t = some sp) :
    PrefixMapOK sourcePrefixEntry.net sp.srcPrefixMap ∧
      sp.srcPrefixes = sp.srcPrefixMap.map Prod.snd := by
  unfold destPrefixEntry.withSlices at ht
  obtain ⟨sp₀, hsp₀, rfl⟩ := Option.map_eq_some_iff.mp ht
  exact ⟨he t sp₀ hsp₀, rfl⟩

/-- A manager made of a destination map the builder made, with its slices. -/
theorem DstMapOK.manager {m : List (PrefixKey × destPrefixEntry FC)} (hm : DstMapOK m)
    (defaultFC : Option FC) :
    ManagerOK (⟨m.map fun (k, e) => (k, e.withSlices),
      (m.map fun (k, e) => (k, e.withSlices)).map Prod.snd, defaultFC⟩ : FilterChainManager FC) := by
  refine ⟨hm.keys.map_withSlices, rfl, ?_⟩
  intro e he t sp ht
  obtain ⟨p, hp, rfl⟩ := List.mem_map.mp he
  obtain ⟨q, hq, rfl⟩ := List.mem_map.mp hp
  exact (hm.slots q hq).withSlices t sp ht

/-- **The manager `NewFilterChainManager` builds** has prefix maps at both prefix levels. -/
theorem NewFilterChainManager_ok {lis : Listener Rest} {fci : FilterChainManager FC}
    (h : NewFilterChainManager fromProto lis = .ok fci) : ManagerOK fci := by
  unfold NewFilterChainManager at h
  rw [Except.bind_eq_ok_iff] at h
  obtain ⟨m, hm, h⟩ := h
  have hok := addFilterChains_ok fromProto hm
  -- what is left reads only the default filter chain
  cases hd : lis.defaultFilterChain with
  | none =>
    simp only [hd, Except.pure_eq_ok, Except.ok_bind] at h
    split at h
    · cases h
    · rw [Except.ok.injEq] at h
      subst h
      exact hok.manager none
  | some dfc =>
    simp only [hd] at h
    rw [Except.bind_eq_ok_iff] at h
    obtain ⟨d, -, h⟩ := h
    split at h
    · cases h
    · rw [Except.pure_eq_ok, Except.ok.injEq] at h
      subst h
      exact hok.manager d

end Build

/-! ## One entry for the best score -/

theorem prefixScore_some {addr : IP} {n : IPNet} {s : Int}
    (h : prefixScore addr (some n) = some s) : n.Contains addr = true ∧ s = n.mask.Size.1 := by
  simp only [prefixScore] at h
  split_ifs at h with hc
  exact ⟨hc, (Option.some.inj h).symm⟩

/-- A prefix scores at least zero, above the unspecified prefix. -/
theorem prefixScore_some_ne_unspecified (addr : IP) (n : IPNet) :
    prefixScore addr (some n) ≠ some unspecifiedPrefixMatch := by
  intro h
  obtain ⟨-, hs⟩ := prefixScore_some h
  simp only [unspecifiedPrefixMatch] at hs
  omega

/-- Two entries whose prefixes print as their keys and score the same for an address have the
same key. -/
theorem key_eq_of_prefixScore_eq {addr : IP} {s : Int} {k₁ k₂ : PrefixKey}
    {net₁ net₂ : Option IPNet} (h₁ : NetFits k₁ net₁) (h₂ : NetFits k₂ net₂)
    (hs₁ : prefixScore addr net₁ = some s) (hs₂ : prefixScore addr net₂ = some s) : k₁ = k₂ := by
  cases net₁ with
  | none =>
    cases net₂ with
    | none => exact h₁.trans h₂.symm
    | some n₂ => exact absurd (hs₂.trans hs₁.symm) (prefixScore_some_ne_unspecified addr n₂)
  | some n₁ =>
    cases net₂ with
    | none => exact absurd (hs₁.trans hs₂.symm) (prefixScore_some_ne_unspecified addr n₁)
    | some n₂ =>
      -- two prefixes of one size containing the address print the same
      obtain ⟨hc₁, hs₁⟩ := prefixScore_some hs₁
      obtain ⟨hc₂, hs₂⟩ := prefixScore_some hs₂
      have hsize : n₁.mask.Size.1 = n₂.mask.Size.1 := by omega
      rw [h₁.2, h₂.2, prefixKey, prefixKey,
        networkNumberAndMask_eq_of_contains h₁.1 h₂.1 hsize hc₁ hc₂]

namespace PrefixMapOK

variable {β : Type} {net : β → Option IPNet} {m : List (PrefixKey × β)}

/-- At most one entry of a prefix map has a given score for an address. -/
theorem length_filter_le_one (hm : PrefixMapOK net m) (addr : IP) (s : Int) :
    ((m.map Prod.snd).filter fun e => prefixScore addr (net e) == some s).length ≤ 1 := by
  rw [List.filter_map, List.length_map]
  apply KeepBest.length_filter_le_one Prod.fst _ hm.nodup
  intro x hx y hy hpx hpy
  simp only [Function.comp_apply, beq_iff_eq] at hpx hpy
  exact key_eq_of_prefixScore_eq (hm.fits x hx) (hm.fits y hy) hpx hpy

/-- The scan of a prefix level keeps the best entry, and no other. -/
theorem foldl_step (hm : PrefixMapOK net m) (addr : IP) :
    ((m.map Prod.snd).foldl (KeepBest.step fun e => prefixScore addr (net e))
        (noPrefixMatch, [])).2 =
      (KeepBest.best (fun e => prefixScore addr (net e)) noPrefixMatch (m.map Prod.snd)).toList :=
  KeepBest.foldl_step_of_unique _ _ _ (hm.length_filter_le_one addr _)

end PrefixMapOK

/-! ## The levels of `Lookup` -/

theorem filterByDestinationPrefixes_wildcard {fci : FilterChainManager FC} (hfci : ManagerOK fci)
    (addr : IP) :
    filterByDestinationPrefixes fci.dstPrefixes true addr =
      (KeepBest.best (fun e => prefixScore addr e.net) noPrefixMatch fci.dstPrefixes).toList := by
  unfold filterByDestinationPrefixes
  simp only [Bool.not_true, Bool.false_eq_true, if_false]
  rw [hfci.dstPrefixes]
  exact hfci.keys.foldl_step addr

/-- With one destination entry, the source type level finds the source prefixes of the
connection's source type there, or else those of ANY. -/
theorem filterBySourceType_singleton (e : destPrefixEntry FC) (t : SourceType) :
    filterBySourceType [e] t = ((e.srcTypeArr t).or (e.srcTypeArr .Any)).toList := by
  unfold filterBySourceType
  rw [List.foldl_cons, List.foldl_nil]
  cases t with
  | Any =>
    -- no type of its own: ANY, at the score the scan starts from
    cases hA : e.srcTypeArr .Any <;> simp [sourceTypeStep, hA, SourceType.toInt]
  | SameOrLoopback =>
    cases hS : e.srcTypeArr .SameOrLoopback <;> cases hA : e.srcTypeArr .Any <;>
      simp [sourceTypeStep, hS, hA, SourceType.toInt]
  | External =>
    cases hE : e.srcTypeArr .External <;> cases hA : e.srcTypeArr .Any <;>
      simp [sourceTypeStep, hE, hA, SourceType.toInt]

theorem filterBySourcePrefixes_singleton {sp : sourcePrefixes FC}
    (hm : PrefixMapOK sourcePrefixEntry.net sp.srcPrefixMap)
    (hs : sp.srcPrefixes = sp.srcPrefixMap.map Prod.snd) (addr : IP) :
    filterBySourcePrefixes [sp] addr =
      .ok (KeepBest.best (fun e => prefixScore addr e.net) noPrefixMatch sp.srcPrefixes) := by
  unfold filterBySourcePrefixes
  dsimp only
  rw [List.foldl_cons, List.foldl_nil, hs, hm.foldl_step addr]
  cases KeepBest.best _ _ _ <;> rfl

theorem filterBySourcePorts_some (spe : sourcePrefixEntry FC) (port : Int) :
    filterBySourcePorts (some spe) port =
      (spe.srcPortMap.lookup port).or (spe.srcPortMap.lookup 0) := by
  unfold filterBySourcePorts
  dsimp only
  cases spe.srcPortMap.lookup port <;> rfl

/-! ## Two listeners -/

/-- A `FilterChainMatch` with every field at its default. -/
def emptyFilterChainMatch : FilterChainMatch := ⟨none, [], [], "", [], .ANY, [], []⟩

/-- Two filter chains, numbered 1 and 2, for `10.0.0.0/8` and `192.168.0.0/16`. -/
def twoPrefixListener : Listener Nat :=
  ⟨[⟨{ emptyFilterChainMatch with prefixRanges := [⟨"10.0.0.0", some 8⟩] }, 1⟩,
    ⟨{ emptyFilterChainMatch with prefixRanges := [⟨"192.168.0.0", some 16⟩] }, 2⟩], none⟩

/-- A filter chain for `10.0.0.0/8`, and one for `10.1.0.0/16` with server names, which the
manager drops. -/
def shadowedListener : Listener Nat :=
  ⟨[⟨{ emptyFilterChainMatch with prefixRanges := [⟨"10.0.0.0", some 8⟩] }, 1⟩,
    ⟨{ emptyFilterChainMatch with
        prefixRanges := [⟨"10.1.0.0", some 16⟩], serverNames := ["foo"] }, 2⟩], none⟩

/-- A connection from `10.9.9.9`, port 1234, to `10.1.2.3`, on a listener bound to the wildcard
address or not. -/
def connectionTo10 (wildcard : Bool) : FilterChainLookupParams :=
  ⟨wildcard, IPv4 10 1 2 3, IPv4 10 9 9 9, 1234⟩

/-- The manager built for `twoPrefixListener`. -/
def twoPrefixManager : FilterChainManager Nat :=
  match NewFilterChainManager (Except.ok : Nat → Except String Nat) twoPrefixListener with
  | .ok fci => fci
  | .error _ => ⟨[], [], none⟩

/-! ## `Lookup` on a listener bound to the wildcard address -/

/-- The source type of a connection, as `Lookup` computes it: `SourceTypeSameOrLoopback` when the
source is the destination or a loopback address, `SourceTypeExternal` otherwise. -/
def connectionSourceType (params : FilterChainLookupParams) : SourceType :=
  if params.SourceAddr.Equal params.DestAddr || params.SourceAddr.IsLoopback then .SameOrLoopback
  else .External

/-- The walk down the levels of the manager, one entry at each: the destination entry of the
largest prefix containing the destination (the unspecified prefix scoring below every prefix),
the source prefixes of the connection's source type there or else of ANY, the source entry of the
largest prefix containing the source, and the filter chain of the source port or else of port 0.
A level that finds nothing gives the default filter chain, or that level's error when there is
none; the walk never goes back to an entry it did not choose. -/
def FilterChainManager.walk (fci : FilterChainManager FC) (params : FilterChainLookupParams) :
    Except LookupError FC :=
  match KeepBest.best (fun e => prefixScore params.DestAddr e.net) noPrefixMatch fci.dstPrefixes with
  | none => fci.orDefault (.noMatchDestPrefix params)
  | some dst =>
    match (dst.srcTypeArr (connectionSourceType params)).or (dst.srcTypeArr .Any) with
    | none => fci.orDefault (.noMatchSourceType params)
    | some sp =>
      match KeepBest.best (fun e => prefixScore params.SourceAddr e.net) noPrefixMatch
          sp.srcPrefixes with
      | none => fci.orDefault (.noMatchAll params)
      | some spe =>
        ((spe.srcPortMap.lookup params.SourcePort).or (spe.srcPortMap.lookup 0)).elim
          (fci.orDefault (.noMatchAll params)) .ok

theorem orDefault_ne_multipleMatching (fci : FilterChainManager FC) {err : LookupError}
    (herr : err ≠ .multipleMatching) : fci.orDefault err ≠ .error .multipleMatching := by
  unfold FilterChainManager.orDefault
  split
  · intro h
    cases h
  · exact fun h => herr (Except.error.inj h)

/-- The walk fails only with the error of a level that finds nothing. -/
theorem walk_ne_multipleMatching (fci : FilterChainManager FC) (params : FilterChainLookupParams) :
    fci.walk params ≠ .error .multipleMatching := by
  unfold FilterChainManager.walk
  split
  · exact orDefault_ne_multipleMatching fci (by simp)
  split
  · exact orDefault_ne_multipleMatching fci (by simp)
  split
  · exact orDefault_ne_multipleMatching fci (by simp)
  rename_i spe _
  cases (spe.srcPortMap.lookup params.SourcePort).or (spe.srcPortMap.lookup 0) with
  | none => exact orDefault_ne_multipleMatching fci (by simp)
  | some fc =>
    intro h
    cases h

section Build

variable (fromProto : Rest → Except String FC)

theorem Lookup_eq_walk (lis : Listener Rest) (fci : FilterChainManager FC)
    (h : NewFilterChainManager fromProto lis = .ok fci) (params : FilterChainLookupParams)
    (hw : params.IsUnspecifiedListener = true) :
    fci.Lookup params = fci.walk params ∧ fci.Lookup params ≠ .error .multipleMatching := by
  have hfci := NewFilterChainManager_ok fromProto h
  have heq : fci.Lookup params = fci.walk params := by
    have hsrc : (if params.SourceAddr.Equal params.DestAddr || params.SourceAddr.IsLoopback then
        SourceType.SameOrLoopback else SourceType.External) = connectionSourceType params := rfl
    unfold FilterChainManager.Lookup FilterChainManager.walk
    rw [hw, filterByDestinationPrefixes_wildcard hfci]
    cases hd : KeepBest.best (fun e => prefixScore params.DestAddr e.net) noPrefixMatch
        fci.dstPrefixes with
    | none => rfl
    | some dst =>
      -- one destination entry: the source type level reads it alone
      have hdst : dst ∈ fci.dstPrefixes := List.mem_of_find?_eq_some hd
      simp only [Option.toList_some, List.isEmpty_cons, Bool.false_eq_true, if_false, hsrc,
        filterBySourceType_singleton]
      cases hsp : (dst.srcTypeArr (connectionSourceType params)).or (dst.srcTypeArr .Any) with
      | none => rfl
      | some sp =>
        -- the source prefixes found are those of one source type of the entry
        have hslot : ∃ t, dst.srcTypeArr t = some sp := by
          rcases Option.or_eq_some_iff.mp hsp with ht | ⟨-, ht⟩
          · exact ⟨_, ht⟩
          · exact ⟨_, ht⟩
        obtain ⟨t, ht⟩ := hslot
        obtain ⟨hm, hs⟩ := hfci.srcPrefixes dst hdst t sp ht
        simp only [Option.toList_some, List.isEmpty_cons, Bool.false_eq_true, if_false]
        rw [filterBySourcePrefixes_singleton hm hs]
        cases KeepBest.best (fun e => prefixScore params.SourceAddr e.net) noPrefixMatch
            sp.srcPrefixes with
        | none => rfl
        | some spe =>
          dsimp only
          rw [filterBySourcePorts_some]
          cases (spe.srcPortMap.lookup params.SourcePort).or (spe.srcPortMap.lookup 0) <;> rfl
  exact ⟨heq, heq ▸ walk_ne_multipleMatching fci params⟩

end Build

theorem Lookup_eq_walk_twoPrefixes :
    NewFilterChainManager (Except.ok : Nat → Except String Nat) twoPrefixListener =
        .ok twoPrefixManager ∧
      twoPrefixManager.Lookup (connectionTo10 true) = twoPrefixManager.walk (connectionTo10 true) ∧
      twoPrefixManager.Lookup (connectionTo10 true) ≠ .error .multipleMatching := by
  have hbuild : NewFilterChainManager (Except.ok : Nat → Except String Nat) twoPrefixListener =
      .ok twoPrefixManager := by
    rfl
  exact ⟨hbuild, Lookup_eq_walk _ twoPrefixListener twoPrefixManager hbuild _ rfl⟩

/-- On a listener bound to a specific address both filter chains reach the source levels, and
`Lookup` reports multiple matching filter chains; on the wildcard address the entry of the
dropped filter chain for `10.1.0.0/16` takes the connection, and `Lookup` fails although the
filter chain for `10.0.0.0/8` matches it. -/
theorem Lookup_not_most_specific :
    (NewFilterChainManager (Except.ok : Nat → Except String Nat) twoPrefixListener).map
        (fun fci => fci.Lookup (connectionTo10 false)) = .ok (.error .multipleMatching) ∧
      (NewFilterChainManager (Except.ok : Nat → Except String Nat) shadowedListener).map
        (fun fci => fci.Lookup (connectionTo10 true)) =
          .ok (.error (.noMatchSourceType (connectionTo10 true))) := by
  decide

end XdsClient
end GrpcGo
