import GrpcGo.Lib.ExceptBind
import GrpcGo.Lib.ListCount
import GrpcGo.Balancer.ConfigBuilder

/-!
# Every endpoint goes to exactly one child of the priority config

What `buildPriorityConfig` is for, stated over the discovery mechanisms alone: the children of
the priority balancer are one per DNS mechanism and one per EDS priority in use (the priorities of
the localities of non-zero weight, ascending, each once), in the mechanisms' order
(`priorityChildren`), and the addresses are exactly the healthy or unknown endpoints of the
localities of non-zero weight and the DNS addresses, each once, with the path that names its
child and, for EDS, its locality (`routedEntries`).  `hierarchy.Group`, as the `priority` and the
`weighted_target` balancers apply it, then hands each child, and each locality under it, exactly
the endpoints whose path names them (`Group_lookup`).

The names of the children are distinct because a decimal number has no `-`
(`childId.name_injective`); the builder emits the EDS endpoints priority by priority, which is the
order of the localities regrouped (`List.flatMap_filter_key_perm`).
-/

namespace GrpcGo

namespace Hierarchy

/-- An address as the balancers route it: the address and its path. -/
def pathEntry (addr : Address) : String × List String := (addr.Addr, Get addr)

/-- What `Group` hands the child `n` of an address: the address with the rest of its path, when
its path starts with `n`. -/
def childAddress (n : String) (addr : Address) : Option Address :=
  match Get addr with
  | [] => none
  | m :: rest => if m = n then some (Set addr rest) else none

/-- `childAddress` on the entries. -/
def descend (n : String) : String × List String → Option (String × List String)
  | (_, []) => none
  | (a, m :: rest) => if m = n then some (a, rest) else none

theorem pathEntry_childAddress (n : String) (addr : Address) :
    (childAddress n addr).map pathEntry = descend n (pathEntry addr) := by
  unfold childAddress pathEntry
  cases Get addr with
  | nil => rfl
  | cons m rest =>
    by_cases hm : m = n
    · simp [hm, descend, Set, Get]
    · simp [hm, descend]

/-- The fold of `Group` adds to each child's list in the order of the addresses. -/
theorem lookup_foldl_groupAddress (n : String) :
    ∀ (addrs : List Address) (ret : List (String × List Address)),
      ((addrs.foldl groupAddress ret).lookup n).getD [] =
        (ret.lookup n).getD [] ++ addrs.filterMap (childAddress n)
  | [], ret => by simp
  | addr :: addrs, ret => by
    rw [List.foldl_cons, lookup_foldl_groupAddress n addrs, List.filterMap_cons]
    unfold groupAddress
    cases hpath : Get addr with
    | nil => simp [childAddress, hpath]
    | cons m rest =>
      have hchild : childAddress n addr = if m = n then some (Set addr rest) else none := by
        simp only [childAddress, hpath]
      rw [hchild, GoStd.Map.lookup_insert]
      by_cases hm : m = n
      · subst hm
        simp
      · simp [hm, Ne.symm hm]

/-- **`hierarchy.Group`** hands the child `n` the addresses whose path starts with `n`, in their
order, each with the rest of its path. -/
theorem Group_lookup (addrs : List Address) (n : String) :
    ((Group addrs).lookup n).getD [] = addrs.filterMap (childAddress n) := by
  unfold Group
  rw [lookup_foldl_groupAddress]
  rfl

/-- `Group_lookup` on the entries. -/
theorem Group_lookup_pathEntry (addrs : List Address) (n : String) :
    (((Group addrs).lookup n).getD []).map pathEntry = (addrs.map pathEntry).filterMap (descend n) := by
  rw [Group_lookup, List.map_filterMap, List.filterMap_map]
  exact List.filterMap_congr fun addr _ => pathEntry_childAddress n addr

end Hierarchy

namespace ClusterResolver

open GoStd Hierarchy Except

/-! ## The children -/

/-- A child of the priority config: the EDS priority `p` of the mechanism numbered `i`, or the DNS
mechanism numbered `i`. -/
inductive childId
  | eds (i p : Nat)
  | dns (i : Nat)
  deriving DecidableEq, Repr

/-- The name the builder gives a child: `priority-<i>-<p>` for EDS, `priority-<i>` for DNS. -/
def childId.name : childId → String
  | .eds i p => "priority-" ++ toString i ++ "-" ++ toString p
  | .dns i => "priority-" ++ toString i

/-- The number of the mechanism a child belongs to. -/
def childId.index : childId → Nat
  | .eds i _ => i
  | .dns i => i

/-- The chars of a child's name after `priority-`. -/
theorem childId.toList_name : ∀ c : childId, c.name.toList = "priority-".toList ++
    match c with
    | .eds i p => (toString i).toList ++ '-' :: (toString p).toList
    | .dns i => (toString i).toList
  | .eds i p => by
    have hdash : "-".toList = ['-'] := rfl
    simp only [childId.name, String.toList_append, List.append_assoc, hdash, List.singleton_append]
  | .dns i => by simp only [childId.name, String.toList_append]

/-- **Child names are distinct**: a number in decimal has no `-`, so the name gives back the
mechanism's number and the priority. -/
theorem childId.name_injective : Function.Injective childId.name := by
  intro a b h
  have hl := congrArg String.toList h
  rw [childId.toList_name, childId.toList_name, List.append_cancel_left_eq] at hl
  cases a with
  | eds i p =>
    cases b with
    | eds j q =>
      obtain ⟨hij, -, hpq⟩ := (List.append_cons_inj_of_notMem (Strconv.dash_not_mem_toString i)
        (Strconv.dash_not_mem_toString p)).mp hl
      rw [Strconv.toString_inj (String.toList_injective hij),
        Strconv.toString_inj (String.toList_injective hpq)]
    | dns j =>
      -- the name of a DNS child has no `-` after `priority-`
      dsimp only at hl
      have hdash : '-' ∈ (toString j).toList := by
        rw [← hl]
        exact List.mem_append_right _ List.mem_cons_self
      exact absurd hdash (Strconv.dash_not_mem_toString j)
  | dns i =>
    cases b with
    | eds j q =>
      dsimp only at hl
      have hdash : '-' ∈ (toString i).toList := by
        rw [hl]
        exact List.mem_append_right _ List.mem_cons_self
      exact absurd hdash (Strconv.dash_not_mem_toString i)
    | dns j =>
      rw [Strconv.toString_inj (String.toList_injective hl)]

/-- The EDS priorities in use: those of the localities of non-zero weight, ascending, each
once. -/
def edsPriorities (localities : List Locality) : List Nat :=
  ((localities.filter (·.Weight ≠ 0)).map (·.Priority.toNat)).toFinset.sort (· ≤ ·)

/-- The children of one mechanism, numbered `i`. -/
def mechanismChildren (p : priorityConfig) (i : Nat) : List childId :=
  match p.mechanism.«Type» with
  | .EDS => (edsPriorities p.edsResp.Localities).map (childId.eds i)
  | .LogicalDNS => [childId.dns i]

/-- The children of the priority config: those of each mechanism in turn. -/
def priorityChildren (priorities : List priorityConfig) : List childId :=
  priorities.zipIdx.flatMap fun e => mechanismChildren e.1 e.2

theorem index_of_mem_mechanismChildren {p : priorityConfig} {i : Nat} {c : childId}
    (h : c ∈ mechanismChildren p i) : c.index = i := by
  unfold mechanismChildren at h
  split at h
  · obtain ⟨_, _, rfl⟩ := List.mem_map.mp h
    rfl
  · rw [List.mem_singleton.mp h]
    rfl

theorem nodup_mechanismChildren (p : priorityConfig) (i : Nat) :
    (mechanismChildren p i).Nodup := by
  unfold mechanismChildren
  split
  · exact (Finset.sort_nodup _ _).map fun _ _ h => (childId.eds.inj h).2
  · exact List.nodup_singleton _

/-- The children from the mechanism numbered `i` on are distinct, and belong to mechanisms
numbered `i` or more. -/
theorem nodup_children_from : ∀ (ps : List priorityConfig) (i : Nat),
    ((ps.zipIdx i).flatMap fun e => mechanismChildren e.1 e.2).Nodup ∧
      ∀ c ∈ (ps.zipIdx i).flatMap (fun e => mechanismChildren e.1 e.2), i ≤ c.index
  | [], _ => by simp
  | p :: ps, i => by
    obtain ⟨hnd, hidx⟩ := nodup_children_from ps (i + 1)
    rw [List.zipIdx_cons, List.flatMap_cons]
    refine ⟨List.nodup_append.mpr ⟨nodup_mechanismChildren p i, hnd, ?_⟩, ?_⟩
    · intro c hc c' hc' hcc'
      have := hidx c' hc'
      rw [← hcc', index_of_mem_mechanismChildren hc] at this
      omega
    · intro c hc
      rcases List.mem_append.mp hc with hc | hc
      · rw [index_of_mem_mechanismChildren hc]
      · exact Nat.le_of_succ_le (hidx c hc)

theorem nodup_priorityChildren_names (priorities : List priorityConfig) :
    ((priorityChildren priorities).map childId.name).Nodup :=
  (nodup_children_from priorities 0).1.map childId.name_injective

/-! ## The addresses -/

section Entries

variable (localityString : LocalityID → String)

/-- The entries of a locality's endpoints under the child `pName`: each healthy or unknown
endpoint, with path `[pName, localityString]`. -/
def localityEntries (pName : String) (locality : Locality) : List (String × List String) :=
  (locality.Endpoints.filter isHealthy).map fun endpoint =>
    (endpoint.Address, [pName, localityString locality.ID])

/-- The entries of one mechanism, numbered `i`: the endpoints of each locality of non-zero weight
under the child of its priority, or the DNS addresses under the DNS child. -/
def mechanismEntries (p : priorityConfig) (i : Nat) : List (String × List String) :=
  match p.mechanism.«Type» with
  | .EDS => (p.edsResp.Localities.filter (·.Weight ≠ 0)).flatMap fun locality =>
      localityEntries localityString (childId.eds i locality.Priority.toNat).name locality
  | .LogicalDNS => p.addresses.map fun addr => (addr, [(childId.dns i).name])

/-- The entries of all mechanisms, in turn. -/
def routedEntries (priorities : List priorityConfig) : List (String × List String) :=
  priorities.zipIdx.flatMap fun e => mechanismEntries localityString e.1 e.2

end Entries

/-! ## Grouping the localities by priority -/

/-- On a sorted list, the loop of `dedupSortedIntSlice` keeps the values other than the last one
kept, each once and ascending. -/
theorem dedupLoop_spec : ∀ (last : Nat) (xs : List Nat), (last :: xs).Pairwise (· ≤ ·) →
    (last :: dedupLoop last xs).Pairwise (· < ·) ∧ ∀ x, x ∈ dedupLoop last xs ↔ x ∈ xs ∧ x ≠ last
  | _, [], _ => by simp [dedupLoop]
  | last, x :: xs, h => by
    rw [List.pairwise_cons] at h
    obtain ⟨hle, hxs⟩ := h
    have hlx : last ≤ x := hle x List.mem_cons_self
    unfold dedupLoop
    by_cases hx : last = x
    · -- a repeat of the last value kept
      subst hx
      have hrest : (last :: xs).Pairwise (· ≤ ·) :=
        List.pairwise_cons.mpr ⟨fun y hy => hle y (List.mem_cons_of_mem _ hy),
          (List.pairwise_cons.mp hxs).2⟩
      obtain ⟨hsorted, hmem⟩ := dedupLoop_spec last xs hrest
      refine ⟨by rw [if_pos rfl]; exact hsorted, fun y => ?_⟩
      rw [if_pos rfl, hmem, List.mem_cons]
      constructor
      · exact fun ⟨hy, hne⟩ => ⟨.inr hy, hne⟩
      · rintro ⟨rfl | hy, hne⟩
        · exact absurd rfl hne
        · exact ⟨hy, hne⟩
    · -- a new value, kept
      obtain ⟨hsorted, hmem⟩ := dedupLoop_spec x xs hxs
      have hlt : last < x := by omega
      rw [if_neg hx]
      refine ⟨List.pairwise_cons.mpr ⟨fun y hy => ?_, hsorted⟩, fun y => ?_⟩
      · rcases List.mem_cons.mp hy with rfl | hy
        · exact hlt
        · exact hlt.trans (List.rel_of_pairwise_cons hsorted hy)
      · rw [List.mem_cons, hmem, List.mem_cons]
        constructor
        · rintro (rfl | ⟨hy, hne⟩)
          · exact ⟨.inl rfl, Ne.symm hx⟩
          · exact ⟨.inr hy, fun h => hx (by have hxy := List.rel_of_pairwise_cons hxs hy; omega)⟩
        · rintro ⟨rfl | hy, _⟩
          · exact .inl rfl
          · by_cases hyx : y = x
            · exact .inl hyx
            · exact .inr ⟨hy, hyx⟩

/-- On a sorted list, `dedupSortedIntSlice` keeps each value once, ascending. -/
theorem dedupSortedIntSlice_spec : ∀ (l : List Nat), l.Pairwise (· ≤ ·) →
    (dedupSortedIntSlice l).Pairwise (· < ·) ∧ ∀ x, x ∈ dedupSortedIntSlice l ↔ x ∈ l
  | [], _ => by simp [dedupSortedIntSlice]
  | a :: rest, h => by
    obtain ⟨hsorted, hmem⟩ := dedupLoop_spec a rest h
    refine ⟨hsorted, fun x => ?_⟩
    rw [dedupSortedIntSlice, List.mem_cons, hmem, List.mem_cons]
    by_cases hx : x = a
    · simp [hx]
    · simp [hx]

example : dedupSortedIntSlice [0, 0, 1, 3, 3, 3, 7] = [0, 1, 3, 7] := by decide

/-- Sorting with `sort.Ints` and removing the repeats lists the values of `l` ascending. -/
theorem dedupSortedIntSlice_mergeSort (l : List Nat) :
    dedupSortedIntSlice (l.mergeSort) = l.toFinset.sort (· ≤ ·) := by
  obtain ⟨hsorted, hmem⟩ := dedupSortedIntSlice_spec (l.mergeSort) (List.pairwise_mergeSort' _ l)
  have hperm : (dedupSortedIntSlice l.mergeSort).Perm (l.toFinset.sort (· ≤ ·)) := by
    rw [List.perm_ext_iff_of_nodup hsorted.nodup (Finset.sort_nodup _ _)]
    intro x
    rw [hmem, List.mem_mergeSort, Finset.mem_sort, List.mem_toFinset]
  exact hperm.eq_of_pairwise' (hsorted.imp Nat.le_of_lt) (Finset.pairwise_sort _ _)

/-- The priorities the loop of `groupLocalitiesByPriority` collects: those of the localities of
non-zero weight, in their order. -/
theorem groupLocalitiesLoop_snd : ∀ (localities : List Locality)
    (priorities : List (String × List Locality)) (ints : List Nat),
    (groupLocalitiesLoop localities (priorities, ints)).2 =
      ints ++ (localities.filter (·.Weight ≠ 0)).map (·.Priority.toNat)
  | [], _, _ => by simp [groupLocalitiesLoop]
  | locality :: localities, priorities, ints => by
    unfold groupLocalitiesLoop
    by_cases hw : locality.Weight = 0
    · rw [if_pos hw, groupLocalitiesLoop_snd, List.filter_cons_of_neg (by simp [hw])]
    · rw [if_neg hw, groupLocalitiesLoop_snd, List.filter_cons_of_pos (by simpa using hw),
        List.map_cons, List.append_assoc, List.singleton_append]

/-- The group of the name `n` the loop of `groupLocalitiesByPriority` collects: the localities of
non-zero weight whose priority is written `n`, in their order. -/
theorem groupLocalitiesLoop_lookup (n : String) : ∀ (localities : List Locality)
    (priorities : List (String × List Locality)) (ints : List Nat),
    (((groupLocalitiesLoop localities (priorities, ints)).1.lookup n).getD []) =
      (priorities.lookup n).getD [] ++
        localities.filter (fun l => l.Weight ≠ 0 ∧ toString l.Priority.toNat = n)
  | [], _, _ => by simp [groupLocalitiesLoop]
  | locality :: localities, priorities, ints => by
    unfold groupLocalitiesLoop
    by_cases hw : locality.Weight = 0
    · rw [if_pos hw, groupLocalitiesLoop_lookup, List.filter_cons_of_neg (by simp [hw])]
    · rw [if_neg hw, groupLocalitiesLoop_lookup, Map.lookup_insert]
      by_cases hn : n = toString locality.Priority.toNat
      · rw [if_pos hn, List.filter_cons_of_pos (by simp [hw, hn])]
        simp [hn]
      · have hskip : ¬ decide (locality.Weight ≠ 0 ∧ toString locality.Priority.toNat = n) := by
          simp only [decide_eq_true_eq, not_and]
          exact fun _ h => hn h.symm
        rw [if_neg hn, List.filter_cons_of_neg (by exact hskip)]

/-- The child names of `groupLocalitiesByPriority`: the priorities in use, written in decimal. -/
theorem groupLocalitiesByPriority_fst (localities : List Locality) :
    (groupLocalitiesByPriority localities).1 = (edsPriorities localities).map toString := by
  unfold groupLocalitiesByPriority edsPriorities
  dsimp only
  rw [groupLocalitiesLoop_snd, List.nil_append, dedupSortedIntSlice_mergeSort]

/-- The localities `groupLocalitiesByPriority` files under the priority `p`: those of non-zero
weight and priority `p`. -/
theorem groupLocalitiesByPriority_lookup (localities : List Locality) (p : Nat) :
    (((groupLocalitiesByPriority localities).2.lookup (toString p)).getD []) =
      (localities.filter (·.Weight ≠ 0)).filter (·.Priority.toNat = p) := by
  unfold groupLocalitiesByPriority
  rw [groupLocalitiesLoop_lookup, List.lookup_nil, Option.getD_none, List.nil_append,
    List.filter_filter]
  congr 1
  funext l
  -- two priorities are written alike exactly when they are equal
  have hname : toString l.Priority.toNat = toString p ↔ l.Priority.toNat = p :=
    ⟨Strconv.toString_inj, congrArg toString⟩
  simp only [hname, Bool.decide_and, Bool.and_comm]

/-! ## The builder, loop by loop -/

/-- The LB policies the builder supports: none (round_robin), round_robin and ring_hash. -/
def supportedPolicy : Option BalancerConfig → Prop
  | none => True
  | some policy => policy.Name = rrName ∨ policy.Name = rhName

instance (xdsLBPolicy : Option BalancerConfig) : Decidable (supportedPolicy xdsLBPolicy) :=
  match xdsLBPolicy with
  | none => isTrue trivial
  | some policy => inferInstanceAs (Decidable (policy.Name = rrName ∨ policy.Name = rhName))

/-- The drops of an EDS mechanism have denominators the builder can divide by. -/
def dropsDivide (p : priorityConfig) : Prop :=
  p.mechanism.«Type» = .EDS → ∀ d ∈ p.edsResp.Drops, d.Denominator ≠ 0

instance (p : priorityConfig) : Decidable (dropsDivide p) :=
  inferInstanceAs (Decidable (_ → ∀ d ∈ p.edsResp.Drops, d.Denominator ≠ 0))

/-- Drops that divide make their configs without a panic. -/
theorem mapM_dropConfig {ds : List OverloadDropConfig} (h : ∀ d ∈ ds, d.Denominator ≠ 0) :
    ds.mapM dropConfig = .ok (ds.map fun d => ⟨d.Category, d.Numerator * million / d.Denominator⟩) :=
  mapM_eq_ok_of_forall fun d hd => by
    rw [dropConfig, divU32_of_ne_zero (h d hd)]
    rfl

section Builder

variable (localityString : LocalityID → String)

/-- The weighted-target addresses are the localities' entries. -/
theorem localitiesToWeightedTarget_entries (localities : List Locality) (priorityName : String) :
    (localitiesToWeightedTarget localityString localities priorityName).2.map pathEntry =
      localities.flatMap (localityEntries localityString priorityName) := by
  -- the fold appends each locality's addresses to those before
  suffices h : ∀ (acc : List (String × UInt32) × List Address),
      (localities.foldl (addLocalityTarget localityString priorityName) acc).2.map pathEntry =
        acc.2.map pathEntry ++ localities.flatMap (localityEntries localityString priorityName) by
    rw [localitiesToWeightedTarget, h ([], []), List.map_nil, List.nil_append]
  induction localities with
  | nil => simp
  | cons locality localities ih =>
    intro acc
    rw [List.foldl_cons, ih, List.flatMap_cons, ← List.append_assoc]
    simp [addLocalityTarget, localityEntries, pathEntry, Get, Function.comp_def]

/-- The ring-hash addresses are the localities' entries. -/
theorem localitiesToRingHash_entries (localities : List Locality) (priorityName : String) :
    (localitiesToRingHash localityString localities priorityName).map pathEntry =
      localities.flatMap (localityEntries localityString priorityName) := by
  unfold localitiesToRingHash
  rw [List.map_flatMap]
  refine List.flatMap_congr fun locality _ => ?_
  simp [localityEntries, pathEntry, Get, Function.comp_def]

variable {xdsLBPolicy : Option BalancerConfig}

/-- Under a supported policy, one priority's cluster_impl config is built, with the localities'
entries as its addresses. -/
theorem priorityLocalitiesToClusterImpl_ok (hpolicy : supportedPolicy xdsLBPolicy)
    (localities : List Locality) (priorityName : String) (mechanism : DiscoveryMechanism)
    (drops : List DropConfig) :
    ∃ cfg addrs, priorityLocalitiesToClusterImpl localityString localities priorityName mechanism
        drops xdsLBPolicy = .ok (cfg, addrs) ∧
      addrs.map pathEntry = localities.flatMap (localityEntries localityString priorityName) := by
  cases xdsLBPolicy with
  | none => exact ⟨_, _, rfl, localitiesToWeightedTarget_entries localityString _ _⟩
  | some policy =>
    dsimp only [priorityLocalitiesToClusterImpl]
    rcases hpolicy with hrr | hrh
    · rw [if_pos hrr]
      exact ⟨_, _, rfl, localitiesToWeightedTarget_entries localityString _ _⟩
    · have hrr : ¬ policy.Name = rrName := by rw [hrh]; decide
      rw [if_neg hrr, if_pos hrh]
      exact ⟨_, _, rfl, localitiesToRingHash_entries localityString _ _⟩

/-- The name `buildClusterImplConfigForEDS` gives the child of a priority, by the priority's
name. -/
def edsChildName (parentPriority : Nat) (priorityName : String) : String :=
  "priority-" ++ toString parentPriority ++ "-" ++ priorityName

/-- The loop of `buildClusterImplConfigForEDS` names a child for each priority name, builds its
config, and emits its localities' entries, priority by priority. -/
theorem edsPriorityLoop_ok (hpolicy : supportedPolicy xdsLBPolicy) (parentPriority : Nat)
    (priorities : List (String × List Locality)) (mechanism : DiscoveryMechanism)
    (drops : List DropConfig) :
    ∀ (names retNames : List String) (retConfigs : List (String × clusterImplConfig))
      (retAddrs : List Address),
      retConfigs.map Prod.fst = retNames →
      (retNames ++ names.map (edsChildName parentPriority)).Nodup →
      ∃ configs addrs, edsPriorityLoop localityString parentPriority priorities mechanism drops
          xdsLBPolicy names (retNames, retConfigs, retAddrs) =
            .ok (retNames ++ names.map (edsChildName parentPriority), configs, addrs) ∧
        configs.map Prod.fst = retNames ++ names.map (edsChildName parentPriority) ∧
        addrs.map pathEntry = retAddrs.map pathEntry ++ names.flatMap fun priorityName =>
          ((priorities.lookup priorityName).getD []).flatMap
            (localityEntries localityString (edsChildName parentPriority priorityName))
  | [], retNames, retConfigs, retAddrs, hkeys, _ =>
    ⟨retConfigs, retAddrs, by simp [edsPriorityLoop], by simpa using hkeys, by simp⟩
  | priorityName :: rest, retNames, retConfigs, retAddrs, hkeys, hnd => by
    obtain ⟨cfg, addrs, hok, hentries⟩ := priorityLocalitiesToClusterImpl_ok localityString
      hpolicy ((priorities.lookup priorityName).getD [])
      (edsChildName parentPriority priorityName) mechanism drops
    -- the new child's name is none of those before
    have hfresh : edsChildName parentPriority priorityName ∉ retConfigs.map Prod.fst := by
      rw [hkeys]
      exact fun hmem => List.disjoint_of_nodup_append hnd hmem List.mem_cons_self
    have hkeys' : (Map.insert (edsChildName parentPriority priorityName) cfg retConfigs).map
        Prod.fst = retNames ++ [edsChildName parentPriority priorityName] := by
      rw [Map.keys_insert_of_notMem cfg hfresh, hkeys]
    have hnd' : ((retNames ++ [edsChildName parentPriority priorityName]) ++
        rest.map (edsChildName parentPriority)).Nodup := by
      simpa using hnd
    obtain ⟨configs, addrs', hloop, hkeys'', hentries'⟩ :=
      edsPriorityLoop_ok hpolicy parentPriority priorities mechanism drops rest _ _
        (retAddrs ++ addrs) hkeys' hnd'
    refine ⟨configs, addrs', ?_, ?_, ?_⟩
    · simp only [edsPriorityLoop]
      rw [show "priority-" ++ toString parentPriority ++ "-" ++ priorityName =
        edsChildName parentPriority priorityName from rfl, hok]
      dsimp only
      rw [hloop]
      simp
    · simpa using hkeys''
    · rw [hentries', List.map_append, hentries, List.flatMap_cons, List.append_assoc]

/-- Under a supported policy, `buildClusterImplConfigForEDS` names the children of the priorities
in use, builds a config for each, and emits the entries of the localities of non-zero weight,
reordered by priority. -/
theorem buildClusterImplConfigForEDS_ok (hpolicy : supportedPolicy xdsLBPolicy)
    (p : priorityConfig) (i : Nat) (hEDS : p.mechanism.«Type» = .EDS) (hdrops : dropsDivide p) :
    ∃ configs addrs, buildClusterImplConfigForEDS localityString i p.edsResp p.mechanism
        xdsLBPolicy = .ok ((mechanismChildren p i).map childId.name, configs, addrs) ∧
      configs.map Prod.fst = (mechanismChildren p i).map childId.name ∧
      (addrs.map pathEntry).Perm (mechanismEntries localityString p i) := by
  have hnames : (groupLocalitiesByPriority p.edsResp.Localities).1.map (edsChildName i) =
      (mechanismChildren p i).map childId.name := by
    rw [groupLocalitiesByPriority_fst, mechanismChildren, hEDS, List.map_map, List.map_map]
    rfl
  have hnd : ([] ++ (groupLocalitiesByPriority p.edsResp.Localities).1.map (edsChildName i)).Nodup
      := by
    rw [List.nil_append, hnames]
    exact (nodup_mechanismChildren p i).map childId.name_injective
  obtain ⟨configs, addrs, hloop, hkeys, hentries⟩ := edsPriorityLoop_ok localityString hpolicy i
    (groupLocalitiesByPriority p.edsResp.Localities).2 p.mechanism _
    (groupLocalitiesByPriority p.edsResp.Localities).1 [] [] [] rfl hnd
  refine ⟨configs, addrs, ?_, by rw [hkeys, List.nil_append, hnames], ?_⟩
  · unfold buildClusterImplConfigForEDS
    rw [mapM_dropConfig (hdrops hEDS), ok_bind]
    dsimp only
    rw [hloop, List.nil_append, hnames]
    rfl
  · -- the priorities in use, and each locality of non-zero weight under its priority
    rw [hentries, List.map_nil, List.nil_append, groupLocalitiesByPriority_fst, List.flatMap_map,
      mechanismEntries, hEDS]
    simp only [groupLocalitiesByPriority_lookup]
    have hkeys : ∀ l ∈ p.edsResp.Localities.filter (·.Weight ≠ 0),
        l.Priority.toNat ∈ edsPriorities p.edsResp.Localities := by
      intro l hl
      rw [edsPriorities, Finset.mem_sort, List.mem_toFinset]
      exact List.mem_map_of_mem hl
    exact List.flatMap_filter_key_perm (·.Priority.toNat)
      (fun q => localityEntries localityString (childId.eds i q).name) (Finset.sort_nodup _ _) hkeys

/-- The loop of `buildPriorityConfig`, from the mechanism numbered `i`: it adds the children of
each mechanism in turn, each config under its child's name, and the mechanisms' entries. -/
theorem buildPriorityLoop_ok (hpolicy : supportedPolicy xdsLBPolicy) :
    ∀ (ps : List priorityConfig) (i : Nat) (retConfig : priorityLBConfig) (retAddrs : List Address),
      (∀ p ∈ ps, dropsDivide p) →
      retConfig.Children.map Prod.fst = retConfig.Priorities →
      (retConfig.Priorities ++
        ((ps.zipIdx i).flatMap fun e => mechanismChildren e.1 e.2).map childId.name).Nodup →
      ∃ pc addrs, buildPriorityLoop localityString xdsLBPolicy ps i (retConfig, retAddrs) =
          .ok (pc, addrs) ∧
        pc.Priorities = retConfig.Priorities ++
          ((ps.zipIdx i).flatMap fun e => mechanismChildren e.1 e.2).map childId.name ∧
        pc.Children.map Prod.fst = pc.Priorities ∧
        (addrs.map pathEntry).Perm (retAddrs.map pathEntry ++
          (ps.zipIdx i).flatMap fun e => mechanismEntries localityString e.1 e.2)
  | [], _, retConfig, retAddrs, _, hkeys, _ =>
    ⟨retConfig, retAddrs, rfl, by simp, hkeys, by simp⟩
  | p :: ps, i, retConfig, retAddrs, hdrops, hkeys, hnd => by
    have hrest : ∀ q ∈ ps, dropsDivide q := fun q hq => hdrops q (List.mem_cons_of_mem p hq)
    rw [List.zipIdx_cons, List.flatMap_cons, List.map_append, ← List.append_assoc] at hnd
    rw [List.zipIdx_cons, List.flatMap_cons, List.flatMap_cons]
    cases hty : p.mechanism.«Type» with
    | EDS =>
      obtain ⟨configs, addrs, hok, hckeys, hperm⟩ :=
        buildClusterImplConfigForEDS_ok localityString hpolicy p i hty (hdrops p List.mem_cons_self)
      -- the configs go in under names not yet used
      have hchildren : (configs.foldl (fun children c => Map.insert c.1 ⟨c.2, true⟩ children)
          retConfig.Children).map Prod.fst =
            retConfig.Priorities ++ (mechanismChildren p i).map childId.name := by
        have hfresh : (retConfig.Children.map Prod.fst ++ configs.map Prod.fst).Nodup := by
          rw [hkeys, hckeys]
          exact hnd.sublist (List.sublist_append_left _ _)
        rw [Map.keys_foldl_insert_of_nodup Prod.fst (fun c => (⟨c.2, true⟩ : priorityChild))
          configs hfresh, hkeys, hckeys]
      obtain ⟨pc, addrs', hloop, hprios, hpkeys, hperm'⟩ := buildPriorityLoop_ok hpolicy ps (i + 1)
        ⟨_, retConfig.Priorities ++ (mechanismChildren p i).map childId.name⟩
        (retAddrs ++ addrs) hrest hchildren hnd
      refine ⟨pc, addrs', ?_, by rw [hprios, List.map_append, List.append_assoc], hpkeys, ?_⟩
      · simp only [buildPriorityLoop, hty]
        rw [hok]
        exact hloop
      · rw [List.map_append, List.append_assoc] at hperm'
        exact hperm'.trans ((hperm.append_right _).append_left _)
    | LogicalDNS =>
      have hchildren : mechanismChildren p i = [childId.dns i] := by
        rw [mechanismChildren, hty]
      have hfresh : (childId.dns i).name ∉ retConfig.Children.map Prod.fst := by
        rw [hkeys]
        intro hmem
        rw [hchildren] at hnd
        exact List.disjoint_of_nodup_append (hnd.sublist (List.sublist_append_left _ _)) hmem
          List.mem_cons_self
      obtain ⟨pc, addrs', hloop, hprios, hpkeys, hperm'⟩ := buildPriorityLoop_ok hpolicy ps (i + 1)
        ⟨Map.insert (childId.dns i).name ⟨⟨"", [], .pickFirst⟩, false⟩ retConfig.Children,
          retConfig.Priorities ++ [(childId.dns i).name]⟩
        (retAddrs ++ p.addresses.map fun addrStr => ⟨addrStr, [(childId.dns i).name], none, none⟩)
        hrest (by rw [Map.keys_insert_of_notMem _ hfresh, hkeys])
        (by rw [hchildren] at hnd; simpa using hnd)
      refine ⟨pc, addrs', ?_, ?_, hpkeys, ?_⟩
      · simp only [buildPriorityLoop, hty]
        exact hloop
      · rw [hprios, hchildren]
        simp
      · have hdns : (p.addresses.map fun addrStr =>
            (⟨addrStr, [(childId.dns i).name], none, none⟩ : Address)).map pathEntry =
              mechanismEntries localityString p i := by
          simp [mechanismEntries, hty, pathEntry, Get, Function.comp_def]
        rw [List.map_append, hdns, List.append_assoc] at hperm'
        exact hperm'

end Builder

/-! ## The result -/

/-- What the priority config and its addresses should be for the mechanisms `priorities`: the
children in order, distinct, each with its config; every entry routed once; and `Group` handing
each child, and each locality under it, the entries whose path names it. -/
structure RoutedConfig (localityString : LocalityID → String) (priorities : List priorityConfig)
    (pc : priorityLBConfig) (addrs : List Address) : Prop where
  /-- The children: those of each mechanism in order, and for EDS one per priority in use. -/
  priorities_eq : pc.Priorities = (priorityChildren priorities).map childId.name
  /-- No two children share a name. -/
  priorities_nodup : pc.Priorities.Nodup
  /-- A config for each child, and no other. -/
  children_perm : (pc.Children.map Prod.fst).Perm pc.Priorities
  /-- Every endpoint to route, once, with the path of its child and locality. -/
  addrs_perm : (addrs.map pathEntry).Perm (routedEntries localityString priorities)
  /-- The priority balancer hands each child the entries whose path starts with its name. -/
  child_perm : ∀ n, ((((Group addrs).lookup n).getD []).map pathEntry).Perm
    ((routedEntries localityString priorities).filterMap (descend n))
  /-- The weighted_target under a child hands each locality the entries its path names. -/
  locality_perm : ∀ n m,
    ((((Group (((Group addrs).lookup n).getD [])).lookup m).getD []).map pathEntry).Perm
      (((routedEntries localityString priorities).filterMap (descend n)).filterMap (descend m))

/-- **The config builder routes every endpoint to exactly one child.**  Under a supported LB
policy, `buildPriorityConfig` succeeds for any mechanisms whose drops divide, and its config and
addresses are as `RoutedConfig` says. -/
theorem buildPriorityConfig_routes_each_endpoint (localityString : LocalityID → String)
    (priorities : List priorityConfig) (xdsLBPolicy : Option BalancerConfig)
    (hpolicy : supportedPolicy xdsLBPolicy) (hdrops : ∀ p ∈ priorities, dropsDivide p) :
    ∃ pc addrs, buildPriorityConfig localityString priorities xdsLBPolicy = .ok (pc, addrs) ∧
      RoutedConfig localityString priorities pc addrs := by
  obtain ⟨pc, addrs, hok, hprios, hkeys, hperm⟩ := buildPriorityLoop_ok localityString hpolicy
    priorities 0 ⟨[], []⟩ [] hdrops rfl (nodup_priorityChildren_names priorities)
  -- the loop from the first mechanism on, with nothing before it
  have hprios : pc.Priorities = (priorityChildren priorities).map childId.name := hprios
  have hperm : (addrs.map pathEntry).Perm (routedEntries localityString priorities) := hperm
  refine ⟨pc, addrs, hok, ⟨hprios, ?_, by rw [hkeys], hperm, ?_, ?_⟩⟩
  · rw [hprios]
    exact nodup_priorityChildren_names priorities
  · intro n
    rw [Group_lookup_pathEntry]
    exact hperm.filterMap _
  · intro n m
    rw [Group_lookup_pathEntry, Group_lookup_pathEntry]
    exact (hperm.filterMap _).filterMap _

/-- Mechanisms to apply the theorem to: an EDS cluster with two priorities given out of order, a
locality of weight zero and an unhealthy endpoint, then a DNS cluster. -/
def sampleMechanisms : List priorityConfig :=
  [⟨⟨"eds-cluster", .EDS⟩,
      ⟨[], [⟨[⟨"10.0.0.1:80", .Healthy, 0⟩, ⟨"10.0.0.2:80", .Unhealthy, 0⟩], ⟨"r", "z1", ""⟩, 1, 2⟩,
        ⟨[⟨"10.0.0.3:80", .Unknown, 3⟩], ⟨"r", "z2", ""⟩, 0, 1⟩,
        ⟨[⟨"10.0.0.4:80", .Healthy, 0⟩], ⟨"r", "z3", ""⟩, 1, 0⟩]⟩, []⟩,
    ⟨⟨"dns-cluster", .LogicalDNS⟩, ⟨[], []⟩, ["10.0.1.1:443"]⟩]

theorem buildPriorityConfig_routes_sample :
    supportedPolicy (some ⟨rhName⟩) ∧ (∀ p ∈ sampleMechanisms, dropsDivide p) ∧
      ∃ pc addrs, buildPriorityConfig (·.Zone) sampleMechanisms (some ⟨rhName⟩) = .ok (pc, addrs) ∧
        RoutedConfig (·.Zone) sampleMechanisms pc addrs :=
  ⟨.inr rfl, by decide, buildPriorityConfig_routes_each_endpoint (·.Zone) sampleMechanisms
    (some ⟨rhName⟩) (.inr rfl) (by decide)⟩

/-- **A drop with an unknown denominator panics.**  An EDS update with a drop of denominator zero,
which `parseDropPolicy` makes of an unknown enum value, makes `buildPriorityConfig` panic on the
division, whatever its localities. -/
theorem buildPriorityConfig_panics_of_zero_drop (localityString : LocalityID → String)
    (localities : List Locality) :
    buildPriorityConfig localityString
        [⟨⟨"eds-cluster", .EDS⟩, ⟨[⟨"lb", 1, 0⟩], localities⟩, []⟩] none =
      .error (.panic "runtime error: integer divide by zero") := rfl

/-- The panic at one update: a single healthy endpoint in a locality of weight one, beside a drop
of denominator zero. -/
theorem buildPriorityConfig_zero_denominator_panics :
    buildPriorityConfig (·.Zone)
        [⟨⟨"eds-cluster", .EDS⟩,
          ⟨[⟨"lb", 1, 0⟩], [⟨[⟨"10.0.0.1:80", .Healthy, 0⟩], ⟨"r", "z1", ""⟩, 1, 0⟩]⟩, []⟩] none =
      .error (.panic "runtime error: integer divide by zero") :=
  buildPriorityConfig_panics_of_zero_drop _ _

end ClusterResolver
end GrpcGo
