import GrpcGo.Lib.ListCount
import GrpcGo.Resolver.ClusterRefs

/-!
# What the resolver's reference counts keep, and what they leak

Over every run of `xdsResolver.step` from a new resolver (`resolverInv_run`):
* each cell's `refCount` is the number of entries the live config selectors have at it, plus the
  RPCs holding it that have not committed: those whose `RPCConfig` is out, and those whose
  `newInterceptor` failed after `SelectConfig` took the reference, which nothing drops;
* every cluster a live selector or such an RPC references is in `activeClusters` under its name,
  and the only live selector is the current one.

So each service config sent lists every cluster that the selector it carries or an uncommitted
RPC references, and none whose count is zero (`sendNewServiceConfig_covers`), and the last one
sent covers the resolver's references after every run (`lastConfig_covers_run`).  A failed
`SelectConfig` keeps its cluster in every config sent after it (`failedSelect_cluster_kept`).
-/

namespace GrpcGo
namespace Resolver

open GoStd

/-! ## The references counted -/

/-- The references a selector holds on the cell `p`: one for each of its entries there, until it
is stopped. -/
def selectorRefs (p : Nat) (cs : configSelector) : Nat :=
  if cs.stopped then 0 else cs.clusters.countP (·.2 == p)

/-- The references the selectors hold on `p`. -/
def liveRefs (selectors : List configSelector) (p : Nat) : Nat :=
  (selectors.map (selectorRefs p)).sum

/-- An RPC holds a reference on `p` from `SelectConfig` until it commits. -/
def holds (p : Nat) (rpc : rpcRef) : Bool :=
  rpc.ref == p && rpc.phase != .committed

/-- The references the RPCs hold on `p`. -/
def heldRefs (rpcs : List rpcRef) (p : Nat) : Nat :=
  rpcs.countP (holds p)

/-- The cluster `c`, with its `clusterInfo` at `p`, is referenced by a live selector or by an RPC
that has not committed. -/
def Referenced (selectors : List configSelector) (rpcs : List rpcRef) (c : String) (p : Nat) :
    Prop :=
  (∃ cs ∈ selectors, cs.stopped = false ∧ (c, p) ∈ cs.clusters) ∨
    ∃ rpc ∈ rpcs, rpc.phase ≠ .committed ∧ rpc.cluster = c ∧ rpc.ref = p

theorem liveRefs_append (selectors : List configSelector) (cs : configSelector) (p : Nat) :
    liveRefs (selectors ++ [cs]) p = liveRefs selectors p + selectorRefs p cs := by
  simp [liveRefs]

/-- Stopping a live selector takes its entries out of the count. -/
theorem liveRefs_stop {selectors : List configSelector} {i : Nat} {cs : configSelector}
    (h : selectors[i]? = some cs) (hlive : cs.stopped = false) (p : Nat) :
    liveRefs (selectors.set i { cs with stopped := true }) p + cs.clusters.countP (·.2 == p) =
      liveRefs selectors p := by
  have hset := List.sum_map_set_add (f := selectorRefs p) h { cs with stopped := true }
  simp only [selectorRefs, hlive, Bool.false_eq_true, ↓reduceIte, add_zero] at hset
  exact hset

theorem heldRefs_append (rpcs : List rpcRef) (rpc : rpcRef) (p : Nat) :
    heldRefs (rpcs ++ [rpc]) p = heldRefs rpcs p + (holds p rpc).toNat := by
  cases h : holds p rpc <;> simp [heldRefs, List.countP_append, h]

/-- Committing an RPC that holds its reference takes it out of the count. -/
theorem heldRefs_commit {rpcs : List rpcRef} {k : Nat} {rpc : rpcRef}
    (h : rpcs[k]? = some rpc) (hsel : rpc.phase = .selected) (p : Nat) :
    heldRefs (rpcs.set k { rpc with phase := .committed }) p + (rpc.ref == p).toNat =
      heldRefs rpcs p := by
  have hset := List.countP_set_add (p := holds p) h { rpc with phase := .committed }
  have hne : (rpcPhase.selected != rpcPhase.committed) = true := rfl
  simp only [holds, hsel, hne, Bool.and_true, bne_self_eq_false, Bool.and_false,
    Bool.toNat_false, add_zero] at hset
  exact hset

/-- A referenced cell is counted. -/
theorem pos_of_referenced {selectors : List configSelector} {rpcs : List rpcRef} {c : String}
    {p : Nat} (h : Referenced selectors rpcs c p) : 0 < liveRefs selectors p + heldRefs rpcs p := by
  rcases h with ⟨cs, hcs, hlive, hmem⟩ | ⟨rpc, hrpc, hphase, -, rfl⟩
  · -- the selector's own entry at `p`
    have hpos : 0 < selectorRefs p cs := by
      simp only [selectorRefs, hlive, Bool.false_eq_true, ↓reduceIte, List.countP_pos_iff,
        beq_iff_eq]
      exact ⟨_, hmem, rfl⟩
    have hle : selectorRefs p cs ≤ liveRefs selectors p :=
      List.le_sum_of_mem (List.mem_map_of_mem hcs)
    omega
  · have hpos : 0 < heldRefs rpcs rpc.ref := by
      rw [heldRefs, List.countP_pos_iff]
      exact ⟨rpc, hrpc, by simpa [holds] using hphase⟩
    omega

/-- Stopping a selector only takes references away. -/
theorem Referenced.of_stop {selectors : List configSelector} {rpcs : List rpcRef} {c : String}
    {p i : Nat} {cs : configSelector}
    (h : Referenced (selectors.set i { cs with stopped := true }) rpcs c p) :
    Referenced selectors rpcs c p := by
  rcases h with ⟨cs', hcs', hlive, hmem⟩ | hrpc
  · rcases List.mem_or_eq_of_mem_set hcs' with hcs' | rfl
    · exact .inl ⟨cs', hcs', hlive, hmem⟩
    · simp at hlive
  · exact .inr hrpc

/-- Committing an RPC only takes references away. -/
theorem Referenced.of_commit {selectors : List configSelector} {rpcs : List rpcRef} {c : String}
    {p k : Nat} {rpc : rpcRef}
    (h : Referenced selectors (rpcs.set k { rpc with phase := .committed }) c p) :
    Referenced selectors rpcs c p := by
  rcases h with hsel | ⟨rpc', hrpc', hphase, hc, hp⟩
  · exact .inl hsel
  · rcases List.mem_or_eq_of_mem_set hrpc' with hrpc' | rfl
    · exact .inr ⟨rpc', hrpc', hphase, hc, hp⟩
    · simp at hphase

theorem referenced_append_selector {selectors : List configSelector} {rpcs : List rpcRef}
    {c : String} {p : Nat} {cs : configSelector} :
    Referenced (selectors ++ [cs]) rpcs c p ↔
      Referenced selectors rpcs c p ∨ (cs.stopped = false ∧ (c, p) ∈ cs.clusters) := by
  simp only [Referenced, List.mem_append, List.mem_singleton, or_and_right, exists_or,
    exists_eq_left]
  exact or_right_comm

theorem referenced_append_rpc {selectors : List configSelector} {rpcs : List rpcRef}
    {c : String} {p : Nat} {rpc : rpcRef} :
    Referenced selectors (rpcs ++ [rpc]) c p ↔
      Referenced selectors rpcs c p ∨
        (rpc.phase ≠ .committed ∧ rpc.cluster = c ∧ rpc.ref = p) := by
  simp only [Referenced, List.mem_append, List.mem_singleton, or_and_right, exists_or,
    exists_eq_left]
  exact or_assoc.symm

namespace xdsResolver

/-! ## What each operation changes -/

@[simp] theorem addRef_refCount (r : xdsResolver) (p : Nat) (d : Int) (q : Nat) :
    (r.addRef p d).refCount q = r.refCount q + if q = p then d else 0 := rfl

@[simp] theorem addRef_selectors (r : xdsResolver) (p : Nat) (d : Int) :
    (r.addRef p d).selectors = r.selectors := rfl

@[simp] theorem addRef_rpcs (r : xdsResolver) (p : Nat) (d : Int) :
    (r.addRef p d).rpcs = r.rpcs := rfl

@[simp] theorem addRef_activeClusters (r : xdsResolver) (p : Nat) (d : Int) :
    (r.addRef p d).activeClusters = r.activeClusters := rfl

@[simp] theorem addRef_curConfigSelector (r : xdsResolver) (p : Nat) (d : Int) :
    (r.addRef p d).curConfigSelector = r.curConfigSelector := rfl

/-- `addRefs` adds `d` to each cell once for each entry at it, and changes nothing else. -/
theorem addRefs_eq : ∀ (clusters : List (String × Nat)) (r : xdsResolver) (d : Int),
    r.addRefs clusters d =
      { r with refCount := fun q => r.refCount q + d * clusters.countP (·.2 == q) }
  | [], r, d => by simp [addRefs]
  | e :: clusters, r, d => by
    rw [addRefs, List.foldl_cons, ← addRefs, addRefs_eq clusters]
    simp only [addRef, List.countP_cons, beq_iff_eq, xdsResolver.mk.injEq, and_true]
    funext q
    by_cases hq : e.2 = q
    · rw [if_pos hq.symm, if_pos hq]
      push_cast
      ring
    · rw [if_neg (Ne.symm hq), if_neg hq]
      simp

@[simp] theorem addRefs_selectors (r : xdsResolver) (clusters : List (String × Nat)) (d : Int) :
    (r.addRefs clusters d).selectors = r.selectors := by
  rw [addRefs_eq]

@[simp] theorem addRefs_rpcs (r : xdsResolver) (clusters : List (String × Nat)) (d : Int) :
    (r.addRefs clusters d).rpcs = r.rpcs := by
  rw [addRefs_eq]

@[simp] theorem addRefs_activeClusters (r : xdsResolver) (clusters : List (String × Nat))
    (d : Int) : (r.addRefs clusters d).activeClusters = r.activeClusters := by
  rw [addRefs_eq]

@[simp] theorem addRefs_curConfigSelector (r : xdsResolver) (clusters : List (String × Nat))
    (d : Int) : (r.addRefs clusters d).curConfigSelector = r.curConfigSelector := by
  rw [addRefs_eq]

theorem addRefs_refCount (r : xdsResolver) (clusters : List (String × Nat)) (d : Int) (q : Nat) :
    (r.addRefs clusters d).refCount q = r.refCount q + d * clusters.countP (·.2 == q) := by
  rw [addRefs_eq]

/-- `r'` is `r` with entries added to `activeClusters` and the heap's next address moved: what
the loops of `newConfigSelector` do before the references are taken. -/
structure Extends (r r' : xdsResolver) : Prop where
  refCount : r'.refCount = r.refCount
  curConfigSelector : r'.curConfigSelector = r.curConfigSelector
  selectors : r'.selectors = r.selectors
  rpcs : r'.rpcs = r.rpcs
  sub : ∀ e ∈ r.activeClusters, e ∈ r'.activeClusters
  nodup : (r'.activeClusters.map Prod.fst).Nodup

theorem Extends.refl {r : xdsResolver} (h : (r.activeClusters.map Prod.fst).Nodup) :
    Extends r r :=
  ⟨rfl, rfl, rfl, rfl, fun _ he => he, h⟩

theorem Extends.trans {r r' r'' : xdsResolver} (h₁ : Extends r r') (h₂ : Extends r' r'') :
    Extends r r'' :=
  ⟨h₂.refCount.trans h₁.refCount, h₂.curConfigSelector.trans h₁.curConfigSelector,
    h₂.selectors.trans h₁.selectors, h₂.rpcs.trans h₁.rpcs, fun e he => h₂.sub e (h₁.sub e he),
    h₂.nodup⟩

/-- `activeCluster` keeps the entries there, and its cluster has an entry at the address it
returns. -/
theorem activeCluster_extends {r : xdsResolver} (h : (r.activeClusters.map Prod.fst).Nodup)
    (cluster : String) :
    Extends r (r.activeCluster cluster).2 ∧
      (cluster, (r.activeCluster cluster).1) ∈ (r.activeCluster cluster).2.activeClusters := by
  unfold activeCluster
  split
  · next ci hci => exact ⟨.refl h, Map.mem_of_lookup_eq_some hci⟩
  · next hnone =>
    refine ⟨⟨rfl, rfl, rfl, rfl, ?_, Map.nodup_keys_insert _ _ _ h⟩, ?_⟩
    · intro e he
      -- an entry already there has another name than the new one
      have hne : e.1 ≠ cluster := by
        rintro rfl
        have hsome := Map.mem_keys_iff_isSome_lookup.mp (List.mem_map_of_mem (f := Prod.fst) he)
        simp [hnone] at hsome
      exact (Map.mem_insert h e).mpr (.inr ⟨he, hne⟩)
    · apply Map.mem_of_lookup_eq_some
      simp [Map.lookup_insert]

/-- The loop over a route's clusters keeps the entries there, and every entry of the selector
points to one. -/
theorem addRouteClusters_extends :
    ∀ (clusters : List String) (r : xdsResolver) (cs : List (String × Nat)),
      (r.activeClusters.map Prod.fst).Nodup → (∀ e ∈ cs, e ∈ r.activeClusters) →
        Extends r (addRouteClusters r cs clusters).1 ∧
          ∀ e ∈ (addRouteClusters r cs clusters).2,
            e ∈ (addRouteClusters r cs clusters).1.activeClusters
  | [], _, _, hnd, hcs => ⟨.refl hnd, hcs⟩
  | cluster :: clusters, r, cs, hnd, hcs => by
    obtain ⟨hext, hmem⟩ := activeCluster_extends hnd cluster
    -- the selector's entries, with the new one, are all active after this cluster
    have hcs' : ∀ e ∈ Map.insert cluster (r.activeCluster cluster).1 cs,
        e ∈ (r.activeCluster cluster).2.activeClusters := by
      intro e he
      rcases Map.keys_insert_subset _ _ _ e he with rfl | he
      · exact hmem
      · exact hext.sub e (hcs e he)
    obtain ⟨hext', hcs''⟩ := addRouteClusters_extends clusters _ _ hext.nodup hcs'
    rw [addRouteClusters]
    exact ⟨hext.trans hext', hcs''⟩

/-- The loop over the routes keeps the entries there, and every entry of the selector it returns
points to one. -/
theorem addRoutes_extends :
    ∀ (routes : List updateRoute) (r : xdsResolver) (cs : List (String × Nat)),
      (r.activeClusters.map Prod.fst).Nodup → (∀ e ∈ cs, e ∈ r.activeClusters) →
        Extends r (addRoutes r cs routes).1 ∧
          ∀ cs', (addRoutes r cs routes).2 = some cs' →
            ∀ e ∈ cs', e ∈ (addRoutes r cs routes).1.activeClusters
  | [], _, _, hnd, hcs => ⟨.refl hnd, fun _ h => by cases h; exact hcs⟩
  | rt :: rts, r, cs, hnd, hcs => by
    obtain ⟨hext, hcs'⟩ := addRouteClusters_extends rt.WeightedClusters r cs hnd hcs
    rw [addRoutes]
    split
    · obtain ⟨hext', hcs''⟩ := addRoutes_extends rts _ _ hext.nodup hcs'
      exact ⟨hext.trans hext', hcs''⟩
    · exact ⟨hext, fun _ h => by cases h⟩

/-- What `newConfigSelector` can do: add entries to `activeClusters`, and then either fail or
return a live selector whose entries are active, with a reference taken on each. -/
theorem newConfigSelector_cases {r : xdsResolver} (h : (r.activeClusters.map Prod.fst).Nodup)
    (routes : List updateRoute) :
    ∃ r', Extends r r' ∧
      (r.newConfigSelector routes = (r', none) ∨
        ∃ clusters, (∀ e ∈ clusters, e ∈ r'.activeClusters) ∧
          r.newConfigSelector routes = (r'.addRefs clusters 1, some ⟨clusters, false⟩)) := by
  obtain ⟨hext, hcs⟩ := addRoutes_extends routes r [] h (fun _ he => by cases he)
  unfold newConfigSelector
  split
  · next r' cs heq =>
    rw [heq] at hext hcs
    exact ⟨r', hext, .inr ⟨cs, hcs cs rfl, rfl⟩⟩
  · next r' heq =>
    rw [heq] at hext
    exact ⟨r', hext, .inl rfl⟩

/-- `stop` on a selector drops a reference for each of its entries and marks it stopped. -/
theorem stop_some {r : xdsResolver} {i : Nat} {cs : configSelector}
    (h : r.selectors[i]? = some cs) :
    r.stop (some i) = { r.addRefs cs.clusters (-1) with
      selectors := r.selectors.set i { cs with stopped := true } } := by
  simp only [stop, h]

theorem stop_rpcs (r : xdsResolver) (c : Option Nat) : (r.stop c).rpcs = r.rpcs := by
  cases c with
  | none => rfl
  | some i =>
    cases hcs : r.selectors[i]? with
    | none => simp only [stop, hcs]
    | some cs =>
      rw [stop_some hcs]
      exact addRefs_rpcs _ _ _

/-- What `SelectConfig` can do: nothing, or take a reference on an entry of the selector for a
new RPC. -/
theorem SelectConfig_cases (r : xdsResolver) (cs : Option configSelector) (cluster : Option String)
    (interceptorOk : Bool) :
    r.SelectConfig cs cluster interceptorOk = r ∨
      ∃ sel c ci, cs = some sel ∧ cluster = some c ∧ sel.clusters.lookup c = some ci ∧
        r.SelectConfig cs cluster interceptorOk =
          { r.addRef ci 1 with
            rpcs := r.rpcs ++ [⟨c, ci, if interceptorOk then .selected else .failed⟩] } := by
  unfold SelectConfig
  split
  · next sel c =>
    split
    · next ci hci => exact .inr ⟨sel, c, ci, rfl, rfl, hci, rfl⟩
    · exact .inl rfl
  · exact .inl rfl

/-- What `onCommitted` can do: nothing, or drop the reference of an RPC and mark it committed. -/
theorem onCommitted_cases (r : xdsResolver) (k : Nat) :
    r.onCommitted k = r ∨
      ∃ rpc, r.rpcs[k]? = some rpc ∧
        r.onCommitted k = { r.addRef rpc.ref (-1) with
          rpcs := r.rpcs.set k { rpc with phase := .committed } } := by
  unfold onCommitted
  split
  · next rpc hrpc => exact .inr ⟨rpc, hrpc, rfl⟩
  · exact .inl rfl

end xdsResolver

open xdsResolver

/-! ## The books -/

/-- The bookkeeping of the references: each count is exact, and every reference is to an entry
of `activeClusters` under its cluster's name. -/
structure Books (r : xdsResolver) : Prop where
  accounts : ∀ p, r.refCount p = liveRefs r.selectors p + heldRefs r.rpcs p
  tracked : ∀ c p, Referenced r.selectors r.rpcs c p → (c, p) ∈ r.activeClusters
  nodup : (r.activeClusters.map Prod.fst).Nodup

theorem Books.of_extends {r r' : xdsResolver} (h : Books r) (he : Extends r r') : Books r' where
  accounts p := by
    rw [he.refCount, he.selectors, he.rpcs]
    exact h.accounts p
  tracked c p hc := by
    rw [he.selectors, he.rpcs] at hc
    exact he.sub _ (h.tracked c p hc)
  nodup := he.nodup

/-- A new selector, whose entries are active, with a reference taken on each. -/
theorem Books.addSelector {r : xdsResolver} (h : Books r) {clusters : List (String × Nat)}
    (hsub : ∀ e ∈ clusters, e ∈ r.activeClusters) :
    Books { r.addRefs clusters 1 with
      selectors := (r.addRefs clusters 1).selectors ++ [⟨clusters, false⟩] } where
  accounts p := by
    simp only [addRefs_refCount, addRefs_selectors, addRefs_rpcs, liveRefs_append, selectorRefs,
      Bool.false_eq_true, ↓reduceIte, h.accounts p]
    push_cast
    ring
  tracked c p hc := by
    simp only [addRefs_selectors, addRefs_rpcs, addRefs_activeClusters] at hc ⊢
    rcases referenced_append_selector.mp hc with hc | ⟨-, hmem⟩
    · exact h.tracked c p hc
    · exact hsub _ hmem
  nodup := by
    simpa only [addRefs_activeClusters] using h.nodup

/-- Pruning keeps every referenced entry: a referenced cell's count is not zero. -/
theorem Books.prune {r : xdsResolver} (h : Books r) : Books r.pruneActiveClusters where
  accounts := h.accounts
  tracked c p hc := by
    have hpos : 0 < liveRefs r.selectors p + heldRefs r.rpcs p := pos_of_referenced hc
    have hne : r.refCount p ≠ 0 := by
      rw [h.accounts p]
      omega
    exact List.mem_filter.mpr ⟨h.tracked c p hc, by simpa using hne⟩
  nodup := (List.filter_sublist.map Prod.fst).nodup h.nodup

/-- Stopping a live selector, or none. -/
theorem Books.stop {r : xdsResolver} (h : Books r) {c : Option Nat}
    (hlive : ∀ i cs, c = some i → r.selectors[i]? = some cs → cs.stopped = false) :
    Books (r.stop c) := by
  cases c with
  | none => exact h
  | some i =>
    cases hcs : r.selectors[i]? with
    | none => simpa only [xdsResolver.stop, hcs] using h
    | some cs =>
      rw [stop_some hcs]
      have hl := hlive i cs rfl hcs
      constructor
      · intro p
        have hstop := liveRefs_stop hcs hl p
        simp only [addRefs_refCount, addRefs_rpcs, h.accounts p]
        omega
      · intro c p hc
        dsimp only at hc ⊢
        rw [addRefs_rpcs] at hc
        rw [addRefs_activeClusters]
        exact h.tracked c p (Referenced.of_stop hc)
      · simpa only [addRefs_activeClusters] using h.nodup

theorem Books.withCur {r : xdsResolver} (h : Books r) (c : Option Nat) :
    Books { r with curConfigSelector := c } :=
  ⟨h.accounts, h.tracked, h.nodup⟩

/-- `SelectConfig` on a live selector. -/
theorem Books.selectConfig {r : xdsResolver} (h : Books r) {cs : Option configSelector}
    (hcs : ∀ sel, cs = some sel → sel ∈ r.selectors ∧ sel.stopped = false)
    (cluster : Option String) (interceptorOk : Bool) :
    Books (r.SelectConfig cs cluster interceptorOk) := by
  rcases SelectConfig_cases r cs cluster interceptorOk with heq | ⟨sel, c, ci, rfl, rfl, hci, heq⟩
  · rw [heq]
    exact h
  · rw [heq]
    obtain ⟨hmem, hlive⟩ := hcs sel rfl
    -- the RPC holds its reference whether or not its interceptor is built
    have hholds : ∀ p, holds p ⟨c, ci, if interceptorOk then .selected else .failed⟩ =
        (ci == p) := by
      intro p
      cases interceptorOk <;> simp [holds]
    constructor
    · intro p
      simp only [addRef_refCount, addRef_selectors, heldRefs_append, hholds, h.accounts p]
      by_cases hp : p = ci
      · subst hp
        simp only [↓reduceIte, beq_self_eq_true, Bool.toNat_true, Nat.cast_add, Nat.cast_one]
        ring
      · simp [hp, Ne.symm hp]
    · intro c' p hc'
      rcases referenced_append_rpc.mp hc' with hc' | ⟨-, rfl, rfl⟩
      · exact h.tracked _ _ hc'
      · exact h.tracked _ _ (.inl ⟨sel, hmem, hlive, Map.mem_of_lookup_eq_some hci⟩)
    · exact h.nodup

/-- `OnCommitted` of an RPC holding its reference. -/
theorem Books.onCommitted {r : xdsResolver} (h : Books r) {k : Nat} (hk : r.committable k = true) :
    Books (r.onCommitted k) := by
  rcases onCommitted_cases r k with heq | ⟨rpc, hrpc, heq⟩
  · rw [heq]
    exact h
  · rw [heq]
    have hsel : rpc.phase = .selected := by
      simpa [committable, hrpc] using hk
    constructor
    · intro p
      have hcommit := heldRefs_commit hrpc hsel p
      simp only [addRef_refCount, addRef_selectors, h.accounts p]
      by_cases hp : p = rpc.ref
      · subst hp
        simp only [beq_self_eq_true, Bool.toNat_true] at hcommit
        simp only [↓reduceIte]
        omega
      · have hb : (rpc.ref == p) = false := by simpa using Ne.symm hp
        rw [hb, Bool.toNat_false, add_zero] at hcommit
        simp only [hp, ↓reduceIte, add_zero]
        omega
    · intro c p hc
      exact h.tracked c p (Referenced.of_commit hc)
    · exact h.nodup

/-! ## The invariant over runs -/

/-- The resolver's invariant: the books, and the current selector is the one live selector. -/
structure ResolverInv (r : xdsResolver) : Prop extends Books r where
  cur_live : ∀ i, r.curConfigSelector = some i →
    ∃ cs, r.selectors[i]? = some cs ∧ cs.stopped = false
  only_cur : ∀ i cs, r.selectors[i]? = some cs → cs.stopped = false →
    r.curConfigSelector = some i

theorem resolverInv_newXdsResolver : ResolverInv newXdsResolver where
  accounts _ := by simp [newXdsResolver, liveRefs, heldRefs]
  tracked _ _ h := by simp [Referenced, newXdsResolver] at h
  nodup := List.nodup_nil
  cur_live _ h := by cases h
  only_cur _ _ h := by simp [newXdsResolver] at h

/-- Stopping the current selector and making `c'` current keeps the invariant when the live
selectors are the current one and `c'`, and `c'` names a live selector other than the current
one. -/
theorem ResolverInv.stop_switch {s : xdsResolver} (h : Books s) {c' : Option Nat}
    (hcur : ∀ i, s.curConfigSelector = some i →
      ∃ cs, s.selectors[i]? = some cs ∧ cs.stopped = false)
    (honly : ∀ i cs, s.selectors[i]? = some cs → cs.stopped = false →
      s.curConfigSelector = some i ∨ c' = some i)
    (hnew : ∀ i, c' = some i → s.curConfigSelector ≠ some i ∧
      ∃ cs, s.selectors[i]? = some cs ∧ cs.stopped = false) :
    ResolverInv { s.stop s.curConfigSelector with curConfigSelector := c' } := by
  have hbooks : Books (s.stop s.curConfigSelector) := by
    refine h.stop fun i cs hi hcs => ?_
    obtain ⟨cs', hcs', hl⟩ := hcur i hi
    rw [hcs] at hcs'
    cases hcs'
    exact hl
  refine ⟨hbooks.withCur c', ?_, ?_⟩
  · intro i hi
    obtain ⟨hne, cs', hcs', hl'⟩ := hnew i hi
    cases hc : s.curConfigSelector with
    | none => exact ⟨cs', hcs', hl'⟩
    | some j =>
      obtain ⟨cs, hcs, -⟩ := hcur j hc
      -- the selector stopped is the current one, not `c'`'s
      have hji : j ≠ i := fun hji => hne (by rw [hc, hji])
      refine ⟨cs', ?_, hl'⟩
      dsimp only
      rw [stop_some hcs]
      dsimp only
      rw [List.getElem?_set_ne hji]
      exact hcs'
  · intro i cs' hi hl'
    cases hc : s.curConfigSelector with
    | none =>
      rw [hc] at hi
      rcases honly i cs' hi hl' with h₁ | h₁
      · rw [hc] at h₁
        cases h₁
      · exact h₁
    | some j =>
      obtain ⟨cs, hcs, -⟩ := hcur j hc
      rw [hc] at hi
      dsimp only at hi ⊢
      rw [stop_some hcs] at hi
      dsimp only at hi
      by_cases hji : j = i
      · -- the stopped selector is not live
        subst hji
        rw [List.getElem?_set_self (List.getElem?_eq_some_iff.mp hcs).1] at hi
        cases hi
        simp at hl'
      · rw [List.getElem?_set_ne hji] at hi
        rcases honly i cs' hi hl' with h₁ | h₁
        · rw [hc] at h₁
          cases h₁
          exact absurd rfl hji
        · exact h₁

/-- A service update: the selector built is appended, the current one stopped, and the new one
made current. -/
theorem ResolverInv.switch_new {r s : xdsResolver} (h : ResolverInv r) (hs : Books s)
    {cs : configSelector} (hcur : s.curConfigSelector = r.curConfigSelector)
    (hsel : s.selectors = r.selectors ++ [cs]) (hlive : cs.stopped = false) :
    ResolverInv { s.stop s.curConfigSelector with
      curConfigSelector := some r.selectors.length } := by
  apply ResolverInv.stop_switch hs
  · intro i hi
    obtain ⟨cs', hcs', hl⟩ := h.cur_live i (hcur ▸ hi)
    refine ⟨cs', ?_, hl⟩
    rw [hsel, List.getElem?_append_left (List.getElem?_eq_some_iff.mp hcs').1]
    exact hcs'
  · intro i cs' hi hl
    rw [hsel] at hi
    by_cases hlt : i < r.selectors.length
    · rw [List.getElem?_append_left hlt] at hi
      exact .inl (hcur ▸ h.only_cur i cs' hi hl)
    · -- past the old selectors there is only the new one
      have hle : i < r.selectors.length + 1 := by
        simpa using (List.getElem?_eq_some_iff.mp hi).1
      exact .inr (by rw [show i = r.selectors.length by omega])
  · intro i hi
    cases hi
    refine ⟨fun hc => ?_, cs, by simp [hsel], hlive⟩
    obtain ⟨cs', hcs', -⟩ := h.cur_live _ (hcur ▸ hc)
    simp at hcs'

/-- A resource-not-found error: the current selector is stopped and none is current. -/
theorem ResolverInv.switch_none {r s : xdsResolver} (h : ResolverInv r) (hs : Books s)
    (hcur : s.curConfigSelector = r.curConfigSelector) (hsel : s.selectors = r.selectors) :
    ResolverInv { s.stop s.curConfigSelector with curConfigSelector := none } := by
  apply ResolverInv.stop_switch hs
  · intro i hi
    rw [hsel]
    exact h.cur_live i (hcur ▸ hi)
  · intro i cs hi hl
    rw [hsel] at hi
    exact .inl (hcur ▸ h.only_cur i cs hi hl)
  · intro i hi
    cases hi

theorem ResolverInv.prune {r : xdsResolver} (h : ResolverInv r) :
    ResolverInv r.pruneActiveClusters :=
  ⟨h.toBooks.prune, h.cur_live, h.only_cur⟩

/-- The selector `SelectConfig` is called on is live. -/
theorem ResolverInv.currentSelector_live {r : xdsResolver} (h : ResolverInv r) :
    ∀ sel, r.currentSelector = some sel → sel ∈ r.selectors ∧ sel.stopped = false := by
  intro sel hsel
  cases hc : r.curConfigSelector with
  | none => simp [currentSelector, hc] at hsel
  | some i =>
    simp only [currentSelector, hc, Option.bind_some] at hsel
    obtain ⟨cs, hcs, hl⟩ := h.cur_live i hc
    rw [hsel] at hcs
    cases hcs
    exact ⟨List.mem_of_getElem? hsel, hl⟩

theorem SelectConfig_selectors (r : xdsResolver) (cs : Option configSelector)
    (cluster : Option String) (interceptorOk : Bool) :
    (r.SelectConfig cs cluster interceptorOk).selectors = r.selectors ∧
      (r.SelectConfig cs cluster interceptorOk).curConfigSelector = r.curConfigSelector := by
  rcases SelectConfig_cases r cs cluster interceptorOk with heq | ⟨_, _, _, -, -, -, heq⟩ <;>
    rw [heq] <;> simp

theorem onCommitted_selectors (r : xdsResolver) (k : Nat) :
    (r.onCommitted k).selectors = r.selectors ∧
      (r.onCommitted k).curConfigSelector = r.curConfigSelector := by
  rcases onCommitted_cases r k with heq | ⟨_, -, heq⟩ <;> rw [heq] <;> simp

/-- Every allowed step keeps the invariant. -/
theorem ResolverInv.step {r : xdsResolver} (h : ResolverInv r) {e : resolverEvent}
    (he : r.Allowed e) : ResolverInv (r.step e).2 := by
  cases e with
  | serviceUpdate routes =>
    obtain ⟨r', hext, hnone | ⟨clusters, hsub, hsome⟩⟩ := newConfigSelector_cases h.nodup routes
    · -- the error goes to `ReportError`
      simp only [xdsResolver.step, hnone]
      refine ⟨h.toBooks.of_extends hext, ?_, ?_⟩
      · rw [hext.curConfigSelector, hext.selectors]
        exact h.cur_live
      · rw [hext.curConfigSelector, hext.selectors]
        exact h.only_cur
    · simp only [xdsResolver.step, hsome, sendNewServiceConfig]
      have hlen : (r'.addRefs clusters 1).selectors.length = r.selectors.length := by
        rw [addRefs_selectors, hext.selectors]
      rw [hlen]
      refine h.switch_new ((h.toBooks.of_extends hext).addSelector hsub).prune ?_ ?_
        (show (⟨clusters, false⟩ : configSelector).stopped = false from rfl)
      · exact (addRefs_curConfigSelector _ _ _).trans hext.curConfigSelector
      · change (r'.addRefs clusters 1).selectors ++ _ = _
        rw [addRefs_selectors, hext.selectors]
  | resourceNotFound =>
    exact h.switch_none h.toBooks.prune rfl rfl
  | watchError => exact h
  | emptyUpdate => exact h.prune
  | selectConfig cluster interceptorOk =>
    obtain ⟨hsel, hcur⟩ := SelectConfig_selectors r r.currentSelector cluster interceptorOk
    refine ⟨h.toBooks.selectConfig h.currentSelector_live cluster interceptorOk, ?_, ?_⟩
    · dsimp only [xdsResolver.step]
      rw [hsel, hcur]
      exact h.cur_live
    · dsimp only [xdsResolver.step]
      rw [hsel, hcur]
      exact h.only_cur
  | committed k =>
    obtain ⟨hsel, hcur⟩ := onCommitted_selectors r k
    refine ⟨h.toBooks.onCommitted he, ?_, ?_⟩
    · dsimp only [xdsResolver.step]
      rw [hsel, hcur]
      exact h.cur_live
    · dsimp only [xdsResolver.step]
      rw [hsel, hcur]
      exact h.only_cur

theorem resolverInv_invariant :
    Machine.Invariant xdsResolver.Allowed xdsResolver.step ResolverInv :=
  fun _ _ h he => h.step he

/-- The invariant holds after every run from a new resolver. -/
theorem resolverInv_run {es : List resolverEvent}
    (hadm : Machine.Admits xdsResolver.Allowed xdsResolver.step newXdsResolver es) :
    ResolverInv (Machine.run xdsResolver.step newXdsResolver es).2 :=
  resolverInv_invariant.run resolverInv_newXdsResolver hadm

/-! ## The service configs sent -/

/-- The config selector a service config carries. -/
def serviceConfigUpdate.selector : serviceConfigUpdate → Option Nat
  | .empty => none
  | .clusterManager _ cs => cs

/-- A stop only takes references away. -/
theorem Referenced.of_stopSelector {r : xdsResolver} {c' : Option Nat} {c : String} {p : Nat}
    (hc : Referenced (r.stop c').selectors (r.stop c').rpcs c p) :
    Referenced r.selectors r.rpcs c p := by
  cases c' with
  | none => exact hc
  | some i =>
    cases hcs : r.selectors[i]? with
    | none => simpa only [xdsResolver.stop, hcs] using hc
    | some cs =>
      rw [stop_some hcs] at hc
      dsimp only at hc
      rw [addRefs_rpcs] at hc
      exact hc.of_stop

/-- A service config sent from a state whose books are kept lists every cluster a live selector
or an uncommitted RPC references, and no cluster whose count is zero; it carries the selector
it was given. -/
theorem sendNewServiceConfig_covers {r : xdsResolver} (h : Books r) (cs : Option Nat) :
    ∀ o ∈ (r.sendNewServiceConfig cs).1,
      (∀ c p, Referenced r.selectors r.rpcs c p → c ∈ o.children) ∧
        (∀ c ∈ o.children, ∃ p, (c, p) ∈ r.activeClusters ∧ r.refCount p ≠ 0) ∧
        o.selector = cs := by
  intro o ho
  simp only [sendNewServiceConfig, List.mem_singleton] at ho
  subst ho
  have hp := h.prune
  unfold serviceConfig
  split
  · next hempty =>
    simp only [Bool.and_eq_true, Option.isNone_iff_eq_none, List.isEmpty_iff] at hempty
    refine ⟨fun c p hc => ?_, fun c hc => (by cases hc), hempty.1.symm⟩
    -- with nothing active, nothing is referenced
    have hmem := hp.tracked c p hc
    rw [hempty.2] at hmem
    cases hmem
  · refine ⟨fun c p hc => List.mem_map_of_mem (f := Prod.fst) (hp.tracked c p hc), ?_, rfl⟩
    intro c hc
    obtain ⟨e, he, rfl⟩ := List.mem_map.mp hc
    obtain ⟨hmem, hne⟩ := List.mem_filter.mp he
    exact ⟨e.2, hmem, by simpa using hne⟩

/-- Each service config a step sends lists every cluster referenced before the step and after
it, and carries the selector current after it. -/
theorem ResolverInv.step_outputs {r : xdsResolver} (h : ResolverInv r) (e : resolverEvent) :
    ∀ o ∈ (r.step e).1, (∀ c p, Referenced r.selectors r.rpcs c p → c ∈ o.children) ∧
      (∀ c p, Referenced (r.step e).2.selectors (r.step e).2.rpcs c p → c ∈ o.children) ∧
      o.selector = (r.step e).2.curConfigSelector := by
  cases e with
  | serviceUpdate routes =>
    obtain ⟨r', hext, hnone | ⟨clusters, hsub, hsome⟩⟩ := newConfigSelector_cases h.nodup routes
    · simp [xdsResolver.step, hnone]
    · simp only [xdsResolver.step, hsome]
      intro o ho
      obtain ⟨hcov, -, hsel⟩ :=
        sendNewServiceConfig_covers ((h.toBooks.of_extends hext).addSelector hsub) _ o ho
      refine ⟨fun c p hc => hcov c p ?_, fun c p hc => hcov c p hc.of_stopSelector, hsel⟩
      -- the state sent from has the references of `r`, and the new selector's
      dsimp only
      rw [addRefs_selectors, addRefs_rpcs, hext.selectors, hext.rpcs]
      exact referenced_append_selector.mpr (.inl hc)
  | resourceNotFound =>
    intro o ho
    obtain ⟨hcov, -, hsel⟩ := sendNewServiceConfig_covers h.toBooks none o ho
    exact ⟨hcov, fun c p hc => hcov c p hc.of_stopSelector, hsel⟩
  | watchError => simp [xdsResolver.step]
  | emptyUpdate =>
    intro o ho
    obtain ⟨hcov, -, hsel⟩ := sendNewServiceConfig_covers h.toBooks _ o ho
    exact ⟨hcov, hcov, hsel⟩
  | selectConfig => simp [xdsResolver.step]
  | committed => simp [xdsResolver.step]

/-- A step that sends nothing adds no reference the state did not have, and keeps the current
selector. -/
theorem ResolverInv.step_silent {r : xdsResolver} (h : ResolverInv r) {e : resolverEvent}
    (hout : (r.step e).1 = []) :
    (∀ c p, Referenced (r.step e).2.selectors (r.step e).2.rpcs c p →
      Referenced r.selectors r.rpcs c p) ∧
      (r.step e).2.curConfigSelector = r.curConfigSelector := by
  cases e with
  | serviceUpdate routes =>
    obtain ⟨r', hext, hnone | ⟨clusters, -, hsome⟩⟩ := newConfigSelector_cases h.nodup routes
    · simp only [xdsResolver.step, hnone]
      rw [hext.selectors, hext.rpcs, hext.curConfigSelector]
      exact ⟨fun _ _ hc => hc, rfl⟩
    · simp [xdsResolver.step, hsome, sendNewServiceConfig] at hout
  | resourceNotFound => simp [xdsResolver.step, sendNewServiceConfig] at hout
  | watchError => exact ⟨fun _ _ hc => hc, rfl⟩
  | emptyUpdate => simp [xdsResolver.step, sendNewServiceConfig] at hout
  | selectConfig cluster interceptorOk =>
    refine ⟨fun c p hc => ?_, (SelectConfig_selectors _ _ _ _).2⟩
    dsimp only [xdsResolver.step] at hc
    rcases SelectConfig_cases r r.currentSelector cluster interceptorOk with
      heq | ⟨sel, c', ci, hsel, -, hci, heq⟩
    · rw [heq] at hc
      exact hc
    · rw [heq] at hc
      dsimp only at hc
      rw [addRef_selectors] at hc
      rcases referenced_append_rpc.mp hc with hc | ⟨-, rfl, rfl⟩
      · exact hc
      · -- the RPC's cluster is an entry of the current selector, which is live
        obtain ⟨hmem, hlive⟩ := h.currentSelector_live sel hsel
        exact .inl ⟨sel, hmem, hlive, Map.mem_of_lookup_eq_some hci⟩
  | committed k =>
    refine ⟨fun c p hc => ?_, (onCommitted_selectors r k).2⟩
    dsimp only [xdsResolver.step] at hc
    rcases onCommitted_cases r k with heq | ⟨rpc, -, heq⟩
    · rw [heq] at hc
      exact hc
    · rw [heq] at hc
      dsimp only at hc
      rw [addRef_selectors] at hc
      exact hc.of_commit

/-- The last service config sent covers the state: it lists every cluster that a live selector
or an uncommitted RPC references, and carries the current selector.  Before any is sent, nothing
is referenced and no selector is current. -/
def LastCovers (out : List serviceConfigUpdate) (r : xdsResolver) : Prop :=
  match out.getLast? with
  | none => (∀ c p, ¬ Referenced r.selectors r.rpcs c p) ∧ r.curConfigSelector = none
  | some o =>
    (∀ c p, Referenced r.selectors r.rpcs c p → c ∈ o.children) ∧
      o.selector = r.curConfigSelector

theorem LastCovers.step {out : List serviceConfigUpdate} {r : xdsResolver} (h : ResolverInv r)
    (hl : LastCovers out r) (e : resolverEvent) :
    LastCovers (out ++ (r.step e).1) (r.step e).2 := by
  by_cases hout : (r.step e).1 = []
  · -- nothing sent: the references only shrink, within the last config's
    obtain ⟨hsub, hcur⟩ := h.step_silent hout
    rw [hout, List.append_nil]
    unfold LastCovers at hl ⊢
    cases hlast : out.getLast? with
    | none =>
      rw [hlast] at hl
      exact ⟨fun c p hc => hl.1 c p (hsub c p hc), hcur.trans hl.2⟩
    | some o =>
      rw [hlast] at hl
      exact ⟨fun c p hc => hl.1 c p (hsub c p hc), hl.2.trans hcur.symm⟩
  · obtain ⟨o, ho⟩ : ∃ o, (r.step e).1.getLast? = some o := by
      cases hx : (r.step e).1.getLast? with
      | none => exact absurd (List.getLast?_eq_none_iff.mp hx) hout
      | some o => exact ⟨o, rfl⟩
    obtain ⟨-, hcov, hsel⟩ := h.step_outputs e o (List.mem_of_getLast? ho)
    unfold LastCovers
    simp only [List.getLast?_append, ho, Option.some_or]
    exact ⟨hcov, hsel⟩

/-- After every run from a new resolver, the last service config sent lists every cluster that
the current selector or an uncommitted RPC references, and carries the current selector. -/
theorem lastConfig_covers_run {es : List resolverEvent}
    (hadm : Machine.Admits xdsResolver.Allowed xdsResolver.step newXdsResolver es) :
    LastCovers (Machine.run xdsResolver.step newXdsResolver es).1
      (Machine.run xdsResolver.step newXdsResolver es).2 := by
  have hinit : LastCovers [] newXdsResolver := by
    simp [LastCovers, Referenced, newXdsResolver]
  have hrun := resolverInv_invariant.outputs (P := LastCovers)
    (fun _ _ e hs _ hl => hl.step hs e) resolverInv_newXdsResolver hadm hinit
  rwa [List.nil_append] at hrun

/-- An RPC whose interceptor failed stays so: nothing drops its reference. -/
theorem ResolverInv.step_keeps_failed {r : xdsResolver} (h : ResolverInv r) {e : resolverEvent}
    (he : r.Allowed e) {k : Nat} {rpc : rpcRef} (hk : r.rpcs[k]? = some rpc)
    (hfail : rpc.phase = .failed) : (r.step e).2.rpcs[k]? = some rpc := by
  cases e with
  | serviceUpdate routes =>
    obtain ⟨r', hext, hnone | ⟨clusters, -, hsome⟩⟩ := newConfigSelector_cases h.nodup routes
    · simp only [xdsResolver.step, hnone]
      rw [hext.rpcs]
      exact hk
    · simp only [xdsResolver.step, hsome, sendNewServiceConfig]
      rw [stop_rpcs]
      dsimp only [pruneActiveClusters]
      rw [addRefs_rpcs, hext.rpcs]
      exact hk
  | resourceNotFound =>
    simp only [xdsResolver.step, sendNewServiceConfig]
    rw [stop_rpcs]
    exact hk
  | watchError => exact hk
  | emptyUpdate => exact hk
  | selectConfig cluster interceptorOk =>
    dsimp only [xdsResolver.step]
    rcases SelectConfig_cases r r.currentSelector cluster interceptorOk with
      heq | ⟨_, _, _, -, -, -, heq⟩
    · rw [heq]
      exact hk
    · rw [heq]
      dsimp only
      rw [List.getElem?_append_left (List.getElem?_eq_some_iff.mp hk).1]
      exact hk
  | committed j =>
    dsimp only [xdsResolver.step]
    rcases onCommitted_cases r j with heq | ⟨rpc', hrpc', heq⟩
    · rw [heq]
      exact hk
    · rw [heq]
      dsimp only
      -- the RPC committed held its reference, so it is another one
      have hjk : j ≠ k := by
        rintro rfl
        simp [xdsResolver.Allowed, committable, hk, hfail] at he
      rw [List.getElem?_set_ne hjk]
      exact hk

/-- Once `SelectConfig` has failed for a cluster, every service config sent after it lists the
cluster: the reference the failed call took is never dropped. -/
theorem failedSelect_cluster_kept {es es' : List resolverEvent}
    (hadm : Machine.Admits xdsResolver.Allowed xdsResolver.step newXdsResolver (es ++ es'))
    {k : Nat} {rpc : rpcRef}
    (hk : (Machine.run xdsResolver.step newXdsResolver es).2.rpcs[k]? = some rpc)
    (hfail : rpc.phase = .failed) :
    ∀ o ∈ (Machine.run xdsResolver.step
      (Machine.run xdsResolver.step newXdsResolver es).2 es').1, rpc.cluster ∈ o.children := by
  obtain ⟨hadm₁, hadm₂⟩ := (Machine.admits_append _ _ _).mp hadm
  have hstep : ∀ (out : List serviceConfigUpdate) (s : xdsResolver) (e : resolverEvent),
      ResolverInv s → s.Allowed e →
        (s.rpcs[k]? = some rpc ∧ ∀ o ∈ out, rpc.cluster ∈ o.children) →
        (s.step e).2.rpcs[k]? = some rpc ∧
          ∀ o ∈ out ++ (s.step e).1, rpc.cluster ∈ o.children := by
    intro out s e hs he ⟨hks, hout⟩
    refine ⟨hs.step_keeps_failed he hks hfail, fun o ho => ?_⟩
    rcases List.mem_append.mp ho with ho | ho
    · exact hout o ho
    · -- the failed RPC still references its cluster when the config is sent
      have hphase : rpc.phase ≠ .committed := by
        rw [hfail]
        exact nofun
      exact (hs.step_outputs e o ho).1 rpc.cluster rpc.ref
        (.inr ⟨rpc, List.mem_of_getElem? hks, hphase, rfl, rfl⟩)
  have hinit : (Machine.run xdsResolver.step newXdsResolver es).2.rpcs[k]? = some rpc ∧
      ∀ o ∈ ([] : List serviceConfigUpdate), rpc.cluster ∈ o.children :=
    ⟨hk, nofun⟩
  have hrun := resolverInv_invariant.outputs
    (P := fun out s => s.rpcs[k]? = some rpc ∧ ∀ o ∈ out, rpc.cluster ∈ o.children)
    hstep (resolverInv_run hadm₁) hadm₂ hinit
  simpa using hrun.2

/-- A run that leaks: an update naming the cluster `A`, an RPC routed to `A` whose
`newInterceptor` fails, an update naming only `B`, and the empty update that follows. -/
def leakingRun : List resolverEvent :=
  [.serviceUpdate [⟨["A"], true⟩], .selectConfig (some "A") false,
    .serviceUpdate [⟨["B"], true⟩], .emptyUpdate]

theorem failedSelectConfig_leaks_reference :
    Machine.Admits xdsResolver.Allowed xdsResolver.step newXdsResolver leakingRun ∧
      (Machine.run xdsResolver.step newXdsResolver (leakingRun.take 1)).2.refCount 0 = 1 ∧
      (Machine.run xdsResolver.step newXdsResolver (leakingRun.take 2)).2.refCount 0 = 2 ∧
      (Machine.run xdsResolver.step newXdsResolver leakingRun).2.refCount 0 = 1 ∧
      liveRefs (Machine.run xdsResolver.step newXdsResolver leakingRun).2.selectors 0 = 0 ∧
      (Machine.run xdsResolver.step newXdsResolver leakingRun).2.rpcs.countP
        (fun rpc => rpc.ref == 0 && rpc.phase == .selected) = 0 ∧
      (Machine.run xdsResolver.step newXdsResolver leakingRun).1 =
        [.clusterManager ["A"] (some 0), .clusterManager ["A", "B"] (some 1),
          .clusterManager ["A", "B"] (some 1)] := by
  decide

end Resolver
end GrpcGo
