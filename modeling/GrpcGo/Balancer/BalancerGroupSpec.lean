import GrpcGo.Balancer.BalancerGroup

/-!
# Who owns a SubConn in a balancer group

Three layers of facts about the machine of `BalancerGroup`:

* `Layout`: how the state hangs together between events.  The two halves are started and
  closed together; a group that is not started has an empty cache and no SubConns; a wrapper of
  an id has its balancer built exactly when the group is started, one in the cache always does;
  every built balancer belongs to a wrapper the group holds, each wrapper held once; and every
  SubConn of the map belongs to a wrapper whose balancer is built.
* `Effects g o g'`: what one event can do, stated once: it closes only balancers it leaves
  unbuilt, builds only new ones, removes only SubConns of the map whose balancer it closes, and
  forwards states only to the balancer that made the SubConn.
* `Books out g`: what the outputs so far say, with the state: each SubConn of the map was made
  by the balancer its wrapper has now, no SubConn is removed twice, a SubConn is removed only
  once the balancer that made it is closed, and it is removed by then unless it was shut down.

`Books.step` derives the third from the first two for any event; each event is shown to keep
`Layout` and to have `Effects`.  The parents of a group add an id only when it does not hold it
(`AddsNew`); a second `Add` of an id would leave the first wrapper running with its SubConns,
held by neither map.
-/

namespace GrpcGo
namespace Balancergroup

open GoStd Cache
open Priority (connectivityState)

namespace BalancerGroup

/-! ## The wrappers and their balancers -/

section Fields

variable (g : BalancerGroup) (p : Nat) (v : Option Nat)

@[simp] theorem setBalancer_outgoingStarted : (g.setBalancer p v).outgoingStarted = g.outgoingStarted := rfl
@[simp] theorem setBalancer_incomingStarted : (g.setBalancer p v).incomingStarted = g.incomingStarted := rfl
@[simp] theorem setBalancer_idToBalancerConfig :
    (g.setBalancer p v).idToBalancerConfig = g.idToBalancerConfig := rfl
@[simp] theorem setBalancer_balancerCache : (g.setBalancer p v).balancerCache = g.balancerCache := rfl
@[simp] theorem setBalancer_scToSubBalancer :
    (g.setBalancer p v).scToSubBalancer = g.scToSubBalancer := rfl
@[simp] theorem setBalancer_nextBalancer : (g.setBalancer p v).nextBalancer = g.nextBalancer := rfl
@[simp] theorem setBalancer_nextSubConn : (g.setBalancer p v).nextSubConn = g.nextSubConn := rfl
@[simp] theorem length_setBalancer : (g.setBalancer p v).wrappers.length = g.wrappers.length := by
  simp [setBalancer]

theorem balancerOf_setBalancer_self (h : p < g.wrappers.length) :
    (g.setBalancer p v).balancerOf p = v := by
  simp [setBalancer, balancerOf, List.getElem?_eq_getElem h]

theorem balancerOf_setBalancer_ne {q : Nat} (h : q ≠ p) :
    (g.setBalancer p v).balancerOf q = g.balancerOf q := by
  simp [setBalancer, balancerOf, List.getElem?_modify_ne _ _ (Ne.symm h)]

theorem balancerOf_setBalancer_none (q : Nat) :
    (g.setBalancer p none).balancerOf q = if q = p then none else g.balancerOf q := by
  by_cases hq : q = p
  · subst hq
    simp [setBalancer, balancerOf]
  · rw [if_neg hq, balancerOf_setBalancer_ne g p none hq]

end Fields

/-- Only a wrapper that exists has a balancer. -/
theorem lt_of_balancerOf_isSome {g : BalancerGroup} {p : Nat} (h : (g.balancerOf p).isSome) :
    p < g.wrappers.length := by
  by_contra hp
  simp [balancerOf, List.getElem?_eq_none (Nat.le_of_not_lt hp)] at h

/-- A wrapper added last has no balancer, and the others keep theirs. -/
theorem balancerOf_append (g : BalancerGroup) (w : subBalancerWrapper) (q : Nat) :
    ({ g with wrappers := g.wrappers ++ [w] } : BalancerGroup).balancerOf q =
      if q = g.wrappers.length then w.balancer else g.balancerOf q := by
  unfold balancerOf
  split
  · rename_i hq
    subst hq
    simp
  · rename_i hq
    rcases Nat.lt_or_ge q g.wrappers.length with hlt | hge
    · simp [List.getElem?_append_left hlt]
    · have hgt : g.wrappers.length < q := Nat.lt_of_le_of_ne hge (Ne.symm hq)
      have hlen : (g.wrappers ++ [w]).length ≤ q := by
        rw [List.length_append, List.length_singleton]
        exact hgt
      rw [List.getElem?_eq_none hlen, List.getElem?_eq_none (Nat.le_of_lt hgt)]

/-! ## The invariants -/

/-- The wrappers the group holds: those of its ids, then those in its cache. -/
def placed (g : BalancerGroup) : List Nat :=
  g.idToBalancerConfig.map Prod.snd ++ g.balancerCache.cache.map Prod.snd

/-- How the state of a group hangs together between events. -/
structure Layout (g : BalancerGroup) : Prop where
  /-- `Start` and `Close` start and close the two halves together. -/
  started : g.incomingStarted = g.outgoingStarted
  stopped : g.outgoingStarted = false → g.balancerCache.cache = [] ∧ g.scToSubBalancer = []
  configLive : ∀ id p, (id, p) ∈ g.idToBalancerConfig → (g.balancerOf p).isSome = g.outgoingStarted
  cacheLive : ∀ id p, (id, p) ∈ g.balancerCache.cache → (g.balancerOf p).isSome
  /-- No built balancer is lost. -/
  livePlaced : ∀ p, (g.balancerOf p).isSome → p ∈ g.placed
  placedNodup : g.placed.Nodup
  placedBound : ∀ p ∈ g.placed, p < g.wrappers.length
  configKeys : (g.idToBalancerConfig.map Prod.fst).Nodup
  cacheKeys : (g.balancerCache.cache.map Prod.fst).Nodup
  keysDisjoint : ∀ id ∈ g.idToBalancerConfig.map Prod.fst, id ∉ g.balancerCache.cache.map Prod.fst
  subConnKeys : (g.scToSubBalancer.map Prod.fst).Nodup
  ownerLive : ∀ sc p, (sc, p) ∈ g.scToSubBalancer → (g.balancerOf p).isSome
  subConnFresh : ∀ sc ∈ g.scToSubBalancer.map Prod.fst, sc < g.nextSubConn
  liveUnique : ∀ p q b, g.balancerOf p = some b → g.balancerOf q = some b → p = q
  liveFresh : ∀ p b, g.balancerOf p = some b → b < g.nextBalancer

/-- What the outputs so far say, with the state they led to. -/
structure Books (out : List output) (g : BalancerGroup) : Prop where
  liveOpen : ∀ p b, g.balancerOf p = some b → .close b ∉ out
  closedFresh : ∀ b, .close b ∈ out → b < g.nextBalancer
  /-- A SubConn of the map was made by the balancer its wrapper has now. -/
  owner : ∀ sc p, (sc, p) ∈ g.scToSubBalancer →
    ∃ b, g.balancerOf p = some b ∧ .newSubConn b sc ∈ out
  ownedKept : ∀ sc p, (sc, p) ∈ g.scToSubBalancer → .removeSubConn sc ∉ out
  createdFresh : ∀ b sc, .newSubConn b sc ∈ out → sc < g.nextSubConn
  createdOnce : ∀ b b' sc, .newSubConn b sc ∈ out → .newSubConn b' sc ∈ out → b = b'
  forwarded : ∀ b sc s, .updateSubConnState b sc s ∈ out → .newSubConn b sc ∈ out
  removedOnce : ∀ sc, out.count (.removeSubConn sc) ≤ 1
  removedClosed : ∀ sc, .removeSubConn sc ∈ out → ∃ b, .newSubConn b sc ∈ out ∧ .close b ∈ out
  /-- A SubConn made is still in the map, removed, or shut down. -/
  created : ∀ b sc, .newSubConn b sc ∈ out →
    sc ∈ g.scToSubBalancer.map Prod.fst ∨ .removeSubConn sc ∈ out ∨
      .updateSubConnState b sc .Shutdown ∈ out

/-- What one event, with outputs `o`, does from `g` to `g'`. -/
structure Effects (g : BalancerGroup) (o : List output) (g' : BalancerGroup) : Prop where
  nextBalancer_le : g.nextBalancer ≤ g'.nextBalancer
  nextSubConn_le : g.nextSubConn ≤ g'.nextSubConn
  /-- A balancer closed is numbered and no longer built. -/
  closed : ∀ b, .close b ∈ o → b < g'.nextBalancer ∧ ∀ q, g'.balancerOf q ≠ some b
  /-- A balancer built after the event was built before it, or is new. -/
  live : ∀ p b, g'.balancerOf p = some b → g.balancerOf p = some b ∨ g.nextBalancer ≤ b
  kept : ∀ sc p, (sc, p) ∈ g'.scToSubBalancer →
    ((sc, p) ∈ g.scToSubBalancer ∧ .removeSubConn sc ∉ o ∧ g'.balancerOf p = g.balancerOf p) ∨
      (g.nextSubConn ≤ sc ∧ ∃ b, g'.balancerOf p = some b ∧ .newSubConn b sc ∈ o)
  created : ∀ b sc, .newSubConn b sc ∈ o →
    g.nextSubConn ≤ sc ∧ sc < g'.nextSubConn ∧ sc ∈ g'.scToSubBalancer.map Prod.fst
  createdOnce : ∀ b b' sc, .newSubConn b sc ∈ o → .newSubConn b' sc ∈ o → b = b'
  /-- A SubConn removed was in the map, and the balancer that has it is closed. -/
  removed : ∀ sc, .removeSubConn sc ∈ o →
    ∃ p b, (sc, p) ∈ g.scToSubBalancer ∧ g.balancerOf p = some b ∧ .close b ∈ o
  removedOnce : ∀ sc, o.count (.removeSubConn sc) ≤ 1
  forwarded : ∀ b sc s, .updateSubConnState b sc s ∈ o →
    ∃ p, (sc, p) ∈ g.scToSubBalancer ∧ g.balancerOf p = some b
  /-- A SubConn leaves the map only removed or shut down. -/
  left : ∀ sc p, (sc, p) ∈ g.scToSubBalancer → sc ∉ g'.scToSubBalancer.map Prod.fst →
    .removeSubConn sc ∈ o ∨ ∃ b, g.balancerOf p = some b ∧ .updateSubConnState b sc .Shutdown ∈ o

/-! ## The books follow from the effects -/

section Step

variable {out o : List output} {g g' : BalancerGroup}

/-- The SubConn a wrapper has in the map was made by its balancer: the one balancer of the books
that made it. -/
theorem Books.creator (hb : Books out g) {sc p b b' : Nat} (hm : (sc, p) ∈ g.scToSubBalancer)
    (hp : g.balancerOf p = some b) (hc : .newSubConn b' sc ∈ out) : b' = b := by
  obtain ⟨b'', hp', hc'⟩ := hb.owner sc p hm
  rw [hp] at hp'
  cases hp'
  exact hb.createdOnce b' b sc hc hc'

/-- A SubConn the books removed or made is older than the state's next SubConn. -/
theorem Books.removed_fresh (hb : Books out g) {sc : Nat} (h : .removeSubConn sc ∈ out) :
    sc < g.nextSubConn := by
  obtain ⟨b, hc, -⟩ := hb.removedClosed sc h
  exact hb.createdFresh b sc hc

theorem Books.step (hb : Books out g) (he : Effects g o g') : Books (out ++ o) g' where
  liveOpen p b hp := by
    rw [List.mem_append, not_or]
    refine ⟨?_, fun hc => (he.closed b hc).2 p hp⟩
    rcases he.live p b hp with hold | hnew
    · exact hb.liveOpen p b hold
    · exact fun hc => Nat.lt_irrefl _ (Nat.lt_of_lt_of_le (hb.closedFresh b hc) hnew)
  closedFresh b hc := by
    rcases List.mem_append.mp hc with hc | hc
    · exact Nat.lt_of_lt_of_le (hb.closedFresh b hc) he.nextBalancer_le
    · exact (he.closed b hc).1
  owner sc p hm := by
    rcases he.kept sc p hm with ⟨hm, -, hbal⟩ | ⟨-, b, hp, hc⟩
    · obtain ⟨b, hp, hc⟩ := hb.owner sc p hm
      exact ⟨b, hbal.trans hp, List.mem_append_left _ hc⟩
    · exact ⟨b, hp, List.mem_append_right _ hc⟩
  ownedKept sc p hm := by
    rw [List.mem_append, not_or]
    rcases he.kept sc p hm with ⟨hm, hr, -⟩ | ⟨hfresh, -⟩
    · exact ⟨hb.ownedKept sc p hm, hr⟩
    · -- a new SubConn: removing it before, or in the event, would make it older
      refine ⟨fun hr => Nat.lt_irrefl _ (Nat.lt_of_lt_of_le (hb.removed_fresh hr) hfresh),
        fun hr => ?_⟩
      obtain ⟨p', b, hm', -, -⟩ := he.removed sc hr
      obtain ⟨b', -, hc⟩ := hb.owner sc p' hm'
      exact Nat.lt_irrefl _ (Nat.lt_of_lt_of_le (hb.createdFresh b' sc hc) hfresh)
  createdFresh b sc hc := by
    rcases List.mem_append.mp hc with hc | hc
    · exact Nat.lt_of_lt_of_le (hb.createdFresh b sc hc) he.nextSubConn_le
    · exact (he.created b sc hc).2.1
  createdOnce b b' sc hc hc' := by
    rcases List.mem_append.mp hc with hc | hc <;> rcases List.mem_append.mp hc' with hc' | hc'
    · exact hb.createdOnce b b' sc hc hc'
    · exact absurd (he.created b' sc hc').1 (Nat.not_le_of_lt (hb.createdFresh b sc hc))
    · exact absurd (he.created b sc hc).1 (Nat.not_le_of_lt (hb.createdFresh b' sc hc'))
    · exact he.createdOnce b b' sc hc hc'
  forwarded b sc s hf := by
    rcases List.mem_append.mp hf with hf | hf
    · exact List.mem_append_left _ (hb.forwarded b sc s hf)
    · obtain ⟨p, hm, hp⟩ := he.forwarded b sc s hf
      obtain ⟨b', hp', hc⟩ := hb.owner sc p hm
      rw [hp] at hp'
      cases hp'
      exact List.mem_append_left _ hc
  removedOnce sc := by
    rw [List.count_append]
    by_cases hr : .removeSubConn sc ∈ o
    · -- a SubConn the event removes was in the map, so the books had not removed it
      obtain ⟨p, -, hm, -, -⟩ := he.removed sc hr
      have h0 : out.count (.removeSubConn sc) = 0 := List.count_eq_zero.mpr (hb.ownedKept sc p hm)
      have h1 := he.removedOnce sc
      omega
    · have h0 : o.count (.removeSubConn sc) = 0 := List.count_eq_zero.mpr hr
      have h1 := hb.removedOnce sc
      omega
  removedClosed sc hr := by
    rcases List.mem_append.mp hr with hr | hr
    · obtain ⟨b, hc, hcl⟩ := hb.removedClosed sc hr
      exact ⟨b, List.mem_append_left _ hc, List.mem_append_left _ hcl⟩
    · obtain ⟨p, b, hm, hp, hcl⟩ := he.removed sc hr
      obtain ⟨b', hp', hc⟩ := hb.owner sc p hm
      rw [hp] at hp'
      cases hp'
      exact ⟨b, List.mem_append_left _ hc, List.mem_append_right _ hcl⟩
  created b sc hc := by
    rcases List.mem_append.mp hc with hc | hc
    · rcases hb.created b sc hc with hk | hr | hs
      · obtain ⟨⟨sc', p⟩, hm, rfl⟩ := List.mem_map.mp hk
        by_cases hk' : sc' ∈ g'.scToSubBalancer.map Prod.fst
        · exact .inl hk'
        · rcases he.left sc' p hm hk' with hr | ⟨b', hp, hs⟩
          · exact .inr (.inl (List.mem_append_right _ hr))
          · -- the SubConn shut down is the one `b` made
            obtain ⟨b'', hp', hc'⟩ := hb.owner sc' p hm
            rw [hp] at hp'
            cases hp'
            rw [hb.createdOnce b b' sc' hc hc']
            exact .inr (.inr (List.mem_append_right _ hs))
      · exact .inr (.inl (List.mem_append_left _ hr))
      · exact .inr (.inr (List.mem_append_left _ hs))
    · exact .inl (he.created b sc hc).2.2

end Step

/-! ## Outputs -/

section Outputs

variable {b sc : Nat} {s : connectivityState}

@[simp] theorem close_mem_toList_map {v : Option Nat} :
    .close b ∈ v.toList.map output.close ↔ v = some b := by
  cases v <;> simp [eq_comm]

theorem close_mem_filterMap {f : Nat → Option Nat} {ps : List Nat} :
    .close b ∈ (ps.filterMap f).map output.close ↔ ∃ p ∈ ps, f p = some b := by
  simp

theorem removeSubConn_mem_map {l : List (Nat × Nat)} :
    .removeSubConn sc ∈ l.map (fun e => output.removeSubConn e.1) ↔ ∃ p, (sc, p) ∈ l := by
  simp

/-- The SubConns of a map with no key twice are removed once each. -/
theorem count_removeSubConn_map {l : List (Nat × Nat)} (h : (l.map Prod.fst).Nodup) (sc : Nat) :
    (l.map fun e => output.removeSubConn e.1).count (.removeSubConn sc) ≤ 1 := by
  have hmap : (l.map fun e => output.removeSubConn e.1) =
      (l.map Prod.fst).map output.removeSubConn := by simp
  have hinj : Function.Injective output.removeSubConn := fun _ _ h => output.removeSubConn.inj h
  rw [hmap, List.count_map_of_injective _ _ hinj]
  exact List.nodup_iff_count_le_one.mp h sc

end Outputs

/-! ## What only builds balancers -/

/-- The balancers read only the wrappers. -/
theorem balancerOf_congr {g g' : BalancerGroup} (hw : g'.wrappers = g.wrappers) (q : Nat) :
    g'.balancerOf q = g.balancerOf q := by
  unfold balancerOf
  rw [hw]

/-- An event, or a part of one, that only builds balancers: the SubConns, and the balancers
already built, stay as they are. -/
structure BuildsOnly (g : BalancerGroup) (o : List output) (g' : BalancerGroup) : Prop where
  outputs : ∀ x ∈ o, ∃ b, x = .build b
  nextBalancer_le : g.nextBalancer ≤ g'.nextBalancer
  live : ∀ p b, g'.balancerOf p = some b → g.balancerOf p = some b ∨ g.nextBalancer ≤ b
  kept : ∀ p, (g.balancerOf p).isSome → g'.balancerOf p = g.balancerOf p
  subConns : g'.scToSubBalancer = g.scToSubBalancer
  nextSubConn : g'.nextSubConn = g.nextSubConn

section BuildsOnly

variable {g g' g₁ g₂ : BalancerGroup} {o o' : List output}

/-- A change of state that leaves the wrappers, the SubConns and the counters builds nothing. -/
theorem buildsOnly_quiet (hw : g'.wrappers = g.wrappers)
    (hs : g'.scToSubBalancer = g.scToSubBalancer) (hb : g'.nextBalancer = g.nextBalancer)
    (hc : g'.nextSubConn = g.nextSubConn) : BuildsOnly g [] g' where
  outputs _ h := absurd h List.not_mem_nil
  nextBalancer_le := Nat.le_of_eq hb.symm
  live p b h := .inl (by rwa [balancerOf_congr hw] at h)
  kept p _ := balancerOf_congr hw p
  subConns := hs
  nextSubConn := hc

theorem BuildsOnly.trans (h₁ : BuildsOnly g o g₁) (h₂ : BuildsOnly g₁ o' g₂) :
    BuildsOnly g (o ++ o') g₂ where
  outputs x hx := by
    rcases List.mem_append.mp hx with hx | hx
    · exact h₁.outputs x hx
    · exact h₂.outputs x hx
  nextBalancer_le := Nat.le_trans h₁.nextBalancer_le h₂.nextBalancer_le
  live p b h := by
    rcases h₂.live p b h with h | h
    · exact h₁.live p b h
    · exact .inr (Nat.le_trans h₁.nextBalancer_le h)
  kept p hp := by
    have h₁p := h₁.kept p hp
    rw [h₂.kept p (by rw [h₁p]; exact hp), h₁p]
  subConns := h₂.subConns.trans h₁.subConns
  nextSubConn := h₂.nextSubConn.trans h₁.nextSubConn

/-- Building is all such a part does: it removes, closes and forwards nothing. -/
theorem BuildsOnly.not_mem (h : BuildsOnly g o g') {x : output} (hx : x ∈ o)
    (hnot : ∀ b, x ≠ .build b) : False := by
  obtain ⟨b, rfl⟩ := h.outputs x hx
  exact hnot b rfl

theorem BuildsOnly.effects (hl : g.Layout) (h : BuildsOnly g o g') : Effects g o g' where
  nextBalancer_le := h.nextBalancer_le
  nextSubConn_le := Nat.le_of_eq h.nextSubConn.symm
  closed b hb := (h.not_mem hb fun _ => output.noConfusion).elim
  live := h.live
  kept sc p hm := by
    rw [h.subConns] at hm
    exact .inl ⟨hm, fun hr => h.not_mem hr fun _ => output.noConfusion,
      h.kept p (hl.ownerLive sc p hm)⟩
  created b sc hc := (h.not_mem hc fun _ => output.noConfusion).elim
  createdOnce b _ sc hc _ := (h.not_mem hc fun _ => output.noConfusion).elim
  removed sc hr := (h.not_mem hr fun _ => output.noConfusion).elim
  removedOnce sc := by
    rw [List.count_eq_zero.mpr fun hr => h.not_mem hr fun _ => output.noConfusion]
    exact Nat.zero_le 1
  forwarded b sc s hf := (h.not_mem hf fun _ => output.noConfusion).elim
  left sc p hm hk := by
    rw [h.subConns] at hk
    exact absurd (List.mem_map.mpr ⟨_, hm, rfl⟩) hk

/-- An event's effects followed by building keep to what one event may do. -/
theorem Effects.buildsOnly (hl₁ : g₁.Layout) (h₁ : Effects g o g₁) (h₂ : BuildsOnly g₁ o' g₂) :
    Effects g (o ++ o') g₂ where
  nextBalancer_le := Nat.le_trans h₁.nextBalancer_le h₂.nextBalancer_le
  nextSubConn_le := Nat.le_trans h₁.nextSubConn_le (Nat.le_of_eq h₂.nextSubConn.symm)
  closed b hb := by
    rcases List.mem_append.mp hb with hb | hb
    · obtain ⟨hlt, hgone⟩ := h₁.closed b hb
      refine ⟨Nat.lt_of_lt_of_le hlt h₂.nextBalancer_le, fun q hq => ?_⟩
      -- built after the building only if built before it, or new
      rcases h₂.live q b hq with hq | hq
      · exact hgone q hq
      · exact Nat.lt_irrefl _ (Nat.lt_of_lt_of_le hlt hq)
    · exact (h₂.not_mem hb fun _ => output.noConfusion).elim
  live p b h := by
    rcases h₂.live p b h with h | h
    · exact h₁.live p b h
    · exact .inr (Nat.le_trans h₁.nextBalancer_le h)
  kept sc p hm := by
    rw [h₂.subConns] at hm
    have hbal : g₂.balancerOf p = g₁.balancerOf p := h₂.kept p (hl₁.ownerLive sc p hm)
    rcases h₁.kept sc p hm with ⟨hm, hr, hb⟩ | ⟨hfresh, b, hp, hc⟩
    · refine .inl ⟨hm, ?_, hbal.trans hb⟩
      rw [List.mem_append, not_or]
      exact ⟨hr, fun hr => h₂.not_mem hr fun _ => output.noConfusion⟩
    · exact .inr ⟨hfresh, b, hbal.trans hp, List.mem_append_left _ hc⟩
  created b sc hc := by
    rcases List.mem_append.mp hc with hc | hc
    · obtain ⟨hle, hlt, hk⟩ := h₁.created b sc hc
      rw [h₂.subConns, h₂.nextSubConn]
      exact ⟨hle, hlt, hk⟩
    · exact (h₂.not_mem hc fun _ => output.noConfusion).elim
  createdOnce b b' sc hc hc' := by
    rcases List.mem_append.mp hc with hc | hc
    · rcases List.mem_append.mp hc' with hc' | hc'
      · exact h₁.createdOnce b b' sc hc hc'
      · exact (h₂.not_mem hc' fun _ => output.noConfusion).elim
    · exact (h₂.not_mem hc fun _ => output.noConfusion).elim
  removed sc hr := by
    rcases List.mem_append.mp hr with hr | hr
    · obtain ⟨p, b, hm, hp, hcl⟩ := h₁.removed sc hr
      exact ⟨p, b, hm, hp, List.mem_append_left _ hcl⟩
    · exact (h₂.not_mem hr fun _ => output.noConfusion).elim
  removedOnce sc := by
    rw [List.count_append, List.count_eq_zero.mpr fun hr => h₂.not_mem hr fun _ => output.noConfusion]
    exact h₁.removedOnce sc
  forwarded b sc s hf := by
    rcases List.mem_append.mp hf with hf | hf
    · exact h₁.forwarded b sc s hf
    · exact (h₂.not_mem hf fun _ => output.noConfusion).elim
  left sc p hm hk := by
    rw [h₂.subConns] at hk
    rcases h₁.left sc p hm hk with hr | ⟨b, hp, hs⟩
    · exact .inl (List.mem_append_left _ hr)
    · exact .inr ⟨b, hp, List.mem_append_left _ hs⟩

end BuildsOnly

/-! ## Starting and stopping balancers -/

section Start

variable {g : BalancerGroup} {p : Nat}

@[simp] theorem startBalancer_fst : (g.startBalancer p).1 = [.build g.nextBalancer] := rfl

theorem balancerOf_startBalancer (q : Nat) :
    (g.startBalancer p).2.balancerOf q = (g.setBalancer p (some g.nextBalancer)).balancerOf q := rfl

/-- Starting a wrapper with no balancer builds a new one and changes nothing else. -/
theorem startBalancer_buildsOnly (hp : g.balancerOf p = none) :
    BuildsOnly g (g.startBalancer p).1 (g.startBalancer p).2 where
  outputs x hx := ⟨g.nextBalancer, List.mem_singleton.mp hx⟩
  nextBalancer_le := Nat.le_succ _
  live q b hq := by
    rw [balancerOf_startBalancer] at hq
    by_cases hqp : q = p
    · subst hqp
      -- the new balancer, if the wrapper exists at all
      have hlt : q < g.wrappers.length := by
        simpa using lt_of_balancerOf_isSome (Option.isSome_of_eq_some hq)
      rw [balancerOf_setBalancer_self g q _ hlt] at hq
      cases hq
      exact .inr (Nat.le_refl _)
    · exact .inl (by rwa [balancerOf_setBalancer_ne g p _ hqp] at hq)
  kept q hq := by
    have hqp : q ≠ p := by
      rintro rfl
      rw [hp] at hq
      exact Bool.false_ne_true hq
    rw [balancerOf_startBalancer, balancerOf_setBalancer_ne g p _ hqp]
  subConns := rfl
  nextSubConn := rfl

/-- Starting keeps every built balancer numbered, and numbered once. -/
theorem startBalancer_numbered
    (hu : ∀ p q b, g.balancerOf p = some b → g.balancerOf q = some b → p = q)
    (hf : ∀ p b, g.balancerOf p = some b → b < g.nextBalancer) :
    (∀ p' q b, (g.startBalancer p).2.balancerOf p' = some b →
      (g.startBalancer p).2.balancerOf q = some b → p' = q) ∧
    (∀ p' b, (g.startBalancer p).2.balancerOf p' = some b → b < (g.startBalancer p).2.nextBalancer) := by
  -- after the start, a wrapper has the new balancer exactly when it is the one started
  have hcases : ∀ q b, (g.startBalancer p).2.balancerOf q = some b →
      (q = p ∧ b = g.nextBalancer) ∨ (q ≠ p ∧ g.balancerOf q = some b) := by
    intro q b hq
    rw [balancerOf_startBalancer] at hq
    by_cases hqp : q = p
    · subst hqp
      have hlt : q < g.wrappers.length := by
        simpa using lt_of_balancerOf_isSome (Option.isSome_of_eq_some hq)
      rw [balancerOf_setBalancer_self g q _ hlt] at hq
      exact .inl ⟨rfl, (Option.some.inj hq).symm⟩
    · exact .inr ⟨hqp, by rwa [balancerOf_setBalancer_ne g p _ hqp] at hq⟩
  refine ⟨fun p' q b hp' hq => ?_, fun p' b hp' => ?_⟩
  · rcases hcases p' b hp' with ⟨hp'p, hb⟩ | ⟨-, hp'⟩ <;>
      rcases hcases q b hq with ⟨hqp, hb'⟩ | ⟨-, hq⟩
    · exact hp'p.trans hqp.symm
    · -- `q` had `b` before the start, but `b` is the new number
      exact absurd (hf q b hq) (by rw [hb]; exact Nat.lt_irrefl _)
    · exact absurd (hf p' b hp') (by rw [hb']; exact Nat.lt_irrefl _)
    · exact hu p' q b hp' hq
  · show b < g.nextBalancer + 1
    rcases hcases p' b hp' with ⟨-, rfl⟩ | ⟨-, hp'⟩
    · exact Nat.lt_succ_self _
    · exact Nat.lt_succ_of_lt (hf p' b hp')

/-- Starting changes only the wrappers and the balancer counter. -/
theorem startBalancer_snd :
    (g.startBalancer p).2 =
      { g with wrappers := (g.startBalancer p).2.wrappers,
               nextBalancer := (g.startBalancer p).2.nextBalancer } := rfl

end Start

section StartLoop

open Machine

/-- Starting the wrappers of a list in turn changes only the wrappers and the counter. -/
theorem run_startBalancer_frame : ∀ (ps : List Nat) (g : BalancerGroup),
    (run startBalancer g ps).2 =
      { g with wrappers := (run startBalancer g ps).2.wrappers,
               nextBalancer := (run startBalancer g ps).2.nextBalancer } ∧
    (run startBalancer g ps).2.wrappers.length = g.wrappers.length
  | [], _ => ⟨rfl, rfl⟩
  | p :: ps, g => by
    obtain ⟨hframe, hlen⟩ := run_startBalancer_frame ps (g.startBalancer p).2
    rw [run_cons]
    refine ⟨?_, ?_⟩
    · rw [hframe]
      rfl
    · rw [hlen]
      exact length_setBalancer g p _

/-- A wrapper the loop does not start keeps its balancer. -/
theorem balancerOf_run_startBalancer_of_notMem : ∀ (ps : List Nat) (g : BalancerGroup) (q : Nat),
    q ∉ ps → (run startBalancer g ps).2.balancerOf q = g.balancerOf q
  | [], _, _, _ => rfl
  | p :: ps, g, q, hq => by
    rw [List.mem_cons, not_or] at hq
    rw [run_cons, balancerOf_run_startBalancer_of_notMem ps _ q hq.2, balancerOf_startBalancer,
      balancerOf_setBalancer_ne g p _ hq.1]

/-- Every wrapper of the list that exists has a balancer after the loop. -/
theorem isSome_balancerOf_run_startBalancer : ∀ (ps : List Nat) (g : BalancerGroup), ps.Nodup →
    ∀ p ∈ ps, p < g.wrappers.length → ((run startBalancer g ps).2.balancerOf p).isSome
  | [], _, _, _, hp, _ => absurd hp List.not_mem_nil
  | p :: ps, g, hnd, q, hq, hlt => by
    rw [List.nodup_cons] at hnd
    rw [run_cons]
    rcases List.mem_cons.mp hq with rfl | hq
    · -- started first, and left alone by the rest
      rw [balancerOf_run_startBalancer_of_notMem ps _ q hnd.1, balancerOf_startBalancer,
        balancerOf_setBalancer_self g q _ hlt]
      rfl
    · exact isSome_balancerOf_run_startBalancer ps _ hnd.2 q hq
        (by rw [show (g.startBalancer p).2.wrappers.length = g.wrappers.length from
          length_setBalancer g p _]; exact hlt)

theorem run_startBalancer_buildsOnly : ∀ (ps : List Nat) (g : BalancerGroup), ps.Nodup →
    (∀ p ∈ ps, g.balancerOf p = none) →
    BuildsOnly g (run startBalancer g ps).1 (run startBalancer g ps).2
  | [], g, _, _ => buildsOnly_quiet rfl rfl rfl rfl
  | p :: ps, g, hnd, hnone => by
    rw [List.nodup_cons] at hnd
    rw [run_cons]
    refine (startBalancer_buildsOnly (hnone p List.mem_cons_self)).trans
      (run_startBalancer_buildsOnly ps _ hnd.2 fun q hq => ?_)
    -- the rest of the wrappers are not the one just started
    have hqp : q ≠ p := fun h => hnd.1 (h ▸ hq)
    rw [balancerOf_startBalancer, balancerOf_setBalancer_ne g p _ hqp]
    exact hnone q (List.mem_cons_of_mem _ hq)

theorem run_startBalancer_numbered : ∀ (ps : List Nat) (g : BalancerGroup),
    (∀ p q b, g.balancerOf p = some b → g.balancerOf q = some b → p = q) →
    (∀ p b, g.balancerOf p = some b → b < g.nextBalancer) →
    (∀ p q b, (run startBalancer g ps).2.balancerOf p = some b →
      (run startBalancer g ps).2.balancerOf q = some b → p = q) ∧
    (∀ p b, (run startBalancer g ps).2.balancerOf p = some b →
      b < (run startBalancer g ps).2.nextBalancer)
  | [], _, hu, hf => ⟨hu, hf⟩
  | p :: ps, g, hu, hf => by
    obtain ⟨hu', hf'⟩ := startBalancer_numbered (p := p) hu hf
    rw [run_cons]
    exact run_startBalancer_numbered ps _ hu' hf'

end StartLoop

section StopLoop

open Machine

variable {g : BalancerGroup} {p : Nat}

@[simp] theorem stopBalancer_fst : (g.stopBalancer p).1 = (g.balancerOf p).toList.map output.close :=
  rfl

@[simp] theorem stopBalancer_snd : (g.stopBalancer p).2 = g.setBalancer p none := rfl

/-- Stopping the wrappers of a list with no wrapper twice closes the balancers they have, clears
them, and changes nothing else. -/
theorem run_stopBalancer : ∀ (ps : List Nat) (g : BalancerGroup), ps.Nodup →
    (run stopBalancer g ps).1 = (ps.filterMap g.balancerOf).map output.close ∧
    (∀ q, (run stopBalancer g ps).2.balancerOf q = if q ∈ ps then none else g.balancerOf q) ∧
    (run stopBalancer g ps).2 = { g with wrappers := (run stopBalancer g ps).2.wrappers } ∧
    (run stopBalancer g ps).2.wrappers.length = g.wrappers.length
  | [], g, _ => ⟨rfl, fun _ => by simp, rfl, rfl⟩
  | p :: ps, g, hnd => by
    rw [List.nodup_cons] at hnd
    obtain ⟨hout, hbal, hframe, hlen⟩ := run_stopBalancer ps (g.setBalancer p none) hnd.2
    -- the rest of the list reads the balancers `p`'s stop left alone
    have hrest : ps.filterMap (g.setBalancer p none).balancerOf = ps.filterMap g.balancerOf :=
      List.filterMap_congr fun q hq => balancerOf_setBalancer_ne g p none fun h => hnd.1 (h ▸ hq)
    rw [run_cons, stopBalancer_fst, stopBalancer_snd]
    refine ⟨?_, fun q => ?_, ?_, ?_⟩
    · rw [hout, hrest, List.filterMap_cons]
      cases g.balancerOf p <;> rfl
    · rw [hbal q, balancerOf_setBalancer_none]
      by_cases hq : q = p
      · subst hq
        simp [hnd.1]
      · simp [hq]
    · rw [hframe]
      rfl
    · rw [hlen]
      exact length_setBalancer g p none

/-- With no SubConns and the group started, a cache callback only stops its wrapper. -/
theorem removeCallback_of_nil (hm : g.scToSubBalancer = []) (ho : g.outgoingStarted = true) :
    g.removeCallback p = g.stopBalancer p := by
  simp [removeCallback, ho, cleanupSubConns, hm, stopBalancer, setBalancer]

theorem run_removeCallback_of_nil : ∀ (ps : List Nat) (g : BalancerGroup),
    g.scToSubBalancer = [] → g.outgoingStarted = true →
    run removeCallback g ps = run stopBalancer g ps
  | [], _, _, _ => rfl
  | p :: ps, g, hm, ho => by
    rw [run_cons, run_cons, removeCallback_of_nil hm ho,
      run_removeCallback_of_nil ps _ (by rw [stopBalancer_snd]; exact hm)
        (by rw [stopBalancer_snd]; exact ho)]

end StopLoop

/-! ## The SubConn events -/

section SubConnEvents

variable {g : BalancerGroup}

/-- A held wrapper is one of an id or one in the cache. -/
theorem mem_placed {q : Nat} :
    q ∈ g.placed ↔ (∃ id, (id, q) ∈ g.idToBalancerConfig) ∨ ∃ id, (id, q) ∈ g.balancerCache.cache := by
  simp [placed]

theorem newSubConn_spec (hl : g.Layout) {config : Nat} (hp : (g.balancerOf config).isSome)
    (ok : Bool) :
    (g.newSubConn config ok).2.Layout ∧
      Effects g (g.newSubConn config ok).1 (g.newSubConn config ok).2 := by
  unfold newSubConn
  by_cases hi : g.incomingStarted = true
  · by_cases hok : ok = true
    · obtain ⟨b, hb⟩ := Option.isSome_iff_exists.mp hp
      rw [if_neg (by rw [hi]; decide), if_neg (by rw [hok]; decide), hb]
      simp only [Option.toList_some, List.map_cons, List.map_nil]
      -- the SubConn is new: no key of the map is as large
      have hfresh : g.nextSubConn ∉ g.scToSubBalancer.map Prod.fst :=
        fun h => Nat.lt_irrefl _ (hl.subConnFresh _ h)
      have hmem := Map.mem_insert (k := g.nextSubConn) (v := config) hl.subConnKeys
      refine ⟨{ hl with
        stopped := fun h => absurd (hl.started.symm.trans hi) (by rw [h]; exact Bool.false_ne_true)
        subConnKeys := Map.nodup_keys_insert _ _ _ hl.subConnKeys
        ownerLive := fun sc q hq => by
          rcases (hmem (sc, q)).mp hq with h | ⟨h, -⟩
          · cases h
            exact hp
          · exact hl.ownerLive sc q h
        subConnFresh := fun sc hsc => by
          rcases Map.mem_keys_insert.mp hsc with rfl | h
          · exact Nat.lt_succ_self _
          · exact Nat.lt_succ_of_lt (hl.subConnFresh sc h) }, ?_⟩
      exact {
        nextBalancer_le := Nat.le_refl _
        nextSubConn_le := Nat.le_succ _
        closed := fun _ hc => by simp at hc
        live := fun _ _ h => .inl h
        kept := fun sc q hq => by
          rcases (hmem (sc, q)).mp hq with h | ⟨h, hne⟩
          · cases h
            exact .inr ⟨Nat.le_refl _, b, hb, List.mem_singleton_self _⟩
          · exact .inl ⟨h, by simp, rfl⟩
        created := fun b' sc hc => by
          simp only [List.mem_singleton, output.newSubConn.injEq] at hc
          obtain ⟨-, rfl⟩ := hc
          exact ⟨Nat.le_refl _, Nat.lt_succ_self _, Map.mem_keys_insert.mpr (.inl rfl)⟩
        createdOnce := fun _ _ _ hc hc' => by
          simp only [List.mem_singleton, output.newSubConn.injEq] at hc hc'
          rw [hc.1, hc'.1]
        removed := fun _ hr => by simp at hr
        removedOnce := fun _ => by simp
        forwarded := fun _ _ _ hf => by simp at hf
        left := fun sc q hq hk =>
          absurd (Map.mem_keys_insert.mpr (.inr (List.mem_map.mpr ⟨_, hq, rfl⟩))) hk }
    · rw [if_neg (by rw [hi]; decide), if_pos (by rw [Bool.eq_false_iff.mpr hok]; rfl)]
      exact ⟨hl, BuildsOnly.effects hl (buildsOnly_quiet rfl rfl rfl rfl)⟩
  · rw [if_pos (by rw [Bool.eq_false_iff.mpr hi]; rfl)]
    exact ⟨hl, BuildsOnly.effects hl (buildsOnly_quiet rfl rfl rfl rfl)⟩

/-- Dropping SubConns from the map keeps the layout. -/
theorem Layout.of_subConns (hl : g.Layout) {m : List (Nat × Nat)}
    (hsub : ∀ e ∈ m, e ∈ g.scToSubBalancer) (hnd : (m.map Prod.fst).Nodup) :
    ({ g with scToSubBalancer := m } : BalancerGroup).Layout :=
  { hl with
    stopped := fun h => by
      obtain ⟨hc, hs⟩ := hl.stopped h
      refine ⟨hc, List.eq_nil_iff_forall_not_mem.mpr fun e he => ?_⟩
      have := hsub e he
      rw [hs] at this
      exact List.not_mem_nil this
    subConnKeys := hnd
    ownerLive := fun sc q hq => hl.ownerLive sc q (hsub _ hq)
    subConnFresh := fun sc hsc => by
      obtain ⟨e, he, rfl⟩ := List.mem_map.mp hsc
      exact hl.subConnFresh _ (List.mem_map.mpr ⟨e, hsub e he, rfl⟩) }

theorem UpdateSubConnState_spec (hl : g.Layout) (sc : Nat) (state : connectivityState) :
    (g.UpdateSubConnState sc state).2.Layout ∧
      Effects g (g.UpdateSubConnState sc state).1 (g.UpdateSubConnState sc state).2 := by
  unfold UpdateSubConnState
  cases hlook : g.scToSubBalancer.lookup sc with
  | none => exact ⟨hl, BuildsOnly.effects hl (buildsOnly_quiet rfl rfl rfl rfl)⟩
  | some config =>
    dsimp only
    have hm : (sc, config) ∈ g.scToSubBalancer := Map.mem_of_lookup_eq_some hlook
    obtain ⟨b, hb⟩ := Option.isSome_iff_exists.mp (hl.ownerLive sc config hm)
    -- the SubConns after the event: those of the map, less `sc` on a shutdown
    obtain ⟨m, hmdef⟩ : ∃ m, m = if state = .Shutdown then Map.erase sc g.scToSubBalancer
        else g.scToSubBalancer := ⟨_, rfl⟩
    have hg' : (if state = .Shutdown then
        { g with scToSubBalancer := Map.erase sc g.scToSubBalancer } else g) =
        { g with scToSubBalancer := m } := by
      rw [hmdef]
      split <;> rfl
    have hsub : ∀ e ∈ m, e ∈ g.scToSubBalancer := fun e he => by
      rw [hmdef] at he
      split at he
      · exact Map.erase_subset _ _ _ he
      · exact he
    have hnd : (m.map Prod.fst).Nodup := by
      rw [hmdef]
      split
      · exact Map.nodup_keys_erase _ _ hl.subConnKeys
      · exact hl.subConnKeys
    have hgone : ∀ sc', sc' ∈ g.scToSubBalancer.map Prod.fst → sc' ∉ m.map Prod.fst →
        state = .Shutdown ∧ sc' = sc := fun sc' hin hk => by
      rw [hmdef] at hk
      split at hk
      · rename_i hs
        refine ⟨hs, ?_⟩
        by_contra hne
        exact hk ((Map.mem_keys_erase hl.subConnKeys).mpr ⟨hne, hin⟩)
      · exact absurd hin hk
    rw [hg']
    have hout : (({ g with scToSubBalancer := m } : BalancerGroup).balancerOf config).toList.map
        (output.updateSubConnState · sc state) = [.updateSubConnState b sc state] := by
      rw [show ({ g with scToSubBalancer := m } : BalancerGroup).balancerOf config =
        g.balancerOf config from rfl, hb]
      rfl
    rw [hout]
    refine ⟨hl.of_subConns hsub hnd, ?_⟩
    exact {
      nextBalancer_le := Nat.le_refl _
      nextSubConn_le := Nat.le_refl _
      closed := fun _ hc => by simp at hc
      live := fun _ _ h => .inl h
      kept := fun _ _ hq => .inl ⟨hsub _ hq, by simp, rfl⟩
      created := fun _ _ hc => by simp at hc
      createdOnce := fun _ _ _ hc => by simp at hc
      removed := fun _ hr => by simp at hr
      removedOnce := fun _ => by simp
      forwarded := fun b' sc' s hf => by
        simp only [List.mem_singleton, output.updateSubConnState.injEq] at hf
        obtain ⟨rfl, rfl, -⟩ := hf
        exact ⟨config, hm, hb⟩
      left := fun sc' q hq hk => by
        -- only a shutdown takes a SubConn out of the map, and only `sc`
        obtain ⟨hs, rfl⟩ := hgone sc' (List.mem_map.mpr ⟨_, hq, rfl⟩) hk
        have hq' : q = config := Map.eq_of_mem_of_mem hl.subConnKeys hq hm
        subst hq'
        exact .inr ⟨b, hb, by rw [hs]; exact List.mem_singleton_self _⟩ }

end SubConnEvents

/-! ## Removing an id, and a cache entry timing out -/

section Remove

variable {g : BalancerGroup}

theorem Remove_spec (hl : g.Layout) (id : String) :
    (g.Remove id).2.Layout ∧ Effects g (g.Remove id).1 (g.Remove id).2 := by
  unfold Remove
  cases hlook : g.idToBalancerConfig.lookup id with
  | none => exact ⟨hl, BuildsOnly.effects hl (buildsOnly_quiet rfl rfl rfl rfl)⟩
  | some p =>
    dsimp only
    refine ⟨?_, BuildsOnly.effects hl (buildsOnly_quiet rfl rfl rfl rfl)⟩
    have hperm := Map.perm_cons_erase hl.configKeys hlook
    have hid : id ∈ g.idToBalancerConfig.map Prod.fst :=
      Map.mem_keys_iff_isSome_lookup.mpr (by rw [hlook]; rfl)
    have hidc : id ∉ g.balancerCache.cache.map Prod.fst := hl.keysDisjoint id hid
    -- the ids left, and where `p` was
    have hkeys : ∀ id', id' ∈ (Map.erase id g.idToBalancerConfig).map Prod.fst →
        id' ≠ id ∧ id' ∈ g.idToBalancerConfig.map Prod.fst := fun id' h =>
      (Map.mem_keys_erase hl.configKeys).mp h
    have hvals := hperm.map Prod.snd
    rw [List.map_cons] at hvals
    by_cases ho : g.outgoingStarted = true
    · -- the wrapper moves to the end of the cache
      have hlc : g.balancerCache.cache.lookup id = none := by
        rw [← Option.not_isSome_iff_eq_none, ← Map.mem_keys_iff_isSome_lookup]
        exact hidc
      have hcache : (g.balancerCache.Add id p).2 = ⟨g.balancerCache.cache ++ [(id, p)]⟩ := by
        simp [TimeoutCache.Add, hlc, Map.insert_of_notMem p hidc]
      rw [if_pos ho, hcache]
      have hplaced : (g.idToBalancerConfig.map Prod.snd ++ g.balancerCache.cache.map Prod.snd).Perm
          ((Map.erase id g.idToBalancerConfig).map Prod.snd ++
            (g.balancerCache.cache ++ [(id, p)]).map Prod.snd) := by
        rw [List.map_append, List.map_singleton, ← List.append_assoc]
        exact (hvals.append_right _).trans (List.perm_append_singleton _ _).symm
      exact { hl with
        stopped := fun h => absurd ho (by rw [h]; exact Bool.false_ne_true)
        configLive := fun id' q hq => hl.configLive id' q (Map.erase_subset _ _ _ hq)
        cacheLive := fun id' q hq => by
          rcases List.mem_append.mp hq with hq | hq
          · exact hl.cacheLive id' q hq
          · rw [List.mem_singleton] at hq
            cases hq
            exact (hl.configLive id p (Map.mem_of_lookup_eq_some hlook)).trans ho
        livePlaced := fun q hq => hplaced.subset (hl.livePlaced q hq)
        placedNodup := hplaced.nodup_iff.mp hl.placedNodup
        placedBound := fun q hq => hl.placedBound q (hplaced.symm.subset hq)
        configKeys := Map.nodup_keys_erase _ _ hl.configKeys
        cacheKeys := by
          rw [List.map_append, List.map_singleton]
          exact List.nodup_append.mpr ⟨hl.cacheKeys, List.nodup_singleton _,
            fun a ha b hb => by rw [List.mem_singleton] at hb; subst hb; exact fun h => hidc (h ▸ ha)⟩
        keysDisjoint := fun id' h => by
          obtain ⟨hne, hmem⟩ := hkeys id' h
          rw [List.map_append, List.map_singleton, List.mem_append, not_or, List.mem_singleton]
          exact ⟨hl.keysDisjoint id' hmem, hne⟩ }
    · -- a group that is not started only forgets the id; its wrapper has no balancer
      rw [if_neg ho]
      have hof : g.outgoingStarted = false := Bool.eq_false_iff.mpr ho
      have hcache := (hl.stopped hof).1
      have hpnot : (g.balancerOf p).isSome = false := by
        rw [hl.configLive id p (Map.mem_of_lookup_eq_some hlook), hof]
      exact { hl with
        configLive := fun id' q hq => hl.configLive id' q (Map.erase_subset _ _ _ hq)
        cacheLive := fun id' q hq => hl.cacheLive id' q hq
        livePlaced := fun q hq => by
          change (g.balancerOf q).isSome = true at hq
          have hq' := hl.livePlaced q hq
          have hqp : q ≠ p := by rintro rfl; rw [hpnot] at hq; exact Bool.false_ne_true hq
          simp only [placed, hcache, List.map_nil, List.append_nil] at hq' ⊢
          rcases List.mem_cons.mp (hvals.subset hq') with h | h
          · exact absurd h hqp
          · exact h
        placedNodup := by
          have hnd := hl.placedNodup
          simp only [placed, hcache, List.map_nil, List.append_nil] at hnd ⊢
          exact (List.nodup_cons.mp (hvals.nodup_iff.mp hnd)).2
        placedBound := fun q hq => hl.placedBound q (by
          simp only [placed, hcache, List.map_nil, List.append_nil] at hq ⊢
          exact hvals.symm.subset (List.mem_cons_of_mem _ hq))
        configKeys := Map.nodup_keys_erase _ _ hl.configKeys
        keysDisjoint := fun id' h => hl.keysDisjoint id' (hkeys id' h).2 }

/-- The state once the cache entry of `id`, of wrapper `p`, is gone, `p`'s balancer is closed
and its SubConns are removed. -/
def retired (g : BalancerGroup) (id : String) (p : Nat) : BalancerGroup :=
  { g.setBalancer p none with
    balancerCache := ⟨Map.erase id g.balancerCache.cache⟩
    scToSubBalancer := g.scToSubBalancer.filter (·.2 ≠ p) }

/-- Closing the balancer of a wrapper taken out of the cache, then removing its SubConns. -/
theorem stopBalancer_cleanupSubConns {id : String} {p b : Nat} (hb : g.balancerOf p = some b) :
    let g₀ : BalancerGroup := { g with balancerCache := ⟨Map.erase id g.balancerCache.cache⟩ }
    ((g₀.stopBalancer p).1 ++ ((g₀.stopBalancer p).2.cleanupSubConns p).1,
      ((g₀.stopBalancer p).2.cleanupSubConns p).2) =
      (.close b :: (g.scToSubBalancer.filter (·.2 = p)).map (fun e => .removeSubConn e.1),
        g.retired id p) := by
  have hb' : ({ g with balancerCache := ⟨Map.erase id g.balancerCache.cache⟩ } : BalancerGroup).balancerOf p
      = some b := hb
  simp only [stopBalancer, hb', Option.toList_some, List.map_cons, List.map_nil, cleanupSubConns,
    List.cons_append, List.nil_append]
  rfl

/-- The callback of a cache entry the group took out, when it is started: it closes the
wrapper's balancer and removes its SubConns. -/
theorem removeCallback_erase (ho : g.outgoingStarted = true) {id : String} {p b : Nat}
    (hb : g.balancerOf p = some b) :
    ({ g with balancerCache := ⟨Map.erase id g.balancerCache.cache⟩ } : BalancerGroup).removeCallback p =
      (.close b :: (g.scToSubBalancer.filter (·.2 = p)).map (fun e => .removeSubConn e.1),
        g.retired id p) := by
  unfold removeCallback
  rw [if_pos (show ({ g with balancerCache := ⟨Map.erase id g.balancerCache.cache⟩ } :
    BalancerGroup).outgoingStarted = true from ho)]
  exact stopBalancer_cleanupSubConns hb

theorem balancerOf_retired (id : String) (p q : Nat) :
    (g.retired id p).balancerOf q = if q = p then none else g.balancerOf q :=
  balancerOf_setBalancer_none g p q

variable {id : String} {p : Nat}

/-- Retiring a wrapper of the cache keeps the layout. -/
theorem retired_layout (hl : g.Layout) (hp : g.balancerCache.cache.lookup id = some p) :
    (g.retired id p).Layout := by
  have hperm := Map.perm_cons_erase hl.cacheKeys hp
  have hvals := hperm.map Prod.snd
  rw [List.map_cons] at hvals
  have hnd := hl.placedNodup
  unfold placed at hnd
  rw [(hvals.append_left _).nodup_iff, List.nodup_append] at hnd
  obtain ⟨-, hcnd, hdisj⟩ := hnd
  -- `p` is held once: in the cache, under `id`
  have hpE : p ∉ (Map.erase id g.balancerCache.cache).map Prod.snd := (List.nodup_cons.mp hcnd).1
  have hpI : p ∉ g.idToBalancerConfig.map Prod.snd := fun h => hdisj _ h _ List.mem_cons_self rfl
  have ho : g.outgoingStarted = true := by
    by_contra ho
    rw [(hl.stopped (Bool.eq_false_iff.mpr ho)).1] at hp
    simp at hp
  have hne : ∀ q, (g.retired id p).balancerOf q ≠ none → q ≠ p := fun q h hq => by
    rw [balancerOf_retired, if_pos hq] at h
    exact h rfl
  have hsubset : ∀ q ∈ (g.retired id p).placed, q ∈ g.placed := fun q hq => by
    unfold placed at hq ⊢
    rcases List.mem_append.mp hq with hq | hq
    · exact List.mem_append_left _ hq
    · exact List.mem_append_right _ (hvals.symm.subset (List.mem_cons_of_mem _ hq))
  exact {
    started := hl.started
    stopped := fun h => by
      rw [show (g.retired id p).outgoingStarted = g.outgoingStarted from rfl, ho] at h
      cases h
    configLive := fun id' q hq => by
      have hqp : q ≠ p := fun h => hpI (h ▸ List.mem_map.mpr ⟨_, hq, rfl⟩)
      rw [balancerOf_retired, if_neg hqp]
      exact hl.configLive id' q hq
    cacheLive := fun id' q hq => by
      have hqp : q ≠ p := fun h => hpE (h ▸ List.mem_map.mpr ⟨_, hq, rfl⟩)
      rw [balancerOf_retired, if_neg hqp]
      exact hl.cacheLive id' q (Map.erase_subset _ _ _ hq)
    livePlaced := fun q hq => by
      have hqp := hne q (Option.ne_none_iff_isSome.mpr hq)
      rw [balancerOf_retired, if_neg hqp] at hq
      have hq' := hl.livePlaced q hq
      unfold placed at hq' ⊢
      rcases List.mem_append.mp hq' with h | h
      · exact List.mem_append_left _ h
      · rcases List.mem_cons.mp (hvals.subset h) with h | h
        · exact absurd h hqp
        · exact List.mem_append_right _ h
    placedNodup := by
      have h := hl.placedNodup
      unfold placed at h ⊢
      exact ((hvals.append_left _).nodup_iff.mp h).sublist
        (List.Sublist.append_left (List.sublist_cons_self _ _) _)
    placedBound := fun q hq => by
      rw [show (g.retired id p).wrappers.length = g.wrappers.length from length_setBalancer g p none]
      exact hl.placedBound q (hsubset q hq)
    configKeys := hl.configKeys
    cacheKeys := Map.nodup_keys_erase _ _ hl.cacheKeys
    keysDisjoint := fun id' h h' =>
      hl.keysDisjoint id' h ((List.map_subset _ (Map.erase_subset _ _)) h')
    subConnKeys := (List.filter_sublist.map Prod.fst).nodup hl.subConnKeys
    ownerLive := fun sc q hq => by
      obtain ⟨hq, hqp⟩ := List.mem_filter.mp hq
      rw [balancerOf_retired, if_neg (of_decide_eq_true hqp)]
      exact hl.ownerLive sc q hq
    subConnFresh := fun sc hsc => hl.subConnFresh sc
      ((List.map_subset _ List.filter_sublist.subset) hsc)
    liveUnique := fun q q' b h h' => by
      rw [balancerOf_retired] at h h'
      split at h
      · cases h
      · split at h'
        · cases h'
        · exact hl.liveUnique q q' b h h'
    liveFresh := fun q b h => by
      rw [balancerOf_retired] at h
      split at h
      · cases h
      · exact hl.liveFresh q b h }

/-- Retiring a wrapper of the cache closes its balancer and removes exactly its SubConns. -/
theorem retired_effects (hl : g.Layout) {b : Nat} (hb : g.balancerOf p = some b) :
    Effects g (.close b :: (g.scToSubBalancer.filter (·.2 = p)).map (fun e => .removeSubConn e.1))
      (g.retired id p) where
  nextBalancer_le := Nat.le_refl _
  nextSubConn_le := Nat.le_refl _
  closed b' hc := by
    simp only [List.mem_cons, output.close.injEq, List.mem_map, reduceCtorEq, and_false,
      exists_false, or_false] at hc
    rw [hc]
    refine ⟨hl.liveFresh p b hb, fun q hq => ?_⟩
    rw [balancerOf_retired] at hq
    split at hq
    · cases hq
    · rename_i hqp
      exact hqp (hl.liveUnique q p b hq hb)
  live q b' h := by
    rw [balancerOf_retired] at h
    split at h
    · cases h
    · exact .inl h
  kept sc q hq := by
    obtain ⟨hq, hqp⟩ := List.mem_filter.mp hq
    have hqp : q ≠ p := of_decide_eq_true hqp
    refine .inl ⟨hq, ?_, by rw [balancerOf_retired, if_neg hqp]⟩
    -- a SubConn removed is `p`'s, and the map gives it one wrapper
    rw [List.mem_cons, not_or]
    refine ⟨by simp, fun hr => ?_⟩
    obtain ⟨p', hp'⟩ := removeSubConn_mem_map.mp hr
    obtain ⟨hp', hp'p⟩ := List.mem_filter.mp hp'
    exact hqp ((Map.eq_of_mem_of_mem hl.subConnKeys hq hp').trans (of_decide_eq_true hp'p))
  created _ _ hc := by simp at hc
  createdOnce _ _ _ hc := by simp at hc
  removed sc hr := by
    simp only [List.mem_cons, reduceCtorEq, false_or, removeSubConn_mem_map, List.mem_filter,
      decide_eq_true_eq] at hr
    obtain ⟨q, hq, hqp⟩ := hr
    exact ⟨p, b, hqp ▸ hq, hb, List.mem_cons_self⟩
  removedOnce sc := by
    rw [List.count_cons]
    simp only [beq_iff_eq, reduceCtorEq, if_false, Nat.add_zero]
    exact count_removeSubConn_map ((List.filter_sublist.map Prod.fst).nodup hl.subConnKeys) sc
  forwarded _ _ _ hf := by simp at hf
  left sc q hq hk := by
    -- a SubConn of another wrapper stays in the map
    have hqp : q = p := by
      by_contra hqp
      exact hk (List.mem_map.mpr ⟨(sc, q), List.mem_filter.mpr ⟨hq, decide_eq_true hqp⟩, rfl⟩)
    subst hqp
    refine .inl (List.mem_cons_of_mem _ ?_)
    exact removeSubConn_mem_map.mpr ⟨q, List.mem_filter.mpr ⟨hq, decide_eq_true rfl⟩⟩

theorem timerFired_spec (hl : g.Layout) (hid : id ∈ g.balancerCache.cache.map Prod.fst) :
    (g.timerFired id).2.Layout ∧ Effects g (g.timerFired id).1 (g.timerFired id).2 := by
  obtain ⟨p, hp⟩ := Option.isSome_iff_exists.mp (Map.mem_keys_iff_isSome_lookup.mp hid)
  obtain ⟨b, hb⟩ := Option.isSome_iff_exists.mp (hl.cacheLive id p (Map.mem_of_lookup_eq_some hp))
  -- a group with a cache entry is started
  have ho : g.outgoingStarted = true := by
    by_contra ho
    rw [(hl.stopped (Bool.eq_false_iff.mpr ho)).1] at hp
    simp at hp
  have hfired : g.timerFired id = (.close b :: (g.scToSubBalancer.filter (·.2 = p)).map
      (fun e => .removeSubConn e.1), g.retired id p) := by
    rw [← removeCallback_erase ho hb]
    simp [timerFired, TimeoutCache.Remove, hp]
  rw [hfired]
  exact ⟨retired_layout hl hp, retired_effects hl hb⟩

end Remove

/-! ## Adding an id -/

section Add

variable {g : BalancerGroup}

/-- A wrapper added last, with no balancer, builds nothing. -/
theorem buildsOnly_append {w : subBalancerWrapper} (hw : w.balancer = none) :
    BuildsOnly g [] { g with wrappers := g.wrappers ++ [w] } where
  outputs _ h := absurd h List.not_mem_nil
  nextBalancer_le := Nat.le_refl _
  live q b h := by
    rw [balancerOf_append] at h
    split at h
    · rw [hw] at h
      cases h
    · exact .inl h
  kept q hq := by
    have hq' : q ≠ g.wrappers.length := fun h => Nat.lt_irrefl _ (h ▸ lt_of_balancerOf_isSome hq)
    rw [balancerOf_append, if_neg hq']
  subConns := rfl
  nextSubConn := rfl

/-- The layout after a new wrapper, for an id the group holds nowhere, becomes the id's: its
balancer is built exactly when the group is started, and numbered anew. -/
theorem Layout.addWrapper (hl : g.Layout) {id : String}
    (hid : id ∉ g.idToBalancerConfig.map Prod.fst) (hidc : id ∉ g.balancerCache.cache.map Prod.fst)
    {g' : BalancerGroup} (ho : g'.outgoingStarted = g.outgoingStarted)
    (hi : g'.incomingStarted = g.incomingStarted)
    (hids : g'.idToBalancerConfig = g.idToBalancerConfig ++ [(id, g.wrappers.length)])
    (hc : g'.balancerCache = g.balancerCache) (hs : g'.scToSubBalancer = g.scToSubBalancer)
    (hsc : g'.nextSubConn = g.nextSubConn) (hlen : g'.wrappers.length = g.wrappers.length + 1)
    (hold : ∀ q, q ≠ g.wrappers.length → g'.balancerOf q = g.balancerOf q)
    (hnew : (g'.balancerOf g.wrappers.length).isSome = g.outgoingStarted)
    (hnum : ∀ b, g'.balancerOf g.wrappers.length = some b → g.nextBalancer ≤ b ∧ b < g'.nextBalancer)
    (hnext : g.nextBalancer ≤ g'.nextBalancer) : g'.Layout := by
  -- the old wrappers are below the new one, which had no balancer
  have hnot : ∀ p, (g.balancerOf p).isSome → p ≠ g.wrappers.length := fun p hp h =>
    Nat.lt_irrefl _ (h ▸ lt_of_balancerOf_isSome hp)
  have hplaced : g'.placed = g.idToBalancerConfig.map Prod.snd ++ g.wrappers.length ::
      g.balancerCache.cache.map Prod.snd := by
    simp [placed, hids, hc]
  have hfresh : g.wrappers.length ∉ g.placed := fun h => Nat.lt_irrefl _ (hl.placedBound _ h)
  have hmem : ∀ q, q ∈ g'.placed ↔ q = g.wrappers.length ∨ q ∈ g.placed := fun q => by
    rw [hplaced]
    simp only [placed, List.mem_append, List.mem_cons]
    tauto
  exact {
    started := by rw [ho, hi]; exact hl.started
    stopped := fun h => by
      rw [ho] at h
      rw [hc, hs]
      exact hl.stopped h
    configLive := fun id' q hq => by
      rw [hids, List.mem_append, List.mem_singleton] at hq
      rw [ho]
      rcases hq with hq | hq
      · have hq' := hl.configLive id' q hq
        have hqn : q ≠ g.wrappers.length := fun h =>
          hfresh (h ▸ List.mem_append_left _ (List.mem_map.mpr ⟨_, hq, rfl⟩))
        rw [hold q hqn]
        exact hq'
      · cases hq
        exact hnew
    cacheLive := fun id' q hq => by
      rw [hc] at hq
      have hqn : q ≠ g.wrappers.length := fun h =>
        hfresh (h ▸ List.mem_append_right _ (List.mem_map.mpr ⟨_, hq, rfl⟩))
      rw [hold q hqn]
      exact hl.cacheLive id' q hq
    livePlaced := fun q hq => by
      rw [hmem]
      by_cases hqn : q = g.wrappers.length
      · exact .inl hqn
      · rw [hold q hqn] at hq
        exact .inr (hl.livePlaced q hq)
    placedNodup := by
      rw [hplaced]
      have h := hl.placedNodup
      unfold placed at h
      exact List.nodup_middle.mpr (List.nodup_cons.mpr ⟨hfresh, h⟩)
    placedBound := fun q hq => by
      rw [hlen]
      rcases (hmem q).mp hq with rfl | hq
      · exact Nat.lt_succ_self _
      · exact Nat.lt_succ_of_lt (hl.placedBound q hq)
    configKeys := by
      rw [hids, List.map_append, List.map_singleton]
      exact List.nodup_append.mpr ⟨hl.configKeys, List.nodup_singleton _,
        fun a ha b hb => by rw [List.mem_singleton] at hb; subst hb; exact fun h => hid (h ▸ ha)⟩
    cacheKeys := by rw [hc]; exact hl.cacheKeys
    keysDisjoint := fun id' h => by
      rw [hids, List.map_append, List.map_singleton, List.mem_append, List.mem_singleton] at h
      rw [hc]
      rcases h with h | rfl
      · exact hl.keysDisjoint id' h
      · exact hidc
    subConnKeys := by rw [hs]; exact hl.subConnKeys
    ownerLive := fun sc q hq => by
      rw [hs] at hq
      have hq' := hl.ownerLive sc q hq
      rw [hold q (hnot q hq')]
      exact hq'
    subConnFresh := fun sc h => by
      rw [hsc]
      rw [hs] at h
      exact hl.subConnFresh sc h
    liveUnique := fun q q' b h h' => by
      -- the new wrapper's number is one no old wrapper has
      by_cases hq : q = g.wrappers.length <;> by_cases hq' : q' = g.wrappers.length
      · rw [hq, hq']
      · rw [hq] at h
        rw [hold q' hq'] at h'
        exact absurd (hl.liveFresh q' b h') (Nat.not_lt_of_le (hnum b h).1)
      · rw [hq'] at h'
        rw [hold q hq] at h
        exact absurd (hl.liveFresh q b h) (Nat.not_lt_of_le (hnum b h').1)
      · rw [hold q hq] at h
        rw [hold q' hq'] at h'
        exact hl.liveUnique q q' b h h'
    liveFresh := fun q b h => by
      by_cases hq : q = g.wrappers.length
      · rw [hq] at h
        exact (hnum b h).2
      · rw [hold q hq] at h
        exact Nat.lt_of_lt_of_le (hl.liveFresh q b h) hnext }

/-- A new wrapper for an id the group holds nowhere keeps the layout and only builds. -/
theorem newWrapper_spec (hl : g.Layout) {id : String} (builder : String)
    (hid : id ∉ g.idToBalancerConfig.map Prod.fst) (hidc : id ∉ g.balancerCache.cache.map Prod.fst) :
    let r := g.newWrapper id builder
    let g' : BalancerGroup :=
      { r.2.2 with idToBalancerConfig := Map.insert id r.1 r.2.2.idToBalancerConfig }
    g'.Layout ∧ BuildsOnly g r.2.1 g' := by
  dsimp only
  -- the wrapper appended, with no balancer yet
  set w : subBalancerWrapper := ⟨id, builder, none⟩ with hw
  set g₁ : BalancerGroup := { g with wrappers := g.wrappers ++ [w] } with hg₁
  have happ : BuildsOnly g [] g₁ := buildsOnly_append rfl
  have hbal₁ : ∀ q, g₁.balancerOf q = if q = g.wrappers.length then none else g.balancerOf q :=
    balancerOf_append g w
  have hlen₁ : g.wrappers.length < g₁.wrappers.length := by simp [hg₁]
  have hids := Map.insert_of_notMem g.wrappers.length hid
  by_cases ho : g.outgoingStarted = true
  · have hr : g.newWrapper id builder = (g.wrappers.length, g₁.startBalancer g.wrappers.length) := by
      dsimp only [newWrapper]
      rw [if_pos ho]
    rw [hr]
    have hnone : g₁.balancerOf g.wrappers.length = none := by rw [hbal₁, if_pos rfl]
    have hstart := startBalancer_buildsOnly hnone
    refine ⟨hl.addWrapper hid hidc rfl rfl hids rfl rfl rfl (by simp [hg₁, startBalancer])
      (fun q hq => ?_) ?_ (fun b hb => ?_) (Nat.le_succ _),
      (happ.trans hstart).trans (buildsOnly_quiet rfl rfl rfl rfl)⟩
    · -- the started wrapper's balancer, read through the id's assignment
      show (g₁.setBalancer g.wrappers.length (some g.nextBalancer)).balancerOf q = g.balancerOf q
      rw [balancerOf_setBalancer_ne _ _ _ hq, hbal₁, if_neg hq]
    · show ((g₁.setBalancer g.wrappers.length (some g.nextBalancer)).balancerOf
        g.wrappers.length).isSome = g.outgoingStarted
      rw [ho, balancerOf_setBalancer_self _ _ _ hlen₁]
      rfl
    · change (g₁.setBalancer g.wrappers.length (some g.nextBalancer)).balancerOf
        g.wrappers.length = some b at hb
      rw [balancerOf_setBalancer_self _ _ _ hlen₁] at hb
      cases hb
      exact ⟨Nat.le_refl _, Nat.lt_succ_self _⟩
  · have hr : g.newWrapper id builder = (g.wrappers.length, ([], g₁)) := by
      dsimp only [newWrapper]
      rw [if_neg ho]
    rw [hr]
    refine ⟨hl.addWrapper hid hidc rfl rfl hids rfl rfl rfl (by simp [hg₁]) (fun q hq => ?_) ?_
      (fun b hb => ?_) (Nat.le_refl _), happ.trans (buildsOnly_quiet rfl rfl rfl rfl)⟩
    · show g₁.balancerOf q = g.balancerOf q
      rw [hbal₁, if_neg hq]
    · show (g₁.balancerOf g.wrappers.length).isSome = g.outgoingStarted
      rw [hbal₁, if_pos rfl, Bool.eq_false_iff.mpr ho]
      rfl
    · change g₁.balancerOf g.wrappers.length = some b at hb
      rw [hbal₁, if_pos rfl] at hb
      cases hb

/-- What the cache half of `Add` finds: nothing for the id; a wrapper of another builder, which
it retires; or a wrapper of the same builder, taken out of the cache. -/
theorem reuseCached_cases (hl : g.Layout) (id builder : String) :
    (g.reuseCached id builder = (none, [], g) ∧ id ∉ g.balancerCache.cache.map Prod.fst) ∨
    (∃ p b, g.balancerCache.cache.lookup id = some p ∧ g.balancerOf p = some b ∧
      g.reuseCached id builder = (none, .close b :: (g.scToSubBalancer.filter (·.2 = p)).map
        (fun e => .removeSubConn e.1), g.retired id p)) ∨
    (∃ p, g.balancerCache.cache.lookup id = some p ∧ g.outgoingStarted = true ∧
      g.reuseCached id builder =
        (some p, [], { g with balancerCache := ⟨Map.erase id g.balancerCache.cache⟩ })) := by
  unfold reuseCached
  by_cases ho : g.outgoingStarted = true
  · rw [if_pos ho]
    cases hlook : g.balancerCache.cache.lookup id with
    | none =>
      refine .inl ⟨by simp [TimeoutCache.Remove, hlook], ?_⟩
      rw [Map.mem_keys_iff_isSome_lookup, hlook]
      exact Bool.false_ne_true
    | some p =>
      have hrem : g.balancerCache.Remove id = (some p, ⟨Map.erase id g.balancerCache.cache⟩) := by
        simp [TimeoutCache.Remove, hlook]
      rw [hrem]
      dsimp only
      by_cases hb : g.builderOf p ≠ some builder
      · rw [if_pos (show ({ g with balancerCache := ⟨Map.erase id g.balancerCache.cache⟩ } :
          BalancerGroup).builderOf p ≠ some builder from hb)]
        obtain ⟨b, hbal⟩ := Option.isSome_iff_exists.mp
          (hl.cacheLive id p (Map.mem_of_lookup_eq_some hlook))
        refine .inr (.inl ⟨p, b, rfl, hbal, ?_⟩)
        have hcore : _ = (_, g.retired id p) := stopBalancer_cleanupSubConns hbal
        rw [← hcore]
      · rw [if_neg (show ¬({ g with balancerCache := ⟨Map.erase id g.balancerCache.cache⟩ } :
          BalancerGroup).builderOf p ≠ some builder from hb)]
        exact .inr (.inr ⟨p, rfl, ho, rfl⟩)
  · rw [if_neg ho]
    refine .inl ⟨rfl, ?_⟩
    rw [(hl.stopped (Bool.eq_false_iff.mpr ho)).1]
    exact List.not_mem_nil

/-- A wrapper of the same builder taken back from the cache keeps the layout. -/
theorem Layout.reuse (hl : g.Layout) {id : String} {p : Nat}
    (hp : g.balancerCache.cache.lookup id = some p) (ho : g.outgoingStarted = true)
    (hnew : id ∉ g.idToBalancerConfig.map Prod.fst) :
    ({ g with balancerCache := ⟨Map.erase id g.balancerCache.cache⟩,
               idToBalancerConfig := g.idToBalancerConfig ++ [(id, p)] } : BalancerGroup).Layout := by
  have hvals := (Map.perm_cons_erase hl.cacheKeys hp).map Prod.snd
  rw [List.map_cons] at hvals
  -- the wrapper moves from the cache to the end of the ids
  have hplaced : (g.idToBalancerConfig.map Prod.snd ++ g.balancerCache.cache.map Prod.snd).Perm
      ((g.idToBalancerConfig ++ [(id, p)]).map Prod.snd ++
        (Map.erase id g.balancerCache.cache).map Prod.snd) := by
    rw [List.map_append, List.map_singleton, List.append_assoc, List.singleton_append]
    exact hvals.append_left _
  have hgone : id ∉ (Map.erase id g.balancerCache.cache).map Prod.fst := fun h =>
    ((Map.mem_keys_erase hl.cacheKeys).mp h).1 rfl
  exact { hl with
    stopped := fun h => absurd ho (by rw [show g.outgoingStarted = false from h]; decide)
    configLive := fun id' q hq => by
      rcases List.mem_append.mp hq with hq | hq
      · exact hl.configLive id' q hq
      · rw [List.mem_singleton] at hq
        cases hq
        exact (hl.cacheLive id p (Map.mem_of_lookup_eq_some hp)).trans ho.symm
    cacheLive := fun id' q hq => hl.cacheLive id' q (Map.erase_subset _ _ _ hq)
    livePlaced := fun q hq => hplaced.subset (hl.livePlaced q hq)
    placedNodup := hplaced.nodup_iff.mp hl.placedNodup
    placedBound := fun q hq => hl.placedBound q (hplaced.symm.subset hq)
    configKeys := by
      rw [List.map_append, List.map_singleton]
      exact List.nodup_append.mpr ⟨hl.configKeys, List.nodup_singleton _,
        fun a ha b hb => by rw [List.mem_singleton] at hb; subst hb; exact fun h => hnew (h ▸ ha)⟩
    cacheKeys := Map.nodup_keys_erase _ _ hl.cacheKeys
    keysDisjoint := fun id' h => by
      rw [List.map_append, List.map_singleton, List.mem_append, List.mem_singleton] at h
      rcases h with h | rfl
      · exact fun h' => hl.keysDisjoint id' h ((List.map_subset _ (Map.erase_subset _ _)) h')
      · exact hgone }

/-- `Add` of an id the group does not hold keeps the layout, and does what one event may. -/
theorem Add_spec (hl : g.Layout) {id : String} (builder : String)
    (hnew : id ∉ g.idToBalancerConfig.map Prod.fst) :
    (g.Add id builder).2.Layout ∧ Effects g (g.Add id builder).1 (g.Add id builder).2 := by
  unfold Add
  dsimp only
  rcases reuseCached_cases hl id builder with ⟨hfound, hidc⟩ | ⟨p, b, hp, hb, hfound⟩ |
      ⟨p, hp, ho, hfound⟩
  · -- nothing cached for the id: a new wrapper
    rw [hfound]
    obtain ⟨hl', hbuilds⟩ := newWrapper_spec hl builder hnew hidc
    exact ⟨hl', hbuilds.effects hl⟩
  · -- a wrapper of another builder: retired, then a new wrapper
    rw [hfound]
    have hlr := retired_layout hl hp
    have hgone : id ∉ (g.retired id p).balancerCache.cache.map Prod.fst := fun h =>
      ((Map.mem_keys_erase hl.cacheKeys).mp h).1 rfl
    obtain ⟨hl', hbuilds⟩ := newWrapper_spec hlr builder hnew hgone
    exact ⟨hl', (retired_effects hl hb).buildsOnly hlr hbuilds⟩
  · -- a wrapper of the same builder: it becomes the id's again
    rw [hfound]
    dsimp only
    rw [Map.insert_of_notMem p hnew]
    exact ⟨hl.reuse hp ho hnew, BuildsOnly.effects hl (buildsOnly_quiet rfl rfl rfl rfl)⟩

end Add

/-! ## Starting and closing the group -/

section StartClose

variable {g : BalancerGroup}

/-- In a group that is not started, no balancer is built. -/
theorem balancerOf_of_stopped (hl : g.Layout) (hof : g.outgoingStarted = false) (q : Nat) :
    g.balancerOf q = none := by
  by_contra hq
  have hq' := Option.ne_none_iff_isSome.mp hq
  have hpl := hl.livePlaced q hq'
  simp only [mem_placed, (hl.stopped hof).1, List.not_mem_nil, exists_false, or_false] at hpl
  obtain ⟨id, hid⟩ := hpl
  rw [hl.configLive id q hid, hof] at hq'
  exact Bool.false_ne_true hq'

theorem Start_spec (hl : g.Layout) : g.Start.2.Layout ∧ Effects g g.Start.1 g.Start.2 := by
  unfold Start
  dsimp only
  by_cases ho : g.outgoingStarted = true
  · -- the incoming half is started already
    rw [if_pos ho]
    exact ⟨{ hl with started := ho.symm }, BuildsOnly.effects hl (buildsOnly_quiet rfl rfl rfl rfl)⟩
  · rw [if_neg ho]
    have hof : g.outgoingStarted = false := Bool.eq_false_iff.mpr ho
    obtain ⟨hcache, hsubs⟩ := hl.stopped hof
    have hnd : (g.idToBalancerConfig.map Prod.snd).Nodup := (List.nodup_append.mp hl.placedNodup).1
    set g₁ : BalancerGroup := { g with incomingStarted := true } with hg₁
    obtain ⟨hframe, hlen⟩ := run_startBalancer_frame (g.idToBalancerConfig.map Prod.snd) g₁
    have hbuilds := run_startBalancer_buildsOnly (g.idToBalancerConfig.map Prod.snd) g₁ hnd
      (fun q _ => balancerOf_of_stopped hl hof q)
    obtain ⟨hu, hf⟩ := run_startBalancer_numbered (g.idToBalancerConfig.map Prod.snd) g₁
      hl.liveUnique hl.liveFresh
    set r := Machine.run startBalancer g₁ (g.idToBalancerConfig.map Prod.snd) with hr
    -- the run builds the balancers of the ids, and changes no map
    have hi : r.2.incomingStarted = true := by rw [hframe]
    have hids : r.2.idToBalancerConfig = g.idToBalancerConfig := by rw [hframe]
    have hc : r.2.balancerCache = g.balancerCache := by rw [hframe]
    have hs : r.2.scToSubBalancer = g.scToSubBalancer := by rw [hframe]
    have hsc : r.2.nextSubConn = g.nextSubConn := by rw [hframe]
    have hbuilt : ∀ id p, (id, p) ∈ g.idToBalancerConfig → (r.2.balancerOf p).isSome := fun id p hp =>
      isSome_balancerOf_run_startBalancer _ g₁ hnd p (List.mem_map.mpr ⟨_, hp, rfl⟩)
        (hl.placedBound p (List.mem_append_left _ (List.mem_map.mpr ⟨_, hp, rfl⟩)))
    have hplaced : ({ r.2 with outgoingStarted := true } : BalancerGroup).placed = g.placed := by
      show r.2.idToBalancerConfig.map Prod.snd ++ r.2.balancerCache.cache.map Prod.snd = g.placed
      rw [hids, hc]
      rfl
    refine ⟨{
      started := hi
      stopped := fun h => by cases h
      configLive := fun id p hp => hbuilt id p (by rw [← hids]; exact hp)
      cacheLive := fun id p hp => by
        rw [show ({ r.2 with outgoingStarted := true } : BalancerGroup).balancerCache.cache = [] by
          rw [← hcache]; exact congrArg TimeoutCache.cache hc] at hp
        exact absurd hp List.not_mem_nil
      livePlaced := fun q hq => by
        rw [hplaced]
        by_cases hq' : q ∈ g.idToBalancerConfig.map Prod.snd
        · exact List.mem_append_left _ hq'
        · -- a wrapper the run does not start has no balancer
          have h0 : r.2.balancerOf q = g₁.balancerOf q :=
            balancerOf_run_startBalancer_of_notMem _ g₁ q hq'
          change (r.2.balancerOf q).isSome = true at hq
          rw [h0, show g₁.balancerOf q = g.balancerOf q from rfl,
            balancerOf_of_stopped hl hof q] at hq
          exact absurd hq Bool.false_ne_true
      placedNodup := by rw [hplaced]; exact hl.placedNodup
      placedBound := fun q hq => by
        rw [hplaced] at hq
        rw [show ({ r.2 with outgoingStarted := true } : BalancerGroup).wrappers.length =
          g.wrappers.length from hlen]
        exact hl.placedBound q hq
      configKeys := by rw [show ({ r.2 with outgoingStarted := true } : BalancerGroup).idToBalancerConfig =
        g.idToBalancerConfig from hids]; exact hl.configKeys
      cacheKeys := by rw [show ({ r.2 with outgoingStarted := true } : BalancerGroup).balancerCache =
        g.balancerCache from hc]; exact hl.cacheKeys
      keysDisjoint := fun id h => by
        rw [show ({ r.2 with outgoingStarted := true } : BalancerGroup).idToBalancerConfig =
          g.idToBalancerConfig from hids] at h
        rw [show ({ r.2 with outgoingStarted := true } : BalancerGroup).balancerCache =
          g.balancerCache from hc]
        exact hl.keysDisjoint id h
      subConnKeys := by rw [show ({ r.2 with outgoingStarted := true } : BalancerGroup).scToSubBalancer =
        [] by rw [← hsubs]; exact hs]; exact List.nodup_nil
      ownerLive := fun sc p hp => by
        rw [show ({ r.2 with outgoingStarted := true } : BalancerGroup).scToSubBalancer =
          [] by rw [← hsubs]; exact hs] at hp
        exact absurd hp List.not_mem_nil
      subConnFresh := fun sc hsc => by
        rw [show ({ r.2 with outgoingStarted := true } : BalancerGroup).scToSubBalancer =
          [] by rw [← hsubs]; exact hs] at hsc
        exact absurd hsc List.not_mem_nil
      liveUnique := hu
      liveFresh := hf }, ?_⟩
    have hq₁ : BuildsOnly g [] g₁ := buildsOnly_quiet rfl rfl rfl rfl
    have hq₂ : BuildsOnly r.2 [] { r.2 with outgoingStarted := true } :=
      buildsOnly_quiet rfl rfl rfl rfl
    have h := (hq₁.trans hbuilds).trans hq₂
    rw [List.nil_append, List.append_nil] at h
    exact h.effects hl

theorem Close_spec (hl : g.Layout) : g.Close.2.Layout ∧ Effects g g.Close.1 g.Close.2 := by
  unfold Close
  by_cases hi : g.incomingStarted = true
  · rw [if_pos hi]
    dsimp only [TimeoutCache.Clear]
    have ho : g.outgoingStarted = true := hl.started.symm.trans hi
    obtain ⟨hivals, hcvals, hdisj⟩ := List.nodup_append.mp hl.placedNodup
    set g₂ : BalancerGroup :=
      { g with balancerCache := ⟨[]⟩, incomingStarted := false, scToSubBalancer := [] } with hg₂
    -- with no SubConns left, the cache callbacks only stop their wrappers
    rw [run_removeCallback_of_nil _ g₂ rfl ho]
    obtain ⟨hout₂, hbal₂, hframe₂, hlen₂⟩ := run_stopBalancer _ g₂ hcvals
    set g₃ := (Machine.run stopBalancer g₂ (g.balancerCache.cache.map Prod.snd)).2 with hg₃
    have ho₃ : g₃.outgoingStarted = true := by rw [hframe₂]; exact ho
    have hids₃ : g₃.idToBalancerConfig = g.idToBalancerConfig := by rw [hframe₂]
    rw [if_pos ho₃, hids₃]
    obtain ⟨hout₃, hbal₃, hframe₃, hlen₃⟩ := run_stopBalancer _ g₃ hivals
    set g₄ := (Machine.run stopBalancer g₃ (g.idToBalancerConfig.map Prod.snd)).2 with hg₄
    -- the ids' wrappers are not in the cache, so they still have their balancers
    have hfm : (g.idToBalancerConfig.map Prod.snd).filterMap g₃.balancerOf =
        (g.idToBalancerConfig.map Prod.snd).filterMap g.balancerOf :=
      List.filterMap_congr fun q hq => by
        rw [hbal₂, if_neg fun h => hdisj q hq q h rfl]
        rfl
    rw [hout₂, hout₃, hfm]
    -- after the event no wrapper has a balancer
    have hnone : ∀ q, g₄.balancerOf q = none := fun q => by
      rw [hbal₃, hbal₂]
      by_cases hq : q ∈ g.idToBalancerConfig.map Prod.snd
      · rw [if_pos hq]
      · rw [if_neg hq]
        by_cases hq' : q ∈ g.balancerCache.cache.map Prod.snd
        · rw [if_pos hq']
        · rw [if_neg hq']
          by_contra h
          rcases List.mem_append.mp (hl.livePlaced q (Option.ne_none_iff_isSome.mp h)) with h' | h'
          · exact hq h'
          · exact hq' h'
    -- and the maps are emptied, the ids kept
    have hids₄ : g₄.idToBalancerConfig = g.idToBalancerConfig := by rw [hframe₃]; exact hids₃
    have hc₄ : g₄.balancerCache = ⟨[]⟩ := by rw [hframe₃, hframe₂]
    have hs₄ : g₄.scToSubBalancer = [] := by rw [hframe₃, hframe₂]
    have hi₄ : g₄.incomingStarted = false := by rw [hframe₃, hframe₂]
    have hn₄ : g₄.nextBalancer = g.nextBalancer := by rw [hframe₃, hframe₂]
    have hsc₄ : g₄.nextSubConn = g.nextSubConn := by rw [hframe₃, hframe₂]
    have hlen₄ : g₄.wrappers.length = g.wrappers.length := hlen₃.trans hlen₂
    have hnone' : ∀ q, ({ g₄ with outgoingStarted := false } : BalancerGroup).balancerOf q = none :=
      hnone
    refine ⟨{
      started := hi₄
      stopped := fun _ => ⟨congrArg TimeoutCache.cache hc₄, hs₄⟩
      configLive := fun id q _ => by rw [hnone']; rfl
      cacheLive := fun id q hq => by
        change (id, q) ∈ g₄.balancerCache.cache at hq
        rw [hc₄] at hq
        exact absurd hq List.not_mem_nil
      livePlaced := fun q hq => by rw [hnone'] at hq; exact absurd hq Bool.false_ne_true
      placedNodup := by
        show (g₄.idToBalancerConfig.map Prod.snd ++ g₄.balancerCache.cache.map Prod.snd).Nodup
        rw [hids₄, hc₄]
        simpa using hivals
      placedBound := fun q hq => by
        change q ∈ g₄.idToBalancerConfig.map Prod.snd ++ g₄.balancerCache.cache.map Prod.snd at hq
        rw [hids₄, hc₄, List.map_nil, List.append_nil] at hq
        show q < g₄.wrappers.length
        rw [hlen₄]
        exact hl.placedBound q (List.mem_append_left _ hq)
      configKeys := by show (g₄.idToBalancerConfig.map Prod.fst).Nodup; rw [hids₄]; exact hl.configKeys
      cacheKeys := by show (g₄.balancerCache.cache.map Prod.fst).Nodup; rw [hc₄]; exact List.nodup_nil
      keysDisjoint := fun id _ h => by
        change id ∈ g₄.balancerCache.cache.map Prod.fst at h
        rw [hc₄] at h
        exact List.not_mem_nil h
      subConnKeys := by show (g₄.scToSubBalancer.map Prod.fst).Nodup; rw [hs₄]; exact List.nodup_nil
      ownerLive := fun sc q hq => by
        change (sc, q) ∈ g₄.scToSubBalancer at hq
        rw [hs₄] at hq
        exact absurd hq List.not_mem_nil
      subConnFresh := fun sc hsc => by
        change sc ∈ g₄.scToSubBalancer.map Prod.fst at hsc
        rw [hs₄] at hsc
        exact absurd hsc List.not_mem_nil
      liveUnique := fun q _ b h => by rw [hnone'] at h; cases h
      liveFresh := fun q b h => by rw [hnone'] at h; cases h }, ?_⟩
    -- the closes are those of the built balancers, each of a held wrapper
    have hclose : ∀ b,
        output.close b ∈ ((g.balancerCache.cache.map Prod.snd).filterMap g₂.balancerOf).map
          output.close ∨
        output.close b ∈ ((g.idToBalancerConfig.map Prod.snd).filterMap g.balancerOf).map
          output.close → ∃ p, g.balancerOf p = some b := by
      intro b h
      rcases h with h | h
      · obtain ⟨p, -, hp⟩ := close_mem_filterMap.mp h
        exact ⟨p, hp⟩
      · obtain ⟨p, -, hp⟩ := close_mem_filterMap.mp h
        exact ⟨p, hp⟩
    exact {
      nextBalancer_le := by show g.nextBalancer ≤ g₄.nextBalancer; rw [hn₄]
      nextSubConn_le := by show g.nextSubConn ≤ g₄.nextSubConn; rw [hsc₄]
      closed := fun b hb => by
        rw [List.mem_append, List.mem_append] at hb
        rcases hb with (hb | hb) | hb
        · simp at hb
        · obtain ⟨p, hp⟩ := hclose b (.inl hb)
          refine ⟨?_, fun q hq => by rw [hnone'] at hq; cases hq⟩
          show b < g₄.nextBalancer
          rw [hn₄]
          exact hl.liveFresh p b hp
        · obtain ⟨p, hp⟩ := hclose b (.inr hb)
          refine ⟨?_, fun q hq => by rw [hnone'] at hq; cases hq⟩
          show b < g₄.nextBalancer
          rw [hn₄]
          exact hl.liveFresh p b hp
      live := fun q b h => by rw [hnone'] at h; cases h
      kept := fun sc q hq => by
        change (sc, q) ∈ g₄.scToSubBalancer at hq
        rw [hs₄] at hq
        exact absurd hq List.not_mem_nil
      created := fun _ _ hc => by simp at hc
      createdOnce := fun _ _ _ hc => by simp at hc
      removed := fun sc hr => by
        -- a SubConn removed is one of the map, whose wrapper is held and so stopped
        simp only [List.mem_append, removeSubConn_mem_map] at hr
        rcases hr with (⟨p, hm⟩ | hr) | hr
        · obtain ⟨b, hb⟩ := Option.isSome_iff_exists.mp (hl.ownerLive sc p hm)
          refine ⟨p, b, hm, hb, ?_⟩
          rcases List.mem_append.mp (hl.livePlaced p (hl.ownerLive sc p hm)) with hp | hp
          · exact List.mem_append_right _ (close_mem_filterMap.mpr ⟨p, hp, hb⟩)
          · exact List.mem_append_left _ (List.mem_append_right _
              (close_mem_filterMap.mpr ⟨p, hp, hb⟩))
        · simp at hr
        · simp at hr
      removedOnce := fun sc => by
        rw [List.count_append, List.count_append]
        have h₂ : (((g.balancerCache.cache.map Prod.snd).filterMap g₂.balancerOf).map
            output.close).count (.removeSubConn sc) = 0 := List.count_eq_zero.mpr (by simp)
        have h₃ : (((g.idToBalancerConfig.map Prod.snd).filterMap g.balancerOf).map
            output.close).count (.removeSubConn sc) = 0 := List.count_eq_zero.mpr (by simp)
        rw [h₂, h₃]
        exact count_removeSubConn_map hl.subConnKeys sc
      forwarded := fun _ _ _ hf => by simp at hf
      left := fun sc p hm _ =>
        .inl (List.mem_append_left _ (List.mem_append_left _ (removeSubConn_mem_map.mpr ⟨p, hm⟩))) }
  · rw [if_neg hi]
    dsimp only [TimeoutCache.Clear]
    have hof : g.outgoingStarted = false := hl.started.symm.trans (Bool.eq_false_iff.mpr hi)
    obtain ⟨hcache, -⟩ := hl.stopped hof
    -- a closed group has an empty cache: nothing happens
    have hc : g.balancerCache = ⟨[]⟩ := by
      rw [show g.balancerCache = ⟨g.balancerCache.cache⟩ from rfl, hcache]
    rw [hcache, List.map_nil, Machine.run_nil]
    dsimp only
    rw [if_neg (by rw [hof]; decide), ← hc]
    exact ⟨hl, BuildsOnly.effects hl (buildsOnly_quiet rfl rfl rfl rfl)⟩

end StartClose

/-! ## Every run -/

section Run

open Machine

variable {g : BalancerGroup}

/-- Each event the environment may deliver, to a group whose parents add only ids it does not
hold, keeps the layout and does what one event may. -/
theorem step_spec (hl : g.Layout) {e : groupEvent} (he : g.Allowed e) (hn : g.AddsNew e) :
    (g.step e).2.Layout ∧ Effects g (g.step e).1 (g.step e).2 := by
  cases e with
  | Start => exact Start_spec hl
  | Add id builder => exact Add_spec hl builder hn
  | Remove id => exact Remove_spec hl id
  | timeout id => exact timerFired_spec hl he
  | Close => exact Close_spec hl
  | newSubConn config ok => exact newSubConn_spec hl he ok
  | UpdateSubConnState sc state => exact UpdateSubConnState_spec hl sc state

theorem layout_New : New.Layout where
  started := rfl
  stopped _ := ⟨rfl, rfl⟩
  configLive _ _ h := absurd h List.not_mem_nil
  cacheLive _ _ h := absurd h List.not_mem_nil
  livePlaced _ h := by simp [balancerOf, New] at h
  placedNodup := List.nodup_nil
  placedBound _ h := by simp [placed, New] at h
  configKeys := List.nodup_nil
  cacheKeys := List.nodup_nil
  keysDisjoint _ h := absurd h List.not_mem_nil
  subConnKeys := List.nodup_nil
  ownerLive _ _ h := absurd h List.not_mem_nil
  subConnFresh _ h := absurd h List.not_mem_nil
  liveUnique _ _ _ h := by simp [balancerOf, New] at h
  liveFresh _ _ h := by simp [balancerOf, New] at h

theorem books_New : Books [] New where
  liveOpen _ _ _ h := absurd h List.not_mem_nil
  closedFresh _ h := absurd h List.not_mem_nil
  owner _ _ h := absurd h List.not_mem_nil
  ownedKept _ _ _ h := absurd h List.not_mem_nil
  createdFresh _ _ h := absurd h List.not_mem_nil
  createdOnce _ _ _ h := absurd h List.not_mem_nil
  forwarded _ _ _ h := absurd h List.not_mem_nil
  removedOnce _ := Nat.zero_le 1
  removedClosed _ h := absurd h List.not_mem_nil
  created _ _ h := absurd h List.not_mem_nil

/-- The events the environment delivers to a group whose parents keep to `AddsNew`. -/
def Delivered (g : BalancerGroup) (e : groupEvent) : Prop :=
  g.Allowed e ∧ g.AddsNew e

instance (g : BalancerGroup) (e : groupEvent) : Decidable (g.Delivered e) :=
  inferInstanceAs (Decidable (_ ∧ _))

theorem layout_invariant : Invariant Delivered step Layout :=
  fun _ _ hl he => (step_spec hl he.1 he.2).1

/-- The layout and the books hold after every run of such a group. -/
theorem books_run {es : List groupEvent} (hes : Admits Delivered step New es) :
    (run step New es).2.Layout ∧ Books (run step New es).1 (run step New es).2 := by
  refine ⟨layout_invariant.run layout_New hes, ?_⟩
  have h := layout_invariant.outputs (P := fun out g => Books out g)
    (fun _ _ _ hl he hb => hb.step (step_spec hl he.1 he.2).2) layout_New hes books_New
  simpa using h

/-- A SubConn whose balancer is closed is no longer in the map: it was removed or shut down. -/
theorem Books.removed_when_closed {out : List output} (hb : Books out g) {b sc : Nat}
    (hc : .newSubConn b sc ∈ out) (hcl : .close b ∈ out) :
    .removeSubConn sc ∈ out ∨ .updateSubConnState b sc .Shutdown ∈ out := by
  rcases hb.created b sc hc with hk | h | h
  · -- still in the map, its wrapper would have `b`, which is not closed
    obtain ⟨⟨sc', p⟩, hm, rfl⟩ := List.mem_map.mp hk
    obtain ⟨b', hp, hc'⟩ := hb.owner sc' p hm
    rw [hb.createdOnce b b' sc' hc hc'] at hcl
    exact absurd hcl (hb.liveOpen p b' hp)
  · exact .inl h
  · exact .inr h

/-- **SubConn ownership.**  On every run of a balancer group whose parents add only ids it does
not hold: every SubConn of `scToSubBalancer` belongs to a wrapper of an id or of the cache, and
was made by the balancer that wrapper has now; a SubConn's states go only to the balancer that
made it; no SubConn is passed to `RemoveSubConn` twice, none before the balancer that made it
is closed, and once that balancer is closed every SubConn it made has been passed to
`RemoveSubConn`, unless a shutdown of it was delivered to that balancer first. -/
theorem subConn_ownership (es : List groupEvent) (hes : Admits Delivered step New es) :
    (∀ sc p, (sc, p) ∈ (run step New es).2.scToSubBalancer →
      ((∃ id, (id, p) ∈ (run step New es).2.idToBalancerConfig) ∨
        ∃ id, (id, p) ∈ (run step New es).2.balancerCache.cache) ∧
      ∃ b, (run step New es).2.balancerOf p = some b ∧ .newSubConn b sc ∈ (run step New es).1) ∧
    (∀ b sc s, .updateSubConnState b sc s ∈ (run step New es).1 →
      .newSubConn b sc ∈ (run step New es).1) ∧
    (∀ sc, (run step New es).1.count (.removeSubConn sc) ≤ 1) ∧
    (∀ sc, .removeSubConn sc ∈ (run step New es).1 →
      ∃ b, .newSubConn b sc ∈ (run step New es).1 ∧ .close b ∈ (run step New es).1) ∧
    (∀ b sc, .newSubConn b sc ∈ (run step New es).1 → .close b ∈ (run step New es).1 →
      .removeSubConn sc ∈ (run step New es).1 ∨
        .updateSubConnState b sc .Shutdown ∈ (run step New es).1) := by
  obtain ⟨hl, hb⟩ := books_run hes
  refine ⟨fun sc p hm => ⟨mem_placed.mp (hl.livePlaced p (hl.ownerLive sc p hm)), hb.owner sc p hm⟩,
    hb.forwarded, hb.removedOnce, hb.removedClosed, fun b sc hc hcl => hb.removed_when_closed hc hcl⟩

/-- A run through every path of the group: a SubConn made, reported on and kept when its id
goes to the cache and comes back; another builder for the id, whose SubConn is removed with the
old balancer; a timeout; a close and a restart, and a shutdown. -/
def ownershipRun : List groupEvent :=
  [.Start, .Add "a" "rr", .newSubConn 0 true, .UpdateSubConnState 0 .Ready, .Remove "a",
    .Add "a" "rr", .Remove "a", .Add "a" "pf", .newSubConn 1 true, .Add "b" "rr", .Remove "b",
    .timeout "b", .Close, .Start, .newSubConn 1 true, .UpdateSubConnState 2 .Shutdown, .Close]

theorem subConn_ownership_sample :
    Admits Delivered step New ownershipRun ∧
      (∀ sc p, (sc, p) ∈ (run step New ownershipRun).2.scToSubBalancer →
        ((∃ id, (id, p) ∈ (run step New ownershipRun).2.idToBalancerConfig) ∨
          ∃ id, (id, p) ∈ (run step New ownershipRun).2.balancerCache.cache) ∧
        ∃ b, (run step New ownershipRun).2.balancerOf p = some b ∧
          .newSubConn b sc ∈ (run step New ownershipRun).1) ∧
      (∀ b sc s, .updateSubConnState b sc s ∈ (run step New ownershipRun).1 →
        .newSubConn b sc ∈ (run step New ownershipRun).1) ∧
      (∀ sc, (run step New ownershipRun).1.count (.removeSubConn sc) ≤ 1) ∧
      (∀ sc, .removeSubConn sc ∈ (run step New ownershipRun).1 →
        ∃ b, .newSubConn b sc ∈ (run step New ownershipRun).1 ∧
          .close b ∈ (run step New ownershipRun).1) ∧
      (∀ b sc, .newSubConn b sc ∈ (run step New ownershipRun).1 →
        .close b ∈ (run step New ownershipRun).1 →
        .removeSubConn sc ∈ (run step New ownershipRun).1 ∨
          .updateSubConnState b sc .Shutdown ∈ (run step New ownershipRun).1) :=
  ⟨by decide, subConn_ownership ownershipRun (by decide)⟩

/-- A second `Add` of an id the group holds: the first wrapper keeps its balancer and its
SubConn, and is held by neither map; `Close` then removes the SubConn, and never closes the
balancer that made it. -/
def reAddRun : List groupEvent :=
  [.Start, .Add "a" "rr", .newSubConn 0 true, .Add "a" "rr"]

theorem reAdd_orphans_subConn :
    Admits Allowed step New (reAddRun ++ [.Close]) ∧
      (0, 0) ∈ (run step New reAddRun).2.scToSubBalancer ∧
      (run step New reAddRun).2.balancerOf 0 = some 0 ∧
      0 ∉ (run step New reAddRun).2.idToBalancerConfig.map Prod.snd ∧
      0 ∉ (run step New reAddRun).2.balancerCache.cache.map Prod.snd ∧
      (run step New (reAddRun ++ [.Close])).1 =
        [.build 0, .newSubConn 0 0, .build 1, .removeSubConn 0, .close 1] := by
  decide

end Run

end BalancerGroup

end Balancergroup
end GrpcGo
