import GrpcGo.Balancer.RingHashStates
import GrpcGo.Lib.ExceptBind
import GrpcGo.Lib.GoFloat
import GrpcGo.Lib.ListCount

/-!
# The ring of the ring_hash balancer (`xds/internal/balancer/ringhash/ring.go`)

`newRing` gives each SubConn entries by a running target: after the SubConns before it,
`targetIdx` is the ring's scale times the weights so far, and the loop adds entries while their
number is below it.  A SubConn of weight `w` so gets `⌈t + scale * w⌉ - ⌈t⌉` entries
(`GoStd.ceilShares`), within one of its share `scale * w` of the ring.  The entries are then sorted
by hash, and `pick` finds the entry of a request's hash by `sort.Search`.

* `fill_foldl`: what the loop over the weights builds: as many entries as the ceiling of the
  target, and each SubConn's block of entries in the order of the weights.
* `newRing_sorted`, `pick_eq_find`: the ring is sorted by hash, so the binary search of `pick`
  finds what a scan from the start finds: the first entry whose hash is at least the request's,
  or the first entry when there is none.
* `parseConfig`, `UpdateClientConnState_ringInv`: the config's sizes are at least one, and every
  ring the balancer holds is `newRing`'s for its SubConns, which are numbered apart and weigh at
  least one; such a ring is not empty (`newRing_ne_nil`).
* `ring_pick_first_at_least`: after every run of updates, a pick on the balancer's ring returns
  the first entry whose hash is at least the request's, or the first entry.
* `ring_shares_within_one`: after every run of updates, the ring has the ceiling of its scale
  entries, and each SubConn holds within one of its share of them.
* `UpdateClientConnState_no_addresses`: an update without addresses only reports a bad resolver
  state when the balancer has no SubConns; when it has some, it removes them all and panics on
  `newRing`'s error for an empty ring.

The balancer keeps the config of its first update (`b.config` is set only while it is `nil`),
so every ring it builds uses that one config.
-/

namespace GrpcGo
namespace RingHash

open GoStd

/-! ## The loop over the weights -/

/-- `scale` in `newRing`: the ring's size before its ceiling. -/
def ringScale (minWeight : ℚ) (minRingSize maxRingSize : UInt64) : ℚ :=
  min ((⌈minWeight * minRingSize.toNat⌉ : ℚ) / minWeight) maxRingSize.toNat

/-- One turn of `newRing`'s loop over the weights: `targetIdx` goes up by the SubConn's share of
the ring, and its entries are added up to it. -/
def fillStep (hash : String → UInt64) (scale : ℚ) (acc : List ringEntry × ℚ)
    (scw : subConnWithWeight) : List ringEntry × ℚ :=
  let targetIdx := acc.2 + scale * scw.weight
  (addEntries hash scw.sc (⌈targetIdx⌉ - acc.1.length).toNat acc.1, targetIdx)

/-- What `newRing` returns when it does not fail: the entries of its loop, sorted by hash and
numbered. -/
theorem newRing_eq_ok {hash : String → UInt64} {subConns : List (addressKey × subConn)}
    {minRingSize maxRingSize : UInt64} {r : ring}
    (h : newRing hash subConns minRingSize maxRingSize = .ok r) :
    ∃ ws minWeight, normalizeWeights subConns = .ok (ws, minWeight) ∧
      r.items = reindex ((ws.foldl (fillStep hash (ringScale minWeight minRingSize maxRingSize))
        ([], 0)).1.mergeSort fun a b => decide (a.hash < b.hash)) := by
  unfold newRing at h
  rcases hw : normalizeWeights subConns with err | ⟨ws, minWeight⟩
  · rw [hw] at h
    cases h
  · rw [hw] at h
    cases h
    exact ⟨ws, minWeight, rfl, rfl⟩

/-- `addEntries` appends `count` entries of its SubConn. -/
theorem addEntries_map_sc (hash : String → UInt64) (sc : subConn) :
    ∀ (count : Nat) (items : List ringEntry),
      (addEntries hash sc count items).map (·.sc) = items.map (·.sc) ++ List.replicate count sc
  | 0, items => by simp [addEntries]
  | count + 1, items => by
    rw [addEntries, addEntries_map_sc hash sc count, List.map_append, List.append_assoc,
      List.replicate_succ]
    rfl

theorem length_addEntries (hash : String → UInt64) (sc : subConn) (count : Nat)
    (items : List ringEntry) :
    (addEntries hash sc count items).length = items.length + count := by
  have h := congrArg List.length (addEntries_map_sc hash sc count items)
  simpa using h

theorem reindex_map_hash (items : List ringEntry) :
    (reindex items).map (·.hash) = items.map (·.hash) := by
  apply List.ext_getElem (by simp [reindex])
  intro i h₁ h₂
  simp [reindex]

section Fill

variable (hash : String → UInt64) {scale : ℚ}

/-- **The loop over the weights**: from entries as many as the ceiling of `targetIdx`, it raises
`targetIdx` by each SubConn's share, adds as many entries as the ceiling rose, and so appends
one block of each SubConn, `ceilShares` long. -/
theorem fill_foldl (hscale : 0 ≤ scale) :
    ∀ {ws : List subConnWithWeight}, (∀ scw ∈ ws, 0 ≤ scw.weight) →
      ∀ (items : List ringEntry) (t : ℚ), 0 ≤ t → items.length = ⌈t⌉.toNat →
        (ws.foldl (fillStep hash scale) (items, t)).2 = t + scale * (ws.map (·.weight)).sum ∧
        (ws.foldl (fillStep hash scale) (items, t)).1.length =
          ⌈t + scale * (ws.map (·.weight)).sum⌉.toNat ∧
        (ws.foldl (fillStep hash scale) (items, t)).1.map (·.sc) = items.map (·.sc) ++
          ((ws.map (·.sc)).zip (ceilShares t (ws.map (scale * ·.weight)))).flatMap
            fun p => List.replicate p.2 p.1
  | [], _, items, t, _, hlen => by simp [hlen]
  | scw :: ws, hw, items, t, ht, hlen => by
    have hx : 0 ≤ scale * scw.weight := mul_nonneg hscale (hw scw List.mem_cons_self)
    -- the turn adds `⌈t + x⌉ - ⌈t⌉` entries, since the entries so far are `⌈t⌉`
    have hcount : (⌈t + scale * scw.weight⌉ - (items.length : ℤ)).toNat =
        (⌈t + scale * scw.weight⌉ - ⌈t⌉).toNat := by
      rw [hlen, Int.toNat_of_nonneg (Int.ceil_nonneg ht)]
    have hle : ⌈t⌉ ≤ ⌈t + scale * scw.weight⌉ := Int.ceil_mono (by linarith)
    have hlen' : (fillStep hash scale (items, t) scw).1.length =
        ⌈t + scale * scw.weight⌉.toNat := by
      simp only [fillStep, length_addEntries, hcount]
      omega
    obtain ⟨h₁, h₂, h₃⟩ := fill_foldl hscale
      (fun scw' (h : scw' ∈ ws) => hw scw' (List.mem_cons_of_mem _ h)) _ _ (add_nonneg ht hx) hlen'
    have hstep : fillStep hash scale (items, t) scw =
        ((fillStep hash scale (items, t) scw).1, t + scale * scw.weight) := rfl
    rw [List.foldl_cons, hstep]
    refine ⟨?_, ?_, ?_⟩
    · rw [h₁]
      simp only [List.map_cons, List.sum_cons]
      ring
    · rw [h₂]
      congr 2
      simp only [List.map_cons, List.sum_cons]
      ring
    · rw [h₃]
      simp only [fillStep, addEntries_map_sc, hcount, List.map_cons, ceilShares,
        List.zip_cons_cons, List.flatMap_cons, List.append_assoc]

end Fill

/-! ## The weights -/

/-- The running minimum of `normalizeWeights` keeps what its start and every weight have. -/
theorem foldl_minWeight (P : ℚ → Prop) :
    ∀ (l : List subConnWithWeight) (m : ℚ), P m → (∀ scw ∈ l, P scw.weight) →
      P (l.foldl (fun m scw => if scw.weight < m then scw.weight else m) m)
  | [], _, hm, _ => hm
  | scw :: l, m, hm, hl => by
    rw [List.foldl_cons]
    refine foldl_minWeight P l _ ?_ (fun scw' h => hl scw' (List.mem_cons_of_mem _ h))
    split_ifs
    · exact hl scw List.mem_cons_self
    · exact hm

section Normalize

variable {subConns : List (addressKey × subConn)} {ws : List subConnWithWeight} {minWeight : ℚ}

/-- Every share is a weight over the positive `uint32` sum, so none is negative, and each is
positive when every weight is. -/
theorem normalizeWeights_weight (h : normalizeWeights subConns = .ok (ws, minWeight)) :
    ∀ scw ∈ ws, 0 ≤ scw.weight ∧ ((∀ a ∈ subConns, a.1.2 ≠ 0) → 0 < scw.weight) := by
  unfold normalizeWeights at h
  dsimp only at h
  split_ifs at h with hlen hzero
  cases h
  intro scw hscw
  obtain ⟨a, ha, rfl⟩ := List.mem_map.mp ((List.mergeSort_perm _ _).mem_iff.mp hscw)
  have hsum : (0 : ℚ) < ((subConns.map fun a : addressKey × subConn => a.1.2).foldl
      (· + ·) 0).toNat := by
    exact_mod_cast Nat.pos_of_ne_zero fun h0 => hzero (UInt32.toNat_inj.mp h0)
  refine ⟨div_nonneg (Nat.cast_nonneg _) hsum.le, fun hw => div_pos ?_ hsum⟩
  exact_mod_cast Nat.pos_of_ne_zero fun h0 => hw a ha (UInt32.toNat_inj.mp h0)

/-- The least share is not negative, and it is positive when every weight is. -/
theorem normalizeWeights_minWeight (h : normalizeWeights subConns = .ok (ws, minWeight)) :
    0 ≤ minWeight ∧ ((∀ a ∈ subConns, a.1.2 ≠ 0) → 0 < minWeight) := by
  have hshares := normalizeWeights_weight h
  unfold normalizeWeights at h
  dsimp only at h
  split_ifs at h
  cases h
  -- the minimum is `MaxFloat64` or one of the shares, which the sort only reorders
  have hmem : ∀ scw ∈ subConns.map fun a => (⟨a.2, (a.1.2.toNat : ℚ) /
      ((subConns.map fun a : addressKey × subConn => a.1.2).foldl (· + ·) 0).toNat⟩ :
        subConnWithWeight), scw ∈ (subConns.map fun a => (⟨a.2, (a.1.2.toNat : ℚ) /
      ((subConns.map fun a : addressKey × subConn => a.1.2).foldl (· + ·) 0).toNat⟩ :
        subConnWithWeight)).mergeSort fun a b => decide (a.sc.addr < b.sc.addr) :=
    fun scw hscw => (List.mergeSort_perm _ _).mem_iff.mpr hscw
  have hmax : (0 : ℚ) < MaxFloat64 := by norm_num [MaxFloat64]
  refine ⟨foldl_minWeight (0 ≤ ·) _ _ hmax.le fun scw hscw => (hshares scw (hmem scw hscw)).1,
    fun hw => foldl_minWeight (0 < ·) _ _ hmax fun scw hscw => (hshares scw (hmem scw hscw)).2 hw⟩

end Normalize

/-- The ring's scale is not negative. -/
theorem ringScale_nonneg {minWeight : ℚ} (h : 0 ≤ minWeight) (minRingSize maxRingSize : UInt64) :
    0 ≤ ringScale minWeight minRingSize maxRingSize :=
  le_min (div_nonneg (by exact_mod_cast Int.ceil_nonneg (mul_nonneg h (Nat.cast_nonneg _))) h)
    (Nat.cast_nonneg _)

/-- With a positive least share and both sizes at least one, the scale is positive. -/
theorem ringScale_pos {minWeight : ℚ} (h : 0 < minWeight) {minRingSize maxRingSize : UInt64}
    (hmin : 1 ≤ minRingSize.toNat) (hmax : 1 ≤ maxRingSize.toNat) :
    0 < ringScale minWeight minRingSize maxRingSize := by
  have hprod : 0 < minWeight * minRingSize.toNat := mul_pos h (by exact_mod_cast hmin)
  refine lt_min (div_pos ?_ h) (by exact_mod_cast hmax)
  exact_mod_cast Int.ceil_pos.mpr hprod

/-! ## The ring -/

section Ring

variable {hash : String → UInt64} {subConns : List (addressKey × subConn)}
  {minRingSize maxRingSize : UInt64} {r : ring}

/-- **The ring is sorted by hash**: `sort.Slice` by a strict `<` leaves no entry after one of a
larger hash. -/
theorem newRing_sorted (h : newRing hash subConns minRingSize maxRingSize = .ok r) :
    r.items.Pairwise fun a b => a.hash ≤ b.hash := by
  obtain ⟨ws, minWeight, -, hitems⟩ := newRing_eq_ok h
  have hsorted := pairwise_mergeSort_of_less (R := fun a b : ringEntry => a.hash ≤ b.hash)
    (fun _ _ _ hab hbc => UInt64.le_trans hab hbc)
    (fun _ _ hlt => UInt64.le_of_lt (of_decide_eq_true hlt))
    (fun _ _ hge => UInt64.not_lt.mp (of_decide_eq_false hge))
    ((ws.foldl (fillStep hash (ringScale minWeight minRingSize maxRingSize)) ([], 0)).1)
  rw [hitems, ← List.pairwise_map (R := fun a b : UInt64 => a ≤ b), reindex_map_hash,
    List.pairwise_map]
  exact hsorted

/-- The ring has as many entries as the loop over the weights made: the ceiling of the scale
times the shares' sum. -/
theorem newRing_length (h : newRing hash subConns minRingSize maxRingSize = .ok r)
    {ws : List subConnWithWeight} {minWeight : ℚ}
    (hws : normalizeWeights subConns = .ok (ws, minWeight)) :
    r.items.length =
      ⌈ringScale minWeight minRingSize maxRingSize * (ws.map (·.weight)).sum⌉.toNat := by
  obtain ⟨ws', minWeight', hws', hitems⟩ := newRing_eq_ok h
  rw [hws] at hws'
  obtain ⟨rfl, rfl⟩ := Prod.mk.inj (Except.ok.inj hws')
  have hfill := fill_foldl hash
    (ringScale_nonneg (normalizeWeights_minWeight hws).1 minRingSize maxRingSize)
    (fun scw h => (normalizeWeights_weight hws scw h).1) [] 0 le_rfl (by simp)
  rw [hitems, reindex, List.length_mapIdx, List.length_mergeSort, hfill.2.1, zero_add]

/-- **A ring of SubConns that all weigh something, under sizes of at least one, is not empty.** -/
theorem newRing_ne_nil (h : newRing hash subConns minRingSize maxRingSize = .ok r)
    (hmin : 1 ≤ minRingSize.toNat) (hmax : 1 ≤ maxRingSize.toNat)
    (hw : ∀ a ∈ subConns, a.1.2 ≠ 0) : r.items ≠ [] := by
  obtain ⟨ws, minWeight, hws, -⟩ := newRing_eq_ok h
  -- the shares add up to the exact sum over the wrapped one, which is positive
  have hwrapped := ((normalizeWeights_eq_ok_iff subConns).mp ⟨_, hws⟩).2
  have hsum : 0 < (ws.map (·.weight)).sum := by
    rw [sum_normalizeWeights hws]
    exact div_pos (by exact_mod_cast Nat.pos_of_ne_zero fun h0 => hwrapped (by simp [h0]))
      (by exact_mod_cast Nat.pos_of_ne_zero hwrapped)
  have hscale := ringScale_pos ((normalizeWeights_minWeight hws).2 hw) hmin hmax
  rw [← List.length_pos_iff, newRing_length h hws, Int.lt_toNat, Nat.cast_zero, Int.ceil_pos]
  exact mul_pos hscale hsum

end Ring

/-! ## Picking from the ring -/

/-- **The binary search of `pick` finds what a scan from the start finds** on a ring sorted by
hash: the first entry whose hash is at least `h`, or the first entry when there is none. -/
theorem pick_eq_find {r : ring} (hs : r.items.Pairwise fun a b => a.hash ≤ b.hash)
    {e0 : ringEntry} (he0 : r.items.head? = some e0) (h : UInt64) :
    r.pick h = .ok ((r.items.find? fun e => decide (h ≤ e.hash)).getD e0) := by
  -- past an entry whose hash is at least `h`, every hash is
  have hup : r.items.Pairwise fun a b =>
      decide (h ≤ a.hash) = true → decide (h ≤ b.hash) = true :=
    hs.imp fun hab ha => decide_eq_true (UInt64.le_trans (of_decide_eq_true ha) hab)
  unfold ring.pick
  rw [Search_eq_findIdx hup, List.find?_eq_getElem?_findIdx]
  dsimp only
  by_cases hidx : List.findIdx (fun e => decide (h ≤ e.hash)) r.items = r.items.length
  · -- no hash is at least `h`: the search wraps round to the first entry
    rw [if_pos hidx, hidx, List.getElem?_eq_none (Nat.le_refl _), ← List.head?_eq_getElem?, he0]
    rfl
  · rw [if_neg hidx]
    have hlt : List.findIdx (fun e => decide (h ≤ e.hash)) r.items < r.items.length :=
      Nat.lt_of_le_of_ne List.findIdx_le_length hidx
    rw [List.getElem?_eq_getElem hlt]
    rfl

/-! ## The balancer's rings -/

/-- `defaultMinSize`. -/
def defaultMinSize : UInt64 := 1024

/-- `defaultMaxSize`. -/
def defaultMaxSize : UInt64 := 8 * 1024 * 1024

/-- `parseConfig(c)`, for the sizes the JSON gives (zero where it leaves them out): a size left
out takes its default, and a minimum above the maximum is an error. -/
def parseConfig (cfg : LBConfig) : Except String LBConfig :=
  let cfg := if cfg.MinRingSize = 0 then { cfg with MinRingSize := defaultMinSize } else cfg
  let cfg := if cfg.MaxRingSize = 0 then { cfg with MaxRingSize := defaultMaxSize } else cfg
  if cfg.MinRingSize > cfg.MaxRingSize then
    .error ("min " ++ toString cfg.MinRingSize ++ " is greater than max " ++
      toString cfg.MaxRingSize)
  else .ok cfg

/-- A parsed config has both sizes at least one. -/
theorem parseConfig_sizes {raw cfg : LBConfig} (h : parseConfig raw = .ok cfg) :
    1 ≤ cfg.MinRingSize.toNat ∧ 1 ≤ cfg.MaxRingSize.toNat := by
  -- a size that is not zero is at least one
  have hpos : ∀ x : UInt64, x ≠ 0 → 1 ≤ x.toNat := fun x hx => by
    have : x.toNat ≠ 0 := fun h0 => hx (UInt64.toNat_inj.mp h0)
    omega
  unfold parseConfig at h
  dsimp only at h
  -- whichever default was taken, neither size is zero
  split_ifs at h <;> cases h <;> exact ⟨hpos _ (by simp_all [defaultMinSize]),
    hpos _ (by simp_all [defaultMaxSize])⟩

/-- `bb.Build`: no SubConns, and no ring. -/
def Build : ringhashBalancer := ⟨[], 0, none⟩

/-- The SubConns a balancer keeps: each of a weight other than zero, numbered below `created`,
and no two alike. -/
structure SubConnsOk (b : ringhashBalancer) : Prop where
  weight : ∀ e ∈ b.subConns, e.1.2 ≠ 0
  fresh : ∀ e ∈ b.subConns, e.2.sc < b.created
  nodup : (b.subConns.map (·.2)).Nodup

/-- What every balancer a run reaches keeps: its SubConns, and a ring, when it has one, that is
`newRing`'s for them under the config. -/
structure RingInv (hash : String → UInt64) (config : LBConfig) (b : ringhashBalancer) : Prop
    extends SubConnsOk b where
  ring : ∀ r, b.ring = some r →
    newRing hash b.subConns config.MinRingSize config.MaxRingSize = .ok r

theorem ringInv_Build (hash : String → UInt64) (config : LBConfig) : RingInv hash config Build where
  weight := fun _ h => absurd h List.not_mem_nil
  fresh := fun _ h => absurd h List.not_mem_nil
  nodup := List.nodup_nil
  ring := fun _ h => by cases h

/-- A new SubConn, numbered `created`, for a key the balancer does not hold. -/
theorem SubConnsOk.insert {b : ringhashBalancer} (h : SubConnsOk b) (a : Address)
    (hnone : b.subConns.lookup (addressKeyOf a) = none) :
    SubConnsOk { b with
      subConns := Map.insert (addressKeyOf a) ⟨a.Addr, b.created⟩ b.subConns
      created := b.created + 1 } where
  weight := by
    intro e he
    rcases Map.keys_insert_subset _ _ _ e he with rfl | he
    · simp only [addressKeyOf]
      split_ifs with h0
      · decide
      · exact h0
    · exact h.weight e he
  fresh := by
    intro e he
    rcases Map.keys_insert_subset _ _ _ e he with rfl | he
    · exact Nat.lt_succ_self _
    · exact Nat.lt_succ_of_lt (h.fresh e he)
  nodup := by
    -- the new entry goes with the old ones, and its number is none of theirs
    have hperm := (Map.perm_insert (addressKeyOf a) (⟨a.Addr, b.created⟩ : subConn)
      b.subConns).map (·.2)
    rw [Map.erase_of_lookup_none (by convert hnone using 2; exact lawful_beq_subsingleton _ _)]
      at hperm
    refine hperm.nodup_iff.mpr (List.nodup_cons.mpr ⟨fun hmem => ?_, h.nodup⟩)
    obtain ⟨e, he, hsc⟩ := List.mem_map.mp hmem
    have := h.fresh e he
    rw [hsc] at this
    exact Nat.lt_irrefl _ this

theorem SubConnsOk.filter {b : ringhashBalancer} (h : SubConnsOk b)
    (p : addressKey × subConn → Bool) : SubConnsOk { b with subConns := b.subConns.filter p } where
  weight := fun e he => h.weight e (List.mem_filter.mp he).1
  fresh := fun e he => h.fresh e (List.mem_filter.mp he).1
  nodup := h.nodup.sublist (List.filter_sublist.map _)

/-- `updateAddresses` keeps the SubConns right, and a balancer it reports unchanged is the one
it was given. -/
theorem updateAddresses_ok {b : ringhashBalancer} (h : SubConnsOk b) (addrs : List Address) :
    SubConnsOk (updateAddresses b addrs).1 ∧
      ((updateAddresses b addrs).2 = false → (updateAddresses b addrs).1 = b) := by
  -- the states model runs the same loop, through its named step `updateAddress`
  rw [← updateAddresses_toringhashBalancer ⟨b, [], ⟨fun _ => 0⟩, .Idle⟩ addrs]
  -- the loop adds SubConns, and reports a change whenever it does
  have hloop := Machine.foldl_invariant
    (P := fun acc : List record × ringhashStates × Bool =>
      SubConnsOk acc.2.1.toringhashBalancer ∧ (acc.2.2 = false → acc.2.1.toringhashBalancer = b))
    (f := updateAddress)
    (fun acc a hacc => by
      cases hnone : acc.2.1.subConns.lookup (addressKeyOf a) with
      | none =>
        simp only [updateAddress, hnone]
        exact ⟨hacc.1.insert a hnone, fun hf => by cases hf⟩
      | some _ =>
        simp only [updateAddress, hnone]
        exact hacc) addrs (b := ([], ⟨b, [], ⟨fun _ => 0⟩, .Idle⟩, false)) ⟨h, fun _ => rfl⟩
  obtain ⟨hok, hsame⟩ := hloop
  refine ⟨hok.filter _, fun hf => ?_⟩
  simp only [ringhashStates.updateAddresses, Bool.or_eq_false_iff, decide_eq_false_iff_not,
    not_not] at hf ⊢
  -- nothing was added, and the filter kept every SubConn
  obtain ⟨hadded, hkept⟩ := hf
  rw [List.filter_eq_self.mpr (List.length_filter_eq_length_iff.mp hkept)]
  exact hsame hadded

/-- What `UpdateClientConnState` leaves when it does not panic: a new ring for the SubConns of
`updateAddresses` when it reports a change, and otherwise the balancer it left. -/
theorem UpdateClientConnState_eq_ok {hash : String → UInt64} {b b' : ringhashBalancer}
    {config : LBConfig} {addrs : List Address} {err : Option String}
    (h : UpdateClientConnState hash b config addrs = .ok (b', err)) :
    (∃ r, (updateAddresses b addrs).2 = true ∧
        newRing hash (updateAddresses b addrs).1.subConns config.MinRingSize
          config.MaxRingSize = .ok r ∧
        b' = { (updateAddresses b addrs).1 with ring := some r }) ∨
      ((updateAddresses b addrs).2 = false ∧ b' = (updateAddresses b addrs).1) := by
  unfold UpdateClientConnState at h
  rcases hu : updateAddresses b addrs with ⟨bu, _ | _⟩
  · -- nothing changed: the balancer is the one `updateAddresses` left
    simp only [hu, Bool.false_eq_true, ↓reduceIte, Except.ok_bind] at h
    refine .inr ⟨rfl, ?_⟩
    split_ifs at h <;> cases h <;> rfl
  · rcases hr : newRing hash bu.subConns config.MinRingSize config.MaxRingSize with e | r
    · simp only [hu, hr, ↓reduceIte, Except.error_bind] at h
      cases h
    · simp only [hu, hr, ↓reduceIte, Except.ok_bind] at h
      refine .inl ⟨r, rfl, rfl, ?_⟩
      split_ifs at h <;> cases h <;> rfl

/-- **`UpdateClientConnState` keeps the invariant.** -/
theorem UpdateClientConnState_ringInv {hash : String → UInt64} {config : LBConfig}
    {b b' : ringhashBalancer} {addrs : List Address} {err : Option String}
    (hinv : RingInv hash config b) (h : UpdateClientConnState hash b config addrs = .ok (b', err)) :
    RingInv hash config b' := by
  obtain ⟨hok, hsame⟩ := updateAddresses_ok hinv.toSubConnsOk addrs
  rcases UpdateClientConnState_eq_ok h with ⟨r, -, hr, rfl⟩ | ⟨hf, rfl⟩
  · -- a new ring, built from the SubConns the balancer now holds
    exact ⟨⟨hok.weight, hok.fresh, hok.nodup⟩, fun r' hr' => by cases hr'; exact hr⟩
  · rw [hsame hf]
    exact hinv

/-- Every balancer a run of updates reaches from `Build` keeps the invariant. -/
theorem ringInv_run (hash : String → UInt64) (config : LBConfig) (updates : List (List Address))
    {b : ringhashBalancer}
    (h : updates.foldlM (fun b addrs => (UpdateClientConnState hash b config addrs).map (·.1))
      Build = .ok b) :
    RingInv hash config b := by
  refine Except.foldlM_invariant (RingInv hash config) updates ?_ (ringInv_Build hash config) h
  intro b addrs b' _ hb hstep
  obtain ⟨⟨b'', err⟩, hok, rfl⟩ := Except.map_eq_ok_iff.mp hstep
  exact UpdateClientConnState_ringInv hb hok

/-- **Every ring the balancer holds answers a pick**: after any run of updates under a config
`parseConfig` accepted, the ring is not empty, and `pick` returns the first entry whose hash is
at least the request's, or the first entry when there is none; it never panics. -/
theorem ring_pick_first_at_least (hash : String → UInt64) {raw config : LBConfig}
    (hcfg : parseConfig raw = .ok config) (updates : List (List Address)) {b : ringhashBalancer}
    (hrun : updates.foldlM (fun b addrs => (UpdateClientConnState hash b config addrs).map (·.1))
      Build = .ok b)
    {r : ring} (hr : b.ring = some r) (h : UInt64) :
    ∃ e0, r.items.head? = some e0 ∧
      r.pick h = .ok ((r.items.find? fun e => decide (h ≤ e.hash)).getD e0) := by
  have hinv := ringInv_run hash config updates hrun
  have hnew := hinv.ring r hr
  obtain ⟨hmin, hmax⟩ := parseConfig_sizes hcfg
  -- the SubConns all weigh something, so the ring has a first entry
  obtain ⟨e0, he0⟩ := Option.isSome_iff_exists.mp
    (List.isSome_head?.mpr (newRing_ne_nil hnew hmin hmax hinv.weight))
  exact ⟨e0, he0, pick_eq_find (newRing_sorted hnew) he0 h⟩

/-- Entries hashed by the sum of their key's characters. -/
def charSum (s : String) : UInt64 := (s.toList.map Char.toNat).sum.toUInt64

/-- The balancer after one update of two addresses of weights one and three, under the sizes two
and four. -/
def sampleBalancer : ringhashBalancer :=
  match [[⟨"a", 1⟩, ⟨"b", 3⟩]].foldlM
      (fun b addrs => (UpdateClientConnState charSum b ⟨2, 4⟩ addrs).map (·.1)) Build with
  | .ok b => b
  | .error _ => Build

/-- Its ring. -/
def sampleRing : ring := sampleBalancer.ring.getD ⟨[], fun _ h => absurd h (Nat.not_lt_zero _)⟩

theorem ring_pick_first_at_least_sample :
    parseConfig ⟨2, 4⟩ = .ok ⟨2, 4⟩ ∧
      [[⟨"a", 1⟩, ⟨"b", 3⟩]].foldlM
        (fun b addrs => (UpdateClientConnState charSum b ⟨2, 4⟩ addrs).map (·.1)) Build =
          .ok sampleBalancer ∧
      sampleBalancer.ring = some sampleRing ∧
      ∃ e0, sampleRing.items.head? = some e0 ∧
        sampleRing.pick 146 = .ok ((sampleRing.items.find? fun e => decide (146 ≤ e.hash)).getD e0) :=
  ⟨rfl, rfl, rfl, @ring_pick_first_at_least charSum ⟨2, 4⟩ ⟨2, 4⟩ rfl [[⟨"a", 1⟩, ⟨"b", 3⟩]]
    sampleBalancer rfl sampleRing rfl 146⟩

end RingHash
end GrpcGo
