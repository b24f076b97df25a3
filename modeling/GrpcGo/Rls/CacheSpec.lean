import GrpcGo.Rls.Cache

/-!
# The RLS LRU cache: its representation invariant, and where the code breaks it

The representation of `LRU` is the invariant `Rep`: the linked elements are distinct handles of
stored entries, the map holds exactly the key of each linked entry, and `usedSize` is the sum of
their sizes.  Every call keeps it, except an `Add` of a key already present; over the runs that
keep away from that path, the list is ordered by how recently each key was added or read
(`Recency`), every unlinked element was reported to `onEvicted` exactly once (`Reported`), and each
`Add` or `Resize` leaves the cache within `maxSize` unless the eviction loop stopped at its back
entry, whose `EarliestEvictTime` is then set and already past.

The eviction loop is described once, by `removeToFitLoop_succ`; every fact about it follows from
that by induction on its fuel.
-/

namespace GrpcGo
namespace Rls
namespace Cache

open GoStd Machine

namespace LRU

variable {lru : LRU} {now : Nat} {newSize : Int}

/-! ## Fields -/

@[simp] theorem removeElement_ll (e : Nat) : (lru.removeElement e).2.ll = lru.ll.erase e := rfl
@[simp] theorem removeElement_elems (e : Nat) : (lru.removeElement e).2.elems = lru.elems := rfl
@[simp] theorem removeElement_maxSize (e : Nat) :
    (lru.removeElement e).2.maxSize = lru.maxSize := rfl
@[simp] theorem removeElement_onEvicted (e : Nat) :
    (lru.removeElement e).2.onEvicted = lru.onEvicted := rfl
@[simp] theorem value_removeElement (e : Nat) : (lru.removeElement e).2.value = lru.value := rfl

@[simp] theorem moveToFront_elems (e : Nat) : (lru.moveToFront e).elems = lru.elems := by
  unfold moveToFront; split <;> rfl
@[simp] theorem moveToFront_cache (e : Nat) : (lru.moveToFront e).cache = lru.cache := by
  unfold moveToFront; split <;> rfl
@[simp] theorem moveToFront_onEvicted (e : Nat) :
    (lru.moveToFront e).onEvicted = lru.onEvicted := by
  unfold moveToFront; split <;> rfl
@[simp] theorem moveToFront_usedSize (e : Nat) : (lru.moveToFront e).usedSize = lru.usedSize := by
  unfold moveToFront; split <;> rfl
@[simp] theorem moveToFront_maxSize (e : Nat) : (lru.moveToFront e).maxSize = lru.maxSize := by
  unfold moveToFront; split <;> rfl
@[simp] theorem value_moveToFront (e : Nat) : (lru.moveToFront e).value = lru.value := by
  unfold value; rw [moveToFront_elems]

/-- `MoveToFront` reorders the list. -/
theorem moveToFront_ll_perm (e : Nat) : (lru.moveToFront e).ll.Perm lru.ll := by
  unfold moveToFront
  split
  · exact (List.perm_cons_erase ‹_›).symm
  · exact List.Perm.refl _

/-! ## Reports -/

/-- The `onEvicted` calls for the elements `gone`, in that order. -/
def report (lru : LRU) (gone : List Nat) : List (Key × Entry) :=
  if lru.onEvicted then gone.map fun e => ((lru.value e).key, lru.value e) else []

@[simp] theorem report_nil : lru.report [] = [] := by
  unfold report; split <;> rfl

theorem report_append (gone gone' : List Nat) :
    lru.report (gone ++ gone') = lru.report gone ++ lru.report gone' := by
  unfold report; split <;> simp

theorem removeElement_fst (e : Nat) : (lru.removeElement e).1 = lru.report [e] := rfl

/-! ## The eviction loop -/

/-- Where the eviction loop may stop: the new entry fits, the list is empty, or the back entry's
`EarliestEvictTime` is set and already past `now`. -/
def LoopExit (now : Nat) (newSize : Int) (lru : LRU) : Prop :=
  lru.usedSize + newSize ≤ lru.maxSize ∨ lru.ll = [] ∨
    ∃ b, lru.ll.getLast? = some b ∧
      (lru.value b).EarliestEvictTime ≠ 0 ∧ (lru.value b).EarliestEvictTime < now

/-- **One round of the loop**: it stops where it may, leaving the cache as it is, or it unlinks the
back element and goes on. -/
theorem removeToFitLoop_succ (fuel : Nat) (lru : LRU) :
    (lru.removeToFitLoop now newSize (fuel + 1) = ([], lru) ∧ LoopExit now newSize lru) ∨
      ∃ elem, lru.ll.getLast? = some elem ∧
        lru.removeToFitLoop now newSize (fuel + 1) =
          ((lru.removeElement elem).1 ++
              ((lru.removeElement elem).2.removeToFitLoop now newSize fuel).1,
            ((lru.removeElement elem).2.removeToFitLoop now newSize fuel).2) := by
  rw [removeToFitLoop]
  by_cases hover : lru.usedSize + newSize > lru.maxSize
  · rw [if_pos hover]
    cases hlast : lru.ll.getLast? with
    | none => exact .inl ⟨rfl, .inr (.inl (List.getLast?_eq_none_iff.mp hlast))⟩
    | some elem =>
      dsimp only
      by_cases hstop : (lru.value elem).EarliestEvictTime ≠ 0 ∧
          (lru.value elem).EarliestEvictTime < now
      · rw [if_pos hstop]
        exact .inl ⟨rfl, .inr (.inr ⟨elem, hlast, hstop⟩)⟩
      · rw [if_neg hstop]
        exact .inr ⟨elem, rfl, rfl⟩
  · rw [if_neg hover]
    exact .inl ⟨rfl, .inl (by omega)⟩

/-- The loop changes only the list, the map and `usedSize`. -/
theorem removeToFitLoop_frame : ∀ (fuel : Nat) (lru : LRU),
    (lru.removeToFitLoop now newSize fuel).2.elems = lru.elems ∧
      (lru.removeToFitLoop now newSize fuel).2.maxSize = lru.maxSize ∧
      (lru.removeToFitLoop now newSize fuel).2.onEvicted = lru.onEvicted
  | 0, _ => ⟨rfl, rfl, rfl⟩
  | fuel + 1, lru => by
    rcases removeToFitLoop_succ fuel lru with ⟨h, -⟩ | ⟨elem, -, h⟩
    · rw [h]
      exact ⟨rfl, rfl, rfl⟩
    · rw [h]
      exact removeToFitLoop_frame fuel _

theorem value_removeToFitLoop (fuel : Nat) :
    (lru.removeToFitLoop now newSize fuel).2.value = lru.value := by
  unfold value
  rw [(removeToFitLoop_frame fuel lru).1]

theorem report_removeToFitLoop (fuel : Nat) :
    (lru.removeToFitLoop now newSize fuel).2.report = lru.report := by
  unfold report
  rw [value_removeToFitLoop, (removeToFitLoop_frame fuel lru).2.2]

/-- Unlinking the back element of a list with no element twice leaves the rest of it. -/
theorem erase_getLast {ll : List Nat} {elem : Nat} (hnd : ll.Nodup)
    (hlast : ll.getLast? = some elem) : ∃ init, ll = init ++ [elem] ∧ ll.erase elem = init := by
  obtain ⟨init, rfl⟩ := List.getLast?_eq_some_iff.mp hlast
  have hnotin : elem ∉ init := fun hmem =>
    (List.nodup_append.mp hnd).2.2 elem hmem elem (List.mem_singleton_self _) rfl
  refine ⟨init, rfl, ?_⟩
  rw [List.erase_append_right _ hnotin, List.erase_cons_head, List.append_nil]

/-- **The loop unlinks a suffix of the list, back first, and reports each element it unlinks.** -/
theorem removeToFitLoop_shape : ∀ (fuel : Nat) {lru : LRU}, lru.ll.Nodup →
    ∃ gone, lru.ll = (lru.removeToFitLoop now newSize fuel).2.ll ++ gone.reverse ∧
      (lru.removeToFitLoop now newSize fuel).1 = lru.report gone
  | 0, _, _ => ⟨[], by simp [removeToFitLoop], by simp [removeToFitLoop]⟩
  | fuel + 1, lru, hnd => by
    rcases removeToFitLoop_succ fuel lru with ⟨h, -⟩ | ⟨elem, hlast, h⟩
    · rw [h]
      exact ⟨[], by simp, by simp⟩
    · obtain ⟨init, hll, herase⟩ := erase_getLast hnd hlast
      -- the rest of the loop runs on the list without its back element
      have hnd' : (lru.removeElement elem).2.ll.Nodup := hnd.erase elem
      obtain ⟨gone, hgone, hout⟩ := removeToFitLoop_shape fuel hnd'
      rw [h]
      refine ⟨elem :: gone, ?_, ?_⟩
      · rw [List.reverse_cons, ← List.append_assoc, ← hgone, removeElement_ll, herase, hll]
      · rw [hout, removeElement_fst]
        exact (report_append [elem] gone).symm

theorem removeToFit_shape (now : Nat) (newSize : Int) (hnd : lru.ll.Nodup) :
    ∃ gone, lru.ll = (lru.removeToFit now newSize).2.ll ++ gone.reverse ∧
      (lru.removeToFit now newSize).1 = lru.report gone :=
  removeToFitLoop_shape _ hnd

/-- With fuel for every element, the loop runs until it may stop. -/
theorem removeToFitLoop_exit : ∀ (fuel : Nat) {lru : LRU}, lru.ll.length ≤ fuel →
    LoopExit now newSize (lru.removeToFitLoop now newSize fuel).2
  | 0, _, hlen => .inr (.inl (List.eq_nil_of_length_eq_zero (Nat.le_zero.mp hlen)))
  | fuel + 1, lru, hlen => by
    rcases removeToFitLoop_succ fuel lru with ⟨h, hexit⟩ | ⟨elem, hlast, h⟩
    · rw [h]
      exact hexit
    · rw [h]
      apply removeToFitLoop_exit fuel
      -- the back element is unlinked
      rw [removeElement_ll, List.length_erase_of_mem (List.mem_of_getLast? hlast)]
      omega

/-- `removeToFit` stops only where it may. -/
theorem removeToFit_exit : LoopExit now newSize (lru.removeToFit now newSize).2 :=
  removeToFitLoop_exit _ le_rfl


/-! ## The representation invariant -/

/-- **The representation of the cache.**  The linked elements are distinct handles of stored
entries; the map sends a key to an element exactly when the element is linked and its entry holds
that key; `usedSize` is the sum of the sizes of the linked entries, each the `entrySize` of its
key and value. -/
structure Rep (lru : LRU) : Prop where
  nodup : lru.ll.Nodup
  bound : ∀ e ∈ lru.ll, e < lru.elems.length
  keysNodup : (lru.cache.map Prod.fst).Nodup
  linked : ∀ k e, (k, e) ∈ lru.cache ↔ e ∈ lru.ll ∧ (lru.value e).key = k
  used : lru.usedSize = (lru.ll.map fun e => (lru.value e).size).sum
  sized : ∀ e ∈ lru.ll, (lru.value e).size = entrySize (lru.value e).key (lru.value e)

theorem rep_NewLRU (maxSize : Int) (onEvicted : Bool) : (NewLRU maxSize onEvicted).Rep where
  nodup := List.nodup_nil
  bound := fun _ h => absurd h List.not_mem_nil
  keysNodup := List.nodup_nil
  linked := fun _ _ => by simp [NewLRU]
  used := rfl
  sized := fun _ h => absurd h List.not_mem_nil

/-- Two linked elements with one key are one element. -/
theorem Rep.key_inj (h : lru.Rep) {e e' : Nat} (he : e ∈ lru.ll) (he' : e' ∈ lru.ll)
    (hk : (lru.value e).key = (lru.value e').key) : e = e' :=
  Map.eq_of_mem_of_mem h.keysNodup ((h.linked _ _).mpr ⟨he, rfl⟩)
    ((h.linked _ _).mpr ⟨he', hk.symm⟩)

/-- A key the map does not hold is the key of no linked entry. -/
theorem Rep.key_ne (h : lru.Rep) {k : Key} (hk : k ∉ lru.cache.map Prod.fst) {e : Nat}
    (he : e ∈ lru.ll) : (lru.value e).key ≠ k := fun hek =>
  hk (List.mem_map.mpr ⟨(k, e), (h.linked k e).mpr ⟨he, hek⟩, rfl⟩)

/-- The element the map gives for a key is linked, and holds that key. -/
theorem Rep.of_lookup (h : lru.Rep) {k : Key} {e : Nat} (hk : lru.cache.lookup k = some e) :
    e ∈ lru.ll ∧ (lru.value e).key = k :=
  (h.linked k e).mp (Map.mem_of_lookup_eq_some hk)

/-- A new `maxSize` keeps the representation. -/
theorem Rep.withMaxSize (h : lru.Rep) (maxSize : Int) : { lru with maxSize := maxSize }.Rep :=
  ⟨h.nodup, h.bound, h.keysNodup, h.linked, h.used, h.sized⟩

/-- `removeElement` of a linked element keeps the representation. -/
theorem Rep.removeElement (h : lru.Rep) {e : Nat} (he : e ∈ lru.ll) :
    (lru.removeElement e).2.Rep where
  nodup := h.nodup.erase e
  bound := fun e' he' => h.bound e' (List.erase_subset he')
  keysNodup := Map.nodup_keys_erase _ _ h.keysNodup
  linked := by
    intro k e'
    show (k, e') ∈ Map.erase (lru.value e).key lru.cache ↔
      e' ∈ lru.ll.erase e ∧ (lru.value e').key = k
    rw [Map.mem_erase h.keysNodup, h.linked, h.nodup.mem_erase_iff]
    constructor
    · rintro ⟨hk, he', rfl⟩
      exact ⟨⟨fun hee => hk (by rw [hee]), he'⟩, rfl⟩
    · rintro ⟨⟨hne, he'⟩, rfl⟩
      -- another linked element has another key
      exact ⟨fun hk => hne (h.key_inj he' he hk), he', rfl⟩
  used := by
    show lru.usedSize - (lru.value e).size =
      ((lru.ll.erase e).map fun e => (lru.value e).size).sum
    rw [h.used, ← List.sum_map_erase _ he]
    omega
  sized := fun e' he' => h.sized e' (List.erase_subset he')

/-- A reordering of the list, with the same entries, map and sizes, keeps the representation. -/
theorem Rep.of_perm (h : lru.Rep) {lru' : LRU} (hp : lru'.ll.Perm lru.ll)
    (helems : lru'.elems = lru.elems) (hcache : lru'.cache = lru.cache)
    (hused : lru'.usedSize = lru.usedSize) : lru'.Rep := by
  have hv : lru'.value = lru.value := by
    unfold value
    rw [helems]
  refine ⟨hp.nodup_iff.mpr h.nodup, ?_, ?_, ?_, ?_, ?_⟩
  · intro e he
    rw [helems]
    exact h.bound e (hp.subset he)
  · rw [hcache]
    exact h.keysNodup
  · intro k e
    rw [hcache, hv, h.linked, hp.mem_iff]
  · rw [hused, hv, h.used]
    exact ((hp.map _).sum_eq).symm
  · intro e he
    rw [hv]
    exact h.sized e (hp.subset he)

theorem Rep.moveToFront (h : lru.Rep) (e : Nat) : (lru.moveToFront e).Rep :=
  h.of_perm (moveToFront_ll_perm e) (moveToFront_elems e) (moveToFront_cache e)
    (moveToFront_usedSize e)

/-- The loop keeps the representation: each round unlinks a linked element. -/
theorem Rep.removeToFitLoop : ∀ (fuel : Nat) {lru : LRU}, lru.Rep →
    (lru.removeToFitLoop now newSize fuel).2.Rep
  | 0, _, h => h
  | fuel + 1, lru, h => by
    rcases removeToFitLoop_succ fuel lru with ⟨hl, -⟩ | ⟨elem, hlast, hl⟩
    · rw [hl]
      exact h
    · rw [hl]
      exact Rep.removeToFitLoop fuel (h.removeElement (List.mem_of_getLast? hlast))

theorem Rep.removeToFit (h : lru.Rep) (now : Nat) (newSize : Int) :
    (lru.removeToFit now newSize).2.Rep :=
  h.removeToFitLoop _

/-- The loop only unlinks: every entry of the map after it was in the map before. -/
theorem Rep.cache_removeToFit (h : lru.Rep) {p : Key × Nat}
    (hp : p ∈ (lru.removeToFit now newSize).2.cache) : p ∈ lru.cache := by
  obtain ⟨gone, hll, -⟩ := removeToFit_shape now newSize h.nodup
  obtain ⟨hel, hek⟩ := ((h.removeToFit now newSize).linked p.1 p.2).mp hp
  rw [LRU.removeToFit, value_removeToFitLoop] at hek
  have hel' : p.2 ∈ lru.ll := by
    rw [hll]
    exact List.mem_append_left _ hel
  exact (h.linked p.1 p.2).mpr ⟨hel', hek⟩

/-- A key the map does not hold is still absent after the loop. -/
theorem Rep.notMem_removeToFit (h : lru.Rep) {key : Key} (hk : key ∉ lru.cache.map Prod.fst) :
    key ∉ (lru.removeToFit now newSize).2.cache.map Prod.fst := by
  intro hmem
  obtain ⟨p, hp, hpk⟩ := List.mem_map.mp hmem
  exact hk (List.mem_map.mpr ⟨p, h.cache_removeToFit hp, hpk⟩)

/-! ## The calls -/

/-- `PushFront` of a new element holding `v`, and the map's assignment of `key` to it. -/
def pushed (lru : LRU) (key : Key) (v : Entry) : LRU :=
  { lru with usedSize := lru.usedSize + v.size, elems := lru.elems ++ [v],
             ll := lru.elems.length :: lru.ll, cache := Map.insert key lru.elems.length lru.cache }

@[simp] theorem pushed_onEvicted {key : Key} {v : Entry} :
    (lru.pushed key v).onEvicted = lru.onEvicted := rfl

theorem value_pushed_of_lt {key : Key} {v : Entry} {e : Nat} (he : e < lru.elems.length) :
    (lru.pushed key v).value e = lru.value e :=
  List.getD_append _ _ _ _ he

theorem value_pushed_self {key : Key} {v : Entry} :
    (lru.pushed key v).value lru.elems.length = v := by
  unfold value pushed
  rw [List.getD_append_right _ _ _ _ le_rfl, Nat.sub_self]
  rfl

/-- A new element for a key the map does not hold keeps the representation. -/
theorem Rep.pushed (h : lru.Rep) {key : Key} {v : Entry} (hk : key ∉ lru.cache.map Prod.fst)
    (hkey : v.key = key) (hsize : v.size = entrySize key v) : (lru.pushed key v).Rep := by
  have hfresh : lru.elems.length ∉ lru.ll := fun hmem => lt_irrefl _ (h.bound _ hmem)
  -- the old elements keep their entries
  have hold : ∀ e ∈ lru.ll, (lru.pushed key v).value e = lru.value e :=
    fun e he => value_pushed_of_lt (h.bound e he)
  refine ⟨List.nodup_cons.mpr ⟨hfresh, h.nodup⟩, ?_, Map.nodup_keys_insert _ _ _ h.keysNodup,
    ?_, ?_, ?_⟩
  · intro e he
    show e < (lru.elems ++ [v]).length
    rw [List.length_append, List.length_singleton]
    rcases List.mem_cons.mp he with rfl | he
    · omega
    · have := h.bound e he
      omega
  · intro k e
    show (k, e) ∈ Map.insert key lru.elems.length lru.cache ↔
      e ∈ lru.elems.length :: lru.ll ∧ ((lru.pushed key v).value e).key = k
    rw [Map.mem_insert h.keysNodup, List.mem_cons]
    by_cases he : e = lru.elems.length
    · subst he
      rw [value_pushed_self, hkey]
      constructor
      · rintro (hke | ⟨hmem, -⟩)
        · exact ⟨.inl rfl, (Prod.mk.inj hke).1.symm⟩
        · exact absurd ((h.linked _ _).mp hmem).1 hfresh
      · rintro ⟨-, rfl⟩
        exact .inl rfl
    · constructor
      · rintro (hke | ⟨hmem, -⟩)
        · exact absurd (Prod.mk.inj hke).2 he
        · obtain ⟨hel, hek⟩ := (h.linked k e).mp hmem
          rw [hold e hel]
          exact ⟨.inr hel, hek⟩
      · rintro ⟨he' | hel, hek⟩
        · exact absurd he' he
        · rw [hold e hel] at hek
          exact .inr ⟨(h.linked k e).mpr ⟨hel, hek⟩, fun hkk => h.key_ne hk hel (hek.trans hkk)⟩
  · have hmap : (lru.ll.map fun e => ((lru.pushed key v).value e).size) =
        lru.ll.map fun e => (lru.value e).size :=
      List.map_congr_left fun e he => by rw [hold e he]
    show lru.usedSize + v.size =
      ((lru.elems.length :: lru.ll).map fun e => ((lru.pushed key v).value e).size).sum
    rw [List.map_cons, List.sum_cons, value_pushed_self, hmap, h.used]
    omega
  · intro e he
    rcases List.mem_cons.mp he with rfl | hel
    · rw [value_pushed_self, hkey]
      exact hsize
    · rw [hold e hel]
      exact h.sized e hel

/-- `Add` of a key the cache does not hold: the loop makes room, then a new element goes in
front. -/
theorem Add_of_lookup_none {key : Key} {value : Entry} (hk : lru.cache.lookup key = none) :
    lru.Add now key value =
      ((lru.removeToFit now (entrySize key value)).1,
        (lru.removeToFit now (entrySize key value)).2.pushed key
          { value with size := entrySize key value, key := key }) := by
  simp only [Add, hk]
  rfl

theorem Get_of_lookup_some {key : Key} {elem : Nat} (hk : lru.cache.lookup key = some elem) :
    lru.Get key = (some (lru.value elem), lru.moveToFront elem) := by
  simp only [Get, hk]

theorem Get_of_lookup_none {key : Key} (hk : lru.cache.lookup key = none) :
    lru.Get key = (none, lru) := by
  simp only [Get, hk]

theorem Remove_of_lookup_some {key : Key} {elem : Nat} (hk : lru.cache.lookup key = some elem) :
    lru.Remove key = lru.removeElement elem := by
  simp only [Remove, hk]

theorem Remove_of_lookup_none {key : Key} (hk : lru.cache.lookup key = none) :
    lru.Remove key = ([], lru) := by
  simp only [Remove, hk]

theorem lookup_eq_none_of_notMem {key : Key} (hk : key ∉ lru.cache.map Prod.fst) :
    lru.cache.lookup key = none :=
  Option.not_isSome_iff_eq_none.mp fun hs => hk (Map.mem_keys_iff_isSome_lookup.mpr hs)

/-- **Every call but an `Add` of a key already present keeps the representation.** -/
theorem Rep.step (h : lru.Rep) {o : op} (ha : lru.AddsNew o) : (lru.step o).2.Rep := by
  cases o with
  | Add now key value =>
    have hk : key ∉ lru.cache.map Prod.fst := ha
    show (lru.Add now key value).2.Rep
    rw [Add_of_lookup_none (lookup_eq_none_of_notMem hk)]
    -- the loop only unlinks, so the key is still absent when the new element goes in
    exact (h.removeToFit now _).pushed (h.notMem_removeToFit hk) rfl rfl
  | Get key =>
    show (lru.Get key).2.Rep
    cases hlook : lru.cache.lookup key with
    | none =>
      rw [Get_of_lookup_none hlook]
      exact h
    | some elem =>
      rw [Get_of_lookup_some hlook]
      exact h.moveToFront elem
  | Remove key =>
    show (lru.Remove key).2.Rep
    cases hlook : lru.cache.lookup key with
    | none =>
      rw [Remove_of_lookup_none hlook]
      exact h
    | some elem =>
      rw [Remove_of_lookup_some hlook]
      exact h.removeElement (h.of_lookup hlook).1
  | Resize now newMaxSize =>
    exact (h.withMaxSize newMaxSize).removeToFit now 0

/-- The representation holds after every run that keeps away from the update path of `Add`. -/
theorem rep_invariant : Invariant AddsNew step Rep :=
  fun _ _ h ha => h.step ha

/-! ## Reports over a run -/

/-- **Every element that was linked and is no longer has been reported, once**: the reports made
so far are those of a list of such elements with no element twice, and every unlinked element is
in it. -/
def Reported (out : List (Key × Entry)) (lru : LRU) : Prop :=
  ∃ gone : List Nat, gone.Nodup ∧ (∀ e, e ∈ gone ↔ e < lru.elems.length ∧ e ∉ lru.ll) ∧
    out = lru.report gone

theorem reported_NewLRU (maxSize : Int) (onEvicted : Bool) :
    Reported [] (NewLRU maxSize onEvicted) :=
  ⟨[], List.nodup_nil, fun e => by simp [NewLRU], by simp⟩

variable {out : List (Key × Entry)}

/-- Unlinking the elements `gone'`, and reporting them, keeps the books. -/
theorem Reported.unlink (hb : Reported out lru) (h : lru.Rep) {lru' : LRU} {gone' : List Nat}
    (hp : lru.ll.Perm (lru'.ll ++ gone')) (helems : lru'.elems = lru.elems)
    (hev : lru'.onEvicted = lru.onEvicted) : Reported (out ++ lru.report gone') lru' := by
  obtain ⟨gone, hnd, hmem, rfl⟩ := hb
  have hnd' : (lru'.ll ++ gone').Nodup := hp.nodup_iff.mp h.nodup
  refine ⟨gone ++ gone', ?_, ?_, ?_⟩
  · apply List.nodup_append.mpr
    refine ⟨hnd, hnd'.of_append_right, ?_⟩
    -- an element reported before was no longer linked
    rintro a ha b hb rfl
    exact ((hmem a).mp ha).2 (hp.symm.subset (List.mem_append_right _ hb))
  · intro e
    rw [List.mem_append, hmem, helems]
    constructor
    · rintro (⟨hlt, hnot⟩ | hg)
      · exact ⟨hlt, fun hin => hnot (hp.symm.subset (List.mem_append_left _ hin))⟩
      · have hin : e ∈ lru.ll := hp.symm.subset (List.mem_append_right _ hg)
        exact ⟨h.bound e hin, fun hin' => (List.nodup_append.mp hnd').2.2 e hin' e hg rfl⟩
    · rintro ⟨hlt, hnot⟩
      by_cases hin : e ∈ lru.ll
      · rcases List.mem_append.mp (hp.subset hin) with h' | h'
        · exact absurd h' hnot
        · exact .inr h'
      · exact .inl ⟨hlt, hin⟩
  · have hrep : lru'.report = lru.report := by
      unfold report value
      rw [helems, hev]
    rw [hrep, report_append]

/-- Reordering the list keeps the books. -/
theorem Reported.reorder (hb : Reported out lru) (h : lru.Rep) {lru' : LRU}
    (hp : lru'.ll.Perm lru.ll) (helems : lru'.elems = lru.elems)
    (hev : lru'.onEvicted = lru.onEvicted) : Reported out lru' := by
  have hb' : Reported (out ++ lru.report []) lru' :=
    hb.unlink h (by simpa using hp.symm) helems hev
  rwa [report_nil, List.append_nil] at hb'

/-- A new element keeps the books: it is linked. -/
theorem Reported.pushed (hb : Reported out lru) {key : Key} {v : Entry} :
    Reported out (lru.pushed key v) := by
  obtain ⟨gone, hnd, hmem, rfl⟩ := hb
  refine ⟨gone, hnd, ?_, ?_⟩
  · intro e
    rw [hmem]
    show e < lru.elems.length ∧ e ∉ lru.ll ↔
      e < (lru.elems ++ [v]).length ∧ e ∉ lru.elems.length :: lru.ll
    rw [List.length_append, List.length_singleton, List.mem_cons, not_or]
    constructor
    · rintro ⟨hlt, hnot⟩
      exact ⟨by omega, by omega, hnot⟩
    · rintro ⟨hlt, hne, hnot⟩
      exact ⟨by omega, hnot⟩
  · unfold report
    rw [pushed_onEvicted]
    split
    · exact List.map_congr_left fun e he => by rw [value_pushed_of_lt ((hmem e).mp he).1]
    · rfl

/-- The loop keeps the books. -/
theorem Reported.removeToFit (hb : Reported out lru) (h : lru.Rep) (now : Nat) (newSize : Int) :
    Reported (out ++ (lru.removeToFit now newSize).1) (lru.removeToFit now newSize).2 := by
  obtain ⟨gone, hll, hout⟩ := removeToFit_shape now newSize h.nodup
  rw [hout]
  have hp : lru.ll.Perm ((lru.removeToFit now newSize).2.ll ++ gone) := by
    rw [hll]
    exact (List.reverse_perm gone).append_left _
  exact hb.unlink h hp (removeToFitLoop_frame _ lru).1 (removeToFitLoop_frame _ lru).2.2

/-- **Every call but an `Add` of a key already present keeps the books.** -/
theorem Reported.step (hb : Reported out lru) (h : lru.Rep) {o : op} (ha : lru.AddsNew o) :
    Reported (out ++ (lru.step o).1) (lru.step o).2 := by
  cases o with
  | Add now key value =>
    show Reported (out ++ (lru.Add now key value).1) (lru.Add now key value).2
    rw [Add_of_lookup_none (lookup_eq_none_of_notMem ha)]
    exact (hb.removeToFit h now _).pushed
  | Get key =>
    show Reported (out ++ []) (lru.Get key).2
    rw [List.append_nil]
    cases hlook : lru.cache.lookup key with
    | none =>
      rw [Get_of_lookup_none hlook]
      exact hb
    | some elem =>
      rw [Get_of_lookup_some hlook]
      exact hb.reorder h (moveToFront_ll_perm elem) (moveToFront_elems elem)
        (moveToFront_onEvicted elem)
  | Remove key =>
    show Reported (out ++ (lru.Remove key).1) (lru.Remove key).2
    cases hlook : lru.cache.lookup key with
    | none =>
      rw [Remove_of_lookup_none hlook, List.append_nil]
      exact hb
    | some elem =>
      rw [Remove_of_lookup_some hlook, removeElement_fst]
      have hin := (h.of_lookup hlook).1
      exact hb.unlink h ((List.perm_cons_erase hin).trans (List.perm_append_singleton _ _).symm)
        rfl rfl
  | Resize now newMaxSize =>
    have hb' : Reported out { lru with maxSize := newMaxSize } := hb
    exact hb'.removeToFit (h.withMaxSize newMaxSize) now 0

/-! ## Recency -/

/-- Whether a call adds or reads the key `k`. -/
def touches (k : Key) : op → Bool
  | .Add _ key _ => key == k
  | .Get key => key == k
  | _ => false

/-- The last call of the newest-first history `es` that adds or reads `k`, counted from `1` at the
oldest call; `0` if none does. -/
def lastTouchRev (k : Key) : List op → Nat
  | [] => 0
  | o :: es => if touches k o then es.length + 1 else lastTouchRev k es

/-- The position, counted from `1`, of the last call of the history `es` that adds or reads `k`;
`0` if none does. -/
def lastTouch (es : List op) (k : Key) : Nat :=
  lastTouchRev k es.reverse

theorem lastTouch_append_singleton (es : List op) (o : op) (k : Key) :
    lastTouch (es ++ [o]) k = if touches k o then es.length + 1 else lastTouch es k := by
  simp [lastTouch, lastTouchRev]

theorem lastTouchRev_le (k : Key) : ∀ es : List op, lastTouchRev k es ≤ es.length
  | [] => le_rfl
  | o :: es => by
    unfold lastTouchRev
    split
    · exact le_rfl
    · have := lastTouchRev_le k es
      rw [List.length_cons]
      omega

theorem lastTouch_le (es : List op) (k : Key) : lastTouch es k ≤ es.length := by
  have := lastTouchRev_le k es.reverse
  rwa [List.length_reverse] at this

/-- **The list runs from the most to the least recently added or read key**, and every linked
key was added or read. -/
def Recency (es : List op) (lru : LRU) : Prop :=
  (lru.ll.map fun e => lastTouch es (lru.value e).key).Pairwise (· > ·) ∧
    ∀ e ∈ lru.ll, 0 < lastTouch es (lru.value e).key

theorem recency_NewLRU (maxSize : Int) (onEvicted : Bool) :
    Recency [] (NewLRU maxSize onEvicted) :=
  ⟨List.Pairwise.nil, fun _ h => absurd h List.not_mem_nil⟩

/-- Dropping elements, with the touches of the kept keys as they were, keeps the order. -/
theorem Recency.mono {es es' : List op} {lru' : LRU} (hr : Recency es lru)
    (hs : lru'.ll.Sublist lru.ll)
    (hv : ∀ e ∈ lru'.ll, lastTouch es' (lru'.value e).key = lastTouch es (lru.value e).key) :
    Recency es' lru' := by
  obtain ⟨hpair, hpos⟩ := hr
  have hmap : (lru'.ll.map fun e => lastTouch es' (lru'.value e).key) =
      lru'.ll.map fun e => lastTouch es (lru.value e).key :=
    List.map_congr_left hv
  refine ⟨?_, fun e he => ?_⟩
  · rw [hmap]
    exact hpair.sublist (hs.map _)
  · rw [hv e he]
    exact hpos e (hs.subset he)

/-- A call that touches no linked key keeps the order of a list it only shortens. -/
theorem Recency.untouched {es : List op} {o : op} {lru' : LRU} (hr : Recency es lru)
    (hs : lru'.ll.Sublist lru.ll) (hv : lru'.value = lru.value)
    (ht : ∀ e ∈ lru'.ll, touches (lru.value e).key o = false) : Recency (es ++ [o]) lru' :=
  hr.mono hs fun e he => by rw [hv, lastTouch_append_singleton, if_neg (by simp [ht e he])]

/-- A front element whose key the call touches, before a list whose keys it does not touch,
keeps the order. -/
theorem Recency.push {es : List op} {o : op} {lru' : LRU} {e : Nat} (hr : Recency es lru)
    (hll : lru'.ll = e :: lru.ll)
    (hv : ∀ e' ∈ lru.ll, lru'.value e' = lru.value e' ∧ touches (lru.value e').key o = false)
    (he : touches (lru'.value e).key o = true) : Recency (es ++ [o]) lru' := by
  obtain ⟨hpair, hpos⟩ := hr
  have hrest : ∀ e' ∈ lru.ll,
      lastTouch (es ++ [o]) (lru'.value e').key = lastTouch es (lru.value e').key := by
    intro e' he'
    obtain ⟨hv', ht⟩ := hv e' he'
    rw [hv', lastTouch_append_singleton, ht, if_neg Bool.false_ne_true]
  have hfront : lastTouch (es ++ [o]) (lru'.value e).key = es.length + 1 := by
    rw [lastTouch_append_singleton, if_pos he]
  unfold Recency
  rw [hll, List.map_cons, List.pairwise_cons]
  refine ⟨⟨?_, ?_⟩, ?_⟩
  · -- the front key was touched last
    intro b hb
    obtain ⟨e', he', rfl⟩ := List.mem_map.mp hb
    rw [hfront, hrest e' he']
    have := lastTouch_le es (lru.value e').key
    omega
  · rw [List.map_congr_left hrest]
    exact hpair
  · intro e' he'
    rcases List.mem_cons.mp he' with rfl | he'
    · rw [hfront]
      omega
    · rw [hrest e' he']
      exact hpos e' he'

/-- **Every call but an `Add` of a key already present keeps the list in order of recency.** -/
theorem Recency.step {es : List op} (hr : Recency es lru) (h : lru.Rep) {o : op}
    (ha : lru.AddsNew o) : Recency (es ++ [o]) (lru.step o).2 := by
  cases o with
  | Add now key value =>
    have hk : key ∉ lru.cache.map Prod.fst := ha
    show Recency _ (lru.Add now key value).2
    rw [Add_of_lookup_none (lookup_eq_none_of_notMem hk)]
    obtain ⟨gone, hll, -⟩ := removeToFit_shape now (entrySize key value) h.nodup
    have hr' : Recency es (lru.removeToFit now (entrySize key value)).2 := by
      refine hr.mono ?_ fun e _ => by rw [LRU.removeToFit, value_removeToFitLoop]
      rw [hll]
      exact List.sublist_append_left _ _
    have hrep := h.removeToFit now (entrySize key value)
    refine hr'.push rfl (fun e' he' => ⟨value_pushed_of_lt (hrep.bound e' he'), ?_⟩) ?_
    · -- the key added is the key of no linked entry
      exact beq_eq_false_iff_ne.mpr (hrep.key_ne (h.notMem_removeToFit hk) he').symm
    · rw [value_pushed_self]
      exact beq_self_eq_true key
  | Get key =>
    show Recency _ (lru.Get key).2
    cases hlook : lru.cache.lookup key with
    | none =>
      rw [Get_of_lookup_none hlook]
      have hk : key ∉ lru.cache.map Prod.fst := fun hmem => by
        rw [Map.mem_keys_iff_isSome_lookup, hlook] at hmem
        exact Bool.false_ne_true hmem
      exact hr.untouched (List.Sublist.refl _) rfl fun e he =>
        beq_eq_false_iff_ne.mpr (h.key_ne hk he).symm
    | some elem =>
      rw [Get_of_lookup_some hlook]
      obtain ⟨hin, hkey⟩ := h.of_lookup hlook
      -- first the list without the element read, then the element in front
      have hr' : Recency es { lru with ll := lru.ll.erase elem } :=
        hr.mono List.erase_sublist fun _ _ => rfl
      refine hr'.push (e := elem) ?_ (fun e' he' => ⟨by rw [value_moveToFront]; rfl, ?_⟩) ?_
      · unfold moveToFront
        rw [if_pos hin]
      · have hne : e' ≠ elem := ((h.nodup.mem_erase_iff).mp he').1
        refine beq_eq_false_iff_ne.mpr fun hk => hne (h.key_inj (List.erase_subset he') hin ?_)
        exact hk.symm.trans hkey.symm
      · rw [value_moveToFront, hkey]
        exact beq_self_eq_true key
  | Remove key =>
    show Recency _ (lru.Remove key).2
    cases hlook : lru.cache.lookup key with
    | none =>
      rw [Remove_of_lookup_none hlook]
      exact hr.untouched (List.Sublist.refl _) rfl fun _ _ => rfl
    | some elem =>
      rw [Remove_of_lookup_some hlook]
      exact hr.untouched List.erase_sublist rfl fun _ _ => rfl
  | Resize now newMaxSize =>
    have hr' : Recency es { lru with maxSize := newMaxSize } := hr
    obtain ⟨gone, hll, -⟩ := removeToFit_shape now 0
      (show ({ lru with maxSize := newMaxSize } : LRU).ll.Nodup from h.nodup)
    refine hr'.untouched ?_ (value_removeToFitLoop _) fun _ _ => rfl
    rw [hll]
    exact List.sublist_append_left _ _

/-! ## Whole runs -/

/-- **The representation, the order of recency and the eviction reports hold after every run
that keeps away from the update path of `Add`.** -/
theorem lru_run_invariants (maxSize : Int) (onEvicted : Bool) (es : List op)
    (hes : Admits AddsNew step (NewLRU maxSize onEvicted) es) :
    (run step (NewLRU maxSize onEvicted) es).2.Rep ∧
      Recency es (run step (NewLRU maxSize onEvicted) es).2 ∧
      Reported (run step (NewLRU maxSize onEvicted) es).1 (run step (NewLRU maxSize onEvicted) es).2 := by
  have hrep := rep_NewLRU maxSize onEvicted
  refine ⟨rep_invariant.run hrep hes, ?_, ?_⟩
  · -- the history so far carries the order
    have hrun := @Invariant.history LRU op (Key × Entry) AddsNew step Rep
      (fun pre _ s => Recency pre s) (fun _ => True) rep_invariant (fun _ _ _ => trivial)
      (fun _ _ _ _ h ha _ hr => hr.step h ha) es [] [] _ hrep hes trivial
      (recency_NewLRU maxSize onEvicted)
    simpa using hrun
  · have hrun := rep_invariant.outputs (P := Reported)
      (fun _ _ _ h ha hb => Reported.step hb h ha) hrep hes
      (reported_NewLRU maxSize onEvicted)
    simpa using hrun

/-! ## The size bound -/

/-- **After `Resize` the cache is within `maxSize`, or empty, or the loop stopped at the back
entry, whose `EarliestEvictTime` is set and already past.** -/
theorem Resize_within_maxSize (now : Nat) (newMaxSize : Int) :
    LoopExit now 0 (lru.Resize now newMaxSize).2 :=
  removeToFit_exit

/-- **After an `Add` of a new key the cache is within `maxSize`, or it holds the new entry alone,
or the loop stopped at the back entry, whose `EarliestEvictTime` is set and already past.** -/
theorem Add_within_maxSize (h : lru.Rep) {key : Key} {value : Entry}
    (hk : key ∉ lru.cache.map Prod.fst) :
    (lru.Add now key value).2.usedSize ≤ (lru.Add now key value).2.maxSize ∨
      (lru.Add now key value).2.ll.length = 1 ∨
      ∃ b, (lru.Add now key value).2.ll.getLast? = some b ∧
        ((lru.Add now key value).2.value b).EarliestEvictTime ≠ 0 ∧
        ((lru.Add now key value).2.value b).EarliestEvictTime < now := by
  rw [Add_of_lookup_none (lookup_eq_none_of_notMem hk)]
  have hrep := h.removeToFit now (entrySize key value)
  have hexit : LoopExit now (entrySize key value) (lru.removeToFit now (entrySize key value)).2 :=
    removeToFit_exit
  rcases hexit with hfit | hnil | ⟨b, hb, hstop⟩
  · exact .inl hfit
  · refine .inr (.inl ?_)
    show (_ :: (lru.removeToFit now (entrySize key value)).2.ll).length = 1
    rw [hnil]
    rfl
  · -- the back entry is the one the loop stopped at
    have hbin := List.mem_of_getLast? hb
    refine .inr (.inr ⟨b, ?_, ?_⟩)
    · show (_ :: (lru.removeToFit now (entrySize key value)).2.ll).getLast? = some b
      rw [List.getLast?_cons, hb]
      rfl
    · rw [value_pushed_of_lt (hrep.bound b hbin)]
      exact hstop

/-- **Where the code leaves the representation, and where its eviction guard stops.**  An update
of a key with a fresh entry stores the zero key: the entry's key no longer matches the map, and
two `Remove`s then report the entry twice, under the zero key.  An update that grows the only
entry past `maxSize` evicts the very element it updates, and `usedSize` keeps the new size with
nothing linked.  The eviction loop stops at a back entry whose `EarliestEvictTime` is already
past, leaving `usedSize` 4 over a `maxSize` of 2, and evicts one whose `EarliestEvictTime` is
still ahead. -/
theorem lru_update_and_eviction_guard_diverge :
    ¬ (run step (NewLRU 100 true)
        [.Add 0 ⟨"a", ""⟩ ⟨0, "", 0, default⟩, .Add 0 ⟨"a", ""⟩ ⟨0, "h", 0, default⟩]).2.Rep ∧
      (run step (NewLRU 100 true)
          [.Add 0 ⟨"a", ""⟩ ⟨0, "", 0, default⟩, .Add 0 ⟨"a", ""⟩ ⟨0, "h", 0, default⟩,
            .Remove ⟨"a", ""⟩, .Remove ⟨"a", ""⟩]).1 =
        [(default, ⟨0, "h", 2, default⟩), (default, ⟨0, "h", 2, default⟩)] ∧
      ¬ (run step (NewLRU 5 true)
          [.Add 0 ⟨"a", ""⟩ ⟨0, "", 0, default⟩, .Add 0 ⟨"a", ""⟩ ⟨0, "xxxxxx", 0, default⟩]).2.Rep ∧
      (run step (NewLRU 2 true)
          [.Add 0 ⟨"a", ""⟩ ⟨1, "", 0, default⟩, .Add 5 ⟨"b", ""⟩ ⟨0, "xx", 0, default⟩]).2 =
        ⟨2, 4, true, [1, 0], [⟨1, "", 1, ⟨"a", ""⟩⟩, ⟨0, "xx", 3, ⟨"b", ""⟩⟩],
          [(⟨"a", ""⟩, 0), (⟨"b", ""⟩, 1)]⟩ ∧
      (run step (NewLRU 2 true)
          [.Add 0 ⟨"a", ""⟩ ⟨9, "", 0, default⟩, .Add 5 ⟨"b", ""⟩ ⟨0, "xx", 0, default⟩]).1 =
        [(⟨"a", ""⟩, ⟨9, "", 1, ⟨"a", ""⟩⟩)] := by
  refine ⟨?_, by decide, ?_, by decide, by decide⟩
  · intro h
    have hs : (run step (NewLRU 100 true)
        [.Add 0 ⟨"a", ""⟩ ⟨0, "", 0, default⟩, .Add 0 ⟨"a", ""⟩ ⟨0, "h", 0, default⟩]).2 =
        ⟨100, 2, true, [0], [⟨0, "h", 2, default⟩], [(⟨"a", ""⟩, 0)]⟩ := by decide
    rw [hs] at h
    -- the map sends "a" to an element whose entry holds the zero key
    have hkey := ((h.linked ⟨"a", ""⟩ 0).mp (List.mem_singleton_self _)).2
    exact absurd hkey (by decide)
  · intro h
    have hs : (run step (NewLRU 5 true)
        [.Add 0 ⟨"a", ""⟩ ⟨0, "", 0, default⟩, .Add 0 ⟨"a", ""⟩ ⟨0, "xxxxxx", 0, default⟩]).2 =
        ⟨5, 6, true, [], [⟨0, "xxxxxx", 7, default⟩], []⟩ := by decide
    rw [hs] at h
    -- nothing is linked, yet `usedSize` is 6
    exact absurd h.used (by decide)

end LRU

end Cache
end Rls
end GrpcGo
