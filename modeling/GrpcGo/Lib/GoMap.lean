import Mathlib

/-!
# Go maps as lists of entries

A Go `map[K]V` is held as the list of its entries in one iteration order, with no key twice.
`insert` is the assignment `m[k] = v`: it overwrites the entry of `k` where there is one and
adds an entry otherwise; `erase` is `delete(m, k)`.  The main fact is `mem_foldl_insert`: a map built by a sequence of
assignments holds, for each key, the value of the last assignment to it.  Go leaves the
iteration order unspecified, so results that read a map are stated up to `List.Perm`.
-/

namespace GoStd
namespace Map

variable {α κ ν : Type _} [DecidableEq κ]

/-- `m[k] = v`. -/
def insert (k : κ) (v : ν) : List (κ × ν) → List (κ × ν)
  | [] => [(k, v)]
  | (k', v') :: m => if k' = k then (k, v) :: m else (k', v') :: insert k v m

theorem keys_insert_subset (k : κ) (v : ν) :
    ∀ (m : List (κ × ν)) (e : κ × ν), e ∈ insert k v m → e = (k, v) ∨ e ∈ m
  | [], e, h => by simpa [insert] using h
  | (k', v') :: m, e, h => by
    unfold insert at h
    split at h
    · rcases List.mem_cons.mp h with rfl | hm
      · exact .inl rfl
      · exact .inr (List.mem_cons_of_mem _ hm)
    · rcases List.mem_cons.mp h with rfl | hm
      · exact .inr List.mem_cons_self
      · rcases keys_insert_subset k v m e hm with he | he
        · exact .inl he
        · exact .inr (List.mem_cons_of_mem _ he)

theorem nodup_keys_insert (k : κ) (v : ν) :
    ∀ (m : List (κ × ν)), (m.map Prod.fst).Nodup → ((insert k v m).map Prod.fst).Nodup
  | [], _ => by simp [insert]
  | (k', v') :: m, h => by
    rw [List.map_cons, List.nodup_cons] at h
    obtain ⟨hk', hm⟩ := h
    unfold insert
    split
    · rename_i hk
      subst hk
      simpa using And.intro hk' hm
    · rename_i hk
      rw [List.map_cons, List.nodup_cons]
      refine ⟨?_, nodup_keys_insert k v m hm⟩
      intro hmem
      obtain ⟨e, he, hek⟩ := List.mem_map.mp hmem
      rcases keys_insert_subset k v m e he with rfl | he'
      · exact hk hek.symm
      · exact hk' (List.mem_map.mpr ⟨e, he', hek⟩)

/-- After `m[k] = v`, the entries are `(k, v)` and the entries of `m` of other keys. -/
theorem mem_insert {k : κ} {v : ν} :
    ∀ {m : List (κ × ν)}, (m.map Prod.fst).Nodup →
      ∀ e, e ∈ insert k v m ↔ e = (k, v) ∨ (e ∈ m ∧ e.1 ≠ k)
  | [], _, e => by simp [insert]
  | (k', v') :: m, h, e => by
    rw [List.map_cons, List.nodup_cons] at h
    obtain ⟨hk', hm⟩ := h
    unfold insert
    split
    · rename_i hk
      subst hk
      -- The entry of `k` is replaced; no other entry of `m` has key `k`.
      have hother : ∀ e ∈ m, e.1 ≠ k' := fun e he hek =>
        hk' (List.mem_map.mpr ⟨e, he, hek⟩)
      rw [List.mem_cons, List.mem_cons]
      constructor
      · rintro (rfl | he)
        · exact .inl rfl
        · exact .inr ⟨.inr he, hother e he⟩
      · rintro (rfl | ⟨rfl | he, hek⟩)
        · exact .inl rfl
        · exact absurd rfl hek
        · exact .inr he
    · rename_i hk
      rw [List.mem_cons, mem_insert hm e, List.mem_cons]
      constructor
      · rintro (rfl | rfl | ⟨he, hek⟩)
        · exact .inr ⟨.inl rfl, hk⟩
        · exact .inl rfl
        · exact .inr ⟨.inr he, hek⟩
      · rintro (rfl | ⟨rfl | he, hek⟩)
        · exact .inr (.inl rfl)
        · exact .inl rfl
        · exact .inr (.inr ⟨he, hek⟩)

/-- Reading `m[k']` after `m[k] = v`. -/
theorem lookup_insert (k k' : κ) (v : ν) :
    ∀ m : List (κ × ν), (insert k v m).lookup k' = if k' = k then some v else m.lookup k'
  | [] => by
    by_cases h : k' = k
    · simp [insert, h]
    · simp [insert, List.lookup, beq_eq_false_iff_ne.mpr h, h]
  | (k'', v'') :: m => by
    unfold insert
    split
    · rename_i hk
      subst hk
      by_cases h : k' = k''
      · simp [List.lookup, h]
      · simp [List.lookup, beq_eq_false_iff_ne.mpr h, h]
    · rename_i hk
      rw [List.lookup_cons, List.lookup_cons, lookup_insert k k' v m]
      by_cases h : k' = k''
      · subst h
        simp [hk]
      · simp [beq_eq_false_iff_ne.mpr h]

/-- Assigning a key the map does not hold adds it last. -/
theorem keys_insert_of_notMem {k : κ} (v : ν) :
    ∀ {m : List (κ × ν)}, k ∉ m.map Prod.fst → (insert k v m).map Prod.fst = m.map Prod.fst ++ [k]
  | [], _ => rfl
  | (k', v') :: m, h => by
    rw [List.map_cons, List.mem_cons, not_or] at h
    unfold insert
    rw [if_neg (Ne.symm h.1), List.map_cons, List.map_cons, keys_insert_of_notMem v h.2]
    rfl

/-- Assigning a key the map does not hold adds its entry last. -/
theorem insert_of_notMem {k : κ} (v : ν) :
    ∀ {m : List (κ × ν)}, k ∉ m.map Prod.fst → insert k v m = m ++ [(k, v)]
  | [], _ => rfl
  | (k', v') :: m, h => by
    rw [List.map_cons, List.mem_cons, not_or] at h
    unfold insert
    rw [if_neg (Ne.symm h.1), insert_of_notMem v h.2]
    rfl

/-- Assigning distinct fresh keys one after the other adds them in that order. -/
theorem keys_foldl_insert_of_nodup (key : α → κ) (val : α → ν) :
    ∀ (xs : List α) {m : List (κ × ν)}, (m.map Prod.fst ++ xs.map key).Nodup →
      (xs.foldl (fun m x => insert (key x) (val x) m) m).map Prod.fst = m.map Prod.fst ++ xs.map key
  | [], m, _ => by simp
  | x :: xs, m, h => by
    have hx : key x ∉ m.map Prod.fst := fun hmem =>
      List.disjoint_of_nodup_append h hmem List.mem_cons_self
    have hrest : ((insert (key x) (val x) m).map Prod.fst ++ xs.map key).Nodup := by
      rw [keys_insert_of_notMem (val x) hx, List.append_assoc]
      exact h
    rw [List.foldl_cons, keys_foldl_insert_of_nodup key val xs hrest,
      keys_insert_of_notMem (val x) hx, List.append_assoc]
    rfl

/-- **The last assignment wins.**  The map built from `m` by assigning `f x` for each `x` of
`xs` in turn holds the entries of `m` whose key no `x` assigns, and `f x` for each `x` that no
later element assigns the same key. -/
theorem mem_foldl_insert (f : α → κ × ν) :
    ∀ (xs : List α) {m : List (κ × ν)}, (m.map Prod.fst).Nodup → ∀ e,
      e ∈ xs.foldl (fun m x => insert (f x).1 (f x).2 m) m ↔
        (e ∈ m ∧ ∀ y ∈ xs, (f y).1 ≠ e.1) ∨
          ∃ pre x post, xs = pre ++ x :: post ∧ (∀ y ∈ post, (f y).1 ≠ (f x).1) ∧ e = f x
  | [], m, _, e => by simp
  | x :: xs, m, hm, e => by
    rw [List.foldl_cons, mem_foldl_insert f xs (nodup_keys_insert _ _ m hm) e,
      mem_insert hm e]
    constructor
    · rintro (⟨rfl | ⟨he, hek⟩, hlater⟩ | ⟨pre, y, post, rfl, hpost, rfl⟩)
      · exact .inr ⟨[], x, xs, rfl, hlater, rfl⟩
      · refine .inl ⟨he, ?_⟩
        rintro y (_ | ⟨_, hy⟩)
        · exact fun h => hek h.symm
        · exact hlater y hy
      · exact .inr ⟨x :: pre, y, post, rfl, hpost, rfl⟩
    · rintro (⟨he, hall⟩ | ⟨pre, y, post, hsplit, hpost, rfl⟩)
      · refine .inl ⟨.inr ⟨he, fun h => hall x List.mem_cons_self h.symm⟩, ?_⟩
        exact fun y hy => hall y (List.mem_cons_of_mem _ hy)
      · cases pre with
        | nil =>
          obtain ⟨rfl, rfl⟩ := List.cons.inj hsplit
          exact .inl ⟨.inl rfl, hpost⟩
        | cons z pre =>
          obtain ⟨rfl, rfl⟩ := List.cons.inj hsplit
          exact .inr ⟨pre, y, post, rfl, hpost, rfl⟩

/-- `delete(m, k)`. -/
def erase (k : κ) : List (κ × ν) → List (κ × ν)
  | [] => []
  | (k', v') :: m => if k' = k then m else (k', v') :: erase k m

/-- Reading `m[k']` after `delete(m, k)`, in a map with no key twice. -/
theorem lookup_erase (k k' : κ) :
    ∀ m : List (κ × ν), (m.map Prod.fst).Nodup →
      (erase k m).lookup k' = if k' = k then none else m.lookup k'
  | [], _ => by simp [erase]
  | (k'', v'') :: m, h => by
    rw [List.map_cons, List.nodup_cons] at h
    unfold erase
    split
    · rename_i hk
      subst hk
      by_cases h' : k' = k''
      · -- the only entry of `k''` is the one deleted
        subst h'
        have hnone : m.lookup k' = none := by
          rw [List.lookup_eq_none_iff]
          intro p hp
          rw [bne_iff_ne, ne_eq]
          intro hk
          exact h.1 (List.mem_map.mpr ⟨p, hp, hk.symm⟩)
        simp [hnone]
      · simp [List.lookup, beq_eq_false_iff_ne.mpr h', h']
    · rename_i hk
      rw [List.lookup_cons, List.lookup_cons, lookup_erase k k' m h.2]
      by_cases h' : k' = k''
      · subst h'
        simp [hk]
      · simp [beq_eq_false_iff_ne.mpr h']

theorem erase_subset (k : κ) : ∀ (m : List (κ × ν)) (e : κ × ν), e ∈ erase k m → e ∈ m
  | [], _, h => by simp [erase] at h
  | (k', v') :: m, e, h => by
    unfold erase at h
    split at h
    · exact List.mem_cons_of_mem _ h
    · rcases List.mem_cons.mp h with rfl | hm
      · exact List.mem_cons_self
      · exact List.mem_cons_of_mem _ (erase_subset k m e hm)

theorem nodup_keys_erase (k : κ) :
    ∀ (m : List (κ × ν)), (m.map Prod.fst).Nodup → ((erase k m).map Prod.fst).Nodup
  | [], _ => by simp [erase]
  | (k', v') :: m, h => by
    rw [List.map_cons, List.nodup_cons] at h
    unfold erase
    split
    · exact h.2
    · rw [List.map_cons, List.nodup_cons]
      refine ⟨fun hmem => h.1 ?_, nodup_keys_erase k m h.2⟩
      obtain ⟨e, he, hek⟩ := List.mem_map.mp hmem
      exact List.mem_map.mpr ⟨e, erase_subset k m e he, hek⟩

/-- In a map with no key twice, the entry a read finds and the map without its key make up the
map. -/
theorem perm_cons_erase {k : κ} {v : ν} :
    ∀ {m : List (κ × ν)}, (m.map Prod.fst).Nodup → m.lookup k = some v →
      m.Perm ((k, v) :: erase k m)
  | [], _, h => by simp at h
  | (k', v') :: m, hm, h => by
    rw [List.map_cons, List.nodup_cons] at hm
    unfold erase
    by_cases hk : k = k'
    · subst hk
      have hv : v' = v := by simpa using h
      subst hv
      simp
    · rw [if_neg (Ne.symm hk)]
      have h' : m.lookup k = some v := by simpa [List.lookup, beq_eq_false_iff_ne.mpr hk] using h
      -- the entry of `k` is in the rest, past the head of another key
      exact ((perm_cons_erase hm.2 h').cons _).trans (List.Perm.swap _ _ _)

/-- `m[k] = v` holds `(k, v)` and the entries of `m` but the first of `k`. -/
theorem perm_insert (k : κ) (v : ν) :
    ∀ m : List (κ × ν), (insert k v m).Perm ((k, v) :: erase k m)
  | [] => by simp [insert, erase]
  | (k', v') :: m => by
    by_cases hk : k' = k
    · simp only [insert, erase, if_pos hk, List.Perm.refl]
    · simp only [insert, erase, if_neg hk]
      exact ((perm_insert k v m).cons _).trans (List.Perm.swap _ _ _)

/-- Deleting a key the map does not hold leaves it as it is. -/
theorem erase_of_lookup_none {k : κ} :
    ∀ {m : List (κ × ν)}, m.lookup k = none → erase k m = m
  | [], _ => rfl
  | (k', v') :: m, h => by
    by_cases hk : k = k'
    · subst hk
      simp at h
    · have h' : m.lookup k = none := by simpa [List.lookup, beq_eq_false_iff_ne.mpr hk] using h
      simp only [erase, if_neg (Ne.symm hk), erase_of_lookup_none h']

/-- Deleting the key just assigned deletes its old entry. -/
theorem erase_insert_self (k : κ) (v : ν) :
    ∀ m : List (κ × ν), erase k (insert k v m) = erase k m
  | [] => by simp [insert, erase]
  | (k', v') :: m => by
    unfold insert
    split
    · rename_i hk
      simp [erase, hk]
    · rename_i hk
      simp only [erase, if_neg hk, erase_insert_self k v m]

/-- A key is in the map exactly when reading it finds an entry. -/
theorem mem_keys_iff_isSome_lookup {k : κ} {m : List (κ × ν)} :
    k ∈ m.map Prod.fst ↔ (m.lookup k).isSome := by
  constructor
  · intro hk
    obtain ⟨p, hp, rfl⟩ := List.mem_map.mp hk
    cases hl : m.lookup p.1 with
    | none =>
      rw [List.lookup_eq_none_iff] at hl
      have hne := hl p hp
      simp at hne
    | some _ => rfl
  · intro hk
    obtain ⟨v, hv⟩ := Option.isSome_iff_exists.mp hk
    obtain ⟨l₁, l₂, rfl, -⟩ := List.lookup_eq_some_iff.mp hv
    simp

/-- The keys after `m[k] = v` are `k` and those of `m`. -/
theorem mem_keys_insert {k k' : κ} {v : ν} {m : List (κ × ν)} :
    k' ∈ (insert k v m).map Prod.fst ↔ k' = k ∨ k' ∈ m.map Prod.fst := by
  rw [mem_keys_iff_isSome_lookup, mem_keys_iff_isSome_lookup, lookup_insert]
  by_cases h : k' = k <;> simp [h]

/-- The keys after `delete(m, k)` are those of `m` but `k`. -/
theorem mem_keys_erase {k k' : κ} {m : List (κ × ν)} (h : (m.map Prod.fst).Nodup) :
    k' ∈ (erase k m).map Prod.fst ↔ k' ≠ k ∧ k' ∈ m.map Prod.fst := by
  rw [mem_keys_iff_isSome_lookup, mem_keys_iff_isSome_lookup, lookup_erase k k' m h]
  by_cases hk : k' = k <;> simp [hk]

/-- The entries after `delete(m, k)`, in a map with no key twice, are those of `m` with another
key. -/
theorem mem_erase {k : κ} {p : κ × ν} :
    ∀ {m : List (κ × ν)}, (m.map Prod.fst).Nodup → (p ∈ erase k m ↔ p.1 ≠ k ∧ p ∈ m)
  | [], _ => by simp [erase]
  | (k', v') :: m, h => by
    rw [List.map_cons, List.nodup_cons] at h
    unfold erase
    split
    · rename_i hk
      subst hk
      -- the entry deleted is the only one of its key
      constructor
      · intro hp
        exact ⟨fun hpk => h.1 (List.mem_map.mpr ⟨p, hp, hpk⟩), List.mem_cons_of_mem _ hp⟩
      · rintro ⟨hpk, hp⟩
        rcases List.mem_cons.mp hp with rfl | hp
        · exact absurd rfl hpk
        · exact hp
    · rename_i hk
      rw [List.mem_cons, List.mem_cons, mem_erase h.2]
      constructor
      · rintro (rfl | ⟨hpk, hp⟩)
        · exact ⟨hk, .inl rfl⟩
        · exact ⟨hpk, .inr hp⟩
      · rintro ⟨hpk, rfl | hp⟩
        · exact .inl rfl
        · exact .inr ⟨hpk, hp⟩

omit [DecidableEq κ] in
/-- In a map with no key twice, a key has one value. -/
theorem eq_of_mem_of_mem {k : κ} {v v' : ν} {m : List (κ × ν)} (h : (m.map Prod.fst).Nodup)
    (hv : (k, v) ∈ m) (hv' : (k, v') ∈ m) : v = v' :=
  congrArg Prod.snd (List.inj_on_of_nodup_map h hv hv' rfl)

/-- A key a map built by assignments reads is one they assign, or one the map held. -/
theorem lookup_foldl_insert_eq_some {k : κ} {v : ν} :
    ∀ (xs : List (κ × ν)) {m : List (κ × ν)},
      (xs.foldl (fun m e => insert e.1 e.2 m) m).lookup k = some v →
        k ∈ xs.map Prod.fst ∨ m.lookup k = some v
  | [], _, h => .inr h
  | e :: xs, m, h => by
    rcases lookup_foldl_insert_eq_some xs h with hk | hk
    · exact .inl (List.mem_cons_of_mem _ hk)
    · rw [lookup_insert] at hk
      by_cases he : k = e.1
      · exact .inl (he ▸ List.mem_cons_self)
      · rw [if_neg he] at hk
        exact .inr hk

/-- The entry a read finds is in the map. -/
theorem mem_of_lookup_eq_some {k : κ} {v : ν} {m : List (κ × ν)} (h : m.lookup k = some v) :
    (k, v) ∈ m := by
  obtain ⟨l₁, l₂, rfl, -⟩ := List.lookup_eq_some_iff.mp h
  simp

/-- In a map with no key twice, reading the key of an entry finds that entry. -/
theorem lookup_of_mem {k : κ} {v : ν} {m : List (κ × ν)} (h : (m.map Prod.fst).Nodup)
    (hv : (k, v) ∈ m) : m.lookup k = some v := by
  have hsome := mem_keys_iff_isSome_lookup.mp (List.mem_map.mpr ⟨(k, v), hv, rfl⟩)
  obtain ⟨v', hv'⟩ := Option.isSome_iff_exists.mp hsome
  rw [hv', eq_of_mem_of_mem h hv (mem_of_lookup_eq_some hv')]

end Map
end GoStd
