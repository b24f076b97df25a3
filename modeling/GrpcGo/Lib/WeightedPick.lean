import Mathlib

/-!
# Picking by weight

A weighted random choice over a list of weighted items draws a number `v` below the sum of the
weights and returns the item whose stretch of `[0, total)` holds `v`, the stretches of the
weights laid end to end in the list's order (`pick`).  Each item is then picked by exactly as
many of the values as its entries weigh (`countP_pick`), whatever the order of the list
(`weightOf_perm`); when no item has two entries, that is the weight of its one entry
(`weightOf_of_nodup`).
-/

namespace WeightedPick

variable {α : Type _}

/-- The item whose stretch holds `v`. -/
def pick : List (α × Nat) → Nat → Option α
  | [], _ => none
  | (x, w) :: items, v => if v < w then some x else pick items (v - w)

/-- The sum of the weights. -/
def total (items : List (α × Nat)) : Nat :=
  (items.map Prod.snd).sum

@[simp] theorem total_nil : total ([] : List (α × Nat)) = 0 := rfl

@[simp] theorem total_cons (x : α) (w : Nat) (items : List (α × Nat)) :
    total ((x, w) :: items) = w + total items := by
  simp [total]

/-- A value below the total picks an item. -/
theorem pick_isSome : ∀ {items : List (α × Nat)} {v : Nat}, v < total items →
    (pick items v).isSome
  | [], _, h => by simp at h
  | (x, w) :: items, v, h => by
    rw [total_cons] at h
    unfold pick
    split
    · rfl
    · exact pick_isSome (by omega)

/-- The item picked is one of the items. -/
theorem mem_of_pick : ∀ {items : List (α × Nat)} {v : Nat} {a : α}, pick items v = some a →
    ∃ w, (a, w) ∈ items
  | [], _, _, h => by simp [pick] at h
  | (x, w) :: items, v, a, h => by
    unfold pick at h
    split at h
    · cases h
      exact ⟨w, List.mem_cons_self⟩
    · obtain ⟨w', hw'⟩ := mem_of_pick h
      exact ⟨w', List.mem_cons_of_mem _ hw'⟩

theorem total_perm {items items' : List (α × Nat)} (h : items.Perm items') :
    total items = total items' :=
  (h.map Prod.snd).sum_eq

section Count

variable [DecidableEq α]

/-- The weight the entries of `a` carry. -/
def weightOf (items : List (α × Nat)) (a : α) : Nat :=
  ((items.filter fun e => e.1 = a).map Prod.snd).sum

@[simp] theorem weightOf_nil (a : α) : weightOf ([] : List (α × Nat)) a = 0 := rfl

theorem weightOf_cons (x : α) (w : Nat) (items : List (α × Nat)) (a : α) :
    weightOf ((x, w) :: items) a = (if x = a then w else 0) + weightOf items a := by
  unfold weightOf
  by_cases h : x = a <;> simp [h]

/-- Of the values below the total, the item `a` is picked by exactly as many as its entries
weigh. -/
theorem countP_pick : ∀ (items : List (α × Nat)) (a : α),
    (List.range (total items)).countP (fun v => pick items v = some a) = weightOf items a
  | [], _ => rfl
  | (x, w) :: items, a => by
    rw [total_cons, List.range_add, List.countP_append, List.countP_map, weightOf_cons]
    -- the values below `w` pick `x`
    have hpick : ∀ v ∈ List.range w, pick ((x, w) :: items) v = some x := by
      intro v hv
      simp [pick, List.mem_range.mp hv]
    have hfirst : (List.range w).countP (fun v => pick ((x, w) :: items) v = some a) =
        if x = a then w else 0 := by
      by_cases hx : x = a
      · rw [if_pos hx, List.countP_eq_length.mpr (fun v hv => by rw [hpick v hv]; simp [hx]),
          List.length_range]
      · rw [if_neg hx, List.countP_eq_zero.mpr (fun v hv => by simp [hpick v hv, hx])]
    -- the others are the values of the rest, shifted past `w`
    have hrest : (List.range (total items)).countP
        ((fun v => decide (pick ((x, w) :: items) v = some a)) ∘ (w + ·)) =
        (List.range (total items)).countP (fun v => pick items v = some a) := by
      congr 1
      funext v
      have hv : ¬ w + v < w := by omega
      simp [pick, hv]
    rw [hfirst, hrest, countP_pick items a]

theorem weightOf_perm {items items' : List (α × Nat)} (h : items.Perm items') (a : α) :
    weightOf items a = weightOf items' a :=
  ((h.filter _).map Prod.snd).sum_eq

theorem weightOf_eq_zero {items : List (α × Nat)} {a : α} (h : a ∉ items.map Prod.fst) :
    weightOf items a = 0 := by
  unfold weightOf
  rw [List.filter_eq_nil_iff.mpr]
  · rfl
  · intro e he hea
    exact h (List.mem_map.mpr ⟨e, he, by simpa using hea⟩)

/-- With one entry for each item, an item weighs what its entry does. -/
theorem weightOf_of_nodup : ∀ {items : List (α × Nat)}, (items.map Prod.fst).Nodup →
    ∀ a, weightOf items a = (items.lookup a).getD 0
  | [], _, _ => rfl
  | (x, w) :: items, h, a => by
    rw [List.map_cons, List.nodup_cons] at h
    rw [weightOf_cons, List.lookup_cons]
    by_cases hx : x = a
    · subst hx
      rw [weightOf_eq_zero h.1]
      simp
    · rw [weightOf_of_nodup h.2 a, beq_false_of_ne (Ne.symm hx)]
      simp [hx]

end Count

end WeightedPick
