import Mathlib

/-!
# Scans that keep the best-scoring candidates

A loop that looks for the most specific matches scans its candidates with the best score seen so
far: a candidate that does not match (no score) is skipped, one below the best so far is
skipped, one above it starts the kept list anew, and one equal to it is added to the list.
`KeepBest.step` is one turn of such a loop.

`foldl_step` says what the scan computes: the best score `topScore`, and, of the candidates
scanned, exactly those of that score, in order.  `length_filter_le_one` says when at most one
candidate is kept: when the candidates kept all have one key, and no key is repeated; the scan
then keeps `best`, the first candidate of the best score (`foldl_step_of_unique`).
-/

namespace KeepBest

variable {α κ : Type _}

/-- One turn of the scan: the best score so far and the candidates kept. -/
def step (score : α → Option Int) (st : Int × List α) (x : α) : Int × List α :=
  match score x with
  | none => st
  | some s => if s < st.1 then st else if s > st.1 then (s, [x]) else (st.1, st.2 ++ [x])

/-- The best score of the candidates `l`, or `m` if none is better. -/
def topScore (score : α → Option Int) (m : Int) (l : List α) : Int :=
  l.foldl (fun m x => (score x).elim m (max m)) m

@[simp] theorem topScore_nil (score : α → Option Int) (m : Int) : topScore score m [] = m := rfl

theorem topScore_cons (score : α → Option Int) (m : Int) (x : α) (l : List α) :
    topScore score m (x :: l) = topScore score ((score x).elim m (max m)) l := rfl

theorem le_topScore (score : α → Option Int) :
    ∀ (l : List α) (m : Int), m ≤ topScore score m l
  | [], m => Int.le_refl m
  | x :: l, m => by
    rw [topScore_cons]
    cases score x with
    | none => exact le_topScore score l m
    | some s => exact Int.le_trans (Int.le_max_left m s) (le_topScore score l (max m s))

theorem score_le_topScore (score : α → Option Int) :
    ∀ (l : List α) (m : Int) {x : α} {s : Int}, x ∈ l → score x = some s →
      s ≤ topScore score m l
  | [], _, _, _, hx, _ => absurd hx List.not_mem_nil
  | y :: l, m, x, s, hx, hs => by
    rw [topScore_cons]
    rcases List.mem_cons.mp hx with rfl | hx
    · rw [hs]
      exact Int.le_trans (Int.le_max_right m s) (le_topScore score l (max m s))
    · exact score_le_topScore score l _ hx hs

/-- The scan keeps the best score and the candidates of that score: those kept before if the
best did not change, and those of `l` of that score. -/
theorem foldl_step (score : α → Option Int) :
    ∀ (l : List α) (m : Int) (acc : List α),
      l.foldl (step score) (m, acc) =
        (topScore score m l,
          (if topScore score m l = m then acc else []) ++
            l.filter fun x => score x == some (topScore score m l))
  | [], m, acc => by simp
  | x :: l, m, acc => by
    rw [List.foldl_cons, List.filter_cons]
    cases hx : score x with
    | none =>
      -- a candidate that does not match changes nothing
      have ht : topScore score m (x :: l) = topScore score m l := by
        rw [topScore_cons, hx]
        rfl
      rw [ht]
      simp only [step, hx]
      rw [foldl_step score l m acc]
      simp
    | some s =>
      have ht : topScore score m (x :: l) = topScore score (max m s) l := by
        rw [topScore_cons, hx]
        rfl
      rw [ht]
      have hle := le_topScore score l (max m s)
      by_cases hlt : s < m
      · -- below the best so far: skipped
        have hmax : max m s = m := Int.max_eq_left (Int.le_of_lt hlt)
        rw [hmax]
        simp only [step, hx, if_pos hlt]
        rw [foldl_step score l m acc]
        have hne : s ≠ topScore score m l := by
          rw [hmax] at hle
          omega
        simp [hne]
      · by_cases hgt : s > m
        · -- a better score: the kept list starts anew
          have hmax : max m s = s := Int.max_eq_right (Int.le_of_lt hgt)
          rw [hmax]
          simp only [step, hx, if_neg hlt, if_pos hgt]
          rw [foldl_step score l s [x]]
          rw [hmax] at hle
          have hne : topScore score s l ≠ m := by omega
          by_cases hs : topScore score s l = s
          · have hsm : s ≠ m := by omega
            simp [hs, hsm]
          · simp [hne, hs, Ne.symm hs]
        · -- the same score: added to the kept list
          have hsm : s = m := by omega
          subst hsm
          rw [Int.max_self]
          simp only [step, hx, if_neg hlt]
          rw [foldl_step score l s (acc ++ [x])]
          by_cases hs : topScore score s l = s
          · simp [hs]
          · simp [hs, Ne.symm hs]

/-- Started with nothing kept, the scan keeps exactly the candidates of the best score. -/
theorem foldl_step_nil (score : α → Option Int) (l : List α) (m : Int) :
    (l.foldl (step score) (m, [])).2 = l.filter fun x => score x == some (topScore score m l) := by
  rw [foldl_step]
  dsimp only
  split
  · rfl
  · rfl

/-- The first candidate of the best score. -/
def best (score : α → Option Int) (m : Int) (l : List α) : Option α :=
  l.find? fun x => score x == some (topScore score m l)

/-- A filter that keeps at most one element keeps the first element it accepts. -/
theorem filter_eq_toList_find? (p : α → Bool) :
    ∀ {l : List α}, (l.filter p).length ≤ 1 → l.filter p = (l.find? p).toList
  | [], _ => rfl
  | x :: l, h => by
    rw [List.filter_cons] at h ⊢
    rw [List.find?_cons]
    cases hp : p x with
    | true =>
      -- `x` is kept, so nothing after it is
      simp only [hp, if_true, List.length_cons] at h
      have hnil : l.filter p = [] := List.length_eq_zero_iff.mp (by omega)
      simp only [if_true, hnil]
      rfl
    | false =>
      simp only [hp, Bool.false_eq_true, if_false] at h ⊢
      exact filter_eq_toList_find? p h

/-- When at most one candidate has the best score, the scan keeps `best`. -/
theorem foldl_step_of_unique (score : α → Option Int) (l : List α) (m : Int)
    (h : (l.filter fun x => score x == some (topScore score m l)).length ≤ 1) :
    (l.foldl (step score) (m, [])).2 = (best score m l).toList := by
  rw [foldl_step_nil, best]
  exact filter_eq_toList_find? _ h

/-- A list without repeated keys has at most one element of a given key among those a filter
keeps, when all the elements it keeps share a key. -/
theorem length_filter_le_one (key : α → κ) (p : α → Bool) :
    ∀ {l : List α}, (l.map key).Nodup →
      (∀ x ∈ l, ∀ y ∈ l, p x = true → p y = true → key x = key y) → (l.filter p).length ≤ 1
  | [], _, _ => by simp
  | x :: l, hnd, hsame => by
    rw [List.map_cons, List.nodup_cons] at hnd
    obtain ⟨hx, hnd⟩ := hnd
    have hrest := length_filter_le_one key p hnd
      (fun a ha b hb => hsame a (List.mem_cons_of_mem _ ha) b (List.mem_cons_of_mem _ hb))
    rw [List.filter_cons]
    split
    · -- `x` is kept: no other element is, since it would share its key
      rename_i hpx
      have hnone : l.filter p = [] := by
        rw [List.filter_eq_nil_iff]
        intro y hy hpy
        apply hx
        rw [hsame x List.mem_cons_self y (List.mem_cons_of_mem _ hy) hpx hpy]
        exact List.mem_map_of_mem hy
      simp [hnone]
    · exact hrest

end KeepBest
