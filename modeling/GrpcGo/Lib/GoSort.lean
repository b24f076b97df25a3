import Mathlib

/-!
# Go's `sort.Search`

`sort.Search(n, f)` (`Search` here) is a binary search over `[0, n)` for the first index at
which `f` holds, for an `f` that, once it holds, holds at every larger index.  The loop halves
the window `[i, j)` around `h = (i + j) / 2`, keeping every index below `i` false and `j` either
`n` or true.

* `Search_spec`: for such an `f`, every index below the result is false, and the result is `n` or
  true.
* `Search_eq_zero`: when `f` holds at `0` the search returns `0`.
* `Search_eq_findIdx`: over a list on which the property, once it holds, holds further on, the
  search finds the index a linear scan (`List.findIdx`) finds.
* `pairwise_mergeSort_of_less`: `sort.Slice` with a strict `less` (the model sorts with
  `List.mergeSort`) leaves the list in the order that `less` or equality gives.
-/

namespace GoStd

/-- The loop of `sort.Search` on the window `[i, j)`. -/
def searchLoop (f : Nat → Bool) (i j : Nat) : Nat :=
  if i < j then
    let h := (i + j) / 2
    if !f h then searchLoop f (h + 1) j else searchLoop f i h
  else i
termination_by j - i

/-- `sort.Search(n, f)`. -/
def Search (n : Nat) (f : Nat → Bool) : Nat :=
  searchLoop f 0 n

variable {f : Nat → Bool}

/-- `f` holds from some index on. -/
def Upward (f : Nat → Bool) : Prop :=
  ∀ a b, a ≤ b → f a = true → f b = true

/-- The loop keeps the indices below its window false and the end of its window `n` or true,
and ends where the two meet. -/
theorem searchLoop_spec (hf : Upward f) (n : Nat) :
    ∀ i j, i ≤ j → j ≤ n → (∀ k < i, f k = false) → (j = n ∨ f j = true) →
      let r := searchLoop f i j
      r ≤ n ∧ (∀ k < r, f k = false) ∧ (r = n ∨ f r = true) := by
  intro i j
  fun_induction searchLoop f i j with
  | case1 i j hij h hfalse ih =>
    -- `f` fails at the middle: the window starts after it
    intro _ hjn hbelow hend
    refine ih (by omega) hjn ?_ hend
    intro k hk
    by_cases hki : k < i
    · exact hbelow k hki
    · cases hfk : f k with
      | false => rfl
      | true =>
        have := hf k h (by omega) hfk
        simp [this] at hfalse
  | case2 i j hij h htrue ih =>
    -- `f` holds at the middle: the window ends there
    intro _ hjn hbelow _
    exact ih (by omega) (by omega) hbelow (.inr (by simpa using htrue))
  | case3 i j hji =>
    intro hij hjn hbelow hend
    have hieq : i = j := by omega
    subst hieq
    exact ⟨hjn, hbelow, hend⟩

/-- **`sort.Search` finds the first index where `f` holds**, or `n` when there is none below
it. -/
theorem Search_spec (hf : Upward f) (n : Nat) :
    Search n f ≤ n ∧ (∀ k < Search n f, f k = false) ∧
      (Search n f = n ∨ f (Search n f) = true) :=
  searchLoop_spec hf n 0 n (Nat.zero_le n) (Nat.le_refl n)
    (fun _ hk => absurd hk (Nat.not_lt_zero _)) (.inl rfl)

/-- When `f` holds at `0`, the search returns `0`. -/
theorem Search_eq_zero (hf : Upward f) (n : Nat) (h0 : f 0 = true) : Search n f = 0 := by
  obtain ⟨_, hbelow, _⟩ := Search_spec hf n
  by_contra hne
  have := hbelow 0 (Nat.pos_of_ne_zero hne)
  rw [h0] at this
  cases this

/-! ## Searching a list -/

section List

variable {α : Type} {l : List α} {p : α → Bool}

/-- The search over a list's indices reads the property at each index, and past the end it
holds. -/
theorem upward_getElem?_getD (hp : l.Pairwise fun a b => p a = true → p b = true) :
    Upward fun i => (l[i]?.map p).getD true := by
  intro a b hab hfa
  dsimp only at hfa ⊢
  by_cases hb : b < l.length
  · have ha : a < l.length := by omega
    rw [List.getElem?_eq_getElem ha] at hfa
    rw [List.getElem?_eq_getElem hb]
    rcases Nat.lt_or_eq_of_le hab with hlt | rfl
    · exact List.pairwise_iff_getElem.mp hp a b ha hb hlt hfa
    · exact hfa
  · rw [List.getElem?_eq_none (by omega)]
    rfl

/-- **The binary search finds what the linear scan finds**, on a list along which the property
holds from some element on. -/
theorem Search_eq_findIdx (hp : l.Pairwise fun a b => p a = true → p b = true) :
    Search l.length (fun i => (l[i]?.map p).getD true) = l.findIdx p := by
  obtain ⟨hle, hbelow, hend⟩ := Search_spec (upward_getElem?_getD hp) l.length
  have hbelow' : ∀ j (hj : j < Search l.length (fun i => (l[i]?.map p).getD true)),
      p l[j] = false := fun j hj => by
    simpa [List.getElem?_eq_getElem (Nat.lt_of_lt_of_le hj hle)] using hbelow j hj
  by_cases hlt : Search l.length (fun i => (l[i]?.map p).getD true) < l.length
  · -- the search stopped inside the list, at an element with the property
    have hhit : p l[Search l.length (fun i => (l[i]?.map p).getD true)] = true := by
      rcases hend with heq | htrue
      · omega
      · simpa [List.getElem?_eq_getElem hlt] using htrue
    exact ((List.findIdx_eq hlt).mpr ⟨hhit, hbelow'⟩).symm
  · -- the search ran off the end: no element has the property
    have hall : ∀ x ∈ l, p x = false := by
      intro x hx
      obtain ⟨j, hj, rfl⟩ := List.getElem_of_mem hx
      exact hbelow' j (by omega)
    rw [List.findIdx_eq_length.mpr hall]
    omega

end List

/-! ## Sorting with a strict order -/

section Sorting

variable {α : Type} {less : α → α → Bool} {R : α → α → Prop}

/-- `merge` by a strict `less` keeps two lists sorted by a transitive `R` that holds where `less`
does, and the other way round where it does not. -/
theorem pairwise_merge_of_less (trans : ∀ a b c, R a b → R b c → R a c)
    (hlt : ∀ a b, less a b = true → R a b) (hge : ∀ a b, less a b = false → R b a) :
    ∀ l₁ l₂ : List α, l₁.Pairwise R → l₂.Pairwise R → (List.merge l₁ l₂ less).Pairwise R := by
  intro l₁
  induction l₁ with
  | nil => intro l₂ _ h₂; simpa only [List.merge] using h₂
  | cons x l₁ ih₁ =>
    intro l₂ h₁ h₂
    induction l₂ with
    | nil => simpa only [List.merge] using h₁
    | cons y l₂ ih₂ =>
      rw [List.cons_merge_cons]
      cases hxy : less x y with
      | true =>
        -- `x` goes first, and every element after it is at least `x`
        refine List.Pairwise.cons (fun z m => ?_) (ih₁ _ h₁.tail h₂)
        rw [List.mem_merge, List.mem_cons] at m
        rcases m with m | rfl | m
        · exact List.rel_of_pairwise_cons h₁ m
        · exact hlt _ _ hxy
        · exact trans _ _ _ (hlt _ _ hxy) (List.rel_of_pairwise_cons h₂ m)
      | false =>
        refine List.Pairwise.cons (fun z m => ?_) (ih₂ h₂.tail)
        rw [List.mem_merge, List.mem_cons] at m
        rcases m with (rfl | m) | m
        · exact hge _ _ hxy
        · exact trans _ _ _ (hge _ _ hxy) (List.rel_of_pairwise_cons h₁ m)
        · exact List.rel_of_pairwise_cons h₂ m

/-- **A merge sort by a strict `less` sorts by `R`**, for `R` as in `pairwise_merge_of_less`. -/
theorem pairwise_mergeSort_of_less (trans : ∀ a b c, R a b → R b c → R a c)
    (hlt : ∀ a b, less a b = true → R a b) (hge : ∀ a b, less a b = false → R b a) :
    ∀ l : List α, (l.mergeSort less).Pairwise R
  | [] => by simp
  | [a] => by simp
  | a :: b :: xs => by
    rw [List.mergeSort]
    exact pairwise_merge_of_less trans hlt hge _ _ (pairwise_mergeSort_of_less trans hlt hge _)
      (pairwise_mergeSort_of_less trans hlt hge _)
termination_by l => l.length

end Sorting

end GoStd
