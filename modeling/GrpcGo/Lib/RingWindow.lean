import Mathlib

/-!
# A ring of slots holding a window of bins

A moving sum over a timeline cut into bins keeps the values added to the `n` bins
`(head - n, head]` behind a head in a ring of `n` slots: bin `b` lives in slot `b % n`, and the
`n` bins of the window fall in distinct slots.  When the head moves forward from `ch` to `nh`, the
bins that leave the window are those that share a slot with a bin in `(ch, nh]`, the bins the head
crosses; clearing those slots makes the ring hold the new window.  The loop that clears them
walks the slots of `ch + 1`, `ch + 2`, ... for at most `n` steps (`exists_step_iff`).

The values added, with their bins, are a list `xs`; `slotSum n head xs i` is what slot `i` holds
for the window of `head`, and `windowSum n head xs` what the window holds.

* `sum_slotSum`: the slots together hold the window;
* `lt_iff_forall_not_mod_eq`: a bin at or behind the old head stays in the window iff no bin the
  head crosses shares its slot;
* `slotSum_advance`: after the head moves, a slot holds what it held, or nothing when a bin the
  head crossed shares it;
* `slotSum_cons`: a value added to a bin of the window is in that bin's slot;
* `sum_update_add`: writing one slot changes the sum of the ring by the difference.
-/

namespace RingWindow

variable {G : Type _} [AddCommMonoid G]

/-- Bin `b` is in the window of the `n` bins behind `head`. -/
def inWindow (n head b : ℤ) : Prop := head - n < b ∧ b ≤ head

instance (n head b : ℤ) : Decidable (inWindow n head b) := inferInstanceAs (Decidable (_ ∧ _))

/-- What slot `i` holds of the values `xs` for the window of `head`: those of its bins in the
window. -/
def slotSum (n head : ℤ) (xs : List (ℤ × G)) (i : ℤ) : G :=
  ((xs.filter fun x => inWindow n head x.1 ∧ x.1 % n = i).map Prod.snd).sum

/-- What the window of `head` holds of the values `xs`. -/
def windowSum (n head : ℤ) (xs : List (ℤ × G)) : G :=
  ((xs.filter fun x => inWindow n head x.1).map Prod.snd).sum

@[simp] theorem slotSum_nil (n head i : ℤ) : slotSum n head ([] : List (ℤ × G)) i = 0 := rfl

@[simp] theorem windowSum_nil (n head : ℤ) : windowSum n head ([] : List (ℤ × G)) = 0 := rfl

theorem slotSum_cons (n head : ℤ) (x : ℤ × G) (xs : List (ℤ × G)) (i : ℤ) :
    slotSum n head (x :: xs) i =
      (if inWindow n head x.1 ∧ x.1 % n = i then x.2 else 0) + slotSum n head xs i := by
  unfold slotSum
  rw [List.filter_cons]
  split_ifs with h <;> simp_all

theorem windowSum_cons (n head : ℤ) (x : ℤ × G) (xs : List (ℤ × G)) :
    windowSum n head (x :: xs) = (if inWindow n head x.1 then x.2 else 0) + windowSum n head xs := by
  unfold windowSum
  rw [List.filter_cons]
  split_ifs with h <;> simp_all

/-- Bin `b` is in exactly one slot of the ring. -/
theorem mod_mem_Ico {n : ℤ} (hn : 0 < n) (b : ℤ) : b % n ∈ Finset.Ico 0 n :=
  Finset.mem_Ico.mpr ⟨Int.emod_nonneg b hn.ne', Int.emod_lt_of_pos b hn⟩

/-- **The slots together hold the window.** -/
theorem sum_slotSum {n : ℤ} (hn : 0 < n) (head : ℤ) (xs : List (ℤ × G)) :
    ∑ i ∈ Finset.Ico 0 n, slotSum n head xs i = windowSum n head xs := by
  induction xs with
  | nil => simp
  | cons x xs ih =>
    simp only [slotSum_cons, windowSum_cons, Finset.sum_add_distrib, ih]
    congr 1
    -- the head of the list is counted in the slot of its bin only
    by_cases hx : inWindow n head x.1
    · simp only [hx, true_and, if_true]
      rw [Finset.sum_ite_eq _ _ (fun _ => x.2), if_pos (mod_mem_Ico hn x.1)]
    · simp [hx]

/-! ## Moving the head -/

/-- **A bin leaves the window iff a crossed bin shares its slot.**  For a bin `b` in the window
of `ch`, moving the head to `nh` keeps `b` in the window exactly when no bin of `(ch, nh]` has the
slot of `b`: a bin that shares it is `b` plus a multiple of `n`, and the first of them, `b + n`,
is past `ch`. -/
theorem lt_iff_forall_not_mod_eq {n ch nh b : ℤ} (hb : ch - n < b) (hbch : b ≤ ch) :
    nh - n < b ↔ ∀ c, ch < c → c ≤ nh → c % n ≠ b % n := by
  constructor
  · intro hlt c hc hcnh heq
    -- `c - b` is a multiple of `n` strictly between `0` and `n`
    have hsub : (c - b) % n = 0 := Int.emod_eq_emod_iff_emod_sub_eq_zero.mp heq
    rw [Int.emod_eq_of_lt (by omega) (by omega)] at hsub
    omega
  · intro h
    by_contra hle
    exact h (b + n) (by omega) (by omega) (Int.add_emod_right b n)

open Classical in
/-- **After the head moves, a slot holds what it held, or nothing if a crossed bin shares it.**
Every bin added so far is at or behind the old head `ch`; the new head is `max ch nh`. -/
theorem slotSum_advance {n : ℤ} (ch nh : ℤ) {xs : List (ℤ × G)} (hxs : ∀ x ∈ xs, x.1 ≤ ch)
    (i : ℤ) :
    slotSum n (max ch nh) xs i =
      if ∃ c, ch < c ∧ c ≤ nh ∧ c % n = i then 0 else slotSum n ch xs i := by
  induction xs with
  | nil => simp
  | cons x xs ih =>
    have hx : x.1 ≤ ch := hxs x (List.mem_cons_self ..)
    rw [slotSum_cons, slotSum_cons, ih fun y hy => hxs y (List.mem_cons_of_mem _ hy)]
    by_cases hcross : ∃ c, ch < c ∧ c ≤ nh ∧ c % n = i
    · -- the slot is cleared: no bin of it stays in the window
      have hcleared := hcross
      obtain ⟨c, hc, hcnh, hci⟩ := hcross
      have hout : ¬ (inWindow n (max ch nh) x.1 ∧ x.1 % n = i) := by
        rintro ⟨⟨hlt, -⟩, hxi⟩
        have hmax : max ch nh = nh := max_eq_right (by omega)
        rw [hmax] at hlt
        exact (lt_iff_forall_not_mod_eq (by omega) hx).mp hlt c hc hcnh (hci.trans hxi.symm)
      rw [if_pos hcleared, if_pos hcleared, if_neg hout, zero_add]
    · -- the slot is kept: its bins stay in the window exactly when they were in it
      rw [if_neg hcross, if_neg hcross]
      congr 1
      have hkeep : x.1 % n = i → (inWindow n (max ch nh) x.1 ↔ inWindow n ch x.1) := by
        intro hxi
        unfold inWindow
        rcases le_total nh ch with hnh | hnh
        · rw [max_eq_left hnh]
        · rw [max_eq_right hnh]
          have hlt := @lt_iff_forall_not_mod_eq n ch nh x.1
          constructor
          · rintro ⟨h1, -⟩
            exact ⟨by omega, hx⟩
          · rintro ⟨h1, -⟩
            refine ⟨(hlt h1 hx).mpr fun c hc hcnh hcx => hcross ⟨c, hc, hcnh, ?_⟩, by omega⟩
            rw [hcx, hxi]
      by_cases hxi : x.1 % n = i
      · simp only [hxi, and_true, hkeep hxi]
      · simp only [hxi, and_false]

/-- The loop of an advance from `ch` to `nh` walks the slots of the bins `ch + j + 1` for
`j < min n (nh - ch)`: those are the slots of the bins the head crosses. -/
theorem exists_step_iff {n ch nh : ℤ} (hn : 0 < n) (i : ℤ) :
    (∃ j : ℕ, j < (min n (nh - ch)).toNat ∧ (ch + j + 1) % n = i) ↔
      ∃ c, ch < c ∧ c ≤ nh ∧ c % n = i := by
  constructor
  · rintro ⟨j, hj, hji⟩
    exact ⟨ch + j + 1, by omega, by omega, hji⟩
  · rintro ⟨c, hc, hcnh, hci⟩
    -- the step to the bin of the slot of `c` among the first `n`
    have hr0 : 0 ≤ (c - ch - 1) % n := Int.emod_nonneg _ hn.ne'
    have hrn : (c - ch - 1) % n < n := Int.emod_lt_of_pos _ hn
    have hrle : (c - ch - 1) % n ≤ c - ch - 1 := by
      have hq : 0 ≤ n * ((c - ch - 1) / n) := Int.mul_nonneg hn.le (Int.ediv_nonneg (by omega) hn.le)
      rw [Int.emod_def]
      omega
    refine ⟨((c - ch - 1) % n).toNat, by omega, ?_⟩
    have hcast : (((c - ch - 1) % n).toNat : ℤ) = (c - ch - 1) % n := Int.toNat_of_nonneg hr0
    rw [hcast, ← hci, add_right_comm, Int.add_emod_emod]
    congr 1
    omega

/-! ## Writing a slot -/

/-- Writing `b` to slot `i` of the ring changes its sum from holding `f i` to holding `b`. -/
theorem sum_update_add {s : Finset ℤ} {i : ℤ} (hi : i ∈ s) (f : ℤ → G) (b : G) :
    ∑ x ∈ s, Function.update f i b x + f i = ∑ x ∈ s, f x + b := by
  rw [Finset.sum_update_of_mem hi, ← Finset.add_sum_erase s f hi, Finset.sdiff_singleton_eq_erase]
  ac_rfl

end RingWindow
