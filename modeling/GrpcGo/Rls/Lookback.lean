import GrpcGo.Lib.RingWindow
import GrpcGo.Lib.GoSlice
import GrpcGo.Lib.ExceptBind
import GrpcGo.Lib.Machine

/-!
# The RLS throttler's lookback (`balancer/rls/internal/adaptive/lookback.go`)

The adaptive throttler counts accepts and throttles with a `lookback`: a moving sum over the
`bins` bins of `width` nanoseconds behind a head, kept in a ring buffer of `bins` slots.
`advance(t)` moves the head to the bin of `t` when that is forward of it, clearing on the way the
slots of the bins the head crosses (at most `bins` of them), and leaves it where it is for a time
at or behind it; `add(t, v)` then adds `v` to the slot of the bin of `t`, unless that bin is
`bins` or more behind the head; `sum(t)` advances to `t` and returns the total.

A time is `t.UnixNano()`, an integer; Go's `/` and `%` truncate toward zero (`Int.tdiv`,
`Int.tmod`).  The ring buffer is a function from slots to values; the slots `advance` clears are
always in it, as `head` is never negative.  A time before 1970 has a negative bin, and then the
slot `pos % bins` is a negative index: `add` panics.  The `int64` arithmetic is exact here.

`window` says what the lookback is for: the largest bin of any time passed so far (zero before
any), and every add counted, with its bin; `sum` returns what the window of that bin holds
(`RingWindow.windowSum`), and an add is counted when its bin is in the window when it is made.

* `TotalEq.run`: whatever the times, until the lookback panics `total` is the sum of the slots;
* `holds_step`: on a nonnegative time, a call on a lookback that holds a window writes what the
  window writes, and leaves a lookback that holds the window after the call;
* `lookback_moving_sum`: on nonnegative times, a lookback from `newLookback` writes the moving
  sums of `window` and never panics;
* `lookback_negative_time_panics`: an add before 1970, which the window counts, panics.
-/

namespace GrpcGo
namespace Rls
namespace Adaptive

open Machine RingWindow GoStd Except

/-- A `lookback`: `bins` bins of `width` nanoseconds, the absolute bin index of the head, the
total, and the ring buffer `buf`, by slot.  `newLookback` only makes one with positive `bins`, and
`head` starts at zero and only moves forward. -/
structure lookback where
  bins : ℤ
  width : ℤ
  head : ℤ
  total : ℤ
  buf : ℤ → ℤ
  bins_pos : 0 < bins
  head_nonneg : 0 ≤ head

/-- `newLookback(bins, duration)`: `duration / time.Duration(bins)` panics when `bins` is zero,
and `make([]int64, bins)` when it is negative. -/
def newLookback (bins duration : ℤ) : Except Failure lookback :=
  if h : 0 < bins then .ok ⟨bins, duration.tdiv bins, 0, 0, fun _ => 0, h, le_rfl⟩
  else if bins = 0 then .error (.panic "runtime error: integer divide by zero")
  else .error (.panic "runtime error: makeslice: len out of range")

/-- One turn of the loop of `advance`: slot `(ch + j + 1) % bins` is taken off `total` and
zeroed. -/
def clearSlot (bins ch : ℤ) (acc : ℤ × (ℤ → ℤ)) (j : ℕ) : ℤ × (ℤ → ℤ) :=
  let i := (ch + j + 1).tmod bins
  (acc.1 - acc.2 i, Function.update acc.2 i 0)

/-- `l.advance(t)`: the bin of `t`, and the lookback with its head moved there when that is
forward of it (`t.UnixNano() / l.width.Nanoseconds()` panics on a zero width). -/
def lookback.advance (l : lookback) (t : ℤ) : Except Failure (ℤ × lookback) :=
  if l.width = 0 then .error (.panic "runtime error: integer divide by zero")
  else
    let ch := l.head
    let nh := t.tdiv l.width
    if h : nh ≤ ch then .ok (nh, l)
    else
      let jmax := min l.bins (nh - ch)
      let cleared := (List.range jmax.toNat).foldl (clearSlot l.bins ch) (l.total, l.buf)
      .ok (nh, { l with
        head := nh, total := cleared.1, buf := cleared.2
        head_nonneg := le_of_lt (lt_of_le_of_lt l.head_nonneg (not_le.mp h)) })

/-- `l.add(t, v)`. -/
def lookback.add (l : lookback) (t v : ℤ) : Except Failure lookback :=
  l.advance t >>= fun r =>
    let pos := r.1
    let l := r.2
    if l.head - pos ≥ l.bins then .ok l
    else
      -- `l.buf[pos%l.bins]`: the index is below `bins`, and negative when `pos` is
      let i := pos.tmod l.bins
      if i < 0 then .error (.panic ("runtime error: index out of range [" ++ toString i ++ "]"))
      else .ok { l with buf := Function.update l.buf i (l.buf i + v), total := l.total + v }

/-- `l.sum(t)`. -/
def lookback.sum (l : lookback) (t : ℤ) : Except Failure (ℤ × lookback) :=
  (l.advance t).map fun r => (r.2.total, r.2)

/-- The calls the throttler makes on a lookback. -/
inductive event
  | add (t v : ℤ)
  | sum (t : ℤ)

/-- The time a call passes. -/
def event.time : event → ℤ
  | .add t _ | .sum t => t

/-- A lookback taking calls in turn: `sum` writes what it returns, and after a panic nothing
runs. -/
def step : Except Failure lookback → event → List ℤ × Except Failure lookback
  | .error f, _ => ([], .error f)
  | .ok l, .add t v => ([], l.add t v)
  | .ok l, .sum t =>
    match l.sum t with
    | .ok r => ([r.1], .ok r.2)
    | .error f => ([], .error f)

theorem step_sum {l : lookback} {t : ℤ} {r : ℤ × lookback} (h : l.advance t = .ok r) :
    step (.ok l) (.sum t) = ([r.2.total], .ok r.2) := by
  simp only [step, lookback.sum, h, map_ok']

theorem step_sum_error {l : lookback} {t : ℤ} {f : Failure} (h : l.advance t = .error f) :
    step (.ok l) (.sum t) = ([], .error f) := by
  simp only [step, lookback.sum, h, map_error']

/-! ## The clearing loop -/

section Loop

variable {bins ch : ℤ}

/-- The slot a turn of the loop clears is in the buffer. -/
theorem clearSlot_index_mem (hbins : 0 < bins) (hch : 0 ≤ ch) (j : ℕ) :
    (ch + j + 1).tmod bins ∈ Finset.Ico 0 bins :=
  Finset.mem_Ico.mpr ⟨Int.tmod_nonneg _ (by omega), Int.tmod_lt_of_pos _ hbins⟩

theorem clearSlot_buf (acc : ℤ × (ℤ → ℤ)) (j : ℕ) (i : ℤ) :
    (clearSlot bins ch acc j).2 i = if i = (ch + j + 1).tmod bins then 0 else acc.2 i :=
  Function.update_apply ..

/-- A turn of the loop takes off `total` what it clears from the slots. -/
theorem clearSlot_total (hbins : 0 < bins) (hch : 0 ≤ ch) (acc : ℤ × (ℤ → ℤ)) (j : ℕ) :
    (clearSlot bins ch acc j).1 - ∑ i ∈ Finset.Ico 0 bins, (clearSlot bins ch acc j).2 i =
      acc.1 - ∑ i ∈ Finset.Ico 0 bins, acc.2 i := by
  have h := sum_update_add (clearSlot_index_mem hbins hch j) acc.2 0
  simp only [clearSlot]
  omega

/-- The loop keeps `total` less the slots. -/
theorem foldl_clearSlot_total (hbins : 0 < bins) (hch : 0 ≤ ch) (k : ℕ) (acc : ℤ × (ℤ → ℤ)) :
    ((List.range k).foldl (clearSlot bins ch) acc).1 -
        ∑ i ∈ Finset.Ico 0 bins, ((List.range k).foldl (clearSlot bins ch) acc).2 i =
      acc.1 - ∑ i ∈ Finset.Ico 0 bins, acc.2 i := by
  induction k with
  | zero => rfl
  | succ k ih =>
    rw [List.range_succ, List.foldl_append, List.foldl_cons, List.foldl_nil]
    exact (clearSlot_total hbins hch _ k).trans ih

/-- After `k` turns the loop has zeroed the slots of `ch + j + 1` for `j < k`, and left the
others. -/
theorem foldl_clearSlot_buf (k : ℕ) (acc : ℤ × (ℤ → ℤ)) (i : ℤ) :
    ((List.range k).foldl (clearSlot bins ch) acc).2 i =
      if ∃ j : ℕ, j < k ∧ (ch + j + 1).tmod bins = i then 0 else acc.2 i := by
  induction k with
  | zero => simp
  | succ k ih =>
    rw [List.range_succ, List.foldl_append, List.foldl_cons, List.foldl_nil, clearSlot_buf, ih]
    by_cases hk : i = (ch + k + 1).tmod bins
    · -- turn `k` zeroes the slot
      rw [if_pos hk, if_pos ⟨k, by omega, hk.symm⟩]
    · -- the slot is one of the first `k` turns' or none
      have hiff : (∃ j : ℕ, j < k + 1 ∧ (ch + j + 1).tmod bins = i) ↔
          ∃ j : ℕ, j < k ∧ (ch + j + 1).tmod bins = i := by
        constructor
        · rintro ⟨j, hj, hji⟩
          have hjk : j ≠ k := by rintro rfl; exact hk hji.symm
          exact ⟨j, by omega, hji⟩
        · rintro ⟨j, hj, hji⟩
          exact ⟨j, by omega, hji⟩
      rw [if_neg hk]
      by_cases hprev : ∃ j : ℕ, j < k ∧ (ch + j + 1).tmod bins = i
      · rw [if_pos hprev, if_pos (hiff.mpr hprev)]
      · rw [if_neg hprev, if_neg (mt hiff.mp hprev)]

end Loop

/-! ## What `advance` and `add` do -/

open Classical in
/-- What an advance to the bin `nh` leaves: the same `bins` and `width`, the head at the later of
the two bins, `total` less the slots unchanged, and the slots of the bins the head crossed
zeroed. -/
structure Advanced (l : lookback) (nh : ℤ) (l' : lookback) : Prop where
  bins_eq : l'.bins = l.bins
  width_eq : l'.width = l.width
  head_eq : l'.head = max l.head nh
  total_sub : l'.total - ∑ i ∈ Finset.Ico 0 l.bins, l'.buf i =
    l.total - ∑ i ∈ Finset.Ico 0 l.bins, l.buf i
  buf_eq : ∀ i, 0 ≤ i → i < l.bins →
    l'.buf i = if ∃ c, l.head < c ∧ c ≤ nh ∧ c % l.bins = i then 0 else l.buf i

theorem advance_width_zero {l : lookback} (hw : l.width = 0) (t : ℤ) :
    l.advance t = .error (.panic "runtime error: integer divide by zero") :=
  if_pos hw

/-- **`advance`'s spec.**  On a nonzero width it returns the bin of `t` and a lookback
`Advanced` to it. -/
theorem advance_spec {l : lookback} (hw : l.width ≠ 0) (t : ℤ) :
    ∃ l', l.advance t = .ok (t.tdiv l.width, l') ∧ Advanced l (t.tdiv l.width) l' := by
  by_cases hle : t.tdiv l.width ≤ l.head
  · -- the same bin, or the clock went back: nothing moves
    refine ⟨l, by simp only [lookback.advance, if_neg hw, dif_pos hle], ⟨rfl, rfl, ?_, rfl, ?_⟩⟩
    · exact (max_eq_left hle).symm
    · intro i _ _
      rw [if_neg]
      rintro ⟨c, hc, hcnh, -⟩
      omega
  · -- the head moves forward, clearing the slots of the bins it crosses
    simp only [lookback.advance, if_neg hw, dif_neg hle]
    refine ⟨_, rfl, ⟨rfl, rfl, ?_, ?_, ?_⟩⟩
    · exact (max_eq_right (le_of_lt (not_le.mp hle))).symm
    · exact foldl_clearSlot_total l.bins_pos l.head_nonneg _ _
    · intro i hi0 hin
      dsimp only
      rw [foldl_clearSlot_buf]
      -- the loop's slots, `(ch + j + 1) % bins` for `j < min bins (nh - ch)`, are those crossed
      have hch := l.head_nonneg
      have hloop : (∃ j : ℕ, j < (min l.bins (t.tdiv l.width - l.head)).toNat ∧
            (l.head + j + 1).tmod l.bins = i) ↔
          ∃ c, l.head < c ∧ c ≤ t.tdiv l.width ∧ c % l.bins = i := by
        rw [← exists_step_iff l.bins_pos]
        simp (disch := omega) only [Int.tmod_eq_emod_of_nonneg]
      by_cases hc : ∃ c, l.head < c ∧ c ≤ t.tdiv l.width ∧ c % l.bins = i
      · rw [if_pos (hloop.mpr hc), if_pos hc]
      · rw [if_neg (mt hloop.mp hc), if_neg hc]

theorem sum_eq_ok_iff {l : lookback} {t : ℤ} {r : ℤ × lookback} :
    l.sum t = .ok r ↔ ∃ a, l.advance t = .ok a ∧ r = (a.2.total, a.2) := by
  rw [lookback.sum, map_eq_ok_iff]
  exact exists_congr fun a => and_congr_right fun _ => eq_comm

/-! ## `total` is the sum of the slots -/

/-- `total` is the sum of the slots. -/
def TotalEq (l : lookback) : Prop := l.total = ∑ i ∈ Finset.Ico 0 l.bins, l.buf i

theorem TotalEq.advance {l : lookback} (hl : TotalEq l) {t : ℤ} {r : ℤ × lookback}
    (h : l.advance t = .ok r) : TotalEq r.2 := by
  by_cases hw : l.width = 0
  · rw [advance_width_zero hw] at h
    cases h
  · obtain ⟨l', hadv, hA⟩ := advance_spec hw t
    rw [hadv] at h
    cases h
    show TotalEq l'
    have hsub := hA.total_sub
    unfold TotalEq at hl ⊢
    rw [hA.bins_eq]
    omega

theorem TotalEq.add {l : lookback} (hl : TotalEq l) {t v : ℤ} {l'' : lookback}
    (h : l.add t v = .ok l'') : TotalEq l'' := by
  obtain ⟨r, hadv, hr⟩ := bind_eq_ok_iff.mp h
  have hr2 := hl.advance hadv
  dsimp only at hr
  split_ifs at hr with hskip hneg
  · cases hr
    exact hr2
  · -- the slot gets `v`, and so does `total`
    cases hr
    have hi : r.1.tmod r.2.bins ∈ Finset.Ico 0 r.2.bins :=
      Finset.mem_Ico.mpr ⟨by omega, Int.tmod_lt_of_pos _ r.2.bins_pos⟩
    have hsum := sum_update_add hi r.2.buf (r.2.buf (r.1.tmod r.2.bins) + v)
    unfold TotalEq at hr2 ⊢
    dsimp only
    omega

/-- Every call keeps `total` the sum of the slots, as long as the lookback has not panicked. -/
theorem totalEq_step :
    Invariant (fun _ _ => True) step fun s => ∀ l, s = .ok l → TotalEq l := by
  rintro (f | l) e hs -
  · rintro l' ⟨⟩
  · cases e with
    | add t v => exact fun l' h => (hs l rfl).add h
    | sum t =>
      cases hadv : l.advance t with
      | error f =>
        rw [step_sum_error hadv]
        rintro l' ⟨⟩
      | ok r =>
        rw [step_sum hadv]
        rintro l' ⟨⟩
        exact (hs l rfl).advance hadv

/-- **`total` is the sum of the slots.**  Whatever the times of the calls, a lookback from
`newLookback` that has not panicked holds in `total` the sum of its slots. -/
theorem TotalEq.run (bins duration : ℤ) (es : List event) {l : lookback}
    (h : (Machine.run step (newLookback bins duration) es).2 = .ok l) : TotalEq l := by
  refine totalEq_step.run ?_ (admits_of_forall (fun _ _ => trivial) _ es) l h
  intro l₀ hl₀
  unfold newLookback at hl₀
  split_ifs at hl₀
  cases hl₀
  simp [TotalEq]

/-! ## The moving sum -/

/-- The moving sum: the largest bin passed so far (zero before any), and the adds counted, with
their bins. -/
structure window where
  head : ℤ
  recorded : List (ℤ × ℤ)

/-- A call on the moving sum of `bins` bins of `width`, for a positive width: the bin of a time
is its floor quotient by `width`. -/
def window.step (bins width : ℤ) (w : window) : event → List ℤ × window
  | .add t v =>
    let H := max w.head (t / width)
    ([], ⟨H, if inWindow bins H (t / width) then (t / width, v) :: w.recorded else w.recorded⟩)
  | .sum t =>
    let H := max w.head (t / width)
    ([windowSum bins H w.recorded], ⟨H, w.recorded⟩)

/-- The lookback `l` holds the window `w` of `bins` bins of `width`: its head is the window's,
every add counted is at or behind it, each slot holds what the window holds of that slot, and
`total` is the sum of the slots. -/
structure Holds (bins width : ℤ) (w : window) (l : lookback) : Prop where
  bins_eq : l.bins = bins
  width_eq : l.width = width
  head_eq : l.head = w.head
  recorded_le : ∀ x ∈ w.recorded, x.1 ≤ w.head
  buf_eq : ∀ i, 0 ≤ i → i < bins → l.buf i = slotSum bins w.head w.recorded i
  total_eq : TotalEq l

section Holds

variable {bins width : ℤ} {w : window} {l : lookback}

/-- A lookback that holds a window has in `total` what the window holds. -/
theorem Holds.total_eq_windowSum (h : Holds bins width w l) :
    l.total = windowSum bins w.head w.recorded := by
  have hbins : 0 < bins := h.bins_eq ▸ l.bins_pos
  rw [h.total_eq, h.bins_eq, ← sum_slotSum hbins]
  refine Finset.sum_congr rfl fun i hi => ?_
  obtain ⟨hi0, hin⟩ := Finset.mem_Ico.mp hi
  exact h.buf_eq i hi0 hin

/-- **Advancing to a nonnegative time** moves the window's head to the later bin. -/
theorem Holds.advance (h : Holds bins width w l) (hwidth : 0 < width) {t : ℤ} (ht : 0 ≤ t) :
    ∃ l', l.advance t = .ok (t / width, l') ∧
      Holds bins width ⟨max w.head (t / width), w.recorded⟩ l' := by
  have hw : l.width ≠ 0 := by rw [h.width_eq]; omega
  obtain ⟨l', hadv, hA⟩ := advance_spec hw t
  -- on a nonnegative time Go's truncated quotient is the floor
  have hbin : t.tdiv l.width = t / width := by rw [h.width_eq, Int.tdiv_eq_ediv_of_nonneg ht]
  rw [hbin] at hadv hA
  refine ⟨l', hadv, ⟨hA.bins_eq.trans h.bins_eq, hA.width_eq.trans h.width_eq, ?_, ?_, ?_, ?_⟩⟩
  · rw [hA.head_eq, h.head_eq]
  · exact fun x hx => le_trans (h.recorded_le x hx) (le_max_left _ _)
  · intro i hi0 hin
    rw [hA.buf_eq i hi0 (h.bins_eq ▸ hin), h.buf_eq i hi0 hin,
      slotSum_advance _ _ h.recorded_le, h.head_eq, h.bins_eq]
  · exact h.total_eq.advance hadv

/-- **Adding at a nonnegative time**: the lookback counts the add exactly when the window does,
in the slot of its bin. -/
theorem Holds.add (h : Holds bins width w l) (hwidth : 0 < width) {t : ℤ} (ht : 0 ≤ t) (v : ℤ) :
    ∃ l', l.add t v = .ok l' ∧ Holds bins width (window.step bins width w (.add t v)).2 l' := by
  obtain ⟨l₁, hadv, h₁⟩ := h.advance hwidth ht
  have hpos : 0 ≤ t / width := Int.ediv_nonneg ht hwidth.le
  have hbins : 0 < bins := h.bins_eq ▸ l.bins_pos
  -- the bin is in the window exactly when the code does not skip it
  have hin : inWindow bins (max w.head (t / width)) (t / width) ↔ ¬ l₁.head - t / width ≥ l₁.bins := by
    have hhead : l₁.head = max w.head (t / width) := h₁.head_eq
    rw [hhead, h₁.bins_eq]
    unfold inWindow
    have := le_max_right w.head (t / width)
    omega
  by_cases hskip : l₁.head - t / width ≥ l₁.bins
  · -- `bins` or more behind the head: neither counts it
    refine ⟨l₁, by simp only [lookback.add, hadv, ok_bind, if_pos hskip], ?_⟩
    simp only [window.step, if_neg (mt hin.mp (not_not.mpr hskip))]
    exact h₁
  · have hslot : (t / width).tmod l₁.bins = t / width % bins := by
      rw [Int.tmod_eq_emod_of_nonneg hpos, h₁.bins_eq]
    have hneg : ¬ (t / width).tmod l₁.bins < 0 := by
      rw [hslot]
      exact not_lt.mpr (Int.emod_nonneg _ hbins.ne')
    have hadd : l.add t v = .ok { l₁ with
        buf := Function.update l₁.buf ((t / width).tmod l₁.bins)
          (l₁.buf ((t / width).tmod l₁.bins) + v)
        total := l₁.total + v } := by
      simp only [lookback.add, hadv, ok_bind, if_neg hskip, if_neg hneg]
    refine ⟨_, hadd, ?_⟩
    simp only [window.step, if_pos (hin.mpr hskip)]
    refine ⟨h₁.bins_eq, h₁.width_eq, h₁.head_eq, ?_, fun i hi0 hib => ?_, h.total_eq.add hadd⟩
    · rintro x (_ | ⟨_, hx⟩)
      · exact le_max_right _ _
      · exact h₁.recorded_le x hx
    · -- the slot of the bin gets `v`, the others are as they were
      dsimp only
      rw [slotSum_cons, ← h₁.buf_eq i hi0 hib, hslot, Function.update_apply]
      by_cases hi : i = t / width % bins
      · rw [if_pos hi, if_pos ⟨hin.mpr hskip, hi.symm⟩, hi, add_comm]
      · rw [if_neg hi, if_neg fun hc => hi hc.2.symm, zero_add]

/-- **One call on a nonnegative time.**  A lookback that holds a window writes what the window
writes, and holds the window after the call. -/
theorem holds_step (hwidth : 0 < width) (h : Holds bins width w l) {e : event}
    (he : 0 ≤ e.time) :
    (step (.ok l) e).1 = (window.step bins width w e).1 ∧
      ∃ l', (step (.ok l) e).2 = .ok l' ∧ Holds bins width (window.step bins width w e).2 l' := by
  cases e with
  | add t v =>
    have ht : 0 ≤ t := he
    obtain ⟨l', hadd, hl'⟩ := h.add hwidth ht v
    exact ⟨rfl, l', hadd, hl'⟩
  | sum t =>
    have ht : 0 ≤ t := he
    obtain ⟨l', hadv, hl'⟩ := h.advance hwidth ht
    rw [step_sum hadv]
    exact ⟨by rw [hl'.total_eq_windowSum]; rfl, l', rfl, hl'⟩

end Holds

/-- **The lookback is the moving sum on nonnegative times.**  For a positive number of bins and
a positive width, and calls at times from 1970 on (in any order), a lookback from `newLookback`
never panics, `sum` returns what the moving sum `window` returns, and `total` is the sum of the
slots. -/
theorem lookback_moving_sum {bins duration : ℤ} (hbins : 0 < bins) (hwidth : 0 < duration.tdiv bins)
    (es : List event) (hes : ∀ e ∈ es, 0 ≤ e.time) :
    (Machine.run step (newLookback bins duration) es).1 =
        (Machine.run (window.step bins (duration.tdiv bins)) ⟨0, []⟩ es).1 ∧
      ∃ l, (Machine.run step (newLookback bins duration) es).2 = .ok l ∧
        l.total = ∑ i ∈ Finset.Ico 0 bins, l.buf i := by
  have hnew : newLookback bins duration =
      .ok ⟨bins, duration.tdiv bins, 0, 0, fun _ => 0, hbins, le_rfl⟩ := dif_pos hbins
  -- the new lookback holds the empty window
  have h₀ : Holds bins (duration.tdiv bins) ⟨0, []⟩
      ⟨bins, duration.tdiv bins, 0, 0, fun _ => 0, hbins, le_rfl⟩ :=
    ⟨rfl, rfl, rfl, nofun, fun _ _ _ => rfl, by simp [TotalEq]⟩
  -- each call keeps the lookback holding the window, as long as its time is nonnegative
  have hstep : ∀ (s : Except Failure lookback) (w : window) (e : event),
      (∃ l, s = .ok l ∧ Holds bins (duration.tdiv bins) w l) → 0 ≤ e.time →
        (step s e).1 = (window.step bins (duration.tdiv bins) w e).1 ∧
          ∃ l, (step s e).2 = .ok l ∧
            Holds bins (duration.tdiv bins) (window.step bins (duration.tdiv bins) w e).2 l := by
    rintro s w e ⟨l, rfl, h⟩ he
    exact holds_step hwidth h he
  obtain ⟨hout, l, hl, hH⟩ :=
    run_related hstep ⟨_, hnew, h₀⟩ (admits_of_forall_mem (fun e he _ => hes e he) _)
  refine ⟨hout, l, hl, ?_⟩
  rw [hH.total_eq, hH.bins_eq]

/-- The moving sum of two bins of one nanosecond over a positive time. -/
theorem lookback_moving_sum_two_bins :
    (Machine.run step (newLookback 2 2) [.add 3 5, .add 2 1, .sum 4]).1 =
        (Machine.run (window.step 2 ((2 : ℤ).tdiv 2)) ⟨0, []⟩ [.add 3 5, .add 2 1, .sum 4]).1 ∧
      ∃ l, (Machine.run step (newLookback 2 2) [.add 3 5, .add 2 1, .sum 4]).2 = .ok l ∧
        l.total = ∑ i ∈ Finset.Ico 0 2, l.buf i :=
  lookback_moving_sum (by decide) (by decide) _ (by simp [event.time])

/-- An add one nanosecond before 1970, on two bins of one nanosecond: its bin `-1` is in the
window `(-2, 0]`, and the moving sum counts it, but its slot `-1 % 2` is `-1`, and the lookback
panics. -/
theorem lookback_negative_time_panics :
    (Machine.run step (newLookback 2 2) [.add (-1) 1]).2 =
        .error (.panic "runtime error: index out of range [-1]") ∧
      (Machine.run (window.step 2 1) ⟨0, []⟩ [.add (-1) 1, .sum 0]).1 = [1] := by
  constructor
  · rfl
  · decide

end Adaptive
end Rls
end GrpcGo
