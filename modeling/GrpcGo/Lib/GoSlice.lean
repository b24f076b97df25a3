import Mathlib

/-!
# Go slices

A Go slice is a window of length `len` on a backing array of capacity `cap`.  The modelled code
uses the capacity to decide how much to read into the unused tail of a buffer and when to grow
it, and a slice expression `s[:high]` reads on into that tail up to the capacity.  `Slice` is the
elements, the capacity, and the rest of the backing array past the length; it cannot be built
with more elements than capacity.  `sliceTo` and `sliceFrom` are the slice expressions with
their bounds checks, which end in a run-time panic (`Failure.panic`) out of bounds; `divU32` is
the other run-time check the modelled code meets, `uint32` division by zero.

`copy` is Go's built-in `copy(dst, src)`, `putAt` is `copy(dst[i:], src)`, and `chunks n xs` is
the sequence of slices visited by the loop `for start := 0; start < len(xs); start += n`.
-/

namespace GoStd

variable {α : Type _}

/-! ## `copy` -/

/-- `copy(dst, src)`: the first `min(len(dst), len(src))` elements of `dst` are overwritten by
those of `src`; the length of `dst` is unchanged. -/
def copy (dst src : List α) : List α :=
  src.take dst.length ++ dst.drop src.length

@[simp] theorem length_copy (dst src : List α) : (copy dst src).length = dst.length := by
  simp only [copy, List.length_append, List.length_take, List.length_drop]
  omega

theorem copy_of_length_le {dst src : List α} (h : src.length ≤ dst.length) :
    copy dst src = src ++ dst.drop src.length := by
  rw [copy, List.take_of_length_le h]

theorem take_copy_of_length_le {dst src : List α} (h : src.length ≤ dst.length) :
    (copy dst src).take src.length = src := by
  rw [copy_of_length_le h, List.take_left]

/-- `copy(dst[i:], src)`. -/
def putAt (dst : List α) (i : Nat) (src : List α) : List α :=
  dst.take i ++ copy (dst.drop i) src

@[simp] theorem length_putAt (dst : List α) (i : Nat) (src : List α) :
    (putAt dst i src).length = dst.length := by
  simp only [putAt, List.length_append, length_copy, List.length_take, List.length_drop]
  omega

/-- Writing within bounds replaces `len(src)` elements from position `i`. -/
theorem putAt_of_le {dst src : List α} {i : Nat} (h : i + src.length ≤ dst.length) :
    putAt dst i src = dst.take i ++ src ++ dst.drop (i + src.length) := by
  have hsrc : src.length ≤ (dst.drop i).length := by rw [List.length_drop]; omega
  rw [putAt, copy_of_length_le hsrc, List.drop_drop, List.append_assoc, Nat.add_comm]

/-- A longer write at the same position hides a shorter one. -/
theorem putAt_putAt_of_length_le {dst a b : List α} {i : Nat} (hab : a.length ≤ b.length)
    (h : i + b.length ≤ dst.length) : putAt (putAt dst i a) i b = putAt dst i b := by
  have hX : putAt dst i a = dst.take i ++ a ++ dst.drop (i + a.length) := putAt_of_le (by omega)
  have hi : (dst.take i ++ a).length = i + a.length := by
    rw [List.length_append, List.length_take]
    omega
  have htake : (putAt dst i a).take i = dst.take i := by
    rw [hX, List.append_assoc, List.take_left' (by rw [List.length_take]; omega)]
  have hdrop : (putAt dst i a).drop (i + b.length) = dst.drop (i + b.length) := by
    rw [hX, List.drop_append, List.drop_eq_nil_of_le (by omega), List.nil_append, List.drop_drop,
      hi]
    congr 1
    omega
  rw [putAt_of_le (by rw [length_putAt]; exact h), htake, hdrop, putAt_of_le h]

/-- Two adjacent writes, the second one first. -/
theorem putAt_adjacent {dst a b : List α} {i : Nat} (h : i + a.length + b.length ≤ dst.length) :
    putAt (putAt dst (i + a.length) b) i a =
      dst.take i ++ a ++ b ++ dst.drop (i + a.length + b.length) := by
  have hX : putAt dst (i + a.length) b =
      dst.take (i + a.length) ++ b ++ dst.drop (i + a.length + b.length) := putAt_of_le h
  have hi : (dst.take (i + a.length)).length = i + a.length := by
    rw [List.length_take]
    omega
  have htake : (putAt dst (i + a.length) b).take i = dst.take i := by
    rw [hX, List.append_assoc, List.take_append_of_le_length (by omega), List.take_take,
      Nat.min_eq_left (by omega)]
  have hdrop : (putAt dst (i + a.length) b).drop (i + a.length) =
      b ++ dst.drop (i + a.length + b.length) := by
    rw [hX, List.append_assoc, List.drop_left' hi]
  rw [putAt_of_le (by rw [length_putAt]; omega), htake, hdrop, List.append_assoc,
    List.append_assoc, List.append_assoc]

/-! ## Slices with a capacity -/

/-- A slice: its elements, the capacity of its backing array, and the rest of that array. -/
structure Slice (α : Type _) where
  data : List α
  cap : Nat
  len_le_cap : data.length ≤ cap
  /-- The elements of the backing array past the length, up to the capacity. -/
  spare : List α
  spare_length : spare.length = cap - data.length

namespace Slice

/-- `tmp := make([]T, len(s), cap(s)+n); copy(tmp, s)`: a new array, zeroed past the copy. -/
def grow [Inhabited α] (s : Slice α) (n : Nat) : Slice α :=
  ⟨s.data, s.cap + n, Nat.le_add_right_of_le s.len_le_cap,
    List.replicate (s.cap + n - s.data.length) default, List.length_replicate ..⟩

/-- `copy(s, src)`. -/
def copyFrom (s : Slice α) (src : List α) : Slice α :=
  ⟨copy s.data src, s.cap, by rw [length_copy]; exact s.len_le_cap, s.spare,
    by rw [length_copy]; exact s.spare_length⟩

/-- `s[:n]` for `n ≤ len(s)`: the elements cut off stay in the backing array. -/
def take (s : Slice α) (n : Nat) : Slice α :=
  ⟨s.data.take n, s.cap, (List.length_take_le' _ _).trans s.len_le_cap, s.data.drop n ++ s.spare,
    by have := s.len_le_cap; have := s.spare_length; simp only [List.length_append,
      List.length_drop, List.length_take]; omega⟩

/-- `s = s[:len(s)+len(more)]` after `more` has been written into the unused capacity. -/
def extend (s : Slice α) (more : List α) (h : s.data.length + more.length ≤ s.cap) : Slice α :=
  ⟨s.data ++ more, s.cap, by rw [List.length_append]; exact h, s.spare.drop more.length,
    by rw [List.length_drop, s.spare_length, List.length_append]; omega⟩

@[simp] theorem data_grow [Inhabited α] (s : Slice α) (n : Nat) : (s.grow n).data = s.data := rfl
@[simp] theorem cap_grow [Inhabited α] (s : Slice α) (n : Nat) : (s.grow n).cap = s.cap + n := rfl
@[simp] theorem data_copyFrom (s : Slice α) (src : List α) :
    (s.copyFrom src).data = copy s.data src := rfl
@[simp] theorem data_take (s : Slice α) (n : Nat) : (s.take n).data = s.data.take n := rfl
@[simp] theorem data_extend (s : Slice α) (more : List α) (h) :
    (s.extend more h).data = s.data ++ more := rfl
@[simp] theorem cap_extend (s : Slice α) (more : List α) (h) : (s.extend more h).cap = s.cap := rfl
@[simp] theorem spare_copyFrom (s : Slice α) (src : List α) : (s.copyFrom src).spare = s.spare :=
  rfl
@[simp] theorem spare_take (s : Slice α) (n : Nat) :
    (s.take n).spare = s.data.drop n ++ s.spare := rfl

/-- The growth step `if len(s) == cap(s) { grow }` leaves room for at least one element. -/
theorem length_lt_cap_of_grow [Inhabited α] (s : Slice α) {n : Nat} (hn : 0 < n) :
    let t := if s.data.length = s.cap then s.grow n else s
    t.data.length < t.cap := by
  have := s.len_le_cap
  split <;> simp only [data_grow, cap_grow] <;> omega

end Slice

/-! ## Slice expressions -/

/-- How a Go computation that can fail ends: with the `error` it returns, or with a run-time
panic. -/
inductive Failure where
  | error (msg : String)
  | panic (msg : String)
deriving DecidableEq, Repr

/-- Go's `a / b` on `uint32`: the quotient, and a run-time panic when `b` is zero. -/
def divU32 (a b : UInt32) : Except Failure UInt32 :=
  if b = 0 then .error (.panic "runtime error: integer divide by zero") else .ok (a / b)

theorem divU32_of_ne_zero {a b : UInt32} (h : b ≠ 0) : divU32 a b = .ok (a / b) := if_neg h

/-- `s[:high]` on a slice whose backing array holds `spare` past its length: within the capacity
it reads on into `spare`, past it the program panics. -/
def sliceTo (s spare : List α) (high : Nat) : Except Failure (List α) :=
  if high ≤ s.length + spare.length then .ok ((s ++ spare).take high)
  else .error (.panic ("runtime error: slice bounds out of range [:" ++ toString high ++
    "] with capacity " ++ toString (s.length + spare.length)))

/-- `s[low:]`: past the length the program panics. -/
def sliceFrom (s : List α) (low : Nat) : Except Failure (List α) :=
  if low ≤ s.length then .ok (s.drop low)
  else .error (.panic ("runtime error: slice bounds out of range [" ++ toString low ++ ":" ++
    toString s.length ++ "]"))

/-- Within the length, `s[:high]` is the front of `s`. -/
theorem sliceTo_of_le {s spare : List α} {high : Nat} (h : high ≤ s.length) :
    sliceTo s spare high = .ok (s.take high) := by
  rw [sliceTo, if_pos (by omega), List.take_append_of_le_length h]

theorem sliceFrom_of_le {s : List α} {low : Nat} (h : low ≤ s.length) :
    sliceFrom s low = .ok (s.drop low) := by
  rw [sliceFrom, if_pos h]

/-! ## Fixed-size steps over a slice -/

/-- `chunks.go fuel xs`, with `fuel` at least `len(xs)`. -/
def chunks.go (n : Nat) : Nat → List α → List (List α)
  | 0, _ => []
  | _ + 1, [] => []
  | fuel + 1, x :: xs => (x :: xs).take n :: chunks.go n fuel ((x :: xs).drop n)

/-- The slices `xs[start:min(start+n, len(xs))]` of `for start := 0; start < len(xs); start += n`.
For `0 < n` the loop takes at most `len(xs)` steps, which is the fuel; Go's loop does not end
for `n = 0`, which no caller passes with a nonempty `xs`. -/
def chunks (n : Nat) (xs : List α) : List (List α) :=
  chunks.go n xs.length xs

theorem chunks.go_eq {n : Nat} (hn : 0 < n) :
    ∀ (fuel : Nat) (xs : List α), xs.length ≤ fuel → chunks.go n fuel xs = chunks n xs
  | 0, xs, h => by
    rw [List.eq_nil_of_length_eq_zero (Nat.le_zero.mp h)]
    rfl
  | _ + 1, [], _ => by cases n <;> rfl
  | fuel + 1, x :: xs, h => by
    have hdrop : ((x :: xs).drop n).length ≤ xs.length := by
      rw [List.length_drop, List.length_cons]
      omega
    rw [chunks, List.length_cons, chunks.go, chunks.go,
      chunks.go_eq hn fuel _ (hdrop.trans (Nat.le_of_succ_le_succ h)),
      chunks.go_eq hn xs.length _ hdrop]
termination_by fuel => fuel
decreasing_by
  · omega
  · -- the slice after the first element fits in the fuel left
    rw [List.length_cons] at h
    omega

@[simp] theorem chunks_nil (n : Nat) : chunks n ([] : List α) = [] := rfl

/-- Induction along the loop: a property of the empty slice that passes from `xs.drop n` to `xs`
holds of every slice. -/
theorem chunks.induction {n : Nat} (hn : 0 < n) {motive : List α → Prop} (nil : motive [])
    (ind : ∀ xs, xs ≠ [] → motive (xs.drop n) → motive xs) (xs : List α) : motive xs := by
  induction h : xs.length using Nat.strong_induction_on generalizing xs with
  | _ len ih =>
    by_cases hxs : xs = []
    · rw [hxs]
      exact nil
    · refine ind xs hxs (ih _ ?_ _ rfl)
      have := List.length_pos_iff.mpr hxs
      rw [List.length_drop]
      omega

/-- One step of the loop. -/
theorem chunks_of_ne_nil {n : Nat} (hn : 0 < n) {xs : List α} (h : xs ≠ []) :
    chunks n xs = xs.take n :: chunks n (xs.drop n) := by
  obtain ⟨x, xs, rfl⟩ := List.exists_cons_of_ne_nil h
  rw [chunks, List.length_cons, chunks.go, chunks.go_eq hn]
  rw [List.length_drop, List.length_cons]
  omega

/-- The loop visits every element once, in order. -/
theorem flatten_chunks {n : Nat} (hn : 0 < n) (xs : List α) : (chunks n xs).flatten = xs := by
  induction xs using chunks.induction hn with
  | nil => rfl
  | ind xs hxs ih => rw [chunks_of_ne_nil hn hxs, List.flatten_cons, ih, List.take_append_drop]

/-- Cutting each slice again visits the same elements. -/
theorem flatten_flatMap_chunks {n : Nat} (hn : 0 < n) (xss : List (List α)) :
    (xss.flatMap (chunks n)).flatten = xss.flatten := by
  induction xss with
  | nil => rfl
  | cons xs xss ih =>
    rw [List.flatMap_cons, List.flatten_append, ih, flatten_chunks hn, List.flatten_cons]

/-- Every visited slice is nonempty and at most `n` long. -/
theorem mem_chunks {n : Nat} (hn : 0 < n) {xs c : List α} (hc : c ∈ chunks n xs) :
    0 < c.length ∧ c.length ≤ n := by
  induction xs using chunks.induction hn with
  | nil => simp at hc
  | ind xs hxs ih =>
    rw [chunks_of_ne_nil hn hxs, List.mem_cons] at hc
    rcases hc with rfl | hc
    · rw [List.length_take]
      have := List.length_pos_iff.mpr hxs
      omega
    · exact ih hc

/-- The loop takes `⌈len(xs) / n⌉` steps. -/
theorem length_chunks {n : Nat} (hn : 0 < n) (xs : List α) :
    (chunks n xs).length = (xs.length + n - 1) / n := by
  induction xs using chunks.induction hn with
  | nil => simp only [chunks_nil, List.length_nil, Nat.zero_add]; exact (Nat.div_eq_of_lt (by omega)).symm
  | ind xs hxs ih =>
    rw [chunks_of_ne_nil hn hxs, List.length_cons, ih, List.length_drop]
    have hpos := List.length_pos_iff.mpr hxs
    by_cases hle : xs.length ≤ n
    · rw [Nat.sub_eq_zero_of_le hle, Nat.zero_add, Nat.div_eq_of_lt (by omega)]
      exact ((Nat.div_eq_iff hn).mpr ⟨by omega, by omega⟩).symm
    · rw [show xs.length + n - 1 = (xs.length - n + n - 1) + n by omega, Nat.add_div_right _ hn]

/-- The first `j` slices, when `j` of them fit, are the first `j * n` elements. -/
theorem flatten_take_chunks {n : Nat} (hn : 0 < n) (xs : List α) :
    ∀ j, j * n ≤ xs.length → ((chunks n xs).take j).flatten = xs.take (j * n) := by
  induction xs using chunks.induction hn with
  | nil => intro j _; simp
  | ind xs hxs ih =>
    intro j hj
    cases j with
    | zero => simp
    | succ j =>
      have hrest : j * n ≤ (xs.drop n).length := by
        rw [List.length_drop, Nat.succ_mul] at *
        omega
      rw [chunks_of_ne_nil hn hxs, List.take_succ_cons, List.flatten_cons, ih j hrest,
        Nat.succ_mul, Nat.add_comm, List.take_add]

/-- Each of the first `j` slices, when `j` of them fit, is `n` long. -/
theorem length_of_mem_take_chunks {n : Nat} (hn : 0 < n) (xs : List α) :
    ∀ j, j * n ≤ xs.length → ∀ c ∈ (chunks n xs).take j, c.length = n := by
  induction xs using chunks.induction hn with
  | nil => intro j _ c hc; simp at hc
  | ind xs hxs ih =>
    intro j hj c hc
    cases j with
    | zero => simp at hc
    | succ j =>
      rw [chunks_of_ne_nil hn hxs, List.take_succ_cons, List.mem_cons] at hc
      rw [Nat.succ_mul] at hj
      rcases hc with rfl | hc
      · rw [List.length_take]
        omega
      · refine ih j ?_ c hc
        rw [List.length_drop]
        omega

/-- Every slice but the last is `n` long. -/
theorem length_of_mem_dropLast_chunks {n : Nat} (hn : 0 < n) (xs : List α) :
    ∀ c ∈ (chunks n xs).dropLast, c.length = n := by
  induction xs using chunks.induction hn with
  | nil => intro c hc; simp at hc
  | ind xs hxs ih =>
    intro c hc
    rw [chunks_of_ne_nil hn hxs] at hc
    by_cases hrest : xs.drop n = []
    · rw [hrest, chunks_nil] at hc
      simp at hc
    · -- a slice follows, so this one is full
      have hlen : n < xs.length := by
        have := List.length_pos_iff.mpr hrest
        rw [List.length_drop] at this
        omega
      rw [List.dropLast_cons_of_ne_nil (by rw [chunks_of_ne_nil hn hrest]; simp),
        List.mem_cons] at hc
      rcases hc with rfl | hc
      · rw [List.length_take]
        omega
      · exact ih c hc

end GoStd
