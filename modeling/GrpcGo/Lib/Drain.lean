import Mathlib

/-!
# A queue of chunks written out piece by piece

A writer takes chunks off the front of a queue and writes each of them out in one or more
pieces; each chunk carries a tag (for a DATA frame, its end-of-stream flag).  What is still
pending is the queue with the chunks written whole removed and the first one cut by what was
written of it.  `Drained queued written pending` records that: `written` is the concatenation of
the first `k` chunks of `queued` and the first `c` elements of chunk `k`, and `pending` is the
rest.  It follows that nothing is lost, duplicated or reordered, `written ++ flat pending =
flat queued` (`Drained.append_flat`), and that a piece that finishes a chunk ends exactly at
that chunk's end in `flat queued` (`Drained.write_all_boundary`).
-/

namespace Drain

variable {α β : Type _}

/-- The elements of the chunks of a queue, in order. -/
def flat (q : List (List α × β)) : List α := q.flatMap Prod.fst

/-- The elements of the first chunk. -/
def headChunk : List (List α × β) → List α
  | [] => []
  | (b, _) :: _ => b

/-- The queue with the first `c` elements of its first chunk written. -/
def cutHead (c : Nat) : List (List α × β) → List (List α × β)
  | [] => []
  | (b, t) :: q => (b.drop c, t) :: q

/-- `pending` is what is left of the chunks `queued` after `written` has been written from their
front: the first `k` chunks whole and `c` elements of the next. -/
def Drained (queued : List (List α × β)) (written : List α) (pending : List (List α × β)) :
    Prop :=
  ∃ k c, k ≤ queued.length ∧ c ≤ (headChunk (queued.drop k)).length ∧
    pending = cutHead c (queued.drop k) ∧
    written = flat (queued.take k) ++ (headChunk (queued.drop k)).take c

@[simp] theorem flat_nil : flat ([] : List (List α × β)) = [] := rfl

@[simp] theorem flat_cons (b : List α) (t : β) (q : List (List α × β)) :
    flat ((b, t) :: q) = b ++ flat q := rfl

@[simp] theorem flat_append (q q' : List (List α × β)) : flat (q ++ q') = flat q ++ flat q' := by
  simp [flat]

/-- Writing the first `c` elements of the first chunk and then what is left gives the queue. -/
theorem take_headChunk_append_flat_cutHead (c : Nat) :
    ∀ q : List (List α × β), (headChunk q).take c ++ flat (cutHead c q) = flat q
  | [] => by simp [headChunk, cutHead]
  | (b, t) :: q => by
    simp only [headChunk, cutHead, flat_cons, ← List.append_assoc, List.take_append_drop]

theorem Drained.nil : Drained ([] : List (List α × β)) [] [] :=
  ⟨0, 0, le_rfl, le_rfl, rfl, rfl⟩

/-- Nothing queued is lost or duplicated: what was written and what is pending make up the
queue. -/
theorem Drained.append_flat {queued pending : List (List α × β)} {written : List α}
    (h : Drained queued written pending) : written ++ flat pending = flat queued := by
  obtain ⟨k, c, -, -, rfl, rfl⟩ := h
  rw [List.append_assoc, take_headChunk_append_flat_cutHead, ← flat_append,
    List.take_append_drop]

theorem Drained.isPrefix_flat {queued pending : List (List α × β)} {written : List α}
    (h : Drained queued written pending) : written <+: flat queued :=
  ⟨flat pending, h.append_flat⟩

/-- A chunk queued at the back leaves the first chunk and what was written of it as they
were; if nothing was pending, nothing of a chunk was written. -/
theorem cutHead_append {c : Nat} {q : List (List α × β)} (hc : c ≤ (headChunk q).length)
    (x : List α × β) :
    cutHead c (q ++ [x]) = cutHead c q ++ [x] ∧
      (headChunk (q ++ [x])).take c = (headChunk q).take c ∧
      c ≤ (headChunk (q ++ [x])).length := by
  cases q with
  | nil =>
    obtain rfl : c = 0 := Nat.le_zero.mp hc
    simp [cutHead, headChunk]
  | cons y q =>
    obtain ⟨b, t⟩ := y
    exact ⟨rfl, rfl, hc⟩

/-- A chunk queued behind the others is pending behind them. -/
theorem Drained.push {queued pending : List (List α × β)} {written : List α}
    (h : Drained queued written pending) (x : List α × β) :
    Drained (queued ++ [x]) written (pending ++ [x]) := by
  obtain ⟨k, c, hk, hc, rfl, rfl⟩ := h
  obtain ⟨hcut, htake, hc'⟩ := cutHead_append hc x
  have hdrop : (queued ++ [x]).drop k = queued.drop k ++ [x] := List.drop_append_of_le_length hk
  refine ⟨k, c, by simp only [List.length_append]; omega, ?_, ?_, ?_⟩
  · rw [hdrop]
    exact hc'
  · rw [hdrop, hcut]
  · rw [hdrop, htake, List.take_append_of_le_length hk]

/-- The first pending chunk is what is left of a queued chunk `b₀` after `c` of its elements,
and the chunks behind it are pending whole. -/
theorem Drained.head {queued pending : List (List α × β)} {written b : List α} {t : β}
    (h : Drained queued written ((b, t) :: pending)) :
    ∃ k c b₀, queued.drop k = (b₀, t) :: pending ∧ c ≤ b₀.length ∧ b = b₀.drop c ∧
      written = flat (queued.take k) ++ b₀.take c := by
  obtain ⟨k, c, -, hc, hp, hw⟩ := h
  cases hq : queued.drop k with
  | nil => rw [hq] at hp; cases hp
  | cons y q =>
    obtain ⟨b₀, t₀⟩ := y
    rw [hq] at hp hc hw
    simp only [cutHead, List.cons.injEq, Prod.mk.injEq] at hp
    obtain ⟨⟨hb, ht⟩, hq'⟩ := hp
    subst hb ht hq'
    exact ⟨k, c, b₀, hq, hc, rfl, hw⟩

/-- Writing the whole first pending chunk. -/
theorem Drained.write_all {queued pending : List (List α × β)} {written b : List α} {t : β}
    (h : Drained queued written ((b, t) :: pending)) : Drained queued (written ++ b) pending := by
  obtain ⟨k, c, b₀, hq, -, rfl, rfl⟩ := h.head
  have hlen : k + 1 ≤ queued.length := by
    have := congrArg List.length hq
    simp only [List.length_drop, List.length_cons] at this
    omega
  have hdrop : queued.drop (k + 1) = pending := by
    rw [← List.drop_drop, hq, List.drop_one, List.tail_cons]
  refine ⟨k + 1, 0, hlen, Nat.zero_le _, ?_, ?_⟩
  · rw [hdrop]
    cases pending <;> simp [cutHead]
  · -- the chunk `b₀` is written as its first `c` elements and the rest
    rw [List.take_add, hq, flat_append, List.take_zero, List.append_nil, List.append_assoc,
      List.take_append_drop]
    simp

/-- Writing the first `n` elements of the first pending chunk, not all of it. -/
theorem Drained.write_part {queued pending : List (List α × β)} {written b : List α} {t : β}
    (h : Drained queued written ((b, t) :: pending)) (n : Nat) (hn : n < b.length) :
    Drained queued (written ++ b.take n) ((b.drop n, t) :: pending) := by
  obtain ⟨k, c, b₀, hq, hc, rfl, rfl⟩ := h.head
  have hlen : k ≤ queued.length := by
    have := congrArg List.length hq
    simp only [List.length_drop, List.length_cons] at this
    omega
  rw [List.length_drop] at hn
  refine ⟨k, c + n, hlen, ?_, ?_, ?_⟩
  · rw [hq, headChunk]
    omega
  · rw [hq, cutHead, List.drop_drop]
  · rw [hq, headChunk, List.take_add, List.append_assoc]

/-- Writing `n` elements of the first pending chunk: the chunk is removed once all of it is
written. -/
theorem Drained.write {queued pending : List (List α × β)} {written b : List α} {t : β}
    (h : Drained queued written ((b, t) :: pending)) (n : Nat) :
    Drained queued (written ++ b.take n)
      (if b.length ≤ n then pending else (b.drop n, t) :: pending) := by
  split_ifs with hn
  · rw [List.take_of_length_le hn]
    exact h.write_all
  · exact h.write_part n (by omega)

/-- A piece that finishes the first pending chunk ends where a queued chunk of the same tag
ends. -/
theorem Drained.write_all_boundary {queued pending : List (List α × β)} {written b : List α}
    {t : β} (h : Drained queued written ((b, t) :: pending)) :
    ∃ pre b₀ post, queued = pre ++ (b₀, t) :: post ∧ flat pre ++ b₀ = written ++ b := by
  obtain ⟨k, c, b₀, hq, -, rfl, rfl⟩ := h.head
  refine ⟨queued.take k, b₀, pending, ?_, ?_⟩
  · rw [← hq, List.take_append_drop]
  · rw [List.append_assoc, List.take_append_drop]

/-- Chunks queued later do not move a chunk boundary. -/
theorem boundary_append {queued : List (List α × β)} {pre post : List (List α × β)} {b₀ : List α}
    {t : β} (h : queued = pre ++ (b₀, t) :: post) (more : List (List α × β)) :
    queued ++ more = pre ++ (b₀, t) :: (post ++ more) := by
  rw [h, List.append_assoc, List.cons_append]

example : Drained [([1, 2, 3], false), ([4], true)] [1, 2] [([3], false), ([4], true)] :=
  ⟨0, 2, by decide, by decide, rfl, rfl⟩

end Drain
