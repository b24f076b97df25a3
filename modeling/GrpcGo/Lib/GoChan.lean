import GrpcGo.Lib.GoSlice

/-!
# Go channels, made and closed

What a proof about closing channels needs of them: the channels a program has made, numbered
in the order it made them, and whether each is closed.  `close(ch)` panics on the nil channel
and on a channel already closed, so a run that never panics closes each channel at most once.

* `isOpen_make`, `getElem?_make`: `make` adds one open channel and leaves the others;
* `close_of_isOpen`: closing an open channel closes it and leaves the others;
* `AllClosed.make`, `allClosed_close`: when all channels but one are closed, making a new one
  or closing that one keeps it so.
-/

namespace GoStd

/-- The channels made so far, by number: whether each is closed. -/
structure Chans where
  closed : List Bool
  deriving DecidableEq, Repr

namespace Chans

/-- No channel yet. -/
def empty : Chans := ⟨[]⟩

/-- `make(chan T)`: the number of the new channel, which is open. -/
def make (h : Chans) : ℕ × Chans := (h.closed.length, ⟨h.closed ++ [false]⟩)

/-- Channel `i` was made and is open. -/
def IsOpen (h : Chans) (i : ℕ) : Prop := h.closed[i]? = some false

/-- Channel `i` was made and is closed. -/
def IsClosed (h : Chans) (i : ℕ) : Prop := h.closed[i]? = some true

instance (h : Chans) (i : ℕ) : Decidable (h.IsOpen i) := inferInstanceAs (Decidable (_ = _))

instance (h : Chans) (i : ℕ) : Decidable (h.IsClosed i) := inferInstanceAs (Decidable (_ = _))

/-- `close(ch)`, where `none` is the nil channel. -/
def close (h : Chans) : Option ℕ → Except Failure Chans
  | none => .error (.panic "close of nil channel")
  | some i =>
    if h.IsOpen i then .ok ⟨h.closed.set i true⟩ else .error (.panic "close of closed channel")

@[simp] theorem make_fst (h : Chans) : h.make.1 = h.closed.length := rfl

@[simp] theorem closed_make (h : Chans) : h.make.2.closed = h.closed ++ [false] := rfl

theorem getElem?_make (h : Chans) (j : ℕ) :
    h.make.2.closed[j]? = if j = h.closed.length then some false else h.closed[j]? := by
  rw [closed_make]
  split_ifs with hj
  · simp [hj]
  · rcases Nat.lt_or_gt_of_ne hj with hlt | hgt
    · exact List.getElem?_append_left hlt
    · rw [List.getElem?_eq_none (by simp; omega), List.getElem?_eq_none (by omega)]

/-- The channel `make` returns is open. -/
theorem isOpen_make (h : Chans) : h.make.2.IsOpen h.make.1 := by
  simp [IsOpen]

/-- A closed channel stays closed when another is made. -/
theorem IsClosed.make {h : Chans} {j : ℕ} (hj : h.IsClosed j) : h.make.2.IsClosed j := by
  have hlt : j < h.closed.length := (List.getElem?_eq_some_iff.mp hj).1
  unfold IsClosed at hj ⊢
  rw [getElem?_make, if_neg (Nat.ne_of_lt hlt), hj]

/-- **Closing an open channel** closes it and leaves every other channel as it was. -/
theorem close_of_isOpen {h : Chans} {i : ℕ} (hi : h.IsOpen i) :
    ∃ h', h.close (some i) = .ok h' ∧ h'.closed.length = h.closed.length ∧ h'.IsClosed i ∧
      ∀ j, j ≠ i → h'.closed[j]? = h.closed[j]? := by
  have hlt : i < h.closed.length := (List.getElem?_eq_some_iff.mp hi).1
  refine ⟨⟨h.closed.set i true⟩, if_pos hi, List.length_set .., ?_, fun j hj => ?_⟩
  · simp [IsClosed, hlt]
  · exact List.getElem?_set_ne (Ne.symm hj)

/-- Every channel made so far is closed. -/
def AllClosed (h : Chans) : Prop := ∀ j, j < h.closed.length → h.IsClosed j

/-- When every channel is closed, the channels `make` leaves are closed but the new one. -/
theorem AllClosed.make {h : Chans} (hall : h.AllClosed) {j : ℕ} (hj : j < h.make.2.closed.length)
    (hne : j ≠ h.make.1) : h.make.2.IsClosed j := by
  simp only [closed_make, List.length_append, List.length_singleton, make_fst] at hj hne
  exact (hall j (by omega)).make

/-- **Closing the one open channel** leaves every channel closed. -/
theorem allClosed_close {h : Chans} {i : ℕ} (hi : h.IsOpen i)
    (hothers : ∀ j, j < h.closed.length → j ≠ i → h.IsClosed j) :
    ∃ h', h.close (some i) = .ok h' ∧ h'.AllClosed := by
  obtain ⟨h', hclose, hlen, hclosed, hsame⟩ := close_of_isOpen hi
  refine ⟨h', hclose, fun j hj => ?_⟩
  by_cases hji : j = i
  · rw [hji]
    exact hclosed
  · unfold IsClosed
    rw [hsame j hji]
    exact hothers j (hlen ▸ hj) hji

end Chans

end GoStd
