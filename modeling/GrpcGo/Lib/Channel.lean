import Mathlib

/-!
# Reading a stream in order

The abstract meaning of a reliable byte channel seen from its reading end.  A reader is a
function from a state and a buffer size to a result and the next state.  `Delivers read Holds`
says that `Holds st s` is a simulation of the channel that still has `s` to deliver: from such a
state a read returns a prefix of `s` no longer than the buffer, nonempty when the buffer is, and
the state then still has the rest to deliver; once nothing is left, reads fail.

`delivered_prefix` and `delivered_eq` are what a run of reads then gets: the bytes of the
successful reads, in order, are a prefix of the stream, and all of it once there have been as
many reads into nonempty buffers as the stream is long.
-/

namespace Channel

variable {σ ε α : Type _}

/-- The results of reads into buffers of the sizes `ks`, in order, and the final state. -/
def run (read : σ → Nat → Except ε (List α) × σ) : σ → List Nat → List (Except ε (List α)) × σ
  | st, [] => ([], st)
  | st, k :: ks =>
    let step := read st k
    let rest := run read step.2 ks
    (step.1 :: rest.1, rest.2)

/-- The elements returned by the successful reads, in order. -/
def delivered (rs : List (Except ε (List α))) : List α :=
  (rs.filterMap fun r => r.toOption).flatten

@[simp] theorem delivered_nil : delivered ([] : List (Except ε (List α))) = [] := rfl

@[simp] theorem delivered_ok_cons (t : List α) (rs : List (Except ε (List α))) :
    delivered (.ok t :: rs) = t ++ delivered rs := rfl

@[simp] theorem delivered_error_cons (e : ε) (rs : List (Except ε (List α))) :
    delivered (.error e :: rs) = delivered rs := rfl

/-- A reader delivers the stream of a state in order. -/
structure Delivers (read : σ → Nat → Except ε (List α) × σ) (Holds : σ → List α → Prop) :
    Prop where
  read_front : ∀ {st s} (k : Nat), Holds st s → s ≠ [] →
    ∃ t st', read st k = (.ok t, st') ∧ t <+: s ∧ t.length ≤ k ∧ (0 < k → t ≠ []) ∧
      Holds st' (s.drop t.length)
  read_end : ∀ {st} (k : Nat), Holds st [] → ∃ e st', read st k = (.error e, st') ∧ Holds st' []

section Run

variable {read : σ → Nat → Except ε (List α) × σ} {Holds : σ → List α → Prop}

theorem run_cons (st : σ) (k : Nat) (ks : List Nat) :
    run read st (k :: ks) = ((read st k).1 :: (run read (read st k).2 ks).1,
      (run read (read st k).2 ks).2) := rfl

/-- Once the stream is exhausted, nothing more is delivered. -/
theorem delivered_of_end (hd : Delivers read Holds) :
    ∀ (ks : List Nat) {st : σ}, Holds st [] → delivered (run read st ks).1 = []
  | [], _, _ => rfl
  | k :: ks, st, h => by
    obtain ⟨e, st', hread, h'⟩ := hd.read_end k h
    rw [run_cons, hread, delivered_error_cons]
    exact delivered_of_end hd ks h'

/-- **Safety**: whatever the buffer sizes, the reads deliver a prefix of the stream, in order. -/
theorem delivered_prefix (hd : Delivers read Holds) :
    ∀ (ks : List Nat) {st : σ} {s : List α}, Holds st s → delivered (run read st ks).1 <+: s
  | [], _, _, _ => List.nil_prefix
  | k :: ks, st, s, h => by
    by_cases hs : s = []
    · subst hs
      rw [delivered_of_end hd _ h]
    · obtain ⟨t, st', hread, ht, -, -, h'⟩ := hd.read_front k h hs
      rw [run_cons, hread, delivered_ok_cons]
      -- the rest of the reads deliver a prefix of what follows `t`
      obtain ⟨u, hu⟩ := delivered_prefix hd ks h'
      refine ⟨u, ?_⟩
      obtain ⟨v, rfl⟩ := ht
      rw [List.drop_left] at hu
      rw [List.append_assoc, hu]

/-- **Liveness**: as many reads into nonempty buffers as the stream is long deliver all of it. -/
theorem delivered_eq (hd : Delivers read Holds) :
    ∀ (ks : List Nat) {st : σ} {s : List α}, Holds st s → s.length ≤ ks.length →
      (∀ k ∈ ks, 0 < k) → delivered (run read st ks).1 = s
  | [], _, s, _, hlen, _ => by
    rw [List.eq_nil_of_length_eq_zero (Nat.le_zero.mp hlen)]
    rfl
  | k :: ks, st, s, h, hlen, hpos => by
    by_cases hs : s = []
    · subst hs
      exact delivered_of_end hd _ h
    · obtain ⟨t, st', hread, ht, -, hne, h'⟩ := hd.read_front k h hs
      have htpos : 0 < t.length :=
        List.length_pos_iff.mpr (hne (hpos k List.mem_cons_self))
      have hrest : (s.drop t.length).length ≤ ks.length := by
        rw [List.length_drop]
        rw [List.length_cons] at hlen
        omega
      rw [run_cons, hread, delivered_ok_cons,
        delivered_eq hd ks h' hrest fun k hk => hpos k (List.mem_cons_of_mem _ hk)]
      obtain ⟨v, rfl⟩ := ht
      rw [List.drop_left]

end Run

end Channel
