import GrpcGo.Lib.Machine

/-!
# Counters read by swapping them with zero

Counters that threads add to with atomic adds, and that a reader collects by swapping a set of
them with zero at once (one `atomic.Swap`, or a map replaced under a lock): every amount added
is either in exactly one collected report or still in its counter.

The counters are a function from their keys to an additive monoid `G`; `op.add k v` adds `v` to
the counter `k`, and `op.swap ks` swaps every counter whose key `ks` accepts with zero and reports
what they held.  `added ops` is what the adds of `ops` bring to each counter.

* `run_conserved`: after any operations, the reports and the counters add up to what the
  counters held and what was added;
* `run_unswapped`: a counter no swap reads holds what was added to it;
* `added_perm`, `added_append`: `added` depends only on which operations ran, so the law holds
  for every interleaving of several threads' operations (`run_conserved_of_perm`).
-/

namespace SwapCounter

open Machine

variable {κ G : Type _} [DecidableEq κ] [AddCommMonoid G]

/-- An atomic operation on the counters. -/
inductive op (κ G : Type _)
  /-- an atomic add of `v` to the counter `k` -/
  | add (k : κ) (v : G)
  /-- an atomic swap of every counter whose key `ks` accepts with zero -/
  | swap (ks : κ → Bool)

/-- What `op` reports and the counters after it. -/
def step (c : κ → G) : op κ G → List (κ → G) × (κ → G)
  | .add k v => ([], c + Pi.single k v)
  | .swap ks => ([fun i => if ks i then c i else 0], fun i => if ks i then 0 else c i)

/-- What the adds of `ops` bring to each counter. -/
def added : List (op κ G) → κ → G
  | [] => 0
  | .add k v :: ops => Pi.single k v + added ops
  | .swap _ :: ops => added ops

@[simp] theorem added_nil : added ([] : List (op κ G)) = 0 := rfl

/-- What an add brings to one counter. -/
theorem added_add_cons (k' k : κ) (v : G) (ops : List (op κ G)) :
    added (op.add k' v :: ops) k = (if k' = k then v else 0) + added ops k := by
  by_cases h : k' = k
  · subst h
    simp [added]
  · simp [added, Ne.symm h, h]

theorem added_append : ∀ ops ops' : List (op κ G), added (ops ++ ops') = added ops + added ops'
  | [], _ => by simp
  | .add k v :: ops, ops' => by
    rw [List.cons_append, added, added, added_append ops ops', add_assoc]
  | .swap _ :: ops, ops' => by
    rw [List.cons_append, added, added, added_append ops ops']

theorem added_perm {ops ops' : List (op κ G)} (h : ops.Perm ops') : added ops = added ops' := by
  induction h with
  | nil => rfl
  | cons o _ ih =>
    cases o with
    | add k v => rw [added, added, ih]
    | swap ks => rw [added, added, ih]
  | swap o o' ops =>
    -- two adds in either order add the same
    cases o <;> cases o' <;> simp only [added]
    exact add_left_comm _ _ _
  | trans _ _ ih ih' => rw [ih, ih']

/-- One operation: what it reports and what it leaves add up to what was there and what it
adds. -/
theorem step_conserved (c : κ → G) (o : op κ G) :
    (step c o).1.sum + (step c o).2 = c + added [o] := by
  cases o with
  | add k v => simp [step, added]
  | swap ks =>
    funext i
    by_cases hi : ks i <;> simp [step, added, hi]

/-- **Nothing is lost or reported twice.** -/
theorem run_conserved : ∀ (c : κ → G) (ops : List (op κ G)),
    (run step c ops).1.sum + (run step c ops).2 = c + added ops
  | c, [] => by simp
  | c, o :: ops => by
    -- the first operation, then the rest of the run from where it leaves the counters
    have hfirst := step_conserved c o
    have hrest := run_conserved (step c o).2 ops
    rw [run_cons, List.sum_append, add_assoc, hrest, ← add_assoc, hfirst, add_assoc,
      ← added_append]
    rfl

/-- A counter no swap of the run accepts is in no report: it holds what was added to it. -/
theorem run_unswapped : ∀ (c : κ → G) (ops : List (op κ G)) (k : κ),
    (∀ ks, op.swap ks ∈ ops → ks k = false) → (run step c ops).2 k = c k + added ops k
  | c, [], k, _ => by simp
  | c, .add k' v :: ops, k, h => by
    rw [run_cons, run_unswapped _ ops k fun ks hks => h ks (List.mem_cons_of_mem _ hks)]
    simp only [step, added, Pi.add_apply, add_assoc]
  | c, .swap ks :: ops, k, h => by
    have hk := h ks List.mem_cons_self
    rw [run_cons, run_unswapped _ ops k fun ks hks => h ks (List.mem_cons_of_mem _ hks)]
    simp only [step, added, hk, Bool.false_eq_true, if_false]

theorem added_flatten : ∀ threads : List (List (op κ G)),
    added threads.flatten = (threads.map added).sum
  | [] => rfl
  | t :: ts => by rw [List.flatten_cons, added_append, added_flatten ts, List.map_cons, List.sum_cons]

/-- The law for every interleaving of the threads' operations: an interleaving runs each of
them once. -/
theorem run_conserved_of_perm (c : κ → G) {ops : List (op κ G)} {threads : List (List (op κ G))}
    (h : ops.Perm threads.flatten) :
    (run step c ops).1.sum + (run step c ops).2 = c + (threads.map added).sum := by
  rw [run_conserved, added_perm h, added_flatten]

end SwapCounter
