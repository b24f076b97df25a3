import Mathlib

/-!
# Event-driven state machines

A component that reacts to events: `step s e` is what it outputs and the state it moves to when
the event `e` comes in state `s`, and `allowed s e` says which events its environment may deliver
in state `s`.  `run` handles a list of events in turn, and `Admits` says that each came where it
was allowed.

The rules a proof about such a machine uses:
* `Invariant.run`: a property that every allowed step keeps holds after every allowed run;
* `Invariant.outputs`: so does a property of the outputs so far and the state;
* `Invariant.history`: so does a property of the events and outputs so far, for runs whose
  history the environment keeps to a condition of its own;
* `run_of_absorbing`: a state that every event leaves as it is is never left;
* `foldl_invariant`: a loop inside one step keeps what each of its iterations keeps;
* `converges`: an event repeated often enough brings a machine to a state where a goal holds,
  if it lowers a measure wherever the goal fails and does nothing where it holds;
  `reaches`, for a goal after which the environment delivers nothing more, if the event is
  allowed and lowers the measure wherever the goal fails;
* `Invariant.conserved`: a quantity that each step changes by what it outputs less what its
  event costs changes so over every run;
* `Invariant.simulates`: a map under which each allowed step is a step of a second machine maps
  every allowed run to that machine's run of the same events, which that machine admits
  (`Invariant.admits_simulated`);
* `run_related`: a relation between two machines' states that each allowed step keeps, writing
  the same outputs, holds between their runs of the same events, which write the same;
  `run_related_flatMap` where each output of the second stands for a list of the first's.
-/

namespace Machine

variable {σ τ ε ω υ : Type _}

/-- The outputs of the events `es` handled in turn from `s`, and the state after them. -/
def run (step : σ → ε → List ω × σ) : σ → List ε → List ω × σ
  | s, [] => ([], s)
  | s, e :: es =>
    let rest := run step (step s e).2 es
    ((step s e).1 ++ rest.1, rest.2)

/-- Every event of `es` is allowed in the state it is handled in. -/
def Admits (allowed : σ → ε → Prop) (step : σ → ε → List ω × σ) : σ → List ε → Prop
  | _, [] => True
  | s, e :: es => allowed s e ∧ Admits allowed step (step s e).2 es

section Basic

variable {allowed : σ → ε → Prop} {step : σ → ε → List ω × σ}

/-- `Admits` is decided event by event. -/
def decAdmits [∀ s e, Decidable (allowed s e)] :
    (s : σ) → (es : List ε) → Decidable (Admits allowed step s es)
  | _, [] => isTrue trivial
  | s, e :: es =>
    have := decAdmits (step s e).2 es
    inferInstanceAs (Decidable (_ ∧ _))

instance [∀ s e, Decidable (allowed s e)] (s : σ) (es : List ε) :
    Decidable (Admits allowed step s es) :=
  decAdmits s es

@[simp] theorem run_nil (s : σ) : run step s [] = ([], s) := rfl

@[simp] theorem run_cons (s : σ) (e : ε) (es : List ε) :
    run step s (e :: es) =
      ((step s e).1 ++ (run step (step s e).2 es).1, (run step (step s e).2 es).2) := rfl

@[simp] theorem admits_nil (s : σ) : Admits allowed step s [] := trivial

@[simp] theorem admits_cons (s : σ) (e : ε) (es : List ε) :
    Admits allowed step s (e :: es) ↔ allowed s e ∧ Admits allowed step (step s e).2 es :=
  Iff.rfl

/-- A machine whose environment may deliver any event admits every run. -/
theorem admits_of_forall (h : ∀ s e, allowed s e) : ∀ (s : σ) (es : List ε), Admits allowed step s es
  | _, [] => trivial
  | s, e :: es => ⟨h s e, admits_of_forall h _ es⟩

/-- Events each allowed in every state are admitted in the order they come. -/
theorem admits_of_forall_mem : ∀ {es : List ε}, (∀ e ∈ es, ∀ s, allowed s e) →
    ∀ s : σ, Admits allowed step s es
  | [], _, _ => trivial
  | e :: _, h, s =>
    ⟨h e (List.mem_cons_self ..) s, admits_of_forall_mem (fun e' he' => h e' (List.mem_cons_of_mem _ he')) _⟩

theorem run_append : ∀ (s : σ) (es es' : List ε),
    run step s (es ++ es') =
      ((run step s es).1 ++ (run step (run step s es).2 es').1,
        (run step (run step s es).2 es').2)
  | _, [], _ => by simp
  | s, e :: es, es' => by
    rw [List.cons_append, run_cons, run_append _ es es', run_cons, List.append_assoc]

theorem admits_append : ∀ (s : σ) (es es' : List ε),
    Admits allowed step s (es ++ es') ↔
      Admits allowed step s es ∧ Admits allowed step (run step s es).2 es'
  | _, [], _ => by simp
  | s, e :: es, es' => by
    rw [List.cons_append, admits_cons, admits_append _ es es', admits_cons, run_cons, and_assoc]

/-- A run is admitted under two conditions at once when it is under each. -/
theorem admits_and {allowed' : σ → ε → Prop} : ∀ (s : σ) (es : List ε),
    Admits (fun s e => allowed s e ∧ allowed' s e) step s es ↔
      Admits allowed step s es ∧ Admits allowed' step s es
  | _, [] => by simp
  | s, e :: es => by
    rw [admits_cons, admits_cons, admits_cons, admits_and _ es]
    constructor
    · rintro ⟨⟨ha, ha'⟩, hes, hes'⟩
      exact ⟨⟨ha, hes⟩, ha', hes'⟩
    · rintro ⟨⟨ha, hes⟩, ha', hes'⟩
      exact ⟨⟨ha, ha'⟩, hes, hes'⟩

end Basic

/-! ## Proof rules -/

/-- `Inv` is kept by every allowed step. -/
def Invariant (allowed : σ → ε → Prop) (step : σ → ε → List ω × σ) (Inv : σ → Prop) : Prop :=
  ∀ s e, Inv s → allowed s e → Inv (step s e).2

section Rules

variable {allowed : σ → ε → Prop} {step : σ → ε → List ω × σ} {Inv : σ → Prop}

/-- An invariant holds after every allowed run from a state where it holds. -/
theorem Invariant.run (hinv : Invariant allowed step Inv) :
    ∀ {s : σ} {es : List ε}, Inv s → Admits allowed step s es → Inv (Machine.run step s es).2
  | _, [], hs, _ => hs
  -- elaborated on its own, so that the run is taken from the state `e` leaves
  | s, e :: _, hs, ⟨he, hes⟩ => (hinv.run (hinv s e hs he) hes :)

/-- Each allowed step's outputs, in the image of `absOut`, and its state, in the image of `abs`,
are those of `step'`: then so are every allowed run's. -/
theorem Invariant.simulates {step' : τ → ε → List υ × τ} {abs : σ → τ} {absOut : ω → υ}
    (hinv : Invariant allowed step Inv)
    (hstep : ∀ s e, Inv s → allowed s e →
      (step s e).1.map absOut = (step' (abs s) e).1 ∧ abs (step s e).2 = (step' (abs s) e).2) :
    ∀ {s : σ} {es : List ε}, Inv s → Admits allowed step s es →
      (Machine.run step s es).1.map absOut = (Machine.run step' (abs s) es).1 ∧
        abs (Machine.run step s es).2 = (Machine.run step' (abs s) es).2
  | _, [], _, _ => ⟨rfl, rfl⟩
  | s, e :: es, hs, ⟨he, hes⟩ => by
    obtain ⟨hout, hst⟩ := hstep s e hs he
    -- the rest of the run, from the state after `e`
    obtain ⟨hout', hst'⟩ := hinv.simulates hstep (hinv s e hs he) hes
    rw [run_cons, run_cons, List.map_append, hout, hout', hst', hst]
    exact ⟨rfl, rfl⟩

/-- Under such a map the events an allowed run admits are admitted by the second machine, when
each allowed event is allowed there too. -/
theorem Invariant.admits_simulated {allowed' : τ → ε → Prop} {step' : τ → ε → List υ × τ}
    {abs : σ → τ} (hinv : Invariant allowed step Inv)
    (hstate : ∀ s e, Inv s → allowed s e → abs (step s e).2 = (step' (abs s) e).2)
    (hallowed : ∀ s e, Inv s → allowed s e → allowed' (abs s) e) :
    ∀ {s : σ} {es : List ε}, Inv s → Admits allowed step s es → Admits allowed' step' (abs s) es
  | _, [], _, _ => trivial
  | s, e :: _, hs, ⟨he, hes⟩ => by
    refine ⟨hallowed s e hs he, ?_⟩
    rw [← hstate s e hs he]
    exact hinv.admits_simulated hstate hallowed (hinv s e hs he) hes

/-- A relation `R` between the states of two machines, from which each allowed step of the first
writes what the second writes on the same event and leads to related states, relates every
allowed run of the first to the second's run of the same events: they write the same and end in
related states.  Unlike `Invariant.simulates`, the second machine's state need not be a function
of the first's. -/
theorem run_related {step' : τ → ε → List ω × τ} {R : σ → τ → Prop}
    (hstep : ∀ s t e, R s t → allowed s e →
      (step s e).1 = (step' t e).1 ∧ R (step s e).2 (step' t e).2) :
    ∀ {s : σ} {t : τ} {es : List ε}, R s t → Admits allowed step s es →
      (Machine.run step s es).1 = (Machine.run step' t es).1 ∧
        R (Machine.run step s es).2 (Machine.run step' t es).2
  | _, _, [], hr, _ => ⟨rfl, hr⟩
  | s, t, e :: _, hr, ⟨he, hes⟩ => by
    obtain ⟨hout, hrel⟩ := hstep s t e hr he
    -- the rest of the two runs, from the related states after `e`
    obtain ⟨hout', hrel'⟩ := run_related hstep hrel hes
    rw [run_cons, run_cons, hout, hout']
    exact ⟨rfl, hrel'⟩

/-- As `run_related`, where each output of the second machine stands for the list `out` turns it
into: the first machine's outputs are those of the second, each turned so. -/
theorem run_related_flatMap {step' : τ → ε → List υ × τ} {R : σ → τ → Prop} (out : υ → List ω)
    (hstep : ∀ s t e, R s t → allowed s e →
      (step s e).1 = (step' t e).1.flatMap out ∧ R (step s e).2 (step' t e).2) :
    ∀ {s : σ} {t : τ} {es : List ε}, R s t → Admits allowed step s es →
      (Machine.run step s es).1 = (Machine.run step' t es).1.flatMap out ∧
        R (Machine.run step s es).2 (Machine.run step' t es).2
  | _, _, [], hr, _ => ⟨rfl, hr⟩
  | s, t, e :: _, hr, ⟨he, hes⟩ => by
    obtain ⟨hout, hrel⟩ := hstep s t e hr he
    obtain ⟨hout', hrel'⟩ := run_related_flatMap out hstep hrel hes
    rw [run_cons, run_cons, hout, hout', List.flatMap_append]
    exact ⟨rfl, hrel'⟩

/-- A property of the outputs written so far and the state that each allowed step keeps holds
after every allowed run. -/
theorem Invariant.outputs {P : List ω → σ → Prop} (hinv : Invariant allowed step Inv)
    (hstep : ∀ out s e, Inv s → allowed s e → P out s → P (out ++ (step s e).1) (step s e).2) :
    ∀ {s : σ} {es : List ε} {out : List ω}, Inv s → Admits allowed step s es → P out s →
      P (out ++ (Machine.run step s es).1) (Machine.run step s es).2
  | _, [], _, _, _, hp => by simpa using hp
  | s, e :: _, out, hs, ⟨he, hes⟩, hp => by
    -- the rest of the run, after the outputs of `e`
    have hrest := hinv.outputs hstep (hinv s e hs he) hes (hstep out s e hs he hp)
    simpa using hrest

/-- A property of the events handled so far, the outputs written so far and the state, that each
allowed step keeps, holds after every allowed run.  `H` is a condition the environment keeps on
the whole history of events; each step may use it for the history up to its own event. -/
theorem Invariant.history {P : List ε → List ω → σ → Prop} {H : List ε → Prop}
    (hinv : Invariant allowed step Inv) (hH : ∀ es es', H (es ++ es') → H es)
    (hstep : ∀ pre out s e, Inv s → allowed s e → H (pre ++ [e]) → P pre out s →
      P (pre ++ [e]) (out ++ (step s e).1) (step s e).2) :
    ∀ {es pre : List ε} {out : List ω} {s : σ}, Inv s → Admits allowed step s es →
      H (pre ++ es) → P pre out s →
      P (pre ++ es) (out ++ (Machine.run step s es).1) (Machine.run step s es).2
  | [], pre, out, _, _, _, _, hp => by simpa using hp
  | e :: es, pre, out, s, hs, ⟨he, hes⟩, hh, hp => by
    have hh' : H ((pre ++ [e]) ++ es) := by simpa using hh
    -- the rest of the run, after the history `pre ++ [e]`
    have hrest := hinv.history hH hstep (hinv s e hs he) hes hh'
      (hstep pre out s e hs he (hH _ _ hh') hp)
    simpa using hrest

/-- A loop over a list, every iteration of which keeps a property, keeps it. -/
theorem foldl_invariant {β γ : Type _} {P : β → Prop} {f : β → γ → β}
    (hf : ∀ b c, P b → P (f b c)) : ∀ (l : List γ) {b : β}, P b → P (l.foldl f b)
  | [], _, hb => hb
  | c :: l, _, hb => foldl_invariant hf l (hf _ c hb)

/-- A state that the event `e` leaves as it is, writing nothing, stays so under any number
of them. -/
theorem run_replicate_of_idle {s : σ} {e : ε} (h : step s e = ([], s)) :
    ∀ n, Machine.run step s (List.replicate n e) = ([], s)
  | 0 => rfl
  | n + 1 => by rw [List.replicate_succ, run_cons, h, run_replicate_of_idle h n]; rfl

/-- A state that every event leaves as it is, writing nothing, is never left. -/
theorem run_of_absorbing {s : σ} (h : ∀ e, step s e = ([], s)) :
    ∀ es, Machine.run step s es = ([], s)
  | [] => rfl
  | e :: es => by rw [run_cons, h, run_of_absorbing h es]; rfl

/-- A variant rule.  If the event `e` lowers the measure `μ` of every state where the goal `Q`
fails, keeping the property `P` of the outputs so far and the state, and leaves a state where
`Q` holds as it is, then `n` of them bring every state of measure at most `n` to `Q`. -/
theorem converges {P : List ω → σ → Prop} {Q : σ → Prop} (μ : σ → Nat) (e : ε)
    (hstep : ∀ out s, P out s → ¬ Q s →
      P (out ++ (step s e).1) (step s e).2 ∧ μ (step s e).2 < μ s)
    (hidle : ∀ out s, P out s → Q s → step s e = ([], s)) :
    ∀ (n : Nat) {out : List ω} {s : σ}, P out s → μ s ≤ n →
      P (out ++ (Machine.run step s (List.replicate n e)).1)
          (Machine.run step s (List.replicate n e)).2 ∧
        Q (Machine.run step s (List.replicate n e)).2 := by
  intro n
  induction n with
  | zero =>
    intro out s hp hμ
    -- a state of measure zero cannot be lowered, so it is at the goal
    have hq : Q s := by
      by_contra hq
      have := (hstep out s hp hq).2
      omega
    simpa using ⟨hp, hq⟩
  | succ n ih =>
    intro out s hp hμ
    by_cases hq : Q s
    · rw [run_replicate_of_idle (hidle out s hp hq)]
      simpa using ⟨hp, hq⟩
    · obtain ⟨hp', hlt⟩ := hstep out s hp hq
      have hrest := ih hp' (by omega)
      rw [List.replicate_succ, run_cons]
      simpa using hrest

/-- A variant rule for a goal the environment stops at.  If, wherever the goal `Q` fails, the
event `e` is allowed, keeps `P` and lowers the measure `μ`, then from every state of measure at
most `n` some `k ≤ n` of them are admitted and reach `Q`. -/
theorem reaches {P Q : σ → Prop} (μ : σ → Nat) (e : ε)
    (hstep : ∀ s, P s → ¬ Q s → allowed s e ∧ P (step s e).2 ∧ μ (step s e).2 < μ s) :
    ∀ (n : Nat) {s : σ}, P s → μ s ≤ n →
      ∃ k ≤ n, Admits allowed step s (List.replicate k e) ∧
        Q (Machine.run step s (List.replicate k e)).2 := by
  intro n
  induction n with
  | zero =>
    intro s hp hμ
    -- a state of measure zero cannot be lowered, so it is at the goal
    have hq : Q s := by
      by_contra hq
      have := (hstep s hp hq).2.2
      omega
    exact ⟨0, le_refl 0, trivial, hq⟩
  | succ n ih =>
    intro s hp hμ
    by_cases hq : Q s
    · exact ⟨0, Nat.zero_le _, trivial, hq⟩
    · obtain ⟨ha, hp', hlt⟩ := hstep s hp hq
      obtain ⟨k, hk, hadm, hQ⟩ := ih hp' (by omega)
      refine ⟨k + 1, by omega, ⟨ha, hadm⟩, ?_⟩
      rw [List.replicate_succ, run_cons]
      exact hQ

variable {G : Type _} [AddCommGroup G]

/-- A quantity `Φ` that each allowed step changes by the weight of its outputs less the cost of
its event changes so over every allowed run. -/
theorem Invariant.conserved (Φ : σ → G) (out : ω → G) (cost : ε → G)
    (hinv : Invariant allowed step Inv)
    (hstep : ∀ s e, Inv s → allowed s e →
      Φ (step s e).2 = Φ s + ((step s e).1.map out).sum - cost e) :
    ∀ {s : σ} {es : List ε}, Inv s → Admits allowed step s es →
      Φ (Machine.run step s es).2 = Φ s + ((Machine.run step s es).1.map out).sum - (es.map cost).sum
  | _, [], _, _ => by simp
  | s, e :: es, hs, ⟨he, hes⟩ => by
    rw [run_cons, hinv.conserved Φ out cost hstep (hinv s e hs he) hes, hstep s e hs he,
      List.map_append, List.sum_append, List.map_cons, List.sum_cons]
    abel

end Rules

end Machine
