import GrpcGo.Lib.Machine

/-!
# The profiling `CircularBuffer` (`internal/profiling/buffer/buffer.go`)

A `CircularBuffer` is a set of queue pairs.  `Push(x)` picks a pair by an atomic counter, loads
the pair's current queue, takes a slot index by incrementing the queue's `acquired`, checks
that the pair still points to that queue, stores `&x` in the slot, and increments `written`; if
the pair was switched meanwhile it drops `x` and only increments `written`.  `Drain`, under
`drainMutex`, switches every pair to its other queue, waits (one goroutine per queue) until each
old queue has `acquired == written`, reads the slots `[0, min(acquired, size))` of each old queue,
and stores zero into both counters.  The slots are never cleared.

The model is the buffer together with the calls running on it, one step per atomic operation:
a `Push` is a thread with a program counter, stepping through its `AddUint32`, `LoadPointer`,
`StorePointer` and the check; a `Drain` has its own goroutine (switching, reading, resetting) and
one goroutine per `drainWait`.  Any interleaving is a list of events.  A slot holds the pointer
`&x` a `Push` stored, named by the `Push`; `Drain` returns the elements of the pointers it read.
The `uint32` counters are natural numbers (no wrap-around), and the number of pairs that
`floorCPUCount` gives is a parameter.

* `drained_were_pushed`: over every interleaving, every element a `Drain` returns is that of a
  `Push` that stored it;
* `drain_returns_sample_twice`: a `Push` that loses the race with a `Drain` leaves the slot it
  acquired unwritten, and the `Drain` returns what an earlier cycle stored there, a second time;
* `straggler_unbalances_counters`: a `Push` that loaded the queue before a `Drain` switched it
  and increments `written` after the `Drain` zeroed the counters leaves `written` above
  `acquired`, and the next `drainWait` on that queue never ends.
-/

namespace GrpcGo
namespace ProfilingBuffer

open Machine

/-- A `queue`: its slots (the pointer a `Push` stored, by the `Push`, or `nil`), and its
counters. -/
structure queue where
  arr : Nat → Option Nat
  acquired : Nat
  written : Nat

/-- `newQueue(size)`. -/
def newQueue : queue := ⟨fun _ => none, 0, 0⟩

/-- The program points of `Push`. -/
inductive pushPc
  | addQpn
  | loadQ
  | addAcquired
  | checkQ
  | store
  | addWritten
  | addWrittenDropped
  /-- returned after storing -/
  | returned
  /-- returned from the branch that drops the sample -/
  | dropped
  deriving DecidableEq

/-- A `Push` call: where it is, and its locals: the pair `n`, the queue `qptr` it loaded (`false`
for `q0`), and the index `acquired` it took. -/
structure pushThread where
  pc : pushPc
  n : Nat
  qptr : Bool
  acquired : Nat

/-- The program points of a `drainWait` goroutine. -/
inductive waitPc
  /-- about to load `acquired` -/
  | load
  /-- loaded `acquired`, about to load `written` -/
  | cmp (acquired : Nat)
  | done
  deriving DecidableEq

/-- The program points of `Drain`'s own goroutine; each phase runs over the pairs `i`. -/
inductive drainPc
  | switch (i : Nat)
  /-- `wg.Wait()` -/
  | wait
  | read (i : Nat)
  | resetAcquired (i : Nat)
  | resetWritten (i : Nat)
  deriving DecidableEq

/-- A `Drain` call: where it is, the old queue `qs[i]` of each pair switched so far, its
`drainWait` goroutines, and its result so far. -/
structure drainThread where
  pc : drainPc
  qs : List Bool
  waits : List waitPc
  result : List Nat

/-- A `CircularBuffer` with the calls running on it: `n` pairs of queues of `size` slots, `qpn`,
each pair's current queue `q`, the queues by pair and half, the `Push` calls made so far, and
the `Drain` holding `drainMutex`. -/
structure CircularBuffer where
  n : Nat
  size : Nat
  qpn : Nat
  q : Nat → Bool
  queues : Nat × Bool → queue
  pushes : List pushThread
  drain : Option drainThread

/-- `NewCircularBuffer(size)`, where `numCircularBufferPairs` is `pairs`. -/
def NewCircularBuffer (size pairs : Nat) : Except String CircularBuffer :=
  if size &&& (size - 1) ≠ 0 then .error "buffer size is not an exponent of two"
  else
    let n := if size / pairs < 8 then 1 else pairs
    .ok ⟨n, size / n, 0, fun _ => false, fun _ => newQueue, [], none⟩

namespace CircularBuffer

def setQueue (cb : CircularBuffer) (k : Nat × Bool) (qu : queue) : CircularBuffer :=
  { cb with queues := Function.update cb.queues k qu }

def setPush (cb : CircularBuffer) (id : Nat) (t : pushThread) : CircularBuffer :=
  { cb with pushes := cb.pushes.set id t }

def setDrain (cb : CircularBuffer) (d : drainThread) : CircularBuffer :=
  { cb with drain := some d }

/-- One atomic step of the `Push` `id`. -/
def pushStep (cb : CircularBuffer) (id : Nat) : CircularBuffer :=
  match cb.pushes[id]? with
  | none => cb
  | some t =>
    let qu := cb.queues (t.n, t.qptr)
    match t.pc with
    | .addQpn =>
      -- `n := atomic.AddUint32(&cb.qpn, 1) & cb.qpMask`
      { cb.setPush id { t with pc := .loadQ, n := (cb.qpn + 1) &&& (cb.n - 1) } with
        qpn := cb.qpn + 1 }
    | .loadQ => cb.setPush id { t with pc := .addAcquired, qptr := cb.q t.n }
    | .addAcquired =>
      (cb.setQueue (t.n, t.qptr) { qu with acquired := qu.acquired + 1 }).setPush id
        { t with pc := .checkQ, acquired := qu.acquired }
    | .checkQ =>
      -- the pair was switched since the load: drop the sample
      cb.setPush id { t with pc := if cb.q t.n ≠ t.qptr then .addWrittenDropped else .store }
    | .store =>
      -- `atomic.StorePointer(&q.arr[acquired & q.mask], unsafe.Pointer(&x))`
      (cb.setQueue (t.n, t.qptr)
        { qu with arr := Function.update qu.arr (t.acquired &&& (cb.size - 1)) (some id) }).setPush
        id { t with pc := .addWritten }
    | .addWritten =>
      (cb.setQueue (t.n, t.qptr) { qu with written := qu.written + 1 }).setPush id
        { t with pc := .returned }
    | .addWrittenDropped =>
      (cb.setQueue (t.n, t.qptr) { qu with written := qu.written + 1 }).setPush id
        { t with pc := .dropped }
    | .returned | .dropped => cb

/-- One step of the `drainWait` goroutine of the old queue of pair `i`. -/
def waitStep (cb : CircularBuffer) (i : Nat) : CircularBuffer :=
  match cb.drain with
  | none => cb
  | some d =>
    if d.pc = .wait then
      let qu := cb.queues (i, d.qs.getD i false)
      match d.waits[i]? with
      | some .load => cb.setDrain { d with waits := d.waits.set i (.cmp qu.acquired) }
      | some (.cmp acquired) =>
        -- `for atomic.LoadUint32(&q.acquired) != atomic.LoadUint32(&q.written)`
        cb.setDrain { d with waits := d.waits.set i (if acquired = qu.written then .done else .load) }
      | _ => cb
    else cb

/-- One atomic step of `Drain`'s own goroutine: the result, when it returns. -/
def drainStep (cb : CircularBuffer) : List (List Nat) × CircularBuffer :=
  match cb.drain with
  | none => ([], cb)
  | some d =>
    match d.pc with
    | .switch i =>
      if i < cb.n then
        -- `qs[i] = cb.qp[i].switchQueues()`: the two CAS swap the pair's queue
        ([], { cb.setDrain { d with pc := .switch (i + 1), qs := d.qs ++ [cb.q i] } with
          q := Function.update cb.q i (!cb.q i) })
      else ([], cb.setDrain { d with pc := .wait, waits := List.replicate cb.n .load })
    | .wait =>
      if d.waits.all (· = .done) then ([], cb.setDrain { d with pc := .read 0 }) else ([], cb)
    | .read i =>
      if i < cb.n then
        let qu := cb.queues (i, d.qs.getD i false)
        -- `dereferenceAppend(result, qs[i].arr, 0, min(acquired, size))`
        ([], cb.setDrain { d with
          pc := .read (i + 1)
          result := d.result ++ (List.range (min qu.acquired cb.size)).filterMap qu.arr })
      else ([], cb.setDrain { d with pc := .resetAcquired 0 })
    | .resetAcquired i =>
      if i < cb.n then
        let k := (i, d.qs.getD i false)
        ([], (cb.setQueue k { cb.queues k with acquired := 0 }).setDrain
          { d with pc := .resetWritten i })
      else ([d.result], { cb with drain := none })
    | .resetWritten i =>
      let k := (i, d.qs.getD i false)
      ([], (cb.setQueue k { cb.queues k with written := 0 }).setDrain
        { d with pc := .resetAcquired (i + 1) })

end CircularBuffer

/-- The events: a `Push` or `Drain` call, and one step of a running goroutine. -/
inductive event
  | Push
  | pushStep (id : Nat)
  /-- a `Drain` takes `drainMutex` when it is free -/
  | Drain
  | drainStep
  | waitStep (i : Nat)

open CircularBuffer

/-- One atomic action; a `Drain` writes what it returns. -/
def step (cb : CircularBuffer) : event → List (List Nat) × CircularBuffer
  | .Push => ([], { cb with pushes := cb.pushes ++ [⟨.addQpn, 0, false, 0⟩] })
  | .pushStep id => ([], cb.pushStep id)
  | .Drain =>
    ([], if cb.drain.isNone then cb.setDrain ⟨.switch 0, [], [], []⟩ else cb)
  | .drainStep => cb.drainStep
  | .waitStep i => ([], cb.waitStep i)

/-! ## What a `Drain` returns was pushed -/

/-- The program points of a `Push` past its `StorePointer`. -/
def pushPc.stored : pushPc → Bool
  | .addWritten | .returned => true
  | _ => false

/-- The `Push` `id` of `ps` has stored its pointer. -/
def Stored (ps : List pushThread) (id : Nat) : Prop :=
  ∃ t, ps[id]? = some t ∧ t.pc.stored = true

theorem Stored.set {ps : List pushThread} {id j : Nat} {t t' : pushThread}
    (ht : ps[id]? = some t) (hpc : t.pc.stored = true → t'.pc.stored = true) (h : Stored ps j) :
    Stored (ps.set id t') j := by
  obtain ⟨u, hu, hstored⟩ := h
  by_cases hj : id = j
  · subst hj
    rw [ht] at hu
    cases hu
    exact ⟨t', by simp [(List.getElem?_eq_some_iff.mp ht).1], hpc hstored⟩
  · exact ⟨u, by rw [List.getElem?_set_ne hj]; exact hu, hstored⟩

theorem Stored.append {ps : List pushThread} {j : Nat} (t : pushThread) (h : Stored ps j) :
    Stored (ps ++ [t]) j := by
  obtain ⟨u, hu, hstored⟩ := h
  exact ⟨u, List.getElem?_append_left (List.getElem?_eq_some_iff.mp hu).1 ▸ hu, hstored⟩

theorem stored_set_self {ps : List pushThread} {id : Nat} {t t' : pushThread}
    (ht : ps[id]? = some t) (hpc : t'.pc.stored = true) : Stored (ps.set id t') id :=
  ⟨t', by simp [(List.getElem?_eq_some_iff.mp ht).1], hpc⟩

/-- **What a step of a `Push` does.**  It moves the `Push` on from its program point, never back
from past its store; the only slot it writes is the one it stores its own pointer in, on its way
to `addWritten`; and it leaves the `Drain` alone. -/
theorem pushStep_cases (cb : CircularBuffer) (id : Nat) :
    cb.pushStep id = cb ∨
      ∃ t t', cb.pushes[id]? = some t ∧ (t.pc.stored = true → t'.pc.stored = true) ∧
        (cb.pushStep id).pushes = cb.pushes.set id t' ∧ (cb.pushStep id).drain = cb.drain ∧
        ∀ k j x, ((cb.pushStep id).queues k).arr j = some x →
          (cb.queues k).arr j = some x ∨ (x = id ∧ t'.pc.stored = true) := by
  unfold pushStep
  split
  · exact .inl rfl
  · rename_i t ht
    -- the program point of the `Push`, and the slot the store writes
    rcases hpc : t.pc <;> dsimp only
    case returned | dropped => exact .inl rfl
    case store =>
      refine .inr ⟨t, { t with pc := .addWritten }, ht, fun _ => rfl, rfl, rfl, fun k j x hx => ?_⟩
      by_cases hk : k = (t.n, t.qptr)
      · subst hk
        by_cases hj : j = t.acquired &&& (cb.size - 1)
        · simp only [setPush, setQueue, Function.update_self, hj] at hx
          exact .inr ⟨(Option.some.inj hx).symm, rfl⟩
        · simp only [setPush, setQueue, Function.update_self, Function.update_of_ne hj] at hx
          exact .inl hx
      · simp only [setPush, setQueue, Function.update_of_ne hk] at hx
        exact .inl hx
    all_goals
      refine .inr ⟨t, _, ht, by simp [pushPc.stored, hpc], rfl, rfl, fun k j x hx => .inl ?_⟩
      by_cases hk : k = (t.n, t.qptr)
      · subst hk
        simpa [setPush, setQueue] using hx
      · simpa [setPush, setQueue, hk] using hx

@[simp] theorem setQueue_queues (cb : CircularBuffer) (k : Nat × Bool) (qu : queue) (k' : Nat × Bool) :
    (cb.setQueue k qu).queues k' = if k' = k then qu else cb.queues k' :=
  Function.update_apply ..

/-- **What a step of `Drain`'s goroutine does.**  It changes no `Push` and writes no slot; it adds
to its result only pointers that slots hold; and what it returns is its result. -/
theorem drainStep_cases (cb : CircularBuffer) :
    cb.drainStep.2.pushes = cb.pushes ∧
      (∀ k j, (cb.drainStep.2.queues k).arr j = (cb.queues k).arr j) ∧
      (∀ d', cb.drainStep.2.drain = some d' → ∀ x ∈ d'.result,
        (∃ d, cb.drain = some d ∧ x ∈ d.result) ∨ ∃ k j, (cb.queues k).arr j = some x) ∧
      ∀ r ∈ cb.drainStep.1, ∃ d, cb.drain = some d ∧ r = d.result := by
  unfold drainStep
  split
  · rename_i hd
    refine ⟨rfl, fun _ _ => rfl, fun d' hd' => ?_, nofun⟩
    rw [hd] at hd'
    cases hd'
  · rename_i d hd
    -- the result grows only by what `read` finds in the slots
    have hkeep : ∀ d' : drainThread, d'.result = d.result → ∀ x ∈ d'.result,
        (∃ d₀, cb.drain = some d₀ ∧ x ∈ d₀.result) ∨ ∃ k j, (cb.queues k).arr j = some x :=
      fun d' hres x hx => .inl ⟨d, hd, hres ▸ hx⟩
    split
    · split_ifs
      · refine ⟨rfl, fun _ _ => rfl, ?_, nofun⟩
        rintro d' ⟨⟩
        exact hkeep _ rfl
      · refine ⟨rfl, fun _ _ => rfl, ?_, nofun⟩
        rintro d' ⟨⟩
        exact hkeep _ rfl
    · split_ifs
      · refine ⟨rfl, fun _ _ => rfl, ?_, nofun⟩
        rintro d' ⟨⟩
        exact hkeep _ rfl
      · refine ⟨rfl, fun _ _ => rfl, fun d' hd' => ?_, nofun⟩
        rw [hd] at hd'
        cases hd'
        exact hkeep _ rfl
    · split_ifs
      · refine ⟨rfl, fun _ _ => rfl, ?_, nofun⟩
        rintro d' ⟨⟩ x hx
        rcases List.mem_append.mp hx with hx | hx
        · exact .inl ⟨d, hd, hx⟩
        · obtain ⟨j, -, hj⟩ := List.mem_filterMap.mp hx
          exact .inr ⟨_, j, hj⟩
      · refine ⟨rfl, fun _ _ => rfl, ?_, nofun⟩
        rintro d' ⟨⟩
        exact hkeep _ rfl
    · split_ifs
      · refine ⟨rfl, fun k j => ?_, ?_, nofun⟩
        · simp only [setDrain, setQueue_queues]
          split_ifs with hk <;> simp [hk]
        · rintro d' ⟨⟩
          exact hkeep _ rfl
      · refine ⟨rfl, fun _ _ => rfl, nofun, ?_⟩
        intro r hr
        exact ⟨d, hd, List.mem_singleton.mp hr⟩
    · refine ⟨rfl, fun k j => ?_, ?_, nofun⟩
      · simp only [setDrain, setQueue_queues]
        split_ifs with hk <;> simp [hk]
      · rintro d' ⟨⟩
        exact hkeep _ rfl

/-- A step of a `drainWait` goroutine changes only where it is. -/
theorem waitStep_cases (cb : CircularBuffer) (i : Nat) :
    (cb.waitStep i).pushes = cb.pushes ∧ (cb.waitStep i).queues = cb.queues ∧
      ∀ d', (cb.waitStep i).drain = some d' → ∃ d, cb.drain = some d ∧ d'.result = d.result := by
  unfold waitStep
  split
  · exact ⟨rfl, rfl, fun d' hd' => ⟨d', hd', rfl⟩⟩
  · rename_i d hd
    split_ifs
    · split
      · exact ⟨rfl, rfl, fun d' hd' => by cases hd'; exact ⟨d, hd, rfl⟩⟩
      · exact ⟨rfl, rfl, fun d' hd' => by cases hd'; exact ⟨d, hd, rfl⟩⟩
      · exact ⟨rfl, rfl, fun d' hd' => ⟨d', hd', rfl⟩⟩
    · exact ⟨rfl, rfl, fun d' hd' => ⟨d', hd', rfl⟩⟩

/-- The invariant: every pointer a slot or the running `Drain`'s result holds is that of a `Push`
that stored it. -/
structure Inv (cb : CircularBuffer) : Prop where
  slots : ∀ k j x, (cb.queues k).arr j = some x → Stored cb.pushes x
  result : ∀ d, cb.drain = some d → ∀ x ∈ d.result, Stored cb.pushes x

/-- **Each step keeps the invariant**; a `Push` that has stored stays so, and what a `Drain`
returns was stored. -/
theorem Inv.step {cb : CircularBuffer} (h : Inv cb) (e : event) :
    Inv (step cb e).2 ∧ (∀ x, Stored cb.pushes x → Stored (step cb e).2.pushes x) ∧
      ∀ r ∈ (step cb e).1, ∀ x ∈ r, Stored (step cb e).2.pushes x := by
  cases e with
  | Push =>
    refine ⟨⟨fun k j x hx => (h.slots k j x hx).append _, fun d hd x hx => ?_⟩,
      fun x hx => hx.append _, nofun⟩
    exact (h.result d hd x hx).append _
  | pushStep id =>
    show Inv (cb.pushStep id) ∧ (∀ x, Stored cb.pushes x → Stored (cb.pushStep id).pushes x) ∧
      ∀ r ∈ ([] : List (List Nat)), ∀ x ∈ r, Stored (cb.pushStep id).pushes x
    rcases pushStep_cases cb id with hsame | ⟨t, t', ht, hpc, hps, hdrain, harr⟩
    · rw [hsame]
      exact ⟨h, fun _ hx => hx, nofun⟩
    · have hmono : ∀ x, Stored cb.pushes x → Stored (cb.pushStep id).pushes x := fun x hx => by
        rw [hps]
        exact hx.set ht hpc
      refine ⟨⟨fun k j x hx => ?_, fun d hd x hx => ?_⟩, hmono, nofun⟩
      · rcases harr k j x hx with hold | ⟨rfl, hst⟩
        · exact hmono x (h.slots k j x hold)
        · rw [hps]
          exact stored_set_self ht hst
      · rw [hdrain] at hd
        exact hmono x (h.result d hd x hx)
  | Drain =>
    by_cases hnone : cb.drain.isNone
    · -- the `Drain` takes the free mutex, with an empty result
      simp only [ProfilingBuffer.step, hnone, if_true]
      refine ⟨⟨h.slots, fun d hd x hx => ?_⟩, fun _ hx => hx, nofun⟩
      simp only [setDrain, Option.some.injEq] at hd
      subst hd
      cases hx
    · simp only [ProfilingBuffer.step, hnone, Bool.false_eq_true, if_false]
      exact ⟨h, fun _ hx => hx, nofun⟩
  | drainStep =>
    show Inv cb.drainStep.2 ∧ (∀ x, Stored cb.pushes x → Stored cb.drainStep.2.pushes x) ∧
      ∀ r ∈ cb.drainStep.1, ∀ x ∈ r, Stored cb.drainStep.2.pushes x
    obtain ⟨hps, harr, hres, hout⟩ := drainStep_cases cb
    refine ⟨⟨fun k j x hx => ?_, fun d' hd' x hx => ?_⟩, fun x hx => hps ▸ hx, ?_⟩
    · rw [harr] at hx
      exact hps ▸ h.slots k j x hx
    · rcases hres d' hd' x hx with ⟨d, hd, hxd⟩ | ⟨k, j, hkj⟩
      · exact hps ▸ h.result d hd x hxd
      · exact hps ▸ h.slots k j x hkj
    · intro r hr x hx
      obtain ⟨d, hd, rfl⟩ := hout r hr
      exact hps ▸ h.result d hd x hx
  | waitStep i =>
    show Inv (cb.waitStep i) ∧ (∀ x, Stored cb.pushes x → Stored (cb.waitStep i).pushes x) ∧
      ∀ r ∈ ([] : List (List Nat)), ∀ x ∈ r, Stored (cb.waitStep i).pushes x
    obtain ⟨hps, hqs, hres⟩ := waitStep_cases cb i
    refine ⟨⟨fun k j x hx => ?_, fun d' hd' x hx => ?_⟩, fun x hx => hps ▸ hx, nofun⟩
    · rw [hqs] at hx
      exact hps ▸ h.slots k j x hx
    · obtain ⟨d, hd, hr⟩ := hres d' hd'
      exact hps ▸ h.result d hd x (hr ▸ hx)

theorem inv_new {size pairs : Nat} {cb : CircularBuffer}
    (h : NewCircularBuffer size pairs = .ok cb) : Inv cb := by
  unfold NewCircularBuffer at h
  split_ifs at h <;> cases h <;> exact ⟨fun _ _ _ hx => (by cases hx), nofun⟩

/-- **Every element a `Drain` returns was pushed.**  Over any interleaving of the atomic steps of
`Push` and `Drain` calls on a new buffer, every pointer a `Drain` returns is that of a `Push`
that stored it. -/
theorem drained_were_pushed {size pairs : Nat} {cb : CircularBuffer}
    (h : NewCircularBuffer size pairs = .ok cb) (es : List event) :
    ∀ r ∈ (run step cb es).1, ∀ x ∈ r, Stored (run step cb es).2.pushes x := by
  have htrue : Invariant (fun _ _ => True) step Inv := fun c e hc _ => (hc.step e).1
  -- what was returned so far stays stored, and each step returns only stored pointers
  have hrun := htrue.outputs (P := fun out c => ∀ r ∈ out, ∀ x ∈ r, Stored c.pushes x)
    (fun out c e hc _ hout => by
      obtain ⟨-, hmono, hnew⟩ := hc.step e
      intro r hr x hx
      rcases List.mem_append.mp hr with hr | hr
      · exact hmono x (hout r hr x hx)
      · exact hnew r hr x hx)
    (inv_new h) (admits_of_forall (fun _ _ => trivial) _ es)
    (show ∀ r ∈ ([] : List (List Nat)), ∀ x ∈ r, Stored cb.pushes x from nofun)
  simpa using hrun

/-! ## Where the code does not meet its contract -/

/-- A `Drain` of the one pair, when no `Push` is in flight on its old queue: it takes the mutex,
switches, waits, reads, and zeroes the counters. -/
def drainSettled : List event :=
  [.Drain, .drainStep, .drainStep, .waitStep 0, .waitStep 0] ++ List.replicate 6 .drainStep

/-- **A `Drain` returns a sample a second time.**  On one pair of queues of eight slots: `Push`
`0` is pushed and drained; a second `Drain` switches back to the first queue; `Push` `1` takes
slot `0` of it, but a third `Drain` switches the queue away before `Push` `1` checks, so it drops
its sample; the third `Drain` then reads slot `0`, which still holds the pointer of `Push` `0`. -/
theorem drain_returns_sample_twice :
    ∃ cb, NewCircularBuffer 8 1 = .ok cb ∧
      (run step cb ((.Push :: List.replicate 6 (.pushStep 0)) ++ drainSettled ++ drainSettled ++
        (.Push :: List.replicate 3 (.pushStep 1)) ++
        [.Drain, .drainStep, .drainStep, .waitStep 0, .waitStep 0, .pushStep 1, .pushStep 1,
          .waitStep 0, .waitStep 0] ++ List.replicate 6 .drainStep)).1 = [[0], [], [0]] :=
  ⟨_, rfl, by decide⟩

/-- A `Push` that cannot touch the queue `q0` of pair `0`: it has not loaded its queue yet, has
returned, or holds another queue. -/
def Away (t : pushThread) : Prop :=
  t.pc = .addQpn ∨ t.pc = .loadQ ∨ t.pc = .returned ∨ t.pc = .dropped ∨ (t.n, t.qptr) ≠ (0, false)

instance (t : pushThread) : Decidable (Away t) := inferInstanceAs (Decidable (_ ∨ _))

/-- A `Drain` stuck in the `drainWait` of the old queue `q0` of the only pair, whose `written` is
one above its `acquired`, while the pair points to `q1` and no `Push` can touch `q0`. -/
structure Stuck (cb : CircularBuffer) : Prop where
  n_eq : cb.n = 1
  q_eq : cb.q 0 = true
  drain : ∃ d, cb.drain = some d ∧ d.pc = .wait ∧ d.qs = [false] ∧
    (d.waits = [.load] ∨ d.waits = [.cmp 0])
  acquired_eq : (cb.queues (0, false)).acquired = 0
  written_eq : (cb.queues (0, false)).written = 1
  pushes_away : ∀ t ∈ cb.pushes, Away t

section Stuck

variable {cb : CircularBuffer}

theorem Stuck.setQueue (h : Stuck cb) {k : Nat × Bool} (hk : k ≠ (0, false)) (qu : queue) :
    Stuck (cb.setQueue k qu) := by
  refine ⟨h.n_eq, h.q_eq, h.drain, ?_, ?_, h.pushes_away⟩ <;>
    simp only [setQueue_queues, if_neg (Ne.symm hk)]
  · exact h.acquired_eq
  · exact h.written_eq

theorem Stuck.setPush (h : Stuck cb) (id : Nat) {t : pushThread} (ht : Away t) :
    Stuck (cb.setPush id t) := by
  refine ⟨h.n_eq, h.q_eq, h.drain, h.acquired_eq, h.written_eq, fun u hu => ?_⟩
  rcases List.mem_or_eq_of_mem_set hu with hu | rfl
  · exact h.pushes_away u hu
  · exact ht

/-- **A step of a `Push` keeps the `Drain` stuck**: no `Push` touches `q0`, and one that loads
its queue now gets `q1`. -/
theorem Stuck.pushStep (h : Stuck cb) (id : Nat) : Stuck (cb.pushStep id) := by
  unfold CircularBuffer.pushStep
  split
  · exact h
  · rename_i t ht
    have haway := h.pushes_away t (List.mem_of_getElem? ht)
    -- the queue of a `Push` past its load is not `q0`
    have hne : t.pc ≠ .addQpn → t.pc ≠ .loadQ → t.pc ≠ .returned → t.pc ≠ .dropped →
        (t.n, t.qptr) ≠ (0, false) := by
      intro h1 h2 h3 h4
      rcases haway with h' | h' | h' | h' | h' <;> first | exact absurd h' ‹_› | exact h'
    rcases hpc : t.pc <;> dsimp only <;> simp only [hpc, ne_eq, reduceCtorEq, not_false_eq_true,
      forall_const] at hne
    case addQpn =>
      have hs := h.setPush id (t := { t with pc := .loadQ, n := (cb.qpn + 1) &&& (cb.n - 1) })
        (.inr (.inl rfl))
      exact ⟨hs.n_eq, hs.q_eq, hs.drain, hs.acquired_eq, hs.written_eq, hs.pushes_away⟩
    case loadQ =>
      refine h.setPush id (.inr (.inr (.inr (.inr fun heq => ?_))))
      obtain ⟨hn, hq⟩ := Prod.mk.inj heq
      dsimp only at hn hq
      rw [hn, h.q_eq] at hq
      cases hq
    case checkQ => exact h.setPush id (.inr (.inr (.inr (.inr hne))))
    case addAcquired | store | addWritten | addWrittenDropped =>
      exact (h.setQueue hne _).setPush id (.inr (.inr (.inr (.inr hne))))
    case returned | dropped => exact h

/-- **Every step keeps the `Drain` stuck, and returns nothing.**  Its goroutine waits at
`wg.Wait()`; the `drainWait` of `q0` loads `acquired`, `0`, then `written`, `1`, and starts
again; a new `Drain` waits for the mutex. -/
theorem Stuck.step (h : Stuck cb) (e : event) : (step cb e).1 = [] ∧ Stuck (step cb e).2 := by
  obtain ⟨d, hd, hpc, hqs, hwaits⟩ := h.drain
  cases e with
  | Push =>
    refine ⟨rfl, h.n_eq, h.q_eq, ⟨d, hd, hpc, hqs, hwaits⟩, h.acquired_eq, h.written_eq, ?_⟩
    intro t ht
    rcases List.mem_append.mp ht with ht | ht
    · exact h.pushes_away t ht
    · rw [List.mem_singleton.mp ht]
      exact .inl rfl
  | pushStep id => exact ⟨rfl, h.pushStep id⟩
  | Drain => exact ⟨rfl, by simpa [ProfilingBuffer.step, hd] using h⟩
  | drainStep =>
    have hnot : ¬ d.waits.all (· = .done) := by rcases hwaits with hw | hw <;> simp [hw]
    have hstep : cb.drainStep = ([], cb) := by simp [CircularBuffer.drainStep, hd, hpc, hnot]
    exact ⟨by simp [ProfilingBuffer.step, hstep], by simpa [ProfilingBuffer.step, hstep] using h⟩
  | waitStep i =>
    refine ⟨rfl, ?_⟩
    show Stuck (cb.waitStep i)
    -- the goroutine of `q0` alternates between its two loads; there is no other
    have hq0 := h.acquired_eq
    have hw0 := h.written_eq
    rcases i with _ | i
    · rcases hwaits with hw | hw
      · have hs : cb.waitStep 0 = cb.setDrain { d with waits := [.cmp 0] } := by
          simp [CircularBuffer.waitStep, hd, hpc, hw, hqs, hq0]
        rw [hs]
        exact ⟨h.n_eq, h.q_eq, ⟨_, rfl, hpc, hqs, .inr rfl⟩, h.acquired_eq, h.written_eq,
          h.pushes_away⟩
      · have hs : cb.waitStep 0 = cb.setDrain { d with waits := [.load] } := by
          simp [CircularBuffer.waitStep, hd, hpc, hw, hqs, hw0]
        rw [hs]
        exact ⟨h.n_eq, h.q_eq, ⟨_, rfl, hpc, hqs, .inl rfl⟩, h.acquired_eq, h.written_eq,
          h.pushes_away⟩
    · have hs : cb.waitStep (i + 1) = cb := by
        rcases hwaits with hw | hw <;> simp [CircularBuffer.waitStep, hd, hpc, hw]
      rw [hs]
      exact h

/-- A stuck `Drain` never returns, whatever the calls and steps that follow. -/
theorem Stuck.run (h : Stuck cb) (es : List event) :
    (Machine.run ProfilingBuffer.step cb es).1 = [] := by
  have hinv : Invariant (fun _ _ => True) ProfilingBuffer.step Stuck := fun c e hc _ => (hc.step e).2
  have hrun := hinv.outputs (P := fun out _ => out = [])
    (fun out c e hc _ hout => by rw [hout, (hc.step e).1]; rfl)
    h (admits_of_forall (fun _ _ => trivial) _ es) (show ([] : List (List Nat)) = [] from rfl)
  simpa using hrun

end Stuck

/-- A `Push` that loads `q0`, then a `Drain` that switches the pair to `q1` and passes its
`drainWait` before the `Push` increments `acquired`. -/
def stragglerRun : List event :=
  [.Push, .pushStep 0, .pushStep 0, .Drain, .drainStep, .drainStep, .waitStep 0, .waitStep 0,
    .drainStep, .pushStep 0] ++ List.replicate 5 .drainStep

/-- **A straggling `Push` unbalances the counters, and a later `Drain` waits forever.**  On one
pair of queues of eight slots: when the first `Drain` returns, the `Push` that loaded `q0` before
the switch sits between its increment of `acquired` and its increment of `written`, yet both
counters of `q0` are zero.  It then increments `written` to one.  After a second `Drain` (which
switches back to `q0`) and the switch of a third, the third `Drain` waits on `q0` forever: no
`Drain` returns again, whatever follows. -/
theorem straggler_unbalances_counters :
    ∃ cb, NewCircularBuffer 8 1 = .ok cb ∧
      (run step cb stragglerRun).1 = [[]] ∧
      ((run step cb stragglerRun).2.pushes.map (·.pc)) = [.checkQ] ∧
      ((run step cb stragglerRun).2.queues (0, false)).acquired = 0 ∧
      ((run step cb stragglerRun).2.queues (0, false)).written = 0 ∧
      ∀ es, (run step (run step cb (stragglerRun ++ [.pushStep 0, .pushStep 0] ++ drainSettled ++
        [.Drain, .drainStep, .drainStep])).2 es).1 = [] := by
  refine ⟨_, rfl, by decide, by decide, by decide, by decide, fun es => Stuck.run ?_ es⟩
  exact ⟨by decide, by decide, ⟨_, rfl, rfl, rfl, .inl rfl⟩, by decide, by decide, by decide⟩

end ProfilingBuffer
end GrpcGo
