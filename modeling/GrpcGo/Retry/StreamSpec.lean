import GrpcGo.Retry.Stream

/-!
# The retry machine: what every run guarantees

These are the properties of the machine of `Stream` along every run from `newClientStream`.

The log comes first.  `bufferedOps` lists what `bufferForRetryLocked` recorded.
`replaysBuffer` says that each attempt in the log is made with those operations and is
followed at once by their replay.  Its rules for `++` are what let the step lemmas extend a
log.

Two invariants carry the proofs.
* `Inv` is about the state.  The policy is kept and retries are counted within it.  The
  stream's creation is a single call that nothing commits.  Above all, `Inv.retrying`:
  `retryLocked` never runs on a committed stream whose attempt has no transport stream.
  So `shouldRetry`, which retries a failed stream creation transparently before it checks the
  commit, stops there (`shouldRetry_of_committed`).
* `LogInv` is about the log written so far.  It follows from `Inv` through `Block`, which says
  what one step does to the commit, the buffer and the log.  There is a `Block` lemma for
  each function of the machine.

`run_inv` puts the two together through the `Machine` rules, and
`retries_bounded_and_replayed` reads the three properties off them.
-/

namespace GrpcGo
namespace Retry

open GoStd

variable {Op : Type}

/-! ### The log -/

/-- The operations a log says `bufferForRetryLocked` recorded, in order. -/
def bufferedOps : List (event Op) → List (csOp Op)
  | [] => []
  | .buffered op :: l => op :: bufferedOps l
  | .newAttempt _ _ :: l | .replayed _ _ _ :: l | .run _ _ :: l | .commit :: l => bufferedOps l

@[simp] theorem bufferedOps_append : ∀ l1 l2 : List (event Op),
    bufferedOps (l1 ++ l2) = bufferedOps l1 ++ bufferedOps l2
  | [], _ => rfl
  | e :: l1, l2 => by
    cases e <;> simp [bufferedOps, bufferedOps_append l1 l2]

/-- The events right after the creation of attempt `k` with buffer `B`: a replay of the buffer,
all of it or up to an operation that failed. -/
def ReplayOf (k : Nat) (B : List (csOp Op)) (l : List (event Op)) : Prop :=
  ∃ R failed l', l = .replayed k R failed :: l' ∧ R <+: B ∧ (failed = false → R = B) ∧
    (failed = true → R ≠ [])

/-- Every attempt made in the log `l`, after the operations `buf` were buffered, is made with
the operations buffered so far and is followed by their replay. -/
def replaysBuffer : List (csOp Op) → List (event Op) → Prop
  | _, [] => True
  | buf, .newAttempt k B :: l => ReplayOf k B l ∧ B = buf ∧ replaysBuffer buf l
  | buf, .replayed _ _ _ :: l => replaysBuffer buf l
  | buf, .run _ _ :: l => replaysBuffer buf l
  | buf, .buffered op :: l => replaysBuffer (buf ++ [op]) l
  | buf, .commit :: l => replaysBuffer buf l

theorem replaysBuffer_append : ∀ (buf : List (csOp Op)) (l1 l2 : List (event Op)),
    replaysBuffer buf l1 → replaysBuffer (buf ++ bufferedOps l1) l2 →
      replaysBuffer buf (l1 ++ l2)
  | buf, [], l2, _, h2 => by simpa [bufferedOps] using h2
  | buf, e :: l1, l2, h1, h2 => by
    cases e with
    | newAttempt k B =>
      obtain ⟨⟨R, failed, l', rfl, hR⟩, hB, h1⟩ := h1
      refine ⟨⟨R, failed, l' ++ l2, rfl, hR⟩, hB, ?_⟩
      exact replaysBuffer_append buf _ l2 h1 (by simpa [bufferedOps] using h2)
    | replayed k R failed =>
      exact replaysBuffer_append buf l1 l2 h1 (by simpa [bufferedOps] using h2)
    | run k op =>
      exact replaysBuffer_append buf l1 l2 h1 (by simpa [bufferedOps] using h2)
    | buffered op =>
      exact replaysBuffer_append (buf ++ [op]) l1 l2 h1
        (by simpa [bufferedOps] using h2)
    | commit =>
      exact replaysBuffer_append buf l1 l2 h1 (by simpa [bufferedOps] using h2)

/-- What `replaysBuffer` says of one attempt of the log. -/
theorem replaysBuffer_split : ∀ (buf : List (csOp Op)) (l1 l2 : List (event Op)) (k : Nat)
    (B : List (csOp Op)), replaysBuffer buf (l1 ++ .newAttempt k B :: l2) →
      B = buf ++ bufferedOps l1 ∧ ReplayOf k B l2
  | buf, [], l2, k, B, h => ⟨by simpa [bufferedOps] using h.2.1, h.1⟩
  | buf, e :: l1, l2, k, B, h => by
    cases e with
    | newAttempt k' B' => simpa [bufferedOps] using replaysBuffer_split buf l1 l2 k B h.2.2
    | replayed => simpa [bufferedOps] using replaysBuffer_split buf l1 l2 k B h
    | run => simpa [bufferedOps] using replaysBuffer_split buf l1 l2 k B h
    | buffered op => simpa [bufferedOps] using replaysBuffer_split _ l1 l2 k B h
    | commit => simpa [bufferedOps] using replaysBuffer_split buf l1 l2 k B h

/-- A log with no attempt made in it replays every buffer. -/
theorem replaysBuffer_of_no_attempt : ∀ (buf : List (csOp Op)) (l : List (event Op)),
    (∀ k B, event.newAttempt k B ∉ l) → replaysBuffer buf l
  | _, [], _ => trivial
  | buf, e :: l, h => by
    have hl : ∀ k B, event.newAttempt k B ∉ l := fun k B hk => h k B (List.mem_cons_of_mem _ hk)
    cases e with
    | newAttempt k B => exact absurd List.mem_cons_self (h k B)
    | replayed => exact replaysBuffer_of_no_attempt buf l hl
    | run => exact replaysBuffer_of_no_attempt buf l hl
    | buffered op => exact replaysBuffer_of_no_attempt _ l hl
    | commit => exact replaysBuffer_of_no_attempt buf l hl


/-! ### What one step does to the commit, the buffer and the log -/

/-- What a step from `s` to `s'` that writes `es` does to the commit and the buffer: a commit
stays, the buffer grows by what the step records until the stream commits, and an attempt is
made only on a stream that was not committed, in a step that does not commit. -/
structure Block (s s' : retryStream Op) (es : List (event Op)) : Prop where
  committed : s.cs.committed = true → s'.cs.committed = true
  commit : event.commit ∈ es → s'.cs.committed = true
  buffer : s'.cs.committed = false → s'.buffer = s.buffer ++ bufferedOps es
  attempt : ∀ k B, event.newAttempt k B ∈ es → s.cs.committed = false ∧ event.commit ∉ es
  replays : ∀ buf, (s.cs.committed = false → buf = s.buffer) → replaysBuffer buf es

section Block

variable {s t s' : retryStream Op} {es : List (event Op)}

/-- A block is one of the state it starts from up to the commit and the buffer. -/
theorem Block.congr (hc : t.cs.committed = s.cs.committed) (hb : t.buffer = s.buffer)
    (h : Block t s' es) : Block s s' es where
  committed := fun h' => h.committed (hc.trans h')
  commit := h.commit
  buffer := fun h' => (h.buffer h').trans (by rw [hb])
  attempt := fun k B hk => hc ▸ h.attempt k B hk
  replays := fun buf hbuf => h.replays buf (fun h' => (hbuf (hc ▸ h')).trans hb.symm)

/-- A step that writes no attempt or commit, keeps the commit, and records what it writes. -/
theorem Block.of_quiet (hc : s'.cs.committed = s.cs.committed)
    (hb : s'.buffer = s.buffer ++ bufferedOps es) (hcommit : event.commit ∉ es)
    (hattempt : ∀ k B, event.newAttempt k B ∉ es) : Block s s' es where
  committed := fun h => hc.trans h
  commit := fun h => absurd h hcommit
  buffer := fun _ => hb
  attempt := fun k B hk => absurd hk (hattempt k B)
  replays := fun buf _ => replaysBuffer_of_no_attempt buf es hattempt

theorem block_commitAttemptLocked (s t : retryStream Op) :
    Block s (commitAttemptLocked t).2 (commitAttemptLocked t).1 where
  committed := fun _ => rfl
  commit := fun _ => rfl
  buffer := fun h => by simp [commitAttemptLocked] at h
  attempt := fun k B hk => by simp [commitAttemptLocked] at hk
  replays := fun buf _ => by simp [commitAttemptLocked, replaysBuffer]

theorem block_bufferForRetryLocked (s : retryStream Op) (sz : Int) (op : csOp Op) :
    Block s (bufferForRetryLocked s sz op).2 (bufferForRetryLocked s sz op).1 := by
  unfold bufferForRetryLocked
  split_ifs with hc hmax
  · exact Block.of_quiet rfl (by simp [bufferedOps]) (by simp) (by simp)
  · exact block_commitAttemptLocked s _
  · exact Block.of_quiet rfl (by simp [bufferedOps]) (by simp) (by simp)

theorem block_startOp (s : retryStream Op) (f : pendingOp Op) :
    Block s (startOp s f).2 (startOp s f).1 := by
  unfold startOp
  split_ifs <;> exact Block.of_quiet rfl (by simp [bufferedOps]) (by simp) (by simp)

end Block


/-! ### The invariant -/

/-- The invariant of the retry machine, for a stream whose method has the retry policy `rp`. -/
structure Inv (rp : Option RetryPolicy) (s : retryStream Op) : Prop where
  /-- The retry policy stays the method's. -/
  policy : s.cs.retryPolicy = rp
  /-- A retry is counted only where the policy allows another attempt. -/
  retries : ∀ p, s.cs.retryPolicy = some p →
    s.cs.numRetries = 0 ∨ (s.cs.numRetries : Int) + 1 ≤ p.MaxAttempts
  /-- Operations run on the current attempt or an earlier one. -/
  running_le : ∀ f ∈ s.running, f.attempt ≤ s.current
  /-- An operation on the current attempt has its transport stream, or is the stream's
  creation. -/
  running_stream : ∀ f ∈ s.running, f.attempt = s.current →
    s.hasStream = true ∨ s.created = false
  /-- Transport streams are created only while the stream is. -/
  running_creates : ∀ f ∈ s.running, f.op = .newStream → s.created = false
  retrying_creates : ∀ f e, s.retrying = some (f, e) → f.op = .newStream → s.created = false
  /-- The stream's creation is one `withRetry` call. -/
  creating : s.created = false →
    s.running.length ≤ 1 ∧ (s.retrying.isSome = true → s.running = [])
  /-- Nothing commits the stream while it is created and its creation runs. -/
  creating_commit : s.created = false → s.cs.committed = true →
    s.running = [] ∧ s.retrying = none
  /-- `retryLocked` never runs on a committed stream whose attempt lacks a transport stream. -/
  retrying : s.retrying.isSome = true → s.cs.committed = true → s.hasStream = true

section Inv

variable {rp : Option RetryPolicy} {s s' : retryStream Op}

/-- The invariant reads the fields `shouldRetry` sees, the attempt, the running operations and
the call in `retryLocked`; a state that agrees on those keeps it. -/
theorem Inv.congr (hs : Inv rp s) (hcs : s'.cs = s.cs) (hcur : s'.current = s.current)
    (hstr : s'.hasStream = s.hasStream) (hcre : s'.created = s.created)
    (hrun : s'.running = s.running) (hret : s'.retrying = s.retrying) : Inv rp s' := by
  cases s
  cases s'
  simp only at hcs hcur hstr hcre hrun hret
  subst hcs hcur hstr hcre hrun hret
  exact ⟨hs.1, hs.2, hs.3, hs.4, hs.5, hs.6, hs.7, hs.8, hs.9⟩

theorem inv_newClientStream (rp : Option RetryPolicy) (rt : Option retryThrottler)
    (disableRetry : Bool) (max : Int) :
    Inv rp (newClientStream rp rt disableRetry max : retryStream Op) where
  policy := rfl
  retries := fun _ _ => .inl rfl
  running_le := by simp [newClientStream]
  running_stream := by simp [newClientStream]
  running_creates := by simp [newClientStream]
  retrying_creates := by simp [newClientStream]
  creating := by simp [newClientStream]
  creating_commit := by simp [newClientStream]
  retrying := by simp [newClientStream]

/-- Starting an operation on the current attempt, from a state where no call is in
`retryLocked`, keeps the invariant; during the creation nothing else runs. -/
theorem Inv.after_startOp (hs : Inv rp s) {f : pendingOp Op} (hr : s.retrying = none)
    (hc : s.created = false → s.running = []) (hf : f.op = .newStream → s.created = false) :
    Inv rp (startOp s f).2 := by
  unfold startOp
  split_ifs with hpanic hcommit
  · exact hs.congr rfl rfl rfl rfl rfl rfl
  · exact hs
  · -- the operation runs outside the lock: it joins the running ones
    simp only [Bool.and_eq_true, Bool.not_eq_true', not_and, Bool.not_eq_false] at hpanic
    simp only [Bool.not_eq_true] at hcommit
    have hnew : f.op = .newStream ∨ s.hasStream = true := by
      cases hop : f.op with
      | newStream => exact .inl rfl
      | op o => exact .inr (hpanic (by simp [hop, csOp.isNewStream]))
    refine ⟨hs.policy, hs.retries, ?_, ?_, ?_, hs.retrying_creates, ?_, ?_, ?_⟩
    · intro g hg
      rcases List.mem_append.mp hg with hg | hg
      · exact hs.running_le g hg
      · simp only [List.mem_singleton] at hg
        subst hg
        exact Nat.le_refl _
    · intro g hg hcur
      rcases List.mem_append.mp hg with hg | hg
      · exact hs.running_stream g hg hcur
      · simp only [List.mem_singleton] at hg
        subst hg
        exact hnew.elim (fun h => .inr (hf h)) .inl
    · intro g hg hop
      rcases List.mem_append.mp hg with hg | hg
      · exact hs.running_creates g hg hop
      · simp only [List.mem_singleton] at hg
        subst hg
        exact hf hop
    · intro hcre
      simp [hc hcre, hr]
    · intro _ hcom
      simp [hcommit] at hcom
    · simp [hr]

/-- Dropping a running operation keeps the invariant. -/
theorem Inv.after_eraseIdx (hs : Inv rp s) (i : Nat) :
    Inv rp { s with running := s.running.eraseIdx i } where
  policy := hs.policy
  retries := hs.retries
  running_le := fun f hf => hs.running_le f (List.mem_of_mem_eraseIdx hf)
  running_stream := fun f hf => hs.running_stream f (List.mem_of_mem_eraseIdx hf)
  running_creates := fun f hf => hs.running_creates f (List.mem_of_mem_eraseIdx hf)
  retrying_creates := hs.retrying_creates
  creating := fun hcre => by
    obtain ⟨hlen, hret⟩ := hs.creating hcre
    refine ⟨(List.length_eraseIdx_le _ _).trans hlen, fun h => ?_⟩
    simp [hret h]
  creating_commit := fun hcre hcom => by
    obtain ⟨hrun, hret⟩ := hs.creating_commit hcre hcom
    simp [hrun, hret]
  retrying := hs.retrying


/-- A commit keeps the invariant where no call is in `retryLocked` and none runs during the
creation. -/
theorem Inv.after_commitAttemptLocked (hs : Inv rp s) (hr : s.retrying = none)
    (hc : s.created = false → s.running = []) : Inv rp (commitAttemptLocked s).2 where
  policy := hs.policy
  retries := hs.retries
  running_le := hs.running_le
  running_stream := hs.running_stream
  running_creates := hs.running_creates
  retrying_creates := hs.retrying_creates
  creating := hs.creating
  creating_commit := fun hcre _ => ⟨hc hcre, hr⟩
  retrying := fun h => by simp [commitAttemptLocked, hr] at h

theorem Inv.after_bufferForRetryLocked (hs : Inv rp s) (hr : s.retrying = none)
    (hc : s.created = false → s.running = []) (sz : Int) (op : csOp Op) :
    Inv rp (bufferForRetryLocked s sz op).2 := by
  unfold bufferForRetryLocked
  split_ifs
  · exact hs
  · have hsz : Inv rp { s with bufferSize := s.bufferSize + sz } :=
      hs.congr rfl rfl rfl rfl rfl rfl
    exact hsz.after_commitAttemptLocked hr hc
  · exact hs.congr rfl rfl rfl rfl rfl rfl

/-- Ending the stream's creation with the transport stream it created keeps the invariant. -/
theorem Inv.after_streamCreated (hs : Inv rp s) (hr : s.retrying = none)
    (hc : s.created = false → s.running = []) {op : csOp Op}
    (hop : op = .newStream → s.created = false) : Inv rp (streamCreated s op) := by
  unfold streamCreated
  split_ifs with hnew
  · -- the creation was the one call running
    have hrun : s.running = [] := hc (hop (by cases op <;> simp_all [csOp.isNewStream]))
    refine ⟨hs.policy, hs.retries, ?_, ?_, ?_, ?_, ?_, ?_, ?_⟩
    all_goals simp [hrun, hr]
  · exact hs

theorem streamCreated_retrying (s : retryStream Op) (op : csOp Op) :
    (streamCreated s op).retrying = s.retrying := by
  unfold streamCreated
  split_ifs <;> rfl

theorem streamCreated_running (s : retryStream Op) (op : csOp Op) :
    (streamCreated s op).created = false → (streamCreated s op).running = s.running ∧
      s.created = false := by
  unfold streamCreated
  split_ifs
  · simp
  · exact fun h => ⟨rfl, h⟩

/-- A success on the current attempt keeps the invariant. -/
theorem Inv.after_succeed (hs : Inv rp s) (hr : s.retrying = none)
    (hc : s.created = false → s.running = []) {f : pendingOp Op}
    (hf : f.op = .newStream → s.created = false) : Inv rp (succeed s f).2 := by
  have hs1 := hs.after_streamCreated hr hc hf
  have hr1 : (streamCreated s f.op).retrying = none := (streamCreated_retrying s f.op).trans hr
  have hc1 : (streamCreated s f.op).created = false → (streamCreated s f.op).running = [] :=
    fun h => by
      obtain ⟨hrun, hcre⟩ := streamCreated_running s f.op h
      rw [hrun, hc hcre]
  unfold succeed
  split
  · exact hs1.after_commitAttemptLocked hr1 hc1
  · exact hs1.after_bufferForRetryLocked hr1 hc1 _ _

/-- During the creation the one running call is the creation's. -/
theorem Inv.eraseIdx_creating (hs : Inv rp s) {i : Nat} {f : pendingOp Op}
    (hf : s.running[i]? = some f) : s.created = false → s.running.eraseIdx i = [] := by
  intro hcre
  have hi : i < s.running.length := (List.getElem?_eq_some_iff.mp hf).1
  have hlen := (hs.creating hcre).1
  apply List.eq_nil_of_length_eq_zero
  rw [List.length_eraseIdx, if_pos hi]
  omega

/-- A creation that is running has not been committed. -/
theorem Inv.not_committed_of_running (hs : Inv rp s) {f : pendingOp Op} (hf : f ∈ s.running)
    (hcre : s.created = false) : s.cs.committed = false := by
  cases hcom : s.cs.committed with
  | false => rfl
  | true =>
    have := (hs.creating_commit hcre hcom).1
    simp [this] at hf

/-- A failure on the current attempt enters `retryLocked` with the invariant. -/
theorem Inv.enter_retry (hs : Inv rp s) {i : Nat} {f : pendingOp Op}
    (hf : s.running[i]? = some f) (hcur : f.attempt = s.current) (err : attemptErr) :
    Inv rp { s with running := s.running.eraseIdx i, retrying := some (f, err) } := by
  have hmem : f ∈ s.running := List.mem_of_getElem? hf
  have he := hs.after_eraseIdx i
  refine ⟨hs.policy, hs.retries, he.running_le, he.running_stream, he.running_creates, ?_, ?_,
    ?_, ?_⟩
  · intro g e hg hop
    simp only [Option.some.injEq, Prod.mk.injEq] at hg
    obtain ⟨hfg, -⟩ := hg
    exact hs.running_creates f hmem (hfg ▸ hop)
  · intro hcre
    exact ⟨he.creating hcre |>.1, fun _ => hs.eraseIdx_creating hf hcre⟩
  · intro hcre hcom
    rw [hs.not_committed_of_running hmem hcre] at hcom
    cases hcom
  · -- the failed operation ran on the current attempt, which has its transport stream
    intro _ hcom
    rcases hs.running_stream f hmem hcur with hstr | hcre
    · exact hstr
    · rw [hs.not_committed_of_running hmem hcre] at hcom
      cases hcom

theorem Inv.after_complete (hs : Inv rp s) (hr : s.retrying = none) (i : Nat)
    (result : Option attemptErr) : Inv rp (complete s i result).2 := by
  unfold complete
  split
  · exact hs
  · rename_i f hf
    have hmem : f ∈ s.running := List.mem_of_getElem? hf
    have he := hs.after_eraseIdx i
    dsimp only
    split_ifs with hstale
    · -- another attempt has started: the operation runs again
      exact he.after_startOp hr (hs.eraseIdx_creating hf) (hs.running_creates f hmem)
    · split
      · exact he.after_succeed hr (hs.eraseIdx_creating hf) (hs.running_creates f hmem)
      · exact hs.enter_retry hf (not_not.mp hstale) _

/-- `shouldRetry` keeps the policy, and counts a retry only where the policy allows it. -/
theorem retries_after_shouldRetry {cs view cs' : clientStream} {e : attemptErr}
    {ctxDone : Option ctxErr} {r : Nat} {t : Bool} {res : Option GoError}
    (hpol : view.retryPolicy = cs.retryPolicy) (hnum : view.numRetries = cs.numRetries)
    (h : shouldRetry view e ctxDone r = .ok (cs', t, res))
    (hret : ∀ p, cs.retryPolicy = some p →
      cs.numRetries = 0 ∨ (cs.numRetries : Int) + 1 ≤ p.MaxAttempts) :
    cs'.retryPolicy = cs.retryPolicy ∧ ∀ p, cs'.retryPolicy = some p →
      cs'.numRetries = 0 ∨ (cs'.numRetries : Int) + 1 ≤ p.MaxAttempts := by
  obtain ⟨-, -, hpol', hcount⟩ := shouldRetry_frame h
  refine ⟨hpol'.trans hpol, fun p hp => ?_⟩
  rcases hcount with hsame | ⟨p', hp', hallowed, hinc⟩
  · rw [hsame, hnum]
    exact hret p (hpol ▸ hpol' ▸ hp)
  · -- the retry was counted below the limit
    rw [hpol', hp'] at hp
    cases hp
    right
    rw [hinc, hnum] at *
    push_cast
    omega

/-- The state a round of `retryLocked` leaves when it does not go on: the new fields of
`shouldRetry`, and no call in the loop. -/
theorem Inv.leave_retry (hs : Inv rp s) {f : pendingOp Op} {lastErr : attemptErr}
    (hret : s.retrying = some (f, lastErr)) {cs' : clientStream}
    (hpol : cs'.retryPolicy = s.cs.retryPolicy)
    (hnum : ∀ p, cs'.retryPolicy = some p →
      cs'.numRetries = 0 ∨ (cs'.numRetries : Int) + 1 ≤ p.MaxAttempts) :
    Inv rp { s with cs := cs', retrying := none } where
  policy := hpol.trans hs.policy
  retries := hnum
  running_le := hs.running_le
  running_stream := hs.running_stream
  running_creates := hs.running_creates
  retrying_creates := by simp
  creating := fun hcre => ⟨(hs.creating hcre).1, by simp⟩
  creating_commit := fun hcre hc => by
    have hrun := (hs.creating hcre).2 (by simp [hret])
    exact ⟨hrun, rfl⟩
  retrying := by simp

/-- The attempt `newAttempt` makes, while the call is still in `retryLocked` or once it has
left it to run its operation: no running operation is on it yet. -/
theorem Inv.made_attempt (hs : Inv rp s) {f : pendingOp Op} {lastErr : attemptErr}
    (hret : s.retrying = some (f, lastErr)) {cs' : clientStream}
    (hpol : cs'.retryPolicy = s.cs.retryPolicy)
    (hnum : ∀ p, cs'.retryPolicy = some p →
      cs'.numRetries = 0 ∨ (cs'.numRetries : Int) + 1 ≤ p.MaxAttempts)
    (hcom' : cs'.committed = false) (str : Bool) (ret : Option (pendingOp Op × attemptErr))
    (hret' : ∀ g e, ret = some (g, e) → g = f) :
    Inv rp { s with cs := cs', current := s.current + 1, hasStream := str, retrying := ret } where
  policy := hpol.trans hs.policy
  retries := hnum
  running_le := fun g hg => Nat.le_succ_of_le (hs.running_le g hg)
  running_stream := fun g hg hcur => by
    have := hs.running_le g hg
    simp only at hcur
    omega
  running_creates := hs.running_creates
  retrying_creates := fun g e hg => hret' g e hg ▸ hs.retrying_creates f lastErr hret
  creating := fun hcre => ⟨(hs.creating hcre).1, fun _ => (hs.creating hcre).2 (by simp [hret])⟩
  creating_commit := fun _ hc => by simp [hcom'] at hc
  retrying := fun _ hc => by simp [hcom'] at hc

theorem Inv.after_retryLocked (hs : Inv rp s) (info : attemptStream) (ctxDone : Option ctxErr)
    (r : Nat) (newAttemptOk : Bool) (replayFail : Option (Nat × attemptErr)) :
    Inv rp (retryLocked s info ctxDone r newAttemptOk replayFail).2 := by
  unfold retryLocked
  split
  · exact hs
  rename_i f lastErr hret
  have hsome : s.retrying.isSome = true := by simp [hret]
  dsimp only
  split
  · -- `shouldRetry` panicked
    exact hs.congr rfl rfl rfl rfl rfl rfl
  · -- stop: the stream commits
    rename_i cs' t e hsr
    obtain ⟨hpol, hnum⟩ := retries_after_shouldRetry rfl rfl hsr hs.retries
    exact (hs.leave_retry hret hpol hnum).after_commitAttemptLocked rfl
      (fun hcre => (hs.creating hcre).2 hsome)
  · rename_i cs' t hsr
    obtain ⟨hpol, hnum⟩ := retries_after_shouldRetry rfl rfl hsr hs.retries
    obtain ⟨-, hcom', -, -⟩ := shouldRetry_frame hsr
    split
    · -- a retry is made on a stream that was not committed
      have hcom : s.cs.committed = false := by
        cases hc : s.cs.committed with
        | false => rfl
        | true =>
          -- the attempt has its transport stream, so `shouldRetry` stops on the commit
          have hstr := hs.retrying hsome hc
          have hstop := @shouldRetry_of_committed
            { s.cs with attempt := if s.hasStream then some info else none } (by simp [hstr]) hc
            lastErr ctxDone r
          rw [hstop] at hsr
          cases hsr
      -- the fields of `shouldRetry` once the first attempt is behind
      have hpol1 : ({ cs' with firstAttempt := false } : clientStream).retryPolicy =
          s.cs.retryPolicy := hpol
      have hcom1 : ({ cs' with firstAttempt := false } : clientStream).committed = false :=
        hcom'.trans hcom
      unfold newAttempt
      dsimp only
      split
      · rename_i err _
        exact hs.made_attempt hret hpol1 hnum hcom1 _ (some (f, err))
          (fun g e h => by simp only [Option.some.injEq, Prod.mk.injEq] at h; exact h.1.symm)
      · have hmade := hs.made_attempt hret hpol1 hnum hcom1
          ((replaySucceeded (replayBufferLocked s.buffer replayFail).1
            (replayBufferLocked s.buffer replayFail).2).any csOp.isNewStream) none (by simp)
        exact hmade.after_startOp rfl (fun hcre => (hs.creating hcre).2 hsome)
          (hs.retrying_creates f lastErr hret)
    · exact hs.leave_retry hret hpol hnum

theorem Inv.after_finish (hs : Inv rp s) (hr : s.retrying = none)
    (hc : s.created = true ∨ s.running = []) : Inv rp (finish s).2 := by
  unfold finish
  split_ifs
  · exact hs
  · -- marking the stream finished changes nothing the invariant reads
    have hfin : Inv rp { s with cs := { s.cs with finished := true } } :=
      ⟨hs.1, hs.2, hs.3, hs.4, hs.5, hs.6, hs.7, hs.8, hs.9⟩
    exact hfin.after_commitAttemptLocked hr
      (fun hcre => hc.resolve_left (by rw [show s.created = false from hcre]; decide))

/-- Every allowed step keeps the invariant. -/
theorem inv_step (hs : Inv rp s) (a : action Op) (ha : allowed s a) : Inv rp (step s a).2 := by
  unfold step
  split_ifs
  · exact hs
  · cases a with
    | call o onSuccess =>
      exact hs.after_startOp (Option.isNone_iff_eq_none.mp ha.2) (fun h => by simp [ha.1] at h)
        (fun h => by cases h)
    | complete i result => exact hs.after_complete (Option.isNone_iff_eq_none.mp ha.1) i result
    | retry info ctxDone r newAttemptOk replayFail =>
      exact hs.after_retryLocked info ctxDone r newAttemptOk replayFail
    | finish =>
      exact hs.after_finish (Option.isNone_iff_eq_none.mp ha.1)
        (ha.2.imp_right List.isEmpty_iff.mp)
    | commitAttempt =>
      exact hs.after_commitAttemptLocked (Option.isNone_iff_eq_none.mp ha.2)
        (fun h => by simp [ha.1] at h)

theorem invariant (rp : Option RetryPolicy) :
    Machine.Invariant allowed step (@Inv Op rp) :=
  fun _ a hs ha => inv_step hs a ha

end Inv


section Blocks

variable {rp : Option RetryPolicy} {s : retryStream Op}

theorem block_succeed (s : retryStream Op) (f : pendingOp Op) :
    Block s (succeed s f).2 (succeed s f).1 := by
  -- the created transport stream changes neither the commit nor the buffer
  have hc : (streamCreated s f.op).cs.committed = s.cs.committed := by
    unfold streamCreated; split_ifs <;> rfl
  have hb : (streamCreated s f.op).buffer = s.buffer := by
    unfold streamCreated; split_ifs <;> rfl
  unfold succeed
  split
  · exact (block_commitAttemptLocked _ _).congr hc hb
  · exact (block_bufferForRetryLocked _ _ _).congr hc hb

theorem block_complete (s : retryStream Op) (i : Nat) (result : Option attemptErr) :
    Block s (complete s i result).2 (complete s i result).1 := by
  unfold complete
  split
  · exact Block.of_quiet rfl (by simp [bufferedOps]) (by simp) (by simp)
  · dsimp only
    split_ifs
    · exact Block.congr (t := { s with running := s.running.eraseIdx i }) rfl rfl
        (block_startOp _ _)
    · split
      · exact Block.congr (t := { s with running := s.running.eraseIdx i }) rfl rfl
          (block_succeed _ _)
      · exact Block.of_quiet rfl (by simp [bufferedOps]) (by simp) (by simp)

/-- What a replay runs: a prefix of the buffer, all of it unless an operation failed, and the
failed one with it. -/
theorem replayBufferLocked_prefix (B : List (csOp Op)) (replayFail : Option (Nat × attemptErr))
    (hfail : ∀ j err, replayFail = some (j, err) → j < B.length) :
    (replayBufferLocked B replayFail).1 <+: B ∧
      ((replayBufferLocked B replayFail).2.isSome = false → (replayBufferLocked B replayFail).1 = B) ∧
      ((replayBufferLocked B replayFail).2.isSome = true → (replayBufferLocked B replayFail).1 ≠ []) := by
  cases replayFail with
  | none => simp [replayBufferLocked]
  | some fail =>
    obtain ⟨j, err⟩ := fail
    have hj := hfail j err rfl
    have hB : B ≠ [] := List.ne_nil_of_length_pos (by omega)
    exact ⟨List.take_prefix _ _, by simp [replayBufferLocked], fun _ => by
      simp [replayBufferLocked, hB]⟩

/-- A new attempt on a stream that was not committed, with its replay, and the operation run on
it when the replay succeeded. -/
theorem block_newAttempt (s : retryStream Op) (f : pendingOp Op)
    (replayFail : Option (Nat × attemptErr)) (hcom : s.cs.committed = false)
    (hfail : ∀ j err, replayFail = some (j, err) → j < s.buffer.length) :
    Block s (newAttempt s f replayFail).2 (newAttempt s f replayFail).1 := by
  obtain ⟨hpre, hall, hne⟩ := replayBufferLocked_prefix s.buffer replayFail hfail
  -- the events: the attempt, its replay, and the run of the operation after a full replay
  obtain ⟨ran, hran, hruns, hcom', hbuf⟩ : ∃ ran : List (event Op),
      (newAttempt s f replayFail).1 = [.newAttempt (s.current + 1) s.buffer,
        .replayed (s.current + 1) (replayBufferLocked s.buffer replayFail).1
          (replayBufferLocked s.buffer replayFail).2.isSome] ++ ran ∧
      (ran = [] ∨ ran = [.run (s.current + 1) f.op]) ∧
      (newAttempt s f replayFail).2.cs.committed = false ∧
      (newAttempt s f replayFail).2.buffer = s.buffer := by
    unfold newAttempt
    dsimp only
    split
    · exact ⟨[], by simp, .inl rfl, hcom, rfl⟩
    · refine ⟨(startOp _ f).1, rfl, ?_, ?_, ?_⟩
      · unfold startOp; split_ifs <;> simp
      · unfold startOp; split_ifs <;> exact hcom
      · unfold startOp; split_ifs <;> rfl
  have hquiet : event.commit ∉ ran ∧ bufferedOps ran = [] ∧ replaysBuffer s.buffer ran := by
    rcases hruns with rfl | rfl <;> simp [bufferedOps, replaysBuffer]
  have hno_commit : event.commit ∉ (newAttempt s f replayFail).1 := by
    simp [hran, hquiet.1]
  refine ⟨fun h => by simp [hcom] at h, fun h => absurd h hno_commit, fun _ => ?_,
    fun _ _ _ => ⟨hcom, hno_commit⟩, fun buf hb => ?_⟩
  · simp [hbuf, hran, bufferedOps, hquiet.2.1]
  · rw [hran, hb hcom]
    exact ⟨⟨_, _, ran, rfl, hpre, hall, hne⟩, rfl, hquiet.2.2⟩

theorem block_retryLocked (hs : Inv rp s) (info : attemptStream) (ctxDone : Option ctxErr)
    (r : Nat) (newAttemptOk : Bool) (replayFail : Option (Nat × attemptErr))
    (hfail : ∀ j err, replayFail = some (j, err) → j < s.buffer.length) :
    Block s (retryLocked s info ctxDone r newAttemptOk replayFail).2
      (retryLocked s info ctxDone r newAttemptOk replayFail).1 := by
  unfold retryLocked
  split
  · exact Block.of_quiet rfl (by simp [bufferedOps]) (by simp) (by simp)
  rename_i f lastErr hret
  have hsome : s.retrying.isSome = true := by simp [hret]
  dsimp only
  split
  · exact Block.of_quiet rfl (by simp [bufferedOps]) (by simp) (by simp)
  · exact block_commitAttemptLocked _ _
  · rename_i cs' t hsr
    obtain ⟨-, hcom', -, -⟩ := shouldRetry_frame hsr
    split
    · -- as for the invariant: a retry is made only on a stream that was not committed
      have hcom : s.cs.committed = false := by
        cases hc : s.cs.committed with
        | false => rfl
        | true =>
          have hstr := hs.retrying hsome hc
          have hstop := @shouldRetry_of_committed
            { s.cs with attempt := if s.hasStream then some info else none } (by simp [hstr]) hc
            lastErr ctxDone r
          rw [hstop] at hsr
          cases hsr
      exact Block.congr (t := { s with cs := { cs' with firstAttempt := false } })
        (hcom'.trans hcom |>.trans hcom.symm) rfl
        (block_newAttempt _ f replayFail (hcom'.trans hcom) hfail)
    · exact Block.of_quiet hcom' (by simp [bufferedOps]) (by simp) (by simp)

theorem block_finish (s : retryStream Op) : Block s (finish s).2 (finish s).1 := by
  unfold finish
  split_ifs
  · exact Block.of_quiet rfl (by simp [bufferedOps]) (by simp) (by simp)
  · exact block_commitAttemptLocked _ _

/-- What every allowed step does to the commit, the buffer and the log. -/
theorem step_block (hs : Inv rp s) (a : action Op) (ha : allowed s a) :
    Block s (step s a).2 (step s a).1 := by
  unfold step
  split_ifs
  · exact Block.of_quiet rfl (by simp [bufferedOps]) (by simp) (by simp)
  · cases a with
    | call o onSuccess => exact block_startOp _ _
    | complete i result => exact block_complete _ _ _
    | retry info ctxDone r newAttemptOk replayFail =>
      exact block_retryLocked hs info ctxDone r newAttemptOk replayFail
        (fun j err h => by simpa [h] using ha.2)
    | finish => exact block_finish _
    | commitAttempt => exact block_commitAttemptLocked _ _

end Blocks


/-! ### Runs -/

/-- What the log written so far says, with the state it leads to. -/
structure LogInv (out : List (event Op)) (s : retryStream Op) : Prop where
  /-- A commit in the log has committed the stream. -/
  committed : event.commit ∈ out → s.cs.committed = true
  /-- No attempt is made after a commit. -/
  attempts : ∀ l1 l2, out = l1 ++ event.commit :: l2 → ∀ k B, event.newAttempt k B ∉ l2
  /-- Until the stream commits, its buffer is what the log says was buffered. -/
  buffer : s.cs.committed = false → s.buffer = bufferedOps out
  /-- Every attempt is made with what was buffered and is followed by its replay. -/
  replays : replaysBuffer [] out

section Runs

variable {s s' : retryStream Op} {out es : List (event Op)}

theorem LogInv.after (h : LogInv out s) (hb : Block s s' es) : LogInv (out ++ es) s' where
  committed := fun hc => by
    rcases List.mem_append.mp hc with hc | hc
    · exact hb.committed (h.committed hc)
    · exact hb.commit hc
  attempts := fun l1 l2 heq k B hk => by
    rcases List.append_eq_append_iff.mp heq with ⟨a', -, hes⟩ | ⟨c', hout, hl2⟩
    · -- the commit is the step's own: the step makes no attempt
      have hc : event.commit ∈ es := by simp [hes]
      exact (hb.attempt k B (by simp [hes, hk])).2 hc
    · cases c' with
      | nil =>
        simp only [List.nil_append] at hl2
        exact (hb.attempt k B (by simp [← hl2, hk])).2 (by simp [← hl2])
      | cons x c'' =>
        simp only [List.cons_append, List.cons.injEq] at hl2
        obtain ⟨rfl, rfl⟩ := hl2
        rcases List.mem_append.mp hk with hk | hk
        · exact h.attempts l1 c'' hout k B hk
        · -- the stream was committed before the step, which then makes no attempt
          have hcom := h.committed (by simp [hout])
          rw [(hb.attempt k B hk).1] at hcom
          cases hcom
  buffer := fun hc => by
    have hc0 : s.cs.committed = false := by
      cases h0 : s.cs.committed with
      | false => rfl
      | true => rw [hb.committed h0] at hc; cases hc
    rw [hb.buffer hc, h.buffer hc0, bufferedOps_append]
  replays := by
    apply replaysBuffer_append [] out es h.replays
    exact hb.replays _ (fun hc => by rw [List.nil_append, h.buffer hc])

theorem logInv_newClientStream (rp : Option RetryPolicy) (rt : Option retryThrottler)
    (disableRetry : Bool) (limit : Int) :
    LogInv [] (newClientStream rp rt disableRetry limit : retryStream Op) where
  committed := by simp
  attempts := by simp
  buffer := fun _ => rfl
  replays := trivial

/-- The invariants hold after every run of a new client stream. -/
theorem run_inv (rp : Option RetryPolicy) (rt : Option retryThrottler) (disableRetry : Bool)
    (limit : Int) (as : List (action Op))
    (hadm : Machine.Admits allowed step (newClientStream rp rt disableRetry limit) as) :
    Inv rp (Machine.run step (newClientStream rp rt disableRetry limit) as).2 ∧
      LogInv (Machine.run step (newClientStream rp rt disableRetry limit) as).1
        (Machine.run step (newClientStream rp rt disableRetry limit) as).2 := by
  have hinit : Inv rp (newClientStream rp rt disableRetry limit : retryStream Op) :=
    inv_newClientStream rp rt disableRetry limit
  refine ⟨(invariant rp).run hinit hadm, ?_⟩
  have hlog := (invariant rp).outputs (P := LogInv)
    (fun out s a hs ha hp => hp.after (step_block hs a ha)) hinit hadm
    (logInv_newClientStream rp rt disableRetry limit)
  simpa using hlog

/-- Along every run of a client stream: the retries counted stay below the policy's attempts;
no attempt is made once the stream has committed; and each attempt that `retryLocked` makes is
made with the operations recorded by `bufferForRetryLocked` before it, in order, and the next
thing the stream does is replay them on it: all of them, or up to one that failed, which ends
the replay. -/
theorem retries_bounded_and_replayed (rp : Option RetryPolicy) (rt : Option retryThrottler)
    (disableRetry : Bool) (limit : Int) (as : List (action Op))
    (hadm : Machine.Admits allowed step (newClientStream rp rt disableRetry limit) as) :
    (∀ p, rp = some p →
      ((Machine.run step (newClientStream rp rt disableRetry limit) as).2.cs.numRetries : Int) ≤
        max 0 (p.MaxAttempts - 1)) ∧
    (∀ l1 l2, (Machine.run step (newClientStream rp rt disableRetry limit) as).1 =
      l1 ++ .commit :: l2 → ∀ k B, .newAttempt k B ∉ l2) ∧
    (∀ l1 l2 k B, (Machine.run step (newClientStream rp rt disableRetry limit) as).1 =
      l1 ++ .newAttempt k B :: l2 →
        B = bufferedOps l1 ∧ ∃ R failed l3, l2 = .replayed k R failed :: l3 ∧ R <+: B ∧
          (failed = false → R = B) ∧ (failed = true → R ≠ [])) := by
  obtain ⟨hinv, hlog⟩ := run_inv rp rt disableRetry limit as hadm
  refine ⟨fun p hp => ?_, hlog.attempts, fun l1 l2 k B h => ?_⟩
  · rcases hinv.retries p (hinv.policy.trans hp) with h0 | hle
    · rw [h0]
      exact le_max_left _ _
    · exact le_max_of_le_right (by omega)
  · have hsplit := replaysBuffer_split [] l1 l2 k B (h ▸ hlog.replays)
    rw [List.nil_append] at hsplit
    exact hsplit

end Runs


theorem retries_bounded_and_replayed_sample :
    let run := Machine.run step
      (newClientStream (some ⟨3, 1000000, 1000000000, 2, [.unavailable]⟩) none false 100 :
        retryStream Nat)
      [.complete 0 (some (.newStream (.text "connection closing") false false)),
        .retry ⟨false, true, [], .unavailable⟩ none 0 true none, .complete 0 none,
        .call 7 (.buffer 3), .complete 0 none, .finish]
    (∀ p : RetryPolicy, some ⟨3, 1000000, 1000000000, 2, [.unavailable]⟩ = some p →
      (run.2.cs.numRetries : Int) ≤ max 0 (p.MaxAttempts - 1)) ∧
    (∀ l1 l2, run.1 = l1 ++ .commit :: l2 → ∀ k B, .newAttempt k B ∉ l2) ∧
    (∀ l1 l2 k B, run.1 = l1 ++ .newAttempt k B :: l2 →
      B = bufferedOps l1 ∧ ∃ R failed l3, l2 = .replayed k R failed :: l3 ∧ R <+: B ∧
        (failed = false → R = B) ∧ (failed = true → R ≠ [])) :=
  retries_bounded_and_replayed (some ⟨3, 1000000, 1000000000, 2, [.unavailable]⟩) none false 100
    [.complete 0 (some (.newStream (.text "connection closing") false false)),
      .retry ⟨false, true, [], .unavailable⟩ none 0 true none, .complete 0 none,
      .call 7 (.buffer 3), .complete 0 none, .finish] (by decide)

end Retry
end GrpcGo
