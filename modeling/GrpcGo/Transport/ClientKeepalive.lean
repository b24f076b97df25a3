import GrpcGo.Lib.Machine

/-!
# Client keepalive (`internal/transport/http2_client.go`)

The client's keepalive goroutine pings a connection it has not heard from and closes it when
the ping is not answered.  Each time its timer fires it looks at `t.lastRead`, the time the last
frame was read.  A frame read since it last looked clears the outstanding ping and re-arms the
timer `kp.Time` after that read.  Otherwise an outstanding ping whose time is up closes the
transport.  Otherwise, with no active stream and pings without streams not permitted, the
goroutine goes dormant on `kpDormancyCond` until a new stream wakes it, and forgets the
outstanding ping.  Otherwise it pings, unless a ping is outstanding, and sleeps for `kp.Time`, or
for the time left for the ACK when that is shorter.

The model is a machine whose events are the frames read (at the time `t.lastRead` records), the
streams added and removed, and the timer firing at exactly the time it was set for.  Times are
integers of nanoseconds, without the wrap-around of `int64`.  Its outputs are the pings queued and
the close, each at the time it happens.

* `close_after_unanswered_ping`: when the keepalive closes the transport at time `c`, it queued a
  ping at a time `s` with `s ≤ c - kp.Timeout`, and no frame was read in `(s, c]`;
* `closed_within`: when streams are active (or pings are permitted without them) from a time `r`
  on, and no frame is read after `r`, the clock never passes `r + kp.Time + max kp.Timeout 0`,
  no close comes later, and once the clock is at `r` the timer's firings close the transport
  (`fires_close`, by the measure `firings`);
* `keepalive_closes_dead_connections`: the two together;
* `negative_timeout_closes_late`: `kp.Timeout` is not checked to be positive, and with a
  negative one the transport is closed at the first ping, `kp.Time` after `r`, which is later
  than `r + kp.Time + kp.Timeout`.

Both rest on `Inv`, what every reachable state satisfies.  The first carries `PingHistory` along
the run; the second bounds `deadline`, the time at which the loop would close the transport if
no frame came, which no firing moves.
-/

namespace GrpcGo
namespace Transport
namespace ClientKeepalive

open Machine

/-- `keepalive.ClientParameters`, in nanoseconds.  `WithKeepaliveParams` raises `Time` to at
least `KeepaliveMinPingTime`, ten seconds, so it is positive; `Timeout` is taken as given. -/
structure ClientParameters where
  Time : ℤ
  Timeout : ℤ
  PermitWithoutStream : Bool
  time_pos : 0 < Time

/-- The keepalive goroutine's variables (`outstandingPing`, `timeoutLeft`, `prevNano`, and the
time its timer is set for) with the fields of `http2Client` it reads and writes: `lastRead`, the
number of active streams, `kpDormant`, and whether it has closed the transport.  `now` is the
clock. -/
structure state where
  now : ℤ
  lastRead : ℤ
  activeStreams : ℕ
  outstandingPing : Bool
  timeoutLeft : ℤ
  prevNano : ℤ
  timer : ℤ
  kpDormant : Bool
  closed : Bool

/-- What the goroutine does that the connection sees: `t.controlBuf.put(p)` and `t.Close`. -/
inductive action
  | ping (t : ℤ)
  | close (t : ℤ)
  deriving DecidableEq

/-- The events: a frame read at time `t`, a stream added or removed at time `t`, and the timer
firing. -/
inductive event
  | read (t : ℤ)
  | newStream (t : ℤ)
  | closeStream (t : ℤ)
  | fire

variable (kp : ClientParameters)

/-- The goroutine as it starts at time `t0`, over a transport whose last read was at `l0` and
which has `n0` active streams: no ping outstanding, `prevNano` the time it starts, and its timer
set `kp.Time` ahead. -/
def start (t0 l0 : ℤ) (n0 : ℕ) : state :=
  ⟨t0, l0, n0, false, 0, t0, t0 + kp.Time, false, false⟩

/-- The end of the loop body: a ping unless one is outstanding, then the sleep, `kp.Time` or the
time left for the ACK when that is shorter; `timer.Reset` of a duration that is not positive
fires at once. -/
def sendPing (s : state) : List action × state :=
  let (out, s) : List action × state :=
    if !s.outstandingPing then
      ([.ping s.now], { s with timeoutLeft := kp.Timeout, outstandingPing := true })
    else ([], s)
  let sleepDuration := min kp.Time s.timeoutLeft
  (out, { s with timeoutLeft := s.timeoutLeft - sleepDuration,
                 timer := max s.now (s.now + sleepDuration) })

/-- `case <-timer.C`, at the time the timer was set for. -/
def fired (s : state) : List action × state :=
  if s.lastRead > s.prevNano then
    -- `timer.Reset(lastRead + kp.Time - now)`
    ([], { s with outstandingPing := false, timer := max s.now (s.lastRead + kp.Time),
                  prevNano := s.lastRead })
  else if s.outstandingPing ∧ s.timeoutLeft ≤ 0 then ([.close s.now], { s with closed := true })
  else if s.activeStreams < 1 ∧ !kp.PermitWithoutStream then
    -- dormant: `kpDormancyCond.Wait()`, the outstanding ping forgotten
    ([], { s with outstandingPing := false, kpDormant := true })
  else sendPing kp s

/-- The goroutine and the transport on one event. -/
def step (s : state) : event → List action × state
  | .read t => ([], { s with now := t, lastRead := t })
  | .newStream t =>
    let s := { s with now := t, activeStreams := s.activeStreams + 1 }
    -- `kpDormancyCond.Signal()`: the woken goroutine goes on to ping
    if s.kpDormant then sendPing kp { s with kpDormant := false } else ([], s)
  | .closeStream t => ([], { s with now := t, activeStreams := s.activeStreams - 1 })
  | .fire => fired kp { s with now := s.timer }

/-- When an event may come: not after the close, never back in time, and never after the time
the timer is set for unless the goroutine is dormant; the timer fires when the goroutine is not
dormant, and a stream is removed only when there is one. -/
def Allowed (s : state) : event → Prop
  | .read t => s.closed = false ∧ s.now ≤ t ∧ (s.kpDormant = false → t ≤ s.timer)
  | .newStream t => s.closed = false ∧ s.now ≤ t ∧ (s.kpDormant = false → t ≤ s.timer)
  | .closeStream t =>
    s.closed = false ∧ s.now ≤ t ∧ (s.kpDormant = false → t ≤ s.timer) ∧ 1 ≤ s.activeStreams
  | .fire => s.closed = false ∧ s.kpDormant = false

/-! ## What every reachable state satisfies -/

/-- What holds in every state the goroutine reaches: the clock is past the last read and
`prevNano`; a running timer is set for a time between the clock and `kp.Time` after it; an
outstanding ping has time left that is not negative, and its timer plus the time left is at most
`kp.Timeout` past the clock; a dormant goroutine has no stream, no permission to ping without one
and no outstanding ping. -/
structure Inv (s : state) : Prop where
  lastRead_le : s.lastRead ≤ s.now
  prevNano_le : s.prevNano ≤ s.now
  now_le_timer : s.closed = false → s.kpDormant = false → s.now ≤ s.timer
  timer_le : s.closed = false → s.kpDormant = false → s.timer ≤ s.now + kp.Time
  timeoutLeft_nonneg : s.outstandingPing = true → 0 ≤ s.timeoutLeft
  pending_le : s.closed = false → s.kpDormant = false → s.outstandingPing = true →
    s.timer + s.timeoutLeft ≤ s.now + max kp.Timeout 0
  dormant : s.closed = false → s.kpDormant = true →
    s.activeStreams = 0 ∧ kp.PermitWithoutStream = false ∧ s.outstandingPing = false

theorem inv_start {t0 l0 : ℤ} (n0 : ℕ) (hl0 : l0 ≤ t0) : Inv kp (start kp t0 l0 n0) where
  lastRead_le := hl0
  prevNano_le := Int.le_refl t0
  now_le_timer _ _ := by simp only [start]; have := kp.time_pos; omega
  timer_le _ _ := Int.le_refl _
  timeoutLeft_nonneg h := nomatch h
  pending_le _ _ h := nomatch h
  dormant _ h := nomatch h

/-- `sendPing` with a ping outstanding: the sleep, no ping. -/
theorem sendPing_of_outstanding {s : state} (h : s.outstandingPing = true) :
    sendPing kp s = ([], { s with timeoutLeft := s.timeoutLeft - min kp.Time s.timeoutLeft,
                                  timer := max s.now (s.now + min kp.Time s.timeoutLeft) }) := by
  simp [sendPing, h]

/-- `sendPing` with no ping outstanding: the ping, its timeout, and the sleep. -/
theorem sendPing_of_not_outstanding {s : state} (h : s.outstandingPing = false) :
    sendPing kp s = ([.ping s.now], { s with outstandingPing := true,
                                             timeoutLeft := kp.Timeout - min kp.Time kp.Timeout,
                                             timer := max s.now (s.now + min kp.Time kp.Timeout) }) := by
  simp [sendPing, h]

/-- A new stream when the goroutine is not waiting for one: the count goes up. -/
theorem step_newStream_of_awake {s : state} {t : ℤ} (hd : s.kpDormant = false) :
    step kp s (.newStream t) = ([], { s with now := t, activeStreams := s.activeStreams + 1 }) := by
  simp [step, hd]

/-- A new stream wakes the dormant goroutine, which goes on to ping. -/
theorem step_newStream_of_dormant {s : state} {t : ℤ} (hd : s.kpDormant = true) :
    step kp s (.newStream t) =
      sendPing kp { s with now := t, activeStreams := s.activeStreams + 1, kpDormant := false } := by
  simp [step, hd]

/-- `sendPing` changes only the ping's variables and the timer. -/
theorem sendPing_frame (s : state) : ∃ o tl tm,
    (sendPing kp s).2 = { s with outstandingPing := o, timeoutLeft := tl, timer := tm } := by
  cases h : s.outstandingPing
  · exact ⟨_, _, _, by rw [sendPing_of_not_outstanding kp h]⟩
  · refine ⟨true, s.timeoutLeft - min kp.Time s.timeoutLeft,
      max s.now (s.now + min kp.Time s.timeoutLeft), ?_⟩
    rw [sendPing_of_outstanding kp h, ← h]

/-- `sendPing` queues pings only. -/
theorem close_not_mem_sendPing (s : state) (c : ℤ) : .close c ∉ (sendPing kp s).1 := by
  cases h : s.outstandingPing
  · simp [sendPing_of_not_outstanding kp h]
  · simp [sendPing_of_outstanding kp h]

/-- The sleep after a ping: the timer is set between the clock and `kp.Time` after it, and it
plus the time left is the clock plus the time left before the sleep, or the clock when that
time was negative. -/
theorem sleep_bounds (now tl : ℤ) :
    now ≤ max now (now + min kp.Time tl) ∧ max now (now + min kp.Time tl) ≤ now + kp.Time ∧
      0 ≤ tl - min kp.Time tl ∧
      max now (now + min kp.Time tl) + (tl - min kp.Time tl) = now + max tl 0 := by
  have := kp.time_pos
  omega

/-- `sendPing` keeps the invariant, from a state whose outstanding ping has time left between
zero and `kp.Timeout`. -/
theorem Inv.sendPing {s : state} (hread : s.lastRead ≤ s.now) (hprev : s.prevNano ≤ s.now)
    (hnd : s.kpDormant = false)
    (hleft : s.outstandingPing = true → 0 ≤ s.timeoutLeft ∧ s.timeoutLeft ≤ max kp.Timeout 0) :
    Inv kp (sendPing kp s).2 := by
  cases hout : s.outstandingPing
  · -- a new ping: its timeout, then the sleep
    obtain ⟨h₁, h₂, h₃, h₄⟩ := sleep_bounds kp s.now kp.Timeout
    rw [sendPing_of_not_outstanding kp hout]
    exact ⟨hread, hprev, fun _ _ => h₁, fun _ _ => h₂, fun _ => h₃,
      fun _ _ _ => by dsimp only; omega, fun _ h => by rw [hnd] at h; cases h⟩
  · obtain ⟨hl₀, hl₁⟩ := hleft hout
    obtain ⟨h₁, h₂, h₃, h₄⟩ := sleep_bounds kp s.now s.timeoutLeft
    rw [sendPing_of_outstanding kp hout]
    exact ⟨hread, hprev, fun _ _ => h₁, fun _ _ => h₂, fun _ => h₃,
      fun _ _ _ => by dsimp only; omega, fun _ h => by rw [hnd] at h; cases h⟩

/-- The stamps of the last read and of the last look are no later than any time from `now` on. -/
theorem Inv.stamps_le {s : state} (h : Inv kp s) {t : ℤ} (ht : s.now ≤ t) :
    s.lastRead ≤ t ∧ s.prevNano ≤ t :=
  ⟨Int.le_trans h.lastRead_le ht, Int.le_trans h.prevNano_le ht⟩

/-- An event at time `t` that changes only the clock and the streams keeps the invariant, when
it comes no later than the timer. -/
theorem Inv.advance {s : state} (h : Inv kp s) {t : ℤ} (ht : s.now ≤ t)
    (htimer : s.kpDormant = false → t ≤ s.timer) (n : ℕ)
    (hn : s.closed = false → s.kpDormant = true → n = 0) :
    Inv kp { s with now := t, activeStreams := n } where
  lastRead_le := (h.stamps_le kp ht).1
  prevNano_le := (h.stamps_le kp ht).2
  now_le_timer hc hd := htimer hd
  timer_le hc hd := Int.le_trans (h.timer_le hc hd) (by dsimp only; omega)
  timeoutLeft_nonneg := h.timeoutLeft_nonneg
  pending_le hc hd ho := Int.le_trans (h.pending_le hc hd ho) (by dsimp only; omega)
  dormant hc hd := ⟨hn hc hd, (h.dormant hc hd).2⟩

/-- **Every allowed event keeps the invariant.** -/
theorem inv_step : Invariant Allowed (step kp) (Inv kp) := by
  intro s e h he
  cases e with
  | read t =>
    obtain ⟨-, ht, htimer⟩ := he
    have h' := h.advance kp ht htimer s.activeStreams fun hc hd => (h.dormant hc hd).1
    exact { h' with lastRead_le := Int.le_refl t }
  | newStream t =>
    obtain ⟨hopen, ht, htimer⟩ := he
    cases hd : s.kpDormant
    · -- the goroutine is not waiting: only the count changes
      rw [step_newStream_of_awake kp hd]
      exact h.advance kp ht htimer _ fun _ hd' => by rw [hd] at hd'; cases hd'
    · -- the new stream wakes the goroutine, which pings
      obtain ⟨-, -, hout⟩ := h.dormant hopen hd
      obtain ⟨hread, hprev⟩ := h.stamps_le kp ht
      rw [step_newStream_of_dormant kp hd]
      refine Inv.sendPing kp hread hprev rfl ?_
      intro hout'
      rw [hout] at hout'
      cases hout'
  | closeStream t =>
    obtain ⟨-, ht, htimer, hcount⟩ := he
    exact h.advance kp ht htimer _ fun hc hd => by rw [(h.dormant hc hd).1] at hcount; cases hcount
  | fire =>
    obtain ⟨hopen, hnd⟩ := he
    have hnow := h.now_le_timer hopen hnd
    obtain ⟨hread, hprev⟩ := h.stamps_le kp hnow
    simp only [step, fired]
    split_ifs with hdetect hclose hdormant
    · -- a read since the last look: re-armed `kp.Time` after it
      have := kp.time_pos
      exact { lastRead_le := hread, prevNano_le := hread
              now_le_timer := fun _ _ => Int.le_max_left _ _
              timer_le := fun _ _ => by dsimp only; omega
              timeoutLeft_nonneg := nofun, pending_le := fun _ _ => nofun
              dormant := fun _ h => by rw [hnd] at h; cases h }
    · -- the close
      exact { lastRead_le := hread, prevNano_le := hprev, now_le_timer := nofun, timer_le := nofun
              timeoutLeft_nonneg := h.timeoutLeft_nonneg, pending_le := nofun, dormant := nofun }
    · -- dormant, with no stream and no ping outstanding
      refine { lastRead_le := hread, prevNano_le := hprev, now_le_timer := fun _ => nofun
               timer_le := fun _ => nofun, timeoutLeft_nonneg := nofun
               pending_le := fun _ => nofun, dormant := fun _ _ => ⟨?_, ?_, rfl⟩ }
      · dsimp only
        omega
      · simpa using hdormant.2
    · -- the ping, or the sleep of the outstanding one
      refine Inv.sendPing kp hread hprev hnd fun hout => ⟨h.timeoutLeft_nonneg hout, ?_⟩
      have := h.pending_le hopen hnd hout
      dsimp only
      omega

/-! ## A close follows an unanswered ping -/

/-- What the run so far says of the pings, for the history `pre` of events and the actions
`out`.  Every frame read is no later than `lastRead`, and a close has closed.  An outstanding
ping was queued no earlier than `prevNano`, with `kp.Timeout` after it no later than the timer
plus the time left, and a frame read after it is one the loop will see, after `prevNano`.
A close came `kp.Timeout` or more after a ping with no frame read in between. -/
structure PingHistory (pre : List event) (out : List action) (s : state) : Prop where
  read_le : ∀ t, .read t ∈ pre → t ≤ s.lastRead
  closed_of_close : ∀ c, .close c ∈ out → s.closed = true
  outstanding : s.closed = false → s.outstandingPing = true → ∃ p, .ping p ∈ out ∧
    s.prevNano ≤ p ∧ p + kp.Timeout ≤ s.timer + s.timeoutLeft ∧
    ∀ t, .read t ∈ pre → p < t → s.prevNano < s.lastRead
  close_after : ∀ c, .close c ∈ out → ∃ p, .ping p ∈ out ∧ p ≤ c - kp.Timeout ∧
    ∀ t, .read t ∈ pre → ¬(p < t ∧ t ≤ c)

theorem pingHistory_nil (s : state) (hout : s.outstandingPing = false) :
    PingHistory kp [] [] s where
  read_le _ := nofun
  closed_of_close _ := nofun
  outstanding _ h := by rw [hout] at h; cases h
  close_after _ := nofun

/-- A read in the history with one more event that is not a read was there before it. -/
theorem read_mem_of_snoc {pre : List event} {e : event} (he : ∀ t, e ≠ .read t) {t : ℤ}
    (ht : .read t ∈ pre ++ [e]) : .read t ∈ pre := by
  rcases List.mem_append.mp ht with ht | ht
  · exact ht
  · exact absurd (List.mem_singleton.mp ht).symm (he t)

/-- An event that is not a read adds nothing the history looks at. -/
theorem PingHistory.snoc {pre : List event} {out : List action} {s : state}
    (h : PingHistory kp pre out s) {e : event} (he : ∀ t, e ≠ .read t) :
    PingHistory kp (pre ++ [e]) out s := by
  refine ⟨fun t ht => h.read_le t (read_mem_of_snoc he ht), h.closed_of_close, ?_, ?_⟩
  · intro hc ho
    obtain ⟨p, hp, hprev, hcover, hseen⟩ := h.outstanding hc ho
    exact ⟨p, hp, hprev, hcover, fun t ht => hseen t (read_mem_of_snoc he ht)⟩
  · intro c hc
    obtain ⟨p, hp, hle, hnone⟩ := h.close_after c hc
    exact ⟨p, hp, hle, fun t ht => hnone t (read_mem_of_snoc he ht)⟩

/-- The history does not look at the clock, the streams or dormancy. -/
theorem PingHistory.setClock {pre : List event} {out : List action} {s : state}
    (h : PingHistory kp pre out s) (t : ℤ) (n : ℕ) (d : Bool) :
    PingHistory kp pre out { s with now := t, activeStreams := n, kpDormant := d } :=
  ⟨h.read_le, h.closed_of_close, h.outstanding, h.close_after⟩

/-- While the transport is open there is no close among the actions. -/
theorem PingHistory.no_close {pre : List event} {out : List action} {s : state}
    (h : PingHistory kp pre out s) (hopen : s.closed = false) (c : ℤ) : .close c ∉ out := by
  intro hc
  rw [h.closed_of_close c hc] at hopen
  cases hopen

/-- `sendPing` from an open state keeps the history: a new ping comes after every read, and the
sleep of an outstanding one, when its timer has fired, keeps the timer plus the time left. -/
theorem PingHistory.sendPing {pre : List event} {out : List action} {s : state}
    (h : PingHistory kp pre out s) (hopen : s.closed = false) (hread : s.lastRead ≤ s.now)
    (hprev : s.prevNano ≤ s.now)
    (hleft : s.outstandingPing = true → 0 ≤ s.timeoutLeft ∧ s.timer ≤ s.now) :
    PingHistory kp pre (out ++ (sendPing kp s).1) (sendPing kp s).2 := by
  cases hout : s.outstandingPing
  · -- the new ping at `s.now`: no read of the history comes after it
    obtain ⟨-, -, -, hsum⟩ := sleep_bounds kp s.now kp.Timeout
    rw [sendPing_of_not_outstanding kp hout]
    refine ⟨h.read_le, ?_, fun _ _ => ⟨s.now, by simp, hprev, by dsimp only; omega, ?_⟩, ?_⟩
    · intro c hc
      simp only [List.mem_append, List.mem_singleton, reduceCtorEq, or_false] at hc
      exact h.closed_of_close c hc
    · intro t ht hlt
      have := h.read_le t ht
      omega
    · intro c hc
      simp only [List.mem_append, List.mem_singleton, reduceCtorEq, or_false] at hc
      exact absurd hc (h.no_close kp hopen c)
  · -- the sleep: the ping stays the one outstanding
    obtain ⟨-, -, -, hsum⟩ := sleep_bounds kp s.now s.timeoutLeft
    obtain ⟨hl, hfired⟩ := hleft hout
    rw [sendPing_of_outstanding kp hout, List.append_nil]
    refine ⟨h.read_le, h.closed_of_close, fun hc _ => ?_, h.close_after⟩
    obtain ⟨p, hp, hp₁, hp₂, hseen⟩ := h.outstanding hc hout
    refine ⟨p, hp, hp₁, ?_, hseen⟩
    dsimp only
    omega

/-- **Every allowed event keeps the history.** -/
theorem pingHistory_step (pre : List event) (out : List action) (s : state) (e : event)
    (hs : Inv kp s) (he : Allowed s e) (h : PingHistory kp pre out s) :
    PingHistory kp (pre ++ [e]) (out ++ (step kp s e).1) (step kp s e).2 := by
  cases e with
  | read t =>
    -- the read is later than every other, and comes after the outstanding ping's `prevNano`
    obtain ⟨hopen, ht, -⟩ := he
    simp only [step, List.append_nil]
    refine ⟨?_, h.closed_of_close, fun hc ho => ?_, ?_⟩
    · intro t' ht'
      dsimp only
      rcases List.mem_append.mp ht' with ht' | ht'
      · have := h.read_le t' ht'
        have := hs.lastRead_le
        omega
      · cases List.mem_singleton.mp ht'
        exact Int.le_refl _
    · obtain ⟨p, hp, hp₁, hp₂, hseen⟩ := h.outstanding hc ho
      refine ⟨p, hp, hp₁, hp₂, fun t' ht' hlt => ?_⟩
      have := hs.lastRead_le
      dsimp only
      rcases List.mem_append.mp ht' with ht' | ht'
      · have := hseen t' ht' hlt
        omega
      · cases List.mem_singleton.mp ht'
        omega
    · intro c hc
      exact absurd hc (h.no_close kp hopen c)
  | newStream t =>
    obtain ⟨hopen, ht, -⟩ := he
    have h' := h.snoc kp (e := .newStream t) nofun
    cases hd : s.kpDormant
    · rw [step_newStream_of_awake kp hd, List.append_nil]
      exact h'.setClock kp t _ s.kpDormant
    · have hout := (hs.dormant hopen hd).2.2
      obtain ⟨hread, hprev⟩ := hs.stamps_le kp ht
      rw [step_newStream_of_dormant kp hd]
      exact (h'.setClock kp t _ false).sendPing kp hopen hread hprev
        fun ho => by rw [hout] at ho; cases ho
  | closeStream t =>
    simp only [step, List.append_nil]
    exact (h.snoc kp (e := .closeStream t) nofun).setClock kp t _ s.kpDormant
  | fire =>
    obtain ⟨hopen, hnd⟩ := he
    obtain ⟨hread, hprev⟩ := hs.stamps_le kp (hs.now_le_timer hopen hnd)
    have h' : PingHistory kp (pre ++ [event.fire]) out { s with now := s.timer } :=
      (h.snoc kp (e := .fire) nofun).setClock kp s.timer s.activeStreams s.kpDormant
    simp only [step, fired]
    split_ifs with hdetect hclose hdormant
    · -- the read is seen: no ping outstanding
      rw [List.append_nil]
      exact ⟨h'.read_le, h'.closed_of_close, fun _ => nofun, h'.close_after⟩
    · -- the close, `kp.Timeout` or more after the outstanding ping, with no read since
      obtain ⟨ho, htl⟩ := hclose
      obtain ⟨p, hp, -, hp₂, hseen⟩ := h.outstanding hopen ho
      refine ⟨h'.read_le, fun _ _ => rfl, nofun, fun c hc => ?_⟩
      rcases List.mem_append.mp hc with hc | hc
      · exact absurd hc (h.no_close kp hopen c)
      · cases List.mem_singleton.mp hc
        refine ⟨p, List.mem_append_left _ hp, by omega, fun t ht hlt => ?_⟩
        exact hdetect (hseen t (read_mem_of_snoc (e := .fire) nofun ht) hlt.1)
    · -- dormant: the outstanding ping is forgotten
      rw [List.append_nil]
      exact ⟨h'.read_le, h'.closed_of_close, fun _ => nofun, h'.close_after⟩
    · -- the ping at the firing, or the sleep of the outstanding one
      exact h'.sendPing kp hopen hread hprev fun ho => ⟨hs.timeoutLeft_nonneg ho, Int.le_refl _⟩

/-- **A close follows an unanswered ping.**  When the keepalive closes the transport at time `c`,
it queued a ping at a time `p` at least `kp.Timeout` before, and no frame was read in
`(p, c]`. -/
theorem close_after_unanswered_ping {t0 l0 : ℤ} (n0 : ℕ) (hl0 : l0 ≤ t0) {es : List event}
    (hadm : Admits Allowed (step kp) (start kp t0 l0 n0) es) {c : ℤ}
    (hc : .close c ∈ (run (step kp) (start kp t0 l0 n0) es).1) :
    ∃ p, .ping p ∈ (run (step kp) (start kp t0 l0 n0) es).1 ∧ p ≤ c - kp.Timeout ∧
      ∀ t, .read t ∈ es → ¬(p < t ∧ t ≤ c) := by
  have h := (inv_step kp).history (H := fun _ => True) (fun _ _ _ => trivial)
    (fun pre out s e hs he _ hp => pingHistory_step kp pre out s e hs he hp)
    (inv_start kp n0 hl0) hadm trivial (pingHistory_nil kp _ rfl)
  rw [List.nil_append, List.nil_append] at h
  exact h.close_after c hc

/-! ## A dead connection is closed in time -/

/-- The transport has an active stream, or pings are permitted without one. -/
def Active (s : state) : Prop := 1 ≤ s.activeStreams ∨ kp.PermitWithoutStream = true

/-- The environment from a time `r` on: no frame is read after `r`, and from `r` on there is an
active stream or pings are permitted without one, before each event after `r` and after each
event at or after it. -/
def QuietFrom (r : ℤ) (s : state) : event → Prop
  | .read t => t ≤ r ∧ (r ≤ t → Active kp s)
  | .newStream t => r < t → Active kp s
  | .closeStream t => r ≤ t → 2 ≤ s.activeStreams ∨ kp.PermitWithoutStream = true
  | .fire => r ≤ s.timer → Active kp s

instance (s : state) (e : event) : Decidable (Allowed s e) := by
  cases e <;> unfold Allowed <;> infer_instance

instance (r : ℤ) (s : state) (e : event) : Decidable (QuietFrom kp r s e) := by
  cases e <;> unfold QuietFrom Active <;> infer_instance

/-- The time by which, with no frame read, the loop closes the transport: `kp.Time` after the
read it has not yet seen and then `kp.Timeout`, or the timer plus the time left for the ACK of
the outstanding ping, or the timer and then `kp.Timeout` for the ping it will send. -/
def deadline (s : state) : ℤ :=
  if s.lastRead > s.prevNano then max s.timer (s.lastRead + kp.Time) + max kp.Timeout 0
  else if s.outstandingPing then s.timer + s.timeoutLeft
  else s.timer + max kp.Timeout 0

/-- The running timer is set no later than the deadline. -/
theorem timer_le_deadline {s : state} (h : Inv kp s) : s.timer ≤ deadline kp s := by
  unfold deadline
  split_ifs with hdetect hout
  · omega
  · have := h.timeoutLeft_nonneg hout
    omega
  · omega

/-- From a state no later than `r`, the deadline is at most `kp.Time + max kp.Timeout 0` after
`r`. -/
theorem deadline_le_of_now_le {s : state} (h : Inv kp s) (hopen : s.closed = false)
    (hnd : s.kpDormant = false) {r : ℤ} (hr : s.now ≤ r) :
    deadline kp s ≤ r + kp.Time + max kp.Timeout 0 := by
  have htimer := h.timer_le hopen hnd
  have hread := h.lastRead_le
  have := kp.time_pos
  unfold deadline
  split_ifs with hdetect hout
  · omega
  · have := h.pending_le hopen hnd hout
    omega
  · omega

/-- A firing that leaves the loop running keeps the deadline: a read seen re-arms the timer
for it, a ping adds its `kp.Timeout` to the time left, and a sleep moves time from what is left
to the timer. -/
theorem deadline_fire {s : state} (h : Inv kp s) (hopen : s.closed = false)
    (hnd : s.kpDormant = false) (hopen' : (step kp s .fire).2.closed = false)
    (hnd' : (step kp s .fire).2.kpDormant = false) :
    deadline kp (step kp s .fire).2 = deadline kp s := by
  revert hopen' hnd'
  simp only [step, fired]
  split_ifs with hdetect hclose hdormant
  · -- the read seen: the same deadline, now from the re-armed timer
    intro _ _
    simp [deadline, hdetect]
  · intro h'
    simp at h'
  · intro _ h'
    simp at h'
  · intro _ _
    have hnow := h.now_le_timer hopen hnd
    cases hout : s.outstandingPing
    · -- the ping: `kp.Timeout` left for its ACK
      obtain ⟨-, -, -, hsum⟩ := sleep_bounds kp s.timer kp.Timeout
      rw [sendPing_of_not_outstanding kp (s := { s with now := s.timer, outstandingPing := false }) rfl]
      simp only [deadline, hdetect, hout, ↓reduceIte, Bool.false_eq_true]
      omega
    · -- the sleep of the outstanding ping
      have hleft : 0 < s.timeoutLeft := by
        rw [hout] at hclose
        simpa using hclose
      obtain ⟨-, -, -, hsum⟩ := sleep_bounds kp s.timer s.timeoutLeft
      rw [sendPing_of_outstanding kp (s := { s with now := s.timer, outstandingPing := true }) rfl]
      simp only [deadline, hdetect, hout, ↓reduceIte]
      omega

/-- A firing sets the clock to the timer and leaves the streams and the last read as they
are. -/
theorem step_fire_frame (s : state) :
    (step kp s .fire).2.now = s.timer ∧ (step kp s .fire).2.activeStreams = s.activeStreams ∧
      (step kp s .fire).2.lastRead = s.lastRead := by
  simp only [step, fired]
  split_ifs
  · exact ⟨rfl, rfl, rfl⟩
  · exact ⟨rfl, rfl, rfl⟩
  · exact ⟨rfl, rfl, rfl⟩
  · obtain ⟨o, tl, tm, h⟩ := sendPing_frame kp { s with now := s.timer }
    rw [h]
    exact ⟨rfl, rfl, rfl⟩

/-- A close is queued at the time the step leaves the clock at. -/
theorem now_eq_of_close_mem_step {s : state} {e : event} {c : ℤ}
    (hc : .close c ∈ (step kp s e).1) : (step kp s e).2.now = c := by
  cases e with
  | read t => simp [step] at hc
  | newStream t =>
    cases hd : s.kpDormant
    · rw [step_newStream_of_awake kp hd] at hc
      simp at hc
    · rw [step_newStream_of_dormant kp hd] at hc
      exact absurd hc (close_not_mem_sendPing kp _ c)
  | closeStream t => simp [step] at hc
  | fire =>
    rw [(step_fire_frame kp s).1]
    revert hc
    simp only [step, fired]
    split_ifs
    · simp
    · simp only [List.mem_singleton, action.close.injEq]
      exact Eq.symm
    · simp
    · exact fun hc => absurd hc (close_not_mem_sendPing kp _ c)

/-- What the quiet environment keeps, for `B = r + kp.Time + max kp.Timeout 0`: the clock is no
later than `B`, and neither is the deadline of the running loop. -/
structure Quiet (r : ℤ) (s : state) : Prop where
  now_le : s.now ≤ r + kp.Time + max kp.Timeout 0
  deadline_le : s.closed = false → s.kpDormant = false →
    deadline kp s ≤ r + kp.Time + max kp.Timeout 0

theorem quiet_start {t0 l0 r : ℤ} (n0 : ℕ) (hl0 : l0 ≤ t0) (hr : t0 ≤ r) :
    Quiet kp r (start kp t0 l0 n0) where
  now_le := by
    have := kp.time_pos
    simp only [start]
    omega
  deadline_le hc hd := deadline_le_of_now_le kp (inv_start kp n0 hl0) hc hd hr

/-- An event at a time `t` no later than the timer that keeps the deadline keeps `Quiet`. -/
theorem Quiet.advance {r : ℤ} {s s' : state} (hs : Inv kp s) (hq : Quiet kp r s)
    (hopen : s.closed = false) (hnd : s.kpDormant = false) (hnow : s'.now ≤ s.timer)
    (hdl : s'.closed = false → s'.kpDormant = false → deadline kp s' = deadline kp s) :
    Quiet kp r s' where
  now_le := Int.le_trans hnow
    (Int.le_trans (timer_le_deadline kp hs) (hq.deadline_le hopen hnd))
  deadline_le hc hd := (hdl hc hd).symm ▸ hq.deadline_le hopen hnd

/-- **Every event the quiet environment allows keeps `Quiet`.** -/
theorem quiet_step (r : ℤ) :
    Invariant (fun s e => Allowed s e ∧ QuietFrom kp r s e) (step kp)
      (fun s => Inv kp s ∧ Quiet kp r s) := by
  rintro s e ⟨hs, hq⟩ ⟨he, hquiet⟩
  have hs' := inv_step kp s e hs he
  refine ⟨hs', ?_⟩
  have hB : r ≤ r + kp.Time + max kp.Timeout 0 := by
    have := kp.time_pos
    omega
  cases e with
  | read t =>
    -- no read after `r`: the deadline is bounded from the read's time
    exact ⟨Int.le_trans hquiet.1 hB, fun hc hd => deadline_le_of_now_le kp hs' hc hd hquiet.1⟩
  | newStream t =>
    obtain ⟨hopen, -, htimer⟩ := he
    cases hd : s.kpDormant
    · rw [step_newStream_of_awake kp hd]
      exact hq.advance kp hs hopen hd (htimer hd) fun _ _ => rfl
    · -- the wake-up comes no later than `r`, for the loop is not dormant after it
      obtain ⟨hcount, hpermit, -⟩ := hs.dormant hopen hd
      have htr : t ≤ r := by
        by_contra htr
        rcases hquiet (by omega) with h | h
        · omega
        · rw [hpermit] at h
          cases h
      rw [step_newStream_of_dormant kp hd] at hs' ⊢
      obtain ⟨o, tl, tm, hping⟩ := sendPing_frame kp
        { s with now := t, activeStreams := s.activeStreams + 1, kpDormant := false }
      rw [hping] at hs' ⊢
      exact ⟨Int.le_trans htr hB, fun hc hd => deadline_le_of_now_le kp hs' hc hd htr⟩
  | closeStream t =>
    obtain ⟨hopen, -, htimer, hcount⟩ := he
    have hd : s.kpDormant = false := by
      cases hd : s.kpDormant
      · rfl
      · rw [(hs.dormant hopen hd).1] at hcount
        cases hcount
    exact hq.advance kp hs hopen hd (htimer hd) fun _ _ => rfl
  | fire =>
    obtain ⟨hopen, hnd⟩ := he
    exact hq.advance kp hs hopen hnd (Int.le_of_eq (step_fire_frame kp s).1)
      (deadline_fire kp hs hopen hnd)

/-- A bound on the firings left before the close: the time from the timer to the deadline, and
one for each of the read not yet seen (two), the ping not yet sent and the close. -/
def firings (s : state) : ℕ :=
  (deadline kp s - s.timer).toNat + (if s.lastRead > s.prevNano then 2 else 0) +
    (if s.outstandingPing then 0 else 1) + (if s.closed then 0 else 1)

/-- A firing with an active stream lowers `firings`: seeing a read, sending the ping and
closing each take one of the counts off and keep the deadline, and the sleep of an outstanding
ping moves the timer a positive time towards it. -/
theorem firings_fire_lt {s : state} (h : Inv kp s) (hopen : s.closed = false)
    (hnd : s.kpDormant = false) (hact : Active kp s) :
    firings kp (step kp s .fire).2 < firings kp s := by
  simp only [step, fired]
  split_ifs with hdetect hclose hdormant
  · -- the read seen: the deadline is `max kp.Timeout 0` past the re-armed timer
    simp only [firings, deadline, hdetect, gt_iff_lt, Int.lt_irrefl, ↓reduceIte, hopen,
      Bool.false_eq_true]
    omega
  · -- the close
    simp only [firings, deadline, hdetect, hclose.1, ↓reduceIte, hopen, Bool.false_eq_true]
    omega
  · -- an active stream keeps the loop from going dormant
    exfalso
    rcases hact with h | h
    · omega
    · simp [h] at hdormant
  · have hnow := h.now_le_timer hopen hnd
    cases hout : s.outstandingPing
    · -- the ping
      obtain ⟨h₁, -, -, hsum⟩ := sleep_bounds kp s.timer kp.Timeout
      rw [sendPing_of_not_outstanding kp (s := { s with now := s.timer, outstandingPing := false }) rfl]
      simp only [firings, deadline, hout, hdetect, ↓reduceIte, hopen, Bool.false_eq_true]
      omega
    · -- the sleep of the outstanding ping: a positive time, since some is left
      have hleft : 0 < s.timeoutLeft := by
        rw [hout] at hclose
        simpa using hclose
      obtain ⟨-, -, -, hsum⟩ := sleep_bounds kp s.timer s.timeoutLeft
      have hstep : 0 < min kp.Time s.timeoutLeft := by
        have := kp.time_pos
        omega
      rw [sendPing_of_outstanding kp (s := { s with now := s.timer, outstandingPing := true }) rfl]
      simp only [firings, deadline, hout, hdetect, ↓reduceIte, hopen, Bool.false_eq_true]
      omega

/-- From a state at or after `r` with an active stream, the timer alone closes the transport:
some number of firings, each allowed by the quiet environment, ends with it closed. -/
theorem fires_close {r : ℤ} {s : state} (hs : Inv kp s) (hq : Quiet kp r s) (hr : r ≤ s.now)
    (hact : Active kp s) :
    ∃ k, Admits (fun s e => Allowed s e ∧ QuietFrom kp r s e) (step kp) s
        (List.replicate k event.fire) ∧
      (run (step kp) s (List.replicate k event.fire)).2.closed = true := by
  -- the measure is `firings`; the firings keep the invariants, the clock past `r` and the stream
  have hstep : ∀ s', (Inv kp s' ∧ Quiet kp r s' ∧ r ≤ s'.now ∧ Active kp s') →
      ¬ s'.closed = true →
      (Allowed s' .fire ∧ QuietFrom kp r s' .fire) ∧
        (Inv kp (step kp s' .fire).2 ∧ Quiet kp r (step kp s' .fire).2 ∧
          r ≤ (step kp s' .fire).2.now ∧ Active kp (step kp s' .fire).2) ∧
        firings kp (step kp s' .fire).2 < firings kp s' := by
    rintro s' ⟨hs', hq', hr', hact'⟩ hc
    have hopen : s'.closed = false := by simpa using hc
    have hnd : s'.kpDormant = false := by
      cases hd : s'.kpDormant
      · rfl
      · obtain ⟨hcount, hpermit, -⟩ := hs'.dormant hopen hd
        rcases hact' with h | h
        · omega
        · rw [hpermit] at h
          cases h
    have hallowed : Allowed s' .fire ∧ QuietFrom kp r s' .fire := ⟨⟨hopen, hnd⟩, fun _ => hact'⟩
    obtain ⟨hnow, hcount, -⟩ := step_fire_frame kp s'
    obtain ⟨hs'', hq''⟩ := quiet_step kp r s' .fire ⟨hs', hq'⟩ hallowed
    refine ⟨hallowed, ⟨hs'', hq'', ?_, ?_⟩, firings_fire_lt kp hs' hopen hnd hact'⟩
    · rw [hnow]
      exact Int.le_trans hr' (hs'.now_le_timer hopen hnd)
    · unfold Active
      rw [hcount]
      exact hact'
  obtain ⟨k, -, hadm, hclosed⟩ :=
    @Machine.reaches _ _ _ (fun s e => Allowed s e ∧ QuietFrom kp r s e) (step kp) _
      (fun s' => s'.closed = true) (firings kp) event.fire hstep (firings kp s) s ⟨hs, hq, hr, hact⟩
      (le_refl _)
  exact ⟨k, hadm, hclosed⟩

/-- **A dead connection is closed in time.**  When no frame is read after a time `r` at or after
the start, and from `r` on a stream is active or pings are permitted without one, the clock never
passes `r + kp.Time + max kp.Timeout 0` and no close comes later; and once the clock has reached
`r`, the timer's firings close the transport. -/
theorem closed_within {t0 l0 : ℤ} (n0 : ℕ) (hl0 : l0 ≤ t0) {r : ℤ} (hr : t0 ≤ r)
    {es : List event}
    (hadm : Admits (fun s e => Allowed s e ∧ QuietFrom kp r s e) (step kp) (start kp t0 l0 n0) es) :
    (run (step kp) (start kp t0 l0 n0) es).2.now ≤ r + kp.Time + max kp.Timeout 0 ∧
      (∀ c, .close c ∈ (run (step kp) (start kp t0 l0 n0) es).1 →
        c ≤ r + kp.Time + max kp.Timeout 0) ∧
      (r ≤ (run (step kp) (start kp t0 l0 n0) es).2.now →
        Active kp (run (step kp) (start kp t0 l0 n0) es).2 →
        ∃ k, Admits (fun s e => Allowed s e ∧ QuietFrom kp r s e) (step kp) (start kp t0 l0 n0)
            (es ++ List.replicate k event.fire) ∧
          (run (step kp) (start kp t0 l0 n0) (es ++ List.replicate k event.fire)).2.closed = true) := by
  have hinit : Inv kp (start kp t0 l0 n0) ∧ Quiet kp r (start kp t0 l0 n0) :=
    ⟨inv_start kp n0 hl0, quiet_start kp n0 hl0 hr⟩
  obtain ⟨hs, hq⟩ := (quiet_step kp r).run hinit hadm
  -- each close is queued at the clock of the step that queues it, which `Quiet` bounds
  have hnil : ∀ c, action.close c ∈ ([] : List action) → c ≤ r + kp.Time + max kp.Timeout 0 :=
    fun _ hc => by cases hc
  have hcloses := (quiet_step kp r).outputs
    (P := fun out _ => ∀ c, .close c ∈ out → c ≤ r + kp.Time + max kp.Timeout 0)
    (fun out s e hse he hout c hc => by
      rcases List.mem_append.mp hc with hc | hc
      · exact hout c hc
      · rw [← now_eq_of_close_mem_step kp hc]
        exact (quiet_step kp r s e hse he).2.now_le)
    hinit hadm hnil
  rw [List.nil_append] at hcloses
  refine ⟨hq.now_le, hcloses, fun hnow hact => ?_⟩
  obtain ⟨k, hfires, hclosed⟩ := fires_close kp hs hq hnow hact
  refine ⟨k, (admits_append _ es _).mpr ⟨hadm, hfires⟩, ?_⟩
  rw [run_append]
  exact hclosed

/-- With a negative `kp.Timeout`, which nothing rejects, the close comes later than
`r + kp.Time + kp.Timeout`: the first ping's timeout is already up when it is sent, and the
transport is closed at the firing that sent it, `kp.Time` after `r`. -/
theorem negative_timeout_closes_late :
    let kp : ClientParameters := ⟨10000000000, -1, false, by decide⟩
    Admits (fun s e => Allowed s e ∧ QuietFrom kp 0 s e) (step kp) (start kp 0 0 1)
        [.fire, .fire] ∧
      (run (step kp) (start kp 0 0 1) [.fire, .fire]).1 =
        [.ping 10000000000, .close 10000000000] ∧
      0 + kp.Time + kp.Timeout < 10000000000 := by
  intro kp
  exact ⟨by decide, rfl, by decide⟩

/-- **The client keepalive closes exactly the dead connections.**  A close follows a ping that
went `kp.Timeout` without a frame read; and when no frame is read after `r` with a stream
active from `r` on, the transport is closed by the firings of the timer, no later than
`r + kp.Time + max kp.Timeout 0`. -/
theorem keepalive_closes_dead_connections {t0 l0 : ℤ} (n0 : ℕ) (hl0 : l0 ≤ t0)
    (es : List event) :
    (Admits Allowed (step kp) (start kp t0 l0 n0) es →
      ∀ c, .close c ∈ (run (step kp) (start kp t0 l0 n0) es).1 →
        ∃ p, .ping p ∈ (run (step kp) (start kp t0 l0 n0) es).1 ∧ p ≤ c - kp.Timeout ∧
          ∀ t, .read t ∈ es → ¬(p < t ∧ t ≤ c)) ∧
    (∀ r, t0 ≤ r →
      Admits (fun s e => Allowed s e ∧ QuietFrom kp r s e) (step kp) (start kp t0 l0 n0) es →
      (run (step kp) (start kp t0 l0 n0) es).2.now ≤ r + kp.Time + max kp.Timeout 0 ∧
        (∀ c, .close c ∈ (run (step kp) (start kp t0 l0 n0) es).1 →
          c ≤ r + kp.Time + max kp.Timeout 0) ∧
        (r ≤ (run (step kp) (start kp t0 l0 n0) es).2.now →
          Active kp (run (step kp) (start kp t0 l0 n0) es).2 →
          ∃ k, Admits (fun s e => Allowed s e ∧ QuietFrom kp r s e) (step kp) (start kp t0 l0 n0)
              (es ++ List.replicate k .fire) ∧
            (run (step kp) (start kp t0 l0 n0) (es ++ List.replicate k .fire)).2.closed = true)) :=
  ⟨fun hadm _ hc => close_after_unanswered_ping kp n0 hl0 hadm hc,
    fun _ hr hadm => closed_within kp n0 hl0 hr hadm⟩

/-- Ten seconds between pings and twenty for the ACK, from time zero with one stream: the loop
pings at ten seconds, sleeps twice and closes at thirty, `kp.Time + kp.Timeout` after the
start. -/
theorem keepalive_closes_dead_connections_unanswered :
    let kp : ClientParameters := ⟨10000000000, 20000000000, false, by decide⟩
    (0 : ℤ) ≤ 0 ∧
      Admits (fun s e => Allowed s e ∧ QuietFrom kp 0 s e) (step kp) (start kp 0 0 1)
        [.fire, .fire, .fire] ∧
      (run (step kp) (start kp 0 0 1) [.fire, .fire, .fire]).1 =
        [.ping 10000000000, .close 30000000000] ∧
      ((Admits Allowed (step kp) (start kp 0 0 1) [.fire, .fire, .fire] →
        ∀ c, .close c ∈ (run (step kp) (start kp 0 0 1) [.fire, .fire, .fire]).1 →
          ∃ p, .ping p ∈ (run (step kp) (start kp 0 0 1) [.fire, .fire, .fire]).1 ∧
            p ≤ c - kp.Timeout ∧ ∀ t, .read t ∈ [event.fire, .fire, .fire] → ¬(p < t ∧ t ≤ c)) ∧
      (∀ r, 0 ≤ r →
        Admits (fun s e => Allowed s e ∧ QuietFrom kp r s e) (step kp) (start kp 0 0 1)
          [.fire, .fire, .fire] →
        (run (step kp) (start kp 0 0 1) [.fire, .fire, .fire]).2.now ≤
            r + kp.Time + max kp.Timeout 0 ∧
          (∀ c, .close c ∈ (run (step kp) (start kp 0 0 1) [.fire, .fire, .fire]).1 →
            c ≤ r + kp.Time + max kp.Timeout 0) ∧
          (r ≤ (run (step kp) (start kp 0 0 1) [.fire, .fire, .fire]).2.now →
            Active kp (run (step kp) (start kp 0 0 1) [.fire, .fire, .fire]).2 →
            ∃ k, Admits (fun s e => Allowed s e ∧ QuietFrom kp r s e) (step kp) (start kp 0 0 1)
                ([.fire, .fire, .fire] ++ List.replicate k .fire) ∧
              (run (step kp) (start kp 0 0 1)
                ([.fire, .fire, .fire] ++ List.replicate k .fire)).2.closed = true))) := by
  intro kp
  exact ⟨Int.le_refl 0, by decide, rfl, keepalive_closes_dead_connections kp 1 (Int.le_refl 0) _⟩

end ClientKeepalive
end Transport
end GrpcGo
