import GrpcGo.Lib.Machine

/-!
# Server keepalive enforcement (`internal/transport/http2_server.go`)

The server counts the client's pings that break its keepalive enforcement policy.  `handlePing`
answers every non-ACK ping with an ACK; then, unless a reset is pending, it counts the ping as a
strike when it came sooner after the previous ping than the policy's minimum: `kep.MinTime` while
streams are active or the policy permits pings without streams, `defaultPingTimeout` (two hours)
otherwise.  When the count passes `maxPingStrikes` it queues a `too_many_pings` GOAWAY that closes
the connection.  Sending data or headers sets the flag `resetPingStrikes`; the next ping consumes
it, zeroes the count and is not checked.  Every ping, checked or not, becomes the previous one.

The model is a machine whose events are the pings (`handlePing` at the time `time.Now()` reads),
the resets (`setResetPingStrikes`), and the changes of the number of active streams; its outputs
are the items `handlePing` puts on the control buffer.  Times are integers of nanoseconds, with
the zero `time.Time` that `lastPingAt` starts at as `0`.  The ACK branch (the GOAWAY ping of a
graceful close, and BDP estimation) touches nothing the policy counts and is left out.

What the policy asks for is `Policy`: the same count as a natural number, with the gap to the
previous ping compared to the minimum that applies.  The server's counter is a `uint8`:
* `handlePing_counts_mod`: over every sequence of events, the server queues what the policy's
  count asks for when that count is read modulo 256, and its counter is the count modulo 256;
* `pingStrikes_wrap`: 257 pings in quick succession are 256 strikes, yet the counter reads `0`
  and the last ping queues no GOAWAY.
-/

namespace GrpcGo
namespace Transport
namespace Keepalive

open Machine

/-- `keepalive.EnforcementPolicy`, with `MinTime` in nanoseconds. -/
structure EnforcementPolicy where
  MinTime : ℤ
  PermitWithoutStream : Bool
  deriving DecidableEq, Repr

/-- `maxPingStrikes`. -/
def maxPingStrikes : UInt8 := 2

/-- `defaultPingTimeout`, `2 * time.Hour`. -/
def defaultPingTimeout : ℤ := 2 * 3600 * 1000000000

/-- `http2.ErrCodeEnhanceYourCalm`. -/
def ErrCodeEnhanceYourCalm : UInt32 := 0xb

/-- An `http2.PingFrame`: whether it is an ACK, and its eight bytes of data. -/
structure PingFrame where
  ack : Bool
  data : UInt64
  deriving DecidableEq, Repr

/-- The items `handlePing` puts on the control buffer. -/
inductive controlItem
  | ping (ack : Bool) (data : UInt64)
  | goAway (code : UInt32) (debugData : String) (closeConn : Bool)
  deriving DecidableEq, Repr

/-- The fields of `http2Server` that keepalive enforcement reads and writes;
`activeStreams` is `len(t.activeStreams)`. -/
structure http2Server where
  kep : EnforcementPolicy
  lastPingAt : ℤ
  pingStrikes : UInt8
  resetPingStrikes : UInt32
  activeStreams : ℕ
  deriving DecidableEq, Repr

/-- A new server transport: no ping yet (`lastPingAt` is the zero time), no strike, no reset. -/
def newHTTP2Server (kep : EnforcementPolicy) : http2Server := ⟨kep, 0, 0, 0, 0⟩

/-- The minimum gap between pings that the policy asks for, given the number of active streams. -/
def minPingGap (kep : EnforcementPolicy) (ns : ℕ) : ℤ :=
  if ns < 1 ∧ ¬ kep.PermitWithoutStream then defaultPingTimeout else kep.MinTime

namespace http2Server

/-- `handlePing` on a ping read at time `now`. -/
def handlePing (t : http2Server) (f : PingFrame) (now : ℤ) : List controlItem × http2Server :=
  if f.ack then ([], t)
  else
    let pingAck := controlItem.ping true f.data
    -- `atomic.CompareAndSwapUint32(&t.resetPingStrikes, 1, 0)`; the deferred
    -- `t.lastPingAt = now` runs on both returns
    if t.resetPingStrikes = 1 then
      ([pingAck], { t with resetPingStrikes := 0, pingStrikes := 0, lastPingAt := now })
    else
      let ns := t.activeStreams
      let pingStrikes :=
        if ns < 1 ∧ ¬ t.kep.PermitWithoutStream then
          if t.lastPingAt + defaultPingTimeout > now then t.pingStrikes + 1 else t.pingStrikes
        else
          if t.lastPingAt + t.kep.MinTime > now then t.pingStrikes + 1 else t.pingStrikes
      let goAway :=
        if pingStrikes > maxPingStrikes then
          [controlItem.goAway ErrCodeEnhanceYourCalm "too_many_pings" true]
        else []
      (pingAck :: goAway, { t with pingStrikes := pingStrikes, lastPingAt := now })

/-- `setResetPingStrikes`: `atomic.StoreUint32(&t.resetPingStrikes, 1)`. -/
def setResetPingStrikes (t : http2Server) : http2Server := { t with resetPingStrikes := 1 }

end http2Server

/-- What keepalive enforcement reacts to. -/
inductive event
  /-- A ping frame, read at time `now`. -/
  | ping (f : PingFrame) (now : ℤ)
  /-- Data or headers were sent. -/
  | resetPingStrikes
  /-- A stream was added or deleted: `ns` streams are active. -/
  | streams (ns : ℕ)
  deriving DecidableEq, Repr

/-- The server on one event. -/
def step (t : http2Server) : event → List controlItem × http2Server
  | .ping f now => t.handlePing f now
  | .resetPingStrikes => ([], t.setResetPingStrikes)
  | .streams ns => ([], { t with activeStreams := ns })

/-! ## What the policy counts -/

/-- The policy's view of the connection: when the previous ping came, how many strikes there are
since the count was last reset (a natural number), whether a reset is pending, and how many
streams are active. -/
structure Policy where
  prev : ℤ
  count : ℕ
  resetPending : Bool
  streams : ℕ
  deriving DecidableEq, Repr

/-- No ping yet, no strike, no reset pending. -/
def Policy.init : Policy := ⟨0, 0, false, 0⟩

/-- The policy on one event; a ping writes its data and the count after it.  A ping is a strike
when its gap to the previous ping is shorter than the minimum that applies; the first ping after
a reset restarts the count and is not checked. -/
def Policy.step (kep : EnforcementPolicy) (p : Policy) : event → List (UInt64 × ℕ) × Policy
  | .ping f now =>
    if f.ack then ([], p)
    else if p.resetPending then ([(f.data, 0)], { p with prev := now, count := 0, resetPending := false })
    else
      let count := if now - p.prev < minPingGap kep p.streams then p.count + 1 else p.count
      ([(f.data, count)], { p with prev := now, count := count })
  | .resetPingStrikes => ([], { p with resetPending := true })
  | .streams ns => ([], { p with streams := ns })

/-- What the server queues for a ping whose count, as a `uint8`, is `c % 256`: the ACK, and a
GOAWAY when that passes `maxPingStrikes`. -/
def reply (x : UInt64 × ℕ) : List controlItem :=
  controlItem.ping true x.1 ::
    if 2 < x.2 % 256 then [controlItem.goAway ErrCodeEnhanceYourCalm "too_many_pings" true] else []

/-- The server's fields against the policy's: the same policy, times, reset flag and streams,
and the counter holding the count modulo 256. -/
structure Tracks (kep : EnforcementPolicy) (t : http2Server) (p : Policy) : Prop where
  kep_eq : t.kep = kep
  lastPingAt_eq : t.lastPingAt = p.prev
  pingStrikes_eq : t.pingStrikes.toNat = p.count % 256
  reset_eq : t.resetPingStrikes = if p.resetPending then 1 else 0
  streams_eq : t.activeStreams = p.streams

theorem tracks_new (kep : EnforcementPolicy) : Tracks kep (newHTTP2Server kep) Policy.init :=
  ⟨rfl, rfl, rfl, rfl, rfl⟩

/-- The server's comparison of `lastPingAt + d` with `now` is the policy's comparison of the gap
with `d`. -/
theorem add_gt_iff_sub_lt (prev d now : ℤ) : prev + d > now ↔ now - prev < d := by
  omega

/-- The strike as the server counts it, on a `uint8`: the count after it, modulo 256. -/
theorem toNat_strike (ps : UInt8) (count : ℕ) (hps : ps.toNat = count % 256) (strike : Prop)
    [Decidable strike] :
    (if strike then ps + 1 else ps).toNat = (if strike then count + 1 else count) % 256 := by
  split_ifs
  · rw [UInt8.toNat_add, hps]
    simp only [UInt8.reduceToNat]
    omega
  · exact hps

/-- **A checked ping, one step.**  With no reset pending, the server counts the ping exactly when
the policy does, modulo 256, and queues what `reply` gives for the new count. -/
theorem handlePing_checked {kep : EnforcementPolicy} {t : http2Server} {p : Policy}
    (h : Tracks kep t p) (f : PingFrame) (hf : f.ack = false) (hreset : p.resetPending = false)
    (now : ℤ) :
    (t.handlePing f now).1 = ((Policy.step kep p (.ping f now)).1).flatMap reply ∧
      Tracks kep (t.handlePing f now).2 (Policy.step kep p (.ping f now)).2 := by
  have ht : t.resetPingStrikes ≠ 1 := by simp [h.reset_eq, hreset]
  -- the server's two comparisons are the policy's one, at the minimum that applies
  have hstrike : (if t.activeStreams < 1 ∧ ¬ t.kep.PermitWithoutStream then
        (if t.lastPingAt + defaultPingTimeout > now then t.pingStrikes + 1 else t.pingStrikes)
      else (if t.lastPingAt + t.kep.MinTime > now then t.pingStrikes + 1 else t.pingStrikes)) =
      if now - p.prev < minPingGap kep p.streams then t.pingStrikes + 1 else t.pingStrikes := by
    rw [h.kep_eq, h.streams_eq, h.lastPingAt_eq, minPingGap]
    split_ifs <;> simp_all [add_gt_iff_sub_lt]
  have hnat := toNat_strike t.pingStrikes p.count h.pingStrikes_eq
    (now - p.prev < minPingGap kep p.streams)
  simp only [http2Server.handlePing, hf, ht, Policy.step, hreset, Bool.false_eq_true, if_false,
    hstrike]
  refine ⟨?_, ⟨h.kep_eq, rfl, hnat, by simpa [hreset] using h.reset_eq, h.streams_eq⟩⟩
  -- the GOAWAY: `maxPingStrikes < pingStrikes` on the `uint8`
  simp only [List.flatMap_cons, List.flatMap_nil, List.append_nil, reply, maxPingStrikes,
    gt_iff_lt, UInt8.lt_iff_toNat_lt, hnat, UInt8.reduceToNat]

/-- **Each event, one step**: the server writes what the policy's counts give through `reply`,
and keeps tracking it. -/
theorem step_tracks {kep : EnforcementPolicy} {t : http2Server} {p : Policy} (h : Tracks kep t p)
    (e : event) :
    (step t e).1 = ((Policy.step kep p e).1).flatMap reply ∧
      Tracks kep (step t e).2 (Policy.step kep p e).2 := by
  cases e with
  | ping f now =>
    cases hf : f.ack
    · cases hreset : p.resetPending
      · exact handlePing_checked h f hf hreset now
      · -- the ping consumes the reset: the count restarts at zero, unchecked
        have ht : t.resetPingStrikes = 1 := by simp [h.reset_eq, hreset]
        simp only [step, http2Server.handlePing, hf, ht, Policy.step, hreset, Bool.false_eq_true,
          if_false, if_true]
        exact ⟨rfl, h.kep_eq, rfl, rfl, rfl, h.streams_eq⟩
    · simp only [step, http2Server.handlePing, hf, Policy.step, if_true]
      exact ⟨rfl, h⟩
  | resetPingStrikes =>
    exact ⟨rfl, h.kep_eq, h.lastPingAt_eq, h.pingStrikes_eq, rfl, h.streams_eq⟩
  | streams ns =>
    exact ⟨rfl, h.kep_eq, h.lastPingAt_eq, h.pingStrikes_eq, h.reset_eq, rfl⟩

/-- **Every run, tracked.**  A new server transport and the policy, on the same events, stay
related: the server writes what the policy's counts give through `reply`. -/
theorem run_tracks (kep : EnforcementPolicy) (es : List event) :
    (run step (newHTTP2Server kep) es).1 =
        (run (Policy.step kep) Policy.init es).1.flatMap reply ∧
      Tracks kep (run step (newHTTP2Server kep) es).2 (run (Policy.step kep) Policy.init es).2 := by
  have hstep : ∀ (t : http2Server) (p : Policy) (e : event), Tracks kep t p → True →
      (step t e).1 = ((Policy.step kep p e).1).flatMap reply ∧
        Tracks kep (step t e).2 (Policy.step kep p e).2 :=
    fun _ _ e h _ => step_tracks h e
  exact run_related_flatMap reply hstep (tracks_new kep) (admits_of_forall (fun _ _ => trivial) _ es)

/-- **The server counts what the policy counts, modulo 256.**  Over every sequence of pings,
resets and changes of the number of active streams on a new server transport, the server queues,
for each non-ACK ping, the ACK and, when the policy's count of strikes at that ping is above
`maxPingStrikes` once read modulo 256, a `too_many_pings` GOAWAY; its `pingStrikes` is the
policy's count modulo 256. -/
theorem handlePing_counts_mod (kep : EnforcementPolicy) (es : List event) :
    (run step (newHTTP2Server kep) es).1 =
        (run (Policy.step kep) Policy.init es).1.flatMap reply ∧
      (run step (newHTTP2Server kep) es).2.pingStrikes.toNat =
        (run (Policy.step kep) Policy.init es).2.count % 256 := by
  obtain ⟨hout, htracks⟩ := run_tracks kep es
  exact ⟨hout, htracks.pingStrikes_eq⟩

/-! ## A ping flood -/

/-- `n` pings, the first at time `T` and each `g` after the one before. -/
def pingFlood (T g : ℤ) (n : ℕ) : List event :=
  (List.range n).map fun i => .ping ⟨false, 0⟩ (T + g * i)

theorem pingFlood_succ (T g : ℤ) (n : ℕ) :
    pingFlood T g (n + 1) = pingFlood T g n ++ [.ping ⟨false, 0⟩ (T + g * n)] := by
  simp [pingFlood, List.range_succ]

/-- Four pings a second apart under a policy of five minutes: the fourth is the third strike,
and the server queues the GOAWAY with its ACK. -/
theorem handlePing_counts_mod_fourth_ping :
    (run step (newHTTP2Server ⟨300000000000, true⟩) (pingFlood 300000000000 1000000000 4)).1 =
      [.ping true 0, .ping true 0, .ping true 0, .ping true 0,
        .goAway ErrCodeEnhanceYourCalm "too_many_pings" true] := by
  rw [(handlePing_counts_mod _ _).1]
  decide

/-- **A flood counts one strike a ping.**  When no stream is active, the first ping of a flood
comes no sooner than the minimum after the zero time, and each later one sooner than the minimum
after the one before: the policy counts every ping after the first as a strike. -/
theorem run_pingFlood (kep : EnforcementPolicy) {T g : ℤ} (hT : minPingGap kep 0 ≤ T)
    (hg : g < minPingGap kep 0) (n : ℕ) :
    run (Policy.step kep) Policy.init (pingFlood T g (n + 1)) =
      ((List.range (n + 1)).map fun i => ((0 : UInt64), i), ⟨T + g * n, n, false, 0⟩) := by
  induction n with
  | zero =>
    simp [pingFlood, run, Policy.step, Policy.init, hT]
  | succ n ih =>
    -- the last ping comes `g` after the one before
    have hgap : g * ((n : ℤ) + 1) - g * n < minPingGap kep 0 := by
      rw [mul_add, mul_one]
      omega
    rw [pingFlood_succ, run_append, ih, List.range_succ (n := n + 1), List.map_append]
    simp [run, Policy.step, hgap]

/-- **The `uint8` counter wraps.**  Under a policy of five minutes that permits pings without
streams, 257 pings a second apart are 256 strikes: the counter reads `0`, and the last ping is
answered with its ACK alone. -/
theorem pingStrikes_wrap :
    (run (Policy.step ⟨300000000000, true⟩) Policy.init
        (pingFlood 300000000000 1000000000 257)).2.count = 256 ∧
      (run step (newHTTP2Server ⟨300000000000, true⟩)
        (pingFlood 300000000000 1000000000 257)).2.pingStrikes = 0 ∧
      (run step (newHTTP2Server ⟨300000000000, true⟩)
        (pingFlood 300000000000 1000000000 257)).1.getLast? = some (.ping true 0) := by
  -- 257 pings: the first, and 256 strikes
  rw [show (257 : ℕ) = 256 + 1 from rfl]
  have hpol := run_pingFlood ⟨300000000000, true⟩ (T := 300000000000) (g := 1000000000)
    (by simp [minPingGap]) (by simp [minPingGap]) 256
  obtain ⟨hout, htracks⟩ := run_tracks ⟨300000000000, true⟩
    (pingFlood 300000000000 1000000000 (256 + 1))
  have hcount := htracks.pingStrikes_eq
  rw [hpol] at hout hcount
  refine ⟨by rw [hpol], UInt8.toNat_inj.mp hcount, ?_⟩
  -- the last ping's count is 256, which is 0 on the `uint8`
  rw [hout, List.range_succ, List.map_append, List.flatMap_append]
  simp [reply]

end Keepalive
end Transport
end GrpcGo
