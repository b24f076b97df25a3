import GrpcGo.Transport.FlowControl
import GrpcGo.Transport.Loopy

/-!
# The connection's inbound window and the BDP estimator (`internal/transport/flowcontrol.go`, `bdp_estimator.go`)

A connection whose window is dynamic counts the bytes of each DATA frame in `trInFlow` and
returns them to the peer in a window update of stream `0` once they reach a quarter of its
limit, whatever the application has read.  The same frames feed the BDP estimator: the first
frame of a measurement cycle sends the BDP ping (with a window update of what is still unacked),
and the ping's ack compares the bytes received in the cycle with the estimate.  When the sample
is large enough and the bandwidth the largest seen, the estimate becomes twice the sample, at
most `bdpLimit`, and `updateFlowControl` raises the connection's limit to it (`newLimit`, whose
difference is the window update) and announces it as the streams' initial window.

`conn` is this receive path of `http2Client` (`handleData`, and `handlePing` for the BDP ping's
ack) beside `peerWindow`, the window the peer holds: what it may still send on the connection.
A DATA frame lowers it and each window update raises it.  `Allowed` is what the peer does: it
sends within its window, and a measurement cycle carries fewer than `2 ^ 31` bytes.

Go's `float64` is taken as `ℚ`: `alpha` and `beta` are the decimals the source writes.  The time
a ping takes is the ack's `rttSample`.

* `Inv`: the connection's limit is the estimate, between `defaultWindowSize` and `bdpLimit`;
  the peer's window is exactly the limit less the unacked bytes, which are zero or under a
  quarter of the limit.
* `conn_window_exact`: on every run, the peer's window is the limit less the unacked bytes, and
  at least three quarters of the limit.
* `bdp_windows_increase`: on every run, the windows `updateFlowControl` is called with rise
  strictly from `defaultWindowSize`, and none passes `bdpLimit`; so `newLimit` never lowers the
  limit, which its `uint32` difference would wrap.
-/

namespace GrpcGo
namespace Transport
namespace ConnWindow

open GoStd Machine

/-! ## `trInFlow` -/

/-- `trInFlow`: the connection's inbound window. -/
structure trInFlow where
  limit : UInt32
  unacked : UInt32
  effectiveWindowSize : UInt32
  deriving DecidableEq, Repr

namespace trInFlow

/-- `f.updateEffectiveWindowSize()`. -/
def updateEffectiveWindowSize (f : trInFlow) : trInFlow :=
  { f with effectiveWindowSize := f.limit - f.unacked }

/-- `f.newLimit(n)`: the increment, and the window with the new limit. -/
def newLimit (f : trInFlow) (n : UInt32) : UInt32 × trInFlow :=
  let d := n - f.limit
  (d, { f with limit := n }.updateEffectiveWindowSize)

/-- `f.onData(n)`: the window update to send (`0` for none). -/
def onData (f : trInFlow) (n : UInt32) : UInt32 × trInFlow :=
  let f := { f with unacked := f.unacked + n }
  if f.unacked ≥ f.limit / 4 then (f.unacked, { f with unacked := 0 }.updateEffectiveWindowSize)
  else (0, f.updateEffectiveWindowSize)

/-- `f.reset()`: everything unacked, as a window update. -/
def reset (f : trInFlow) : UInt32 × trInFlow :=
  (f.unacked, { f with unacked := 0 }.updateEffectiveWindowSize)

variable (f : trInFlow)

/-- What `onData` does, read as integers while the sum does not wrap: it acks everything once a
quarter of the limit is unacked. -/
theorem onData_spec (n : UInt32) (hsum : f.unacked.toNat + n.toNat < 2 ^ 32) :
    (f.onData n).2.limit = f.limit ∧
      ((f.limit.toNat / 4 ≤ f.unacked.toNat + n.toNat ∧
          (f.onData n).1.toNat = f.unacked.toNat + n.toNat ∧ (f.onData n).2.unacked = 0) ∨
        (f.unacked.toNat + n.toNat < f.limit.toNat / 4 ∧ (f.onData n).1 = 0 ∧
          (f.onData n).2.unacked.toNat = f.unacked.toNat + n.toNat)) := by
  have hadd : (f.unacked + n).toNat = f.unacked.toNat + n.toNat := by
    rw [UInt32.toNat_add, Nat.mod_eq_of_lt hsum]
  unfold onData
  dsimp only
  split_ifs with hge
  · rw [ge_iff_le, UInt32.le_iff_toNat_le, UInt32.toNat_div, hadd] at hge
    exact ⟨rfl, .inl ⟨by simpa using hge, hadd, rfl⟩⟩
  · rw [ge_iff_le, UInt32.le_iff_toNat_le, UInt32.toNat_div, hadd] at hge
    exact ⟨rfl, .inr ⟨by simpa using Nat.lt_of_not_le hge, rfl, hadd⟩⟩

@[simp] theorem reset_fst : f.reset.1 = f.unacked := rfl
@[simp] theorem reset_limit : f.reset.2.limit = f.limit := rfl
@[simp] theorem reset_unacked : f.reset.2.unacked = 0 := rfl

/-- `newLimit` to a larger limit returns the exact difference. -/
theorem newLimit_spec {n : UInt32} (h : f.limit ≤ n) :
    (f.newLimit n).1.toNat = n.toNat - f.limit.toNat ∧ (f.newLimit n).2.limit = n ∧
      (f.newLimit n).2.unacked = f.unacked :=
  ⟨UInt32.toNat_sub_of_le _ _ h, rfl, rfl⟩

end trInFlow

/-! ## The BDP estimator -/

/-- `alpha`. -/
def alpha : ℚ := 9 / 10

/-- `beta`. -/
def beta : ℚ := 66 / 100

/-- `gamma`. -/
def gamma : ℚ := 2

/-- The fields of `bdpEstimator` but `sentAt`, whose use is the ack's `rttSample`. -/
structure bdpEstimator where
  bdp : UInt32
  sample : UInt32
  bwMax : ℚ
  isSent : Bool
  sampleCount : UInt64
  rtt : ℚ
  deriving DecidableEq

namespace bdpEstimator

/-- `b.add(n)`: whether the BDP ping must be sent, which starts a measurement cycle. -/
def add (b : bdpEstimator) (n : UInt32) : Bool × bdpEstimator :=
  if b.bdp = bdpLimit then (false, b)
  else if !b.isSent then
    (true, { b with isSent := true, sample := n, sampleCount := b.sampleCount + 1 })
  else (false, { b with sample := b.sample + n })

/-- `b.calculate(d)` for the ack of the BDP ping, `rttSample` seconds after the ping: the new
estimate when it rises, which `updateFlowControl` is then called with. -/
def calculate (b : bdpEstimator) (rttSample : ℚ) : Option UInt32 × bdpEstimator :=
  let rtt := if b.sampleCount < 10 then b.rtt + (rttSample - b.rtt) / (b.sampleCount.toNat : ℚ)
    else b.rtt + (rttSample - b.rtt) * alpha
  let bwCurrent := (b.sample.toNat : ℚ) / (rtt * (3 / 2))
  let bwMax := if bwCurrent > b.bwMax then bwCurrent else b.bwMax
  let b := { b with rtt, isSent := false, bwMax }
  if (b.sample.toNat : ℚ) ≥ beta * b.bdp.toNat ∧ bwCurrent = bwMax ∧ b.bdp ≠ bdpLimit then
    let bdp := UInt32.ofNat ⌊gamma * b.sample.toNat⌋.toNat
    let bdp := if bdp > bdpLimit then bdpLimit else bdp
    (some bdp, { b with bdp })
  else (none, b)

variable (b : bdpEstimator)

@[simp] theorem add_bdp (n : UInt32) : (b.add n).2.bdp = b.bdp := by
  unfold add
  split_ifs <;> rfl

/-- A frame starts a cycle's sample or adds to it. -/
theorem add_sample (n : UInt32) :
    (b.add n).2.sample = b.sample ∨
      (b.add n).2.sample = n ∨ (b.isSent = true ∧ (b.add n).2.sample = b.sample + n) := by
  unfold add
  split_ifs with hlim hsent
  · exact .inl rfl
  · exact .inr (.inl rfl)
  · exact .inr (.inr ⟨by simpa using hsent, rfl⟩)

@[simp] theorem calculate_sample (r : ℚ) : (b.calculate r).2.sample = b.sample := by
  unfold calculate
  dsimp only
  split_ifs <;> rfl

/-- Twice a sample below `2 ^ 31` is what the conversion to `uint32` gives. -/
theorem doubled_sample {s : UInt32} (hs : s.toNat < 2 ^ 31) :
    (UInt32.ofNat ⌊gamma * s.toNat⌋.toNat).toNat = 2 * s.toNat := by
  have hfloor : ⌊gamma * (s.toNat : ℚ)⌋.toNat = 2 * s.toNat := by
    rw [gamma, show (2 : ℚ) * s.toNat = ((2 * s.toNat : ℕ) : ℚ) by push_cast; ring,
      Int.floor_natCast, Int.toNat_natCast]
  rw [hfloor, UInt32.toNat_ofNat', Nat.mod_eq_of_lt (by omega)]

/-- An estimate below the limit rises to the limit. -/
theorem lt_bdpLimit (hne : b.bdp ≠ bdpLimit) (hle : b.bdp.toNat ≤ bdpLimit.toNat) :
    b.bdp.toNat < bdpLimit.toNat := by
  have : b.bdp.toNat ≠ bdpLimit.toNat := fun h => hne (UInt32.toNat_inj.mp h)
  omega

/-- Twice a sample that is at least `beta` of a positive estimate is above it. -/
theorem lt_doubled_sample (hpos : 0 < b.bdp.toNat) (hs : b.sample.toNat < 2 ^ 31)
    (hge : (b.sample.toNat : ℚ) ≥ beta * b.bdp.toNat)
    (hcap : ¬UInt32.ofNat ⌊gamma * b.sample.toNat⌋.toNat > bdpLimit) :
    b.bdp.toNat < (UInt32.ofNat ⌊gamma * b.sample.toNat⌋.toNat).toNat ∧
      (UInt32.ofNat ⌊gamma * b.sample.toNat⌋.toNat).toNat ≤ bdpLimit.toNat := by
  have hge' : (66 : ℚ) * b.bdp.toNat ≤ 100 * b.sample.toNat := by
    rw [beta] at hge
    linarith
  have hnat : 66 * b.bdp.toNat ≤ 100 * b.sample.toNat := by exact_mod_cast hge'
  have hcap' := UInt32.le_iff_toNat_le.mp (UInt32.not_lt.mp hcap)
  rw [doubled_sample hs] at hcap' ⊢
  omega

/-- **A new estimate rises above the old one and stays within `bdpLimit`**: the sample is at
least `beta` of the estimate, and twice that is more. -/
theorem calculate_rises (r : ℚ) (hpos : 0 < b.bdp.toNat) (hle : b.bdp.toNat ≤ bdpLimit.toNat)
    (hs : b.sample.toNat < 2 ^ 31) :
    ((b.calculate r).1 = none ∧ (b.calculate r).2.bdp = b.bdp) ∨
      ∃ n, (b.calculate r).1 = some n ∧ (b.calculate r).2.bdp = n ∧
        b.bdp.toNat < n.toNat ∧ n.toNat ≤ bdpLimit.toNat := by
  unfold calculate
  dsimp only
  -- the rtt average and the bandwidth maximum split the cases too, but in each the estimate
  -- stays, becomes the limit, or becomes twice the sample
  split_ifs <;> first
    | exact .inl ⟨rfl, rfl⟩
    | exact .inr ⟨_, rfl, rfl, lt_bdpLimit b (by tauto) hle, le_rfl⟩
    | exact .inr ⟨_, rfl, rfl, lt_doubled_sample b hpos hs (by tauto) (by assumption)⟩

end bdpEstimator

/-! ## The connection's receive path -/

/-- What the receive path writes: a window update of the connection (stream `0`), the BDP ping,
or the settings frame with the streams' new initial window. -/
inductive connItem
  | windowUpdate (increment : UInt32)
  | bdpPing
  | initialWindowSize (n : UInt32)
  deriving DecidableEq, Repr

/-- The fields of `http2Client` the receive path uses, and the peer's connection window. -/
structure conn where
  bdpEst : bdpEstimator
  fc : trInFlow
  peerWindow : ℤ
  deriving DecidableEq

/-- What the peer receives or sends on the connection. -/
inductive connEvent
  | data (size : UInt32)
  | pingAck (rttSample : ℚ)

/-- A window update `w`, unless it is zero. -/
def windowUpdateOf (w : UInt32) : List connItem :=
  if w > 0 then [.windowUpdate w] else []

/-- The connection-level part of `t.handleData(f)` for a frame of `size` bytes. -/
def handleData (t : conn) (size : UInt32) : List connItem × conn :=
  let (sendBDPPing, bdpEst) := t.bdpEst.add size
  let (w, fc) := t.fc.onData size
  if sendBDPPing then
    let (w', fc) := fc.reset
    (windowUpdateOf w ++ windowUpdateOf w' ++ [.bdpPing], { t with bdpEst, fc })
  else (windowUpdateOf w, { t with bdpEst, fc })

/-- `handleData` with its pairs taken apart. -/
theorem handleData_eq (t : conn) (size : UInt32) :
    handleData t size =
      if (t.bdpEst.add size).1 then
        (windowUpdateOf (t.fc.onData size).1 ++ windowUpdateOf (t.fc.onData size).2.reset.1 ++
            [connItem.bdpPing],
          { t with bdpEst := (t.bdpEst.add size).2, fc := (t.fc.onData size).2.reset.2 })
      else (windowUpdateOf (t.fc.onData size).1,
          { t with bdpEst := (t.bdpEst.add size).2, fc := (t.fc.onData size).2 }) := rfl

/-- The connection-level part of `t.updateFlowControl(n)`. -/
def updateFlowControl (t : conn) (n : UInt32) : List connItem × conn :=
  let (d, fc) := t.fc.newLimit n
  ([.windowUpdate d, .initialWindowSize n], { t with fc })

/-- `updateFlowControl` with its pair taken apart. -/
theorem updateFlowControl_eq (t : conn) (n : UInt32) :
    updateFlowControl t n = ([connItem.windowUpdate (t.fc.newLimit n).1, .initialWindowSize n],
      { t with fc := (t.fc.newLimit n).2 }) := rfl

/-- `t.handlePing(f)` for the ack of the BDP ping. -/
def handlePingAck (t : conn) (rttSample : ℚ) : List connItem × conn :=
  let (n, bdpEst) := t.bdpEst.calculate rttSample
  match n with
  | some n => updateFlowControl { t with bdpEst } n
  | none => ([], { t with bdpEst })

theorem handlePingAck_of_none {t : conn} {r : ℚ} (h : (t.bdpEst.calculate r).1 = none) :
    handlePingAck t r = ([], { t with bdpEst := (t.bdpEst.calculate r).2 }) := by
  unfold handlePingAck
  generalize t.bdpEst.calculate r = p at h ⊢
  obtain ⟨o, b⟩ := p
  cases h
  rfl

theorem handlePingAck_of_some {t : conn} {r : ℚ} {n : UInt32}
    (h : (t.bdpEst.calculate r).1 = some n) :
    handlePingAck t r = updateFlowControl { t with bdpEst := (t.bdpEst.calculate r).2 } n := by
  unfold handlePingAck
  generalize t.bdpEst.calculate r = p at h ⊢
  obtain ⟨o, b⟩ := p
  cases h
  rfl

/-- What the peer may send for a window update. -/
def credit : connItem → ℤ
  | .windowUpdate w => w.toNat
  | _ => 0

/-- The bytes of a frame. -/
def connEvent.cost : connEvent → ℤ
  | .data size => size.toNat
  | .pingAck _ => 0

/-- One event: the receive path's handling, and the peer's window less the frame and with the
window updates. -/
def step (t : conn) (e : connEvent) : List connItem × conn :=
  let r := match e with
    | .data size => handleData t size
    | .pingAck rttSample => handlePingAck t rttSample
  (r.1, { r.2 with peerWindow := t.peerWindow - e.cost + (r.1.map credit).sum })

/-- The receive path of `newHTTP2Client` with a dynamic window. -/
def newConn : conn :=
  ⟨⟨defaultWindowSize, 0, 0, false, 0, 0⟩, ⟨defaultWindowSize, 0, 0⟩, defaultWindowSize.toNat⟩

/-- The peer sends within its window, and a cycle of the estimator carries fewer than `2 ^ 31`
bytes. -/
def Allowed (t : conn) : connEvent → Prop
  | .data size => (size.toNat : ℤ) ≤ t.peerWindow ∧
      (t.bdpEst.isSent = true → t.bdpEst.sample.toNat + size.toNat < 2 ^ 31)
  | .pingAck _ => True

instance (t : conn) : (e : connEvent) → Decidable (Allowed t e)
  | .data _ => inferInstanceAs (Decidable (_ ∧ _))
  | .pingAck _ => inferInstanceAs (Decidable True)

/-! ## The invariant -/

/-- What every state of the receive path keeps. -/
structure Inv (t : conn) : Prop where
  limit_eq : t.fc.limit = t.bdpEst.bdp
  bdp_ge : defaultWindowSize.toNat ≤ t.bdpEst.bdp.toNat
  bdp_le : t.bdpEst.bdp.toNat ≤ bdpLimit.toNat
  quarter : t.fc.unacked = 0 ∨ 4 * t.fc.unacked.toNat < t.fc.limit.toNat
  window : t.peerWindow = (t.fc.limit.toNat : ℤ) - t.fc.unacked.toNat
  sample : t.bdpEst.sample.toNat < 2 ^ 31

theorem inv_newConn : Inv newConn where
  limit_eq := rfl
  bdp_ge := le_rfl
  bdp_le := by decide
  quarter := .inl rfl
  window := by decide
  sample := by decide

/-- A window update that is zero is not sent, and gives nothing either way. -/
@[simp] theorem sum_credit_windowUpdateOf (w : UInt32) :
    ((windowUpdateOf w).map credit).sum = w.toNat := by
  unfold windowUpdateOf
  split_ifs with hw
  · simp [credit]
  · have : w = 0 := by simpa using hw
    simp [this]

theorem Inv.unacked_le {t : conn} (h : Inv t) : t.fc.unacked.toNat ≤ t.fc.limit.toNat := by
  rcases h.quarter with h0 | h4
  · simp [h0]
  · omega

theorem Inv.limit_lt {t : conn} (h : Inv t) : t.fc.limit.toNat < 2 ^ 31 := by
  have : bdpLimit.toNat = 16777216 := rfl
  have := h.bdp_le
  rw [h.limit_eq]
  omega

/-- **A DATA frame within the peer's window keeps the invariant**: it adds at most a quarter of
the limit to the unacked bytes or acks them all, and the window updates it sends give the peer
back what it has acked. -/
theorem Inv.data {t : conn} (h : Inv t) {size : UInt32} (he : Allowed t (.data size)) :
    Inv (step t (.data size)).2 := by
  obtain ⟨hwin, hcycle⟩ := he
  have hle := h.unacked_le
  have hlim := h.limit_lt
  have hfits : size.toNat ≤ t.fc.limit.toNat - t.fc.unacked.toNat := by
    have := h.window
    omega
  -- the estimator keeps its estimate, and its sample stays under `2 ^ 31`
  have hsample : (t.bdpEst.add size).2.sample.toNat < 2 ^ 31 := by
    rcases t.bdpEst.add_sample size with hs | hs | ⟨hsent, hs⟩
    · rw [hs]; exact h.sample
    · rw [hs]; omega
    · have := hcycle hsent
      rw [hs, UInt32.toNat_add, Nat.mod_eq_of_lt (by omega)]
      exact this
  obtain ⟨hlimit, hcases⟩ := t.fc.onData_spec size (by omega)
  have hbase : ∀ fc : trInFlow, fc.limit = t.fc.limit → (fc.unacked = 0 ∨
      4 * fc.unacked.toNat < fc.limit.toNat) → ∀ w : ℤ,
      t.peerWindow - size.toNat + w = (fc.limit.toNat : ℤ) - fc.unacked.toNat →
      Inv { t with bdpEst := (t.bdpEst.add size).2, fc, peerWindow :=
        t.peerWindow - size.toNat + w } := by
    intro fc hfc hq w hw
    exact ⟨by simp [hfc, h.limit_eq], by simpa using h.bdp_ge, by simpa using h.bdp_le, hq, hw,
      hsample⟩
  simp only [step, handleData_eq]
  split_ifs with hping
  · -- the BDP ping's window update acks what the frame's own left unacked
    dsimp only [connEvent.cost]
    refine hbase _ (by simp [hlimit]) (.inl (by simp)) _ ?_
    simp only [List.map_append, List.sum_append, sum_credit_windowUpdateOf, trInFlow.reset_fst,
      trInFlow.reset_unacked, trInFlow.reset_limit, hlimit, h.window]
    rcases hcases with ⟨-, hw, hu⟩ | ⟨-, hw, hu⟩ <;> simp [hw, hu, credit]
  · dsimp only [connEvent.cost]
    rcases hcases with ⟨-, hw, hu⟩ | ⟨hq, hw, hu⟩
    · refine hbase _ hlimit (.inl hu) _ ?_
      simp [hw, hu, hlimit, h.window]
    · refine hbase _ hlimit (.inr (by rw [hu, hlimit]; omega)) _ ?_
      have := h.window
      simp only [hw, sum_credit_windowUpdateOf, UInt32.toNat_zero, hlimit, hu]
      push_cast
      omega

/-- **The ack of the BDP ping keeps the invariant**: a new estimate is above the limit, which
`newLimit` raises to it, and its window update gives the peer the difference. -/
theorem Inv.pingAck {t : conn} (h : Inv t) (r : ℚ) : Inv (step t (.pingAck r)).2 := by
  have hpos : 0 < t.bdpEst.bdp.toNat := lt_of_lt_of_le (by decide) h.bdp_ge
  rcases t.bdpEst.calculate_rises r hpos h.bdp_le h.sample with ⟨hn, hb⟩ | ⟨n, hn, hb, hlt, hle⟩
  · -- no new estimate: nothing is written, and the limit stays
    simp only [step, handlePingAck_of_none hn]
    exact ⟨by simp [hb, h.limit_eq], by simpa [hb] using h.bdp_ge, by simpa [hb] using h.bdp_le,
      h.quarter, by simp [h.window, connEvent.cost], by simpa using h.sample⟩
  · have hfc : t.fc.limit ≤ n := by
      rw [h.limit_eq, UInt32.le_iff_toNat_le]
      omega
    obtain ⟨hd, hl, hu⟩ := t.fc.newLimit_spec hfc
    have hlimit : t.fc.limit.toNat < n.toNat := by rw [h.limit_eq]; exact hlt
    simp only [step, handlePingAck_of_some hn, updateFlowControl_eq]
    refine ⟨by simp [hl, hb], by simpa [hb] using h.bdp_ge.trans hlt.le, by simpa [hb] using hle, ?_, ?_,
      by simpa using h.sample⟩
    · rcases h.quarter with h0 | h4
      · exact .inl (by simp [hu, h0])
      · exact .inr (by simp [hu, hl]; omega)
    · have := h.window
      simp [hd, hu, hl, credit, connEvent.cost]
      omega

theorem inv_step : Invariant Allowed step Inv := by
  intro t e h he
  cases e with
  | data size => exact h.data he
  | pingAck r => exact h.pingAck r

/-! ## The windows over a run -/

/-- **Both ends agree on the connection's window**: after every run in which the peer sends
within its window, what the receiver still accepts, its limit less the unacked bytes, is the
window the connection opened with, plus every window update written, less every byte received;
and the receiver holds back at most a quarter of its limit. -/
theorem conn_window_exact {es : List connEvent} (hadm : Admits Allowed step newConn es) :
    ((run step newConn es).2.fc.limit.toNat : ℤ) - (run step newConn es).2.fc.unacked.toNat =
        defaultWindowSize.toNat + ((run step newConn es).1.map credit).sum -
          (es.map connEvent.cost).sum ∧
      4 * (run step newConn es).2.fc.unacked.toNat ≤ (run step newConn es).2.fc.limit.toNat := by
  have hinv := inv_step.run inv_newConn hadm
  -- the peer's window moves by the frames and the window updates, by `step`'s own definition
  have hpeer := inv_step.conserved conn.peerWindow credit connEvent.cost
    (fun t e _ _ => by simp only [step]; abel) inv_newConn hadm
  refine ⟨?_, ?_⟩
  · rw [← hinv.window, hpeer]
    rfl
  · rcases hinv.quarter with h0 | h4
    · simp [h0]
    · omega

/-- A concrete admitted run: two frames of one measurement cycle, the ack that doubles the
estimate, and a frame that starts the next cycle. -/
def windowRun : List connEvent :=
  [.data 20000, .data 30000, .pingAck 1, .data 10000]

example : (run step newConn windowRun).1 = [.windowUpdate 20000, .bdpPing, .windowUpdate 30000,
    .windowUpdate 34465, .initialWindowSize 100000, .windowUpdate 10000, .bdpPing] := by
  decide +kernel

theorem conn_window_exact_sample : Admits Allowed step newConn windowRun ∧
    (((run step newConn windowRun).2.fc.limit.toNat : ℤ) -
          (run step newConn windowRun).2.fc.unacked.toNat =
        defaultWindowSize.toNat + ((run step newConn windowRun).1.map credit).sum -
          (windowRun.map connEvent.cost).sum ∧
      4 * (run step newConn windowRun).2.fc.unacked.toNat ≤
        (run step newConn windowRun).2.fc.limit.toNat) :=
  ⟨by decide +kernel, conn_window_exact (by decide +kernel)⟩

/-- The streams' initial windows among the items written. -/
def initialWindows (items : List connItem) : List UInt32 :=
  items.filterMap fun
    | .initialWindowSize n => some n
    | _ => none

@[simp] theorem initialWindows_append (l₁ l₂ : List connItem) :
    initialWindows (l₁ ++ l₂) = initialWindows l₁ ++ initialWindows l₂ :=
  List.filterMap_append

@[simp] theorem initialWindows_windowUpdateOf (w : UInt32) :
    initialWindows (windowUpdateOf w) = [] := by
  unfold windowUpdateOf
  split_ifs <;> rfl

theorem pos_of_mem_windowUpdateOf {w d : UInt32} (h : connItem.windowUpdate d ∈ windowUpdateOf w) :
    0 < d := by
  unfold windowUpdateOf at h
  split_ifs at h with hw
  · rw [List.mem_singleton, connItem.windowUpdate.injEq] at h
    rw [h]
    exact hw
  · simp at h

/-- A DATA frame writes window updates, none of them zero, and no initial window. -/
theorem step_data_windows (t : conn) (size : UInt32) :
    initialWindows (step t (.data size)).1 = [] ∧
      (step t (.data size)).2.bdpEst.bdp = t.bdpEst.bdp ∧
      ∀ d, connItem.windowUpdate d ∈ (step t (.data size)).1 → 0 < d := by
  simp only [step, handleData_eq]
  split_ifs
  · refine ⟨by simp only [initialWindows_append, initialWindows_windowUpdateOf]; rfl, by simp,
      fun d hd => ?_⟩
    simp only [List.mem_append, List.mem_singleton, reduceCtorEq, or_false] at hd
    exact hd.elim pos_of_mem_windowUpdateOf pos_of_mem_windowUpdateOf
  · exact ⟨by simp, by simp, fun d hd => pos_of_mem_windowUpdateOf hd⟩

/-- **What the ack of the BDP ping writes**: nothing, with the estimate kept; or the window update
to a new estimate, which is positive, and the new estimate as the initial window: above the old
one and within `bdpLimit`. -/
theorem Inv.pingAck_windows {t : conn} (h : Inv t) (r : ℚ) :
    ((step t (.pingAck r)).1 = [] ∧ (step t (.pingAck r)).2.bdpEst.bdp = t.bdpEst.bdp) ∨
      ∃ n, initialWindows (step t (.pingAck r)).1 = [n] ∧ t.bdpEst.bdp < n ∧
        n.toNat ≤ bdpLimit.toNat ∧ (step t (.pingAck r)).2.bdpEst.bdp = n ∧
        ∀ d, connItem.windowUpdate d ∈ (step t (.pingAck r)).1 → 0 < d := by
  have hpos : 0 < t.bdpEst.bdp.toNat := lt_of_lt_of_le (by decide) h.bdp_ge
  rcases t.bdpEst.calculate_rises r hpos h.bdp_le h.sample with ⟨hn, hb⟩ | ⟨n, hn, hb, hlt, hle⟩
  · simp only [step, handlePingAck_of_none hn]
    exact .inl ⟨trivial, hb⟩
  · have hfc : t.fc.limit ≤ n := by
      rw [h.limit_eq, UInt32.le_iff_toNat_le]
      omega
    have hd := (t.fc.newLimit_spec hfc).1
    simp only [step, handlePingAck_of_some hn, updateFlowControl_eq]
    refine .inr ⟨n, rfl, UInt32.lt_iff_toNat_lt.mpr hlt, hle, hb, fun d hd' => ?_⟩
    -- the one window update is the rise of the limit, which is the estimate
    simp only [List.mem_cons, connItem.windowUpdate.injEq, reduceCtorEq, List.not_mem_nil,
      or_false] at hd'
    rw [hd', UInt32.lt_iff_toNat_lt, hd, h.limit_eq]
    simpa using hlt

/-- The initial windows written so far rise strictly from `defaultWindowSize`, stay within
`bdpLimit` and end with the estimate; no window update written so far is zero. -/
structure WindowLog (out : List connItem) (t : conn) : Prop where
  rising : List.IsChain (· < ·) (defaultWindowSize :: initialWindows out)
  last : (defaultWindowSize :: initialWindows out).getLast? = some t.bdpEst.bdp
  le_limit : ∀ n ∈ initialWindows out, n.toNat ≤ bdpLimit.toNat
  pos : ∀ d, connItem.windowUpdate d ∈ out → 0 < d

/-- A step that writes no initial window and keeps the estimate keeps the log. -/
theorem WindowLog.of_none {out items : List connItem} {t t' : conn} (h : WindowLog out t)
    (hw : initialWindows items = []) (hb : t'.bdpEst.bdp = t.bdpEst.bdp)
    (hpos : ∀ d, connItem.windowUpdate d ∈ items → 0 < d) : WindowLog (out ++ items) t' where
  rising := by simpa [hw] using h.rising
  last := by simpa [hw, hb] using h.last
  le_limit := by simpa [hw] using h.le_limit
  pos d hd := (List.mem_append.mp hd).elim (h.pos d) (hpos d)

/-- A step that writes one initial window, above the estimate and within `bdpLimit`, which
becomes the estimate, keeps the log. -/
theorem WindowLog.of_some {out items : List connItem} {t t' : conn} {n : UInt32}
    (h : WindowLog out t) (hw : initialWindows items = [n]) (hlt : t.bdpEst.bdp < n)
    (hle : n.toNat ≤ bdpLimit.toNat) (hb : t'.bdpEst.bdp = n)
    (hpos : ∀ d, connItem.windowUpdate d ∈ items → 0 < d) : WindowLog (out ++ items) t' where
  rising := by
    rw [initialWindows_append, hw, ← List.cons_append]
    refine List.isChain_append.mpr ⟨h.rising, List.isChain_singleton _, ?_⟩
    intro x hx y hy
    rw [h.last, Option.mem_some_iff] at hx
    simp only [List.head?_cons, Option.mem_some_iff] at hy
    rw [← hx, ← hy]
    exact hlt
  last := by rw [initialWindows_append, hw, ← List.cons_append, List.getLast?_concat, hb]
  le_limit m hm := by
    rw [initialWindows_append, hw, List.mem_append, List.mem_singleton] at hm
    rcases hm with hm | rfl
    · exact h.le_limit m hm
    · exact hle
  pos d hd := (List.mem_append.mp hd).elim (h.pos d) (hpos d)

theorem WindowLog.step {out : List connItem} {t : conn} (h : WindowLog out t) (hinv : Inv t)
    (e : connEvent) : WindowLog (out ++ (step t e).1) (step t e).2 := by
  cases e with
  | data size =>
    obtain ⟨hw, hb, hpos⟩ := step_data_windows t size
    exact h.of_none hw hb hpos
  | pingAck r =>
    rcases hinv.pingAck_windows r with ⟨hout, hb⟩ | ⟨n, hw, hlt, hle, hb, hpos⟩
    · exact h.of_none (by rw [hout]; rfl) hb (by simp [hout])
    · exact h.of_some hw hlt hle hb hpos

/-- **The BDP estimate only rises**: over every run in which the peer sends within its window,
the initial windows `updateFlowControl` announces rise strictly from `defaultWindowSize`, none
passes `bdpLimit`, and no window update written is zero.  So `newLimit`, whose `uint32`
difference would wrap, never lowers the limit. -/
theorem bdp_windows_increase {es : List connEvent} (hadm : Admits Allowed step newConn es) :
    List.IsChain (· < ·) (defaultWindowSize :: initialWindows (run step newConn es).1) ∧
      (∀ n ∈ initialWindows (run step newConn es).1, n.toNat ≤ bdpLimit.toNat) ∧
      ∀ d, connItem.windowUpdate d ∈ (run step newConn es).1 → 0 < d := by
  have hnil : WindowLog [] newConn :=
    ⟨List.isChain_singleton _, rfl, by simp [initialWindows], by simp⟩
  have h := inv_step.outputs (P := WindowLog) (fun _ t e hinv _ hlog => hlog.step hinv e)
    inv_newConn hadm hnil
  rw [List.nil_append] at h
  exact ⟨h.rising, h.le_limit, h.pos⟩

theorem bdp_windows_increase_sample : Admits Allowed step newConn windowRun ∧
    (List.IsChain (· < ·) (defaultWindowSize :: initialWindows (run step newConn windowRun).1) ∧
      (∀ n ∈ initialWindows (run step newConn windowRun).1, n.toNat ≤ bdpLimit.toNat) ∧
      ∀ d, connItem.windowUpdate d ∈ (run step newConn windowRun).1 → 0 < d) :=
  ⟨by decide +kernel, bdp_windows_increase (by decide +kernel)⟩

end ConnWindow
end Transport
end GrpcGo
