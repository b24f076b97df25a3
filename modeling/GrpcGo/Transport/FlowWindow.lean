import GrpcGo.Transport.FlowControl

/-!
# What inbound flow control computes

`inFlowExact` is the code of `inFlow` over the integers: every sum and difference exact, and the
`int32` conversions of `maybeAdjust` the identity.  It is what the operations mean, and
`FlowRefinement` shows that `inFlow` computes it on every run of the transport.

`window` is the sender's window as the receiver reckons it, `limit + delta - pendingData -
pendingUpdate`.  Each operation moves it by what it tells the sender: `newLimit`, `maybeAdjust`
(when no earlier grant is outstanding) and `onRead` add the increment they return, and `onData`
takes off the frame (`window_newLimit`, `window_maybeAdjust`, `window_onRead`, `window_onData`).
`onData` refuses a frame exactly when the frame is larger than the window (`onData_fst`).

`recvStreamExact` is the client stream's machine over `inFlowExact`.  `FlowInv` is its invariant:
the window stays within `maxWindowSize + bdpLimit`, is never negative while the stream is open,
and a grant of `maybeAdjust` never outlives the `Stream.Read` it was made for.
-/

namespace GrpcGo
namespace Transport

open GoStd

/-- `inFlow` with integer fields. -/
structure inFlowExact where
  limit : Int
  pendingData : Int
  pendingUpdate : Int
  delta : Int
  deriving DecidableEq, Repr

namespace inFlowExact

/-- `newLimit` over the integers. -/
def newLimit (f : inFlowExact) (n : Int) : Int × inFlowExact :=
  let d := n - f.limit
  (d, { f with limit := n })

/-- `maybeAdjust` over the integers. -/
def maybeAdjust (f : inFlowExact) (n : Int) : Int × inFlowExact :=
  let n := if n > (MaxInt32 : Int) then (MaxInt32 : Int) else n
  let estSenderQuota := f.limit - (f.pendingData + f.pendingUpdate)
  let estUntransmittedData := n - f.pendingData
  if estUntransmittedData > estSenderQuota then
    let delta := if f.limit + n > maxWindowSize.toNat then maxWindowSize.toNat - f.limit else n
    (delta, { f with delta })
  else (0, f)

/-- `onData` over the integers: whether it fails, and the account. -/
def onData (f : inFlowExact) (n : Int) : Bool × inFlowExact :=
  let f := { f with pendingData := f.pendingData + n }
  (f.pendingData + f.pendingUpdate > f.limit + f.delta, f)

/-- `onRead` over the integers. -/
def onRead (f : inFlowExact) (n : Int) : Int × inFlowExact :=
  if f.pendingData = 0 then (0, f)
  else
    let f := { f with pendingData := f.pendingData - n }
    let (n, f) : Int × inFlowExact :=
      if n > f.delta then (n - f.delta, { f with delta := 0 })
      else (0, { f with delta := f.delta - n })
    let f := { f with pendingUpdate := f.pendingUpdate + n }
    if f.pendingUpdate ≥ f.limit / 4 then (f.pendingUpdate, { f with pendingUpdate := 0 })
    else (0, f)

/-- The window the receiver believes the sender still has. -/
def window (f : inFlowExact) : Int := f.limit + f.delta - f.pendingData - f.pendingUpdate

/-! ## How each operation moves the window -/

variable (f : inFlowExact) (n : Int)

theorem window_newLimit : (f.newLimit n).2.window = f.window + (f.newLimit n).1 := by
  simp only [newLimit, window]
  omega

/-- A grant of `maybeAdjust` adds to the window what it returns, provided no earlier grant is
still outstanding: it sets `delta` rather than adding to it. -/
theorem window_maybeAdjust (h : f.delta = 0) :
    (f.maybeAdjust n).2.window = f.window + (f.maybeAdjust n).1 := by
  simp only [maybeAdjust, window]
  split_ifs <;> simp only [h] <;> omega

theorem window_onData : (f.onData n).2.window = f.window - n := by
  simp only [onData, window]
  omega

theorem window_onRead : (f.onRead n).2.window = f.window + (f.onRead n).1 := by
  simp only [onRead, window]
  split_ifs <;> simp only <;> omega

/-- `onData` refuses exactly the frames larger than the window. -/
theorem onData_fst : (f.onData n).1 = decide (f.window < n) := by
  have hover : f.pendingData + n + f.pendingUpdate > f.limit + f.delta ↔ f.window < n := by
    unfold window
    omega
  simp only [onData, hover]

/-- `onData` as its verdict on the window and the account. -/
theorem onData_eq : f.onData n = (decide (f.window < n), (f.onData n).2) :=
  Prod.ext (onData_fst f n) rfl

/-! ## What each operation leaves unchanged and what it bounds -/

@[simp] theorem newLimit_limit : (f.newLimit n).2.limit = n := rfl
@[simp] theorem newLimit_delta : (f.newLimit n).2.delta = f.delta := rfl
@[simp] theorem onData_limit : (f.onData n).2.limit = f.limit := rfl
@[simp] theorem onData_delta : (f.onData n).2.delta = f.delta := rfl
@[simp] theorem onData_pendingData : (f.onData n).2.pendingData = f.pendingData + n := rfl
@[simp] theorem onData_pendingUpdate : (f.onData n).2.pendingUpdate = f.pendingUpdate := rfl

/-- What `maybeAdjust` does when no grant is outstanding: it sets `delta` to what it returns
(`0` for no grant), at most the read and at most what keeps `limit + delta` within
`maxWindowSize`. -/
theorem maybeAdjust_spec (hn : 0 ≤ n) (hlimit : f.limit ≤ maxWindowSize.toNat)
    (hdelta : f.delta = 0) :
    (f.maybeAdjust n).2 = { f with delta := (f.maybeAdjust n).1 } ∧
      0 ≤ (f.maybeAdjust n).1 ∧ (f.maybeAdjust n).1 ≤ n ∧
      f.limit + (f.maybeAdjust n).1 ≤ maxWindowSize.toNat := by
  have hmax : (maxWindowSize.toNat : Int) = 2147483647 := rfl
  have hint : (MaxInt32 : Int) = 2147483647 := rfl
  have hf : f = { f with delta := 0 } := by rw [← hdelta]
  simp only [maybeAdjust]
  -- no grant, or a grant of the read (clamped to `MaxInt32`) or of what is left below the maximum
  split_ifs
  all_goals first
    | exact ⟨hf, le_refl 0, hn, by omega⟩
    | exact ⟨rfl, by omega, by omega, by omega⟩

@[simp] theorem onRead_limit : (f.onRead n).2.limit = f.limit := by
  simp only [onRead]
  split_ifs <;> rfl

/-- `onRead` uses the read up against `delta` first. -/
theorem onRead_delta :
    (f.onRead n).2.delta = if f.pendingData = 0 then f.delta else max (f.delta - n) 0 := by
  simp only [onRead]
  split_ifs <;> simp only <;> omega

/-- `onRead` of at most `pendingData` bytes keeps the account nonnegative and returns a
nonnegative increment. -/
theorem onRead_nonneg (hle : n ≤ f.pendingData) (hu : 0 ≤ f.pendingUpdate)
    (hd : 0 ≤ f.delta) :
    0 ≤ (f.onRead n).1 ∧ 0 ≤ (f.onRead n).2.pendingData ∧ 0 ≤ (f.onRead n).2.pendingUpdate ∧
      0 ≤ (f.onRead n).2.delta := by
  simp only [onRead]
  split_ifs <;> simp only <;> omega

end inFlowExact

/-- Every increment sent is positive: what is sent sums to the increment, when it is not
negative. -/
theorem sum_sendIncrement {w : Int} (hw : 0 ≤ w) : (sendIncrement w).sum = w := by
  unfold sendIncrement
  split_ifs <;> simp only [List.sum_cons, List.sum_nil] <;> omega

/-! ## The stream's machine over the integers -/

/-- `recvStream` over `inFlowExact`. -/
structure recvStreamExact where
  fc : inFlowExact
  readLeft : Nat
  er : Bool
  closed : Bool
  deriving DecidableEq, Repr

/-- `recvStream.step` over the integers. -/
def recvStreamExact.step (s : recvStreamExact) : FlowEvent → List Int × recvStreamExact
  | .read n =>
    if s.er then ([], s)
    else
      let (w, fc) := s.fc.maybeAdjust n.toNat
      (sendIncrement w, { s with fc, readLeft := n.toNat })
  | .readReturned k =>
    let (w, fc) := s.fc.onRead k.toNat
    (sendIncrement w, { s with fc, readLeft := s.readLeft - k.toNat })
  | .readFailed => ([], { s with er := true, readLeft := 0 })
  | .data size dataLen padded =>
    if size.toNat > 0 then
      match s.fc.onData size.toNat with
      | (true, fc) => ([], { s with fc, closed := true })
      | (false, fc) =>
        if padded then
          let (w, fc) := fc.onRead ((size.toNat : Int) - dataLen.toNat)
          (sendIncrement w, { s with fc })
        else ([], { s with fc })
    else ([], s)
  | .newLimit n =>
    let (d, fc) := s.fc.newLimit n.toNat
    ([d], { s with fc })

/-- `recvStream.Allowed` over the integers: what can happen next on an open stream. -/
def recvStreamExact.Allowed (s : recvStreamExact) : FlowEvent → Prop
  | .read _ => s.closed = false ∧ s.readLeft = 0
  | .readReturned k => s.closed = false ∧ 0 < s.readLeft ∧ k.toNat ≤ s.readLeft ∧
      (k.toNat : Int) ≤ s.fc.pendingData
  | .readFailed => s.closed = false ∧ 0 < s.readLeft
  | .data size dataLen _ => s.closed = false ∧ size.toNat < 2 ^ 24 ∧ dataLen ≤ size
  | .newLimit n => s.closed = false ∧ s.fc.limit ≤ n.toNat ∧ n ≤ bdpLimit

/-- The invariant of a client stream's inbound flow control. -/
structure FlowInv (s : recvStreamExact) : Prop where
  limit_nonneg : 0 ≤ s.fc.limit
  pendingData_nonneg : 0 ≤ s.fc.pendingData
  pendingUpdate_nonneg : 0 ≤ s.fc.pendingUpdate
  delta_nonneg : 0 ≤ s.fc.delta
  limit_le : s.fc.limit ≤ maxWindowSize.toNat
  delta_le : s.fc.delta ≤ maxWindowSize.toNat
  limit_add_delta_le : s.fc.limit + s.fc.delta ≤ maxWindowSize.toNat + bdpLimit.toNat
  /-- the peer has not overrun the window of an open stream -/
  window_nonneg : s.closed = false → 0 ≤ s.fc.window
  /-- a grant of `maybeAdjust` is used up by the `Stream.Read` it was made for -/
  delta_le_readLeft : s.er = false → s.fc.delta ≤ s.readLeft
  readLeft_of_er : s.er = true → s.readLeft = 0

theorem FlowInv.init {initialWindowSize : Nat} (h : initialWindowSize ≤ maxWindowSize.toNat) :
    FlowInv ⟨⟨initialWindowSize, 0, 0, 0⟩, 0, false, false⟩ := by
  have hb : (0 : Int) ≤ bdpLimit.toNat := Int.natCast_nonneg _
  constructor <;> simp [inFlowExact.window] <;> omega

/-! ## One lemma per event: the invariant is kept and the window moves by what is granted -/

section Events

variable {s : recvStreamExact}

/-- A grant of `w` for a read of `n` bytes on an idle stream. -/
theorem FlowInv.grant (hs : FlowInv s) (her : s.er = false) {w : Int} (n : Nat) (hw : 0 ≤ w)
    (hwn : w ≤ n) (hwmax : s.fc.limit + w ≤ maxWindowSize.toNat) (hdelta : s.fc.delta = 0) :
    FlowInv { s with fc := { s.fc with delta := w }, readLeft := n } where
  limit_nonneg := hs.limit_nonneg
  pendingData_nonneg := hs.pendingData_nonneg
  pendingUpdate_nonneg := hs.pendingUpdate_nonneg
  delta_nonneg := hw
  limit_le := hs.limit_le
  delta_le := by have := hs.limit_nonneg; simp only; omega
  limit_add_delta_le := by have : (0 : Int) ≤ bdpLimit.toNat := Int.natCast_nonneg _; simp only; omega
  window_nonneg := fun hc => by
    have := hs.window_nonneg hc
    simp only [inFlowExact.window] at this ⊢
    omega
  delta_le_readLeft := fun _ => hwn
  readLeft_of_er := fun h => by simp [her] at h

/-- `onRead` of `x` bytes of what has arrived, with the read in progress then waiting for `r`. -/
theorem FlowInv.onRead (hs : FlowInv s) {x : Int} (hx : 0 ≤ x) (hxp : x ≤ s.fc.pendingData)
    (r : Nat) (hr : s.er = false → (s.fc.onRead x).2.delta ≤ r) (hr' : s.er = true → r = 0) :
    FlowInv { s with fc := (s.fc.onRead x).2, readLeft := r } := by
  obtain ⟨hw, hpd, hpu, hd⟩ :=
    inFlowExact.onRead_nonneg s.fc x hxp hs.pendingUpdate_nonneg hs.delta_nonneg
  have hdelta := inFlowExact.onRead_delta s.fc x
  have hwin := inFlowExact.window_onRead s.fc x
  -- `onRead` only lowers `delta` and only raises the window
  have hle : (s.fc.onRead x).2.delta ≤ s.fc.delta := by
    have := hs.delta_nonneg
    split_ifs at hdelta <;> omega
  exact { limit_nonneg := by rw [inFlowExact.onRead_limit]; exact hs.limit_nonneg
          pendingData_nonneg := hpd
          pendingUpdate_nonneg := hpu
          delta_nonneg := hd
          limit_le := by rw [inFlowExact.onRead_limit]; exact hs.limit_le
          delta_le := le_trans hle hs.delta_le
          limit_add_delta_le := by
            simp only [inFlowExact.onRead_limit]; have := hs.limit_add_delta_le; omega
          window_nonneg := fun hc => by rw [hwin]; have := hs.window_nonneg hc; omega
          delta_le_readLeft := hr
          readLeft_of_er := hr' }

/-- A DATA frame within the window. -/
theorem FlowInv.onData_ok (hs : FlowInv s) {size : Int} (hsize : 0 ≤ size)
    (hok : ¬ s.fc.window < size) : FlowInv { s with fc := (s.fc.onData size).2 } where
  limit_nonneg := hs.limit_nonneg
  pendingData_nonneg := by simp only [inFlowExact.onData_pendingData]; have := hs.pendingData_nonneg; omega
  pendingUpdate_nonneg := hs.pendingUpdate_nonneg
  delta_nonneg := hs.delta_nonneg
  limit_le := hs.limit_le
  delta_le := hs.delta_le
  limit_add_delta_le := hs.limit_add_delta_le
  window_nonneg := fun _ => by simp only [inFlowExact.window_onData]; omega
  delta_le_readLeft := hs.delta_le_readLeft
  readLeft_of_er := hs.readLeft_of_er

/-- A DATA frame that overruns the window: the stream is closed. -/
theorem FlowInv.onData_closed (hs : FlowInv s) {size : Int} (hsize : 0 ≤ size) :
    FlowInv { s with fc := (s.fc.onData size).2, closed := true } where
  limit_nonneg := hs.limit_nonneg
  pendingData_nonneg := by simp only [inFlowExact.onData_pendingData]; have := hs.pendingData_nonneg; omega
  pendingUpdate_nonneg := hs.pendingUpdate_nonneg
  delta_nonneg := hs.delta_nonneg
  limit_le := hs.limit_le
  delta_le := hs.delta_le
  limit_add_delta_le := hs.limit_add_delta_le
  window_nonneg := fun h => nomatch h
  delta_le_readLeft := hs.delta_le_readLeft
  readLeft_of_er := hs.readLeft_of_er

/-- A `Stream.Read` on an idle stream. -/
theorem FlowInv.read (hs : FlowInv s) (hidle : s.readLeft = 0) (n : UInt32) :
    FlowInv (s.step (.read n)).2 ∧
      (s.step (.read n)).2.fc.window = s.fc.window + (s.step (.read n)).1.sum := by
  cases her : s.er
  · -- the read asks for a window; no grant is outstanding, as the stream is idle
    have hdelta : s.fc.delta = 0 := by
      have := hs.delta_le_readLeft her
      have := hs.delta_nonneg
      omega
    obtain ⟨hf, hw, hwn, hwmax⟩ :=
      inFlowExact.maybeAdjust_spec s.fc n.toNat (Int.natCast_nonneg _) hs.limit_le hdelta
    have hwin := inFlowExact.window_maybeAdjust s.fc n.toNat hdelta
    have hne : ¬ (s.er = true) := by simp [her]
    simp only [recvStreamExact.step, if_neg hne]
    rw [sum_sendIncrement hw, ← hwin, hf]
    exact ⟨hs.grant her n.toNat hw hwn hwmax hdelta, rfl⟩
  · -- after a failed read, `Stream.Read` returns at once
    simp only [recvStreamExact.step, her, if_true, List.sum_nil, add_zero]
    exact ⟨hs, trivial⟩

/-- A `transportReader.Read` of the read in progress returning `k` bytes. -/
theorem FlowInv.readReturned (hs : FlowInv s) {k : UInt32} (hreading : 0 < s.readLeft)
    (hk : k.toNat ≤ s.readLeft) (hkp : (k.toNat : Int) ≤ s.fc.pendingData) :
    FlowInv (s.step (.readReturned k)).2 ∧
      (s.step (.readReturned k)).2.fc.window =
        s.fc.window + (s.step (.readReturned k)).1.sum := by
  have her : s.er = false := by
    cases h : s.er
    · rfl
    · have := hs.readLeft_of_er h
      omega
  have hx : (0 : Int) ≤ k.toNat := Int.natCast_nonneg _
  obtain ⟨hw, -, -, -⟩ :=
    inFlowExact.onRead_nonneg s.fc k.toNat hkp hs.pendingUpdate_nonneg hs.delta_nonneg
  simp only [recvStreamExact.step]
  rw [sum_sendIncrement hw, ← inFlowExact.window_onRead]
  refine ⟨hs.onRead hx hkp _ (fun _ => ?_) (fun h => by simp [her] at h), rfl⟩
  -- what is left of the grant is at most what is left of the read
  have hdelta := inFlowExact.onRead_delta s.fc k.toNat
  have hle := hs.delta_le_readLeft her
  split_ifs at hdelta <;> omega

/-- A `transportReader.Read` failing. -/
theorem FlowInv.readFailed (hs : FlowInv s) :
    FlowInv (s.step .readFailed).2 ∧
      (s.step .readFailed).2.fc.window = s.fc.window + (s.step .readFailed).1.sum := by
  simp only [recvStreamExact.step, List.sum_nil, add_zero]
  exact ⟨{ hs with delta_le_readLeft := fun h => (nomatch h), readLeft_of_er := fun _ => rfl },
    trivial⟩

/-- A DATA frame of `size` bytes, `dataLen` of them data. -/
theorem FlowInv.data (hs : FlowInv s) {size dataLen : UInt32} (hlen : dataLen.toNat ≤ size.toNat)
    (padded : Bool) :
    FlowInv (s.step (.data size dataLen padded)).2 ∧
      (s.step (.data size dataLen padded)).2.fc.window =
        s.fc.window + (s.step (.data size dataLen padded)).1.sum - size.toNat := by
  have hsize : (0 : Int) ≤ size.toNat := Int.natCast_nonneg _
  simp only [recvStreamExact.step]
  by_cases hpos : size.toNat > 0
  · have hwin := inFlowExact.window_onData s.fc size.toNat
    rw [if_pos hpos, inFlowExact.onData_eq]
    by_cases hover : s.fc.window < size.toNat
    · -- the frame overruns the window: `closeStream`
      rw [decide_eq_true hover]
      simp only [List.sum_nil, add_zero]
      exact ⟨hs.onData_closed hsize, hwin⟩
    · have hs' := hs.onData_ok hsize hover
      rw [decide_eq_false hover]
      cases padded
      · simp only [Bool.false_eq_true, if_false, List.sum_nil, add_zero]
        exact ⟨hs', hwin⟩
      · -- the padding is read at once
        have hx : (0 : Int) ≤ (size.toNat : Int) - dataLen.toNat := by omega
        have hxp : (size.toNat : Int) - dataLen.toNat ≤ (s.fc.onData size.toNat).2.pendingData := by
          simp only [inFlowExact.onData_pendingData]
          have := hs.pendingData_nonneg
          omega
        obtain ⟨hw, -, -, -⟩ := inFlowExact.onRead_nonneg _ _ hxp
          hs'.pendingUpdate_nonneg hs'.delta_nonneg
        have hdelta := inFlowExact.onRead_delta (s.fc.onData size.toNat).2
          ((size.toNat : Int) - dataLen.toNat)
        simp only [if_true]
        rw [sum_sendIncrement hw, inFlowExact.window_onRead, hwin]
        refine ⟨hs'.onRead hx hxp s.readLeft (fun her => ?_) hs.readLeft_of_er, by omega⟩
        have := hs.delta_le_readLeft her
        simp only [inFlowExact.onData_delta] at hdelta ⊢
        split_ifs at hdelta <;> omega
  · -- `handleData` skips flow control for an empty frame
    have hzero : size.toNat = 0 := by omega
    rw [if_neg hpos]
    simp only [hzero, List.sum_nil, add_zero, Nat.cast_zero, sub_zero]
    exact ⟨hs, trivial⟩

/-- A raise of the limit by the BDP estimator. -/
theorem FlowInv.newLimit (hs : FlowInv s) {n : UInt32} (hge : s.fc.limit ≤ n.toNat)
    (hbdp : n.toNat ≤ bdpLimit.toNat) :
    FlowInv (s.step (.newLimit n)).2 ∧
      (s.step (.newLimit n)).2.fc.window = s.fc.window + (s.step (.newLimit n)).1.sum := by
  have hwin := inFlowExact.window_newLimit s.fc n.toNat
  have hmax : bdpLimit.toNat ≤ maxWindowSize.toNat := by decide
  simp only [recvStreamExact.step, List.sum_cons, List.sum_nil, add_zero]
  refine ⟨{ hs with
    limit_nonneg := by simp only [inFlowExact.newLimit_limit]; have := hs.limit_nonneg; omega
    limit_le := by simp only [inFlowExact.newLimit_limit]; omega
    delta_le := by simp only [inFlowExact.newLimit_delta]; exact hs.delta_le
    limit_add_delta_le := by
      simp only [inFlowExact.newLimit_limit, inFlowExact.newLimit_delta]
      have := hs.delta_le
      omega
    window_nonneg := fun hc => by
      rw [hwin]
      have := hs.window_nonneg hc
      simp only [inFlowExact.newLimit]
      omega
    delta_le_readLeft := fun her => by
      simp only [inFlowExact.newLimit_delta]
      exact hs.delta_le_readLeft her }, hwin⟩

/-- Every allowed event keeps the invariant and moves the window by what the stream grants
less what the event brings. -/
theorem FlowInv.step (hs : FlowInv s) {e : FlowEvent} (he : s.Allowed e) :
    FlowInv (s.step e).2 ∧
      (s.step e).2.fc.window = s.fc.window + (s.step e).1.sum - e.received := by
  cases e with
  | read n => simpa only [FlowEvent.received, Nat.cast_zero, sub_zero] using hs.read he.2 n
  | readReturned k =>
    simpa only [FlowEvent.received, Nat.cast_zero, sub_zero] using
      hs.readReturned he.2.1 he.2.2.1 he.2.2.2
  | readFailed => simpa only [FlowEvent.received, Nat.cast_zero, sub_zero] using hs.readFailed
  | data size dataLen padded => exact hs.data (UInt32.le_iff_toNat_le.mp he.2.2) padded
  | newLimit n =>
    have hbdp : n.toNat ≤ bdpLimit.toNat := UInt32.le_iff_toNat_le.mp he.2.2
    simpa only [FlowEvent.received, Nat.cast_zero, sub_zero] using hs.newLimit he.2.1 hbdp

end Events

theorem flowInv_invariant :
    Machine.Invariant recvStreamExact.Allowed recvStreamExact.step FlowInv :=
  fun _ _ hs he => (hs.step he).1

/-- Over every allowed run the window moves by everything granted less everything received. -/
theorem window_run {s : recvStreamExact} {es : List FlowEvent} (hs : FlowInv s)
    (hes : Machine.Admits recvStreamExact.Allowed recvStreamExact.step s es) :
    (Machine.run recvStreamExact.step s es).2.fc.window =
      s.fc.window + (Machine.run recvStreamExact.step s es).1.sum -
        (es.map fun e => (e.received : Int)).sum := by
  have hcons := flowInv_invariant.conserved (fun s => s.fc.window) (fun w => w)
    (fun e => (e.received : Int)) (fun s e hs he => by rw [List.map_id']; exact (hs.step he).2)
    hs hes
  rwa [List.map_id'] at hcons

end Transport
end GrpcGo
