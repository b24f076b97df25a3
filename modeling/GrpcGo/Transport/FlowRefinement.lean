import GrpcGo.Transport.FlowWindow

/-!
# `inFlow` computes its integer meaning on every run

`inFlow.exact` reads the `uint32` account as integers.  Each operation, under the bounds that
`FlowInv` keeps, computes exactly what `inFlowExact` computes: no sum or difference wraps around,
and the two `int32` conversions of `maybeAdjust` give the true differences (`newLimit_exact`,
`maybeAdjust_exact`, `onData_exact`, `onRead_exact`).  So the stream's machine over `uint32`
simulates the one over the integers (`step_exact`), and on every run the transport can perform,
the receiver's view of the sender's window is exact and `onData` refuses exactly the frames that
overrun it (`inFlow_window_exact`).
-/

namespace GrpcGo
namespace Transport

open GoStd

/-- The account read as integers. -/
def inFlow.exact (f : inFlow) : inFlowExact :=
  ⟨f.limit.toNat, f.pendingData.toNat, f.pendingUpdate.toNat, f.delta.toNat⟩

/-- The stream read as integers. -/
def recvStream.exact (s : recvStream) : recvStreamExact :=
  ⟨s.fc.exact, s.readLeft, s.er, s.closed⟩

section Fields

variable (f : inFlow) (s : recvStream)

@[simp] theorem inFlow.exact_limit : f.exact.limit = f.limit.toNat := rfl
@[simp] theorem inFlow.exact_pendingData : f.exact.pendingData = f.pendingData.toNat := rfl
@[simp] theorem inFlow.exact_pendingUpdate : f.exact.pendingUpdate = f.pendingUpdate.toNat := rfl
@[simp] theorem inFlow.exact_delta : f.exact.delta = f.delta.toNat := rfl
@[simp] theorem recvStream.exact_fc : s.exact.fc = s.fc.exact := rfl
@[simp] theorem recvStream.exact_readLeft : s.exact.readLeft = s.readLeft := rfl
@[simp] theorem recvStream.exact_er : s.exact.er = s.er := rfl
@[simp] theorem recvStream.exact_closed : s.exact.closed = s.closed := rfl

end Fields

/-! ## Each operation is exact within the bounds -/

namespace inFlow

variable (f : inFlow)

theorem newLimit_exact {n : UInt32} (h : f.limit ≤ n) :
    ((f.newLimit n).1.toNat : Int) = (f.exact.newLimit n.toNat).1 ∧
      (f.newLimit n).2.exact = (f.exact.newLimit n.toNat).2 := by
  have hle := UInt32.le_iff_toNat_le.mp h
  refine ⟨?_, rfl⟩
  simp only [newLimit, inFlowExact.newLimit, exact, UInt32.toNat_sub_of_le _ _ h]
  omega

/-- `onData` is exact while the bytes counted and the window stay below `2^32`. -/
theorem onData_exact (n : UInt32)
    (hsum : f.pendingData.toNat + n.toNat + f.pendingUpdate.toNat < 2 ^ 32)
    (hwin : f.limit.toNat + f.delta.toNat < 2 ^ 32) :
    (f.onData n).1.isSome = (f.exact.onData n.toNat).1 ∧
      (f.onData n).2.exact = (f.exact.onData n.toNat).2 := by
  have hpd : (f.pendingData + n).toNat = f.pendingData.toNat + n.toNat :=
    toNat_add_of_lt (by omega)
  have hrcvd : (f.pendingData + n + f.pendingUpdate).toNat =
      f.pendingData.toNat + n.toNat + f.pendingUpdate.toNat := by
    rw [toNat_add_of_lt (by omega), hpd]
  have hover : f.pendingData + n + f.pendingUpdate > f.limit + f.delta ↔
      (f.pendingData.toNat : Int) + n.toNat + f.pendingUpdate.toNat >
        f.limit.toNat + f.delta.toNat := by
    rw [gt_iff_lt, UInt32.lt_iff_toNat_lt, hrcvd, toNat_add_of_lt hwin]
    omega
  have hstate : (f.onData n).2.exact = (f.exact.onData n.toNat).2 := by
    simp only [onData, inFlowExact.onData, exact]
    split_ifs <;> simp only [hpd, Nat.cast_add]
  refine ⟨?_, hstate⟩
  simp only [onData, inFlowExact.onData, exact]
  split_ifs with h
  · exact (decide_eq_true (hover.mp h)).symm
  · exact (decide_eq_false (mt hover.mpr h)).symm

/-- The last part of `onRead`: `pendingUpdate` grows by `u` and is flushed at a quarter of the
limit.  It is exact when the sum does not wrap around. -/
theorem flush_exact (g : inFlow) (g' : inFlowExact) (hg : g.exact = g') (u : UInt32) (u' : Int)
    (hu : (u.toNat : Int) = u') (h : g.pendingUpdate.toNat + u.toNat < 2 ^ 32) :
    let r := (let f := { g with pendingUpdate := g.pendingUpdate + u }
      if f.pendingUpdate ≥ f.limit / 4 then (f.pendingUpdate, { f with pendingUpdate := 0 })
      else (0, f))
    let r' := (let f := { g' with pendingUpdate := g'.pendingUpdate + u' }
      if f.pendingUpdate ≥ f.limit / 4 then (f.pendingUpdate, { f with pendingUpdate := 0 })
      else (0, f))
    (r.1.toNat : Int) = r'.1 ∧ r.2.exact = r'.2 := by
  subst hg hu
  have h4 : (4 : UInt32).toNat = 4 := rfl
  have hsum : (g.pendingUpdate + u).toNat = g.pendingUpdate.toNat + u.toNat := toNat_add_of_lt h
  have hflush : g.pendingUpdate + u ≥ g.limit / 4 ↔
      (g.pendingUpdate.toNat : Int) + u.toNat ≥ (g.limit.toNat : Int) / 4 := by
    rw [ge_iff_le, UInt32.le_iff_toNat_le, hsum, UInt32.toNat_div, h4]
    omega
  by_cases hfl : g.pendingUpdate + u ≥ g.limit / 4
  · simp only [if_pos hfl, exact, hsum, UInt32.toNat_zero, Nat.cast_zero, Nat.cast_add]
    simp only [hflush.mp hfl, ↓reduceIte, and_self]
  · simp only [if_neg hfl, exact, hsum, UInt32.toNat_zero, Nat.cast_zero, Nat.cast_add]
    simp only [mt hflush.mpr hfl, ↓reduceIte, and_self]

/-- `onRead` of at most `pendingData` bytes is exact while `pendingData + pendingUpdate` stays
below `2^32`. -/
theorem onRead_exact (n : UInt32) (hn : n ≤ f.pendingData)
    (hsum : f.pendingData.toNat + f.pendingUpdate.toNat < 2 ^ 32) :
    ((f.onRead n).1.toNat : Int) = (f.exact.onRead n.toNat).1 ∧
      (f.onRead n).2.exact = (f.exact.onRead n.toNat).2 := by
  have hle := UInt32.le_iff_toNat_le.mp hn
  have hpd : ((f.pendingData - n).toNat : Int) = f.pendingData.toNat - n.toNat := by
    rw [UInt32.toNat_sub_of_le _ _ hn]
    omega
  unfold onRead inFlowExact.onRead
  by_cases h0 : f.pendingData = 0
  · have h0' : f.exact.pendingData = 0 := by simp [exact, h0]
    rw [if_pos h0, if_pos h0']
    exact ⟨rfl, rfl⟩
  have h0' : f.exact.pendingData ≠ 0 := by
    have : f.pendingData.toNat ≠ 0 := fun h => h0 (UInt32.toNat_inj.mp h)
    simp only [exact]
    omega
  rw [if_neg h0, if_neg h0']
  by_cases hd : n > f.delta
  · -- the read uses up `delta`; the rest goes to `pendingUpdate`
    have hlt := UInt32.lt_iff_toNat_lt.mp hd
    have hd' : (n.toNat : Int) > f.exact.delta := by simp only [exact]; omega
    have hsub : ((n - f.delta).toNat : Int) = n.toNat - f.delta.toNat := by
      rw [UInt32.toNat_sub_of_le _ _ (UInt32.le_iff_toNat_le.mpr (by omega))]
      omega
    simp only [if_pos hd, if_pos hd']
    refine flush_exact { f with pendingData := f.pendingData - n, delta := 0 }
      { f.exact with pendingData := f.exact.pendingData - n.toNat, delta := 0 } ?_ (n - f.delta)
      ((n.toNat : Int) - f.exact.delta) hsub ?_
    · simp only [exact, hpd, UInt32.toNat_zero, Nat.cast_zero]
    · show f.pendingUpdate.toNat + (n - f.delta).toNat < 2 ^ 32
      omega
  · -- `delta` covers the read
    have hge : n.toNat ≤ f.delta.toNat := by have := UInt32.lt_iff_toNat_lt.not.mp hd; omega
    have hd' : ¬ (n.toNat : Int) > f.exact.delta := by simp only [exact]; omega
    have hsub : ((f.delta - n).toNat : Int) = f.delta.toNat - n.toNat := by
      rw [UInt32.toNat_sub_of_le _ _ (UInt32.le_iff_toNat_le.mpr hge)]
      omega
    simp only [if_neg hd, if_neg hd']
    refine flush_exact { f with pendingData := f.pendingData - n, delta := f.delta - n }
      { f.exact with pendingData := f.exact.pendingData - n.toNat, delta := f.exact.delta - n.toNat }
      ?_ 0 0 rfl ?_
    · simp only [exact, hpd, hsub]
    · simp only [UInt32.toNat_zero]
      omega

/-- A grant of `d` read as integers. -/
theorem with_delta_exact (d : UInt32) (d' : Int) (h : (d.toNat : Int) = d') :
    ((d, { f with delta := d }).1.toNat : Int) = (d', { f.exact with delta := d' }).1 ∧
      (d, { f with delta := d }).2.exact = (d', { f.exact with delta := d' }).2 := by
  subst h
  exact ⟨rfl, rfl⟩

/-- The read that `maybeAdjust` clamps to `MaxInt32`, on both sides. -/
theorem clamp_exact (n : UInt32) :
    ((if n > UInt32.ofNat MaxInt32 then UInt32.ofNat MaxInt32 else n).toNat : Int) =
        (if (n.toNat : Int) > (MaxInt32 : Int) then (MaxInt32 : Int) else n.toNat) ∧
      (if n > UInt32.ofNat MaxInt32 then UInt32.ofNat MaxInt32 else n).toNat ≤ MaxInt32 := by
  have hint : MaxInt32 = 2147483647 := rfl
  have hofNat : (UInt32.ofNat MaxInt32).toNat = MaxInt32 := rfl
  by_cases hbig : n > UInt32.ofNat MaxInt32
  · have : (n.toNat : Int) > (MaxInt32 : Int) := by
      have := UInt32.lt_iff_toNat_lt.mp hbig
      omega
    rw [if_pos hbig, if_pos this, hofNat]
    exact ⟨rfl, le_refl _⟩
  · have hle := UInt32.lt_iff_toNat_lt.not.mp hbig
    have : ¬ (n.toNat : Int) > (MaxInt32 : Int) := by omega
    rw [if_neg hbig, if_neg this]
    exact ⟨rfl, by omega⟩

/-- Within the bounds the two `int32` conversions of `maybeAdjust` give the true differences, so
its test compares what the integers compare. -/
theorem estimates_exact {m : UInt32} (hm : m.toNat ≤ MaxInt32)
    (hpend : f.pendingData.toNat + f.pendingUpdate.toNat ≤ f.limit.toNat)
    (hlimit : f.limit.toNat ≤ maxWindowSize.toNat) :
    (m - f.pendingData).toInt32 > (f.limit - (f.pendingData + f.pendingUpdate)).toInt32 ↔
      (m.toNat : Int) - f.exact.pendingData >
        f.exact.limit - (f.exact.pendingData + f.exact.pendingUpdate) := by
  have hmax : maxWindowSize.toNat = 2147483647 := rfl
  have hint : MaxInt32 = 2147483647 := rfl
  have hpu : (f.pendingData + f.pendingUpdate).toNat =
      f.pendingData.toNat + f.pendingUpdate.toNat := toNat_add_of_lt (by omega)
  have hquota : (f.limit - (f.pendingData + f.pendingUpdate)).toInt32.toInt =
      (f.limit.toNat : Int) - (f.pendingData.toNat + f.pendingUpdate.toNat) := by
    rw [toInt_toInt32_sub (by rw [hpu]; push_cast; omega) (by rw [hpu]; push_cast; omega), hpu]
    push_cast
    rfl
  have huntx : (m - f.pendingData).toInt32.toInt = (m.toNat : Int) - f.pendingData.toNat :=
    toInt_toInt32_sub (by omega) (by omega)
  rw [gt_iff_lt, Int32.lt_iff_toInt_lt, hquota, huntx]
  simp only [exact]

/-- The grant, at most what keeps the limit within `maxWindowSize`, read as an integer. -/
theorem grant_exact {m : UInt32} (hm : m.toNat ≤ MaxInt32)
    (hlimit : f.limit.toNat ≤ maxWindowSize.toNat) :
    (((if f.limit + m > maxWindowSize then maxWindowSize - f.limit else m).toNat : Int) =
      if f.exact.limit + (m.toNat : Int) > maxWindowSize.toNat then
        maxWindowSize.toNat - f.exact.limit
      else m.toNat) := by
  have hmax : maxWindowSize.toNat = 2147483647 := rfl
  have hint : MaxInt32 = 2147483647 := rfl
  have hwide : f.limit + m > maxWindowSize ↔
      f.exact.limit + (m.toNat : Int) > maxWindowSize.toNat := by
    rw [gt_iff_lt, UInt32.lt_iff_toNat_lt, toNat_add_of_lt (by omega)]
    simp only [exact]
    omega
  by_cases hw : f.limit + m > maxWindowSize
  · rw [if_pos hw, if_pos (hwide.mp hw),
      UInt32.toNat_sub_of_le _ _ (UInt32.le_iff_toNat_le.mpr hlimit)]
    simp only [exact]
    omega
  · rw [if_neg hw, if_neg (mt hwide.mpr hw)]

/-- `maybeAdjust` with the limit within `maxWindowSize` and no more counted than the limit is
exact. -/
theorem maybeAdjust_exact (n : UInt32) (hlimit : f.limit.toNat ≤ maxWindowSize.toNat)
    (hpend : f.pendingData.toNat + f.pendingUpdate.toNat ≤ f.limit.toNat) :
    ((f.maybeAdjust n).1.toNat : Int) = (f.exact.maybeAdjust n.toNat).1 ∧
      (f.maybeAdjust n).2.exact = (f.exact.maybeAdjust n.toNat).2 := by
  simp only [maybeAdjust, inFlowExact.maybeAdjust]
  obtain ⟨hclamp, hmle⟩ := clamp_exact n
  generalize (if n > UInt32.ofNat MaxInt32 then UInt32.ofNat MaxInt32 else n) = m at hclamp hmle ⊢
  generalize (if (n.toNat : Int) > (MaxInt32 : Int) then (MaxInt32 : Int) else n.toNat) = m'
    at hclamp ⊢
  subst hclamp
  have hcond := f.estimates_exact hmle hpend hlimit
  by_cases hc : (m - f.pendingData).toInt32 > (f.limit - (f.pendingData + f.pendingUpdate)).toInt32
  · rw [if_pos hc, if_pos (hcond.mp hc)]
    exact f.with_delta_exact _ _ (f.grant_exact hmle hlimit)
  · rw [if_neg hc, if_neg (mt hcond.mpr hc)]
    refine ⟨rfl, ?_⟩
    simp only [exact]

end inFlow

/-- The increment sent, read as an integer. -/
theorem sendIncrement_exact (w : UInt32) :
    (sendIncrement w).map (fun w => (w.toNat : Int)) = sendIncrement (w.toNat : Int) := by
  unfold sendIncrement
  by_cases hw : w > 0
  · have hpos : (w.toNat : Int) > 0 := by
      have := UInt32.lt_iff_toNat_lt.mp hw
      rw [UInt32.toNat_zero] at this
      omega
    rw [if_pos hw, if_pos hpos]
    rfl
  · have hzero : ¬ (w.toNat : Int) > 0 := by
      have := UInt32.lt_iff_toNat_lt.not.mp hw
      rw [UInt32.toNat_zero] at this
      omega
    rw [if_neg hw, if_neg hzero]
    rfl

/-! ## The stream's machine is exact -/

/-- What `FlowInv` bounds of the `uint32` account of an open stream: nothing counted exceeds the
window, which stays within `maxWindowSize + bdpLimit`. -/
theorem FlowInv.bounds {s : recvStream} (hs : FlowInv s.exact) (hopen : s.closed = false) :
    s.fc.pendingData.toNat + s.fc.pendingUpdate.toNat ≤ s.fc.limit.toNat + s.fc.delta.toNat ∧
      s.fc.limit.toNat + s.fc.delta.toNat ≤ maxWindowSize.toNat + bdpLimit.toNat := by
  have hwin := hs.window_nonneg hopen
  have hsum := hs.limit_add_delta_le
  simp only [recvStream.exact, inFlow.exact, inFlowExact.window] at hwin hsum
  omega

theorem recvStream.Allowed.exact {s : recvStream} {e : FlowEvent} (he : s.Allowed e) :
    s.exact.Allowed e := by
  cases e with
  | read n => exact he
  | readReturned k =>
    have hk : (k.toNat : Int) ≤ s.fc.pendingData.toNat := by
      exact_mod_cast UInt32.le_iff_toNat_le.mp he.2.2.2
    exact ⟨he.1, he.2.1, he.2.2.1, hk⟩
  | readFailed => exact he
  | data size dataLen padded => exact he
  | newLimit n =>
    have hn : (s.fc.limit.toNat : Int) ≤ n.toNat := by
      exact_mod_cast UInt32.le_iff_toNat_le.mp he.2.1
    exact ⟨he.1, hn, he.2.2⟩

section Events

variable {s : recvStream}

/-- A `Stream.Read` is exact: no grant is outstanding, so nothing counted exceeds the limit. -/
theorem step_exact_read (hs : FlowInv s.exact) {n : UInt32} (he : s.Allowed (.read n)) :
    (s.step (.read n)).1.map (fun w => (w.toNat : Int)) = (s.exact.step (.read n)).1 ∧
      (s.step (.read n)).2.exact = (s.exact.step (.read n)).2 := by
  cases her : s.er
  · have hdelta := hs.delta_le_readLeft her
    have hlimit := hs.limit_le
    simp only [recvStream.exact_fc, recvStream.exact_readLeft, inFlow.exact_delta,
      inFlow.exact_limit, Nat.cast_le] at hdelta hlimit
    obtain ⟨hpend, -⟩ := hs.bounds he.1
    obtain ⟨hw, hfc⟩ := s.fc.maybeAdjust_exact n hlimit (by have := he.2; omega)
    simp only [recvStream.step, recvStreamExact.step, recvStream.exact, her,
      Bool.false_eq_true, ↓reduceIte, sendIncrement_exact, hw, hfc, and_self]
  · simp only [recvStream.step, recvStreamExact.step, recvStream.exact, her, ↓reduceIte,
      List.map_nil, and_self]

/-- A `transportReader.Read` returning `k` bytes is exact. -/
theorem step_exact_readReturned (hs : FlowInv s.exact) {k : UInt32}
    (he : s.Allowed (.readReturned k)) :
    (s.step (.readReturned k)).1.map (fun w => (w.toNat : Int)) =
        (s.exact.step (.readReturned k)).1 ∧
      (s.step (.readReturned k)).2.exact = (s.exact.step (.readReturned k)).2 := by
  have hmax : maxWindowSize.toNat + bdpLimit.toNat < 2 ^ 32 := by decide
  obtain ⟨hpend, hwin⟩ := hs.bounds he.1
  obtain ⟨hw, hfc⟩ := s.fc.onRead_exact k he.2.2.2 (by omega)
  simp only [recvStream.step, recvStreamExact.step, recvStream.exact, sendIncrement_exact, hw, hfc,
    and_self]

/-- A DATA frame is exact: it is shorter than `2^24` bytes, so counting it does not wrap around,
and neither does reading its padding. -/
theorem step_exact_data (hs : FlowInv s.exact) {size dataLen : UInt32} {padded : Bool}
    (he : s.Allowed (.data size dataLen padded)) :
    (s.step (.data size dataLen padded)).1.map (fun w => (w.toNat : Int)) =
        (s.exact.step (.data size dataLen padded)).1 ∧
      (s.step (.data size dataLen padded)).2.exact = (s.exact.step (.data size dataLen padded)).2 := by
  obtain ⟨hopen, hsize, hlen⟩ := he
  obtain ⟨hpend, hwin⟩ := hs.bounds hopen
  have hmax : maxWindowSize.toNat + bdpLimit.toNat + 2 ^ 24 < 2 ^ 32 := by decide
  have hlen' := UInt32.le_iff_toNat_le.mp hlen
  obtain ⟨hverdict, hfc⟩ := s.fc.onData_exact size (by omega) (by omega)
  have hpos : size > 0 ↔ size.toNat > 0 := by
    rw [gt_iff_lt, UInt32.lt_iff_toNat_lt, UInt32.toNat_zero]
  simp only [recvStream.step, recvStreamExact.step, recvStream.exact]
  by_cases hp : size > 0
  · rw [if_pos hp, if_pos (hpos.mp hp)]
    -- the account after the frame, on both sides
    have hcounted := s.fc.onData_snd size
    rcases hd : s.fc.onData size with ⟨_ | msg, fc⟩ <;>
      rcases hd' : s.fc.exact.onData size.toNat with ⟨_ | _, fc'⟩ <;>
      simp only [hd, hd', Option.isSome_none, Option.isSome_some, Bool.false_eq_true,
        Bool.true_eq_false] at hverdict hfc hcounted
    · -- accepted: the padding, if any, is read at once
      cases padded
      · simp only [Bool.false_eq_true, ↓reduceIte, List.map_nil, hfc, and_self]
      · have hpd : (s.fc.pendingData + size).toNat = s.fc.pendingData.toNat + size.toNat :=
          toNat_add_of_lt (by omega)
        have hsub : ((size - dataLen).toNat : Int) = size.toNat - dataLen.toNat := by
          rw [UInt32.toNat_sub_of_le _ _ hlen]
          omega
        have hread : size - dataLen ≤ fc.pendingData := by
          rw [hcounted, UInt32.le_iff_toNat_le, UInt32.toNat_sub_of_le _ _ hlen]
          show size.toNat - dataLen.toNat ≤ (s.fc.pendingData + size).toNat
          omega
        have hroom : fc.pendingData.toNat + fc.pendingUpdate.toNat < 2 ^ 32 := by
          rw [hcounted]
          show (s.fc.pendingData + size).toNat + s.fc.pendingUpdate.toNat < 2 ^ 32
          omega
        obtain ⟨hw, hfc'⟩ := fc.onRead_exact (size - dataLen) hread hroom
        rw [hsub, hfc] at hw hfc'
        simp only [↓reduceIte, sendIncrement_exact, hw, hfc', and_self]
    · -- refused: `closeStream`
      simp only [List.map_nil, hfc, and_self]
  · -- `handleData` skips flow control for an empty frame
    rw [if_neg hp, if_neg (mt hpos.mpr hp)]
    exact ⟨rfl, rfl⟩

/-- A raise of the limit is exact. -/
theorem step_exact_newLimit {n : UInt32} (he : s.Allowed (.newLimit n)) :
    (s.step (.newLimit n)).1.map (fun w => (w.toNat : Int)) = (s.exact.step (.newLimit n)).1 ∧
      (s.step (.newLimit n)).2.exact = (s.exact.step (.newLimit n)).2 := by
  obtain ⟨hd, hfc⟩ := s.fc.newLimit_exact he.2.1
  simp only [recvStream.step, recvStreamExact.step, recvStream.exact, List.map_cons, List.map_nil,
    hd, hfc, and_self]

end Events

/-- Every allowed step of a stream whose integer reading keeps `FlowInv` is exact. -/
theorem recvStream.step_exact (s : recvStream) (e : FlowEvent) (hs : FlowInv s.exact)
    (he : s.Allowed e) :
    (s.step e).1.map (fun w => (w.toNat : Int)) = (s.exact.step e).1 ∧
      (s.step e).2.exact = (s.exact.step e).2 := by
  cases e with
  | read n => exact step_exact_read hs he
  | readReturned k => exact step_exact_readReturned hs he
  | readFailed =>
    simp only [recvStream.step, recvStreamExact.step, recvStream.exact, List.map_nil, and_self]
  | data size dataLen padded => exact step_exact_data hs he
  | newLimit n => exact step_exact_newLimit he

theorem flowInv_exact_invariant :
    Machine.Invariant recvStream.Allowed recvStream.step (fun s => FlowInv s.exact) := by
  intro s e hs he
  rw [(s.step_exact e hs he).2]
  exact (hs.step he.exact).1

/-- On every allowed run, the `uint32` machine computes what the integer machine computes. -/
theorem recvStream.run_exact {s : recvStream} {es : List FlowEvent} (hs : FlowInv s.exact)
    (hes : Machine.Admits recvStream.Allowed recvStream.step s es) :
    (Machine.run recvStream.step s es).1.map (fun w => (w.toNat : Int)) =
        (Machine.run recvStreamExact.step s.exact es).1 ∧
      (Machine.run recvStream.step s es).2.exact =
        (Machine.run recvStreamExact.step s.exact es).2 :=
  flowInv_exact_invariant.simulates (fun s e hs he => s.step_exact e hs he) hs hes

/-- Stream-level inbound flow control keeps the receiver's view of the sender's window exact.
Along every run the transport can perform on a new client stream (each `Stream.Read` asks for a
window with `maybeAdjust` and then reads until it has all it asked for or a read fails, after
which `Stream.Read` asks for nothing more; the reads never exceed what has arrived; the padding
of each DATA frame is read at once; a DATA frame is shorter than `2^24` bytes; the BDP estimator
only raises the limit, up to `bdpLimit`):
* no `uint32` quantity wraps around: the run computes what the same code computes over the
  integers;
* the sender's window as the peer counts it, the initial limit plus every increment granted less
  every byte of DATA, is `limit + delta - pendingData - pendingUpdate`;
* while the stream is open, `onData` refuses a frame exactly when it is larger than that window. -/
theorem inFlow_window_exact (initialWindowSize : UInt32) (hinit : initialWindowSize ≤ maxWindowSize)
    (es : List FlowEvent)
    (hes : Machine.Admits recvStream.Allowed recvStream.step (recvStream.init initialWindowSize) es) :
    let r := Machine.run recvStream.step (recvStream.init initialWindowSize) es
    ((r.1.map fun w => (w.toNat : Int)) =
        (Machine.run recvStreamExact.step (recvStream.init initialWindowSize).exact es).1 ∧
      r.2.exact = (Machine.run recvStreamExact.step (recvStream.init initialWindowSize).exact es).2) ∧
    senderWindow initialWindowSize es r.1 = r.2.fc.exact.window ∧
    (r.2.closed = false → ∀ m : UInt32, m.toNat < 2 ^ 24 →
      ((r.2.fc.onData m).1.isSome ↔ senderWindow initialWindowSize es r.1 < m.toNat)) := by
  intro r
  dsimp only [r]
  have hinit' : FlowInv (recvStream.init initialWindowSize).exact :=
    FlowInv.init (by exact_mod_cast UInt32.le_iff_toNat_le.mp hinit)
  have hrun := recvStream.run_exact hinit' hes
  -- the integer machine admits the same events, and its window moves by grants less data
  have hadmits := flowInv_exact_invariant.admits_simulated
    (fun s e hs he => (s.step_exact e hs he).2) (fun _ _ _ he => he.exact) hinit' hes
  have hwindow := window_run hinit' hadmits
  have hW : senderWindow initialWindowSize es
      (Machine.run recvStream.step (recvStream.init initialWindowSize) es).1 =
      (Machine.run recvStream.step (recvStream.init initialWindowSize) es).2.fc.exact.window := by
    rw [senderWindow, ← recvStream.exact_fc, hrun.2, hwindow, ← hrun.1]
    simp only [recvStream.init, recvStream.exact_fc, inFlow.exact, inFlowExact.window,
      UInt32.toNat_zero, Nat.cast_zero, add_zero, sub_zero]
  refine ⟨hrun, hW, fun hopen m hm => ?_⟩
  -- the final stream keeps the invariant, so counting the frame does not wrap around
  have hfinal := flowInv_exact_invariant.run hinit' hes
  obtain ⟨hpend, hwin⟩ := FlowInv.bounds hfinal hopen
  have hmax : maxWindowSize.toNat + bdpLimit.toNat + 2 ^ 24 < 2 ^ 32 := by decide
  obtain ⟨hverdict, -⟩ := inFlow.onData_exact
    (Machine.run recvStream.step (recvStream.init initialWindowSize) es).2.fc m (by omega) (by omega)
  rw [hverdict, inFlowExact.onData_fst, hW, decide_eq_true_iff]

/-- A read of 100000 bytes on a default window of 65535: the stream grants the rest of the read
at once, the peer sends a frame larger than the initial window, and the window stays exact. -/
theorem inFlow_window_exact_large_read :
    senderWindow 65535 [.read 100000, .data 70000 70000 false, .readReturned 70000]
        (Machine.run recvStream.step (recvStream.init 65535)
          [.read 100000, .data 70000 70000 false, .readReturned 70000]).1 =
      (Machine.run recvStream.step (recvStream.init 65535)
          [.read 100000, .data 70000 70000 false, .readReturned 70000]).2.fc.exact.window :=
  (inFlow_window_exact 65535 (by decide) _ (by decide)).2.1

end Transport
end GrpcGo
