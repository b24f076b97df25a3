import GrpcGo.Alts.Counter
import GrpcGo.Lib.ExceptBind

/-!
# The counters number the frames

A side's out-counter, `Inc`ed `k` times, holds the twelve little-endian bytes of `k` plus the
side's high bit for as long as `k < 256 ^ overflowLen`, and is invalid from then on
(`iterate_Inc_NewOutCounter`).  Everything else follows from that and from the carry loop's
one lemma, `incLoop_leBytes`:

* the values of the out-counters of both sides are pairwise distinct, so no nonce is sealed
  with twice (`Value_iterate_Inc_NewOutCounter_inj`);
* an invalid counter never becomes valid again (`iterate_Inc_of_invalid`);
* a side's in-counter is its peer's out-counter (`NewInCounter_eq_NewOutCounter`);
* a run of `Encrypt` calls seals the `i`-th call with nonce `i` and fails on every call from
  the `256 ^ overflowLen`-th on (`run_sealStep`, `aes128gcm.run_encryptStep`,
  `aes128gcmRekey.run_encryptStep`).
-/

namespace GrpcGo
namespace Alts

open GoStd GoStd.Binary Machine

/-- The number a side's out-counters start from: the little-endian high bit of a server's. -/
def sideBit (s : Side) : Nat := if s = .ServerSide then 2 ^ 95 else 0

@[simp] theorem sideBit_ClientSide : sideBit .ClientSide = 0 := rfl
@[simp] theorem sideBit_ServerSide : sideBit .ServerSide = 2 ^ 95 := rfl

theorem sideBit_lt (s : Side) : sideBit s ≤ 2 ^ 95 := by
  unfold sideBit
  split <;> omega

/-- The carry bytes lie below the side bit. -/
theorem pow_dvd_sideBit (s : Side) {L : Nat} (hL : L ≤ 11) : 256 ^ L ∣ sideBit s := by
  unfold sideBit
  split
  · rw [show (256 : Nat) = 2 ^ 8 from rfl, ← Nat.pow_mul]
    exact Nat.pow_dvd_pow 2 (by omega)
  · exact Nat.dvd_zero _

/-- With at most eleven carry bytes, the twelve bytes of a count below `256 ^ L` plus the side
bit are the `L` bytes of the count, then the bytes of the side bit. -/
theorem leBytes_counterLen (s : Side) {L v : Nat} (hL : L ≤ 11) (hv : v < 256 ^ L) :
    leBytes counterLen (v + sideBit s) =
      leBytes L v ++ leBytes (counterLen - L) (sideBit s / 256 ^ L) := by
  obtain ⟨q, hq⟩ := pow_dvd_sideBit s hL
  have hpos : 0 < 256 ^ L := Nat.pow_pos (by decide)
  have hlow : (v + sideBit s) % 256 ^ L = v := by
    rw [hq, Nat.add_mul_mod_self_left, Nat.mod_eq_of_lt hv]
  have hhigh : (v + sideBit s) / 256 ^ L = sideBit s / 256 ^ L := by
    rw [hq, Nat.add_mul_div_left _ _ hpos, Nat.mul_div_cancel_left _ hpos, Nat.div_eq_of_lt hv,
      Nat.zero_add]
  have hlen : counterLen = L + (counterLen - L) := by
    unfold counterLen
    omega
  rw [congrArg (leBytes · (v + sideBit s)) hlen, leBytes_add, hlow, hhigh]

theorem NewOutCounter_value (s : Side) (L : Nat) :
    (NewOutCounter s L).value = leBytes counterLen (0 + sideBit s) := by
  cases s <;> rfl

/-- A side's in-counter counts the frames its peer's out-counter seals. -/
theorem NewInCounter_eq_NewOutCounter {s s' : Side} (h : s ≠ s') (L : Nat) :
    NewInCounter s L = NewOutCounter s' L := by
  cases s <;> cases s' <;> first | exact absurd rfl h | rfl

namespace Counter

@[simp] theorem Value_of_invalid {c : Counter} (h : c.invalid = true) :
    c.Value = .error errInvalidCounter := by
  rw [Value, if_pos h]

theorem Inc_of_invalid {c : Counter} (h : c.invalid = true) : c.Inc = c := by
  rw [Inc, if_pos h]

/-- An invalid counter stays as it is, whatever is called on it. -/
theorem iterate_Inc_of_invalid {c : Counter} (h : c.invalid = true) (n : Nat) :
    Inc^[n] c = c := by
  induction n with
  | zero => rfl
  | succ n ih => rw [Function.iterate_succ_apply', ih, Inc_of_invalid h]

/-- Adding one to a byte. -/
theorem ofNat_add_one (a : Nat) : UInt8.ofNat a + 1 = UInt8.ofNat (a + 1) := by
  apply UInt8.toNat_inj.mp
  rw [UInt8.toNat_add, UInt8.toNat_ofNat', UInt8.toNat_ofNat']
  simp only [UInt8.reduceToNat]
  omega

/-- **The carry loop adds one** to the number in the low `n` bytes, and reaches the end of them
exactly when that number wraps around to `0`. -/
theorem incLoop_leBytes (n v : Nat) (rest : Bytes) (hv : v < 256 ^ n) :
    incLoop n (leBytes n v ++ rest) =
      if v + 1 < 256 ^ n then (leBytes n (v + 1) ++ rest, false)
      else (leBytes n 0 ++ rest, true) := by
  induction n generalizing v with
  | zero =>
    rw [Nat.pow_zero] at hv ⊢
    rw [if_neg (by omega)]
    rfl
  | succ n ih =>
    have hhigh : v / 256 < 256 ^ n := by
      rw [Nat.pow_succ'] at hv
      exact Nat.div_lt_of_lt_mul hv
    rw [leBytes, List.cons_append, incLoop]
    by_cases hlow : v % 256 = 255
    · -- the low byte wraps around and the carry goes on into the bytes above it
      have hwrap : UInt8.ofNat (v % 256) + 1 = 0 := by rw [hlow]; rfl
      have hsucc : (v + 1) % 256 = 0 ∧ (v + 1) / 256 = v / 256 + 1 := by omega
      rw [if_neg (not_not.mpr hwrap), hwrap, ih (v / 256) hhigh]
      by_cases hup : v / 256 + 1 < 256 ^ n
      · have hup' : v + 1 < 256 ^ (n + 1) := by rw [Nat.pow_succ']; omega
        rw [if_pos hup, if_pos hup', leBytes, hsucc.1, hsucc.2, List.cons_append]
        rfl
      · have hup' : ¬ v + 1 < 256 ^ (n + 1) := by rw [Nat.pow_succ']; omega
        rw [if_neg hup, if_neg hup', leBytes]
        rfl
    · -- the low byte takes the carry
      have hlt : v % 256 < 255 := by omega
      have hsucc : (v + 1) % 256 = v % 256 + 1 ∧ (v + 1) / 256 = v / 256 := by omega
      have hup' : v + 1 < 256 ^ (n + 1) := by rw [Nat.pow_succ'] at hv ⊢; omega
      rw [ofNat_add_one, if_pos (by
        intro h
        have := congrArg UInt8.toNat h
        rw [UInt8.toNat_ofNat'] at this
        simp only [UInt8.reduceToNat] at this
        omega), if_pos hup', leBytes, hsucc.1, hsucc.2, List.cons_append]

end Counter

open Counter

/-- **The out-counter after `k` calls of `Inc`**: the count plus the side bit while the count is
below `256 ^ L`, and invalid from then on. -/
theorem iterate_Inc_NewOutCounter (s : Side) {L : Nat} (hL : L ≤ 11) (k : Nat) :
    Inc^[k] (NewOutCounter s L) =
      if k < 256 ^ L then ⟨leBytes counterLen (k + sideBit s), false, L⟩
      else ⟨leBytes counterLen (sideBit s), true, L⟩ := by
  have hpos : 0 < 256 ^ L := Nat.pow_pos (by decide)
  induction k with
  | zero =>
    rw [if_pos hpos, Function.iterate_zero_apply, ← NewOutCounter_value s L]
    rfl
  | succ k ih =>
    rw [Function.iterate_succ_apply', ih]
    by_cases hk : k < 256 ^ L
    · -- a valid counter: the carry loop runs on its low `L` bytes
      have hbytes := leBytes_counterLen s hL hk
      rw [if_pos hk, Inc, if_neg Bool.false_ne_true]
      dsimp only
      rw [hbytes, incLoop_leBytes L k _ hk]
      by_cases hup : k + 1 < 256 ^ L
      · rw [if_pos hup, if_pos hup, ← leBytes_counterLen s hL hup]
        rfl
      · -- the count wraps around to `0` and the counter becomes invalid
        have hzero := leBytes_counterLen s hL hpos
        rw [Nat.zero_add] at hzero
        rw [if_neg hup, if_neg hup, hzero]
        rfl
    · rw [if_neg hk, if_neg (by omega), Inc_of_invalid rfl]

/-- **`Value()` of an out-counter** succeeds exactly while fewer than `256 ^ L` calls of `Inc`
have been made, and is then the twelve bytes of the count plus the side bit. -/
theorem Value_iterate_Inc_NewOutCounter (s : Side) {L : Nat} (hL : L ≤ 11) (k : Nat) :
    (Inc^[k] (NewOutCounter s L)).Value =
      if k < 256 ^ L then .ok (leBytes counterLen (k + sideBit s)) else .error errInvalidCounter := by
  rw [iterate_Inc_NewOutCounter s hL k]
  split
  · rfl
  · rfl

/-- A value of an out-counter is below `256 ^ counterLen`. -/
theorem count_add_sideBit_lt (s : Side) {L k : Nat} (hL : L ≤ 11) (hk : k < 256 ^ L) :
    k + sideBit s < 256 ^ counterLen := by
  have hpow : 256 ^ L ≤ 256 ^ 11 := Nat.pow_le_pow_right (by omega) hL
  have hside := sideBit_lt s
  unfold counterLen
  omega

/-- **No two counts of the two sides' out-counters give the same value.** -/
theorem Value_iterate_Inc_NewOutCounter_inj {s s' : Side} {L L' k k' : Nat} {v : Bytes}
    (hL : L ≤ 11) (hL' : L' ≤ 11) (h : (Inc^[k] (NewOutCounter s L)).Value = .ok v)
    (h' : (Inc^[k'] (NewOutCounter s' L')).Value = .ok v) : s = s' ∧ k = k' := by
  rw [Value_iterate_Inc_NewOutCounter s hL] at h
  rw [Value_iterate_Inc_NewOutCounter s' hL'] at h'
  by_cases hk : k < 256 ^ L
  · by_cases hk' : k' < 256 ^ L'
    · rw [if_pos hk] at h
      rw [if_pos hk', ← h] at h'
      have heq := leBytes_inj (count_add_sideBit_lt s' hL' hk') (count_add_sideBit_lt s hL hk)
        (Except.ok.inj h')
      -- the counts are below `2 ^ 88`, far under the side bit
      have hpow : 256 ^ L ≤ 256 ^ 11 := Nat.pow_le_pow_right (by omega) hL
      have hpow' : 256 ^ L' ≤ 256 ^ 11 := Nat.pow_le_pow_right (by omega) hL'
      cases s <;> cases s' <;>
        simp only [sideBit_ClientSide, sideBit_ServerSide, reduceCtorEq, true_and, false_and]
          at heq ⊢ <;> omega
    · rw [if_neg hk'] at h'
      cases h'
  · rw [if_neg hk] at h
    cases h

/-! ## Runs of `Encrypt` -/

/-- `Encrypt` on the out-counter after `k` calls seals with the count as the nonce, or fails
once the counter is invalid. -/
theorem sealNext_iterate_Inc (aead : AEAD) (s : Side) {L : Nat} (hL : L ≤ 11) (k : Nat)
    (dst plaintext : Bytes) :
    sealNext aead (Inc^[k] (NewOutCounter s L)) dst plaintext =
      if k < 256 ^ L then
        .ok (aead.Seal dst (leBytes counterLen (k + sideBit s)) plaintext,
          Inc^[k + 1] (NewOutCounter s L))
      else .error errInvalidCounter := by
  unfold sealNext
  rw [Value_iterate_Inc_NewOutCounter s hL, Function.iterate_succ_apply']
  split
  · rfl
  · rfl

/-- **A run of `Encrypt` calls on an out-counter after `k` calls** seals the `i`-th of the
calls that remain before `256 ^ L` with nonce `k + i`, and fails on every call after them. -/
theorem run_sealStep (aead : AEAD) (s : Side) {L : Nat} (hL : L ≤ 11) :
    ∀ (calls : List (Bytes × Bytes)) (k : Nat), k ≤ 256 ^ L →
      (run (sealStep aead) (Inc^[k] (NewOutCounter s L)) calls).1 =
        (calls.take (256 ^ L - k)).mapIdx fun i call =>
          aead.Seal call.1 (leBytes counterLen (k + i + sideBit s)) call.2
  | [], _, _ => by simp
  | call :: calls, k, hk => by
    rw [run_cons, sealStep, sealNext_iterate_Inc aead s hL]
    by_cases hlt : k < 256 ^ L
    · -- the call seals with nonce `k`, and the rest of the run starts from `k + 1`
      rw [if_pos hlt]
      dsimp only
      rw [run_sealStep aead s hL calls (k + 1) hlt,
        show 256 ^ L - k = (256 ^ L - (k + 1)) + 1 by omega, List.take_succ_cons,
        List.mapIdx_cons, List.singleton_append, Nat.add_zero]
      congr 2
      funext i call
      rw [Nat.add_right_comm k 1 i, Nat.add_assoc k i 1]
    · -- the counter is invalid: this call and every later one fail
      have hkL : k = 256 ^ L := by omega
      rw [if_neg hlt]
      dsimp only
      rw [run_sealStep aead s hL calls k hk, hkL, Nat.sub_self]
      simp only [List.take_zero, List.mapIdx_nil, List.nil_append]

/-- `Encrypt` on `aes128gcm` is `sealNext` on its out-counter. -/
theorem aes128gcm.encryptStep_eq (aead : AEAD) (st : aes128gcm) (call : Bytes × Bytes) :
    aes128gcm.encryptStep aead st call =
      ((sealStep aead st.outCounter call).1,
        { st with outCounter := (sealStep aead st.outCounter call).2 }) := by
  unfold aes128gcm.encryptStep sealStep aes128gcm.Encrypt
  cases sealNext aead st.outCounter call.1 call.2 with
  | error err => rfl
  | ok r => rfl

/-- `Encrypt` on `aes128gcmRekey` is `sealNext` on its out-counter. -/
theorem aes128gcmRekey.encryptStep_eq (outAEAD : AEAD) (st : aes128gcmRekey)
    (call : Bytes × Bytes) :
    aes128gcmRekey.encryptStep outAEAD st call =
      ((sealStep outAEAD st.outCounter call).1,
        { st with outCounter := (sealStep outAEAD st.outCounter call).2 }) := by
  unfold aes128gcmRekey.encryptStep sealStep aes128gcmRekey.Encrypt
  cases sealNext outAEAD st.outCounter call.1 call.2 with
  | error err => rfl
  | ok r => rfl

/-- A run of `Encrypt` calls on `aes128gcm` outputs what the same calls on its out-counter
do. -/
theorem aes128gcm.run_encryptStep (aead : AEAD) :
    ∀ (st : aes128gcm) (calls : List (Bytes × Bytes)),
      (run (aes128gcm.encryptStep aead) st calls).1 = (run (sealStep aead) st.outCounter calls).1
  | _, [] => rfl
  | st, call :: calls => by
    rw [run_cons, run_cons, aes128gcm.encryptStep_eq, aes128gcm.run_encryptStep aead _ calls]

/-- A run of `Encrypt` calls on `aes128gcmRekey` outputs what the same calls on its out-counter
do. -/
theorem aes128gcmRekey.run_encryptStep (outAEAD : AEAD) :
    ∀ (st : aes128gcmRekey) (calls : List (Bytes × Bytes)),
      (run (aes128gcmRekey.encryptStep outAEAD) st calls).1 =
        (run (sealStep outAEAD) st.outCounter calls).1
  | _, [] => rfl
  | st, call :: calls => by
    rw [run_cons, run_cons, aes128gcmRekey.encryptStep_eq,
      aes128gcmRekey.run_encryptStep outAEAD _ calls]

/-- **ALTS record nonces.**  For every `overflowLen` `L ≤ 11`: after `k` calls of `Inc`, a side's
out-counter's `Value()` succeeds exactly when `k < 256 ^ L`, with the twelve little-endian bytes
of `k` plus the server's high bit; no two successful values of the two sides' out-counters are
equal; an invalid counter stays invalid; a side's in-counter agrees with its peer's out-counter
after every number of calls; and a run of `Encrypt` calls on `aes128gcm` or `aes128gcmRekey`
seals its `i`-th call with nonce `i` for the first `256 ^ L` calls and fails on every later one,
so no nonce is sealed with twice. -/
theorem alts_counter_nonces :
    (∀ (s : Side) (L k : Nat), L ≤ 11 →
      (Inc^[k] (NewOutCounter s L)).Value =
        if k < 256 ^ L then .ok (leBytes counterLen (k + sideBit s))
        else .error errInvalidCounter) ∧
    (∀ (s s' : Side) (L L' k k' : Nat) (v : Bytes), L ≤ 11 → L' ≤ 11 →
      (Inc^[k] (NewOutCounter s L)).Value = .ok v →
      (Inc^[k'] (NewOutCounter s' L')).Value = .ok v → s = s' ∧ k = k') ∧
    (∀ (c : Counter) (n : Nat), c.invalid = true →
      (Inc^[n] c).Value = .error errInvalidCounter) ∧
    (∀ (s s' : Side) (L k : Nat), s ≠ s' →
      (Inc^[k] (NewInCounter s L)).Value = (Inc^[k] (NewOutCounter s' L)).Value) ∧
    (∀ (aead : AEAD) (side : Side) (calls : List (Bytes × Bytes)),
      (run (aes128gcm.encryptStep aead) (NewAES128GCM side) calls).1 =
        (calls.take (256 ^ overflowLenAES128GCM)).mapIdx fun i call =>
          aead.Seal call.1 (leBytes counterLen (i + sideBit side)) call.2) ∧
    (∀ (outAEAD : AEAD) (side : Side) (calls : List (Bytes × Bytes)),
      (run (aes128gcmRekey.encryptStep outAEAD) (NewAES128GCMRekey side) calls).1 =
        (calls.take (256 ^ overflowLenAES128GCMRekey)).mapIdx fun i call =>
          outAEAD.Seal call.1 (leBytes counterLen (i + sideBit side)) call.2) := by
  refine ⟨fun s L k hL => Value_iterate_Inc_NewOutCounter s hL k,
    fun s s' L L' k k' v hL hL' h h' => Value_iterate_Inc_NewOutCounter_inj hL hL' h h',
    fun c n h => by rw [iterate_Inc_of_invalid h, Value_of_invalid h],
    fun s s' L k h => by rw [NewInCounter_eq_NewOutCounter h], ?_, ?_⟩
  · intro aead side calls
    have hrun := run_sealStep aead side (show overflowLenAES128GCM ≤ 11 by decide) calls 0
      (Nat.zero_le _)
    rw [aes128gcm.run_encryptStep]
    simpa only [NewAES128GCM, Function.iterate_zero_apply, Nat.zero_add, Nat.sub_zero] using hrun
  · intro outAEAD side calls
    have hrun := run_sealStep outAEAD side (show overflowLenAES128GCMRekey ≤ 11 by decide) calls 0
      (Nat.zero_le _)
    rw [aes128gcmRekey.run_encryptStep]
    simpa only [NewAES128GCMRekey, Function.iterate_zero_apply, Nat.zero_add, Nat.sub_zero]
      using hrun

end Alts
end GrpcGo
