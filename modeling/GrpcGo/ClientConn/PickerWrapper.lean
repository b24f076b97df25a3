import GrpcGo.Lib.GoChan
import GrpcGo.Lib.Machine
import GrpcGo.Status

/-!
# The picker wrapper (`picker_wrapper.go`)

A `ClientConn` keeps the balancer's current picker in a `pickerWrapper`.  Every RPC calls `pick`,
which loops: under `pw.mu` it returns `ErrClientConnClosing` after `close`; with no picker, or when
it has already called `Pick` on the current one, it blocks on `blockingCh` (or on its context);
otherwise it reads `blockingCh` and the picker, and calls `Pick` outside the lock.  An error
`ErrNoSubConnAvailable`, a SubConn that is not ready or not an `acBalancerWrapper`, and any other
error of a wait-for-ready RPC send it round the loop again; a status error, an error of a
fail-fast RPC and a ready transport end it.  `updatePicker` stores a new picker, closes
`blockingCh` to wake every blocked `pick`, and makes a new one; `close` closes it for good.

The model is a machine whose events are the atomic sections of these goroutines: a new call of
`pick`, the next step of the `i`-th call (its loop head under the lock, a case of its select, the
return of its `Pick`, with what `Pick` returned chosen by the environment), `updatePicker` and
`close`.  A list of events is any interleaving.  A step a goroutine cannot take (a receive on a
channel not yet closed, an event of a call that is elsewhere) changes nothing.  The channels the
wrapper makes are `GoStd.Chans`; closing a closed one panics, which ends the run.  The outputs
are the `Pick` calls, each with the channel read with the picker, and the returns of `pick`.

* `pickerWrapper_channels`: no run panics; the current `blockingCh` is closed exactly after
  `close`, every earlier one is closed, and every blocked call waits on a closed channel or on the
  current one;
* `blocked_pick_woken`: a blocked call is back at its loop head once the next `updatePicker` or
  `close` has run and its select receives;
* `pick_once_per_picker`: each call of `pick` calls `Pick` on pickers read with strictly
  increasing channels, so at most once for each `updatePicker`, and each `Pick` call is on the
  picker that `updatePicker` stored with that channel;
* `close_ends_picks`: after `close` no `Pick` call starts, and every call of `pick` has returned
  after one receive, one return of its `Pick` and one pass of its loop head; one that was not in
  `Pick` returns `ErrClientConnClosing`.

The callback `Done` of a `PickResult`, the channelz counters of `doneChannelzWrapper` and the
logging are not modelled.
-/

namespace GrpcGo
namespace PickerWrapper

open GoStd Machine

/-- `ErrClientConnClosing`. -/
def ErrClientConnClosing : Status := ⟨.canceled, "grpc: the client connection is closing"⟩

/-- What `p.Pick(info)` gives, as `pick` tells the cases apart: the error
`balancer.ErrNoSubConnAvailable` (compared by identity), another error, a SubConn that is not an
`*acBalancerWrapper`, or one whose `addrConn`'s `getReadyTransport()` gives `t` (`none` for nil). -/
inductive pickOutcome (τ : Type)
  | errNoSubConnAvailable
  | err (e : GoError)
  | notAcBalancerWrapper
  | subConn (t : Option τ)
  deriving DecidableEq, Repr

/-- Where a call of `pick` is: at the head of its loop, before `pw.mu.Lock()`; blocked in the
select on `ctx.Done()` and `ch`; in `p.Pick(info)` on the picker `p` it read; or returned, with
the transport or the status error. -/
inductive pickAt (π τ : Type)
  | loop
  | blocked
  | picking (p : π)
  | returned (r : Except Status τ)

/-- A call of `pick`: its `failfast`, its locals `ch` (`none` for nil, or the number of a channel)
and `lastPickErr`, and where it is. -/
structure pickCall (π τ : Type) where
  failfast : Bool
  ch : Option ℕ
  lastPickErr : Option GoError
  pc : pickAt π τ

/-- The fields of `pickerWrapper`: `done`, `blockingCh` by its number, and `picker` (`none` for
nil). -/
structure pickerWrapper (π : Type) where
  done : Bool
  blockingCh : ℕ
  picker : Option π

/-- What a run shows: a `Pick` call of call `i` on the picker `p`, read with the channel `gen`;
and a return of call `i`. -/
inductive pwOutput (π τ : Type)
  | pickCalled (i gen : ℕ) (p : π)
  | returned (i : ℕ) (r : Except Status τ)

/-- The events: a new call of `pick`; the next step of call `i` (its loop head under `pw.mu`, the
select's receive on `ch`, the select's `ctx.Done()` with a `DeadlineExceeded` or a `Canceled`
context, the return of its `Pick`); `updatePicker`; `close`. -/
inductive pwEvent (π τ : Type)
  | pick (failfast : Bool)
  | lock (i : ℕ)
  | recv (i : ℕ)
  | ctxDone (i : ℕ) (deadline : Bool)
  | pickDone (i : ℕ) (r : pickOutcome τ)
  | updatePicker (p : π)
  | close

variable {π τ : Type}

/-- `newPickerWrapper()`, with the channels made so far: its `blockingCh` is the first. -/
def newPickerWrapper : pickerWrapper π × Chans :=
  (⟨false, Chans.empty.make.1, none⟩, Chans.empty.make.2)

namespace pickerWrapper

/-- `updatePicker(p)`: after `close` nothing changes; otherwise `p` is stored, `blockingCh` is
closed, waking the blocked calls, and a new one made. -/
def updatePicker (pw : pickerWrapper π) (chans : Chans) (p : π) :
    Except Failure (pickerWrapper π × Chans) :=
  if pw.done then .ok (pw, chans)
  else (chans.close (some pw.blockingCh)).map fun chans =>
    ({ pw with picker := some p, blockingCh := chans.make.1 }, chans.make.2)

/-- `close()`: `done` is set and `blockingCh` closed, the first time. -/
def close (pw : pickerWrapper π) (chans : Chans) : Except Failure (pickerWrapper π × Chans) :=
  if pw.done then .ok (pw, chans)
  else (chans.close (some pw.blockingCh)).map fun chans => ({ pw with done := true }, chans)

/-- The head of `pick`'s loop, under `pw.mu`, for a call that is there. -/
def lockPass (pw : pickerWrapper π) (c : pickCall π τ) : Option (pickCall π τ) :=
  match c.pc with
  | .loop =>
    if pw.done then some { c with pc := .returned (.error ErrClientConnClosing) }
    else
      match pw.picker with
      -- `ch = pw.blockingCh`, so the branch that waits is taken
      | none => some { c with ch := some pw.blockingCh, pc := .blocked }
      | some p =>
        -- `Pick` was called on this picker already
        if c.ch = some pw.blockingCh then some { c with pc := .blocked }
        else some { c with ch := some pw.blockingCh, pc := .picking p }
  | _ => none

end pickerWrapper

namespace pickCall

/-- A call of `pick` as it starts. -/
def new (failfast : Bool) : pickCall π τ := ⟨failfast, none, none, .loop⟩

/-- The select's `<-ch`: a blocked call receives once its channel is closed.  Nothing is ever
sent on `blockingCh`, so on an open channel (or nil) the call stays blocked. -/
def recv (chans : Chans) (c : pickCall π τ) : Option (pickCall π τ) :=
  match c.pc, c.ch with
  | .blocked, some k => if chans.IsClosed k then some { c with pc := .loop } else none
  | _, _ => none

/-- The select's `<-ctx.Done()`, where `ctx.Err()` is `DeadlineExceeded` or `Canceled`: the call
returns a status error with that code, whose message is the last error of the picker if there
was one. -/
def ctxDone (deadline : Bool) (c : pickCall π τ) : Option (pickCall π τ) :=
  match c.pc with
  | .blocked =>
    let errStr := match c.lastPickErr with
      | some e => "latest balancer error: " ++ e.Error
      | none => if deadline then "context deadline exceeded" else "context canceled"
    some { c with
      pc := .returned (.error ⟨if deadline then .deadlineExceeded else .canceled, errStr⟩) }
  | _ => none

/-- What `pick` does with what `Pick` returned. -/
def pickDone (r : pickOutcome τ) (c : pickCall π τ) : Option (pickCall π τ) :=
  match c.pc with
  | .picking _ =>
    some <| match r with
    | .errNoSubConnAvailable => { c with pc := .loop }
    -- a status error ends the RPC with that status
    | .err (.status s) => { c with pc := .returned (.error s) }
    | .err (.text s) =>
      if !c.failfast then { c with lastPickErr := some (.text s), pc := .loop }
      else { c with pc := .returned (.error ⟨.unavailable, (GoError.text s).Error⟩) }
    | .notAcBalancerWrapper => { c with pc := .loop }
    | .subConn (some t) => { c with pc := .returned (.ok t) }
    -- not ready: `Done` is called with an empty `DoneInfo`, and the loop goes round
    | .subConn none => { c with pc := .loop }
  | _ => none

/-- What call `i` shows as it moves to `c`: its `Pick` call on a picker read with the channel
`gen`, or its return. -/
def announce (i gen : ℕ) (c : pickCall π τ) : List (pwOutput π τ) :=
  match c.pc with
  | .picking p => [.pickCalled i gen p]
  | .returned r => [.returned i r]
  | _ => []

end pickCall

/-- The wrapper, the channels made so far, and the calls of `pick`, by the order they started
in. -/
structure world (π τ : Type) where
  pw : pickerWrapper π
  chans : Chans
  calls : List (pickCall π τ)

namespace world

/-- A new wrapper, with no call of `pick`. -/
def new : world π τ :=
  ⟨(newPickerWrapper : pickerWrapper π × Chans).1, (newPickerWrapper : pickerWrapper π × Chans).2, []⟩

/-- Call `i` takes the step `f`, if it can; nothing else changes. -/
def advance (w : world π τ) (i : ℕ) (f : pickCall π τ → Option (pickCall π τ)) :
    List (pwOutput π τ) × world π τ :=
  match w.calls[i]?.bind f with
  | some c => (c.announce i w.pw.blockingCh, { w with calls := w.calls.set i c })
  | none => ([], w)

/-- A method of the wrapper, on the wrapper and the channels. -/
def call (w : world π τ) (r : Except Failure (pickerWrapper π × Chans)) :
    Except Failure (world π τ) :=
  r.map fun r => { w with pw := r.1, chans := r.2 }

end world

/-- One event; a panic ends the run. -/
def step : Except Failure (world π τ) → pwEvent π τ →
    List (pwOutput π τ) × Except Failure (world π τ)
  | .error f, _ => ([], .error f)
  | .ok w, .pick failfast => ([], .ok { w with calls := w.calls ++ [pickCall.new failfast] })
  | .ok w, .lock i => let r := w.advance i w.pw.lockPass; (r.1, .ok r.2)
  | .ok w, .recv i => let r := w.advance i (pickCall.recv w.chans); (r.1, .ok r.2)
  | .ok w, .ctxDone i deadline => let r := w.advance i (pickCall.ctxDone deadline); (r.1, .ok r.2)
  | .ok w, .pickDone i r => let r := w.advance i (pickCall.pickDone r); (r.1, .ok r.2)
  | .ok w, .updatePicker p => ([], w.call (w.pw.updatePicker w.chans p))
  | .ok w, .close => ([], w.call (w.pw.close w.chans))

/-! ## What each step does -/

section Steps

variable {pw : pickerWrapper π} {c c' : pickCall π τ}

/-- **The loop head's four outcomes**: after `close` the call returns `ErrClientConnClosing`;
otherwise it blocks on `blockingCh`, or, on a picker whose channel it has not yet had, calls
`Pick` on it. -/
theorem lockPass_cases (h : pw.lockPass c = some c') :
    c.pc = .loop ∧
      (pw.done = true ∧ c' = { c with pc := .returned (.error ErrClientConnClosing) } ∨
        pw.done = false ∧ c' = { c with ch := some pw.blockingCh, pc := .blocked } ∨
        ∃ p, pw.done = false ∧ pw.picker = some p ∧ c.ch ≠ some pw.blockingCh ∧
          c' = { c with ch := some pw.blockingCh, pc := .picking p }) := by
  unfold pickerWrapper.lockPass at h
  split at h
  · rename_i hpc
    refine ⟨hpc, ?_⟩
    by_cases hdone : pw.done = true
    · rw [if_pos hdone] at h
      exact .inl ⟨hdone, (Option.some.inj h).symm⟩
    rw [if_neg hdone] at h
    have hdone' : pw.done = false := Bool.eq_false_iff.mpr hdone
    split at h
    · exact .inr (.inl ⟨hdone', (Option.some.inj h).symm⟩)
    · rename_i p hp
      by_cases hch : c.ch = some pw.blockingCh
      · -- `ch` is already `blockingCh`
        rw [if_pos hch] at h
        refine .inr (.inl ⟨hdone', ?_⟩)
        rw [← Option.some.inj h, ← hch]
      · rw [if_neg hch] at h
        exact .inr (.inr ⟨p, hdone', hp, hch, (Option.some.inj h).symm⟩)
  · cases h

/-- After `close`, the loop head returns `ErrClientConnClosing`. -/
theorem lockPass_of_done (hdone : pw.done = true) (hpc : c.pc = .loop) :
    pw.lockPass c = some { c with pc := .returned (.error ErrClientConnClosing) } := by
  simp [pickerWrapper.lockPass, hpc, hdone]

/-- A step that leaves `ch` as it is and the call at its loop head or returned. -/
def Keeps (f : pickCall π τ → Option (pickCall π τ)) : Prop :=
  ∀ c c', f c = some c' → c'.ch = c.ch ∧ (c'.pc = .loop ∨ ∃ r, c'.pc = .returned r)

theorem recv_eq_some {chans : Chans} (h : pickCall.recv chans c = some c') :
    c.pc = .blocked ∧ c' = { c with pc := .loop } := by
  unfold pickCall.recv at h
  split at h
  · rename_i hpc _
    split_ifs at h
    exact ⟨hpc, (Option.some.inj h).symm⟩
  · cases h

/-- A blocked call receives from its channel once it is closed. -/
theorem recv_of_closed {chans : Chans} {k : ℕ} (hpc : c.pc = .blocked) (hch : c.ch = some k)
    (hk : chans.IsClosed k) : pickCall.recv chans c = some { c with pc := .loop } := by
  simp [pickCall.recv, hpc, hch, hk]

theorem keeps_recv (chans : Chans) :
    Keeps (pickCall.recv chans : pickCall π τ → Option (pickCall π τ)) := by
  intro c c' h
  obtain ⟨-, rfl⟩ := recv_eq_some h
  exact ⟨rfl, .inl rfl⟩

theorem keeps_ctxDone (deadline : Bool) :
    Keeps (pickCall.ctxDone deadline : pickCall π τ → Option (pickCall π τ)) := by
  intro c c' h
  unfold pickCall.ctxDone at h
  split at h
  · cases h
    exact ⟨rfl, .inr ⟨_, rfl⟩⟩
  · cases h

/-- The return of `Pick` sends the call round its loop or returns it. -/
theorem keeps_pickDone (r : pickOutcome τ) :
    Keeps (pickCall.pickDone r : pickCall π τ → Option (pickCall π τ)) := by
  intro c c' h
  unfold pickCall.pickDone at h
  split at h
  · cases h
    cases r with
    | err e =>
      cases e with
      | status s => exact ⟨rfl, .inr ⟨_, rfl⟩⟩
      | text s =>
        dsimp only
        split_ifs
        · exact ⟨rfl, .inl rfl⟩
        · exact ⟨rfl, .inr ⟨_, rfl⟩⟩
    | subConn t =>
      cases t
      · exact ⟨rfl, .inl rfl⟩
      · exact ⟨rfl, .inr ⟨_, rfl⟩⟩
    | errNoSubConnAvailable => exact ⟨rfl, .inl rfl⟩
    | notAcBalancerWrapper => exact ⟨rfl, .inl rfl⟩
  · cases h

/-- A call elsewhere does not take the loop head's step. -/
theorem lockPass_eq_none (hc : c.pc ≠ .loop) : pw.lockPass c = none := by
  unfold pickerWrapper.lockPass
  split
  · contradiction
  · rfl

theorem recv_eq_none {chans : Chans} (hc : c.pc ≠ .blocked) : pickCall.recv chans c = none := by
  unfold pickCall.recv
  split
  · contradiction
  · rfl

theorem pickDone_eq_none {r : pickOutcome τ} (hc : ∀ p, c.pc ≠ .picking p) :
    pickCall.pickDone r c = none := by
  unfold pickCall.pickDone
  split
  · rename_i p hp
    exact absurd hp (hc p)
  · rfl

/-- A call that is not in `Pick` shows no `Pick` call. -/
theorem not_mem_announce (hc : ∀ p, c.pc ≠ .picking p) (i gen j g : ℕ) (p : π) :
    pwOutput.pickCalled j g p ∉ c.announce i gen := by
  unfold pickCall.announce
  split
  · rename_i q hq
    exact absurd hq (hc q)
  · simp
  · simp

namespace world

variable {w : world π τ} {i : ℕ} {f : pickCall π τ → Option (pickCall π τ)}

/-- **What one step of call `i` does**: nothing, or call `i` moves from `c` to `c'`, showing
it. -/
theorem advance_cases (w : world π τ) (i : ℕ) (f : pickCall π τ → Option (pickCall π τ)) :
    w.advance i f = ([], w) ∨
      ∃ c c', w.calls[i]? = some c ∧ f c = some c' ∧
        w.advance i f = (c'.announce i w.pw.blockingCh, { w with calls := w.calls.set i c' }) := by
  unfold advance
  split
  · rename_i c' hc
    obtain ⟨c, hc, hf⟩ := Option.bind_eq_some_iff.mp hc
    exact .inr ⟨c, c', hc, hf, rfl⟩
  · exact .inl rfl

@[simp] theorem advance_pw : (w.advance i f).2.pw = w.pw := by
  rcases advance_cases w i f with h | ⟨_, _, _, _, h⟩ <;> rw [h]

@[simp] theorem advance_chans : (w.advance i f).2.chans = w.chans := by
  rcases advance_cases w i f with h | ⟨_, _, _, _, h⟩ <;> rw [h]

theorem advance_calls_self :
    (w.advance i f).2.calls[i]? = w.calls[i]?.map fun c => (f c).getD c := by
  unfold advance
  cases hc : w.calls[i]? with
  | none => simp [hc]
  | some c =>
    cases hf : f c with
    | none => simp [hc, hf]
    | some c' => simp [hf, List.getElem?_set_self (List.getElem?_eq_some_iff.mp hc).1]

theorem advance_calls_ne {j : ℕ} (hj : j ≠ i) : (w.advance i f).2.calls[j]? = w.calls[j]? := by
  rcases advance_cases w i f with h | ⟨_, _, _, _, h⟩
  · rw [h]
  · rw [h]
    exact List.getElem?_set_ne (Ne.symm hj)

/-- A step that never leaves a call in `Pick` shows no `Pick` call. -/
theorem not_mem_advance (hf : ∀ c c', f c = some c' → ∀ p, c'.pc ≠ .picking p)
    (j g : ℕ) (p : π) : pwOutput.pickCalled j g p ∉ (w.advance i f).1 := by
  rcases advance_cases w i f with h | ⟨c, c', -, hfc, h⟩
  · rw [h]
    exact List.not_mem_nil
  · rw [h]
    exact not_mem_announce (hf c c' hfc) i _ j g p

end world

end Steps

/-! ## The channels -/

/-- What the invariant asks of a call: its channel is one the wrapper made, up to the current
one, and a blocked call has one. -/
structure CallInv (pw : pickerWrapper π) (c : pickCall π τ) : Prop where
  ch_le : ∀ k, c.ch = some k → k ≤ pw.blockingCh
  blocked_ch : c.pc = .blocked → c.ch ≠ none

/-- The wrapper's channels: `blockingCh` is the last made; every earlier one is closed; it is
open until `close` and closed after; there is no picker while it is the first; and the calls keep
`CallInv`. -/
structure Inv (w : world π τ) : Prop where
  made : w.chans.closed.length = w.pw.blockingCh + 1
  others_closed : ∀ k < w.pw.blockingCh, w.chans.IsClosed k
  current_open : w.pw.done = false → w.chans.IsOpen w.pw.blockingCh
  current_closed : w.pw.done = true → w.chans.IsClosed w.pw.blockingCh
  no_picker : w.pw.blockingCh = 0 → w.pw.picker = none
  calls : ∀ c ∈ w.calls, CallInv w.pw c

section Invariant

variable {pw : pickerWrapper π} {c c' : pickCall π τ} {w : world π τ}

theorem CallInv.keep (h : CallInv pw c) (hch : c'.ch = c.ch)
    (hpc : c'.pc = .loop ∨ ∃ r, c'.pc = .returned r) : CallInv pw c' where
  ch_le k hk := h.ch_le k (hch ▸ hk)
  blocked_ch hb := by rcases hpc with hpc | ⟨r, hpc⟩ <;> rw [hpc] at hb <;> cases hb

theorem CallInv.lockPass (h : CallInv pw c) (hl : pw.lockPass c = some c') : CallInv pw c' := by
  obtain ⟨-, ⟨-, rfl⟩ | ⟨-, rfl⟩ | ⟨p, -, -, -, rfl⟩⟩ := lockPass_cases hl
  · exact h.keep rfl (.inr ⟨_, rfl⟩)
  all_goals exact ⟨fun k hk => (Option.some.inj hk).ge, fun _ => nofun⟩

/-- A channel number no later than the current one stays so when the wrapper moves on. -/
theorem CallInv.mono {pw' : pickerWrapper π} (h : CallInv pw c)
    (hle : pw.blockingCh ≤ pw'.blockingCh) : CallInv pw' c :=
  ⟨fun k hk => (h.ch_le k hk).trans hle, h.blocked_ch⟩

theorem inv_new : Inv (world.new : world π τ) where
  made := rfl
  others_closed _ h := absurd h (Nat.not_lt_zero _)
  current_open _ := Chans.isOpen_make _
  current_closed h := nomatch h
  no_picker _ := rfl
  calls _ h := nomatch h

/-- After `close` every channel made is closed. -/
theorem Inv.closed_of_done (h : Inv w) (hdone : w.pw.done = true) :
    ∀ k ≤ w.pw.blockingCh, w.chans.IsClosed k := by
  intro k hk
  rcases Nat.lt_or_eq_of_le hk with hlt | rfl
  · exact h.others_closed k hlt
  · exact h.current_closed hdone

theorem Inv.advance (h : Inv w) (i : ℕ) {f : pickCall π τ → Option (pickCall π τ)}
    (hf : ∀ c ∈ w.calls, ∀ c', f c = some c' → CallInv w.pw c') : Inv (w.advance i f).2 := by
  rcases world.advance_cases w i f with heq | ⟨c, c', hc, hfc, heq⟩
  · rw [heq]
    exact h
  · rw [heq]
    refine ⟨h.made, h.others_closed, h.current_open, h.current_closed, h.no_picker, ?_⟩
    intro d hd
    rcases List.mem_or_eq_of_mem_set hd with hd | rfl
    · exact h.calls d hd
    · exact hf c (List.mem_of_getElem? hc) d hfc

theorem Inv.advance_keeps (h : Inv w) (i : ℕ) {f : pickCall π τ → Option (pickCall π τ)}
    (hf : Keeps f) : Inv (w.advance i f).2 :=
  h.advance i fun c hc c' hfc =>
    (h.calls c hc).keep (hf c c' hfc).1 (hf c c' hfc).2

/-- **Closing `blockingCh` does not panic**: before `close` it is open, and once it is closed
every channel made is. -/
theorem Inv.closeBlocking (h : Inv w) (hdone : w.pw.done = false) :
    ∃ chans, w.chans.close (some w.pw.blockingCh) = .ok chans ∧
      chans.closed.length = w.pw.blockingCh + 1 ∧ ∀ k ≤ w.pw.blockingCh, chans.IsClosed k := by
  obtain ⟨chans, hclose, hlen, hclosed, hsame⟩ := Chans.close_of_isOpen (h.current_open hdone)
  refine ⟨chans, hclose, hlen.trans h.made, fun k hk => ?_⟩
  rcases Nat.lt_or_eq_of_le hk with hlt | rfl
  · unfold Chans.IsClosed
    rw [hsame k (Nat.ne_of_lt hlt)]
    exact h.others_closed k hlt
  · exact hclosed

/-- **`updatePicker` keeps the invariant**: before `close` it stores the picker and moves to a new
open channel, every earlier one closed; after, it changes nothing. -/
theorem Inv.updatePicker (h : Inv w) (p : π) :
    ∃ w', w.call (w.pw.updatePicker w.chans p) = .ok w' ∧ Inv w' ∧ w'.calls = w.calls ∧
      (∀ k ≤ w.pw.blockingCh, w'.chans.IsClosed k) ∧
      (w.pw.done = true → w'.pw = w.pw) ∧
      (w.pw.done = false → w'.pw = ⟨false, w.pw.blockingCh + 1, some p⟩) := by
  cases hdone : w.pw.done
  · obtain ⟨chans, hclose, hlen, hclosed⟩ := h.closeBlocking hdone
    have hnd : ¬w.pw.done = true := by simp [hdone]
    have hpw : ({ w.pw with picker := some p, blockingCh := chans.make.1 } : pickerWrapper π) =
        ⟨false, w.pw.blockingCh + 1, some p⟩ := by
      rw [Chans.make_fst, hlen, ← hdone]
    refine ⟨{ w with pw := ⟨false, w.pw.blockingCh + 1, some p⟩, chans := chans.make.2 }, ?_,
      ⟨?_, ?_, fun _ => hlen ▸ Chans.isOpen_make chans, nofun,
        fun h0 => absurd h0 (Nat.succ_ne_zero _), fun c hc => (h.calls c hc).mono (Nat.le_succ _)⟩,
      rfl, ?_, nofun, fun _ => rfl⟩
    · unfold world.call pickerWrapper.updatePicker
      rw [if_neg hnd, hclose, ← hpw]
      rfl
    · simp [hlen]
    · intro k hk
      exact (hclosed k (Nat.le_of_lt_succ hk)).make
    · intro k hk
      exact (hclosed k hk).make
  · refine ⟨w, ?_, h, rfl, h.closed_of_done hdone, fun _ => rfl, nofun⟩
    unfold world.call pickerWrapper.updatePicker
    rw [if_pos hdone]
    rfl

/-- **`close` keeps the invariant**: the first one closes `blockingCh`, the others change
nothing; after it every channel made is closed. -/
theorem Inv.close (h : Inv w) :
    ∃ w', w.call (w.pw.close w.chans) = .ok w' ∧ Inv w' ∧ w'.calls = w.calls ∧
      (∀ k ≤ w.pw.blockingCh, w'.chans.IsClosed k) ∧ w'.pw = { w.pw with done := true } := by
  cases hdone : w.pw.done
  · obtain ⟨chans, hclose, hlen, hclosed⟩ := h.closeBlocking hdone
    have hnd : ¬w.pw.done = true := by simp [hdone]
    refine ⟨{ w with pw := { w.pw with done := true }, chans := chans }, ?_,
      ⟨hlen, fun k hk => hclosed k hk.le, nofun, fun _ => hclosed _ le_rfl, h.no_picker,
        fun c hc => (h.calls c hc).mono le_rfl⟩, rfl, hclosed, rfl⟩
    unfold world.call pickerWrapper.close
    rw [if_neg hnd, hclose]
    rfl
  · refine ⟨w, ?_, h, rfl, h.closed_of_done hdone, ?_⟩
    · unfold world.call pickerWrapper.close
      rw [if_pos hdone]
      rfl
    · rw [← hdone]

/-- **Each event keeps the invariant, and none panics.** -/
theorem inv_step (w : world π τ) (h : Inv w) (e : pwEvent π τ) :
    ∃ w', (step (.ok w) e).2 = .ok w' ∧ Inv w' := by
  cases e with
  | pick failfast =>
    refine ⟨_, rfl, ⟨h.made, h.others_closed, h.current_open, h.current_closed, h.no_picker, ?_⟩⟩
    intro c hc
    rcases List.mem_append.mp hc with hc | hc
    · exact h.calls c hc
    · rw [List.mem_singleton.mp hc]
      exact ⟨nofun, nofun⟩
  | lock i => exact ⟨_, rfl, h.advance i fun c hc c' hl => (h.calls c hc).lockPass hl⟩
  | recv i => exact ⟨_, rfl, h.advance_keeps i (keeps_recv _)⟩
  | ctxDone i deadline => exact ⟨_, rfl, h.advance_keeps i (keeps_ctxDone deadline)⟩
  | pickDone i r => exact ⟨_, rfl, h.advance_keeps i (keeps_pickDone r)⟩
  | updatePicker p =>
    obtain ⟨w', hw', h', -⟩ := h.updatePicker p
    exact ⟨w', hw', h'⟩
  | close =>
    obtain ⟨w', hw', h', -⟩ := h.close
    exact ⟨w', hw', h'⟩

theorem inv_invariant :
    Invariant (fun _ _ => True) step (fun s : Except Failure (world π τ) =>
      ∃ w, s = .ok w ∧ Inv w) := by
  rintro _ e ⟨w, rfl, h⟩ -
  exact inv_step w h e

/-- The invariant holds after every run. -/
theorem inv_run (es : List (pwEvent π τ)) :
    ∃ w, (run step (.ok world.new) es).2 = .ok w ∧ Inv w :=
  inv_invariant.run ⟨_, rfl, inv_new⟩ (admits_of_forall (fun _ _ => trivial) _ es)

end Invariant

/-! ## Wake-ups -/

section Wake

variable {w : world π τ} {c : pickCall π τ}

/-- A blocked call waits on a channel the wrapper made, no later than the current one. -/
theorem Inv.blocked_ch (h : Inv w) (hc : c ∈ w.calls) (hb : c.pc = .blocked) :
    ∃ k, c.ch = some k ∧ k ≤ w.pw.blockingCh := by
  obtain ⟨k, hk⟩ := Option.ne_none_iff_exists'.mp ((h.calls c hc).blocked_ch hb)
  exact ⟨k, hk, (h.calls c hc).ch_le k hk⟩

/-- **The wrapper's channels.**  Over every interleaving of calls of `pick`, `updatePicker` and
`close` on a new wrapper, no `close` of a channel panics; the channels made are those up to
`blockingCh`; every channel `updatePicker` replaced is closed; `blockingCh` is closed exactly once
`close` has run; and every blocked call of `pick` waits on a closed channel, or on the current
`blockingCh` before `close`, which the next `updatePicker` or `close` closes. -/
theorem pickerWrapper_channels (es : List (pwEvent π τ)) :
    ∃ w, (run step (.ok world.new) es).2 = .ok w ∧
      w.chans.closed.length = w.pw.blockingCh + 1 ∧
      (∀ k < w.pw.blockingCh, w.chans.IsClosed k) ∧
      (w.chans.IsClosed w.pw.blockingCh ↔ w.pw.done = true) ∧
      ∀ c ∈ w.calls, c.pc = .blocked →
        ∃ k, c.ch = some k ∧ (w.chans.IsClosed k ∨ k = w.pw.blockingCh ∧ w.pw.done = false) := by
  obtain ⟨w, hw, h⟩ := inv_run es
  refine ⟨w, hw, h.made, h.others_closed, ⟨fun hc => ?_, h.current_closed⟩, fun c hc hb => ?_⟩
  · -- an open channel is not closed
    by_contra hdone
    have ho := h.current_open (Bool.eq_false_iff.mpr hdone)
    unfold Chans.IsOpen at ho
    unfold Chans.IsClosed at hc
    rw [ho] at hc
    cases hc
  · obtain ⟨k, hk, hle⟩ := h.blocked_ch hc hb
    refine ⟨k, hk, ?_⟩
    rcases Nat.lt_or_eq_of_le hle with hlt | rfl
    · exact .inl (h.others_closed k hlt)
    · cases hdone : w.pw.done
      · exact .inr ⟨rfl, rfl⟩
      · exact .inl (h.current_closed hdone)

/-- `updatePicker` and `close` close every channel a call can be blocked on. -/
theorem Inv.wake (h : Inv w) {e : pwEvent π τ} (he : e = .close ∨ ∃ p, e = .updatePicker p) :
    ∃ w', step (.ok w) e = ([], .ok w') ∧ w'.calls = w.calls ∧
      ∀ k ≤ w.pw.blockingCh, w'.chans.IsClosed k := by
  rcases he with rfl | ⟨p, rfl⟩
  · obtain ⟨w', hw', -, hcalls, hclosed, -⟩ := h.close
    exact ⟨w', by rw [← hw']; rfl, hcalls, hclosed⟩
  · obtain ⟨w', hw', -, hcalls, hclosed, -⟩ := h.updatePicker p
    exact ⟨w', by rw [← hw']; rfl, hcalls, hclosed⟩

/-- **No blocked call misses its wake-up.**  A call of `pick` blocked in its select after any
interleaving is back at the head of its loop once the next `updatePicker` or `close` has run and
its select has received from its channel. -/
theorem blocked_pick_woken (es : List (pwEvent π τ)) (e : pwEvent π τ) (i : ℕ)
    (he : e = .close ∨ ∃ p, e = .updatePicker p)
    (hblocked : ∃ w c, (run step (.ok world.new) es).2 = .ok w ∧ w.calls[i]? = some c ∧
      c.pc = .blocked) :
    ∃ w c, (run step (.ok world.new) (es ++ [e, .recv i])).2 = .ok w ∧ w.calls[i]? = some c ∧
      c.pc = .loop := by
  obtain ⟨w, c, hw, hc, hb⟩ := hblocked
  obtain ⟨w₀, hw₀, h⟩ := inv_run es
  rw [hw] at hw₀
  cases hw₀
  obtain ⟨k, hk, hle⟩ := h.blocked_ch (List.mem_of_getElem? hc) hb
  obtain ⟨w', hstep, hcalls, hclosed⟩ := h.wake he
  refine ⟨(w'.advance i (pickCall.recv w'.chans)).2, { c with pc := .loop }, ?_, ?_, rfl⟩
  · rw [run_append, hw, run_cons, hstep, run_cons, run_nil]
    rfl
  · rw [world.advance_calls_self, hcalls, hc, Option.map_some,
      recv_of_closed hb hk (hclosed k hle), Option.getD_some]

/-- A wait-for-ready call that found no picker is woken by the first `updatePicker`. -/
theorem blocked_pick_woken_sample :
    (∃ w c, (run step (.ok (world.new : world ℕ ℕ)) [.pick false, .lock 0]).2 = .ok w ∧
      w.calls[0]? = some c ∧ c.pc = .blocked) ∧
    ∃ w c, (run step (.ok (world.new : world ℕ ℕ))
        ([.pick false, .lock 0] ++ [.updatePicker 7, .recv 0])).2 = .ok w ∧
      w.calls[0]? = some c ∧ c.pc = .loop :=
  ⟨⟨_, _, rfl, rfl, rfl⟩,
    blocked_pick_woken [.pick false, .lock 0] (.updatePicker 7) 0 (.inr ⟨7, rfl⟩)
      ⟨_, _, rfl, rfl, rfl⟩⟩

end Wake

/-! ## After `close` -/

section Close

variable {w : world π τ} {c : pickCall π τ}

/-- After `close` each event keeps the invariant and `done`, and starts no `Pick` call. -/
theorem inv_step_of_done (h : Inv w) (hdone : w.pw.done = true) (e : pwEvent π τ) :
    ∃ w', (step (.ok w) e).2 = .ok w' ∧ Inv w' ∧ w'.pw.done = true ∧
      ∀ j g p, pwOutput.pickCalled j g p ∉ (step (.ok w) e).1 := by
  obtain ⟨w', hw', h'⟩ := inv_step w h e
  -- the events of the calls leave the wrapper as it is; only the two methods need a look
  have hdone' : w'.pw.done = true := by
    cases e with
    | updatePicker p =>
      obtain ⟨w'', hw'', -, -, -, hpw, -⟩ := h.updatePicker p
      rw [show w' = w'' from Except.ok.inj (hw'.symm.trans hw''), hpw hdone, hdone]
    | close =>
      obtain ⟨w'', hw'', -, -, -, hpw⟩ := h.close
      rw [show w' = w'' from Except.ok.inj (hw'.symm.trans hw''), hpw]
    | pick _ => cases hw'; exact hdone
    | lock _ => cases hw'; rw [world.advance_pw, hdone]
    | recv _ => cases hw'; rw [world.advance_pw, hdone]
    | ctxDone _ _ => cases hw'; rw [world.advance_pw, hdone]
    | pickDone _ _ => cases hw'; rw [world.advance_pw, hdone]
  refine ⟨w', hw', h', hdone', fun j g p => ?_⟩
  -- a step of a call ends at its loop head or returned: `lockPass` returns after `close`
  have hkeep : ∀ {f : pickCall π τ → Option (pickCall π τ)}, Keeps f →
      ∀ c c', f c = some c' → ∀ p, c'.pc ≠ .picking p := by
    intro f hf c c' hfc p hp
    rcases (hf c c' hfc).2 with hpc | ⟨r, hpc⟩ <;> rw [hpc] at hp <;> cases hp
  cases e with
  | lock i =>
    refine world.not_mem_advance (fun c c' hl p hp => ?_) j g p
    obtain ⟨-, ⟨-, rfl⟩ | ⟨hd, -⟩ | ⟨_, hd, -⟩⟩ := lockPass_cases hl
    · cases hp
    all_goals rw [hdone] at hd; cases hd
  | recv i => exact world.not_mem_advance (hkeep (keeps_recv _)) j g p
  | ctxDone i deadline => exact world.not_mem_advance (hkeep (keeps_ctxDone deadline)) j g p
  | pickDone i r => exact world.not_mem_advance (hkeep (keeps_pickDone r)) j g p
  | pick _ => exact List.not_mem_nil
  | updatePicker _ => exact List.not_mem_nil
  | close => exact List.not_mem_nil

/-- **`close` ends every pending call**: after one receive, one return of its `Pick` and one pass
of its loop head, a call has returned; one that was at its loop head or blocked returns
`ErrClientConnClosing`. -/
theorem Inv.close_then (h : Inv w) {i : ℕ} (hc : w.calls[i]? = some c) (r : pickOutcome τ) :
    ∃ w' c' res, (run step (.ok w) [.close, .recv i, .pickDone i r, .lock i]).2 = .ok w' ∧
      w'.calls[i]? = some c' ∧ c'.pc = .returned res ∧
      (c.pc = .loop ∨ c.pc = .blocked → res = .error ErrClientConnClosing) := by
  obtain ⟨w₁, hw₁, h₁, hcalls, hclosed, hpw⟩ := h.close
  have hstep : step (.ok w) .close = ([], .ok w₁) := by rw [← hw₁]; rfl
  set w₂ := (w₁.advance i (pickCall.recv w₁.chans)).2
  set w₃ := (w₂.advance i (pickCall.pickDone r)).2
  have hdone : w₃.pw.done = true := by simp [w₃, w₂, hpw]
  -- the call after each of its three steps
  set c₁ := (pickCall.recv w₁.chans c).getD c
  set c₂ := (pickCall.pickDone r c₁).getD c₁
  set c₃ := (w₃.pw.lockPass c₂).getD c₂
  have hc₃ : (w₃.advance i w₃.pw.lockPass).2.calls[i]? = some c₃ := by
    rw [world.advance_calls_self, world.advance_calls_self, world.advance_calls_self, hcalls, hc]
    rfl
  have hrun : (run step (.ok w) [.close, .recv i, .pickDone i r, .lock i]).2 =
      .ok (w₃.advance i w₃.pw.lockPass).2 := by
    rw [run_cons, hstep]
    rfl
  -- at the loop head after `close`, the call returns `ErrClientConnClosing`
  have hloop : ∀ {d : pickCall π τ}, d.pc = .loop →
      ((w₃.pw.lockPass d).getD d).pc = .returned (.error ErrClientConnClosing) := by
    intro d hd
    rw [lockPass_of_done hdone hd]
    rfl
  suffices hres : ∃ res, c₃.pc = .returned res ∧
      (c.pc = .loop ∨ c.pc = .blocked → res = .error ErrClientConnClosing) by
    obtain ⟨res, hres, hclosing⟩ := hres
    exact ⟨_, c₃, res, hrun, hc₃, hres, hclosing⟩
  cases hpc : c.pc with
  | loop =>
    have h₂ : c₂ = c := by simp [c₂, c₁, recv_eq_none, pickDone_eq_none, hpc]
    exact ⟨_, hloop (h₂ ▸ hpc), fun _ => rfl⟩
  | blocked =>
    -- its channel was closed by `close`, so it receives and goes round
    obtain ⟨k, hk, hle⟩ := h.blocked_ch (List.mem_of_getElem? hc) hpc
    have h₁ : c₁ = { c with pc := .loop } := by
      simp only [c₁, recv_of_closed hpc hk (hclosed k hle), Option.getD_some]
    have h₂ : c₂ = c₁ := by simp [c₂, pickDone_eq_none, h₁]
    exact ⟨_, hloop (by rw [h₂, h₁]), fun _ => rfl⟩
  | picking p =>
    have h₁ : c₁ = c := by simp [c₁, recv_eq_none, hpc]
    obtain ⟨c', hc'⟩ : ∃ c', pickCall.pickDone r c = some c' := by
      simp only [pickCall.pickDone, hpc]
      exact ⟨_, rfl⟩
    have h₂ : c₂ = c' := by simp only [c₂, h₁, hc', Option.getD_some]
    -- `Pick` sends it round the loop, or it returns
    rcases (keeps_pickDone r c c' hc').2 with hl | ⟨res, hres⟩
    · exact ⟨_, hloop (h₂ ▸ hl), by rintro (h | h) <;> cases h⟩
    · have h₃ : c₃ = c₂ := by simp [c₃, lockPass_eq_none, h₂, hres]
      exact ⟨res, by rw [h₃, h₂, hres], by rintro (h | h) <;> cases h⟩
  | returned res =>
    have h₃ : c₃ = c := by simp [c₃, c₂, c₁, recv_eq_none, pickDone_eq_none, lockPass_eq_none, hpc]
    exact ⟨res, by rw [h₃, hpc], by rintro (h | h) <;> cases h⟩

/-- **`close` ends the wrapper's work.**  After `close`, whatever interleaving follows, no call of
`pick` calls `Pick` again; and every call of `pick` in flight at `close` has returned after one
receive of its select, one return of its `Pick` and one pass of its loop head, with
`ErrClientConnClosing` if it was not in `Pick`. -/
theorem close_ends_picks (es es' : List (pwEvent π τ)) :
    (∀ j g p, pwOutput.pickCalled j g p ∉
        (run step (run step (.ok world.new) (es ++ [.close])).2 es').1) ∧
    ∀ (i : ℕ) (r : pickOutcome τ) (w : world π τ) (c : pickCall π τ),
      (run step (.ok world.new) es).2 = .ok w → w.calls[i]? = some c →
      ∃ w' c' res,
        (run step (.ok world.new) (es ++ [.close, .recv i, .pickDone i r, .lock i])).2 = .ok w' ∧
        w'.calls[i]? = some c' ∧ c'.pc = .returned res ∧
        (c.pc = .loop ∨ c.pc = .blocked → res = .error ErrClientConnClosing) := by
  obtain ⟨w, hw, h⟩ := inv_run es
  refine ⟨fun j g p => ?_, fun i r w' c hw' hc => ?_⟩
  · obtain ⟨w₁, hw₁, h₁, -, -, hpw⟩ := h.close
    have hstart : (run step (.ok world.new) (es ++ [.close])).2 = .ok w₁ := by
      rw [run_append, hw, run_cons, run_nil, ← hw₁]
      rfl
    -- from the state after `close`, `done` stays set and no step shows a `Pick` call
    have hinv : Invariant (fun _ _ => True) step (fun s : Except Failure (world π τ) =>
        ∃ w, s = .ok w ∧ Inv w ∧ w.pw.done = true) := by
      rintro _ e ⟨w, rfl, h, hdone⟩ -
      obtain ⟨w', hw', h', hdone', -⟩ := inv_step_of_done h hdone e
      exact ⟨w', hw', h', hdone'⟩
    have hout := hinv.outputs (P := fun out _ => ∀ j g p, pwOutput.pickCalled j g p ∉ out)
      (fun out s e hs _ hp j g p hmem => by
        obtain ⟨w, rfl, h, hdone⟩ := hs
        rcases List.mem_append.mp hmem with hmem | hmem
        · exact hp j g p hmem
        · obtain ⟨-, -, -, -, hnone⟩ := inv_step_of_done h hdone e
          exact hnone j g p hmem)
      ⟨w₁, rfl, h₁, by rw [hpw]⟩ (admits_of_forall (fun _ _ => trivial) _ es')
      (fun _ _ _ => List.not_mem_nil : ∀ j g p, pwOutput.pickCalled j g p ∉ ([] : List (pwOutput π τ)))
    rw [hstart]
    simpa using hout j g p
  · rw [hw] at hw'
    cases hw'
    rw [run_append, hw]
    exact h.close_then hc r

/-- A call blocked at `close` returns `ErrClientConnClosing`, whatever its `Pick` would give. -/
theorem close_ends_picks_sample :
    ∃ w c res, (run step (.ok (world.new : world ℕ ℕ)) ([.pick false, .lock 0] ++
        [.close, .recv 0, .pickDone 0 (.subConn (some 3)), .lock 0])).2 = .ok w ∧
      w.calls[0]? = some c ∧ c.pc = .returned res ∧ res = .error ErrClientConnClosing := by
  obtain ⟨w, c, res, hrun, hc, hpc, hres⟩ := (@close_ends_picks ℕ ℕ [.pick false, .lock 0] []).2
    0 (.subConn (some 3)) _ ⟨false, some 0, none, .blocked⟩ rfl rfl
  exact ⟨w, c, res, hrun, hc, hpc, hres (.inr rfl)⟩

end Close

/-! ## Each picker once -/

/-- The picker an `updatePicker` event stores. -/
def pwEvent.installs : pwEvent π τ → Option π
  | .updatePicker p => some p
  | _ => none

/-- The channel read with the picker of a `Pick` call of call `i`. -/
def pwOutput.pickedBy (i : ℕ) : pwOutput π τ → Option ℕ
  | .pickCalled j gen _ => if j = i then some gen else none
  | .returned _ _ => none

/-- What the events and outputs so far say of the wrapper: before `close`, `blockingCh` counts the
`updatePicker` calls, and the picker is the one the last of them stored; every `Pick` call is on
the picker stored with its channel; and the channels of each call's `Pick` calls increase, up to
its `ch`. -/
structure Picks (pre : List (pwEvent π τ)) (out : List (pwOutput π τ)) (w : world π τ) :
    Prop where
  gen_le : w.pw.blockingCh ≤ (pre.filterMap pwEvent.installs).length
  gen_eq : w.pw.done = false → w.pw.blockingCh = (pre.filterMap pwEvent.installs).length
  picker_eq : 0 < w.pw.blockingCh →
    w.pw.picker = (pre.filterMap pwEvent.installs)[w.pw.blockingCh - 1]?
  picked : ∀ i gen p, pwOutput.pickCalled i gen p ∈ out →
    0 < gen ∧ (pre.filterMap pwEvent.installs)[gen - 1]? = some p
  increasing : ∀ i, (out.filterMap (pwOutput.pickedBy i)).Pairwise (· < ·)
  below : ∀ i gen, gen ∈ out.filterMap (pwOutput.pickedBy i) →
    ∃ c k, w.calls[i]? = some c ∧ c.ch = some k ∧ gen ≤ k

section Picks

variable {w : world π τ} {pre : List (pwEvent π τ)} {out : List (pwOutput π τ)}

theorem mem_filterMap_pickedBy {out : List (pwOutput π τ)} {i gen : ℕ} :
    gen ∈ out.filterMap (pwOutput.pickedBy i) ↔ ∃ p, pwOutput.pickCalled i gen p ∈ out := by
  rw [List.mem_filterMap]
  constructor
  · rintro ⟨o, ho, hsome⟩
    cases o with
    | pickCalled j g p =>
      simp only [pwOutput.pickedBy] at hsome
      split_ifs at hsome with hj
      cases hsome
      exact ⟨p, hj ▸ ho⟩
    | returned _ _ => cases hsome
  · rintro ⟨p, hp⟩
    exact ⟨_, hp, by simp [pwOutput.pickedBy]⟩

/-- The events that store no picker leave the pickers stored as they are. -/
theorem installs_snoc {e : pwEvent π τ} (he : e.installs = none) :
    (pre ++ [e]).filterMap pwEvent.installs = pre.filterMap pwEvent.installs := by
  simp [List.filterMap_append, he]

theorem Picks.nil : Picks [] [] (world.new : world π τ) where
  gen_le := le_rfl
  gen_eq _ := rfl
  picker_eq h := absurd h (Nat.lt_irrefl 0)
  picked _ _ _ h := nomatch h
  increasing _ := List.Pairwise.nil
  below _ _ h := nomatch h

theorem Picks.congr_pre {pre' : List (pwEvent π τ)} (hp : Picks pre out w)
    (hpre : pre'.filterMap pwEvent.installs = pre.filterMap pwEvent.installs) :
    Picks pre' out w := by
  obtain ⟨h₁, h₂, h₃, h₄, h₅, h₆⟩ := hp
  exact ⟨hpre ▸ h₁, hpre ▸ h₂, hpre ▸ h₃, hpre ▸ h₄, h₅, h₆⟩

/-- **A step of call `i`** keeps the history when it never lowers the call's channel, and calls
`Pick` only on the current picker, read with `blockingCh`, after a lower channel. -/
theorem Picks.advance (h : Inv w) (hp : Picks pre out w) (i : ℕ)
    {f : pickCall π τ → Option (pickCall π τ)}
    (hf_ch : ∀ c ∈ w.calls, ∀ c', f c = some c' → ∀ k, c.ch = some k →
      ∃ k', c'.ch = some k' ∧ k ≤ k')
    (hf_pick : ∀ c ∈ w.calls, ∀ c' p, f c = some c' → c'.pc = .picking p →
      c'.ch = some w.pw.blockingCh ∧ w.pw.picker = some p ∧
        ∀ k, c.ch = some k → k < w.pw.blockingCh) :
    Picks pre (out ++ (w.advance i f).1) (w.advance i f).2 := by
  rcases world.advance_cases w i f with heq | ⟨c, c', hc, hfc, heq⟩
  · rw [heq, List.append_nil]
    exact hp
  rw [heq]
  -- the earlier channels of call `i` are at most the channel it had
  have hold : ∀ gen ∈ out.filterMap (pwOutput.pickedBy i), ∃ k, c.ch = some k ∧ gen ≤ k := by
    intro gen hgen
    obtain ⟨c₀, k, hc₀, hk, hle⟩ := hp.below i gen hgen
    rw [hc] at hc₀
    cases hc₀
    exact ⟨k, hk, hle⟩
  have hbelow_ne : ∀ j ≠ i, ∀ gen ∈ out.filterMap (pwOutput.pickedBy j),
      ∃ d k, (w.calls.set i c')[j]? = some d ∧ d.ch = some k ∧ gen ≤ k := by
    intro j hj gen hgen
    rw [List.getElem?_set_ne (Ne.symm hj)]
    exact hp.below j gen hgen
  have hset : (w.calls.set i c')[i]? = some c' :=
    List.getElem?_set_self (List.getElem?_eq_some_iff.mp hc).1
  by_cases hpick : ∃ p, c'.pc = .picking p
  · obtain ⟨p, hpc⟩ := hpick
    obtain ⟨hch', hpicker, hlt⟩ := hf_pick c (List.mem_of_getElem? hc) c' p hfc hpc
    have hpos : 0 < w.pw.blockingCh := by
      rcases Nat.eq_zero_or_pos w.pw.blockingCh with h0 | hpos
      · rw [h.no_picker h0] at hpicker
        cases hpicker
      · exact hpos
    have hann : c'.announce i w.pw.blockingCh = [.pickCalled i w.pw.blockingCh p] := by
      simp [pickCall.announce, hpc]
    rw [hann]
    refine ⟨hp.gen_le, hp.gen_eq, hp.picker_eq, fun j gen q hq => ?_, fun j => ?_,
      fun j gen hgen => ?_⟩
    · rcases List.mem_append.mp hq with hq | hq
      · exact hp.picked j gen q hq
      · -- the new call: the picker stored with the current channel
        simp only [List.mem_singleton, pwOutput.pickCalled.injEq] at hq
        obtain ⟨-, rfl, rfl⟩ := hq
        exact ⟨hpos, (hp.picker_eq hpos).symm.trans hpicker⟩
    · rw [List.filterMap_append, List.pairwise_append]
      refine ⟨hp.increasing j, ?_, fun a ha b hb => ?_⟩
      · by_cases hij : i = j <;> simp [pwOutput.pickedBy, hij]
      obtain ⟨q, hq⟩ := mem_filterMap_pickedBy.mp hb
      simp only [List.mem_singleton, pwOutput.pickCalled.injEq] at hq
      obtain ⟨rfl, rfl, -⟩ := hq
      obtain ⟨k, hk, hle⟩ := hold a ha
      exact lt_of_le_of_lt hle (hlt k hk)
    · by_cases hj : j = i
      · subst hj
        refine ⟨c', w.pw.blockingCh, hset, hch', ?_⟩
        rw [List.filterMap_append, List.mem_append] at hgen
        rcases hgen with hgen | hgen
        · obtain ⟨k, hk, hle⟩ := hold gen hgen
          exact hle.trans (hlt k hk).le
        · obtain ⟨q, hq⟩ := mem_filterMap_pickedBy.mp hgen
          simp only [List.mem_singleton, pwOutput.pickCalled.injEq] at hq
          exact hq.2.1 ▸ le_rfl
      · rw [List.filterMap_append, List.mem_append] at hgen
        rcases hgen with hgen | hgen
        · exact hbelow_ne j hj gen hgen
        · obtain ⟨q, hq⟩ := mem_filterMap_pickedBy.mp hgen
          simp only [List.mem_singleton, pwOutput.pickCalled.injEq] at hq
          exact absurd hq.1 hj
  · -- no `Pick` call: only the call's channel moves, upwards
    have hnot : ∀ q, c'.pc ≠ .picking q := fun q hq => hpick ⟨q, hq⟩
    have hnil : ∀ j, (c'.announce i w.pw.blockingCh).filterMap (pwOutput.pickedBy j) = [] :=
      fun j => List.eq_nil_iff_forall_not_mem.mpr fun gen hgen => by
        obtain ⟨q, hq⟩ := mem_filterMap_pickedBy.mp hgen
        exact not_mem_announce hnot i _ j gen q hq
    refine ⟨hp.gen_le, hp.gen_eq, hp.picker_eq, fun j gen q hq => ?_, fun j => ?_,
      fun j gen hgen => ?_⟩
    · rcases List.mem_append.mp hq with hq | hq
      · exact hp.picked j gen q hq
      · exact absurd hq (not_mem_announce hnot i _ j gen q)
    · rw [List.filterMap_append, hnil j, List.append_nil]
      exact hp.increasing j
    · rw [List.filterMap_append, hnil j, List.append_nil] at hgen
      by_cases hj : j = i
      · subst hj
        obtain ⟨k, hk, hle⟩ := hold gen hgen
        obtain ⟨k', hk', hkk⟩ := hf_ch c (List.mem_of_getElem? hc) c' hfc k hk
        exact ⟨c', k', hset, hk', hle.trans hkk⟩
      · exact hbelow_ne j hj gen hgen

/-- The steps that keep a call's channel keep the history. -/
theorem Picks.advance_keeps (h : Inv w) (hp : Picks pre out w) (i : ℕ)
    {f : pickCall π τ → Option (pickCall π τ)} (hf : Keeps f) :
    Picks pre (out ++ (w.advance i f).1) (w.advance i f).2 := by
  refine hp.advance h i (fun c _ c' hfc k hk => ⟨k, (hf c c' hfc).1 ▸ hk, le_rfl⟩) ?_
  intro c _ c' p hfc hpc
  rcases (hf c c' hfc).2 with hl | ⟨r, hr⟩
  · rw [hpc] at hl
    cases hl
  · rw [hpc] at hr
    cases hr

/-- The loop head calls `Pick` only on the current picker, after a lower channel. -/
theorem Picks.advance_lockPass (h : Inv w) (hp : Picks pre out w) (i : ℕ) :
    Picks pre (out ++ (w.advance i w.pw.lockPass).1) (w.advance i w.pw.lockPass).2 := by
  refine hp.advance h i (fun c hc c' hl k hk => ?_) (fun c hc c' p hl hpc => ?_)
  · obtain ⟨-, ⟨-, rfl⟩ | ⟨-, rfl⟩ | ⟨q, -, -, -, rfl⟩⟩ := lockPass_cases hl
    · exact ⟨k, hk, le_rfl⟩
    all_goals exact ⟨w.pw.blockingCh, rfl, (h.calls c hc).ch_le k hk⟩
  · obtain ⟨-, ⟨-, rfl⟩ | ⟨-, rfl⟩ | ⟨q, -, hq, hne, rfl⟩⟩ := lockPass_cases hl
    · cases hpc
    · cases hpc
    · cases hpc
      refine ⟨rfl, hq, fun k hk => lt_of_le_of_ne ((h.calls c hc).ch_le k hk) ?_⟩
      rintro rfl
      exact hne hk

theorem Picks.pick (hp : Picks pre out w) (failfast : Bool) :
    Picks (pre ++ [.pick failfast]) out { w with calls := w.calls ++ [pickCall.new failfast] } := by
  refine Picks.congr_pre ⟨hp.gen_le, hp.gen_eq, hp.picker_eq, hp.picked, hp.increasing,
    fun i gen hgen => ?_⟩ (installs_snoc rfl)
  obtain ⟨c, k, hc, hk, hle⟩ := hp.below i gen hgen
  refine ⟨c, k, ?_, hk, hle⟩
  rw [List.getElem?_append_left (List.getElem?_eq_some_iff.mp hc).1]
  exact hc

/-- **`updatePicker` keeps the history**: before `close` the picker it stores is the one with the
new channel, whose number is the count of `updatePicker` calls; the pickers stored earlier stay
where they were. -/
theorem Picks.updatePicker (hp : Picks pre out w) {p : π} {w' : world π τ}
    (hcalls : w'.calls = w.calls) (hsame : w.pw.done = true → w'.pw = w.pw)
    (hnew : w.pw.done = false → w'.pw = ⟨false, w.pw.blockingCh + 1, some p⟩) :
    Picks (pre ++ [.updatePicker p]) out w' := by
  have hinst : (pre ++ [pwEvent.updatePicker p]).filterMap pwEvent.installs =
      pre.filterMap pwEvent.installs ++ [p] := by
    simp [List.filterMap_append, pwEvent.installs]
  have hleft : ∀ {n}, n < (pre.filterMap pwEvent.installs).length →
      (pre.filterMap pwEvent.installs ++ [p])[n]? = (pre.filterMap pwEvent.installs)[n]? :=
    fun hn => List.getElem?_append_left hn
  have hpicked : ∀ i gen q, pwOutput.pickCalled i gen q ∈ out →
      0 < gen ∧ (pre.filterMap pwEvent.installs ++ [p])[gen - 1]? = some q := by
    intro i gen q hq
    obtain ⟨hpos, hq'⟩ := hp.picked i gen q hq
    exact ⟨hpos, by rw [hleft (List.getElem?_eq_some_iff.mp hq').1, hq']⟩
  have hbelow : ∀ i gen, gen ∈ out.filterMap (pwOutput.pickedBy i) →
      ∃ c k, w'.calls[i]? = some c ∧ c.ch = some k ∧ gen ≤ k := by
    rw [hcalls]
    exact hp.below
  cases hdone : w.pw.done
  · -- a new picker, with the next channel
    have hpw := hnew hdone
    have heq := hp.gen_eq hdone
    refine ⟨?_, fun _ => ?_, fun _ => ?_, hinst ▸ hpicked, hp.increasing, hbelow⟩ <;>
      rw [hinst, hpw]
    · simp [heq]
    · simp [heq]
    · simp [heq]
  · -- after `close` nothing changes
    have hpw := hsame hdone
    refine ⟨?_, fun hd => ?_, fun hpos => ?_, hinst ▸ hpicked, hp.increasing, hbelow⟩
    · rw [hinst, hpw, List.length_append]
      exact hp.gen_le.trans (Nat.le_add_right _ _)
    · rw [hpw, hdone] at hd
      cases hd
    · rw [hpw] at hpos ⊢
      have hlt : w.pw.blockingCh - 1 < (pre.filterMap pwEvent.installs).length := by
        have := hp.gen_le
        omega
      rw [hinst, hleft hlt]
      exact hp.picker_eq hpos

theorem Picks.close (hp : Picks pre out w) {w' : world π τ} (hcalls : w'.calls = w.calls)
    (hpw : w'.pw = { w.pw with done := true }) : Picks (pre ++ [.close]) out w' := by
  refine Picks.congr_pre ⟨?_, fun hd => ?_, fun hpos => ?_, hp.picked, hp.increasing,
    hcalls ▸ hp.below⟩ (installs_snoc rfl)
  · rw [hpw]
    exact hp.gen_le
  · rw [hpw] at hd
    cases hd
  · rw [hpw] at hpos ⊢
    exact hp.picker_eq hpos

/-- **Each event keeps the history.** -/
theorem picks_step (h : Inv w) (hp : Picks pre out w) (e : pwEvent π τ) :
    ∃ w', (step (.ok w) e).2 = .ok w' ∧ Picks (pre ++ [e]) (out ++ (step (.ok w) e).1) w' := by
  cases e with
  | pick failfast =>
    refine ⟨_, rfl, ?_⟩
    rw [show (step (.ok w) (.pick failfast)).1 = [] from rfl, List.append_nil]
    exact hp.pick failfast
  | lock i => exact ⟨_, rfl, (hp.advance_lockPass h i).congr_pre (installs_snoc rfl)⟩
  | recv i => exact ⟨_, rfl, (hp.advance_keeps h i (keeps_recv _)).congr_pre (installs_snoc rfl)⟩
  | ctxDone i deadline =>
    exact ⟨_, rfl, (hp.advance_keeps h i (keeps_ctxDone deadline)).congr_pre (installs_snoc rfl)⟩
  | pickDone i r =>
    exact ⟨_, rfl, (hp.advance_keeps h i (keeps_pickDone r)).congr_pre (installs_snoc rfl)⟩
  | updatePicker p =>
    obtain ⟨w', hw', -, hcalls, -, hsame, hnew⟩ := h.updatePicker p
    refine ⟨w', hw', ?_⟩
    rw [show (step (.ok w) (.updatePicker p)).1 = [] from rfl, List.append_nil]
    exact hp.updatePicker hcalls hsame hnew
  | close =>
    obtain ⟨w', hw', -, hcalls, -, hpw⟩ := h.close
    refine ⟨w', hw', ?_⟩
    rw [show (step (.ok w) .close).1 = [] from rfl, List.append_nil]
    exact hp.close hcalls hpw

end Picks

/-- **No call of `pick` calls `Pick` twice on one picker.**  Over every interleaving, the `Pick`
calls of each call of `pick` are on pickers read with strictly increasing channels, so there are
no more of them than `updatePicker` calls; and every `Pick` call, of any call of `pick`, is on the
picker stored by the `updatePicker` call that made its channel. -/
theorem pick_once_per_picker (es : List (pwEvent π τ)) (i : ℕ) :
    ((run step (.ok world.new) es).1.filterMap (pwOutput.pickedBy i)).Pairwise (· < ·) ∧
      ((run step (.ok world.new) es).1.filterMap (pwOutput.pickedBy i)).length ≤
        (es.filterMap pwEvent.installs).length ∧
      ∀ j gen p, pwOutput.pickCalled j gen p ∈ (run step (.ok world.new) es).1 →
        0 < gen ∧ (es.filterMap pwEvent.installs)[gen - 1]? = some p := by
  have hrun := inv_invariant.history
    (P := fun pre out s => ∃ w, s = .ok w ∧ Picks pre out w) (H := fun _ => True)
    (fun _ _ _ => trivial)
    (fun pre out s e hs _ _ hp => by
      obtain ⟨w, rfl, h⟩ := hs
      obtain ⟨w', hw', hp⟩ := hp
      cases hw'
      obtain ⟨w'', hw'', hp'⟩ := picks_step h hp e
      exact ⟨w'', hw'', hp'⟩)
    ⟨_, rfl, inv_new⟩ (admits_of_forall (fun _ _ => trivial) _ es) trivial ⟨_, rfl, Picks.nil⟩
  rw [List.nil_append, List.nil_append] at hrun
  obtain ⟨w, -, hp⟩ := hrun
  refine ⟨hp.increasing i, ?_, hp.picked⟩
  -- a strictly increasing list of channels among `1, …, n` has at most `n` of them
  have hsub : (run step (.ok world.new) es).1.filterMap (pwOutput.pickedBy i) ⊆
      List.range' 1 (es.filterMap pwEvent.installs).length := by
    intro gen hgen
    obtain ⟨p, hmem⟩ := mem_filterMap_pickedBy.mp hgen
    obtain ⟨hpos, hget⟩ := hp.picked i gen p hmem
    have hlt := (List.getElem?_eq_some_iff.mp hget).1
    rw [List.mem_range'_1]
    omega
  calc _ ≤ (List.range' 1 (es.filterMap pwEvent.installs).length).length :=
        ((hp.increasing i).nodup.subperm hsub).length_le
    _ = _ := List.length_range'

/-- A wait-for-ready call gets `ErrNoSubConnAvailable` from the first picker, blocks until the
second is stored, and gets a ready transport from it. -/
example : (run step (.ok (world.new : world ℕ ℕ))
    [.pick false, .updatePicker 5, .lock 0, .pickDone 0 .errNoSubConnAvailable, .lock 0,
      .updatePicker 6, .recv 0, .lock 0, .pickDone 0 (.subConn (some 9))]).1 =
    [.pickCalled 0 1 5, .pickCalled 0 2 6, .returned 0 (.ok 9)] := rfl

end PickerWrapper
end GrpcGo
