import GrpcGo.Lib.GoChan
import GrpcGo.Transport.Loopy

/-!
# The control buffer and its throttling (`internal/transport/controlbuf.go`)

The `controlBuffer` is the queue between a transport's goroutines and its loopy writer: they
`put` control items (`executeAndPut` runs a check `f` under the lock first, and queues nothing
when `f` fails), and loopy `get`s them.  Items that answer the peer (a SETTINGS ACK, a PING ACK,
a RST_STREAM) are counted in `transportResponseFrames`; when the count reaches
`maxQueuedTransportResponseFrames` a new channel is stored in `trfChan`, and the reader goroutine,
which calls `throttle` before reading the next frame, blocks on it.  The `get` that takes the
count back below the bound closes the channel and stores nil; `finish` closes whatever channel is
stored, so that a throttled reader sees the connection end.

The model is a machine whose events are the calls; a call that ends in a run-time panic
(`close` of a closed or nil channel, the type assertion on a never-stored `trfChan`) leaves the
machine in that failure.  The channels the buffer makes are `GoStd.Chans`.  A `get` that finds
the queue empty and may block sets `consumerWaiting` and returns nothing; its `select` on `c.ch`
and `c.done` is not modelled (the next pass of its loop is a later `get`).

* `BufferEvent.inv_step`: every call keeps the invariant `Inv`, and none panics;
* `controlBuffer_throttling`: over every sequence of calls, the counter is the number of queued
  answers, a channel is stored and open exactly when the counter is at the bound, every other
  channel is closed, and all are closed once the queue is empty or the buffer finished.
-/

namespace GrpcGo
namespace Transport

open GoStd Machine

/-- `maxQueuedTransportResponseFrames`. -/
def maxQueuedTransportResponseFrames : ℕ := 50

/-- `isTransportResponseFrame`: the items whose frames answer the peer.  A `headerFrame`'s `rst`
stands for `h.cleanup != nil && h.cleanup.rst`. -/
def controlItem.isTransportResponseFrame : controlItem → Bool
  | .incomingWindowUpdate _ _ => false
  | .outgoingWindowUpdate _ _ => false
  | .incomingSettings _ => true
  | .outgoingSettings => false
  | .headerFrame _ _ _ rst => rst
  | .registerStream _ => false
  | .cleanupStream _ rst => rst
  | .earlyAbortStream _ => false
  | .incomingGoAway => false
  | .dataFrame _ _ _ _ => false
  | .ping _ => true
  | .goAway _ => false
  | .outFlowControlSizeRequest => false

/-- The fields of `controlBuffer`, and the channels it has made. -/
structure controlBuffer where
  consumerWaiting : Bool
  list : List controlItem
  err : Option String
  transportResponseFrames : ℕ
  /-- `trfChan`, an `atomic.Value`: never stored (`none`), or a stored `chan struct{}`, nil
  (`some none`) or one of the channels made. -/
  trfChan : Option (Option ℕ)
  chans : Chans

/-- `newControlBuffer`. -/
def newControlBuffer : controlBuffer := ⟨false, [], none, 0, none, Chans.empty⟩

/-- What the calls return, and the wake-up `executeAndPut` sends to a waiting consumer. -/
inductive cbResult
  | executeAndPut (ok : Bool) (err : Option String)
  | wakeUp
  | get (it : Option controlItem) (err : Option String)
  deriving DecidableEq, Repr

namespace controlBuffer

/-- The channel `throttle` blocks on: `ch, _ := c.trfChan.Load().(chan struct{})`, unless nil. -/
def throttle (c : controlBuffer) : Option ℕ :=
  match c.trfChan with
  | some (some ch) => some ch
  | _ => none

/-- `executeAndPut`'s count of an item it queues: the frame that reaches the bound makes the
throttling channel. -/
def countIn (c : controlBuffer) (it : controlItem) : controlBuffer :=
  if it.isTransportResponseFrame then
    if c.transportResponseFrames + 1 = maxQueuedTransportResponseFrames then
      { c with transportResponseFrames := c.transportResponseFrames + 1,
               trfChan := some (some c.chans.make.1), chans := c.chans.make.2 }
    else { c with transportResponseFrames := c.transportResponseFrames + 1 }
  else c

/-- `executeAndPut(f, it)`; `f` is `none` for `put`, or what the check returns. -/
def executeAndPut (c : controlBuffer) (f : Option Bool) (it : controlItem) :
    List cbResult × controlBuffer :=
  match c.err with
  | some e => ([.executeAndPut false (some e)], c)
  | none =>
    if f = some false then ([.executeAndPut false none], c)
    else
      ((if c.consumerWaiting then [.wakeUp] else []) ++ [.executeAndPut true none],
        countIn { c with consumerWaiting := false, list := c.list ++ [it] } it)

/-- `get`'s count of the item it takes: the frame that was at the bound closes the channel. -/
def countOut (c : controlBuffer) (h : controlItem) : Except Failure controlBuffer :=
  if h.isTransportResponseFrame then
    if c.transportResponseFrames = maxQueuedTransportResponseFrames then
      -- `ch := c.trfChan.Load().(chan struct{})`, `close(ch)`, `c.trfChan.Store(nil)`
      match c.trfChan with
      | none => .error (.panic "interface conversion: interface \x7b\x7d is nil, not chan struct \x7b\x7d")
      | some ch =>
        (c.chans.close ch).map fun chans =>
          { c with trfChan := some none, chans := chans,
                   transportResponseFrames := c.transportResponseFrames - 1 }
    else .ok { c with transportResponseFrames := c.transportResponseFrames - 1 }
  else .ok c

/-- One pass of `get(block)`. -/
def get (c : controlBuffer) (block : Bool) : Except Failure (List cbResult × controlBuffer) :=
  match c.err with
  | some e => .ok ([.get none (some e)], c)
  | none =>
    match c.list with
    | h :: rest => (countOut { c with list := rest } h).map fun c' => ([.get (some h) none], c')
    | [] =>
      if block then .ok ([], { c with consumerWaiting := true })
      else .ok ([.get none none], c)

/-- `finish`: the items still queued are dropped, and the stored channel is closed. -/
def finish (c : controlBuffer) : Except Failure controlBuffer :=
  match c.err with
  | some _ => .ok c
  | none =>
    match c.throttle with
    | some ch =>
      (c.chans.close (some ch)).map fun chans =>
        { c with err := some ErrConnClosing, list := [], trfChan := some none, chans := chans }
    | none => .ok { c with err := some ErrConnClosing, list := [], trfChan := some none }

end controlBuffer

/-- The calls on a control buffer. -/
inductive BufferEvent
  | executeAndPut (f : Option Bool) (it : controlItem)
  | get (block : Bool)
  | finish

/-- The buffer on one call; a panic ends the run. -/
def BufferEvent.step :
    Except Failure controlBuffer → BufferEvent → List cbResult × Except Failure controlBuffer
  | .error e, _ => ([], .error e)
  | .ok c, .executeAndPut f it => ((c.executeAndPut f it).1, .ok (c.executeAndPut f it).2)
  | .ok c, .get block =>
    match c.get block with
    | .ok r => (r.1, .ok r.2)
    | .error e => ([], .error e)
  | .ok c, .finish => ([], c.finish)

/-! ## The throttling invariant -/

namespace controlBuffer

theorem throttle_eq_some_iff (c : controlBuffer) (ch : ℕ) :
    c.throttle = some ch ↔ c.trfChan = some (some ch) := by
  unfold throttle
  split <;> simp_all

/-- Before `finish`, the counter is the number of queued answers, and a channel is stored
exactly when it is at the bound; after, nil is stored.  The stored channel is open, and every
other channel the buffer made is closed. -/
structure Inv (c : controlBuffer) : Prop where
  count_eq : c.err = none →
    c.transportResponseFrames = c.list.countP (·.isTransportResponseFrame)
  trfChan_iff : c.err = none →
    (maxQueuedTransportResponseFrames ≤ c.transportResponseFrames ↔
      ∃ ch, c.trfChan = some (some ch))
  finished : c.err ≠ none → c.trfChan = some none
  current_open : ∀ ch, c.trfChan = some (some ch) → c.chans.IsOpen ch
  others_closed : ∀ ch, ch < c.chans.closed.length → c.trfChan ≠ some (some ch) →
    c.chans.IsClosed ch

theorem inv_new : Inv newControlBuffer where
  count_eq _ := rfl
  trfChan_iff _ := by simp [newControlBuffer, maxQueuedTransportResponseFrames]
  finished h := absurd rfl h
  current_open _ h := nomatch h
  others_closed _ h := absurd h (Nat.not_lt_zero _)

variable {c : controlBuffer}

/-- With no channel stored, every channel is closed. -/
theorem Inv.allClosed (h : Inv c) (hnone : ∀ ch, c.trfChan ≠ some (some ch)) : c.chans.AllClosed :=
  fun j hj => h.others_closed j hj (hnone j)

/-- Closing the stored channel leaves every channel closed. -/
theorem Inv.close_current (h : Inv c) {ch : ℕ} (hch : c.trfChan = some (some ch)) :
    ∃ chans, c.chans.close (some ch) = .ok chans ∧ chans.AllClosed := by
  refine Chans.allClosed_close (h.current_open ch hch) fun j hj hne => h.others_closed j hj ?_
  rw [hch]
  intro heq
  exact hne (Option.some.inj (Option.some.inj heq)).symm

/-- The invariant reads only the error, the counter, the number of answers queued and the
channels. -/
theorem Inv.congr (h : Inv c) {c' : controlBuffer} (herr : c'.err = c.err)
    (hcount : c'.transportResponseFrames = c.transportResponseFrames)
    (hlist : c'.list.countP (·.isTransportResponseFrame) = c.list.countP (·.isTransportResponseFrame))
    (htrf : c'.trfChan = c.trfChan) (hchans : c'.chans = c.chans) : Inv c' where
  count_eq he := by rw [hcount, hlist]; exact h.count_eq (herr ▸ he)
  trfChan_iff he := by rw [hcount, htrf]; exact h.trfChan_iff (herr ▸ he)
  finished he := by rw [htrf]; exact h.finished (herr ▸ he)
  current_open ch hch := by rw [hchans]; exact h.current_open ch (htrf ▸ hch)
  others_closed ch hlt hne := by
    rw [hchans] at hlt ⊢
    exact h.others_closed ch hlt (htrf ▸ hne)

/-- **`executeAndPut` keeps the invariant**: a refused or failed call changes nothing, and a
queued answer moves the counter up by one, making the channel when it reaches the bound. -/
theorem Inv.executeAndPut (h : Inv c) (f : Option Bool) (it : controlItem) :
    Inv (c.executeAndPut f it).2 := by
  unfold controlBuffer.executeAndPut
  split
  · exact h
  rename_i herr
  by_cases hf : f = some false
  · rw [if_pos hf]
    exact h
  rw [if_neg hf]
  have hcount := h.count_eq herr
  have hiff := h.trfChan_iff herr
  dsimp only
  unfold countIn
  split_ifs with htrf hbound
  · -- the answer that reaches the bound: a new channel, and none was stored before
    dsimp only at hbound ⊢
    have hnone : ∀ ch, c.trfChan ≠ some (some ch) := by
      intro ch hch
      have := hiff.mpr ⟨ch, hch⟩
      omega
    refine ⟨fun _ => ?_, fun _ => ⟨fun _ => ⟨_, rfl⟩, fun _ => le_of_eq hbound.symm⟩,
      fun hne => (hne herr).elim, fun ch hch => ?_, fun ch hlt hne => ?_⟩
    · simp [List.countP_append, hcount, htrf]
    · cases hch
      exact Chans.isOpen_make _
    · exact (h.allClosed hnone).make hlt fun heq => hne (by rw [heq])
  · -- an answer below the bound
    dsimp only at hbound ⊢
    refine ⟨fun _ => ?_, fun _ => ?_, fun hne => (hne herr).elim, h.current_open,
      h.others_closed⟩
    · simp [List.countP_append, hcount, htrf]
    · dsimp only
      rw [← hiff]
      omega
  · exact h.congr rfl rfl (by simp [List.countP_append, htrf]) rfl rfl

/-- **`get` keeps the invariant and never panics**: the answer taken at the bound finds the
channel stored and open, and closes it. -/
theorem Inv.get (h : Inv c) (block : Bool) : ∃ r c', c.get block = .ok (r, c') ∧ Inv c' := by
  unfold controlBuffer.get
  split
  · exact ⟨_, _, rfl, h⟩
  rename_i herr
  have hcount := h.count_eq herr
  have hiff := h.trfChan_iff herr
  split
  · rename_i hd rest hlist
    rw [hlist, List.countP_cons] at hcount
    unfold countOut
    dsimp only
    split_ifs with htrf hbound
    · -- the answer at the bound: the stored channel is closed, and nil stored
      obtain ⟨ch, hch⟩ := hiff.mp (le_of_eq hbound.symm)
      obtain ⟨chans, hclose, hall⟩ := h.close_current hch
      rw [hch]
      refine ⟨_, _, by dsimp only; rw [hclose]; rfl, ⟨fun _ => ?_, fun _ => ?_, fun _ => rfl,
        fun _ hch' => by simp at hch', fun j hj _ => hall j hj⟩⟩
      · simp only [htrf, if_true] at hcount
        dsimp only
        omega
      · simp only [maxQueuedTransportResponseFrames] at hbound ⊢
        simp
        omega
    · -- an answer below the bound
      refine ⟨_, _, rfl, ⟨fun _ => ?_, fun _ => ?_, fun hne => (hne herr).elim, h.current_open,
        h.others_closed⟩⟩
      · simp only [htrf, if_true] at hcount
        dsimp only
        omega
      · dsimp only
        rw [← hiff]
        simp only [htrf, if_true] at hcount
        omega
    · exact ⟨_, _, rfl, h.congr rfl rfl (by simp [hlist, htrf]) rfl rfl⟩
  · split
    · exact ⟨_, _, rfl, h.congr rfl rfl rfl rfl rfl⟩
    · exact ⟨_, _, rfl, h⟩

/-- **`finish` keeps the invariant and never panics**: it closes the stored channel, if any,
and stores nil. -/
theorem Inv.finish (h : Inv c) : ∃ c', c.finish = .ok c' ∧ Inv c' := by
  unfold controlBuffer.finish
  split
  · exact ⟨_, rfl, h⟩
  -- after `finish` the error is set and nil stored: only the channels remain to check
  have hdone : ∀ {c' : controlBuffer}, c'.err = some ErrConnClosing → c'.trfChan = some none →
      c'.chans.AllClosed → Inv c' := fun herr' htrf' hall =>
    ⟨fun he => by simp [herr'] at he, fun he => by simp [herr'] at he, fun _ => htrf',
      fun _ hch => by simp [htrf'] at hch, fun j hj _ => hall j hj⟩
  split
  · rename_i ch hth
    obtain ⟨chans, hclose, hall⟩ := h.close_current ((throttle_eq_some_iff c ch).mp hth)
    exact ⟨_, by rw [hclose]; rfl, hdone rfl rfl hall⟩
  · rename_i hth
    have hnone : ∀ ch, c.trfChan ≠ some (some ch) := fun ch hch =>
      absurd ((throttle_eq_some_iff c ch).mpr hch) (by rw [hth]; exact nofun)
    exact ⟨_, rfl, hdone rfl rfl (h.allClosed hnone)⟩

end controlBuffer

open controlBuffer in
/-- **Each call keeps the invariant, and none panics.** -/
theorem BufferEvent.inv_step (s : Except Failure controlBuffer) (e : BufferEvent)
    (hs : ∃ c, s = .ok c ∧ Inv c) : ∃ c, (BufferEvent.step s e).2 = .ok c ∧ Inv c := by
  obtain ⟨c, rfl, h⟩ := hs
  cases e with
  | executeAndPut f it => exact ⟨_, rfl, h.executeAndPut f it⟩
  | get block =>
    obtain ⟨r, c', hget, h'⟩ := h.get block
    exact ⟨c', by simp [BufferEvent.step, hget], h'⟩
  | finish =>
    obtain ⟨c', hfin, h'⟩ := h.finish
    exact ⟨c', by simp [BufferEvent.step, hfin], h'⟩

open controlBuffer in
/-- **The throttling state stays consistent.**  Over every sequence of `executeAndPut` calls
(queued, or refused by their check), `get`s and `finish`es on a new buffer, no call panics;
before `finish`, `transportResponseFrames` is the number of queued answers, and the channel
`throttle` blocks on is stored and open exactly when that number is at the bound; every other
channel made is closed; and once the queue is empty or the buffer finished, all are closed, so no
`throttle` blocks on them. -/
theorem controlBuffer_throttling (es : List BufferEvent) :
    ∃ c, (run BufferEvent.step (.ok newControlBuffer) es).2 = .ok c ∧
      (c.err = none →
        c.transportResponseFrames = c.list.countP (·.isTransportResponseFrame) ∧
          (maxQueuedTransportResponseFrames ≤ c.transportResponseFrames ↔
            ∃ ch, c.throttle = some ch ∧ c.chans.IsOpen ch)) ∧
      (∀ ch, ch < c.chans.closed.length → c.throttle ≠ some ch → c.chans.IsClosed ch) ∧
      (c.list = [] ∨ c.err ≠ none → c.chans.AllClosed) := by
  have hinv : Invariant (fun _ _ => True) BufferEvent.step
      (fun s => ∃ c, s = .ok c ∧ Inv c) := fun s e hs _ => BufferEvent.inv_step s e hs
  obtain ⟨c, hc, h⟩ := hinv.run ⟨_, rfl, inv_new⟩ (admits_of_forall (fun _ _ => trivial) _ es)
  refine ⟨c, hc, fun herr => ⟨h.count_eq herr, ?_⟩, fun ch hlt hne => ?_, ?_⟩
  · rw [h.trfChan_iff herr]
    constructor
    · rintro ⟨ch, hch⟩
      exact ⟨ch, (throttle_eq_some_iff c ch).mpr hch, h.current_open ch hch⟩
    · rintro ⟨ch, hth, -⟩
      exact ⟨ch, (throttle_eq_some_iff c ch).mp hth⟩
  · exact h.others_closed ch hlt fun hch => hne ((throttle_eq_some_iff c ch).mpr hch)
  · -- an empty queue holds no answer, so no channel is stored; nor is one after `finish`
    rintro (hempty | hfin)
    · by_cases herr : c.err = none
      · refine h.allClosed fun ch hch => ?_
        have hbound := (h.trfChan_iff herr).mpr ⟨ch, hch⟩
        rw [h.count_eq herr, hempty] at hbound
        simp [maxQueuedTransportResponseFrames] at hbound
      · exact h.allClosed fun ch hch => by simp [h.finished herr] at hch
    · exact h.allClosed fun ch hch => by simp [h.finished hfin] at hch

end Transport
end GrpcGo
