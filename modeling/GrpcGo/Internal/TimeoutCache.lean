import GrpcGo.Lib.GoMap
import GrpcGo.Lib.Machine

/-!
# `TimeoutCache` and its timers (`internal/cache/timeoutCache.go`)

A `TimeoutCache` maps keys to entries, each with an item, a callback, a timer and a `deleted`
flag.  `Add` arms the entry's timer with `time.AfterFunc`; when the timer goes off, its function
waits for `c.mu`, then, unless `deleted` is set, deletes the entry's key and calls the callback
once it has released the mutex.  `Remove` and `Clear` take entries out through `removeInternal`,
which stops the timer, or, when `Stop` fails because the timer has gone off already, sets
`deleted` so that the function waiting for the mutex gives up.  `Clear(true)` calls the callbacks
of the entries it removed, after releasing the mutex.

The model is the cache together with the goroutines around it, one step per atomic action:
each call that holds `c.mu` (`Add`, `Remove`, the loop of `Clear`, a timer's function) is one
step, and so are a timer going off (`fire`) and a goroutine calling a callback outside the mutex
(`call`).  Any interleaving of them is a list of events.  An entry is named by its pointer; the
entries live in `heap`, and the map holds their pointers.  A timer is `armed`, has `fired` (its
function waits for the mutex), was `stopped`, or its function `ran`.  The callbacks a goroutine is
to call are `pending`.  The callback itself is not modelled: calling it is what is observed.

* `inv_run`: the invariant `Inv` holds after every run, with the entries reported so far (their
  callbacks called, or returned by `Remove`);
* `expire_pending`: a timer's function queues the callback exactly when its entry is still in
  the map, though it tests `deleted`;
* `Clear_pending`: `Clear` empties the map, and `Clear(true)` queues the callbacks of all the
  entries it held;
* `callbacks_at_most_once`: no entry is reported twice over any run: a callback is called at most
  once, and never for an entry that `Remove` returned.
-/

namespace GrpcGo
namespace Internal
namespace Cache

open GoStd Machine

/-- Where the timer of an entry is. -/
inductive timerState
  /-- armed by `time.AfterFunc` -/
  | armed
  /-- gone off: its function waits for `c.mu` -/
  | fired
  /-- stopped by a `Stop` that returned `true` -/
  | stopped
  /-- its function has run -/
  | ran
  deriving DecidableEq, Inhabited

/-- A `cacheEntry`: the key its timer's function deletes, its item, its timer and `deleted`.  Its
callback is named by the entry's pointer. -/
structure cacheEntry (κ α : Type _) where
  key : κ
  item : α
  timer : timerState
  deleted : Bool
  deriving Inhabited

/-- A `TimeoutCache` with the goroutines around it: the map from keys to entry pointers, the
entries by pointer (`next` is the pointer the next `Add` allocates; the zero values of Go's
`interface{}` fill the rest), and the pointers whose callbacks a goroutine is to call outside
`c.mu`. -/
structure TimeoutCache (κ α : Type _) where
  cache : List (κ × Nat)
  heap : Nat → cacheEntry κ α
  next : Nat
  pending : List Nat

/-- What the calls return, and the callbacks called. -/
inductive obs (α : Type _)
  /-- `Add` returns `(item, ok)` -/
  | Add (item : α) (ok : Bool)
  /-- `Remove` returns `(entry.item, true)`, here with the entry's pointer, or `(nil, false)` -/
  | Remove (removed : Option (Nat × α))
  /-- the callback of entry `p` is called -/
  | callback (p : Nat)

/-- The entry an observation reports: one `Remove` returned, or one whose callback is called. -/
def obs.entry {α : Type _} : obs α → Option Nat
  | .Remove (some r) => some r.1
  | .callback p => some p
  | _ => none

@[simp] theorem obs.entry_Add {α : Type _} (item : α) (ok : Bool) : (obs.Add item ok).entry = none :=
  rfl

@[simp] theorem obs.entry_Remove {α : Type _} (r : Option (Nat × α)) :
    (obs.Remove r).entry = r.map Prod.fst := by
  cases r <;> rfl

@[simp] theorem obs.entry_callback {α : Type _} (p : Nat) : (obs.callback p : obs α).entry = some p :=
  rfl

/-- The events of the cache and the goroutines around it. -/
inductive event (κ α : Type _)
  | Add (key : κ) (item : α)
  | Remove (key : κ)
  | Clear (runCallback : Bool)
  /-- the timer of entry `p` goes off -/
  | fire (p : Nat)
  /-- the function of entry `p`'s timer takes `c.mu` -/
  | expire (p : Nat)
  /-- a goroutine calls the callback of entry `p` -/
  | call (p : Nat)

variable {κ α : Type _}

/-- `NewTimeoutCache(timeout)`. -/
def NewTimeoutCache [Inhabited κ] [Inhabited α] : TimeoutCache κ α := ⟨[], fun _ => default, 0, []⟩

namespace TimeoutCache

/-- The pointers the map holds. -/
def live (c : TimeoutCache κ α) : List Nat := c.cache.map Prod.snd

theorem mem_live {c : TimeoutCache κ α} {k : κ} {p : Nat} (hkp : (k, p) ∈ c.cache) :
    p ∈ c.live :=
  List.mem_map.mpr ⟨(k, p), hkp, rfl⟩

/-- Writes entry `p`. -/
def setEntry (c : TimeoutCache κ α) (p : Nat) (e : cacheEntry κ α) : TimeoutCache κ α :=
  { c with heap := Function.update c.heap p e }

@[simp] theorem setEntry_heap (c : TimeoutCache κ α) (p : Nat) (e : cacheEntry κ α) (q : Nat) :
    (c.setEntry p e).heap q = if q = p then e else c.heap q :=
  Function.update_apply ..

@[simp] theorem setEntry_cache (c : TimeoutCache κ α) (p : Nat) (e : cacheEntry κ α) :
    (c.setEntry p e).cache = c.cache := rfl

@[simp] theorem setEntry_next (c : TimeoutCache κ α) (p : Nat) (e : cacheEntry κ α) :
    (c.setEntry p e).next = c.next := rfl

@[simp] theorem setEntry_pending (c : TimeoutCache κ α) (p : Nat) (e : cacheEntry κ α) :
    (c.setEntry p e).pending = c.pending := rfl

/-- `entry.timer.Stop()`, and `entry.deleted = true` when it fails: `Stop` succeeds only while
the timer is armed. -/
def stopEntry (e : cacheEntry κ α) : cacheEntry κ α :=
  if e.timer = .armed then { e with timer := .stopped } else { e with deleted := true }

variable [DecidableEq κ]

/-- `c.removeInternal(key)`, under `c.mu`. -/
def removeInternal (c : TimeoutCache κ α) (key : κ) :
    Option (Nat × cacheEntry κ α) × TimeoutCache κ α :=
  match c.cache.lookup key with
  | none => (none, c)
  | some p =>
    let e := stopEntry (c.heap p)
    (some (p, e), { c.setEntry p e with cache := Map.erase key c.cache })

/-- `c.Add(key, item, callback)`, under `c.mu`. -/
def Add (c : TimeoutCache κ α) (key : κ) (item : α) : List (obs α) × TimeoutCache κ α :=
  match c.cache.lookup key with
  | some p => ([.Add (c.heap p).item false], c)
  | none =>
    -- a new entry, its timer armed by `time.AfterFunc`
    ([.Add item true],
      { c.setEntry c.next ⟨key, item, .armed, false⟩ with
        cache := Map.insert key c.next c.cache, next := c.next + 1 })

/-- `c.Remove(key)`, under `c.mu`. -/
def Remove (c : TimeoutCache κ α) (key : κ) : List (obs α) × TimeoutCache κ α :=
  let r := c.removeInternal key
  ([.Remove (r.1.map fun pe => (pe.1, pe.2.item))], r.2)

/-- One turn of the loop of `Clear` over the keys of the map. -/
def clearStep (acc : List Nat × TimeoutCache κ α) (key : κ) : List Nat × TimeoutCache κ α :=
  let r := acc.2.removeInternal key
  match r.1 with
  | some pe => (acc.1 ++ [pe.1], r.2)
  | none => (acc.1, r.2)

/-- `c.Clear(runCallback)`: the loop over the keys, under `c.mu` (in the map's order), and the
callbacks of the entries it removed, called after `c.mu` is released when `runCallback` is set. -/
def Clear (c : TimeoutCache κ α) (runCallback : Bool) : TimeoutCache κ α :=
  let r := (c.cache.map Prod.fst).foldl clearStep ([], c)
  if runCallback then { r.2 with pending := r.2.pending ++ r.1 } else r.2

/-- The timer of entry `p` goes off, if `Add` has armed it. -/
def fire (c : TimeoutCache κ α) (p : Nat) : TimeoutCache κ α :=
  if p < c.next ∧ (c.heap p).timer = .armed then c.setEntry p { c.heap p with timer := .fired }
  else c

/-- The function of entry `p`'s timer, once it holds `c.mu`: unless `deleted` is set, it deletes
the entry's key, and calls the callback after releasing the mutex. -/
def expire (c : TimeoutCache κ α) (p : Nat) : TimeoutCache κ α :=
  let e := c.heap p
  if e.timer = .fired then
    let c₁ := c.setEntry p { e with timer := .ran }
    if e.deleted then c₁
    else { c₁ with cache := Map.erase e.key c₁.cache, pending := c₁.pending ++ [p] }
  else c

/-- A goroutine calls the callback of entry `p`, outside `c.mu`. -/
def call (c : TimeoutCache κ α) (p : Nat) : List (obs α) × TimeoutCache κ α :=
  if p ∈ c.pending then ([.callback p], { c with pending := c.pending.erase p }) else ([], c)

end TimeoutCache

open TimeoutCache

section Step

variable [DecidableEq κ]

/-- One atomic action. -/
def step (c : TimeoutCache κ α) : event κ α → List (obs α) × TimeoutCache κ α
  | .Add key item => c.Add key item
  | .Remove key => c.Remove key
  | .Clear runCallback => ([], c.Clear runCallback)
  | .fire p => ([], c.fire p)
  | .expire p => ([], c.expire p)
  | .call p => c.call p

/-- The outputs and the cache after the events `es` from `NewTimeoutCache`. -/
def runFromNew [Inhabited κ] [Inhabited α] (es : List (event κ α)) :
    List (obs α) × TimeoutCache κ α :=
  run step NewTimeoutCache es

/-! ## Small lemmas -/

variable {c : TimeoutCache κ α}

theorem removeInternal_of_lookup {key : κ} {p : Nat} (h : c.cache.lookup key = some p) :
    c.removeInternal key =
      (some (p, stopEntry (c.heap p)),
        { c.setEntry p (stopEntry (c.heap p)) with cache := Map.erase key c.cache }) := by
  simp only [removeInternal, h]

theorem removeInternal_of_lookup_none {key : κ} (h : c.cache.lookup key = none) :
    c.removeInternal key = (none, c) := by
  simp only [removeInternal, h]

/-- `Add` on a key the map holds returns the item there, and changes nothing. -/
theorem Add_of_lookup {key : κ} {p : Nat} (item : α) (h : c.cache.lookup key = some p) :
    c.Add key item = ([.Add (c.heap p).item false], c) := by
  simp only [TimeoutCache.Add, h]

/-- **The loop of `Clear`** over the keys of the map `m` it started from, from a cache holding what
is left of it: each turn removes the first entry left, so it removes every entry, in the map's
order, and changes neither `pending` nor `next`. -/
theorem foldl_clearStep : ∀ (m : List (κ × Nat)) (ps : List Nat) (c : TimeoutCache κ α),
    c.cache = m →
      ((m.map Prod.fst).foldl clearStep (ps, c)).1 = ps ++ m.map Prod.snd ∧
        ((m.map Prod.fst).foldl clearStep (ps, c)).2.cache = [] ∧
        ((m.map Prod.fst).foldl clearStep (ps, c)).2.pending = c.pending ∧
        ((m.map Prod.fst).foldl clearStep (ps, c)).2.next = c.next
  | [], ps, c, hc => ⟨(List.append_nil ps).symm, hc, rfl, rfl⟩
  | (k, p) :: m, ps, c, hc => by
    have hlookup : c.cache.lookup k = some p := by simp [hc]
    have hturn : clearStep (ps, c) k =
        (ps ++ [p], { c.setEntry p (stopEntry (c.heap p)) with cache := m }) := by
      simp [clearStep, removeInternal_of_lookup hlookup, hc, Map.erase]
    rw [List.map_cons, List.foldl_cons, hturn]
    obtain ⟨h1, h2, h3, h4⟩ :=
      foldl_clearStep m (ps ++ [p]) { c.setEntry p (stopEntry (c.heap p)) with cache := m } rfl
    exact ⟨by simpa using h1, h2, h3, h4⟩

/-- **What `Clear` leaves**: an empty map, and with `runCallback` the callbacks of every entry
the map held queued, in its order. -/
theorem Clear_pending (c : TimeoutCache κ α) (runCallback : Bool) :
    (c.Clear runCallback).cache = [] ∧
      (c.Clear runCallback).pending = c.pending ++ if runCallback then c.live else [] := by
  obtain ⟨h1, h2, h3, -⟩ := foldl_clearStep c.cache [] c rfl
  unfold TimeoutCache.Clear
  dsimp only
  cases runCallback
  · simp only [Bool.false_eq_true, if_false, List.append_nil]
    exact ⟨h2, h3⟩
  · simp only [if_true]
    exact ⟨h2, by rw [h3, h1, List.nil_append]; rfl⟩

end Step

/-! ## The invariant -/

/-- The timer of `e` will not call the callback: it was stopped, its function ran, or it went off
with `deleted` set. -/
def Quiet (e : cacheEntry κ α) : Prop :=
  e.timer = .stopped ∨ e.timer = .ran ∨ (e.timer = .fired ∧ e.deleted = true)

/-- The invariant, with `reported` the entries reported so far.  An entry of the map is not
`deleted` and its timer is armed or has fired; every other entry is `Quiet`; pointers from `next`
on are unused; and an entry is in at most one of the map, `pending` and `reported`, each without
repeats. -/
structure Inv [Inhabited κ] [Inhabited α] (reported : List Nat) (c : TimeoutCache κ α) :
    Prop where
  nodup_keys : (c.cache.map Prod.fst).Nodup
  live : ∀ k p, (k, p) ∈ c.cache → p < c.next ∧ (c.heap p).key = k ∧
    (c.heap p).deleted = false ∧ ((c.heap p).timer = .armed ∨ (c.heap p).timer = .fired)
  quiet : ∀ p, p < c.next → p ∉ c.live → Quiet (c.heap p)
  fresh : ∀ p, c.next ≤ p → c.heap p = default
  pending_lt : ∀ p ∈ c.pending, p < c.next
  pending_not_live : ∀ p ∈ c.pending, p ∉ c.live
  nodup_pending : c.pending.Nodup
  reported_lt : ∀ p ∈ reported, p < c.next
  reported_not_live : ∀ p ∈ reported, p ∉ c.live
  reported_not_pending : ∀ p ∈ reported, p ∉ c.pending
  nodup_reported : reported.Nodup

section Inv

variable [Inhabited κ] [Inhabited α] {reported : List Nat} {c : TimeoutCache κ α}

theorem inv_new : Inv [] (NewTimeoutCache : TimeoutCache κ α) where
  nodup_keys := List.nodup_nil
  live := nofun
  quiet := nofun
  fresh := fun _ _ => rfl
  pending_lt := nofun
  pending_not_live := nofun
  nodup_pending := List.nodup_nil
  reported_lt := nofun
  reported_not_live := nofun
  reported_not_pending := nofun
  nodup_reported := List.nodup_nil

/-- An entry of the map is stored under its own key. -/
theorem Inv.mem_cache_key (h : Inv reported c) {p : Nat} (hp : p ∈ c.live) :
    ((c.heap p).key, p) ∈ c.cache := by
  obtain ⟨⟨k, q⟩, hkq, rfl⟩ := List.mem_map.mp hp
  rw [(h.live k q hkq).2.1]
  exact hkq

/-- The map holds no pointer twice. -/
theorem Inv.nodup_live (h : Inv reported c) : c.live.Nodup := by
  refine List.Nodup.map_on ?_ (List.Nodup.of_map _ h.nodup_keys)
  rintro ⟨k, p⟩ hkp ⟨k', p'⟩ hkp' (rfl : p = p')
  rw [← (h.live k p hkp).2.1, ← (h.live k' p hkp').2.1]

/-- Reporting an entry that is in none of the map, `pending` and `reported`. -/
theorem Inv.report (h : Inv reported c) {p : Nat} (hp : p < c.next) (hl : p ∉ c.live)
    (hpend : p ∉ c.pending) (hrep : p ∉ reported) : Inv (reported ++ [p]) c := by
  refine { h with
    reported_lt := fun q hq => ?_
    reported_not_live := fun q hq => ?_
    reported_not_pending := fun q hq => ?_
    nodup_reported := List.nodup_append.mpr ⟨h.nodup_reported, List.nodup_singleton p, ?_⟩ }
  · rcases List.mem_append.mp hq with hq | hq
    · exact h.reported_lt q hq
    · rw [List.mem_singleton.mp hq]; exact hp
  · rcases List.mem_append.mp hq with hq | hq
    · exact h.reported_not_live q hq
    · rw [List.mem_singleton.mp hq]; exact hl
  · rcases List.mem_append.mp hq with hq | hq
    · exact h.reported_not_pending q hq
    · rw [List.mem_singleton.mp hq]; exact hpend
  · rintro q hq _ hq' rfl
    exact hrep (List.mem_singleton.mp hq' ▸ hq)

/-- Queueing the callbacks of entries that are in none of the map, `pending` and `reported`. -/
theorem Inv.queue (h : Inv reported c) {ps : List Nat} (hps : ps.Nodup)
    (hlt : ∀ p ∈ ps, p < c.next) (hl : ∀ p ∈ ps, p ∉ c.live) (hpend : ∀ p ∈ ps, p ∉ c.pending)
    (hrep : ∀ p ∈ ps, p ∉ reported) : Inv reported { c with pending := c.pending ++ ps } := by
  refine { h with
    pending_lt := fun q hq => ?_
    pending_not_live := fun q hq => ?_
    nodup_pending := List.nodup_append.mpr ⟨h.nodup_pending, hps, ?_⟩
    reported_not_pending := fun q hq hq' => ?_ }
  · rcases List.mem_append.mp hq with hq | hq
    · exact h.pending_lt q hq
    · exact hlt q hq
  · rcases List.mem_append.mp hq with hq | hq
    · exact h.pending_not_live q hq
    · exact hl q hq
  · rintro q hq _ hq' rfl
    exact hpend q hq' hq
  · rcases List.mem_append.mp hq' with hq' | hq'
    · exact h.reported_not_pending q hq hq'
    · exact hrep q hq' hq

/-- An entry of the map stopped by `removeInternal` is `Quiet`. -/
theorem Inv.quiet_stopEntry (h : Inv reported c) {k : κ} {p : Nat} (hkp : (k, p) ∈ c.cache) :
    Quiet (stopEntry (c.heap p)) := by
  obtain ⟨-, -, -, harmed | hfired⟩ := h.live k p hkp
  · simp [stopEntry, Quiet, harmed]
  · simp [stopEntry, Quiet, hfired]

/-- An armed timer belongs to an entry of the map. -/
theorem Inv.mem_live_of_armed (h : Inv reported c) {p : Nat} (hp : p < c.next)
    (harmed : (c.heap p).timer = .armed) : p ∈ c.live := by
  by_contra hl
  rcases h.quiet p hp hl with hs | hr | ⟨hf, -⟩ <;> simp_all

/-- A timer going off keeps its entry in the map, not `deleted`. -/
theorem Inv.fire (h : Inv reported c) (p : Nat) : Inv reported (c.fire p) := by
  unfold TimeoutCache.fire
  split_ifs with hfire
  · obtain ⟨hp, harmed⟩ := hfire
    have hl := h.mem_live_of_armed hp harmed
    refine { h with
      live := fun k q hkq => ?_
      quiet := fun q hq hql => ?_
      fresh := fun q hq => ?_ }
    · by_cases hqp : q = p
      · subst hqp
        obtain ⟨hlt, hk, hdel, -⟩ := h.live k q hkq
        simp only [setEntry_heap, if_true, setEntry_next]
        exact ⟨hlt, hk, hdel, by simp⟩
      · simp only [setEntry_heap, if_neg hqp]
        exact h.live k q hkq
    · have hqp : q ≠ p := fun hqp => hql (hqp ▸ hl)
      simp only [setEntry_heap, if_neg hqp]
      exact h.quiet q hq hql
    · simp only [setEntry_heap, if_neg (show q ≠ p by simp only [setEntry_next] at hq; omega)]
      exact h.fresh q hq
  · exact h

/-- A timer that has gone off belongs to an allocated entry. -/
theorem Inv.lt_of_fired (h : Inv reported c) {p : Nat} (hfired : (c.heap p).timer = .fired) :
    p < c.next := by
  by_contra hp
  rw [h.fresh p (by omega)] at hfired
  cases hfired

/-- A timer that has gone off has its entry in the map exactly when `deleted` is not set: the
test the timer's function makes stands for the one it needs. -/
theorem Inv.mem_live_iff_not_deleted (h : Inv reported c) {p : Nat}
    (hfired : (c.heap p).timer = .fired) : p ∈ c.live ↔ (c.heap p).deleted = false := by
  constructor
  · intro hl
    exact (h.live _ p (h.mem_cache_key hl)).2.2.1
  · intro hdel
    by_contra hl
    rcases h.quiet p (h.lt_of_fired hfired) hl with hs | hr | ⟨-, hd⟩ <;> simp_all

/-- A goroutine calling a queued callback reports it, once. -/
theorem Inv.call (h : Inv reported c) {p : Nat} (hp : p ∈ c.pending) :
    Inv (reported ++ [p]) { c with pending := c.pending.erase p } := by
  have hp' : p ∉ c.pending.erase p := h.nodup_pending.not_mem_erase
  have hsub : ∀ q ∈ c.pending.erase p, q ∈ c.pending := fun q hq => List.mem_of_mem_erase hq
  have h' : Inv reported { c with pending := c.pending.erase p } :=
    { h with
      pending_lt := fun q hq => h.pending_lt q (hsub q hq)
      pending_not_live := fun q hq => h.pending_not_live q (hsub q hq)
      nodup_pending := h.nodup_pending.erase p
      reported_not_pending := fun q hq hq' => h.reported_not_pending q hq (hsub q hq') }
  exact h'.report (h.pending_lt p hp) (h.pending_not_live p hp) hp'
    fun hrep => h.reported_not_pending p hrep hp

variable [DecidableEq κ]

/-- Deleting the key of entry `p` takes exactly `p` out of the map. -/
theorem Inv.mem_live_erase (h : Inv reported c) {k : κ} {p : Nat} (hkp : (k, p) ∈ c.cache)
    (q : Nat) : q ∈ (Map.erase k c.cache).map Prod.snd ↔ q ∈ c.live ∧ q ≠ p := by
  constructor
  · intro hq
    obtain ⟨⟨k', q'⟩, hkq, rfl⟩ := List.mem_map.mp hq
    obtain ⟨hk', hkq⟩ := (Map.mem_erase h.nodup_keys).mp hkq
    refine ⟨mem_live hkq, fun hqp => hk' ?_⟩
    -- the entry of `q` is stored under `k'`, that of `p` under `k`
    dsimp only at hqp
    rw [← (h.live k' q' hkq).2.1, ← (h.live k p hkp).2.1, hqp]
  · rintro ⟨hq, hqp⟩
    obtain ⟨⟨k', q'⟩, hkq, rfl⟩ := List.mem_map.mp hq
    refine List.mem_map.mpr ⟨(k', q'), (Map.mem_erase h.nodup_keys).mpr ⟨fun hk => hqp ?_, hkq⟩, rfl⟩
    -- one key, one pointer
    dsimp only at hk ⊢
    rw [hk] at hkq
    exact Map.eq_of_mem_of_mem h.nodup_keys hkq hkp

/-- **Taking an entry out of the map.**  Deleting the key of entry `p` and making the entry
`Quiet` keeps the invariant: this is what `removeInternal` and a timer's function do. -/
theorem Inv.unlink (h : Inv reported c) {k : κ} {p : Nat} (hkp : (k, p) ∈ c.cache)
    {e : cacheEntry κ α} (he : Quiet e) :
    Inv reported { c.setEntry p e with cache := Map.erase k c.cache } := by
  have hp := (h.live k p hkp).1
  have hsub : ∀ q, q ∈ (Map.erase k c.cache).map Prod.snd → q ∈ c.live := fun q hq =>
    ((h.mem_live_erase hkp q).mp hq).1
  refine ⟨Map.nodup_keys_erase k c.cache h.nodup_keys, fun k' q hkq => ?_, fun q hq hql => ?_,
    fun q hq => ?_, h.pending_lt, fun q hq hql => h.pending_not_live q hq (hsub q hql),
    h.nodup_pending, h.reported_lt, fun q hq hql => h.reported_not_live q hq (hsub q hql),
    h.reported_not_pending, h.nodup_reported⟩
  · -- an entry still in the map is not `p`
    have hq := (h.mem_live_erase hkp q).mp (List.mem_map.mpr ⟨(k', q), hkq, rfl⟩)
    simp only [setEntry_heap, if_neg hq.2]
    exact h.live k' q (Map.erase_subset k c.cache _ hkq)
  · by_cases hqp : q = p
    · simp only [setEntry_heap, if_pos hqp]
      exact he
    · simp only [setEntry_heap, if_neg hqp]
      exact h.quiet q hq fun hl => hql ((h.mem_live_erase hkp q).mpr ⟨hl, hqp⟩)
  · simp only [setEntry_heap, if_neg (show q ≠ p by simp only [setEntry_next] at hq; omega)]
    exact h.fresh q hq

/-- `Add` of a key the map does not hold: a fresh entry, with its timer armed. -/
theorem Inv.add (h : Inv reported c) {key : κ} (hkey : c.cache.lookup key = none) (item : α) :
    Inv reported { c.setEntry c.next ⟨key, item, .armed, false⟩ with
      cache := Map.insert key c.next c.cache, next := c.next + 1 } := by
  have hnot : key ∉ c.cache.map Prod.fst := fun hk => by
    rw [Map.mem_keys_iff_isSome_lookup, hkey] at hk
    exact Bool.false_ne_true hk
  have hcache : Map.insert key c.next c.cache = c.cache ++ [(key, c.next)] :=
    Map.insert_of_notMem c.next hnot
  -- the pointers of the map are those it held, and the new one
  have hlive : ∀ q, q ∈ (Map.insert key c.next c.cache).map Prod.snd ↔ q ∈ c.live ∨ q = c.next := by
    intro q
    rw [hcache, List.map_append, List.mem_append]
    simp [TimeoutCache.live]
  have hne : ∀ q, q < c.next → q ≠ c.next := fun q hq => Nat.ne_of_lt hq
  refine ⟨Map.nodup_keys_insert key c.next c.cache h.nodup_keys, fun k q hkq => ?_,
    fun q hq hql => ?_, fun q hq => ?_, fun q hq => ?_, fun q hq hql => ?_, h.nodup_pending,
    fun q hq => ?_, fun q hq hql => ?_, h.reported_not_pending, h.nodup_reported⟩
  · rcases Map.keys_insert_subset key c.next c.cache _ hkq with hnew | hold
    · obtain ⟨rfl, rfl⟩ := Prod.mk.inj hnew
      simp
    · obtain ⟨hlt, hk, hdel, htimer⟩ := h.live k q hold
      simp only [setEntry_heap, if_neg (hne q hlt)]
      exact ⟨by omega, hk, hdel, htimer⟩
  · have hq' : q ≠ c.next := fun hqn => hql ((hlive q).mpr (.inr hqn))
    simp only [setEntry_heap, if_neg hq']
    exact h.quiet q (by dsimp only at hq; omega) fun hl => hql ((hlive q).mpr (.inl hl))
  · dsimp only at hq
    simp only [setEntry_heap, if_neg (show q ≠ c.next by omega)]
    exact h.fresh q (by omega)
  · have := h.pending_lt q hq
    show q < c.next + 1
    omega
  · rcases (hlive q).mp hql with hl | rfl
    · exact h.pending_not_live q hq hl
    · exact absurd (h.pending_lt _ hq) (Nat.lt_irrefl _)
  · have := h.reported_lt q hq
    show q < c.next + 1
    omega
  · rcases (hlive q).mp hql with hl | rfl
    · exact h.reported_not_live q hq hl
    · exact absurd (h.reported_lt _ hq) (Nat.lt_irrefl _)

/-- A timer's function keeps the invariant: it gives up on a `deleted` entry, and otherwise takes
the entry out of the map and queues its callback. -/
theorem Inv.expire (h : Inv reported c) (p : Nat) : Inv reported (c.expire p) := by
  unfold TimeoutCache.expire
  dsimp only
  split_ifs with hfired hdel
  · -- `deleted`: the entry is out of the map already, and its timer has run
    have hl : p ∉ c.live := fun hl => by
      rw [(h.mem_live_iff_not_deleted hfired).mp hl] at hdel
      cases hdel
    refine { h with
      live := fun k q hkq => ?_
      quiet := fun q hq hql => ?_
      fresh := fun q hq => ?_ }
    · have hqp : q ≠ p := fun hqp => hl (hqp ▸ mem_live hkq)
      simp only [setEntry_heap, if_neg hqp]
      exact h.live k q hkq
    · by_cases hqp : q = p
      · simp only [setEntry_heap, if_pos hqp, Quiet, true_or, or_true]
      · simp only [setEntry_heap, if_neg hqp]
        exact h.quiet q hq hql
    · simp only [setEntry_heap,
        if_neg (show q ≠ p by have := h.lt_of_fired hfired; simp only [setEntry_next] at hq; omega)]
      exact h.fresh q hq
  · -- not `deleted`: the entry is in the map under its key
    have hl : p ∈ c.live := (h.mem_live_iff_not_deleted hfired).mpr (by simpa using hdel)
    have hkp := h.mem_cache_key hl
    have hu := h.unlink hkp (e := { c.heap p with timer := .ran }) (.inr (.inl rfl))
    refine hu.queue (List.nodup_singleton p) ?_ ?_ ?_ ?_ <;>
      intro q hq <;> rw [List.mem_singleton.mp hq]
    · exact h.lt_of_fired hfired
    · exact fun hl' => ((h.mem_live_erase hkp p).mp hl').2 rfl
    · exact fun hpend => h.pending_not_live p hpend hl
    · exact fun hrep => h.reported_not_live p hrep hl
  · exact h

/-- `removeInternal` of a key the map holds takes its entry out; it reports nothing. -/
theorem Inv.removeInternal (h : Inv reported c) {key : κ} {p : Nat} (hkp : (key, p) ∈ c.cache) :
    Inv reported (c.removeInternal key).2 := by
  rw [removeInternal_of_lookup (Map.lookup_of_mem h.nodup_keys hkp)]
  exact h.unlink hkp (h.quiet_stopEntry hkp)

/-- `Remove` keeps the invariant, reporting the entry it returns. -/
theorem Inv.Remove (h : Inv reported c) (key : κ) :
    Inv (reported ++ ((c.Remove key).1.filterMap obs.entry)) (c.Remove key).2 := by
  cases hl : c.cache.lookup key with
  | none =>
    simp only [TimeoutCache.Remove, removeInternal_of_lookup_none hl, Option.map_none,
      List.filterMap_cons, obs.entry, List.filterMap_nil, List.append_nil]
    exact h
  | some p =>
    have hkp := Map.mem_of_lookup_eq_some hl
    have hr := h.removeInternal hkp
    rw [removeInternal_of_lookup hl] at hr
    simp only [TimeoutCache.Remove, removeInternal_of_lookup hl, Option.map_some,
      List.filterMap_cons, obs.entry, List.filterMap_nil]
    -- the entry left the map, and was neither queued nor reported
    have hlp : p ∈ c.live := mem_live hkp
    exact hr.report (h.live key p hkp).1 (fun hl' => ((h.mem_live_erase hkp p).mp hl').2 rfl)
      (fun hpend => h.pending_not_live p hpend hlp) (fun hrep => h.reported_not_live p hrep hlp)

/-- The loop of `Clear` keeps the invariant. -/
theorem Inv.foldl_clearStep : ∀ (m : List (κ × Nat)) (ps : List Nat) {c : TimeoutCache κ α},
    Inv reported c → c.cache = m → Inv reported ((m.map Prod.fst).foldl clearStep (ps, c)).2
  | [], _, _, h, _ => h
  | (k, p) :: m, ps, c, h, hc => by
    have hkp : (k, p) ∈ c.cache := by simp [hc]
    have hlookup := Map.lookup_of_mem h.nodup_keys hkp
    have hturn : clearStep (ps, c) k =
        (ps ++ [p], { c.setEntry p (stopEntry (c.heap p)) with cache := Map.erase k c.cache }) := by
      simp [clearStep, removeInternal_of_lookup hlookup]
    have herase : Map.erase k c.cache = m := by simp [hc, Map.erase]
    rw [List.map_cons, List.foldl_cons, hturn]
    refine Inv.foldl_clearStep m (ps ++ [p]) (h.unlink hkp (h.quiet_stopEntry hkp)) herase

/-- `Clear` keeps the invariant. -/
theorem Inv.Clear (h : Inv reported c) (runCallback : Bool) : Inv reported (c.Clear runCallback) := by
  obtain ⟨h1, h2, h3, h4⟩ := Cache.foldl_clearStep c.cache [] c rfl
  have hinv := Inv.foldl_clearStep c.cache [] h rfl
  unfold TimeoutCache.Clear
  cases runCallback
  · exact hinv
  · -- the entries removed were in the map: neither queued nor reported
    simp only [if_true]
    rw [h1, List.nil_append]
    refine hinv.queue h.nodup_live (fun p hp => ?_) (fun p _ hl => ?_) (fun p hp => ?_)
      (fun p hp hrep => h.reported_not_live p hrep hp)
    · rw [h4]
      obtain ⟨⟨k, q⟩, hkq, rfl⟩ := List.mem_map.mp hp
      exact (h.live k q hkq).1
    · simp [TimeoutCache.live, h2] at hl
    · rw [h3]
      exact fun hpend => h.pending_not_live p hpend hp

/-! ## Every run -/

/-- Each step keeps the invariant, with what it reports added. -/
theorem Inv.step {reported : List Nat} {c : TimeoutCache κ α} (h : Inv reported c)
    (e : event κ α) : Inv (reported ++ (step c e).1.filterMap obs.entry) (step c e).2 := by
  cases e with
  | Add key item =>
    cases hl : c.cache.lookup key with
    | some p =>
      rw [Cache.step, Add_of_lookup item hl]
      simpa [List.filterMap_cons] using h
    | none =>
      simp only [Cache.step, TimeoutCache.Add, hl, List.filterMap_cons, obs.entry,
        List.filterMap_nil, List.append_nil]
      exact h.add hl item
  | Remove key => exact h.Remove key
  | Clear runCallback => simpa [Cache.step] using h.Clear runCallback
  | fire p => simpa [Cache.step] using h.fire p
  | expire p => simpa [Cache.step] using h.expire p
  | call p =>
    by_cases hp : p ∈ c.pending
    · simpa [Cache.step, TimeoutCache.call, hp, obs.entry] using h.call hp
    · simpa [Cache.step, TimeoutCache.call, hp] using h

/-- **The invariant holds after every run**, with the entries the run reported. -/
theorem inv_run (es : List (event κ α)) :
    Inv ((runFromNew es).1.filterMap obs.entry) (runFromNew es).2 := by
  -- the invariant is a property of the outputs so far and the cache, which each step keeps
  have htrue : Invariant (fun _ _ => True) step fun (_ : TimeoutCache κ α) => True :=
    fun _ _ _ _ => trivial
  have hrun := htrue.outputs (P := fun out c => Inv (out.filterMap obs.entry) c)
    (fun out c e _ _ h => by simpa [List.filterMap_append] using h.step e)
    trivial (admits_of_forall (fun _ _ => trivial) _ es)
    (show Inv (([] : List (obs α)).filterMap obs.entry) NewTimeoutCache from inv_new)
  simpa [runFromNew] using hrun

/-- **A timer's function queues the callback exactly when the entry is in the map.**  In every
cache a run reaches, the function of a timer that has gone off queues the callback of its entry
if the map still holds the entry, and does nothing else to `pending`. -/
theorem expire_pending {reported : List Nat} {c : TimeoutCache κ α} (h : Inv reported c)
    (p : Nat) :
    (c.expire p).pending = if (c.heap p).timer = .fired ∧ p ∈ c.live then c.pending ++ [p]
      else c.pending := by
  unfold TimeoutCache.expire
  dsimp only
  by_cases hfired : (c.heap p).timer = .fired
  · have hiff := h.mem_live_iff_not_deleted hfired
    cases hdel : (c.heap p).deleted
    · -- the entry is in the map: its key is deleted and the callback queued
      have hl : p ∈ c.live := hiff.mpr hdel
      simp [hfired, hl]
    · have hl : p ∉ c.live := fun hl => by rw [hiff.mp hl] at hdel; cases hdel
      simp [hfired, hl]
  · simp [hfired]

/-- **Callbacks run at most once, and never for an entry `Remove` returned.**  Over any
interleaving of `Add`, `Remove` and `Clear` calls with timers going off, their functions taking
the mutex, and callbacks being called: no entry is reported twice, so each entry's callback is
called at most once, and never if `Remove` returned the entry, before or after.  In every cache
reached, a timer's function queues the callback exactly when its entry is still in the map, and
`Clear(runCallback)` empties the map, queueing the callbacks of all its entries when
`runCallback` is set; nothing else queues a callback.  `Add` of a key the map holds returns the
item there and changes nothing. -/
theorem callbacks_at_most_once (es : List (event κ α)) :
    ((runFromNew es).1.filterMap obs.entry).Nodup ∧
      (∀ p, ((runFromNew es).2.expire p).pending =
        if ((runFromNew es).2.heap p).timer = .fired ∧ p ∈ (runFromNew es).2.live then
          (runFromNew es).2.pending ++ [p]
        else (runFromNew es).2.pending) ∧
      (∀ runCallback, ((runFromNew es).2.Clear runCallback).cache = [] ∧
        ((runFromNew es).2.Clear runCallback).pending =
          (runFromNew es).2.pending ++ if runCallback then (runFromNew es).2.live else []) ∧
      ∀ key item p, (runFromNew es).2.cache.lookup key = some p →
        (runFromNew es).2.Add key item =
          ([.Add ((runFromNew es).2.heap p).item false], (runFromNew es).2) :=
  ⟨(inv_run es).nodup_reported, expire_pending (inv_run es), Clear_pending _,
    fun _ item _ hl => Add_of_lookup item hl⟩

end Inv

end Cache
end Internal
end GrpcGo
