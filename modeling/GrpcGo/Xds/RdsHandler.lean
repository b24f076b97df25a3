import GrpcGo.Lib.GoMap
import GrpcGo.Lib.Machine

/-!
# The RDS handler of an xDS server (`xds/internal/server/rds_handler.go`)

A server's listener watches the route configurations its filter chains name through an
`rdsHandler`.  `updateRouteNamesToWatch` starts a watch for each new name and cancels the watches
of names no longer there; each watch's callback, `handleRouteUpdate`, records its name's
configuration.  Whenever as many names have a configuration as are watched, the handler pushes
the configurations to the listener.  Counting stands for comparing the names, which is sound
only while every name with a configuration is watched.

The xDS client runs callbacks one at a time: `callCallback` checks, under the client's lock,
that the watcher is still registered, and runs the callback after releasing the lock
(`xdsclient/callback.go`), so a watch cancelled in between still has its callback run.

* `inv_step`, `run_inv`: over every run in which no callback runs for a name whose watch has
  been cancelled, every name with a configuration is watched, and no name is there twice;
* `pushed_watched`: in such runs every configuration pushed without an error holds exactly the
  names watched;
* `late_callback_pushes_unwatched`: a callback run after its watch was cancelled records a name
  that is not watched, and the handler pushes the configuration of that name while another is
  watched.
-/

namespace GrpcGo
namespace XdsServer

open Machine GoStd

variable {α ε : Type}

/-- `rdsHandlerUpdate`: the route configurations by name, or the error. -/
structure rdsHandlerUpdate (α ε : Type) where
  updates : List (String × α)
  err : Option ε

/-- An `rdsHandler` with the part of the xDS client its watches live in. -/
structure rdsHandler (α ε : Type) where
  updates : List (String × α)
  /-- `cancels`, each name's cancel function standing for the number of the watch it cancels. -/
  cancels : List (String × ℕ)
  /-- The client's route watchers, each by the number of its watch, with the name it watches. -/
  watchers : List (ℕ × String)
  /-- The number the next watch gets. -/
  nextWatch : ℕ
  /-- The callback the client's run loop has taken, to run once it has released its lock. -/
  running : Option (String × Except ε α)

/-- `newRDSHandler`. -/
def newRDSHandler : rdsHandler α ε := ⟨[], [], [], 0, none⟩

namespace rdsHandler

/-- `rh.xdsC.WatchRouteConfig(routeName, cb)`: the client registers a new watcher; the number
of the watch stands for the cancel function returned. -/
def WatchRouteConfig (rh : rdsHandler α ε) (routeName : String) : ℕ × rdsHandler α ε :=
  (rh.nextWatch,
    { rh with watchers := (rh.nextWatch, routeName) :: rh.watchers, nextWatch := rh.nextWatch + 1 })

/-- Calling the cancel function of the watch `w`: the client removes its watcher. -/
def cancelWatch (rh : rdsHandler α ε) (w : ℕ) : rdsHandler α ε :=
  { rh with watchers := rh.watchers.filter fun x => x.1 ≠ w }

/-- One iteration of the first loop of `updateRouteNamesToWatch`: a watch for a name not yet
watched. -/
def watchName (rh : rdsHandler α ε) (routeName : String) : rdsHandler α ε :=
  if routeName ∈ rh.cancels.map Prod.fst then rh
  else
    let (w, rh) := rh.WatchRouteConfig routeName
    { rh with cancels := Map.insert routeName w rh.cancels }

/-- One iteration of the second loop of `updateRouteNamesToWatch`, over the entry `(routeName, w)`
of `cancels`: a name no longer named has its watch cancelled and its entries deleted. -/
def unwatchName (routeNamesToWatch : List String) (rh : rdsHandler α ε) (entry : String × ℕ) :
    rdsHandler α ε :=
  if entry.1 ∈ routeNamesToWatch then rh
  else { rh.cancelWatch entry.2 with
         cancels := Map.erase entry.1 rh.cancels, updates := Map.erase entry.1 rh.updates }

/-- `updateRouteNamesToWatch(routeNamesToWatch)`, the names a list with no name twice (the keys of
the Go map): the updates pushed, and the handler after. -/
def updateRouteNamesToWatch (rh : rdsHandler α ε) (routeNamesToWatch : List String) :
    List (rdsHandlerUpdate α ε) × rdsHandler α ε :=
  let rh := routeNamesToWatch.foldl watchName rh
  -- the range over `rh.cancels` sees the entries as the loop starts
  let rh := rh.cancels.foldl (unwatchName routeNamesToWatch) rh
  if rh.updates.length = rh.cancels.length ∧ routeNamesToWatch ≠ [] then
    ([⟨rh.updates, none⟩], rh)
  else ([], rh)

/-- `handleRouteUpdate(routeName, update, err)`, the update or the error as one value. -/
def handleRouteUpdate (rh : rdsHandler α ε) (routeName : String) :
    Except ε α → List (rdsHandlerUpdate α ε) × rdsHandler α ε
  | .error err => ([⟨[], some err⟩], rh)
  | .ok update =>
    let rh := { rh with updates := Map.insert routeName update rh.updates }
    if rh.updates.length = rh.cancels.length then ([⟨rh.updates, none⟩], rh) else ([], rh)

/-- `close()`: every watch is cancelled; the maps are left as they are. -/
def close (rh : rdsHandler α ε) : rdsHandler α ε :=
  rh.cancels.foldl (fun rh entry => rh.cancelWatch entry.2) rh

end rdsHandler

/-- What the handler is called with: the listener's names to watch; the xDS client's run loop
taking a callback of a registered watcher, with an update or an error (`callCallback`'s check,
under the client's lock); the run loop running the callback it took; and `close`. -/
inductive rdsEvent (α ε : Type)
  | updateRouteNamesToWatch (routeNamesToWatch : List String)
  | callCallback (w : ℕ) (update : Except ε α)
  | runCallback
  | close

/-- The handler and the client on one event: the updates pushed to the listener, and the state
after.  The run loop takes one callback at a time. -/
def step (rh : rdsHandler α ε) : rdsEvent α ε → List (rdsHandlerUpdate α ε) × rdsHandler α ε
  | .updateRouteNamesToWatch routeNamesToWatch => rh.updateRouteNamesToWatch routeNamesToWatch
  | .callCallback w update =>
    match rh.running, rh.watchers.lookup w with
    | none, some routeName => ([], { rh with running := some (routeName, update) })
    | _, _ => ([], rh)
  | .runCallback =>
    match rh.running with
    | some (routeName, update) => ({ rh with running := none }).handleRouteUpdate routeName update
    | none => ([], rh)
  | .close => ([], rh.close)

/-! ## The names with a configuration are watched -/

namespace rdsHandler

/-- The handler's invariant: every name with a configuration is watched, and neither map has a
name twice. -/
structure Inv (rh : rdsHandler α ε) : Prop where
  updates_watched : ∀ x ∈ rh.updates.map Prod.fst, x ∈ rh.cancels.map Prod.fst
  cancels_nodup : (rh.cancels.map Prod.fst).Nodup
  updates_nodup : (rh.updates.map Prod.fst).Nodup

theorem inv_new : (newRDSHandler : rdsHandler α ε).Inv :=
  ⟨nofun, List.nodup_nil, List.nodup_nil⟩

/-- The invariant reads the two maps only. -/
theorem Inv.congr {rh rh' : rdsHandler α ε} (h : rh.Inv) (hupdates : rh'.updates = rh.updates)
    (hcancels : rh'.cancels = rh.cancels) : rh'.Inv where
  updates_watched := by rw [hupdates, hcancels]; exact h.updates_watched
  cancels_nodup := by rw [hcancels]; exact h.cancels_nodup
  updates_nodup := by rw [hupdates]; exact h.updates_nodup

theorem Inv.watchName {rh : rdsHandler α ε} (h : rh.Inv) (routeName : String) :
    (rh.watchName routeName).Inv := by
  unfold rdsHandler.watchName
  split_ifs
  · exact h
  · -- the new name is watched from now on
    refine ⟨fun x hx => ?_, Map.nodup_keys_insert _ _ _ h.cancels_nodup, h.updates_nodup⟩
    exact Map.mem_keys_insert.mpr (.inr (h.updates_watched x hx))

theorem Inv.unwatchName {rh : rdsHandler α ε} (h : rh.Inv) (routeNamesToWatch : List String)
    (entry : String × ℕ) : (unwatchName routeNamesToWatch rh entry).Inv := by
  unfold rdsHandler.unwatchName
  split_ifs
  · exact h
  · -- the name leaves both maps
    refine ⟨fun x hx => ?_, Map.nodup_keys_erase _ _ h.cancels_nodup,
      Map.nodup_keys_erase _ _ h.updates_nodup⟩
    obtain ⟨hne, hx⟩ := (Map.mem_keys_erase h.updates_nodup).mp hx
    exact (Map.mem_keys_erase h.cancels_nodup).mpr ⟨hne, h.updates_watched x hx⟩

theorem Inv.updateRouteNamesToWatch {rh : rdsHandler α ε} (h : rh.Inv)
    (routeNamesToWatch : List String) : (rh.updateRouteNamesToWatch routeNamesToWatch).2.Inv := by
  have h₁ := foldl_invariant (fun rh routeName (hrh : Inv rh) => hrh.watchName routeName)
    routeNamesToWatch h
  have h₂ := foldl_invariant (fun rh entry (hrh : Inv rh) => hrh.unwatchName routeNamesToWatch entry)
    (routeNamesToWatch.foldl rdsHandler.watchName rh).cancels h₁
  dsimp only [rdsHandler.updateRouteNamesToWatch]
  split_ifs
  · exact h₂
  · exact h₂

theorem Inv.close {rh : rdsHandler α ε} (h : rh.Inv) : rh.close.Inv := by
  unfold rdsHandler.close
  -- cancelling a watch leaves both maps
  obtain ⟨hupdates, hcancels⟩ := foldl_invariant (P := fun rh' : rdsHandler α ε =>
      rh'.updates = rh.updates ∧ rh'.cancels = rh.cancels)
    (f := fun rh entry => rh.cancelWatch entry.2) (fun _ _ hb => hb) rh.cancels ⟨rfl, rfl⟩
  exact h.congr hupdates hcancels

end rdsHandler

/-- The environment keeps to this: the callback the run loop runs with an update is for a name
still watched. -/
def NoLateCallback (rh : rdsHandler α ε) : rdsEvent α ε → Prop
  | .runCallback => ∀ routeName update, rh.running = some (routeName, .ok update) →
      routeName ∈ rh.cancels.map Prod.fst
  | _ => True

/-- **Every step keeps the invariant**, unless it runs a callback for a name whose watch has been
cancelled. -/
theorem inv_step : Invariant NoLateCallback step (rdsHandler.Inv (α := α) (ε := ε)) := by
  intro rh e h he
  cases e with
  | updateRouteNamesToWatch routeNamesToWatch => exact h.updateRouteNamesToWatch routeNamesToWatch
  | callCallback w update =>
    dsimp only [step]
    split
    · exact h.congr rfl rfl
    · exact h
  | runCallback =>
    dsimp only [step]
    split
    · rename_i routeName update hrunning
      cases update with
      | error err => exact h.congr rfl rfl
      | ok update =>
        -- the name is watched: recording its configuration keeps the invariant
        have hwatched := he routeName update hrunning
        have hinv : rdsHandler.Inv { rh with updates := Map.insert routeName update rh.updates } :=
          ⟨fun x hx => (Map.mem_keys_insert.mp hx).elim (fun hx => hx ▸ hwatched)
              (h.updates_watched x), h.cancels_nodup, Map.nodup_keys_insert _ _ _ h.updates_nodup⟩
        dsimp only [rdsHandler.handleRouteUpdate]
        split_ifs
        · exact hinv.congr rfl rfl
        · exact hinv.congr rfl rfl
    · exact h
  | close => exact h.close

/-- The invariant holds after every run in which no callback runs late. -/
theorem run_inv (es : List (rdsEvent α ε)) (h : Admits NoLateCallback step newRDSHandler es) :
    (run step newRDSHandler es).2.Inv :=
  inv_step.run rdsHandler.inv_new h

/-- Under the invariant, as many names with a configuration as names watched are the names
watched. -/
theorem rdsHandler.Inv.perm_of_length_eq {rh : rdsHandler α ε} (h : rh.Inv)
    (hlen : rh.updates.length = rh.cancels.length) :
    (rh.updates.map Prod.fst).Perm (rh.cancels.map Prod.fst) := by
  have hsub := List.subperm_of_subset h.updates_nodup h.updates_watched
  exact hsub.perm_of_length_le (by simp only [List.length_map]; omega)

/-- What a step pushes without an error is the handler's configurations after it, as many as the
names watched. -/
theorem step_pushes (rh : rdsHandler α ε) (e : rdsEvent α ε) :
    ∀ o ∈ (step rh e).1, o.err = none →
      o.updates = (step rh e).2.updates ∧
        (step rh e).2.updates.length = (step rh e).2.cancels.length := by
  intro o ho herr
  cases e with
  | updateRouteNamesToWatch routeNamesToWatch =>
    dsimp only [step, rdsHandler.updateRouteNamesToWatch] at ho ⊢
    split_ifs at ho ⊢ with hpush
    · rw [List.mem_singleton] at ho
      subst ho
      exact ⟨rfl, hpush.1⟩
    · cases ho
  | callCallback w update =>
    dsimp only [step] at ho
    split at ho <;> cases ho
  | runCallback =>
    cases hr : rh.running with
    | none =>
      simp only [step, hr, List.not_mem_nil] at ho
    | some entry =>
      obtain ⟨routeName, update⟩ := entry
      simp only [step, hr] at ho ⊢
      cases update with
      | error err =>
        simp only [rdsHandler.handleRouteUpdate, List.mem_singleton] at ho
        subst ho
        cases herr
      | ok update =>
        dsimp only [rdsHandler.handleRouteUpdate] at ho ⊢
        split_ifs at ho ⊢ with hpush
        · rw [List.mem_singleton] at ho
          subst ho
          exact ⟨rfl, hpush⟩
        · cases ho
  | close => cases ho

/-- **Every configuration pushed without an error holds exactly the names watched**, on every
step of a run in which no callback runs late. -/
theorem pushed_watched {rh : rdsHandler α ε} {e : rdsEvent α ε} (h : rh.Inv)
    (he : NoLateCallback rh e) :
    ∀ o ∈ (step rh e).1, o.err = none →
      (o.updates.map Prod.fst).Perm ((step rh e).2.cancels.map Prod.fst) := by
  intro o ho herr
  obtain ⟨hupdates, hlen⟩ := step_pushes rh e o ho herr
  rw [hupdates]
  exact (inv_step rh e h he).perm_of_length_eq hlen

/-- **A callback run after its watch was cancelled breaks the handler.**  Names `A` and `B` are
watched; the run loop takes the callback of `A`'s watcher, with a configuration; the listener
then names `B` alone, which cancels `A`'s watch; then the callback runs.  The handler records
`A`, counts one configuration for one name watched, and pushes `A`'s configuration alone while
`B` is the name watched. -/
theorem late_callback_pushes_unwatched (u : α) :
    (run step (newRDSHandler : rdsHandler α ε)
        [.updateRouteNamesToWatch ["A", "B"], .callCallback 0 (.ok u),
          .updateRouteNamesToWatch ["B"], .runCallback]).1 = [⟨[("A", u)], none⟩] ∧
      ((run step (newRDSHandler : rdsHandler α ε)
        [.updateRouteNamesToWatch ["A", "B"], .callCallback 0 (.ok u),
          .updateRouteNamesToWatch ["B"], .runCallback]).2.cancels.map Prod.fst) = ["B"] := by
  simp [run, step, rdsHandler.updateRouteNamesToWatch, rdsHandler.watchName,
    rdsHandler.WatchRouteConfig, rdsHandler.unwatchName, rdsHandler.cancelWatch,
    rdsHandler.handleRouteUpdate, Map.insert, Map.erase, newRDSHandler, List.lookup]

end XdsServer
end GrpcGo
