import GrpcGo.Lib.Machine

/-!
# The channelz database (`internal/channelz/funcs.go`, `internal/channelz/types.go`)

Channelz keeps every channel, subchannel, server and socket of the process in `channelMap`, by a
unique id, with each child's id in its parent's child maps.  `RemoveEntry` does not always delete:
a channel or subchannel leaves the map only once `RemoveEntry` was called on it, its child maps
are empty and no event of another entity's trace refers to it (`traceRefCount` is zero).  The
deletion cascades: `deleteSelfIfReady` first removes the entity from its parent's child map
(`deleteSelfFromTree`), which runs the parent's `deleteSelfIfReady`; then, if the count is zero,
it deletes the entity from the map and clears its trace, which decrements the count of every
entity its events refer to and runs their `deleteSelfIfReady`.  A trace holds at most
`maxTraceEntry` events; the event it evicts has its reference dropped by a goroutine.

The model keeps the objects on a heap by id, beside the set of ids still in the map: the Go code
keeps calling methods on an object after it has left the map.  The re-entrant calls are one
function `exec` of a `call` with fuel; running out of fuel is `none`.  A trace is the list of its
events' `RefID`s (`0` for an event that refers to nothing).

What every call does is said once, by `step_cases`, through the relation `Keeps` that the
cascade keeps (`exec_keeps`); the invariants of whole runs follow from it:
* `run_idsGiven`: the ids in the map were given out, once each; one that left never comes back;
* `run_socket_mem`: a socket stays in the map until its own `RemoveEntry`, which takes it out;
* `run_stranded`: an entity whose count is negative and whose parent has left the map stays in
  the map for good.

Deleting a channel whose parent was waiting for it runs the parent's deletion inside the
channel's `deleteSelfFromTree`; the parent's trace refers to the channel, so clearing it deletes
the channel from within, and when the outer call resumes it clears the channel's trace a second
time (`removeEntry_clears_trace_twice`).  A subchannel whose count that decrements twice is left
in the map with a count of `-1` and can never leave it.
-/

namespace GrpcGo
namespace Channelz

open Machine

/-- The kinds of entity channelz tracks. -/
inductive entityKind
  | channel
  | subChannel
  | server
  | listenSocket
  | normalSocket
  deriving DecidableEq, Repr

/-- An entity: the fields of `channel`, `subChannel`, `server`, `listenSocket` and
`normalSocket` that its lifecycle reads, each child map as the list of the children's ids; the
fields a kind does not have stay empty. -/
structure entity where
  kind : entityKind
  closeCalled : Bool
  pid : ℕ
  nestedChans : List ℕ
  subChans : List ℕ
  sockets : List ℕ
  listenSockets : List ℕ
  /-- The `RefID`s of the events of `trace`, `0` for an event that refers to nothing. -/
  trace : List ℕ
  traceRefCount : ℤ
  deriving DecidableEq, Repr

/-- A new entity of a kind, under the parent `pid`. -/
def entity.new (k : entityKind) (pid : ℕ) : entity := ⟨k, false, pid, [], [], [], [], [], 0⟩

/-- The channels and subchannels have a trace (`tracedChannel`). -/
def entityKind.traced : entityKind → Bool
  | .channel => true
  | .subChannel => true
  | _ => false

/-- The sockets, which have no children and no trace. -/
def entityKind.isSocket : entityKind → Bool
  | .listenSocket => true
  | .normalSocket => true
  | _ => false

/-- `channelMap`, with the objects: `heap` holds every object by its id, `inMap` the ids still in
the map of their kind, `nextId` the last id `idGen` gave, and `pending` the `RefID`s of evicted
trace events whose goroutine has not yet run. -/
structure channelMap where
  heap : ℕ → entity
  inMap : List ℕ
  topLevelChannels : List ℕ
  nextId : ℕ
  pending : List ℕ

/-- A new database. -/
def newChannelMap : channelMap := ⟨fun _ => entity.new .channel 0, [], [], 0, []⟩

namespace channelMap

/-- Writes the object of `id`. -/
def set (cm : channelMap) (id : ℕ) (e : entity) : channelMap :=
  { cm with heap := Function.update cm.heap id e }

/-- `deleteEntry(id)`: the id leaves the map; the object stays on the heap. -/
def deleteEntry (cm : channelMap) (id : ℕ) : channelMap :=
  { cm with inMap := cm.inMap.erase id, topLevelChannels := cm.topLevelChannels.erase id }

@[simp] theorem set_heap_self (cm : channelMap) (id : ℕ) (e : entity) : (cm.set id e).heap id = e :=
  Function.update_self ..

@[simp] theorem set_heap_ne {cm : channelMap} {id x : ℕ} (e : entity) (h : x ≠ id) :
    (cm.set id e).heap x = cm.heap x :=
  Function.update_of_ne h ..

@[simp] theorem set_inMap (cm : channelMap) (id : ℕ) (e : entity) : (cm.set id e).inMap = cm.inMap :=
  rfl

@[simp] theorem deleteEntry_heap (cm : channelMap) (id : ℕ) : (cm.deleteEntry id).heap = cm.heap :=
  rfl

@[simp] theorem deleteEntry_inMap (cm : channelMap) (id : ℕ) :
    (cm.deleteEntry id).inMap = cm.inMap.erase id :=
  rfl

end channelMap

/-- The calls of the deletion cascade, on the object of an id: `deleteChild pid id` is
`c.findEntry(pid).deleteChild(id)`, `decrTraceRefCount id` is `c.decrTraceRefCount(id)`. -/
inductive call
  | deleteSelfIfReady (id : ℕ)
  | deleteChild (pid id : ℕ)
  | decrTraceRefCount (id : ℕ)

/-- `deleteSelfFromMap` and what follows it: unless another trace refers to the entity, it
leaves the map and its trace is cleared, `decr` running on each reference the trace holds. -/
def channelMap.deleteSelfFromMap (cm : channelMap) (id : ℕ)
    (decr : ℕ → channelMap → Option channelMap) : Option channelMap :=
  if (cm.heap id).traceRefCount ≠ 0 then some cm
  else
    (cm.heap id).trace.foldlM (fun cm r => if r ≠ 0 then decr r cm else some cm)
      (cm.deleteEntry id)

/-- The deletion cascade, with `fuel` calls deep at most. -/
def exec : ℕ → call → channelMap → Option channelMap
  | 0, _, _ => none
  | fuel + 1, .deleteSelfIfReady id, cm =>
    let e := cm.heap id
    let fromMap := fun (cm : channelMap) =>
      cm.deleteSelfFromMap id fun r => exec fuel (.decrTraceRefCount r)
    match e.kind with
    | .channel =>
      if e.closeCalled ∧ e.subChans = [] ∧ e.nestedChans = [] then
        -- `deleteSelfFromTree`: a channel that is not top level leaves its parent first
        if e.pid ≠ 0 then (exec fuel (.deleteChild e.pid id) cm).bind fromMap else fromMap cm
      else some cm
    | .subChannel =>
      if e.closeCalled ∧ e.sockets = [] then (exec fuel (.deleteChild e.pid id) cm).bind fromMap
      else some cm
    | .server =>
      if e.closeCalled ∧ e.sockets = [] ∧ e.listenSockets = [] then some (cm.deleteEntry id)
      else some cm
    | .listenSocket => some cm
    | .normalSocket => some cm
  | fuel + 1, .deleteChild pid id, cm =>
    if pid ∈ cm.inMap then
      let p := cm.heap pid
      match p.kind with
      | .channel =>
        exec fuel (.deleteSelfIfReady pid)
          (cm.set pid { p with subChans := p.subChans.erase id, nestedChans := p.nestedChans.erase id })
      | .subChannel =>
        exec fuel (.deleteSelfIfReady pid) (cm.set pid { p with sockets := p.sockets.erase id })
      | .server =>
        exec fuel (.deleteSelfIfReady pid)
          (cm.set pid { p with sockets := p.sockets.erase id,
                               listenSockets := p.listenSockets.erase id })
      | .listenSocket => some cm
      | .normalSocket => some cm
    else some cm
  | fuel + 1, .decrTraceRefCount id, cm =>
    if id ∈ cm.inMap ∧ (cm.heap id).kind.traced then
      let e := cm.heap id
      exec fuel (.deleteSelfIfReady id) (cm.set id { e with traceRefCount := e.traceRefCount - 1 })
    else some cm

/-- The depth of calls a cascade is given: four per id given out. -/
def callFuel (cm : channelMap) : ℕ := 4 * cm.nextId + 4

namespace channelMap

/-- `c.findEntry(pid).addChild(id, e)` for a new child of kind `k`. -/
def addChild (cm : channelMap) (pid id : ℕ) (k : entityKind) : channelMap :=
  if pid ∈ cm.inMap then
    let p := cm.heap pid
    match p.kind, k with
    | .channel, .subChannel => cm.set pid { p with subChans := p.subChans.insert id }
    | .channel, .channel => cm.set pid { p with nestedChans := p.nestedChans.insert id }
    | .subChannel, .normalSocket => cm.set pid { p with sockets := p.sockets.insert id }
    | .server, .normalSocket => cm.set pid { p with sockets := p.sockets.insert id }
    | .server, .listenSocket => cm.set pid { p with listenSockets := p.listenSockets.insert id }
    | _, _ => cm
  else cm

/-- `idGen.genID()` and the `add*` that follows: the new object enters the map under its parent.
A channel with no parent is a top-level channel. -/
def register (cm : channelMap) (k : entityKind) (pid : ℕ) : ℕ × channelMap :=
  let id := cm.nextId + 1
  let cm := { cm with heap := Function.update cm.heap id (entity.new k pid), inMap := id :: cm.inMap,
                      nextId := id }
  if k = .channel ∧ pid = 0 then (id, { cm with topLevelChannels := id :: cm.topLevelChannels })
  else (id, cm.addChild pid id k)

/-- `RegisterChannel`, `RegisterSubChannel`, `RegisterServer`, `RegisterListenSocket` and
`RegisterNormalSocket`: all but a channel or a server need a parent, and are not registered
(`0` is returned) under `0`. -/
def Register (cm : channelMap) (k : entityKind) (pid : ℕ) : ℕ × channelMap :=
  match k with
  | .channel => cm.register .channel pid
  | .server => cm.register .server 0
  | k => if pid = 0 then (0, cm) else cm.register k pid

/-- `removeEntry(id)`: `c.findEntry(id).triggerDelete()`. -/
def removeEntry (cm : channelMap) (id : ℕ) : Option channelMap :=
  if id ∈ cm.inMap then
    let e := cm.heap id
    match e.kind with
    | .listenSocket | .normalSocket => exec (callFuel cm) (.deleteChild e.pid id) (cm.deleteEntry id)
    | _ => exec (callFuel cm) (.deleteSelfIfReady id) (cm.set id { e with closeCalled := true })
  else some cm

/-- `channelTrace.append` of an event referring to `ref` to the trace of `id`: a full trace
evicts its oldest event, whose reference a goroutine drops later. -/
def append (cm : channelMap) (maxTraceEntry id ref : ℕ) : channelMap :=
  let e := cm.heap id
  if e.trace.length = maxTraceEntry then
    match e.trace with
    | del :: rest =>
      { cm.set id { e with trace := rest ++ [ref] } with
        pending := if del ≠ 0 then cm.pending ++ [del] else cm.pending }
    | [] => cm.set id { e with trace := [ref] }
  else cm.set id { e with trace := e.trace ++ [ref] }

/-- `AddTraceEvent(id, desc)` (`traceEvent`), where `parent` says whether `desc.Parent` is set:
the event goes to the entity's trace, and one referring to it to its parent's. -/
def AddTraceEvent (cm : channelMap) (maxTraceEntry id : ℕ) (parent : Bool) : channelMap :=
  if maxTraceEntry = 0 then cm
  else if id ∈ cm.inMap ∧ (cm.heap id).kind.traced then
    let cm := cm.append maxTraceEntry id 0
    let pid := (cm.heap id).pid
    if parent ∧ pid ∈ cm.inMap ∧ (cm.heap pid).kind.traced then
      let cm := cm.append maxTraceEntry pid id
      let e := cm.heap id
      cm.set id { e with traceRefCount := e.traceRefCount + 1 }
    else cm
  else cm

end channelMap

/-- What the database is called with; `evicted i` is the goroutine of the `i`-th pending eviction
running. -/
inductive event
  | Register (k : entityKind) (pid : ℕ)
  | RemoveEntry (id : ℕ)
  | AddTraceEvent (id : ℕ) (parent : Bool)
  | evicted (i : ℕ)

/-- The database on one call, with traces of `maxTraceEntry` events; a `Register` returns its
id.  A cascade that runs out of fuel ends the run. -/
def step (maxTraceEntry : ℕ) : Option channelMap → event → List ℕ × Option channelMap
  | none, _ => ([], none)
  | some cm, .Register k pid => ([(cm.Register k pid).1], some (cm.Register k pid).2)
  | some cm, .RemoveEntry id => ([], cm.removeEntry id)
  | some cm, .AddTraceEvent id parent => ([], some (cm.AddTraceEvent maxTraceEntry id parent))
  | some cm, .evicted i =>
    match cm.pending[i]? with
    | some ref =>
      ([], exec (callFuel cm) (.decrTraceRefCount ref) { cm with pending := cm.pending.eraseIdx i })
    | none => ([], some cm)

/-! ## What the cascade keeps -/

/-- A relation that each step of a fold in `Option` keeps, reflexive and transitive, holds
between the fold's start and its end. -/
theorem foldlM_rel {α β : Type} {R : α → α → Prop} (hrefl : ∀ a, R a a)
    (htrans : ∀ a b c, R a b → R b c → R a c) {f : α → β → Option α}
    (hf : ∀ a x b, f a x = some b → R a b) :
    ∀ (l : List β) (a b : α), l.foldlM f a = some b → R a b
  | [], a, b, h => by
    cases h
    exact hrefl a
  | x :: l, a, b, h => by
    rw [List.foldlM_cons] at h
    obtain ⟨a', ha', hrest⟩ := Option.bind_eq_some_iff.mp h
    exact htrans _ _ _ (hf a x a' ha') (foldlM_rel hrefl htrans hf l a' b hrest)

/-- What the deletion cascade leaves as it was: the kind and parent of every object, the ids
given out, and the sockets in the map.  It only takes ids out of the map and only decrements
counts, and an entity whose count is negative cannot leave the map. -/
structure Keeps (cm cm' : channelMap) : Prop where
  kind_eq : ∀ x, (cm'.heap x).kind = (cm.heap x).kind
  pid_eq : ∀ x, (cm'.heap x).pid = (cm.heap x).pid
  count_le : ∀ x, (cm'.heap x).traceRefCount ≤ (cm.heap x).traceRefCount
  nextId_eq : cm'.nextId = cm.nextId
  inMap_sub : ∀ x ∈ cm'.inMap, x ∈ cm.inMap
  nodup : cm.inMap.Nodup → cm'.inMap.Nodup
  socket_iff : ∀ x, (cm.heap x).kind.isSocket → (x ∈ cm'.inMap ↔ x ∈ cm.inMap)
  negative_stays : ∀ x ∈ cm.inMap, (cm.heap x).kind.traced → (cm.heap x).traceRefCount < 0 →
    x ∈ cm'.inMap

namespace Keeps

/-- A change to the fields no lemma reads: the top-level channels, the pending evictions. -/
theorem of_eq {cm cm' : channelMap} (hheap : cm'.heap = cm.heap) (hinMap : cm'.inMap = cm.inMap)
    (hnext : cm'.nextId = cm.nextId) : Keeps cm cm' where
  kind_eq _ := by rw [hheap]
  pid_eq _ := by rw [hheap]
  count_le _ := Int.le_of_eq (by rw [hheap])
  nextId_eq := hnext
  inMap_sub _ hx := hinMap ▸ hx
  nodup h := hinMap ▸ h
  socket_iff _ _ := by rw [hinMap]
  negative_stays _ hx _ _ := hinMap ▸ hx

theorem refl (cm : channelMap) : Keeps cm cm := of_eq rfl rfl rfl

theorem trans {cm₁ cm₂ cm₃ : channelMap} (h₁ : Keeps cm₁ cm₂) (h₂ : Keeps cm₂ cm₃) :
    Keeps cm₁ cm₃ where
  kind_eq x := (h₂.kind_eq x).trans (h₁.kind_eq x)
  pid_eq x := (h₂.pid_eq x).trans (h₁.pid_eq x)
  count_le x := Int.le_trans (h₂.count_le x) (h₁.count_le x)
  nextId_eq := h₂.nextId_eq.trans h₁.nextId_eq
  inMap_sub x hx := h₁.inMap_sub x (h₂.inMap_sub x hx)
  nodup h := h₂.nodup (h₁.nodup h)
  socket_iff x hx := (h₂.socket_iff x (by rw [h₁.kind_eq x]; exact hx)).trans (h₁.socket_iff x hx)
  negative_stays x hx htr hneg :=
    h₂.negative_stays x (h₁.negative_stays x hx htr hneg) (by rw [h₁.kind_eq x]; exact htr)
      (Int.lt_of_le_of_lt (h₁.count_le x) hneg)

/-- What holds of a field of the written object and the old one holds of every id. -/
theorem set_heap_rel {α : Type} {R : α → α → Prop} (hR : ∀ a, R a a) (f : entity → α)
    {cm : channelMap} {id : ℕ} {e : entity} (he : R (f e) (f (cm.heap id))) (x : ℕ) :
    R (f ((cm.set id e).heap x)) (f (cm.heap x)) := by
  by_cases hx : x = id
  · rw [hx, channelMap.set_heap_self]
    exact he
  · rw [channelMap.set_heap_ne e hx]
    exact hR _

/-- Writing the fields of an object, its kind and parent aside, with its count not raised. -/
theorem set (cm : channelMap) (id : ℕ) (e : entity) (hkind : e.kind = (cm.heap id).kind)
    (hpid : e.pid = (cm.heap id).pid) (hcount : e.traceRefCount ≤ (cm.heap id).traceRefCount) :
    Keeps cm (cm.set id e) where
  kind_eq := set_heap_rel (fun _ => rfl) entity.kind hkind
  pid_eq := set_heap_rel (fun _ => rfl) entity.pid hpid
  count_le := set_heap_rel Int.le_refl entity.traceRefCount hcount
  nextId_eq := rfl
  inMap_sub _ hx := hx
  nodup h := h
  socket_iff _ _ := Iff.rfl
  negative_stays _ hx _ _ := hx

/-- Deleting an entity that is not a socket, and that no trace refers to if it has a trace. -/
theorem deleteEntry (cm : channelMap) {id : ℕ} (hid : (cm.heap id).kind.isSocket = false)
    (hcount : (cm.heap id).kind.traced → (cm.heap id).traceRefCount = 0) :
    Keeps cm (cm.deleteEntry id) where
  kind_eq _ := rfl
  pid_eq _ := rfl
  count_le _ := Int.le_refl _
  nextId_eq := rfl
  inMap_sub _ hx := List.mem_of_mem_erase hx
  nodup h := h.erase id
  socket_iff x hx := by
    have hne : x ≠ id := by
      rintro rfl
      rw [hid] at hx
      cases hx
    exact List.mem_erase_of_ne hne
  negative_stays x hx htr hneg := by
    have hne : x ≠ id := by
      rintro rfl
      rw [hcount htr] at hneg
      exact Int.lt_irrefl 0 hneg
    exact (List.mem_erase_of_ne hne).mpr hx

end Keeps

/-- `deleteSelfFromMap` of an entity that is not a socket keeps what the cascade keeps, when each
`decr` does. -/
theorem deleteSelfFromMap_keeps {cm cm' : channelMap} {id : ℕ}
    (hid : (cm.heap id).kind.isSocket = false) {decr : ℕ → channelMap → Option channelMap}
    (hdecr : ∀ r a b, decr r a = some b → Keeps a b) (h : cm.deleteSelfFromMap id decr = some cm') :
    Keeps cm cm' := by
  unfold channelMap.deleteSelfFromMap at h
  split_ifs at h with hcount
  · cases h
    exact Keeps.refl cm
  · -- the trace is cleared, one reference at a time, after the entity leaves the map
    refine (Keeps.deleteEntry cm hid fun _ => not_not.mp hcount).trans
      (foldlM_rel Keeps.refl (fun _ _ _ => Keeps.trans)
      (fun a r b hab => ?_) _ _ _ h)
    split_ifs at hab
    · exact hdecr r a b hab
    · cases hab
      exact Keeps.refl a

/-- **The cascade keeps the kinds, the ids given out and the sockets in the map**, and only
takes ids out of the map. -/
theorem exec_keeps : ∀ (n : ℕ) (c : call) (cm cm' : channelMap), exec n c cm = some cm' →
    Keeps cm cm'
  | 0, _, _, _, h => nomatch h
  | n + 1, .deleteSelfIfReady id, cm, cm', h => by
    have hdecr : ∀ r a b, exec n (.decrTraceRefCount r) a = some b → Keeps a b :=
      fun r a b => exec_keeps n (.decrTraceRefCount r) a b
    -- the tree step keeps, and the kind of `id` with it
    have hthen : ∀ cm₁, Keeps cm cm₁ → (cm.heap id).kind.isSocket = false →
        cm₁.deleteSelfFromMap id (fun r => exec n (.decrTraceRefCount r)) = some cm' →
        Keeps cm cm' := fun cm₁ h₁ hid hfrom =>
      h₁.trans (deleteSelfFromMap_keeps (by rw [h₁.kind_eq id]; exact hid) hdecr hfrom)
    simp only [exec] at h
    split at h
    · rename_i hk
      split_ifs at h with hready hpid
      · obtain ⟨cm₁, h₁, hfrom⟩ := Option.bind_eq_some_iff.mp h
        exact hthen cm₁ (exec_keeps n _ cm cm₁ h₁) (by rw [hk]; rfl) hfrom
      · exact hthen cm (Keeps.refl cm) (by rw [hk]; rfl) h
      · cases h
        exact Keeps.refl cm
    · rename_i hk
      split_ifs at h with hready
      · obtain ⟨cm₁, h₁, hfrom⟩ := Option.bind_eq_some_iff.mp h
        exact hthen cm₁ (exec_keeps n _ cm cm₁ h₁) (by rw [hk]; rfl) hfrom
      · cases h
        exact Keeps.refl cm
    · rename_i hk
      split_ifs at h with hready
      · cases h
        exact Keeps.deleteEntry cm (by rw [hk]; rfl) (by rw [hk]; nofun)
      · cases h
        exact Keeps.refl cm
    all_goals
      cases h
      exact Keeps.refl cm
  | n + 1, .deleteChild pid id, cm, cm', h => by
    simp only [exec] at h
    split_ifs at h with hpid
    · -- the parent leaves the child's id out of its child maps, then may delete itself
      split at h
      · refine (Keeps.set cm pid _ ?_ ?_ ?_).trans (exec_keeps n _ _ cm' h)
        exacts [rfl, rfl, Int.le_refl _]
      · refine (Keeps.set cm pid _ ?_ ?_ ?_).trans (exec_keeps n _ _ cm' h)
        exacts [rfl, rfl, Int.le_refl _]
      · refine (Keeps.set cm pid _ ?_ ?_ ?_).trans (exec_keeps n _ _ cm' h)
        exacts [rfl, rfl, Int.le_refl _]
      all_goals
        cases h
        exact Keeps.refl cm
    · cases h
      exact Keeps.refl cm
  | n + 1, .decrTraceRefCount id, cm, cm', h => by
    simp only [exec] at h
    split_ifs at h with hid
    · -- the count goes down by one
      refine (Keeps.set cm id _ ?_ ?_ ?_).trans (exec_keeps n _ _ cm' h)
      exacts [rfl, rfl, Int.sub_le_self _ (Int.le_of_lt Int.zero_lt_one)]
    · cases h
      exact Keeps.refl cm

/-! ## What each call keeps -/

namespace channelMap

/-- `addChild` writes the parent's child maps, nothing else. -/
theorem addChild_keeps (cm : channelMap) (pid id : ℕ) (k : entityKind) :
    Keeps cm (cm.addChild pid id k) := by
  unfold addChild
  split_ifs
  · dsimp only
    split <;> first
      | exact Keeps.set cm pid _ rfl rfl (Int.le_refl _)
      | exact Keeps.refl cm
  · exact Keeps.refl cm

/-- A registration adds the fresh id `nextId + 1` with its new object; what follows, the parent's
`addChild`, keeps. -/
theorem register_keeps (cm : channelMap) (k : entityKind) (pid : ℕ) :
    Keeps { cm with heap := Function.update cm.heap (cm.nextId + 1) (entity.new k pid),
                    inMap := (cm.nextId + 1) :: cm.inMap, nextId := cm.nextId + 1 }
      (cm.register k pid).2 := by
  unfold register
  split_ifs
  · exact Keeps.of_eq rfl rfl rfl
  · exact addChild_keeps _ _ _ _

/-- `Register` is a registration, or does nothing for an entity with no parent. -/
theorem Register_cases (cm : channelMap) (k : entityKind) (pid : ℕ) :
    (cm.Register k pid).2 = cm ∨ ∃ k' pid', (cm.Register k pid).2 = (cm.register k' pid').2 := by
  unfold Register
  split
  · exact .inr ⟨_, _, rfl⟩
  · exact .inr ⟨_, _, rfl⟩
  · split_ifs
    · exact .inl rfl
    · exact .inr ⟨_, _, rfl⟩

/-- `removeEntry` of a socket in the map deletes it, and the cascade on its parent keeps. -/
theorem removeEntry_socket {cm cm' : channelMap} {id : ℕ} (hin : id ∈ cm.inMap)
    (hsock : (cm.heap id).kind.isSocket) (h : cm.removeEntry id = some cm') :
    Keeps (cm.deleteEntry id) cm' := by
  unfold removeEntry at h
  rw [if_pos hin] at h
  dsimp only at h
  cases hk : (cm.heap id).kind <;> rw [hk] at h hsock
  all_goals first
    | exact absurd hsock (by decide)
    | exact exec_keeps _ _ _ _ h

/-- `removeEntry` of anything but a socket in the map keeps. -/
theorem removeEntry_keeps {cm cm' : channelMap} {id : ℕ}
    (hid : ¬(id ∈ cm.inMap ∧ (cm.heap id).kind.isSocket)) (h : cm.removeEntry id = some cm') :
    Keeps cm cm' := by
  unfold removeEntry at h
  split_ifs at h with hin
  · dsimp only at h
    split at h
    · rename_i hk
      exact absurd ⟨hin, by rw [hk]; rfl⟩ hid
    · rename_i hk
      exact absurd ⟨hin, by rw [hk]; rfl⟩ hid
    · -- `closeCalled` is set before the cascade
      refine (Keeps.set cm id _ ?_ ?_ ?_).trans (exec_keeps _ _ _ _ h)
      exacts [rfl, rfl, Int.le_refl _]
  · cases h
    exact Keeps.refl cm

/-- Appending to a trace writes the trace and the pending evictions. -/
theorem append_keeps (cm : channelMap) (maxTraceEntry id ref : ℕ) :
    Keeps cm (cm.append maxTraceEntry id ref) := by
  unfold append
  dsimp only
  split_ifs
  · split
    · refine (Keeps.set cm id _ ?_ ?_ ?_).trans (Keeps.of_eq rfl rfl rfl)
      exacts [rfl, rfl, Int.le_refl _]
    · exact Keeps.set cm id _ rfl rfl (Int.le_refl _)
  · exact Keeps.set cm id _ rfl rfl (Int.le_refl _)

/-- `AddTraceEvent` keeps, but for the count of the entity whose parent it traces: that goes up
by one, and only when the parent is in the map. -/
theorem AddTraceEvent_keeps (cm : channelMap) (maxTraceEntry id : ℕ) (parent : Bool) :
    Keeps cm (cm.AddTraceEvent maxTraceEntry id parent) ∨
      ∃ cm₁, Keeps cm cm₁ ∧ (cm.heap id).pid ∈ cm.inMap ∧
        cm.AddTraceEvent maxTraceEntry id parent =
          cm₁.set id { cm₁.heap id with traceRefCount := (cm₁.heap id).traceRefCount + 1 } := by
  unfold AddTraceEvent
  dsimp only
  split_ifs with _ _ hparent
  · exact .inl (Keeps.refl cm)
  · -- both appends keep; the parent is looked up after the first
    have h₁ := append_keeps cm maxTraceEntry id 0
    have h₂ := h₁.trans (append_keeps _ maxTraceEntry ((cm.append maxTraceEntry id 0).heap id).pid id)
    refine .inr ⟨_, h₂, ?_, rfl⟩
    rw [← h₁.pid_eq id]
    exact h₁.inMap_sub _ hparent.2.1
  · exact .inl (append_keeps cm maxTraceEntry id 0)
  · exact .inl (Keeps.refl cm)

end channelMap

/-- A pending eviction's goroutine keeps. -/
theorem evicted_keeps {cm cm' : channelMap} {i : ℕ} {m : ℕ}
    (h : (step m (some cm) (.evicted i)).2 = some cm') : Keeps cm cm' := by
  simp only [step] at h
  split at h
  · have hk : Keeps cm { cm with pending := cm.pending.eraseIdx i } := Keeps.of_eq rfl rfl rfl
    exact hk.trans (exec_keeps _ _ _ _ h)
  · cases h
    exact Keeps.refl cm

/-- An id that has left the map stays out through what keeps. -/
theorem Keeps.not_mem {cm cm' : channelMap} (hk : Keeps cm cm') {x : ℕ} (hx : x ∉ cm.inMap) :
    x ∉ cm'.inMap :=
  fun h => hx (hk.inMap_sub x h)

/-! ## What one call does -/

/-- **What one call does to the database**: it keeps, and is no removal of a socket in the map;
or it registers the fresh id `nextId + 1` with its new object and then keeps; or it deletes a
socket in the map and then keeps; or it keeps and then raises the count of an entity whose parent
is in the map. -/
theorem step_cases {m : ℕ} {cm cm' : channelMap} {e : event}
    (hs : (step m (some cm) e).2 = some cm') :
    (Keeps cm cm' ∧
        ∀ id, e = .RemoveEntry id → id ∈ cm.inMap → (cm.heap id).kind.isSocket = false) ∨
      ((∀ id, e ≠ .RemoveEntry id) ∧
        ∃ k pid, Keeps { cm with heap := Function.update cm.heap (cm.nextId + 1) (entity.new k pid),
                                 inMap := (cm.nextId + 1) :: cm.inMap, nextId := cm.nextId + 1 } cm') ∨
      (∃ id, e = .RemoveEntry id ∧ id ∈ cm.inMap ∧ (cm.heap id).kind.isSocket ∧
        Keeps (cm.deleteEntry id) cm') ∨
      ((∀ id, e ≠ .RemoveEntry id) ∧ ∃ cm₁ id, Keeps cm cm₁ ∧ (cm.heap id).pid ∈ cm.inMap ∧
        cm' = cm₁.set id { cm₁.heap id with traceRefCount := (cm₁.heap id).traceRefCount + 1 }) := by
  cases e with
  | Register k pid =>
    cases hs
    rcases channelMap.Register_cases cm k pid with heq | ⟨k', pid', heq⟩
    · rw [heq]
      exact .inl ⟨Keeps.refl cm, fun _ h => by cases h⟩
    · rw [heq]
      exact .inr (.inl ⟨(fun _ h => by cases h), k', pid', channelMap.register_keeps cm k' pid'⟩)
  | RemoveEntry id =>
    by_cases hid : id ∈ cm.inMap ∧ (cm.heap id).kind.isSocket
    · exact .inr (.inr (.inl ⟨id, rfl, hid.1, hid.2, channelMap.removeEntry_socket hid.1 hid.2 hs⟩))
    · refine .inl ⟨channelMap.removeEntry_keeps hid hs, fun i hi hin => ?_⟩
      cases hi
      exact Bool.eq_false_iff.mpr fun hsock => hid ⟨hin, hsock⟩
  | AddTraceEvent id parent =>
    cases hs
    rcases channelMap.AddTraceEvent_keeps cm m id parent with hk | ⟨cm₁, hk, hpid, heq⟩
    · exact .inl ⟨hk, fun _ h => by cases h⟩
    · exact .inr (.inr (.inr ⟨(fun _ h => by cases h), cm₁, id, hk, hpid, heq⟩))
  | evicted i => exact .inl ⟨evicted_keeps hs, fun _ h => by cases h⟩

/-- A property of the database that every call keeps holds after every run that does not run
out of fuel. -/
theorem run_preserves {m : ℕ} {P : channelMap → Prop}
    (hP : ∀ cm cm' e, P cm → (step m (some cm) e).2 = some cm' → P cm') (es : List event)
    {cm cm' : channelMap} (h : P cm) (hrun : (run (step m) (some cm) es).2 = some cm') : P cm' := by
  -- the property, lifted to the states of the machine: `none` is a run that ran out
  have hinv : Invariant (fun _ _ => True) (step m) (fun s => ∀ c ∈ s, P c) := by
    rintro (_ | c) e hs -
    · intro c' hc'
      cases hc'
    · intro c' hc'
      exact hP c c' e (hs c rfl) hc'
  exact hinv.run (fun c hc => by cases hc; exact h) (admits_of_forall (fun _ _ => trivial) _ es)
    cm' hrun

/-! ## The ids in the map -/

/-- The ids in the map were given out, each is there once. -/
structure IdsGiven (cm : channelMap) : Prop where
  nodup : cm.inMap.Nodup
  le_nextId : ∀ x ∈ cm.inMap, x ≤ cm.nextId

theorem IdsGiven.keeps {cm cm' : channelMap} (h : IdsGiven cm) (hk : Keeps cm cm') : IdsGiven cm' :=
  ⟨hk.nodup h.nodup, fun x hx => hk.nextId_eq ▸ h.le_nextId x (hk.inMap_sub x hx)⟩

/-- An id given out is not the fresh one. -/
theorem IdsGiven.ne_fresh {cm : channelMap} {x : ℕ} (hx : x ≤ cm.nextId) : x ≠ cm.nextId + 1 := by
  omega

/-- **Every call keeps the ids in the map given out, once each**: the fresh id is above every id
of the map. -/
theorem IdsGiven.step {cm cm' : channelMap} (h : IdsGiven cm) {m : ℕ} {e : event}
    (hs : (step m (some cm) e).2 = some cm') : IdsGiven cm' := by
  rcases step_cases hs with ⟨hk, -⟩ | ⟨-, k, pid, hk⟩ | ⟨id, -, -, -, hk⟩ | ⟨-, cm₁, id, hk, -, rfl⟩
  · exact h.keeps hk
  · refine IdsGiven.keeps ⟨List.nodup_cons.mpr ⟨fun hin => ?_, h.nodup⟩, fun x hx => ?_⟩ hk
    · exact IdsGiven.ne_fresh (h.le_nextId _ hin) rfl
    · rcases List.mem_cons.mp hx with rfl | hx
      · exact Nat.le_refl _
      · exact Nat.le_succ_of_le (h.le_nextId x hx)
  · have hdel : IdsGiven (cm.deleteEntry id) :=
      ⟨h.nodup.erase id, fun x hx => h.le_nextId x (List.mem_of_mem_erase hx)⟩
    exact hdel.keeps hk
  · -- the count written last is no id of the map
    have h₁ := h.keeps hk
    exact ⟨h₁.nodup, h₁.le_nextId⟩

theorem idsGiven_newChannelMap : IdsGiven newChannelMap := ⟨List.nodup_nil, nofun⟩

/-- The ids in the map of every state a run reaches were given out, once each. -/
theorem run_idsGiven (m : ℕ) (es : List event) {cm : channelMap}
    (hrun : (run (step m) (some newChannelMap) es).2 = some cm) : IdsGiven cm :=
  run_preserves (fun _ _ _ h hs => h.step hs) es idsGiven_newChannelMap hrun

/-- The ids given out only grow. -/
theorem step_nextId_le {m : ℕ} {cm cm' : channelMap} {e : event}
    (hs : (step m (some cm) e).2 = some cm') : cm.nextId ≤ cm'.nextId := by
  rcases step_cases hs with ⟨hk, -⟩ | ⟨-, k, pid, hk⟩ | ⟨id, -, -, -, hk⟩ | ⟨-, cm₁, id, hk, -, rfl⟩
  · exact Nat.le_of_eq hk.nextId_eq.symm
  · exact hk.nextId_eq ▸ Nat.le_succ _
  · exact Nat.le_of_eq hk.nextId_eq.symm
  · exact Nat.le_of_eq hk.nextId_eq.symm

/-- **An id given out that has left the map never comes back**: ids enter the map fresh. -/
theorem step_not_mem {m : ℕ} {cm cm' : channelMap} {e : event}
    (hs : (step m (some cm) e).2 = some cm') {x : ℕ} (hle : x ≤ cm.nextId) (hx : x ∉ cm.inMap) :
    x ∉ cm'.inMap := by
  rcases step_cases hs with ⟨hk, -⟩ | ⟨-, k, pid, hk⟩ | ⟨id, -, -, -, hk⟩ | ⟨-, cm₁, id, hk, -, rfl⟩
  · exact hk.not_mem hx
  · refine hk.not_mem fun hin => ?_
    rcases List.mem_cons.mp hin with hfresh | hin
    · exact IdsGiven.ne_fresh hle hfresh
    · exact hx hin
  · exact hk.not_mem fun hin => hx (List.mem_of_mem_erase hin)
  · exact hk.not_mem hx

theorem run_not_mem {m : ℕ} (es : List event) {cm cm' : channelMap} {x : ℕ} (hle : x ≤ cm.nextId)
    (hx : x ∉ cm.inMap) (hrun : (run (step m) (some cm) es).2 = some cm') : x ∉ cm'.inMap :=
  (run_preserves (P := fun c => x ≤ c.nextId ∧ x ∉ c.inMap)
    (fun _ _ _ h hs => ⟨Nat.le_trans h.1 (step_nextId_le hs), step_not_mem hs h.1 h.2⟩)
    es ⟨hle, hx⟩ hrun).2

/-! ## Sockets -/

/-- **A socket in the map leaves it on its own `RemoveEntry` and on no other call**, and stays a
socket. -/
theorem step_socket_mem {m : ℕ} {cm cm' : channelMap} (hids : IdsGiven cm) {e : event}
    (hs : (step m (some cm) e).2 = some cm') {x : ℕ} (hx : x ∈ cm.inMap)
    (hsock : (cm.heap x).kind.isSocket) :
    (cm'.heap x).kind = (cm.heap x).kind ∧ (x ∈ cm'.inMap ↔ e ≠ .RemoveEntry x) := by
  rcases step_cases hs with ⟨hk, hnot⟩ | ⟨hne, k, pid, hk⟩ | ⟨id, rfl, -, -, hk⟩ |
    ⟨hne, cm₁, id, hk, -, rfl⟩
  · refine ⟨hk.kind_eq x, iff_of_true ((hk.socket_iff x hsock).mpr hx) ?_⟩
    rintro rfl
    rw [hnot x rfl hx] at hsock
    cases hsock
  · -- the fresh id is not the socket's
    have hheap : Function.update cm.heap (cm.nextId + 1) (entity.new k pid) x = cm.heap x :=
      Function.update_of_ne (IdsGiven.ne_fresh (hids.le_nextId x hx)) ..
    refine ⟨by rw [hk.kind_eq x]; exact congrArg entity.kind hheap, iff_of_true ?_ (hne x)⟩
    exact (hk.socket_iff x (by dsimp only; rw [hheap]; exact hsock)).mpr (List.mem_cons_of_mem _ hx)
  · -- a socket's removal: the id is in the map once
    refine ⟨hk.kind_eq x, ?_⟩
    rw [hk.socket_iff x hsock, channelMap.deleteEntry_inMap, hids.nodup.mem_erase_iff]
    simp only [hx, and_true, ne_eq, event.RemoveEntry.injEq]
    exact not_congr eq_comm
  · -- a raised count
    refine ⟨(Keeps.set_heap_rel (fun _ => rfl) entity.kind ?_ x).trans (hk.kind_eq x), ?_⟩
    · rfl
    · exact iff_of_true ((hk.socket_iff x hsock).mpr hx) (hne x)

/-- **A socket is in the map until it is removed**: after any events from a state where it is in
the map, it is there iff none of them was its `RemoveEntry`. -/
theorem run_socket_mem (m : ℕ) :
    ∀ (es : List event) {cm cm' : channelMap} {x : ℕ}, IdsGiven cm → x ∈ cm.inMap →
      (cm.heap x).kind.isSocket → (run (step m) (some cm) es).2 = some cm' →
      (x ∈ cm'.inMap ↔ .RemoveEntry x ∉ es)
  | [], _, _, _, _, hx, _, hrun => by
    cases hrun
    exact iff_of_true hx List.not_mem_nil
  | e :: es, cm, cm', x, hids, hx, hsock, hrun => by
    rw [run_cons] at hrun
    cases hs : (step m (some cm) e).2 with
    | none =>
      rw [hs, run_of_absorbing (fun _ => rfl)] at hrun
      cases hrun
    | some cm₁ =>
      rw [hs] at hrun
      obtain ⟨hkind, hmem⟩ := step_socket_mem hids hs hx hsock
      rw [List.mem_cons, not_or]
      by_cases he : e = .RemoveEntry x
      · -- removed now, it never comes back
        have hout : x ∉ cm₁.inMap := fun h => hmem.mp h he
        have hle : x ≤ cm₁.nextId := Nat.le_trans (hids.le_nextId x hx) (step_nextId_le hs)
        exact iff_of_false (run_not_mem es hle hout hrun) fun h => h.1 he.symm
      · rw [run_socket_mem m es (hids.step hs) (hmem.mpr he) (hkind ▸ hsock) hrun]
        exact (and_iff_right fun h => he h.symm).symm

/-! ## A subchannel stranded in the map -/

/-- An entity with a trace has no children of its socket kinds. -/
theorem entityKind.isSocket_eq_false_of_traced {k : entityKind} (h : k.traced) :
    k.isSocket = false := by
  cases k <;> first | rfl | cases h

/-- An entity with a trace left in the map for good: its count is negative and its parent, an id
given out, has left the map.  No deletion takes out an entity whose count is not zero, and no
trace event can raise the count while the parent is out of the map. -/
structure Stranded (x : ℕ) (cm : channelMap) : Prop where
  mem : x ∈ cm.inMap
  traced : (cm.heap x).kind.traced
  count_neg : (cm.heap x).traceRefCount < 0
  le_nextId : x ≤ cm.nextId
  parent_le_nextId : (cm.heap x).pid ≤ cm.nextId
  parent_gone : (cm.heap x).pid ∉ cm.inMap

namespace Stranded

variable {x : ℕ} {cm cm' : channelMap}

theorem keeps (h : Stranded x cm) (hk : Keeps cm cm') : Stranded x cm' where
  mem := hk.negative_stays x h.mem h.traced h.count_neg
  traced := by rw [hk.kind_eq x]; exact h.traced
  count_neg := Int.lt_of_le_of_lt (hk.count_le x) h.count_neg
  le_nextId := hk.nextId_eq ▸ h.le_nextId
  parent_le_nextId := by rw [hk.pid_eq x, hk.nextId_eq]; exact h.parent_le_nextId
  parent_gone := by rw [hk.pid_eq x]; exact hk.not_mem h.parent_gone

/-- Writing the object of another id. -/
theorem set_ne (h : Stranded x cm) {id : ℕ} (e : entity) (hne : x ≠ id) :
    Stranded x (cm.set id e) := by
  have hheap : (cm.set id e).heap x = cm.heap x := channelMap.set_heap_ne e hne
  refine ⟨h.mem, ?_, ?_, h.le_nextId, ?_, ?_⟩ <;> rw [hheap]
  exacts [h.traced, h.count_neg, h.parent_le_nextId, h.parent_gone]

/-- A registration gives out an id that is neither the entity's nor its parent's. -/
theorem fresh (h : Stranded x cm) (k : entityKind) (pid : ℕ) :
    Stranded x { cm with heap := Function.update cm.heap (cm.nextId + 1) (entity.new k pid),
                         inMap := (cm.nextId + 1) :: cm.inMap, nextId := cm.nextId + 1 } := by
  have hheap : Function.update cm.heap (cm.nextId + 1) (entity.new k pid) x = cm.heap x :=
    Function.update_of_ne (IdsGiven.ne_fresh h.le_nextId) ..
  refine ⟨List.mem_cons_of_mem _ h.mem, ?_, ?_, Nat.le_succ_of_le h.le_nextId, ?_, ?_⟩ <;>
    dsimp only <;> rw [hheap]
  · exact h.traced
  · exact h.count_neg
  · exact Nat.le_succ_of_le h.parent_le_nextId
  · intro hin
    rcases List.mem_cons.mp hin with hfresh | hin
    · exact IdsGiven.ne_fresh h.parent_le_nextId hfresh
    · exact h.parent_gone hin

/-- **No call takes a stranded entity out of the map or brings its count back up.** -/
theorem step_stranded (h : Stranded x cm) {m : ℕ} {e : event}
    (hs : (Channelz.step m (some cm) e).2 = some cm') : Stranded x cm' := by
  rcases step_cases hs with ⟨hk, -⟩ | ⟨-, k, pid, hk⟩ | ⟨id, -, -, hid, hk⟩ |
    ⟨-, cm₁, id, hk, hpid, rfl⟩
  · exact h.keeps hk
  · exact (h.fresh k pid).keeps hk
  · -- a socket's removal: the entity has a trace, so it is not the socket
    have hne : x ≠ id := by
      rintro rfl
      rw [entityKind.isSocket_eq_false_of_traced h.traced] at hid
      cases hid
    have hdel : Stranded x (cm.deleteEntry id) := ⟨(List.mem_erase_of_ne hne).mpr h.mem, h.traced,
      h.count_neg, h.le_nextId, h.parent_le_nextId, fun hin => h.parent_gone (List.mem_of_mem_erase hin)⟩
    exact hdel.keeps hk
  · -- a raised count: its entity's parent is in the map, the stranded one's is not
    have hne : x ≠ id := by
      rintro rfl
      exact h.parent_gone hpid
    exact (h.keeps hk).set_ne _ hne

end Stranded

/-- A stranded entity stays in the map, stranded, whatever calls follow. -/
theorem run_stranded {m : ℕ} (es : List event) {x : ℕ} {cm cm' : channelMap} (h : Stranded x cm)
    (hrun : (run (step m) (some cm) es).2 = some cm') : Stranded x cm' :=
  run_preserves (fun _ _ _ h hs => h.step_stranded hs) es h hrun

/-- **`RemoveEntry` clears a channel's trace twice.**  A top-level channel `1` has a nested
channel `2` over a subchannel `3`, and each child traces an event to its parent.  The subchannel
is removed while channel `2`'s trace refers to it, and a socket `4` is registered under it; then
channel `1` is removed, which waits for its child, channel `2`, whose removal deletes both
channels; then the socket is removed.  The subchannel is left in the map for good, removed, with
no socket, no trace event in the map referring to it, and a count of `-1`. -/
theorem removeEntry_clears_trace_twice :
    ∃ cm, (run (step 30) (some newChannelMap)
        [.Register .channel 0, .Register .channel 1, .Register .subChannel 2,
          .AddTraceEvent 3 true, .AddTraceEvent 2 true, .RemoveEntry 3,
          .Register .normalSocket 3, .RemoveEntry 1, .RemoveEntry 2, .RemoveEntry 4]).2 = some cm ∧
      (cm.heap 3).kind = .subChannel ∧ (cm.heap 3).closeCalled ∧ (cm.heap 3).sockets = [] ∧
      (cm.heap 3).traceRefCount = -1 ∧ (∀ x ∈ cm.inMap, 3 ∉ (cm.heap x).trace) ∧
      ∀ es cm', (run (step 30) (some cm) es).2 = some cm' → 3 ∈ cm'.inMap := by
  refine ⟨_, rfl, by decide, by decide, by decide, by decide, by decide, fun es cm' hrun => ?_⟩
  refine (run_stranded es ?_ hrun).mem
  -- the subchannel's parent, channel `2`, has left the map
  exact ⟨by decide, by decide, by decide, by decide, by decide, by decide⟩

end Channelz
end GrpcGo
