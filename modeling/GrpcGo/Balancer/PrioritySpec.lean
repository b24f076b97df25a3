import GrpcGo.Balancer.Priority

/-!
# The child in use, and the priority recorded for it

On every run whose configs `parseConfig` accepts, the child the priority balancer uses is one of
its priorities whenever one is set (`inUse_run`).  The priority recorded for it is another
matter: `switchToChild` returns at once for the child already in use, so a config that moves
that child to an earlier priority leaves `priorityInUse` at the old one, and a failure the child
then reports is taken for one of a priority before the one in use and dropped
(`staleIndex_drops_failure`).
-/

namespace GrpcGo
namespace Priority

open GoStd Machine

namespace priorityBalancer

/-! ## What the helpers keep -/

/-- What a helper keeps: the priorities, the map to them, and every child (it may add some). -/
structure Frame (b b' : priorityBalancer) : Prop where
  priorities : b'.priorities = b.priorities
  childToPriority : b'.childToPriority = b.childToPriority
  children : ∀ n ∈ b.children.map Prod.fst, n ∈ b'.children.map Prod.fst

theorem Frame.refl (b : priorityBalancer) : Frame b b :=
  ⟨rfl, rfl, fun _ h => h⟩

theorem Frame.trans {b b' b'' : priorityBalancer} (h : Frame b b') (h' : Frame b' b'') :
    Frame b b'' :=
  ⟨h'.priorities.trans h.priorities, h'.childToPriority.trans h.childToPriority,
    fun n hn => h'.children n (h.children n hn)⟩

/-- A change of fields other than the priorities, their map and the children keeps them. -/
theorem Frame.of_children_eq {b b' : priorityBalancer} (hp : b'.priorities = b.priorities)
    (hc : b'.childToPriority = b.childToPriority) (hch : b'.children = b.children) : Frame b b' :=
  ⟨hp, hc, fun _ hn => hch ▸ hn⟩

theorem frame_updateChild (b : priorityBalancer) (name : String) (f : childBalancer → childBalancer) :
    Frame b (b.updateChild name f) ∧ (b.updateChild name f).childInUse = b.childInUse := by
  unfold updateChild
  split
  · exact ⟨Frame.refl b, rfl⟩
  · exact ⟨⟨rfl, rfl, fun n hn => Map.mem_keys_insert.mpr (.inr hn)⟩, rfl⟩

theorem frame_startChild (b : priorityBalancer) (name : String) :
    Frame b (b.startChild name).2 ∧ (b.startChild name).2.childInUse = b.childInUse := by
  unfold startChild
  split
  · split
    · exact ⟨Frame.refl b, rfl⟩
    · exact frame_updateChild b name _
  · exact ⟨Frame.refl b, rfl⟩

theorem frame_stopChild (b : priorityBalancer) (name : String) :
    Frame b (b.stopChild name).2 ∧ (b.stopChild name).2.childInUse = b.childInUse := by
  unfold stopChild
  split
  · split
    · exact frame_updateChild b name _
    · exact ⟨Frame.refl b, rfl⟩
  · exact ⟨Frame.refl b, rfl⟩

theorem frame_stopChildren : ∀ (b : priorityBalancer) (names : List String),
    Frame b (b.stopChildren names).2 ∧ (b.stopChildren names).2.childInUse = b.childInUse
  | b, [] => ⟨Frame.refl b, rfl⟩
  | b, name :: rest => by
    obtain ⟨hf, hu⟩ := frame_stopChild b name
    obtain ⟨hf', hu'⟩ := frame_stopChildren (b.stopChild name).2 rest
    exact ⟨hf.trans hf', hu'.trans hu⟩

/-- **What `switchToChild` does to the child in use**: it is the child switched to, once that
child exists, and otherwise stays. -/
theorem switchToChild_spec (b : priorityBalancer) (name : String) (priority : Nat) :
    Frame b (b.switchToChild name priority).2 ∧
      (name ∈ b.children.map Prod.fst → (b.switchToChild name priority).2.childInUse = name) ∧
      ((b.switchToChild name priority).2.childInUse = b.childInUse ∨
        (b.switchToChild name priority).2.childInUse = name) := by
  obtain ⟨hf, hu⟩ := frame_stopChildren b (b.priorities.drop (priority + 1))
  unfold switchToChild stopSubBalancersLowerThanPriority
  dsimp only
  split
  · -- no such child, even after stopping the later priorities
    rename_i hnone
    refine ⟨hf, fun hname => ?_, .inl hu⟩
    have hsome := Map.mem_keys_iff_isSome_lookup.mp (hf.children name hname)
    rw [getChild] at hnone
    rw [hnone] at hsome
    cases hsome
  · rename_i child _
    split
    · rename_i hin
      exact ⟨hf, fun _ => hin.1, .inr hin.1⟩
    · -- switched: the timer and the start leave the rest
      have hswitch : Frame (b.stopChildren (b.priorities.drop (priority + 1))).2
          { (b.stopChildren (b.priorities.drop (priority + 1))).2 with
              childInUse := name, priorityInUse := priority }.stopPriorityInitTimer :=
        Frame.of_children_eq rfl rfl rfl
      split
      · exact ⟨hf.trans hswitch, fun _ => rfl, .inr rfl⟩
      · obtain ⟨hs, hsu⟩ := frame_startChild { (b.stopChildren (b.priorities.drop (priority + 1))).2
          with childInUse := name, priorityInUse := priority }.stopPriorityInitTimer name
        exact ⟨(hf.trans hswitch).trans (hs.trans (Frame.of_children_eq rfl rfl rfl)),
          fun _ => hsu, .inr hsu⟩

/-! ## The child in use is a priority -/

/-- **The child in use is one of the priorities**, when one is set; and every priority has a
child, and `childToPriority` maps only priorities. -/
structure InUse (b : priorityBalancer) : Prop where
  children : ∀ n ∈ b.priorities, n ∈ b.children.map Prod.fst
  toPriority : ∀ n p, b.childToPriority.lookup n = some p → n ∈ b.priorities
  inUse : b.childInUse = "" ∨ b.childInUse ∈ b.priorities

/-- A helper that keeps the frame, and leaves the child in use or makes it a priority, keeps
the invariant. -/
theorem InUse.of_frame {b b' : priorityBalancer} (h : InUse b) (hf : Frame b b')
    (hu : b'.childInUse = b.childInUse ∨ b'.childInUse ∈ b.priorities) : InUse b' := by
  refine ⟨fun n hn => ?_, fun n p hp => ?_, ?_⟩
  · rw [hf.priorities] at hn
    exact hf.children n (h.children n hn)
  · rw [hf.childToPriority] at hp
    rw [hf.priorities]
    exact h.toPriority n p hp
  · rw [hf.priorities]
    rcases hu with hu | hu
    · rw [hu]
      exact h.inUse
    · exact .inr hu

theorem inUse_newPriorityBalancer : InUse newPriorityBalancer :=
  ⟨fun _ h => absurd h List.not_mem_nil, (fun _ _ h => by cases h), .inl rfl⟩

/-- The loop of `syncPriority` over the priorities from `p` to the last switches to one of
them: the last is switched to unless an earlier one is. -/
theorem syncPriorityLoop_spec (b : priorityBalancer) : ∀ (p : Nat) (names : List String),
    p + names.length = b.priorities.length → names ≠ [] →
    (∀ n ∈ names, n ∈ b.children.map Prod.fst) →
    Frame b (b.syncPriorityLoop p names).2 ∧ (b.syncPriorityLoop p names).2.childInUse ∈ names
  | _, [], _, hne, _ => absurd rfl hne
  | p, name :: rest, hlen, _, hkeys => by
    have hname := hkeys name List.mem_cons_self
    unfold syncPriorityLoop
    cases hc : b.getChild name with
    | none =>
      have hsome := Map.mem_keys_iff_isSome_lookup.mp hname
      rw [getChild] at hc
      rw [hc] at hsome
      cases hsome
    | some child =>
      dsimp only
      split
      · obtain ⟨hf, hin, -⟩ := switchToChild_spec b name p
        exact ⟨hf, by rw [hin hname]; exact List.mem_cons_self⟩
      · rename_i hskip
        -- the last priority is never skipped, so there is a rest
        have hrest : rest ≠ [] := by
          rintro rfl
          simp only [List.length_cons, List.length_nil] at hlen
          apply hskip
          simp [← hlen]
        obtain ⟨hf, hmem⟩ := syncPriorityLoop_spec b (p + 1) rest
          (by simp only [List.length_cons] at hlen; omega) hrest
          (fun n hn => hkeys n (List.mem_cons_of_mem _ hn))
        exact ⟨hf, List.mem_cons_of_mem _ hmem⟩

/-- A child of the config is a child of the balancer after `addChild`, which keeps the rest. -/
theorem addChild_spec (b : priorityBalancer) (name bbName : String) :
    Frame b (b.addChild name bbName).2 ∧ (b.addChild name bbName).2.childInUse = b.childInUse ∧
      name ∈ (b.addChild name bbName).2.children.map Prod.fst := by
  unfold addChild
  split
  · exact ⟨⟨rfl, rfl, fun n hn => Map.mem_keys_insert.mpr (.inr hn)⟩, rfl,
      Map.mem_keys_insert.mpr (.inl rfl)⟩
  · rename_i currentChild hc
    have hname : name ∈ b.children.map Prod.fst :=
      Map.mem_keys_iff_isSome_lookup.mpr (by rw [← getChild, hc]; rfl)
    split
    · obtain ⟨hs, hsu⟩ := frame_stopChild b name
      obtain ⟨hu, huu⟩ := frame_updateChild (b.stopChild name).2 name ({ · with bb := bbName })
      exact ⟨hs.trans hu, huu.trans hsu, hu.children name (hs.children name hname)⟩
    · exact ⟨Frame.refl b, rfl, hname⟩

/-- After a config's children are added, each child of the config is a child of the balancer;
the priorities, their map and the child in use are as they were. -/
theorem addChildren_spec : ∀ (b : priorityBalancer) (cs : List (String × String)),
    Frame b (b.addChildren cs).2 ∧ (b.addChildren cs).2.childInUse = b.childInUse ∧
      ∀ n ∈ cs.map Prod.fst, n ∈ (b.addChildren cs).2.children.map Prod.fst
  | b, [] => ⟨Frame.refl b, rfl, fun _ h => absurd h List.not_mem_nil⟩
  | b, (name, bbName) :: rest => by
    obtain ⟨hf, hu, hname⟩ := addChild_spec b name bbName
    obtain ⟨hf', hu', hrest⟩ := addChildren_spec (b.addChild name bbName).2 rest
    refine ⟨hf.trans hf', hu'.trans hu, fun n hn => ?_⟩
    rcases List.mem_cons.mp hn with rfl | hn
    · exact hf'.children _ hname
    · exact hrest n hn

/-- The map `setPriorities` builds sends only the priorities somewhere. -/
theorem setPriorities_toPriority (b : priorityBalancer) (priorities : List String) (n : String)
    (p : Nat) (h : (b.setPriorities priorities).childToPriority.lookup n = some p) :
    n ∈ priorities := by
  rcases Map.lookup_foldl_insert_eq_some _ h with hn | hn
  · rwa [List.zipIdx_map_fst] at hn
  · cases hn

/-- `syncPriority` leaves the balancer using one of its priorities, or none when it has none. -/
theorem InUse.syncPriority {b : priorityBalancer}
    (hkeys : ∀ n ∈ b.priorities, n ∈ b.children.map Prod.fst)
    (htoPriority : ∀ n p, b.childToPriority.lookup n = some p → n ∈ b.priorities) :
    InUse b.syncPriority.2 := by
  unfold priorityBalancer.syncPriority
  split
  · exact ⟨hkeys, htoPriority, .inl rfl⟩
  · rename_i hne
    obtain ⟨hf, hmem⟩ := syncPriorityLoop_spec b 0 b.priorities (by simp) hne hkeys
    exact (⟨hkeys, htoPriority, .inl rfl⟩ : InUse { b with childInUse := "" }).of_frame
      ⟨hf.priorities, hf.childToPriority, fun n hn => hf.children n hn⟩ (.inr hmem)

/-- A config `parseConfig` accepts leaves the balancer using one of its priorities, or none when
it has none. -/
theorem InUse.UpdateClientConnState (b : priorityBalancer) {config : LBConfig}
    (hvalid : config.Valid) : InUse (b.UpdateClientConnState config).2 := by
  obtain ⟨hfa, -, hcover⟩ := addChildren_spec b config.Children
  obtain ⟨hfr, -⟩ := frame_stopChildren (b.addChildren config.Children).2
    (((b.addChildren config.Children).2.children.map Prod.fst).filter
      fun name => name ∉ config.Children.map Prod.fst)
  apply InUse.syncPriority
  · -- every priority is a child of the config, which is now a child of the balancer
    intro n hn
    exact hfr.children n (hcover n (hvalid.1 n hn))
  · exact setPriorities_toPriority _ config.Priorities

/-- What a handler may do to the child in use: keep it, or make it one of the priorities. -/
structure Moves (b b' : priorityBalancer) : Prop where
  frame : Frame b b'
  inUse : b'.childInUse = b.childInUse ∨ b'.childInUse ∈ b.priorities

theorem Moves.of_frame {b b' : priorityBalancer} (hf : Frame b b')
    (hu : b'.childInUse = b.childInUse) : Moves b b' :=
  ⟨hf, .inl hu⟩

theorem Moves.refl (b : priorityBalancer) : Moves b b :=
  .of_frame (Frame.refl b) rfl

theorem Moves.trans {b b' b'' : priorityBalancer} (h : Moves b b') (h' : Moves b' b'') :
    Moves b b'' := by
  refine ⟨h.frame.trans h'.frame, ?_⟩
  rcases h'.inUse with h'' | h''
  · rw [h'']
    exact h.inUse
  · rw [h.frame.priorities] at h''
    exact .inr h''

theorem InUse.of_moves {b b' : priorityBalancer} (h : InUse b) (hm : Moves b b') : InUse b' :=
  h.of_frame hm.frame hm.inUse

theorem moves_stopPriorityInitTimer (b : priorityBalancer) : Moves b b.stopPriorityInitTimer :=
  .of_frame (.of_children_eq rfl rfl rfl) rfl

theorem moves_switchToChild {b : priorityBalancer} {name : String} (hname : name ∈ b.priorities)
    (priority : Nat) : Moves b (b.switchToChild name priority).2 := by
  obtain ⟨hf, -, hu⟩ := switchToChild_spec b name priority
  refine ⟨hf, ?_⟩
  rcases hu with hu | hu
  · exact .inl hu
  · rw [hu]
    exact .inr hname

/-- The failover switches to the next priority, if any. -/
theorem moves_switchToNext (b : priorityBalancer) (name : String) (priority : Nat) :
    Moves b (b.switchToNext name priority).2 := by
  unfold switchToNext
  split
  · exact Moves.refl b
  · rename_i nameNext hnext
    exact moves_switchToChild (List.mem_of_getElem? hnext) (priority + 1)

theorem moves_handlePriorityWithNewStateReady {b : priorityBalancer} {name : String}
    (hname : name ∈ b.priorities) (priority : Nat) :
    Moves b (b.handlePriorityWithNewStateReady name priority).2 := by
  have hstop := moves_stopPriorityInitTimer b
  unfold handlePriorityWithNewStateReady
  dsimp only
  split
  · exact hstop.trans (moves_switchToChild (hstop.frame.priorities ▸ hname) priority)
  · exact hstop

theorem moves_handlePriorityWithNewStateTransientFailure (b : priorityBalancer) (name : String)
    (priority : Nat) : Moves b (b.handlePriorityWithNewStateTransientFailure name priority).2 := by
  unfold handlePriorityWithNewStateTransientFailure
  split
  · exact Moves.refl b
  · exact (moves_stopPriorityInitTimer b).trans (moves_switchToNext _ name priority)

theorem moves_handlePriorityWithNewStateConnecting (b : priorityBalancer) (name : String)
    (priority : Nat) (oldState : connectivityState) :
    Moves b (b.handlePriorityWithNewStateConnecting name priority oldState).2 := by
  unfold handlePriorityWithNewStateConnecting
  split
  · exact Moves.refl b
  · split
    · exact moves_switchToNext b name priority
    · exact Moves.refl b
    · exact Moves.refl b

/-- A state a child reports moves the balancer to a priority at most. -/
theorem moves_handleChildStateUpdate {b : priorityBalancer} (h : InUse b) (childName : String)
    (s : balancerState) : Moves b (b.handleChildStateUpdate childName s).2 := by
  unfold handleChildStateUpdate
  split
  · exact Moves.refl b
  · split
    · exact Moves.refl b
    · rename_i priority hp
      -- a child with a priority is a priority
      have hname : childName ∈ b.priorities := h.toPriority childName priority hp
      split
      · exact Moves.refl b
      · split
        · exact Moves.refl b
        · split
          · exact Moves.refl b
          · obtain ⟨hf, hu⟩ := frame_updateChild b childName ({ · with state := s })
            have hupd := Moves.of_frame hf hu
            have hname' := hf.priorities ▸ hname
            split
            · exact hupd.trans (moves_handlePriorityWithNewStateReady hname' priority)
            · exact hupd.trans (moves_handlePriorityWithNewStateReady hname' priority)
            · exact hupd.trans (moves_handlePriorityWithNewStateTransientFailure _ childName priority)
            · exact hupd.trans (moves_handlePriorityWithNewStateConnecting _ childName priority _)
            · exact hupd

/-- The init timer's callback switches to the priority after the one it captured, if any. -/
theorem moves_initTimerFired (b : priorityBalancer) (id : Nat) :
    Moves b (b.initTimerFired id).2 := by
  unfold initTimerFired
  split
  · rename_i timer _
    split
    · have hclear : Moves b { b with priorityInitTimer := none } :=
        .of_frame (.of_children_eq rfl rfl rfl) rfl
      dsimp only
      split
      · rename_i nameNext hnext
        split
        · dsimp only
          exact hclear.trans
            (moves_switchToChild (b := { b with priorityInitTimer := none }) (List.mem_of_getElem? hnext) _)
        · exact hclear
      · exact hclear
    · exact Moves.refl b
  · exact Moves.refl b

/-- **Every step keeps the balancer using one of its priorities.** -/
theorem inUse_invariant : Invariant Allowed step InUse := by
  intro b e h he
  cases e with
  | updateClientConnState config => exact InUse.UpdateClientConnState b he
  | childStateUpdate name s => exact h.of_moves (moves_handleChildStateUpdate h name s)
  | initTimeout id => exact h.of_moves (moves_initTimerFired b id)
  | close => exact ⟨h.children, h.toPriority, .inl rfl⟩

/-- **On every run whose configs `parseConfig` accepts, the child in use is one of the
priorities**, whenever one is set. -/
theorem inUse_run (es : List priorityEvent) (hes : Admits Allowed step newPriorityBalancer es) :
    (run step newPriorityBalancer es).2.childInUse = "" ∨
      (run step newPriorityBalancer es).2.childInUse ∈ (run step newPriorityBalancer es).2.priorities :=
  (inUse_invariant.run inUse_newPriorityBalancer hes).inUse

/-- Two priorities `A`, `B`; `A` fails, so `B` is started and used; a config of `B` alone; then
`B` fails. -/
def staleIndexRun : List priorityEvent :=
  [.updateClientConnState ⟨[("A", "round_robin"), ("B", "round_robin")], ["A", "B"]⟩,
    .childStateUpdate "A" ⟨.TransientFailure, .fromChild 0⟩,
    .updateClientConnState ⟨[("B", "round_robin")], ["B"]⟩,
    .childStateUpdate "B" ⟨.TransientFailure, .fromChild 1⟩]

/-- On that run the balancer is left using `B`, the only priority, with `priorityInUse` still
`1`, which names no priority; `B`'s failure is dropped: the ClientConn is last sent `B`'s
Connecting state, before the config, and nothing after it. -/
theorem staleIndex_drops_failure :
    Admits Allowed step newPriorityBalancer staleIndexRun ∧
      (run step newPriorityBalancer staleIndexRun).2.priorities = ["B"] ∧
      (run step newPriorityBalancer staleIndexRun).2.childInUse = "B" ∧
      (run step newPriorityBalancer staleIndexRun).2.priorityInUse = 1 ∧
      (run step newPriorityBalancer staleIndexRun).1 =
        [.bgAdd "A", .sendUpdate "A",
          .bgAdd "B", .ccUpdateState connectingState, .sendUpdate "B",
          .bgRemove "A", .sendUpdate "B"] := by
  decide

end priorityBalancer

end Priority
end GrpcGo
