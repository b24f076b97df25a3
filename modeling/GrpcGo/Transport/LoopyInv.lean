import GrpcGo.Transport.Loopy

/-!
# The loopy writer's stream bookkeeping

`processData` takes the first stream off `activeStreams` and asserts that the head of its
items is a `*dataFrame`; the handlers move streams between `active`, `empty` and
`waitingOnStreamQuota` and link them into `activeStreams`.  `Books` is what keeps this sound:
a stream is on `activeStreams` exactly when it is `active`, at most once, and then its first item
is a `*dataFrame`; an `empty` stream has no items; a stream parked for quota has a `*dataFrame`
first; every item of a stream belongs to it.  `LoopyInv` adds that a parked stream has no
quota left, which is what makes it wait.

Every step of loopy that the transport can take keeps `LoopyInv` (`loopyInv_invariant`): a
stream is registered under an id that is not established, and a setting of the initial window
visits every established stream.  Each step is reduced to `Books.update`, which says what a
step may change about one stream while leaving the others as they are.
-/

namespace GrpcGo
namespace Transport

open GoStd

/-- The stream an item belongs to. -/
def outItem.streamID : outItem → Nat
  | .dataFrame streamID .. => streamID
  | .headerFrame streamID .. => streamID

/-- Whether the first item is a `*dataFrame`, as `str.itl.peek().(*dataFrame)` needs. -/
def headIsData : List outItem → Bool
  | .dataFrame .. :: _ => true
  | _ => false

/-- The bookkeeping of one established stream `id`; `linked` says whether it is on
`activeStreams`. -/
structure StreamOK (id : Nat) (linked : Prop) (str : outStream) : Prop where
  items_id : ∀ item ∈ str.itl, item.streamID = id
  active_of_linked : linked → str.state = .active
  linked_of_active : str.state = .active → linked
  active_head : str.state = .active → headIsData str.itl = true
  empty_itl : str.state = .empty → str.itl = []
  waiting_head : str.state = .waitingOnStreamQuota → headIsData str.itl = true

theorem StreamOK.congr {id : Nat} {p q : Prop} {str : outStream} (h : p ↔ q)
    (hs : StreamOK id p str) : StreamOK id q str :=
  propext h ▸ hs

/-- What each state asks of a stream's items. -/
def itemsFit (str : outStream) : Prop :=
  match str.state with
  | .active | .waitingOnStreamQuota => headIsData str.itl = true
  | .empty => str.itl = []

/-- `StreamOK` from its three parts: the items belong to the stream, it is linked exactly when
`active`, and its items fit its state. -/
theorem StreamOK.of_state {id : Nat} {linked : Prop} {str : outStream}
    (hitems : ∀ item ∈ str.itl, item.streamID = id) (hlink : linked ↔ str.state = .active)
    (hfit : itemsFit str) : StreamOK id linked str where
  items_id := hitems
  active_of_linked := hlink.mp
  linked_of_active := hlink.mpr
  active_head h := by unfold itemsFit at hfit; rw [h] at hfit; exact hfit
  empty_itl h := by unfold itemsFit at hfit; rw [h] at hfit; exact hfit
  waiting_head h := by unfold itemsFit at hfit; rw [h] at hfit; exact hfit

theorem StreamOK.fit {id : Nat} {linked : Prop} {str : outStream} (hs : StreamOK id linked str) :
    itemsFit str := by
  unfold itemsFit
  split
  · exact hs.active_head ‹_›
  · exact hs.waiting_head ‹_›
  · exact hs.empty_itl ‹_›

theorem headIsData_append {itl : List outItem} (h : headIsData itl = true) (xs : List outItem) :
    headIsData (itl ++ xs) = true := by
  match itl, h with
  | .dataFrame .. :: _, _ => rfl

/-- The stream bookkeeping of loopy. -/
structure Books (l : loopyWriter) : Prop where
  keys_nodup : (l.estdStreams.map Prod.fst).Nodup
  active_nodup : l.activeStreams.Nodup
  active_estd : ∀ id ∈ l.activeStreams, ∃ str, l.estdStreams.lookup id = some str
  streams : ∀ id str, l.estdStreams.lookup id = some str →
    StreamOK id (id ∈ l.activeStreams) str
  no_panic : l.err ≠ some errNotDataFrame

/-- A stream parked for quota has none. -/
def Parked (oiws : UInt32) (str : outStream) : Prop :=
  str.state = .waitingOnStreamQuota → (oiws.toNat : Int) - str.bytesOutStanding ≤ 0

/-- The invariant of loopy: its bookkeeping, and no stream parked while it has quota. -/
structure LoopyInv (l : loopyWriter) : Prop extends Books l where
  parked : ∀ id str, l.estdStreams.lookup id = some str → Parked l.oiws str

/-! ## How the operations change the bookkeeping -/

namespace loopyWriter

variable (l : loopyWriter) (id k : Nat) (str : outStream)

theorem lookup_setStream :
    (l.setStream id str).estdStreams.lookup k =
      if k = id then some str else l.estdStreams.lookup k :=
  Map.lookup_insert id k str l.estdStreams

@[simp] theorem setStream_activeStreams : (l.setStream id str).activeStreams = l.activeStreams :=
  rfl

@[simp] theorem setStream_oiws : (l.setStream id str).oiws = l.oiws := rfl

@[simp] theorem setStream_err : (l.setStream id str).err = l.err := rfl

@[simp] theorem enqueue_estdStreams : (l.enqueue id).estdStreams = l.estdStreams := rfl

@[simp] theorem enqueue_activeStreams :
    (l.enqueue id).activeStreams = l.activeStreams ++ [id] := rfl

@[simp] theorem enqueue_oiws : (l.enqueue id).oiws = l.oiws := rfl

@[simp] theorem enqueue_err : (l.enqueue id).err = l.err := rfl

theorem keys_nodup_setStream (h : (l.estdStreams.map Prod.fst).Nodup) :
    ((l.setStream id str).estdStreams.map Prod.fst).Nodup :=
  Map.nodup_keys_insert id str l.estdStreams h

end loopyWriter

open loopyWriter

/-! ## One stream changes, the others stay -/

section Update

variable {l l' : loopyWriter}

/-- A step that changes the stream `id` and its place on `activeStreams` and leaves every other
stream as it was keeps the bookkeeping, if the stream `id` is kept in order. -/
theorem Books.update (hb : Books l) (id : Nat)
    (hkeys : (l'.estdStreams.map Prod.fst).Nodup) (hact : l'.activeStreams.Nodup)
    (herr : l'.err ≠ some errNotDataFrame)
    (hother : ∀ k, k ≠ id → l'.estdStreams.lookup k = l.estdStreams.lookup k ∧
      (k ∈ l'.activeStreams ↔ k ∈ l.activeStreams))
    (hlinked : id ∈ l'.activeStreams → ∃ str, l'.estdStreams.lookup id = some str)
    (hid : ∀ str, l'.estdStreams.lookup id = some str →
      StreamOK id (id ∈ l'.activeStreams) str) :
    Books l' where
  keys_nodup := hkeys
  active_nodup := hact
  active_estd k hk := by
    by_cases hkid : k = id
    · subst hkid
      exact hlinked hk
    · obtain ⟨hlookup, hmem⟩ := hother k hkid
      rw [hlookup]
      exact hb.active_estd k (hmem.mp hk)
  streams k s hs := by
    by_cases hkid : k = id
    · subst hkid
      exact hid s hs
    · obtain ⟨hlookup, hmem⟩ := hother k hkid
      rw [hlookup] at hs
      exact (hb.streams k s hs).congr hmem.symm
  no_panic := herr

/-- `Books.update` with the quota of the other streams unchanged. -/
theorem LoopyInv.update (hi : LoopyInv l) (id : Nat)
    (hkeys : (l'.estdStreams.map Prod.fst).Nodup) (hact : l'.activeStreams.Nodup)
    (herr : l'.err ≠ some errNotDataFrame) (hoiws : l'.oiws = l.oiws)
    (hother : ∀ k, k ≠ id → l'.estdStreams.lookup k = l.estdStreams.lookup k ∧
      (k ∈ l'.activeStreams ↔ k ∈ l.activeStreams))
    (hlinked : id ∈ l'.activeStreams → ∃ str, l'.estdStreams.lookup id = some str)
    (hid : ∀ str, l'.estdStreams.lookup id = some str →
      StreamOK id (id ∈ l'.activeStreams) str ∧ Parked l'.oiws str) :
    LoopyInv l' where
  toBooks := hi.toBooks.update id hkeys hact herr hother hlinked (fun s hs => (hid s hs).1)
  parked k s hs := by
    by_cases hkid : k = id
    · subst hkid
      exact (hid s hs).2
    · rw [(hother k hkid).1] at hs
      rw [hoiws]
      exact hi.parked k s hs

theorem Books.of_eq (hb : Books l) (hestd : l'.estdStreams = l.estdStreams)
    (hact : l'.activeStreams = l.activeStreams) (herr : l'.err = l.err) : Books l' where
  keys_nodup := hestd ▸ hb.keys_nodup
  active_nodup := hact ▸ hb.active_nodup
  active_estd k hk := hestd ▸ hb.active_estd k (hact ▸ hk)
  streams k s hs := hact ▸ hb.streams k s (hestd ▸ hs)
  no_panic := herr ▸ hb.no_panic

/-- A stream that is established and not `active` is not on `activeStreams`. -/
theorem Books.not_linked (hb : Books l) {id : Nat} {str : outStream}
    (hs : l.estdStreams.lookup id = some str) (hst : str.state ≠ .active) :
    id ∉ l.activeStreams :=
  fun h => hst ((hb.streams id str hs).active_of_linked h)

/-- An id that is not established is not on `activeStreams`. -/
theorem Books.not_linked_of_none (hb : Books l) {id : Nat}
    (hs : l.estdStreams.lookup id = none) : id ∉ l.activeStreams := by
  intro h
  obtain ⟨str, hstr⟩ := hb.active_estd id h
  rw [hs] at hstr
  cases hstr

/-- The fields the bookkeeping does not read can change freely. -/
theorem LoopyInv.of_books_eq (hi : LoopyInv l) (hestd : l'.estdStreams = l.estdStreams)
    (hact : l'.activeStreams = l.activeStreams) (hoiws : l'.oiws = l.oiws)
    (herr : l'.err ≠ some errNotDataFrame) : LoopyInv l' where
  keys_nodup := hestd ▸ hi.keys_nodup
  active_nodup := hact ▸ hi.active_nodup
  active_estd k hk := hestd ▸ hi.active_estd k (hact ▸ hk)
  streams k s hs := hact ▸ hi.streams k s (hestd ▸ hs)
  no_panic := herr
  parked k s hs := hoiws ▸ hi.parked k s (hestd ▸ hs)

theorem LoopyInv.with_err (hi : LoopyInv l) {e : Option String} (he : e ≠ some errNotDataFrame) :
    LoopyInv { l with err := e } :=
  hi.of_books_eq rfl rfl rfl he

/-- The invariant from the bookkeeping and the quota of the parked streams. -/
theorem LoopyInv.of_books (hb : Books l)
    (hq : ∀ id str, l.estdStreams.lookup id = some str → Parked l.oiws str) : LoopyInv l :=
  ⟨hb, hq⟩

/-- Replacing a stream, which stays on or off `activeStreams`. -/
theorem Books.setStream (hb : Books l) {id : Nat} {str : outStream}
    (hok : StreamOK id (id ∈ l.activeStreams) str) : Books (l.setStream id str) :=
  hb.update id (keys_nodup_setStream _ _ _ hb.keys_nodup) hb.active_nodup hb.no_panic
    (fun k hk => ⟨by rw [lookup_setStream, if_neg hk], Iff.rfl⟩)
    (fun _ => ⟨str, by rw [lookup_setStream, if_pos rfl]⟩)
    (fun s hs => by
      rw [lookup_setStream, if_pos rfl] at hs
      cases hs
      exact hok)

/-- Replacing a stream that was off `activeStreams` and linking it at the end. -/
theorem Books.setStream_enqueue (hb : Books l) {id : Nat} {str : outStream}
    (hnot : id ∉ l.activeStreams) (hok : StreamOK id True str) :
    Books ((l.setStream id str).enqueue id) := by
  have hmem : ∀ k, k ≠ id → (k ∈ l.activeStreams ++ [id] ↔ k ∈ l.activeStreams) := by
    intro k hk
    simp [hk]
  refine hb.update id (keys_nodup_setStream _ _ _ hb.keys_nodup) ?_ hb.no_panic
    (fun k hk => ⟨by simp only [enqueue_estdStreams]; rw [lookup_setStream, if_neg hk],
      by simp only [enqueue_activeStreams, setStream_activeStreams]; exact hmem k hk⟩)
    (fun _ => ⟨str, by simp only [enqueue_estdStreams]; rw [lookup_setStream, if_pos rfl]⟩)
    (fun s hs => ?_)
  · simp only [enqueue_activeStreams, setStream_activeStreams]
    exact hb.active_nodup.append (List.nodup_singleton id) (by simpa using hnot)
  · simp only [enqueue_estdStreams] at hs
    rw [lookup_setStream, if_pos rfl] at hs
    cases hs
    exact hok.congr (iff_true_intro (by simp)).symm

/-- The quota of the parked streams after one stream is replaced. -/
theorem parked_setStream
    (hq : ∀ k s, l.estdStreams.lookup k = some s → Parked l.oiws s) {id : Nat}
    {str : outStream} (hstr : Parked l.oiws str) :
    ∀ k s, (l.setStream id str).estdStreams.lookup k = some s → Parked l.oiws s := by
  intro k s hs
  rw [lookup_setStream] at hs
  split_ifs at hs
  · cases hs
    exact hstr
  · exact hq k s hs

theorem LoopyInv.setStream (hi : LoopyInv l) {id : Nat} {str : outStream}
    (hok : StreamOK id (id ∈ l.activeStreams) str) (hq : Parked l.oiws str) :
    LoopyInv (l.setStream id str) :=
  .of_books (hi.toBooks.setStream hok) (parked_setStream hi.parked hq)

theorem LoopyInv.setStream_enqueue (hi : LoopyInv l) {id : Nat} {str : outStream}
    (hnot : id ∉ l.activeStreams) (hok : StreamOK id True str) (hq : Parked l.oiws str) :
    LoopyInv ((l.setStream id str).enqueue id) :=
  .of_books (hi.toBooks.setStream_enqueue hnot hok) (parked_setStream hi.parked hq)

/-- Deleting a stream keeps the invariant. -/
theorem LoopyInv.deleteStream (hi : LoopyInv l) (streamID : Nat) :
    LoopyInv (l.deleteStream streamID) := by
  unfold loopyWriter.deleteStream
  split
  · refine hi.update streamID (Map.nodup_keys_erase _ _ hi.keys_nodup)
      (hi.active_nodup.erase _) hi.no_panic rfl
      (fun k hk => ⟨by rw [Map.lookup_erase _ _ _ hi.keys_nodup, if_neg hk],
        List.mem_erase_of_ne hk⟩)
      (fun h => absurd h (hi.active_nodup.not_mem_erase))
      (fun s hs => ?_)
    rw [Map.lookup_erase _ _ _ hi.keys_nodup, if_pos rfl] at hs
    cases hs
  · exact hi

/-- `cleanupStreamHandler` is the deletion, perhaps with `ErrConnClosing`. -/
theorem LoopyInv.cleanup_of_delete {streamID : Nat} (hdel : LoopyInv (l.deleteStream streamID))
    (rst : Bool) : LoopyInv (l.cleanupStreamHandler streamID rst).2 := by
  have herr : some ErrConnClosing ≠ some errNotDataFrame := by
    simp [ErrConnClosing, errNotDataFrame]
  simp only [loopyWriter.cleanupStreamHandler]
  -- the frames written do not matter
  split_ifs <;> first | exact hdel | exact hdel.with_err herr

theorem LoopyInv.cleanupStreamHandler (hi : LoopyInv l) (streamID : Nat) (rst : Bool) :
    LoopyInv (l.cleanupStreamHandler streamID rst).2 :=
  cleanup_of_delete (hi.deleteStream streamID) rst

/-- Deleting a stream just replaced is deleting it. -/
theorem setStream_deleteStream {id : Nat} {str str₀ : outStream}
    (h : l.estdStreams.lookup id = some str₀) :
    (l.setStream id str).deleteStream id = l.deleteStream id := by
  unfold loopyWriter.deleteStream
  rw [lookup_setStream, if_pos rfl, h]
  simp only [loopyWriter.setStream, Map.erase_insert_self]

end Update

/-! ## The stream `processData` has taken off `activeStreams` -/

section Dequeue

variable {l : loopyWriter} {id : Nat} (hi : LoopyInv l) (l₁ : loopyWriter)
  (hestd : l₁.estdStreams = l.estdStreams) (hact : l.activeStreams = id :: l₁.activeStreams)
  (hoiws : l₁.oiws = l.oiws) (herr : l₁.err = l.err)
include hi hestd hact hoiws herr

/-- The stream taken off, replaced by one off `activeStreams`. -/
theorem LoopyInv.dequeue_setStream {str : outStream} (hok : StreamOK id False str)
    (hq : Parked l.oiws str) : LoopyInv (l₁.setStream id str) := by
  have hnodup := hi.active_nodup
  rw [hact, List.nodup_cons] at hnodup
  refine hi.update id (keys_nodup_setStream _ _ _ (hestd ▸ hi.keys_nodup)) hnodup.2
    (by rw [setStream_err, herr]; exact hi.no_panic) (by rw [setStream_oiws, hoiws])
    (fun k hk => ⟨by rw [lookup_setStream, if_neg hk, hestd], ?_⟩)
    (fun h => absurd h hnodup.1) (fun s hs => ?_)
  · rw [setStream_activeStreams, hact, List.mem_cons]
    exact ⟨Or.inr, fun h => h.resolve_left hk⟩
  · rw [lookup_setStream, if_pos rfl] at hs
    cases hs
    exact ⟨hok.congr (iff_false_intro hnodup.1).symm, by rw [setStream_oiws, hoiws]; exact hq⟩

/-- The stream taken off, replaced and linked at the end again. -/
theorem LoopyInv.dequeue_setStream_enqueue {str : outStream} (hok : StreamOK id True str)
    (hq : Parked l.oiws str) : LoopyInv ((l₁.setStream id str).enqueue id) := by
  have hnodup := hi.active_nodup
  rw [hact, List.nodup_cons] at hnodup
  refine hi.update id (keys_nodup_setStream _ _ _ (hestd ▸ hi.keys_nodup)) ?_
    (by rw [enqueue_err, setStream_err, herr]; exact hi.no_panic)
    (by rw [enqueue_oiws, setStream_oiws, hoiws])
    (fun k hk => ⟨by rw [enqueue_estdStreams, lookup_setStream, if_neg hk, hestd], ?_⟩)
    (fun _ => ⟨str, by rw [enqueue_estdStreams, lookup_setStream, if_pos rfl]⟩)
    (fun s hs => ?_)
  · rw [enqueue_activeStreams, setStream_activeStreams]
    exact hnodup.2.append (List.nodup_singleton id) (by simpa using hnodup.1)
  · rw [enqueue_activeStreams, setStream_activeStreams, hact]
    simp [hk]
  · rw [enqueue_estdStreams, lookup_setStream, if_pos rfl] at hs
    cases hs
    refine ⟨hok.congr (iff_true_intro (by simp)).symm, ?_⟩
    rw [enqueue_oiws, setStream_oiws, hoiws]
    exact hq

/-- The stream taken off, deleted. -/
theorem LoopyInv.dequeue_deleteStream : LoopyInv (l₁.deleteStream id) := by
  have hnodup := hi.active_nodup
  rw [hact, List.nodup_cons] at hnodup
  obtain ⟨str, hstr⟩ := hi.active_estd id (by rw [hact]; exact List.mem_cons_self)
  unfold loopyWriter.deleteStream
  rw [hestd, hstr]
  refine hi.update id (Map.nodup_keys_erase _ _ hi.keys_nodup) (hnodup.2.erase _)
    (by rw [herr]; exact hi.no_panic) hoiws
    (fun k hk => ⟨by rw [Map.lookup_erase _ _ _ hi.keys_nodup, if_neg hk], ?_⟩)
    (fun h => absurd (List.mem_of_mem_erase h) hnodup.1) (fun s hs => ?_)
  · rw [List.mem_erase_of_ne hk, hact, List.mem_cons]
    exact ⟨Or.inr, fun h => h.resolve_left hk⟩
  · rw [Map.lookup_erase _ _ _ hi.keys_nodup, if_pos rfl] at hs
    cases hs

/-- The trailers at the head of the stream taken off: it is cleaned up. -/
theorem LoopyInv.dequeue_writeTrailer (str : outStream) (endStream rst : Bool) :
    LoopyInv ((l₁.setStream id str).writeTrailer id endStream rst).2 := by
  obtain ⟨str₀, hstr⟩ := hi.active_estd id (by rw [hact]; exact List.mem_cons_self)
  have hdel : LoopyInv ((l₁.setStream id str).deleteStream id) := by
    rw [setStream_deleteStream (by rw [hestd]; exact hstr)]
    exact hi.dequeue_deleteStream l₁ hestd hact hoiws herr
  exact LoopyInv.cleanup_of_delete hdel rst

/-- What `processData` does with the stream it wrote from, with the items left `str.itl`, all
of them the stream's: it is emptied, closed by its trailers, parked, or linked again. -/
theorem LoopyInv.dequeue_afterWrite {str : outStream}
    (hitems : ∀ item ∈ str.itl, item.streamID = id) (hactive : str.state = .active)
    (fs : List Frame) : LoopyInv (l₁.afterWrite id str fs).2.2 := by
  unfold loopyWriter.afterWrite
  split
  · rename_i hnil
    exact hi.dequeue_setStream l₁ hestd hact hoiws herr
      (.of_state (by simp [hnil]) (iff_false_intro (fun h => by cases h)).symm hnil)
      (fun h => by cases h)
  · rename_i tID tEnd rst rest hitl
    -- the trailers belong to the stream
    have htid : tID = id :=
      hitems (.headerFrame tID tEnd rst) (by rw [hitl]; exact List.mem_cons_self)
    subst htid
    exact hi.dequeue_writeTrailer l₁ hestd hact hoiws herr str tEnd rst
  · rename_i sid es h d rest hitl
    have hhead : headIsData str.itl = true := by rw [hitl]; rfl
    split_ifs with hquota
    · exact hi.dequeue_setStream l₁ hestd hact hoiws herr
        (.of_state hitems (iff_false_intro (fun h => by cases h)).symm hhead)
        (fun _ => by rw [← hoiws]; exact hquota)
    · exact hi.dequeue_setStream_enqueue l₁ hestd hact hoiws herr
        (.of_state hitems (iff_true_intro hactive).symm (by unfold itemsFit; rw [hactive]; exact hhead))
        (fun hw => absurd (hactive.symm.trans hw) (fun h => by cases h))

end Dequeue

/-! ## One lemma per handler -/

section Handlers

variable {l : loopyWriter}

theorem lookup_eq_none_of_not_mem {m : List (Nat × outStream)} {k : Nat}
    (h : k ∉ m.map Prod.fst) : m.lookup k = none := by
  rw [List.lookup_eq_none_iff]
  intro p hp
  rw [bne_iff_ne, ne_eq]
  rintro rfl
  exact h (List.mem_map.mpr ⟨p, hp, rfl⟩)

/-- A new empty stream under an id that is not established. -/
theorem LoopyInv.insertEmpty (hi : LoopyInv l) {streamID : Nat}
    (hfresh : streamID ∉ l.estdStreams.map Prod.fst) :
    LoopyInv (l.setStream streamID ⟨streamID, .empty, [], 0⟩) := by
  have hnot := hi.not_linked_of_none (lookup_eq_none_of_not_mem hfresh)
  refine hi.setStream (.of_state (by simp) ?_ rfl) (fun h => by cases h)
  exact ⟨fun h => absurd h hnot, fun h => by cases h⟩

theorem LoopyInv.incomingWindowUpdateHandler (hi : LoopyInv l) (streamID : Nat)
    (increment : UInt32) : LoopyInv (l.incomingWindowUpdateHandler streamID increment).2 := by
  unfold loopyWriter.incomingWindowUpdateHandler
  split_ifs with h0
  · exact hi.of_books_eq rfl rfl rfl hi.no_panic
  · split
    · rename_i str hstr
      have hok := hi.streams streamID str hstr
      dsimp only
      split_ifs with hwake
      · -- a parked stream with quota again is made active and linked
        have hhead := hok.waiting_head hwake.2
        have hnot := hi.not_linked hstr (by rw [hwake.2]; decide)
        exact hi.setStream_enqueue hnot (.of_state hok.items_id (iff_true_intro rfl).symm hhead)
          (fun h => by cases h)
      · refine hi.setStream (.of_state hok.items_id ⟨hok.active_of_linked, hok.linked_of_active⟩
          hok.fit) (fun hw => ?_)
        by_contra hpos
        refine hwake ⟨?_, hw⟩
        simp only at hpos ⊢
        omega
    · exact hi

/-- `wakeWaiting` reads each stream it visits and makes it `active` if it was parked. -/
theorem lookup_wakeWaiting (order : List Nat) :
    ∀ (l : loopyWriter) (k : Nat), (l.wakeWaiting order).estdStreams.lookup k =
      (l.estdStreams.lookup k).map fun str =>
        if k ∈ order ∧ str.state = .waitingOnStreamQuota then { str with state := .active }
        else str := by
  induction order with
  | nil => intro l k; simp [loopyWriter.wakeWaiting]
  | cons id order ih =>
    intro l k
    simp only [loopyWriter.wakeWaiting, List.foldl_cons] at ih ⊢
    rw [ih]
    -- the stream `id` is visited first
    split
    · rename_i stream hstream
      split_ifs with hw
      · rw [enqueue_estdStreams, lookup_setStream]
        by_cases hk : k = id
        · subst hk
          simp [hstream, hw]
        · simp [hk]
      · by_cases hk : k = id
        · subst hk
          simp [hstream, hw]
        · simp [hk]
    · by_cases hk : k = id
      · subst hk
        simp [*]
      · simp [hk]

theorem Books.wakeWaiting (order : List Nat) :
    ∀ (l : loopyWriter), Books l → Books (l.wakeWaiting order) := by
  induction order with
  | nil => intro l hb; exact hb
  | cons id order ih =>
    intro l hb
    simp only [loopyWriter.wakeWaiting, List.foldl_cons] at ih ⊢
    apply ih
    split
    · rename_i stream hstream
      split_ifs with hw
      · have hok := hb.streams id stream hstream
        exact hb.setStream_enqueue (hb.not_linked hstream (by rw [hw]; decide))
          (.of_state hok.items_id (iff_true_intro rfl).symm (hok.waiting_head hw))
      · exact hb
    · exact hb

theorem wakeWaiting_oiws (order : List Nat) :
    ∀ (l : loopyWriter), (l.wakeWaiting order).oiws = l.oiws := by
  induction order with
  | nil => intro l; rfl
  | cons id order ih =>
    intro l
    simp only [loopyWriter.wakeWaiting, List.foldl_cons] at ih ⊢
    rw [ih]
    split
    · split_ifs <;> rfl
    · rfl

theorem mem_keys_of_lookup {m : List (Nat × outStream)} {k : Nat} {str : outStream}
    (h : m.lookup k = some str) : k ∈ m.map Prod.fst :=
  Map.mem_keys_iff_isSome_lookup.mpr (by rw [h]; rfl)

/-- `wakeWaiting` keeps the streams established. -/
theorem mem_keys_wakeWaiting {l : loopyWriter} {order : List Nat} {k : Nat} :
    k ∈ (l.wakeWaiting order).estdStreams.map Prod.fst ↔ k ∈ l.estdStreams.map Prod.fst := by
  rw [Map.mem_keys_iff_isSome_lookup, Map.mem_keys_iff_isSome_lookup, lookup_wakeWaiting,
    Option.isSome_map]

/-- `applySettings` keeps the invariant when each initial window setting visits every stream:
a larger window wakes every parked stream, a smaller one leaves them without quota. -/
theorem LoopyInv.applySettings :
    ∀ (ss : List Setting) (l : loopyWriter), LoopyInv l → (∀ s ∈ ss, s.Covers l) →
      LoopyInv (l.applySettings ss)
  | [], _, hi, _ => hi
  | .initialWindowSize val order :: ss, l, hi, hcov => by
    have hcov₀ : ∀ k ∈ l.estdStreams.map Prod.fst, k ∈ order := hcov _ List.mem_cons_self
    have hb : Books { l with oiws := val } := hi.toBooks.of_eq rfl rfl rfl
    simp only [loopyWriter.applySettings]
    apply LoopyInv.applySettings ss
    · split_ifs with hgrow
      · -- every parked stream is woken, so none is left parked
        refine .of_books (hb.wakeWaiting order _) (fun k str hs hw => absurd hw ?_)
        rw [lookup_wakeWaiting] at hs
        obtain ⟨str₀, hs₀, rfl⟩ := Option.map_eq_some_iff.mp hs
        have hk := hcov₀ k (mem_keys_of_lookup hs₀)
        split_ifs with h
        · decide
        · simp only [hk, true_and] at h
          exact h
      · refine .of_books hb (fun k str hs hw => ?_)
        have := hi.parked k str hs hw
        have hle := UInt32.lt_iff_toNat_lt.not.mp hgrow
        simp only at hle ⊢
        omega
    · -- the streams stay established, so every later setting still visits them all
      intro s hs
      have hs' := hcov s (List.mem_cons_of_mem _ hs)
      cases s with
      | initialWindowSize v order' =>
        intro k hk
        split_ifs at hk
        · exact hs' k ((mem_keys_wakeWaiting (l := { l with oiws := val })).mp hk)
        · exact hs' k hk
      | headerTableSize _ => trivial
      | other => trivial
  | .headerTableSize _ :: ss, l, hi, hcov =>
    LoopyInv.applySettings ss l hi (fun s hs => hcov s (List.mem_cons_of_mem _ hs))
  | .other :: ss, l, hi, hcov =>
    LoopyInv.applySettings ss l hi (fun s hs => hcov s (List.mem_cons_of_mem _ hs))

theorem LoopyInv.headerHandler (hi : LoopyInv l) (streamID : Nat) (endStream : Bool)
    (initStream : initResult) (rst : Bool)
    (hfresh : l.side = .clientSide → streamID ∉ l.estdStreams.map Prod.fst) :
    LoopyInv (l.headerHandler streamID endStream initStream rst).2 := by
  unfold loopyWriter.headerHandler
  split
  · split
    · exact hi
    · rename_i str hstr
      have hok := hi.streams streamID str hstr
      split_ifs with hend hne
      · exact hi
      · -- the trailers wait behind the stream's data
        have hhead : headIsData str.itl = true := by
          cases hst : str.state
          · exact hok.active_head hst
          · exact absurd hst hne
          · exact hok.waiting_head hst
        refine hi.setStream (.of_state ?_ ⟨hok.active_of_linked, hok.linked_of_active⟩ ?_)
          (hi.parked streamID str hstr)
        · intro item hitem
          rcases List.mem_append.mp hitem with h | h
          · exact hok.items_id item h
          · rw [List.mem_singleton.mp h]
            rfl
        · unfold itemsFit
          split <;> first | exact headIsData_append hhead _ | exact absurd ‹_› hne
      · exact hi.cleanupStreamHandler streamID rst
  · rename_i hside
    unfold loopyWriter.originateStream
    split
    · exact hi.insertEmpty (hfresh hside)
    · exact hi.with_err (by simp [ErrConnClosing, errNotDataFrame])
    · exact hi

theorem LoopyInv.preprocessData (hi : LoopyInv l) (streamID : Nat) (endStream : Bool)
    (h d : Bytes) : LoopyInv (l.preprocessData streamID endStream h d).2 := by
  unfold loopyWriter.preprocessData
  split
  · exact hi
  · rename_i str hstr
    have hok := hi.streams streamID str hstr
    have hitems : ∀ item ∈ str.itl ++ [.dataFrame streamID endStream h d],
        item.streamID = streamID := by
      intro item hitem
      rcases List.mem_append.mp hitem with hm | hm
      · exact hok.items_id item hm
      · rw [List.mem_singleton.mp hm]
        rfl
    dsimp only
    split_ifs with hempty
    · -- the data of an empty stream: it becomes active and is linked
      have hnil := hok.empty_itl hempty
      refine hi.setStream_enqueue (hi.not_linked hstr (by rw [hempty]; decide))
        (.of_state hitems (iff_true_intro rfl).symm ?_) (fun h => by cases h)
      show headIsData (str.itl ++ _) = true
      rw [hnil]
      rfl
    · have hhead : headIsData str.itl = true := by
        cases hst : str.state
        · exact hok.active_head hst
        · exact absurd hst hempty
        · exact hok.waiting_head hst
      refine hi.setStream (.of_state hitems ⟨hok.active_of_linked, hok.linked_of_active⟩ ?_)
        (hi.parked streamID str hstr)
      unfold itemsFit
      split <;> first | exact headIsData_append hhead _ | exact absurd ‹_› hempty

/-- `processData` keeps the invariant.  The stream it takes off `activeStreams` is established
and `active`, so its first item is a `*dataFrame` and the type assertion holds. -/
theorem LoopyInv.processData (hi : LoopyInv l) : LoopyInv l.processData.2.2 := by
  unfold loopyWriter.processData
  split_ifs with hzero
  · exact hi
  split
  · exact hi
  rename_i id rest hact
  have hlinked : id ∈ l.activeStreams := by rw [hact]; exact List.mem_cons_self
  dsimp only
  split
  · rename_i hnone
    obtain ⟨str, hstr⟩ := hi.active_estd id hlinked
    rw [hnone] at hstr
    cases hstr
  rename_i str hstr
  have hok := hi.streams id str hstr
  have hactive := hok.active_of_linked hlinked
  have hhead := hok.active_head hactive
  split
  · rename_i sid es h d itl hitl
    have hitems : ∀ item ∈ itl, item.streamID = id :=
      fun item hm => hok.items_id item (by rw [hitl]; exact List.mem_cons_of_mem _ hm)
    have hsid : sid = id :=
      hok.items_id (.dataFrame sid es h d) (by rw [hitl]; exact List.mem_cons_self)
    subst hsid
    by_cases hempty : h.length = 0 ∧ d.length = 0
    · -- an empty data frame: the end of the client's stream
      rw [if_pos hempty]
      split
      · exact hi.dequeue_setStream { l with activeStreams := rest } rfl hact rfl rfl
          (.of_state (by simp) (iff_false_intro (fun h => by cases h)).symm rfl)
          (fun h => by cases h)
      · rename_i tID tEnd rst tail
        have htid : tID = sid := hitems (.headerFrame tID tEnd rst) List.mem_cons_self
        subst htid
        -- an error of the cleanup is dropped, the old `err` kept
        exact (hi.dequeue_writeTrailer { l with activeStreams := rest } rfl hact rfl rfl _ tEnd
          rst).with_err hi.no_panic
      · rename_i sid' es' h' d' tail
        exact hi.dequeue_setStream_enqueue { l with activeStreams := rest } rfl hact rfl rfl
          (.of_state hitems (iff_true_intro hactive).symm
            (by unfold itemsFit; rw [hactive]; rfl))
          (fun hw => absurd (hactive.symm.trans hw) (fun h => by cases h))
    rw [if_neg hempty]
    by_cases hquota : (l.oiws.toNat : Int) - str.bytesOutStanding ≤ 0
    · -- no stream quota: parked
      rw [if_pos hquota]
      exact hi.dequeue_setStream { l with activeStreams := rest } rfl hact rfl rfl
        (.of_state hok.items_id (iff_false_intro (fun h => by cases h)).symm hhead)
        (fun _ => hquota)
    -- a frame is written; what is left of the data frame stays first
    rw [if_neg hquota]
    refine hi.dequeue_afterWrite _ ?_ ?_ ?_ ?_ ?_ ?_ _
    · rfl
    · exact hact
    · rfl
    · rfl
    · -- the items left: the rest of the data frame, if any, and the items after it
      have hleft : ∀ (c : Prop) [Decidable c] (x : outItem), x.streamID = sid →
          ∀ item ∈ (if c then itl else x :: itl), item.streamID = sid := by
        intro c _ x hx item hm
        split_ifs at hm
        · exact hitems item hm
        · rcases List.mem_cons.mp hm with rfl | hm
          · exact hx
          · exact hitems item hm
      exact hleft _ _ rfl
    · exact hactive
  · rename_i hnot
    -- the head is a `*dataFrame`
    match hitl : str.itl, hhead with
    | .dataFrame sid es h d :: itl, _ => exact absurd hitl (hnot sid es h d itl)

theorem LoopyInv.handle (hi : LoopyInv l) {i : controlItem} (hal : l.Allowed (.handle i)) :
    LoopyInv (l.handle i).2 := by
  have herr (e : String) (he : e ≠ errNotDataFrame) : some e ≠ some errNotDataFrame := by
    simpa using he
  cases i with
  | incomingWindowUpdate streamID increment => exact hi.incomingWindowUpdateHandler _ _
  | outgoingWindowUpdate => exact hi
  | incomingSettings ss => exact hi.applySettings ss l hal
  | outgoingSettings => exact hi
  | headerFrame streamID endStream initStream rst => exact hi.headerHandler _ _ _ _ hal
  | registerStream streamID => exact hi.insertEmpty hal
  | cleanupStream streamID rst => exact hi.cleanupStreamHandler _ _
  | earlyAbortStream streamID =>
    show LoopyInv (l.earlyAbortStreamHandler streamID).2
    unfold loopyWriter.earlyAbortStreamHandler
    split
    · exact hi.with_err (herr _ (by simp [errNotDataFrame]))
    · exact hi
  | incomingGoAway =>
    show LoopyInv l.incomingGoAwayHandler.2
    unfold loopyWriter.incomingGoAwayHandler
    split
    · dsimp only
      split_ifs
      · exact hi.of_books_eq rfl rfl rfl (herr _ (by simp [ErrConnClosing, errNotDataFrame]))
      · exact hi.of_books_eq rfl rfl rfl hi.no_panic
    · exact hi
  | dataFrame streamID endStream h d => exact hi.preprocessData _ _ _ _
  | ping ack => exact hi
  | goAway draining =>
    show LoopyInv (l.goAwayHandler draining).2
    unfold loopyWriter.goAwayHandler
    split
    · exact hi.of_books_eq rfl rfl rfl hi.no_panic
    · exact hi
  | outFlowControlSizeRequest => exact hi

end Handlers

/-- Every step loopy can take keeps the invariant. -/
theorem loopyInv_invariant :
    Machine.Invariant loopyWriter.Allowed loopyWriter.step LoopyInv := by
  intro l e hi hal
  unfold loopyWriter.step
  split
  · exact hi
  · cases e with
    | handle i => exact hi.handle hal
    | processData => exact hi.processData

theorem loopyInv_newLoopyWriter (s : side) : LoopyInv (newLoopyWriter s) where
  keys_nodup := List.nodup_nil
  active_nodup := List.nodup_nil
  active_estd _ h := absurd h List.not_mem_nil
  streams _ _ h := by cases h
  no_panic := by simp [newLoopyWriter]
  parked _ _ h := by cases h


/-- The loopy writer's stream bookkeeping holds after every sequence of control items and
`processData` calls the transport can hand it: every stream on `activeStreams` is established,
`active`, on the list once, and has a `*dataFrame` first; an `empty` stream has no items and is
not on the list; a stream waiting on quota is not on the list and has a `*dataFrame` first.  So
the type assertion of `processData` has never failed, and no stream has been linked twice. -/
theorem loopy_bookkeeping (s : side) (es : List LoopyEvent)
    (hes : Machine.Admits loopyWriter.Allowed loopyWriter.step (newLoopyWriter s) es) :
    let l := (Machine.run loopyWriter.step (newLoopyWriter s) es).2
    l.activeStreams.Nodup ∧
      (∀ id ∈ l.activeStreams, ∃ str, l.estdStreams.lookup id = some str ∧
        str.state = .active ∧ headIsData str.itl = true) ∧
      (∀ id str, l.estdStreams.lookup id = some str → str.state = .empty →
        str.itl = [] ∧ id ∉ l.activeStreams) ∧
      (∀ id str, l.estdStreams.lookup id = some str → str.state = .waitingOnStreamQuota →
        id ∉ l.activeStreams ∧ headIsData str.itl = true) ∧
      l.err ≠ some errNotDataFrame := by
  intro l
  have hi : LoopyInv l := loopyInv_invariant.run (loopyInv_newLoopyWriter s) hes
  refine ⟨hi.active_nodup, fun id hid => ?_, fun id str hs he => ?_, fun id str hs hw => ?_,
    hi.no_panic⟩
  · obtain ⟨str, hs⟩ := hi.active_estd id hid
    have hok := hi.streams id str hs
    have hactive := hok.active_of_linked hid
    exact ⟨str, hs, hactive, hok.active_head hactive⟩
  · exact ⟨(hi.streams id str hs).empty_itl he, hi.not_linked hs (by rw [he]; decide)⟩
  · exact ⟨hi.not_linked hs (by rw [hw]; decide), (hi.streams id str hs).waiting_head hw⟩

/-- A server stream with data and trailers queued behind it, written out by `processData`. -/
theorem loopy_bookkeeping_trailer :
    (Machine.run loopyWriter.step (newLoopyWriter .serverSide)
      [.handle (.registerStream 1), .handle (.dataFrame 1 false [1, 2] [3]),
        .handle (.headerFrame 1 true .ok false), .processData, .processData]).2.err ≠
      some errNotDataFrame :=
  (loopy_bookkeeping .serverSide _ (by decide)).2.2.2.2

end Transport
end GrpcGo
