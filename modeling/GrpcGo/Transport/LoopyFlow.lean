import GrpcGo.Transport.LoopyDrain

/-!
# Loopy keeps to the peer's flow control

`processData` cuts each DATA frame to `http2MaxFrameLen`, to the connection's quota `sendQuota`
and to the stream's quota `oiws - bytesOutStanding`, then takes the frame from `sendQuota` and
adds it to the stream's `bytesOutStanding`; a window update for the stream takes it off again.

* `FlowStep` says what one turn of `processData` does to the quotas (`processData_flowStep`),
  and `CountsAfter` what a handler does to the streams' counts (`handle_countsAfter`).
* `FlowLedger` relates each stream's count to what was written for it and what the peer
  granted it: written less granted is at most the count.  Every step keeps it
  (`FlowLedger.step`), a new stream starting from nothing written, as `OrderInv` knows.
* `loopy_flow_control`: along every run in which the transport hands loopy its streams in order,
  each DATA frame keeps to the frame size and to the connection's quota, which falls by exactly
  the bytes written, and a write on a stream leaves what was written on it within the initial
  window in force plus what the peer granted it.

A DATA frame with no payload, which carries a client's END_STREAM, is written whatever the
stream's quota: a stream that already holds more than a lowered initial window still ends
(`empty_frame_over_stream_quota`).
-/

namespace GrpcGo
namespace Transport

open GoStd loopyWriter

/-! ## What frames and events carry for flow control -/

namespace Frame

/-- Whether a frame is a DATA frame. -/
def isData : Frame → Bool
  | .data .. => true
  | _ => false

/-- The payload of a DATA frame. -/
def dataPayload : Frame → Bytes
  | .data _ _ payload => payload
  | _ => []

end Frame

/-- The bytes of the DATA frames of `fs`. -/
def dataBytes (fs : List Frame) : Nat :=
  (fs.flatMap Frame.dataPayload).length

/-- `fs` holds no DATA frame. -/
def NoData (fs : List Frame) : Prop :=
  ∀ x ∈ fs, x.isData = false

theorem NoData.append {fs fs' : List Frame} (h : NoData fs) (h' : NoData fs') :
    NoData (fs ++ fs') := by
  intro x hx
  rcases List.mem_append.mp hx with hx | hx
  · exact h x hx
  · exact h' x hx

theorem NoData.written_eq {fs : List Frame} (h : NoData fs) (s : Nat) : written fs s = [] := by
  simp only [written, List.flatMap_eq_nil_iff]
  intro x hx
  have := h x hx
  cases x <;> simp_all [Frame.isData, Frame.payloadFor]

theorem NoData.dataBytes_eq {fs : List Frame} (h : NoData fs) : dataBytes fs = 0 := by
  simp only [dataBytes, List.length_eq_zero_iff, List.flatMap_eq_nil_iff]
  intro x hx
  have := h x hx
  cases x <;> simp_all [Frame.isData, Frame.dataPayload]

@[simp] theorem dataBytes_append (fs fs' : List Frame) :
    dataBytes (fs ++ fs') = dataBytes fs + dataBytes fs' := by
  simp [dataBytes]

theorem dataBytes_data (sid : Nat) (f : Bool) (p : Bytes) : dataBytes [.data sid f p] = p.length := by
  simp [dataBytes, Frame.dataPayload]

/-- The increment the event grants stream `s`; a window update of stream `0` is the
connection's. -/
def LoopyEvent.grant (s : Nat) : LoopyEvent → Nat
  | .handle (.incomingWindowUpdate streamID increment) =>
    if streamID = s ∧ s ≠ 0 then increment.toNat else 0
  | _ => 0

/-- What the peer granted stream `s` in the events `es`. -/
def granted (es : List LoopyEvent) (s : Nat) : Nat :=
  (es.map (LoopyEvent.grant s)).sum

@[simp] theorem granted_nil (s : Nat) : granted [] s = 0 := rfl

@[simp] theorem granted_append (es : List LoopyEvent) (e : LoopyEvent) (s : Nat) :
    granted (es ++ [e]) s = granted es s + e.grant s := by
  simp [granted]

/-! ## The streams' counts across a step -/

/-- `l'` holds some of the streams of `l`, each with its count as it was, but stream `id`'s
raised by `n`. -/
def Counts (l l' : loopyWriter) (id n : Nat) : Prop :=
  ∀ s str', l'.estdStreams.lookup s = some str' → ∃ str, l.estdStreams.lookup s = some str ∧
    str'.bytesOutStanding = str.bytesOutStanding + if s = id then (n : Int) else 0

theorem Counts.of_estd {l l' : loopyWriter} (h : l'.estdStreams = l.estdStreams) (id : Nat) :
    Counts l l' id 0 := by
  intro s str' hs
  rw [h] at hs
  exact ⟨str', hs, by simp⟩

/-- What one turn of `processData` does to the quotas: it writes the payload `p` for stream
`id`, in one DATA frame followed by no other, or writes no DATA frame and `p` is empty; `p` is
within the frame size and, unless it is empty, within the stream's quota; `sendQuota` falls by
`|p|` and stream `id`'s count rises by it. -/
structure FlowStep (l : loopyWriter) (fs : List Frame) (l' : loopyWriter) (id : Nat) (p : Bytes) :
    Prop where
  frames : (NoData fs ∧ p = []) ∨ ∃ f post, fs = .data id f p :: post ∧ NoData post
  sendQuota : l'.sendQuota.toNat + p.length = l.sendQuota.toNat
  oiws : l'.oiws = l.oiws
  frameLen : p.length ≤ http2MaxFrameLen
  streamQuota : p ≠ [] → ∃ str, l.estdStreams.lookup id = some str ∧
    str.bytesOutStanding + p.length ≤ l.oiws.toNat
  counts : Counts l l' id p.length

namespace FlowStep

variable {l l' : loopyWriter} {fs : List Frame} {id : Nat} {p : Bytes}

/-- No DATA frame and no change of the quotas or the counts. -/
theorem quiet (hfs : NoData fs) (hsq : l'.sendQuota = l.sendQuota) (hoiws : l'.oiws = l.oiws)
    (hestd : l'.estdStreams = l.estdStreams) : FlowStep l fs l' 0 [] where
  frames := .inl ⟨hfs, rfl⟩
  sendQuota := by rw [hsq]; rfl
  oiws := hoiws
  frameLen := Nat.zero_le _
  streamQuota h := absurd rfl h
  counts := Counts.of_estd hestd 0

theorem written_eq (h : FlowStep l fs l' id p) (s : Nat) :
    written fs s = if s = id then p else [] := by
  rcases h.frames with ⟨hfs, rfl⟩ | ⟨f, post, rfl, hpost⟩
  · rw [hfs.written_eq]
    split <;> rfl
  · rw [show Frame.data id f p :: post = [.data id f p] ++ post from rfl, written_append,
      written_data, hpost.written_eq, List.append_nil]
    by_cases hs : s = id
    · rw [if_pos hs.symm, if_pos hs]
    · rw [if_neg (Ne.symm hs), if_neg hs]

theorem dataBytes_eq (h : FlowStep l fs l' id p) : dataBytes fs = p.length := by
  rcases h.frames with ⟨hfs, rfl⟩ | ⟨f, post, rfl, hpost⟩
  · exact hfs.dataBytes_eq
  · rw [show Frame.data id f p :: post = [.data id f p] ++ post from rfl, dataBytes_append,
      dataBytes_data, hpost.dataBytes_eq, Nat.add_zero]

/-- Each DATA frame of the turn is the one with payload `p`. -/
theorem mem_data (h : FlowStep l fs l' id p) {sid : Nat} {f : Bool} {payload : Bytes}
    (hx : Frame.data sid f payload ∈ fs) : sid = id ∧ payload = p := by
  rcases h.frames with ⟨hfs, -⟩ | ⟨f', post, rfl, hpost⟩
  · cases hfs _ hx
  · rcases List.mem_cons.mp hx with hx | hx
    · cases hx
      exact ⟨rfl, rfl⟩
    · cases hpost _ hx

end FlowStep

/-! ## `processData` -/

section ProcessData

variable {l : loopyWriter}

theorem noData_writeHeader (streamID : Nat) (endStream : Bool) :
    NoData (writeHeader streamID endStream) := by
  simp [NoData, writeHeader, Frame.isData]

/-- The cleanup of stream `t`: no DATA frame, the quotas as they were, and the streams of `l`
but `t`. -/
theorem cleanupStreamHandler_flow (hkeys : (l.estdStreams.map Prod.fst).Nodup) (t : Nat)
    (rst : Bool) :
    NoData (l.cleanupStreamHandler t rst).1 ∧
      (l.cleanupStreamHandler t rst).2.sendQuota = l.sendQuota ∧
      (l.cleanupStreamHandler t rst).2.oiws = l.oiws ∧
      ∀ s str', (l.cleanupStreamHandler t rst).2.estdStreams.lookup s = some str' →
        l.estdStreams.lookup s = some str' := by
  obtain ⟨hoiws, hsq, -⟩ := cleanupStreamHandler_snd l t rst
  refine ⟨?_, hsq, hoiws, fun s str' hs => ?_⟩
  · simp only [cleanupStreamHandler]
    split_ifs <;> simp [NoData, Frame.isData]
  · rw [lookup_cleanupStreamHandler l t s rst hkeys] at hs
    split_ifs at hs
    exact hs

/-- The trailers of stream `t`, written with its cleanup. -/
theorem writeTrailer_flow (hkeys : (l.estdStreams.map Prod.fst).Nodup) (t : Nat)
    (endStream rst : Bool) :
    NoData (l.writeTrailer t endStream rst).1 ∧
      (l.writeTrailer t endStream rst).2.sendQuota = l.sendQuota ∧
      (l.writeTrailer t endStream rst).2.oiws = l.oiws ∧
      ∀ s str', (l.writeTrailer t endStream rst).2.estdStreams.lookup s = some str' →
        l.estdStreams.lookup s = some str' := by
  obtain ⟨hfs, hsq, hoiws, hlookup⟩ := cleanupStreamHandler_flow hkeys t rst
  exact ⟨(noData_writeHeader t endStream).append hfs, hsq, hoiws, hlookup⟩

/-- What `afterWrite` does: it writes no more DATA frames, keeps the quotas, and leaves stream
`id` as `str` or closed and every other stream as it was or closed. -/
theorem afterWrite_flow (hkeys : (l.estdStreams.map Prod.fst).Nodup) (id : Nat) (str : outStream)
    (fs : List Frame) :
    ∃ extra, (l.afterWrite id str fs).2.1 = fs ++ extra ∧ NoData extra ∧
      (l.afterWrite id str fs).2.2.sendQuota = l.sendQuota ∧
      (l.afterWrite id str fs).2.2.oiws = l.oiws ∧
      ∀ s str', (l.afterWrite id str fs).2.2.estdStreams.lookup s = some str' →
        if s = id then str'.bytesOutStanding = str.bytesOutStanding
        else l.estdStreams.lookup s = some str' := by
  -- the stream replaced by `str` with another state
  have hset : ∀ (str₂ : outStream), str₂.bytesOutStanding = str.bytesOutStanding →
      ∀ s str', (l.setStream id str₂).estdStreams.lookup s = some str' →
        if s = id then str'.bytesOutStanding = str.bytesOutStanding
        else l.estdStreams.lookup s = some str' := by
    intro str₂ hbos s str' hs
    rw [lookup_setStream] at hs
    split_ifs at hs ⊢
    · cases hs
      exact hbos
    · exact hs
  unfold loopyWriter.afterWrite
  split
  · exact ⟨[], (List.append_nil _).symm, (fun _ h => by cases h), rfl, rfl, hset _ rfl⟩
  · rename_i tID tEnd rst rest hitl
    obtain ⟨hfs, hsq, hoiws, hlookup⟩ :=
      writeTrailer_flow (keys_nodup_setStream l id str hkeys) tID tEnd rst
    exact ⟨_, rfl, hfs, hsq, hoiws, fun s str' hs => hset str rfl s str' (hlookup s str' hs)⟩
  · split_ifs
    · exact ⟨[], (List.append_nil _).symm, (fun _ h => by cases h), rfl, rfl, hset _ rfl⟩
    · exact ⟨[], (List.append_nil _).symm, (fun _ h => by cases h), rfl, rfl, hset _ rfl⟩

/-- The write of a DATA frame with payload `p` for stream `id`, then `afterWrite`. -/
theorem FlowStep.afterWrite {l₂ : loopyWriter} {id : Nat} {str str₂ : outStream} {f : Bool}
    {p : Bytes} (hkeys : (l.estdStreams.map Prod.fst).Nodup)
    (hstr : l.estdStreams.lookup id = some str) (hestd : l₂.estdStreams = l.estdStreams)
    (hoiws : l₂.oiws = l.oiws) (hsend : l₂.sendQuota.toNat + p.length = l.sendQuota.toNat)
    (hbos : str₂.bytesOutStanding = str.bytesOutStanding + p.length)
    (hframe : p.length ≤ http2MaxFrameLen)
    (hquota : str.bytesOutStanding + p.length ≤ l.oiws.toNat) :
    FlowStep l (l₂.afterWrite id str₂ [.data id f p]).2.1 (l₂.afterWrite id str₂ [.data id f p]).2.2
      id p := by
  obtain ⟨extra, hout, hextra, hsq, hoiws', hlookup⟩ :=
    afterWrite_flow (by rw [hestd]; exact hkeys) id str₂ [.data id f p]
  refine ⟨.inr ⟨f, extra, hout, hextra⟩, by rw [hsq]; exact hsend, by rw [hoiws', hoiws], hframe,
    fun _ => ⟨str, hstr, hquota⟩, fun s str' hs => ?_⟩
  have hs' := hlookup s str' hs
  split_ifs at hs' with hsid
  · subst hsid
    exact ⟨str, hstr, by rw [hs', hbos, if_pos rfl]⟩
  · rw [hestd] at hs'
    exact ⟨str', hs', by rw [if_neg hsid, Int.add_zero]⟩

/-- The size of a DATA frame that `processData` writes: within the frame size and within the
stream's quota. -/
theorem write_within (l : loopyWriter) (str : outStream) (h d : Bytes)
    (hstr : 0 < (l.oiws.toNat : Int) - str.bytesOutStanding) :
    let strQuota := (l.oiws.toNat : Int) - str.bytesOutStanding
    let maxSize := min http2MaxFrameLen strQuota.toNat
    let maxSize := if maxSize > l.sendQuota.toNat then l.sendQuota.toNat else maxSize
    let hSize := min maxSize h.length
    let dSize := min (maxSize - hSize) d.length
    hSize + dSize ≤ http2MaxFrameLen ∧
      str.bytesOutStanding + ((hSize + dSize : Nat) : Int) ≤ l.oiws.toNat := by
  dsimp only
  split_ifs <;> simp only [http2MaxFrameLen] at * <;> omega

/-- The payload cut from a data frame is as long as the bytes taken from it. -/
theorem length_slice (h d : Bytes) (maxSize : Nat) :
    let hSize := min maxSize h.length
    let dSize := min (maxSize - hSize) d.length
    ((if hSize ≠ 0 then (if dSize = 0 then h else h.take hSize ++ d.take dSize) else d).take
      (hSize + dSize)).length = hSize + dSize := by
  dsimp only
  rw [(slice_spec rfl rfl).1, List.length_take, List.length_append]
  omega

/-- **One turn of `processData`** keeps to the quotas. -/
theorem processData_flowStep (hi : LoopyInv l) :
    ∃ id p, FlowStep l l.processData.2.1 l.processData.2.2 id p := by
  have hkeys := hi.keys_nodup
  unfold loopyWriter.processData
  split_ifs with hzero
  · exact ⟨0, [], .quiet (fun _ h => by cases h) rfl rfl rfl⟩
  split
  · exact ⟨0, [], .quiet (fun _ h => by cases h) rfl rfl rfl⟩
  rename_i id rest hact
  dsimp only
  split
  · exact ⟨0, [], .quiet (fun _ h => by cases h) rfl rfl rfl⟩
  rename_i str hstr
  have hok := hi.streams id str hstr
  split
  swap
  · exact ⟨0, [], .quiet (fun _ h => by cases h) rfl rfl rfl⟩
  rename_i sid f hh dd itl hitl
  have hsid : sid = id :=
    hok.items_id (.dataFrame sid f hh dd) (by rw [hitl]; exact List.mem_cons_self)
  subst hsid
  -- the stream written from, with other items and state, keeps its count
  have hkeep : ∀ (str₂ : outStream), str₂.bytesOutStanding = str.bytesOutStanding →
      Counts l ({ l with activeStreams := rest }.setStream sid str₂) sid 0 := by
    intro str₂ hbos s str' hs
    rw [lookup_setStream] at hs
    split_ifs at hs with hs'
    · cases hs
      subst hs'
      exact ⟨str, hstr, by rw [hbos]; simp⟩
    · exact ⟨str', hs, by simp⟩
  by_cases hempty : hh.length = 0 ∧ dd.length = 0
  · -- an empty data frame: written as it is, with no payload
    rw [if_pos hempty]
    obtain ⟨hh0, dd0⟩ := hempty
    rw [List.length_eq_zero_iff] at hh0 dd0
    subst hh0 dd0
    have hstep : ∀ (fs : List Frame) (l' : loopyWriter), NoData fs →
        l'.sendQuota = l.sendQuota → l'.oiws = l.oiws → Counts l l' sid 0 →
        FlowStep l (Frame.data sid f [] :: fs) l' sid [] := by
      intro fs l' hfs hsq hoiws hcounts
      exact ⟨.inr ⟨f, fs, rfl, hfs⟩, by rw [hsq]; rfl, hoiws, Nat.zero_le _,
        fun h => absurd rfl h, hcounts⟩
    refine ⟨sid, [], ?_⟩
    split
    · exact hstep [] _ (fun _ h => by cases h) rfl rfl (hkeep _ rfl)
    · rename_i tID tEnd rst tail
      have hkeys₂ := keys_nodup_setStream { l with activeStreams := rest } sid
        { str with itl := .headerFrame tID tEnd rst :: tail } hkeys
      obtain ⟨hfs, hsq, hoiws, hlookup⟩ := writeTrailer_flow hkeys₂ tID tEnd rst
      exact hstep _ _ hfs hsq hoiws fun s str' hs =>
        hkeep { str with itl := .headerFrame tID tEnd rst :: tail } rfl s str' (hlookup s str' hs)
    · exact hstep [] _ (fun _ h => by cases h) rfl rfl (hkeep _ rfl)
  · rw [if_neg hempty]
    split
    · -- no stream quota: the stream is parked
      exact ⟨sid, [], ⟨.inl ⟨(fun _ h => by cases h), rfl⟩, rfl, rfl, Nat.zero_le _,
        fun h => absurd rfl h, hkeep _ rfl⟩⟩
    · -- a DATA frame within both quotas and the frame size
      rename_i hpos
      have hsq : 0 < l.sendQuota.toNat := by
        rcases Nat.eq_zero_or_pos l.sendQuota.toNat with h0 | h0
        · exact absurd (UInt32.toNat_inj.mp (by rw [h0]; rfl)) hzero
        · exact h0
      have hsz := write_size l str hh dd (by omega) hsq hempty
      have hwithin := write_within l str hh dd (by omega)
      have hlen := length_slice hh dd
        (if min http2MaxFrameLen ((l.oiws.toNat : Int) - str.bytesOutStanding).toNat >
            l.sendQuota.toNat then l.sendQuota.toNat
          else min http2MaxFrameLen ((l.oiws.toNat : Int) - str.bytesOutStanding).toNat)
      dsimp only at hsz hwithin hlen ⊢
      refine ⟨sid, _, FlowStep.afterWrite hkeys hstr rfl rfl ?_ ?_ ?_ ?_⟩
      · rw [hlen]
        exact toNat_sub_ofNat _ hsz.2.1
      · rw [hlen]
      · rw [hlen]
        exact hwithin.1
      · rw [hlen]
        exact hwithin.2

end ProcessData

/-! ## The handlers -/

section Handlers

variable {sd : side} {l : loopyWriter}

/-- `l'` holds some of the streams of `l`, each with its count as it was. -/
def Keeps (l l' : loopyWriter) : Prop :=
  ∀ s str', l'.estdStreams.lookup s = some str' →
    ∃ str, l.estdStreams.lookup s = some str ∧ str'.bytesOutStanding = str.bytesOutStanding

theorem Keeps.refl (l : loopyWriter) : Keeps l l := fun _ str' hs => ⟨str', hs, rfl⟩

theorem Keeps.of_estd {l' : loopyWriter} (h : l'.estdStreams = l.estdStreams) : Keeps l l' := by
  intro s str' hs
  rw [h] at hs
  exact ⟨str', hs, rfl⟩

theorem Keeps.trans {l₂ l₃ : loopyWriter} (h : Keeps l l₂) (h' : Keeps l₂ l₃) : Keeps l l₃ := by
  intro s str₃ hs
  obtain ⟨str₂, hs₂, hbos₂⟩ := h' s str₃ hs
  obtain ⟨str, hs₁, hbos⟩ := h s str₂ hs₂
  exact ⟨str, hs₁, hbos₂.trans hbos⟩

theorem keeps_cleanupStreamHandler (hkeys : (l.estdStreams.map Prod.fst).Nodup) (t : Nat)
    (rst : Bool) : Keeps l (l.cleanupStreamHandler t rst).2 := by
  intro s str' hs
  exact ⟨str', (cleanupStreamHandler_flow hkeys t rst).2.2.2 s str' hs, rfl⟩

theorem keeps_wakeWaiting (order : List Nat) : Keeps l (l.wakeWaiting order) := by
  intro s str' hs
  rw [lookup_wakeWaiting] at hs
  obtain ⟨str, hstr, hmap⟩ := Option.map_eq_some_iff.mp hs
  refine ⟨str, hstr, ?_⟩
  rw [← hmap]
  split_ifs <;> rfl

theorem keeps_applySettings : ∀ (ss : List Setting) (l : loopyWriter), Keeps l (l.applySettings ss)
  | [], l => Keeps.refl l
  | .initialWindowSize val order :: ss, l => by
    simp only [applySettings]
    -- the streams a larger window wakes keep their counts
    refine Keeps.trans ?_ (keeps_applySettings ss _)
    split_ifs
    · exact (Keeps.of_estd rfl).trans (keeps_wakeWaiting order)
    · exact Keeps.of_estd rfl
  | .headerTableSize _ :: ss, l => keeps_applySettings ss l
  | .other :: ss, l => keeps_applySettings ss l

/-- What a handler does to the streams' counts: each stream it leaves was there before, with its
count lowered by at most what the item grants it, or the item opens it with a count of `0`. -/
def HandleCounts (sd : side) (e : LoopyEvent) (l l' : loopyWriter) : Prop :=
  ∀ s str', l'.estdStreams.lookup s = some str' →
    (∃ str, l.estdStreams.lookup s = some str ∧
      str.bytesOutStanding - e.grant s ≤ str'.bytesOutStanding) ∨
    (str'.bytesOutStanding = 0 ∧ e.opens sd = some s)

theorem Keeps.handleCounts {l' : loopyWriter} (h : Keeps l l') (e : LoopyEvent) :
    HandleCounts sd e l l' := by
  intro s str' hs
  obtain ⟨str, hstr, hbos⟩ := h s str' hs
  exact .inl ⟨str, hstr, by omega⟩

/-- Stream `id` replaced by one whose count is lowered by at most the grant. -/
theorem handleCounts_setStream {e : LoopyEvent} {id : Nat} {str str₂ : outStream}
    (hstr : l.estdStreams.lookup id = some str)
    (hbos : str.bytesOutStanding - e.grant id ≤ str₂.bytesOutStanding) :
    HandleCounts sd e l (l.setStream id str₂) := by
  intro s str' hs
  rw [lookup_setStream] at hs
  split_ifs at hs with hsid
  · cases hs
    subst hsid
    exact .inl ⟨str, hstr, hbos⟩
  · exact .inl ⟨str', hs, by omega⟩

/-- A new stream, opened by the item. -/
theorem handleCounts_open {e : LoopyEvent} {id : Nat} (hopen : e.opens sd = some id) :
    HandleCounts sd e l (l.setStream id ⟨id, .empty, [], 0⟩) := by
  intro s str' hs
  rw [lookup_setStream] at hs
  split_ifs at hs with hsid
  · cases hs
    subst hsid
    exact .inr ⟨rfl, hopen⟩
  · exact .inl ⟨str', hs, by omega⟩

/-- **What each handler does to the counts.**  No handler writes a DATA frame; a window update
lowers its stream's count by the increment, a new stream starts from `0`, and every other stream
keeps its count or is closed. -/
theorem handle_flow (hkeys : (l.estdStreams.map Prod.fst).Nodup) (hside : l.side = sd)
    (i : controlItem) :
    NoData (l.handle i).1 ∧ HandleCounts sd (.handle i) l (l.handle i).2 := by
  have hnil : NoData [] := fun _ h => by cases h
  cases i with
  | incomingWindowUpdate streamID increment =>
    simp only [handle, incomingWindowUpdateHandler]
    split_ifs with h0
    · exact ⟨hnil, (Keeps.of_estd rfl).handleCounts _⟩
    split
    · rename_i str hstr
      -- the grant of a stream other than the connection is the increment
      have hgrant : LoopyEvent.grant streamID (.handle (.incomingWindowUpdate streamID increment))
          = increment.toNat := by
        simp [LoopyEvent.grant, h0]
      split_ifs
      · exact ⟨hnil, handleCounts_setStream hstr (by rw [hgrant])⟩
      · exact ⟨hnil, handleCounts_setStream hstr (by rw [hgrant])⟩
    · exact ⟨hnil, (Keeps.refl l).handleCounts _⟩
  | incomingSettings ss =>
    refine ⟨fun x hx => ?_, (keeps_applySettings ss l).handleCounts _⟩
    simp only [handle, incomingSettingsHandler, List.mem_singleton] at hx
    subst hx
    rfl
  | headerFrame streamID endStream initStream rst =>
    simp only [handle, headerHandler]
    split
    · split
      · exact ⟨hnil, (Keeps.refl l).handleCounts _⟩
      rename_i str hstr
      split_ifs
      · exact ⟨noData_writeHeader _ _, (Keeps.refl l).handleCounts _⟩
      · exact ⟨hnil, handleCounts_setStream hstr (by dsimp only; omega)⟩
      · exact ⟨(noData_writeHeader _ _).append (cleanupStreamHandler_flow hkeys _ _).1,
          (keeps_cleanupStreamHandler hkeys _ _).handleCounts _⟩
    · rename_i hcl
      simp only [originateStream]
      split
      · refine ⟨noData_writeHeader _ _, handleCounts_open ?_⟩
        simp [LoopyEvent.opens, ← hside, hcl]
      · exact ⟨hnil, (Keeps.of_estd rfl).handleCounts _⟩
      · exact ⟨hnil, (Keeps.refl l).handleCounts _⟩
  | registerStream streamID => exact ⟨hnil, handleCounts_open rfl⟩
  | cleanupStream streamID rst =>
    exact ⟨(cleanupStreamHandler_flow hkeys _ _).1,
      (keeps_cleanupStreamHandler hkeys _ _).handleCounts _⟩
  | earlyAbortStream streamID =>
    simp only [handle, earlyAbortStreamHandler]
    split
    · exact ⟨hnil, (Keeps.of_estd rfl).handleCounts _⟩
    · exact ⟨noData_writeHeader _ _, (Keeps.refl l).handleCounts _⟩
  | incomingGoAway =>
    simp only [handle, incomingGoAwayHandler]
    split
    · split_ifs
      · exact ⟨hnil, (Keeps.of_estd rfl).handleCounts _⟩
      · exact ⟨hnil, (Keeps.of_estd rfl).handleCounts _⟩
    · exact ⟨hnil, (Keeps.refl l).handleCounts _⟩
  | dataFrame streamID endStream h d =>
    simp only [handle, preprocessData]
    split
    · exact ⟨hnil, (Keeps.refl l).handleCounts _⟩
    · rename_i str hstr
      split_ifs
      · exact ⟨hnil, handleCounts_setStream hstr (by simp [LoopyEvent.grant])⟩
      · exact ⟨hnil, handleCounts_setStream hstr (by simp [LoopyEvent.grant])⟩
  | goAway draining =>
    simp only [handle, goAwayHandler]
    split
    · exact ⟨hnil, (Keeps.of_estd rfl).handleCounts _⟩
    · exact ⟨hnil, (Keeps.refl l).handleCounts _⟩
  | outgoingWindowUpdate streamID increment =>
    refine ⟨fun x hx => ?_, (Keeps.refl l).handleCounts _⟩
    simp only [handle, List.mem_singleton] at hx
    subst hx
    rfl
  | outgoingSettings | ping =>
    refine ⟨fun x hx => ?_, (Keeps.refl l).handleCounts _⟩
    simp only [handle, List.mem_singleton] at hx
    subst hx
    rfl
  | outFlowControlSizeRequest => exact ⟨hnil, (Keeps.refl l).handleCounts _⟩

end Handlers

/-! ## The ledger over a run -/

section Run

variable {sd : side} {es : List LoopyEvent} {out : List Frame} {l : loopyWriter}

/-- What was written for each established stream, less what the peer granted it, is at most its
count. -/
def FlowLedger (es : List LoopyEvent) (out : List Frame) (l : loopyWriter) : Prop :=
  ∀ s str, l.estdStreams.lookup s = some str →
    ((written out s).length : Int) - granted es s ≤ str.bytesOutStanding

theorem flowLedger_newLoopyWriter (sd : side) : FlowLedger [] [] (newLoopyWriter sd) :=
  fun _ _ h => by cases h

/-- An event loopy does not act on only adds to what was granted. -/
theorem FlowLedger.stopped (h : FlowLedger es out l) (e : LoopyEvent) :
    FlowLedger (es ++ [e]) out l := by
  intro s str hs
  have := h s str hs
  rw [granted_append]
  push_cast
  omega

/-- A handler keeps the ledger: a stream it opens has had nothing written, since the transport
opens each stream once. -/
theorem FlowLedger.handle (h : FlowLedger es out l) (hord : OrderInv sd es out l)
    {e : LoopyEvent} (hfol : Follows sd es e) {fs : List Frame} {l' : loopyWriter}
    (hfs : NoData fs) (hc : HandleCounts sd e l l') : FlowLedger (es ++ [e]) (out ++ fs) l' := by
  intro s str' hs
  rw [written_append, hfs.written_eq, List.append_nil, granted_append]
  push_cast
  rcases hc s str' hs with ⟨str, hstr, hle⟩ | ⟨hzero, hopen⟩
  · have := h s str hstr
    omega
  · have hfresh := ((hord.2 s).fresh (hfol.fresh hopen)).2.1
    rw [written_eq_nil hfresh, hzero, List.length_nil]
    omega

/-- A turn of `processData` keeps the ledger: the payload it writes is added to its stream's
count. -/
theorem FlowLedger.flowStep (h : FlowLedger es out l) {fs : List Frame} {l' : loopyWriter}
    {id : Nat} {p : Bytes} (hf : FlowStep l fs l' id p) :
    FlowLedger (es ++ [.processData]) (out ++ fs) l' := by
  intro s str' hs
  obtain ⟨str, hstr, hbos⟩ := hf.counts s str' hs
  have := h s str hstr
  rw [written_append, hf.written_eq, granted_append, List.length_append]
  simp only [LoopyEvent.grant, Nat.add_zero]
  split_ifs at hbos ⊢
  · push_cast
    omega
  · simp only [List.length_nil, Nat.add_zero]
    omega

/-- A turn of loopy on `processData`, running or stopped. -/
theorem step_processData_flowStep (hi : LoopyInv l) :
    ∃ id p, FlowStep l (l.step .processData).1 (l.step .processData).2 id p := by
  unfold step
  split
  · exact ⟨0, [], .quiet (fun _ h => by cases h) rfl rfl rfl⟩
  · exact processData_flowStep hi

/-- Every step keeps the ledger. -/
theorem FlowLedger.step (hi : LoopyInv l) (hord : OrderInv sd es out l) (h : FlowLedger es out l)
    {e : LoopyEvent} (hfol : Follows sd es e) :
    FlowLedger (es ++ [e]) (out ++ (l.step e).1) (l.step e).2 := by
  cases e with
  | processData =>
    obtain ⟨id, p, hf⟩ := step_processData_flowStep hi
    exact h.flowStep hf
  | handle i =>
    by_cases herr : l.err.isSome
    · -- loopy has stopped
      have hstep : l.step (.handle i) = ([], l) := by simp [loopyWriter.step, herr]
      rw [hstep, List.append_nil]
      exact h.stopped _
    · have hstep : l.step (.handle i) = l.handle i := by simp [loopyWriter.step, herr]
      obtain ⟨hfs, hc⟩ := handle_flow hi.keys_nodup hord.1 i
      rw [hstep]
      exact h.handle hord hfol hfs hc

/-- The ledger of every stream holds after every run in the transport's order. -/
theorem flowLedger_run (sd : side) {es : List LoopyEvent}
    (hes : Machine.Admits loopyWriter.Allowed loopyWriter.step (newLoopyWriter sd) es)
    (hord : TransportOrder sd es) :
    OrderInv sd es (Machine.run loopyWriter.step (newLoopyWriter sd) es).1
        (Machine.run loopyWriter.step (newLoopyWriter sd) es).2 ∧
      FlowLedger es (Machine.run loopyWriter.step (newLoopyWriter sd) es).1
        (Machine.run loopyWriter.step (newLoopyWriter sd) es).2 := by
  have hrun := loopyInv_invariant.history
    (P := fun es out l => OrderInv sd es out l ∧ FlowLedger es out l) (H := TransportOrder sd)
    (fun _ _ h => h.of_append)
    (fun _ _ _ _ hi _ hh hp => ⟨hp.1.step hi hh.last, hp.2.step hi hp.1 hh.last⟩)
    (loopyInv_newLoopyWriter sd) hes (by simpa using hord)
    ⟨orderInv_newLoopyWriter sd, flowLedger_newLoopyWriter sd⟩
  simpa using hrun

/-- **Loopy keeps to the peer's flow control.**  After any run in which the transport hands
loopy its streams in order, the next turn of `processData` writes DATA frames within the frame
size and within the connection's quota, and one with a payload within its stream's quota;
`sendQuota` falls by exactly the bytes written, so it never wraps around; and what has been
written on the stream written to is within the initial window in force plus what the peer
granted that stream. -/
theorem loopy_flow_control (sd : side) (pre : List LoopyEvent)
    (hes : Machine.Admits loopyWriter.Allowed loopyWriter.step (newLoopyWriter sd) pre)
    (hord : TransportOrder sd pre) :
    let r := Machine.run loopyWriter.step (newLoopyWriter sd) pre
    let w := r.2.step .processData
    (∀ sid f payload, Frame.data sid f payload ∈ w.1 →
      payload.length ≤ http2MaxFrameLen ∧ payload.length ≤ r.2.sendQuota.toNat ∧
      (payload ≠ [] → ∃ str, r.2.estdStreams.lookup sid = some str ∧
        str.bytesOutStanding + payload.length ≤ r.2.oiws.toNat)) ∧
    w.2.sendQuota.toNat + dataBytes w.1 = r.2.sendQuota.toNat ∧
    ∀ s, written w.1 s ≠ [] →
      ((written (r.1 ++ w.1) s).length : Int) ≤ r.2.oiws.toNat + granted pre s := by
  intro r w
  have hi : LoopyInv r.2 := loopyInv_invariant.run (loopyInv_newLoopyWriter sd) hes
  have hledger : FlowLedger pre r.1 r.2 := (flowLedger_run sd hes hord).2
  obtain ⟨id, p, hf⟩ := step_processData_flowStep hi
  refine ⟨fun sid f payload hx => ?_, ?_, fun s hs => ?_⟩
  · obtain ⟨rfl, rfl⟩ := hf.mem_data hx
    have hsq := hf.sendQuota
    exact ⟨hf.frameLen, by omega, hf.streamQuota⟩
  · rw [hf.dataBytes_eq]
    exact hf.sendQuota
  · rw [hf.written_eq] at hs
    rw [written_append, hf.written_eq, List.length_append]
    split_ifs at hs ⊢ with hsid
    · -- the stream written to: its count and the payload fit the window
      subst hsid
      obtain ⟨str, hstr, hle⟩ := hf.streamQuota hs
      have := hledger s str hstr
      omega
    · exact absurd rfl hs

/-- A client stream with three bytes queued: the turn that writes them takes them from the
connection's quota. -/
theorem loopy_flow_control_client :
    let pre : List LoopyEvent :=
      [.handle (.headerFrame 1 false .ok false), .handle (.dataFrame 1 true [] [1, 2, 3])]
    let r := Machine.run loopyWriter.step (newLoopyWriter .clientSide) pre
    (r.2.step .processData).2.sendQuota.toNat + dataBytes (r.2.step .processData).1 =
      r.2.sendQuota.toNat :=
  (loopy_flow_control .clientSide _ (by decide) (by decide)).2.1

/-- A lowered initial window and an empty DATA frame.  A client writes ten bytes on stream `1`,
queues its end of stream, and then the peer lowers the initial window to `5`: the next turn
writes the empty DATA frame with END_STREAM although the stream's quota
`oiws - bytesOutStanding` is `-5`, and what was written on the stream exceeds the initial window
in force plus what the peer granted it. -/
theorem empty_frame_over_stream_quota :
    let pre : List LoopyEvent :=
      [.handle (.headerFrame 1 false .ok false),
        .handle (.dataFrame 1 false [] (List.replicate 10 0)), .processData,
        .handle (.dataFrame 1 true [] []), .handle (.incomingSettings [.initialWindowSize 5 [1]])]
    let r := Machine.run loopyWriter.step (newLoopyWriter .clientSide) pre
    Machine.Admits loopyWriter.Allowed loopyWriter.step (newLoopyWriter .clientSide) pre ∧
      TransportOrder .clientSide pre ∧
      (r.2.step .processData).1 = [.data 1 true []] ∧
      r.2.oiws.toNat = 5 ∧ (r.2.estdStreams.lookup 1).map outStream.bytesOutStanding = some 10 ∧
      (written r.1 1).length = 10 ∧ granted pre 1 = 0 := by
  decide

end Run

end Transport
end GrpcGo
