import GrpcGo.Transport.LoopyOrder

/-!
# Loopy writes all of a stream's data once it has the quota

`StreamLedger` says that what loopy writes of a stream is a prefix of what was queued for it.
This module shows that the prefix is all of it once the quota has arrived: from a state where
the connection's quota exceeds the data pending on all streams and each stream's quota exceeds
the data pending on it, enough turns of `processData` write every byte queued for every stream
established there.

The quota has to exceed what is pending, not only cover it: `processData` parks a stream whose
quota is used up before looking at its next data frame, and waits for the connection's quota
before any frame, so an empty data frame that carries a client's END_STREAM waits for a window
update when the quota is exactly used up.

The proof is by a measure, the `work` left on the streams (a turn for each data frame and one for
each byte).  Each turn of `processData` on an active stream lowers it and keeps the quota ample
(`processData_drainStep`); when no stream is active, no data is pending (`pending_of_idle`).
A stream is closed during the drain only by writing its trailers, after all its data.
-/

namespace GrpcGo
namespace Transport

open GoStd Drain loopyWriter

/-! ## The work left -/

/-- The bytes of a stream's data still to write. -/
def pendingBytes (itl : List outItem) : Nat :=
  (flat (itemsData itl)).length

/-- What is left to do on a stream: a turn for each data frame still to write and one for each
of its bytes. -/
def work (itl : List outItem) : Nat :=
  (itemsData itl).length + pendingBytes itl

@[simp] theorem pendingBytes_nil : pendingBytes [] = 0 := rfl

@[simp] theorem work_nil : work [] = 0 := rfl

@[simp] theorem pendingBytes_cons_data (streamID : Nat) (endStream : Bool) (h d : Bytes)
    (itl : List outItem) :
    pendingBytes (.dataFrame streamID endStream h d :: itl) =
      h.length + d.length + pendingBytes itl := by
  simp [pendingBytes, itemsData, Nat.add_assoc]

@[simp] theorem work_cons_data (streamID : Nat) (endStream : Bool) (h d : Bytes)
    (itl : List outItem) :
    work (.dataFrame streamID endStream h d :: itl) = work itl + 1 + h.length + d.length := by
  simp only [work, itemsData, List.length_cons, pendingBytes_cons_data]
  omega

@[simp] theorem pendingBytes_cons_header (streamID : Nat) (endStream rst : Bool)
    (itl : List outItem) :
    pendingBytes (.headerFrame streamID endStream rst :: itl) = pendingBytes itl := rfl

@[simp] theorem work_cons_header (streamID : Nat) (endStream rst : Bool) (itl : List outItem) :
    work (.headerFrame streamID endStream rst :: itl) = work itl := rfl

/-- How much of a per-stream quantity a stream, if established, has. -/
def weigh (g : List outItem → Nat) (o : Option outStream) : Nat :=
  (o.map fun str => g str.itl).getD 0

@[simp] theorem weigh_none (g : List outItem → Nat) : weigh g none = 0 := rfl

@[simp] theorem weigh_some (g : List outItem → Nat) (str : outStream) :
    weigh g (some str) = g str.itl := rfl

/-- A per-stream quantity summed over the streams `S`. -/
def loopyWriter.sumOver (l : loopyWriter) (S : Finset Nat) (g : List outItem → Nat) : Nat :=
  ∑ k ∈ S, weigh g (l.estdStreams.lookup k)

/-- The streams established in loopy. -/
def loopyWriter.streamIds (l : loopyWriter) : Finset Nat :=
  (l.estdStreams.map Prod.fst).toFinset

/-- A step that changes only the stream `id` changes a sum over the streams only by what it
changes of `id`. -/
theorem sumOver_update {l l' : loopyWriter} {S : Finset Nat} {id : Nat} (hid : id ∈ S)
    (hother : ∀ k, k ≠ id → l'.estdStreams.lookup k = l.estdStreams.lookup k)
    (g : List outItem → Nat) :
    l'.sumOver S g + weigh g (l.estdStreams.lookup id) =
      l.sumOver S g + weigh g (l'.estdStreams.lookup id) := by
  unfold loopyWriter.sumOver
  rw [← Finset.add_sum_erase S _ hid, ← Finset.add_sum_erase S _ hid]
  have hrest : ∑ k ∈ S.erase id, weigh g (l'.estdStreams.lookup k) =
      ∑ k ∈ S.erase id, weigh g (l.estdStreams.lookup k) :=
    Finset.sum_congr rfl fun k hk => by rw [hother k (Finset.ne_of_mem_erase hk)]
  rw [hrest]
  omega

/-! ## Ample quota -/

/-- Loopy is running with the streams `S` at most, and its quota exceeds the data pending: the
connection's quota exceeds the data pending on all streams, and each stream's quota exceeds the
data pending on it. -/
structure Ample (S : Finset Nat) (l : loopyWriter) : Prop where
  running : l.err = none
  within : ∀ k, (l.estdStreams.lookup k).isSome → k ∈ S
  sendQuota : l.sumOver S pendingBytes < l.sendQuota.toNat
  streamQuota : ∀ k str, l.estdStreams.lookup k = some str →
    (pendingBytes str.itl : Int) < l.oiws.toNat - str.bytesOutStanding

/-- One turn of `processData` that makes progress: less work is left, the quota is still ample
unless no stream is left, and a stream is closed only by writing its trailers. -/
structure DrainStep (S : Finset Nat) (l : loopyWriter) (fs : List Frame) (l' : loopyWriter) :
    Prop where
  less : l'.sumOver S work < l.sumOver S work
  ample : Ample S l' ∨ l'.estdStreams = []
  trailer : ∀ k, (l.estdStreams.lookup k).isSome → l'.estdStreams.lookup k = none →
    Frame.headers k true ∈ fs

/-- A turn that writes `n` bytes of the stream `id` from the connection's quota and leaves every
other stream as it was makes progress, if it leaves less work on `id` or closes it with its
trailers. -/
theorem DrainStep.of_update {S : Finset Nat} {l l' : loopyWriter} {fs : List Frame} {id : Nat}
    {str : outStream} (hA : Ample S l) (hstr : l.estdStreams.lookup id = some str)
    (hother : ∀ k, k ≠ id → l'.estdStreams.lookup k = l.estdStreams.lookup k)
    (hoiws : l'.oiws = l.oiws) (n : Nat) (hn : n ≤ pendingBytes str.itl)
    (hsend : l'.sendQuota.toNat + n = l.sendQuota.toNat)
    (hnew : ∀ str', l'.estdStreams.lookup id = some str' →
      pendingBytes str'.itl + n = pendingBytes str.itl ∧
        str'.bytesOutStanding = str.bytesOutStanding + n ∧ work str'.itl < work str.itl)
    (hgone : l'.estdStreams.lookup id = none →
      Frame.headers id true ∈ fs ∧ 0 < work str.itl)
    (herr : l'.err = none ∨ l'.estdStreams = []) : DrainStep S l fs l' := by
  have hid : id ∈ S := hA.within id (by rw [hstr]; rfl)
  have hpb := sumOver_update hid hother pendingBytes
  have hwk := sumOver_update hid hother work
  have hsq := hA.sendQuota
  rw [hstr, weigh_some] at hpb hwk
  -- the other streams keep their quota
  have hquota_other : ∀ k str'', k ≠ id → l'.estdStreams.lookup k = some str'' →
      (pendingBytes str''.itl : Int) < l'.oiws.toNat - str''.bytesOutStanding := by
    intro k str'' hk hs
    rw [hother k hk] at hs
    rw [hoiws]
    exact hA.streamQuota k str'' hs
  cases hl' : l'.estdStreams.lookup id with
  | none =>
    rw [hl', weigh_none] at hpb hwk
    obtain ⟨hframe, hpos⟩ := hgone hl'
    refine ⟨by omega, herr.imp (fun hrun => ⟨hrun, fun k hk => ?_, by omega, fun k str'' hs => ?_⟩)
      (fun h => h), fun k hk hnone => ?_⟩
    · have hkid : k ≠ id := by rintro rfl; rw [hl'] at hk; cases hk
      rw [hother k hkid] at hk
      exact hA.within k hk
    · have hkid : k ≠ id := by rintro rfl; rw [hl'] at hs; cases hs
      exact hquota_other k str'' hkid hs
    · by_cases hkid : k = id
      · rw [hkid]
        exact hframe
      · rw [hother k hkid] at hnone
        rw [hnone] at hk
        cases hk
  | some str' =>
    rw [hl', weigh_some] at hpb hwk
    obtain ⟨hpb', hbos', hwork'⟩ := hnew str' hl'
    refine ⟨by omega, herr.imp (fun hrun => ⟨hrun, fun k hk => ?_, by omega, fun k str'' hs => ?_⟩)
      (fun h => h), fun k _ hnone => ?_⟩
    · by_cases hkid : k = id
      · rw [hkid]
        exact hid
      · rw [hother k hkid] at hk
        exact hA.within k hk
    · by_cases hkid : k = id
      · -- the stream written from spent on its quota what it wrote of its data
        subst hkid
        rw [hl'] at hs
        cases hs
        have := hA.streamQuota k str hstr
        rw [hoiws, hbos']
        omega
      · exact hquota_other k str'' hkid hs
    · have hkid : k ≠ id := by rintro rfl; rw [hl'] at hnone; cases hnone
      rw [hother k hkid] at hnone
      rw [hnone] at ‹(l.estdStreams.lookup k).isSome›
      cases ‹(Option.none : Option outStream).isSome = true›

/-! ## One turn of `processData` -/

namespace loopyWriter

variable (l : loopyWriter) (id k : Nat) (rst : Bool)

theorem lookup_deleteStream (hkeys : (l.estdStreams.map Prod.fst).Nodup) :
    (l.deleteStream id).estdStreams.lookup k =
      if k = id then none else l.estdStreams.lookup k := by
  unfold deleteStream
  split
  · exact Map.lookup_erase _ _ _ hkeys
  · rename_i hnone
    split_ifs with hk
    · rw [hk, hnone]
    · rfl

theorem lookup_cleanupStreamHandler (hkeys : (l.estdStreams.map Prod.fst).Nodup) :
    (l.cleanupStreamHandler id rst).2.estdStreams.lookup k =
      if k = id then none else l.estdStreams.lookup k := by
  rw [← lookup_deleteStream l id k hkeys]
  simp only [cleanupStreamHandler]
  split_ifs <;> rfl

/-- The cleanup changes only the streams, and stops loopy only when none is left. -/
theorem cleanupStreamHandler_snd :
    (l.cleanupStreamHandler id rst).2.oiws = l.oiws ∧
      (l.cleanupStreamHandler id rst).2.sendQuota = l.sendQuota ∧
      ((l.cleanupStreamHandler id rst).2.err = l.err ∨
        (l.cleanupStreamHandler id rst).2.estdStreams = []) := by
  have hdel : (l.deleteStream id).oiws = l.oiws ∧ (l.deleteStream id).sendQuota = l.sendQuota ∧
      (l.deleteStream id).err = l.err := by
    unfold deleteStream
    split <;> exact ⟨rfl, rfl, rfl⟩
  simp only [cleanupStreamHandler]
  -- the frames written do not matter
  split_ifs with hstop <;>
    first
    | exact ⟨hdel.1, hdel.2.1, .inr hstop.2.2⟩
    | exact ⟨hdel.1, hdel.2.1, .inl hdel.2.2⟩

end loopyWriter

/-- The size of the DATA frame `processData` writes: at least a byte, within the connection's
quota and within the data frame, when the stream has quota and the data frame is not empty. -/
theorem write_size (l : loopyWriter) (str : outStream) (h d : Bytes)
    (hstr : 0 < (l.oiws.toNat : Int) - str.bytesOutStanding) (hsq : 0 < l.sendQuota.toNat)
    (hne : ¬(h.length = 0 ∧ d.length = 0)) :
    let strQuota := (l.oiws.toNat : Int) - str.bytesOutStanding
    let maxSize := min http2MaxFrameLen strQuota.toNat
    let maxSize := if maxSize > l.sendQuota.toNat then l.sendQuota.toNat else maxSize
    let hSize := min maxSize h.length
    let dSize := min (maxSize - hSize) d.length
    1 ≤ hSize + dSize ∧ hSize + dSize ≤ l.sendQuota.toNat ∧ hSize + dSize ≤ h.length + d.length := by
  dsimp only
  -- the frame is cut to the connection's quota, or to the stream's and the frame size
  split_ifs <;> simp only [http2MaxFrameLen] at * <;> omega

/-- The data left of a data frame after `processData` wrote `a` bytes of its `h` and `b` of its
`d`. -/
theorem pendingBytes_slice (streamID : Nat) (endStream : Bool) (h d : Bytes) (a b : Nat)
    (itl : List outItem) :
    pendingBytes (if (h.drop a).length = 0 ∧ (d.drop b).length = 0 then itl
        else .dataFrame streamID endStream (h.drop a) (d.drop b) :: itl) =
      pendingBytes itl + (h.length - a) + (d.length - b) ∧
    work (if (h.drop a).length = 0 ∧ (d.drop b).length = 0 then itl
        else .dataFrame streamID endStream (h.drop a) (d.drop b) :: itl) ≤
      work itl + 1 + (h.length - a) + (d.length - b) := by
  split_ifs with hleft
  · simp only [List.length_drop] at hleft
    omega
  · simp only [pendingBytes_cons_data, work_cons_data, List.length_drop]
    omega

/-- What is left of a stream's items after a data frame was cut keeps the shape of the items. -/
theorem remaining_items {itl : List outItem} {sid : Nat} (hfirst : DataFirst itl)
    (hitems : ∀ item ∈ itl, item.streamID = sid) (p : Prop) [Decidable p] (f : Bool)
    (h d : Bytes) :
    DataFirst (if p then itl else .dataFrame sid f h d :: itl) ∧
      ∀ item ∈ (if p then itl else .dataFrame sid f h d :: itl), item.streamID = sid := by
  split
  · exact ⟨hfirst, hitems⟩
  · refine ⟨hfirst, fun item hm => ?_⟩
    rcases List.mem_cons.mp hm with rfl | hm
    · rfl
    · exact hitems item hm

/-- What `afterWrite` leaves of the stream written from makes progress, whether the stream keeps
its items or its trailers come next and close it. -/
theorem DrainStep.afterWrite {S : Finset Nat} {l l₂ : loopyWriter} {id : Nat}
    {str str₂ : outStream} {fs : List Frame} (hA : Ample S l)
    (hstr : l.estdStreams.lookup id = some str) (hkeys : (l.estdStreams.map Prod.fst).Nodup)
    (hestd : l₂.estdStreams = l.estdStreams) (hoiws : l₂.oiws = l.oiws) (herr : l₂.err = none)
    (n : Nat) (hn : n ≤ pendingBytes str.itl) (hsend : l₂.sendQuota.toNat + n = l.sendQuota.toNat)
    (hpb : pendingBytes str₂.itl + n = pendingBytes str.itl)
    (hbos : str₂.bytesOutStanding = str.bytesOutStanding + n) (hwork : work str₂.itl < work str.itl)
    (hfirst : DataFirst str₂.itl) (hitems : ∀ item ∈ str₂.itl, item.streamID = id) :
    DrainStep S l (l₂.afterWrite id str₂ fs).2.1 (l₂.afterWrite id str₂ fs).2.2 := by
  have hkeys₂ : (l₂.estdStreams.map Prod.fst).Nodup := by rw [hestd]; exact hkeys
  -- the stream replaced by one with the items `str₂.itl` and another state
  have hkeep : ∀ (str' : outStream), str'.itl = str₂.itl →
      str'.bytesOutStanding = str₂.bytesOutStanding → ∀ (l' : loopyWriter),
      l'.estdStreams = (l₂.setStream id str').estdStreams → l'.oiws = l₂.oiws →
      l'.sendQuota = l₂.sendQuota → l'.err = l₂.err → ∀ fs', DrainStep S l fs' l' := by
    intro str' hitl hbos' l' hest hoi hsq her fs'
    refine DrainStep.of_update hA hstr (fun k hk => ?_) (by rw [hoi, hoiws]) n hn
      (by rw [hsq]; exact hsend) (fun s' hs => ?_) (fun hs => ?_) (.inl (by rw [her, herr]))
    · rw [hest, lookup_setStream, if_neg hk, hestd]
    · rw [hest, lookup_setStream, if_pos rfl] at hs
      cases hs
      exact ⟨by rw [hitl, hpb], by rw [hbos', hbos], by rw [hitl]; exact hwork⟩
    · rw [hest, lookup_setStream, if_pos rfl] at hs
      cases hs
  unfold loopyWriter.afterWrite
  split
  · exact hkeep { str₂ with state := .empty } rfl rfl (l₂.setStream id { str₂ with state := .empty })
      rfl rfl rfl rfl _
  · -- the trailers come next: they are written and the stream is cleaned up
    rename_i tID tEnd rst rest hitl
    have htid : tID = id := hitems (.headerFrame tID tEnd rst) (by rw [hitl]; exact List.mem_cons_self)
    subst htid
    have hend : tEnd = true := by
      have := hfirst
      rw [hitl] at this
      exact this.1
    subst hend
    have hkeys₃ := keys_nodup_setStream l₂ tID str₂ hkeys₂
    obtain ⟨hoi, hsq, her⟩ := cleanupStreamHandler_snd (l₂.setStream tID str₂) tID rst
    dsimp only
    refine DrainStep.of_update hA hstr (fun k hk => ?_) (by rw [writeTrailer, hoi]; exact hoiws) n
      hn (by rw [writeTrailer, hsq]; exact hsend) (fun s' hs => ?_) (fun _ => ⟨?_, by omega⟩) ?_
    · rw [writeTrailer, lookup_cleanupStreamHandler _ _ _ _ hkeys₃, if_neg hk, lookup_setStream,
        if_neg hk, hestd]
    · rw [writeTrailer, lookup_cleanupStreamHandler _ _ _ _ hkeys₃, if_pos rfl] at hs
      cases hs
    · simp [writeTrailer, writeHeader]
    · rw [writeTrailer, ← herr]
      exact her
  · split_ifs
    · exact hkeep { str₂ with state := .waitingOnStreamQuota } rfl rfl
        (l₂.setStream id { str₂ with state := .waitingOnStreamQuota }) rfl rfl rfl rfl _
    · exact hkeep str₂ rfl rfl ((l₂.setStream id str₂).enqueue id) rfl rfl rfl rfl _

/-- The connection's quota less what a frame of `n` bytes spends of it. -/
theorem toNat_sub_ofNat (q : UInt32) {n : Nat} (h : n ≤ q.toNat) :
    (q - UInt32.ofNat n).toNat + n = q.toNat := by
  have hn : (UInt32.ofNat n).toNat = n := by
    rw [UInt32.toNat_ofNat']
    have := q.toNat_lt
    omega
  rw [UInt32.toNat_sub_of_le]
  · omega
  · rw [UInt32.le_iff_toNat_le, hn]
    exact h

/-- Under ample quota, a turn of `processData` with a stream active makes progress: it writes at
least a byte of the first active stream, or the empty data frame at its head. -/
theorem processData_drainStep {S : Finset Nat} {l : loopyWriter} (hi : LoopyInv l)
    (hA : Ample S l) (hfirst : ∀ k str, l.estdStreams.lookup k = some str → DataFirst str.itl)
    (hact : l.activeStreams ≠ []) :
    DrainStep S l l.processData.2.1 l.processData.2.2 := by
  obtain ⟨id, rest, hact'⟩ := List.exists_cons_of_ne_nil hact
  have hlinked : id ∈ l.activeStreams := by rw [hact']; exact List.mem_cons_self
  obtain ⟨str, hstr⟩ := hi.active_estd id hlinked
  have hok := hi.streams id str hstr
  have hactive := hok.active_of_linked hlinked
  have hquota := hA.streamQuota id str hstr
  have hsq : 0 < l.sendQuota.toNat := lt_of_le_of_lt (Nat.zero_le _) hA.sendQuota
  have hsq' : l.sendQuota ≠ 0 := fun h0 => by rw [h0] at hsq; exact absurd hsq (lt_irrefl 0)
  have hkeys := hi.keys_nodup
  unfold loopyWriter.processData
  rw [if_neg hsq']
  split
  · rename_i hnil
    rw [hact'] at hnil
    cases hnil
  rename_i id' rest' hact''
  rw [hact'] at hact''
  obtain ⟨rfl, rfl⟩ := List.cons.inj hact''
  dsimp only
  split
  · rename_i hnone
    rw [hnone] at hstr
    cases hstr
  rename_i str' hstr'
  rw [hstr'] at hstr
  cases hstr
  split
  swap
  · -- the head of an active stream is a data frame
    exfalso
    rename_i hnot
    have hhead := hok.active_head hactive
    cases hitl : str.itl with
    | nil => rw [hitl] at hhead; cases hhead
    | cons item rest =>
      cases item with
      | dataFrame sid f hh dd => exact hnot sid f hh dd rest hitl
      | headerFrame => rw [hitl] at hhead; cases hhead
  rename_i sid f hh dd itl hitl
  have hsid : sid = id :=
    hok.items_id (.dataFrame sid f hh dd) (by rw [hitl]; exact List.mem_cons_self)
  subst hsid
  have hitems : ∀ item ∈ itl, item.streamID = sid :=
    fun item hm => hok.items_id item (by rw [hitl]; exact List.mem_cons_of_mem _ hm)
  have hfirst₀ : DataFirst itl := by
    have := hfirst sid str hstr'
    rw [hitl] at this
    exact this
  have hwork₀ : work str.itl = work itl + 1 + hh.length + dd.length := by
    rw [hitl, work_cons_data]
  have hpb₀ : pendingBytes str.itl = hh.length + dd.length + pendingBytes itl := by
    rw [hitl, pendingBytes_cons_data]
  by_cases hempty : hh.length = 0 ∧ dd.length = 0
  · -- an empty data frame: written as is, and the stream's next item decides the rest
    rw [if_pos hempty]
    split
    · refine DrainStep.of_update hA hstr' (fun k hk => by rw [lookup_setStream, if_neg hk]) rfl 0
        (Nat.zero_le _) rfl (fun s' hs => ?_) (fun hs => ?_) (.inl hA.running)
      · rw [lookup_setStream, if_pos rfl] at hs
        cases hs
        refine ⟨by rw [hpb₀, pendingBytes_nil]; omega, by simp, ?_⟩
        rw [hwork₀, work_nil]
        omega
      · rw [lookup_setStream, if_pos rfl] at hs
        cases hs
    · rename_i tID tEnd rst tail
      have htid : tID = sid := hitems (.headerFrame tID tEnd rst) List.mem_cons_self
      subst htid
      obtain ⟨hend, -⟩ := hfirst₀
      subst hend
      have hkeys₃ := keys_nodup_setStream { l with activeStreams := rest } tID
        { str with itl := .headerFrame tID true rst :: tail } hkeys
      obtain ⟨hoi, hsqc, -⟩ := cleanupStreamHandler_snd ({ l with activeStreams := rest }.setStream
        tID { str with itl := .headerFrame tID true rst :: tail }) tID rst
      dsimp only
      refine DrainStep.of_update hA hstr' (fun k hk => ?_) hoi 0 (Nat.zero_le _)
        (by rw [Nat.add_zero]; exact congrArg UInt32.toNat hsqc) (fun s' hs => ?_)
        (fun _ => ⟨by simp [writeTrailer, writeHeader], by omega⟩) (.inl hA.running)
      · dsimp only
        rw [writeTrailer, lookup_cleanupStreamHandler _ _ _ _ hkeys₃, if_neg hk, lookup_setStream,
          if_neg hk]
      · dsimp only at hs
        rw [writeTrailer, lookup_cleanupStreamHandler _ _ _ _ hkeys₃, if_pos rfl] at hs
        cases hs
    · refine DrainStep.of_update hA hstr'
        (fun k hk => by rw [enqueue_estdStreams, lookup_setStream, if_neg hk]) rfl 0
        (Nat.zero_le _) rfl (fun s' hs => ?_) (fun hs => ?_) (.inl hA.running)
      · rw [enqueue_estdStreams, lookup_setStream, if_pos rfl] at hs
        cases hs
        refine ⟨by simp only [pendingBytes_cons_data] at hpb₀ ⊢; omega, by simp, ?_⟩
        simp only [work_cons_data] at hwork₀ ⊢
        omega
      · rw [enqueue_estdStreams, lookup_setStream, if_pos rfl] at hs
        cases hs
  · -- a frame of at least a byte, within both quotas
    rw [if_neg hempty]
    have hpb_nonneg : (0 : Int) ≤ pendingBytes str.itl := Int.natCast_nonneg _
    have hpos : ¬ ((l.oiws.toNat : Int) - str.bytesOutStanding ≤ 0) := by omega
    rw [if_neg hpos]
    have hsz := write_size l str hh dd (by omega) hsq hempty
    dsimp only at hsz
    obtain ⟨hsz1, hsz2, hsz3⟩ := hsz
    have hrem := remaining_items hfirst₀ hitems
    refine DrainStep.afterWrite hA hstr' hkeys rfl rfl hA.running _ (by omega)
      (toNat_sub_ofNat _ hsz2) ?_ rfl ?_ (hrem _ f _ _).1 (hrem _ f _ _).2
    · dsimp only
      rw [(pendingBytes_slice sid f hh dd _ _ itl).1, hpb₀]
      omega
    · dsimp only
      refine lt_of_le_of_lt (pendingBytes_slice sid f hh dd _ _ itl).2 ?_
      rw [hwork₀]
      omega

/-! ## Draining -/

/-- With no stream active and ample quota, no stream has items left: a stream off the active
list is empty, since one parked for quota would have none. -/
theorem itl_nil_of_idle {S : Finset Nat} {l : loopyWriter} (hi : LoopyInv l) (hA : Ample S l)
    (hidle : l.activeStreams = []) {k : Nat} {str : outStream}
    (hs : l.estdStreams.lookup k = some str) : str.itl = [] := by
  have hok := hi.streams k str hs
  cases hstate : str.state with
  | active =>
    have hlinked := hok.linked_of_active hstate
    rw [hidle] at hlinked
    exact absurd hlinked List.not_mem_nil
  | empty => exact hok.empty_itl hstate
  | waitingOnStreamQuota =>
    -- parked for quota, yet its quota exceeds what is pending on it
    have hpark := hi.parked k str hs hstate
    have hquota := hA.streamQuota k str hs
    have hnonneg : (0 : Int) ≤ pendingBytes str.itl := Int.natCast_nonneg _
    omega

/-- `processData` does nothing once loopy has stopped or while no stream is active. -/
theorem step_processData_of_idle {l : loopyWriter}
    (h : l.activeStreams = [] ∨ l.err.isSome = true) : l.step .processData = ([], l) := by
  unfold loopyWriter.step
  split
  · rfl
  · rename_i herr
    show l.processData.2 = ([], l)
    unfold loopyWriter.processData
    rw [h.resolve_right herr]
    split <;> rfl

/-- A turn of `processData` keeps the ledgers: it queues nothing, and starts or ends no stream. -/
theorem OrderInv.processData {sd : side} {es : List LoopyEvent} {out : List Frame}
    {l : loopyWriter} (hi : LoopyInv l) (h : OrderInv sd es out l) :
    OrderInv sd es (out ++ (l.step .processData).1) (l.step .processData).2 := by
  have hstep := h.step hi (e := .processData) ⟨trivial, trivial⟩
  have hq : ∀ s, queued (es ++ [.processData]) s = queued es s := fun s => by
    simp [LoopyEvent.dataFor]
  have ho : opened sd (es ++ [.processData]) = opened sd es := by
    simp [opened, LoopyEvent.opens]
  have hc : ∀ s, Closed (es ++ [.processData]) s ↔ Closed es s := fun s => by
    simp [closed_append, LoopyEvent.closes]
  simpa only [OrderInv, hq, ho, hc] using hstep

/-- The items of every established stream have their trailers last. -/
theorem OrderInv.dataFirst {sd : side} {es : List LoopyEvent} {out : List Frame}
    {l : loopyWriter} (h : OrderInv sd es out l) (hrun : l.err = none) :
    ∀ k str, l.estdStreams.lookup k = some str → DataFirst str.itl := by
  intro k str hs
  have hk := h.2 k
  rw [if_pos hrun, itlOf_of_lookup hs] at hk
  exact (hk.drained str.itl rfl).2.1

/-- What holds along the drain from `l₀`: loopy's invariant and its ledgers, ample quota unless
no stream is left, and each stream of `l₀` still established or closed by its trailers. -/
structure Draining (sd : side) (es : List LoopyEvent) (S : Finset Nat) (l₀ : loopyWriter)
    (out : List Frame) (l : loopyWriter) : Prop where
  inv : LoopyInv l
  order : OrderInv sd es out l
  ample : Ample S l ∨ l.estdStreams = []
  kept : ∀ k, (l₀.estdStreams.lookup k).isSome →
    (l.estdStreams.lookup k).isSome ∨ Frame.headers k true ∈ out

/-- A turn of `processData` while a stream is active keeps the drain going and lowers the work
left. -/
theorem Draining.step {sd : side} {es : List LoopyEvent} {S : Finset Nat} {l₀ l : loopyWriter}
    {out : List Frame} (h : Draining sd es S l₀ out l)
    (hbusy : ¬ (l.activeStreams = [] ∨ l.err.isSome = true)) :
    Draining sd es S l₀ (out ++ (l.step .processData).1) (l.step .processData).2 ∧
      (l.step .processData).2.sumOver S work < l.sumOver S work := by
  obtain ⟨hact, herr⟩ := not_or.mp hbusy
  have hrun : l.err = none := Option.not_isSome_iff_eq_none.mp herr
  have hA : Ample S l := h.ample.resolve_right fun hnil => by
    -- an active stream is established
    obtain ⟨id, rest, hcons⟩ := List.exists_cons_of_ne_nil hact
    obtain ⟨str, hs⟩ := h.inv.active_estd id (by rw [hcons]; exact List.mem_cons_self)
    rw [hnil] at hs
    cases hs
  have hd := processData_drainStep h.inv hA (h.order.dataFirst hrun) hact
  have hinv := loopyInv_invariant l .processData h.inv trivial
  have horder := h.order.processData h.inv
  have hstep : l.step .processData = l.processData.2 := by
    unfold loopyWriter.step
    rw [if_neg herr]
  rw [hstep] at hinv horder ⊢
  refine ⟨⟨hinv, horder, hd.ample, fun k hk => ?_⟩, hd.less⟩
  rcases h.kept k hk with hsome | hmem
  · by_cases hsome' : (l.processData.2.2.estdStreams.lookup k).isSome
    · exact .inl hsome'
    · exact .inr (List.mem_append_right _
        (hd.trailer k hsome (Option.not_isSome_iff_eq_none.mp hsome')))
  · exact .inr (List.mem_append_left _ hmem)

/-- Enough turns of `processData` from a state with ample quota write every byte queued for each
stream established there. -/
theorem drain_written {sd : side} {es : List LoopyEvent} {S : Finset Nat} {l : loopyWriter}
    {out : List Frame} (hi : LoopyInv l) (ho : OrderInv sd es out l) (hA : Ample S l) (n : Nat)
    (hn : l.sumOver S work ≤ n) {k : Nat} (hk : (l.estdStreams.lookup k).isSome) :
    written (out ++ (Machine.run loopyWriter.step l (List.replicate n .processData)).1) k =
      flat (queued es k) := by
  -- run to the state where no stream is active, by the measure `work`
  obtain ⟨hdr, hq⟩ := Machine.converges (P := Draining sd es S l)
    (Q := fun l => l.activeStreams = [] ∨ l.err.isSome = true) (fun l => l.sumOver S work)
    LoopyEvent.processData (fun _ _ h hbusy => h.step hbusy) (fun _ _ _ hq => step_processData_of_idle hq)
    n (⟨hi, ho, .inl hA, fun _ hk => .inl hk⟩ : Draining sd es S l out l) hn
  have hledger := hdr.order.2 k
  rcases hdr.kept k hk with hsome | hmem
  · -- still established at the end: nothing of it is left to write
    obtain ⟨str, hs⟩ := Option.isSome_iff_exists.mp hsome
    have hA' := hdr.ample.resolve_right fun hnil => by rw [hnil] at hs; cases hs
    have hidle := hq.resolve_right (by rw [hA'.running]; exact Bool.false_ne_true)
    rw [if_pos hA'.running, itlOf_of_lookup hs] at hledger
    exact hledger.written_eq_flat (by rw [itl_nil_of_idle hdr.inv hA' hidle hs]; rfl)
  · exact hledger.written_eq_flat_of_trailer hmem

/-! ## Delivery in order -/

/-- Loopy writes each stream's data in order, without loss or duplication.  After any run of
events in the transport's order, for every stream `s`: the payloads of the DATA frames written
for `s` make a prefix of the data queued for it; a DATA frame with END_STREAM ends where a data
item queued with `endStream` ends; HEADERS with END_STREAM (a server's trailers) come after all
of the data queued for `s`, and none of it follows them; and from there, with ample quota,
enough turns of `processData` write all of it for every stream established. -/
theorem loopy_delivers_in_order (sd : side) (es : List LoopyEvent)
    (hes : Machine.Admits loopyWriter.Allowed loopyWriter.step (newLoopyWriter sd) es)
    (hord : TransportOrder sd es) :
    let out := (Machine.run loopyWriter.step (newLoopyWriter sd) es).1
    let l := (Machine.run loopyWriter.step (newLoopyWriter sd) es).2
    ∀ s, written out s <+: flat (queued es s) ∧
      (∀ pre payload post, out = pre ++ .data s true payload :: post →
        ∃ qpre b qpost, queued es s = qpre ++ (b, true) :: qpost ∧
          flat qpre ++ b = written pre s ++ payload) ∧
      (∀ pre post, out = pre ++ .headers s true :: post →
        written pre s = flat (queued es s) ∧ written post s = []) ∧
      (Ample l.streamIds l → ∀ n, l.sumOver l.streamIds work ≤ n →
        (l.estdStreams.lookup s).isSome →
        written (out ++ (Machine.run loopyWriter.step l (List.replicate n .processData)).1) s =
          flat (queued es s)) := by
  intro out l s
  have horder := orderInv_run sd hes hord
  have hinv := loopyInv_invariant.run (loopyInv_newLoopyWriter sd) hes
  have hledger := horder.2 s
  refine ⟨hledger.ordered, hledger.endStream, fun pre post hout => ?_, fun hA n hn hk => ?_⟩
  · obtain ⟨hpre, hpost, -, -⟩ := hledger.trailer pre post hout
    exact ⟨hpre, hpost⟩
  · exact drain_written hinv horder hA n hn hk

/-- A server stream with data and trailers queued, written out by `processData`: what is written
of it is a prefix of its data. -/
theorem loopy_delivers_in_order_trailer :
    written (Machine.run loopyWriter.step (newLoopyWriter .serverSide)
      [.handle (.registerStream 1), .handle (.dataFrame 1 false [1, 2] [3]),
        .handle (.headerFrame 1 true .ok false), .processData, .processData]).1 1 <+:
      flat (queued [.handle (.registerStream 1), .handle (.dataFrame 1 false [1, 2] [3]),
        .handle (.headerFrame 1 true .ok false), .processData, .processData] 1) :=
  (loopy_delivers_in_order .serverSide _ (by decide) (by decide) 1).1

end Transport
end GrpcGo
