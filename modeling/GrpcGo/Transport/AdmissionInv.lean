import GrpcGo.Lib.ListCount
import GrpcGo.Transport.Admission

/-!
# What stream admission keeps, and what it does not

Over every run of `admission.step` from a new transport (`admissionInv_run`, `ids_handed_out`):
* `streamQuota` is `maxConcurrentStreams` less the streams that hold a unit of quota: those
  created, and those `checkForHeaderListSize` refused after they took one, that `closeStream` has
  not given back;
* `waitingStreams` counts the calls blocked on quota, and with them every call that left the
  `select` after waiting, whose exits do not take it back;
* the stream ids handed out are `streamIdAt 0, streamIdAt 1, …` in order, `1 + 2 * j` modulo
  `2 ^ 32`: nothing stops `nextID` at `2 ^ 31 - 1`.

The first is the accounting the transport relies on; the other two say exactly how far
`waitingStreams` and the stream ids drift from what they stand for
(`newStream_admission_diverges`).
-/

namespace GrpcGo
namespace Transport

namespace newStreamCall

/-- The call's stream holds a unit of quota. -/
def holdsQuota (call : newStreamCall) : Bool :=
  match call.phase with
  | .created _ | .refused _ => true
  | _ => false

/-- The call is blocked on quota: it tried, found none, and is still in its loop. -/
def blocked (call : newStreamCall) : Bool :=
  match call.phase with
  | .looping => !call.firstTry
  | _ => false

/-- The call left after waiting for quota. -/
def leftWaiting (call : newStreamCall) : Bool :=
  match call.phase with
  | .failed => !call.firstTry
  | _ => false

/-- What the call adds to `waitingStreams`. -/
def waits (call : newStreamCall) : Nat :=
  call.blocked.toNat + call.leftWaiting.toNat

end newStreamCall

open newStreamCall

/-- The accounting of admission: `streamQuota` is the limit less the units the streams hold, and
`waitingStreams` counts the calls blocked on quota and those that left after waiting. -/
structure AdmissionInv (a : admission) : Prop where
  quota : a.t.streamQuota = a.t.maxConcurrentStreams.toNat - (a.calls.countP holdsQuota : Int)
  waiting : a.t.waitingStreams =
    UInt32.ofNat (a.calls.countP blocked + a.calls.countP leftWaiting)

theorem admissionInv_newAdmission : AdmissionInv newAdmission :=
  ⟨rfl, rfl⟩

/-- A step that changes one call and the transport keeps the accounting, if the transport's
counters move by what the call's change adds to the counts. -/
theorem AdmissionInv.set {a : admission} (h : AdmissionInv a) {c : Nat} {old : newStreamCall}
    (hc : a.calls[c]? = some old) (new : newStreamCall) (t' : http2Client)
    (hmax : t'.maxConcurrentStreams = a.t.maxConcurrentStreams)
    (hquota : t'.streamQuota + new.holdsQuota.toNat = a.t.streamQuota + old.holdsQuota.toNat)
    (hwait : t'.waitingStreams + UInt32.ofNat old.waits =
      a.t.waitingStreams + UInt32.ofNat new.waits) :
    AdmissionInv ⟨t', a.calls.set c new⟩ := by
  have hq := List.countP_set_add (p := holdsQuota) hc new
  have hb := List.countP_set_add (p := blocked) hc new
  have hl := List.countP_set_add (p := leftWaiting) hc new
  constructor
  · dsimp only
    rw [hmax]
    have := h.quota
    omega
  · dsimp only
    have hsum : (a.calls.set c new).countP blocked + (a.calls.set c new).countP leftWaiting +
        old.waits = a.calls.countP blocked + a.calls.countP leftWaiting + new.waits := by
      unfold waits
      omega
    -- both sides less what `old` adds
    have hadd : t'.waitingStreams + UInt32.ofNat old.waits =
        UInt32.ofNat ((a.calls.set c new).countP blocked +
          (a.calls.set c new).countP leftWaiting) + UInt32.ofNat old.waits := by
      rw [hwait, h.waiting, ← UInt32.ofNat_add, ← UInt32.ofNat_add, hsum]
    simpa using congrArg (· - UInt32.ofNat old.waits) hadd

/-- One iteration of `NewStream`'s loop moves the counters by what the call's change adds to
the counts, and hands out `nextID` exactly when it takes quota. -/
theorem tryNewStream_spec (t : http2Client) {call : newStreamCall} (hloop : call.phase = .looping)
    (hdrFits : Bool) :
    let r := tryNewStream t call hdrFits
    r.2.2.maxConcurrentStreams = t.maxConcurrentStreams ∧
      r.2.2.streamQuota + r.2.1.holdsQuota.toNat = t.streamQuota + call.holdsQuota.toNat ∧
      r.2.2.waitingStreams + UInt32.ofNat call.waits =
        t.waitingStreams + UInt32.ofNat r.2.1.waits ∧
      (r.1 = none ∧ r.2.2.nextID = t.nextID ∨ r.1 = some t.nextID ∧ r.2.2.nextID = t.nextID + 2) := by
  obtain ⟨firstTry, phase⟩ := call
  subst hloop
  unfold tryNewStream http2Client.checkForStreamQuota
  by_cases herr : t.cbErr = true
  · -- the buffer's error: the call fails, as blocked before as it is left after
    rw [if_pos herr]
    cases firstTry <;> simp [holdsQuota, waits, blocked, leftWaiting]
  rw [if_neg herr]
  by_cases hq : t.streamQuota ≤ 0
  · -- no quota: the call waits, counted on its first try
    rw [if_pos hq]
    cases firstTry <;> simp [holdsQuota, waits, blocked, leftWaiting]
  · -- the call takes a unit of quota and the id
    rw [if_neg hq]
    cases firstTry <;> cases hdrFits <;> simp [holdsQuota, waits, blocked, leftWaiting]

/-- Every step keeps the accounting. -/
theorem admissionInv_step {a : admission} (h : AdmissionInv a) (e : admissionEvent) :
    AdmissionInv (a.step e).2 := by
  cases e with
  | newStream =>
    -- a call that has not tried yet counts nowhere
    constructor
    · simp [admission.step, List.countP_append, holdsQuota, h.quota]
    · simp [admission.step, List.countP_append, blocked, leftWaiting, h.waiting]
  | tryStream c hdrFits =>
    simp only [admission.step]
    split
    · rename_i call hc
      split
      · rename_i hloop
        obtain ⟨hmax, hquota, hwait, -⟩ := tryNewStream_spec a.t hloop hdrFits
        exact h.set hc _ _ hmax hquota hwait
      · exact h
    · exact h
  | giveUp c =>
    simp only [admission.step]
    split
    · rename_i call hc
      split
      · -- a blocked call leaves: it is counted as having left instead
        rename_i hleave
        obtain ⟨firstTry, phase⟩ := call
        obtain ⟨hloop, hfirst⟩ := hleave
        dsimp only at hloop hfirst
        subst hloop hfirst
        exact h.set hc _ a.t rfl (by simp [holdsQuota]) (by simp [waits, blocked, leftWaiting])
      · exact h
    · exact h
  | closeStream c =>
    simp only [admission.step]
    split
    · rename_i firstTry id hc
      split
      · exact h
      · exact h.set hc _ _ rfl (by simp [http2Client.addBackStreamQuota, holdsQuota])
          (by simp [http2Client.addBackStreamQuota, waits, blocked, leftWaiting])
    · exact h
  | settings maxStreams =>
    simp only [admission.step]
    split
    · exact h
    · -- the quota moves by the change of the limit
      constructor
      · simp only [http2Client.updateStreamQuota]
        rw [h.quota]
        omega
      · exact h.waiting
  | finish => exact ⟨h.quota, h.waiting⟩

theorem admissionInv_invariant :
    Machine.Invariant (fun _ _ => True) admission.step AdmissionInv :=
  fun _ e h _ => admissionInv_step h e

/-- The accounting holds after every run: `streamQuota` is the limit less the units the
streams hold, and `waitingStreams` counts the calls blocked on quota and those that left after
waiting. -/
theorem admissionInv_run (es : List admissionEvent) :
    AdmissionInv (Machine.run admission.step newAdmission es).2 :=
  admissionInv_invariant.run admissionInv_newAdmission
    (Machine.admits_of_forall (fun _ _ => trivial) _ es)

/-! ## Stream ids -/

/-- The `j`-th stream id `nextID` hands out: `1 + 2 * j` as a `uint32`. -/
def streamIdAt (j : Nat) : UInt32 :=
  UInt32.ofNat (1 + 2 * j)

theorem streamIdAt_succ (j : Nat) : streamIdAt (j + 1) = streamIdAt j + 2 := by
  rw [streamIdAt, streamIdAt, show 1 + 2 * (j + 1) = 1 + 2 * j + 2 by omega, UInt32.ofNat_add]
  rfl

/-- A step hands out `nextID` and moves it on by two, or hands out nothing and leaves it. -/
theorem step_nextID (a : admission) (e : admissionEvent) :
    (a.step e).1 = [] ∧ (a.step e).2.t.nextID = a.t.nextID ∨
      (a.step e).1 = [a.t.nextID] ∧ (a.step e).2.t.nextID = a.t.nextID + 2 := by
  cases e with
  | tryStream c hdrFits =>
    simp only [admission.step]
    split
    · split
      · rename_i call _ hloop
        rcases (tryNewStream_spec a.t hloop hdrFits).2.2.2 with ⟨hnone, hid⟩ | ⟨hsome, hid⟩
        · exact .inl ⟨by rw [hnone]; rfl, hid⟩
        · exact .inr ⟨by rw [hsome]; rfl, hid⟩
      · exact .inl ⟨rfl, rfl⟩
    · exact .inl ⟨rfl, rfl⟩
  | giveUp c =>
    simp only [admission.step]
    split
    · split <;> exact .inl ⟨rfl, rfl⟩
    · exact .inl ⟨rfl, rfl⟩
  | closeStream c =>
    simp only [admission.step]
    split
    · split <;> exact .inl ⟨rfl, rfl⟩
    · exact .inl ⟨rfl, rfl⟩
  | settings maxStreams =>
    simp only [admission.step]
    split <;> exact .inl ⟨rfl, rfl⟩
  | newStream | finish => exact .inl ⟨rfl, rfl⟩

/-- Every run hands out `streamIdAt 0, streamIdAt 1, …` in order, and leaves `nextID` at the
next of them. -/
theorem ids_handed_out (es : List admissionEvent) :
    let r := Machine.run admission.step newAdmission es
    r.1 = (List.range r.1.length).map streamIdAt ∧ r.2.t.nextID = streamIdAt r.1.length := by
  intro r
  have htrue : Machine.Invariant (fun _ _ => True) admission.step (fun _ => True) :=
    fun _ _ _ _ => trivial
  have hrun : ([] ++ r.1 = (List.range ([] ++ r.1).length).map streamIdAt ∧
      r.2.t.nextID = streamIdAt ([] ++ r.1).length) :=
    htrue.outputs
      (P := fun out a => out = (List.range out.length).map streamIdAt ∧
        a.t.nextID = streamIdAt out.length)
      (fun out a e _ _ hp => by
        obtain ⟨hout, hid⟩ := hp
        rcases step_nextID a e with ⟨hnil, hnext⟩ | ⟨hone, hnext⟩
        · rw [hnil, List.append_nil, hnext]
          exact ⟨hout, hid⟩
        · -- one more id, the next in the sequence
          rw [hone, hnext, hid, List.length_append, List.length_singleton, List.range_succ,
            List.map_append, ← hout, streamIdAt_succ]
          exact ⟨rfl, rfl⟩)
      trivial (Machine.admits_of_forall (fun _ _ => trivial) _ es) ⟨rfl, rfl⟩
  simpa using hrun

/-! ## Where admission drifts from what it stands for -/

/-- A call that opens a stream, which is then closed. -/
def openAndClose (c : Nat) : List admissionEvent :=
  [.newStream, .tryStream c true, .closeStream c]

/-- A stream opened and closed while the transport has quota takes `nextID` and leaves the
counters as they were. -/
theorem run_openAndClose (a : admission) (herr : a.t.cbErr = false)
    (hq : 0 < a.t.streamQuota) :
    Machine.run admission.step a (openAndClose a.calls.length) =
      ([a.t.nextID], ⟨{ a.t with nextID := a.t.nextID + 2 },
        a.calls ++ [⟨true, .closed a.t.nextID⟩]⟩) := by
  have hq' : ¬ a.t.streamQuota ≤ 0 := by omega
  simp [openAndClose, admission.step, tryNewStream, http2Client.checkForStreamQuota,
    http2Client.addBackStreamQuota, herr, hq']

/-- `k` streams opened and closed one after another from a new transport take `k` ids and leave
the quota whole. -/
theorem run_openAndClose_range (k : Nat) :
    (Machine.run admission.step newAdmission ((List.range k).flatMap openAndClose)).1.length = k ∧
      (Machine.run admission.step newAdmission ((List.range k).flatMap openAndClose)).2.t.cbErr =
        false ∧
      (Machine.run admission.step newAdmission
        ((List.range k).flatMap openAndClose)).2.t.streamQuota = defaultMaxStreamsClient.toNat ∧
      (Machine.run admission.step newAdmission
        ((List.range k).flatMap openAndClose)).2.calls.length = k := by
  induction k with
  | zero => exact ⟨rfl, rfl, rfl, rfl⟩
  | succ k ih =>
    obtain ⟨hlen, herr, hq, hcalls⟩ := ih
    -- the streams before, then one more
    have hblock := run_openAndClose
      (Machine.run admission.step newAdmission ((List.range k).flatMap openAndClose)).2 herr
      (by rw [hq]; decide)
    rw [hcalls] at hblock
    rw [List.range_succ, List.flatMap_append, List.flatMap_singleton, Machine.run_append, hblock]
    simp only [List.length_append, List.length_singleton]
    exact ⟨by rw [hlen], herr, hq, by rw [hcalls]⟩

/-- Admission does not keep what its fields stand for.  A call that waited for quota and then
left (its context done, GOAWAY) stays counted in `waitingStreams` with no call blocked; and
`nextID` is never stopped: after `2 ^ 30` streams the next id is `2 ^ 31 + 1`, past the largest
stream id, and after `2 ^ 31` it wraps around to an id already handed out. -/
theorem newStream_admission_diverges :
    ((Machine.run admission.step newAdmission
        [.settings 0, .newStream, .tryStream 0 true, .giveUp 0]).2.t.waitingStreams = 1 ∧
      (Machine.run admission.step newAdmission
        [.settings 0, .newStream, .tryStream 0 true, .giveUp 0]).2.calls.countP blocked = 0) ∧
    (∃ id ∈ (Machine.run admission.step newAdmission
        ((List.range (2 ^ 30 + 1)).flatMap openAndClose)).1, 2 ^ 31 - 1 < id.toNat) ∧
    ¬ (Machine.run admission.step newAdmission
        ((List.range (2 ^ 31 + 1)).flatMap openAndClose)).1.Nodup := by
  refine ⟨⟨by decide, by decide⟩, ?_, fun hnodup => ?_⟩
  · -- the `2 ^ 30`-th id
    rw [(ids_handed_out _).1, (run_openAndClose_range _).1]
    exact ⟨streamIdAt (2 ^ 30), List.mem_map.mpr ⟨2 ^ 30, List.mem_range.mpr (by omega), rfl⟩,
      by decide⟩
  · -- the first id and the `2 ^ 31`-th are both `1`
    rw [(ids_handed_out _).1, (run_openAndClose_range _).1] at hnodup
    have hsame : streamIdAt 0 = streamIdAt (2 ^ 31) := by decide
    have := List.inj_on_of_nodup_map hnodup (List.mem_range.mpr (by omega))
      (List.mem_range.mpr (by omega)) hsame
    omega

end Transport
end GrpcGo
