import GrpcGo.Xds.TransportHelper

/-!
# Where the versions and nonces of ADS requests come from

Over every run of `TransportHelper`'s loops, a request sent on a stream for a resource type
carries a version that is empty or the `version_info` of a valid response of that type received
on that stream, and a nonce that is empty or the nonce of a response of that type received on
that stream (`requests_carry_received`): an ack of an earlier stream never reaches the maps of
the current one, and the maps are emptied when the sender takes a new stream.  The invariant
behind it (`Provenance`) follows every queued ack back to the response it came from, and every
entry of the maps, while the sender has a stream, to a response on that stream.

What it does not give is the version of the most recent response acked: an ack action whose
version is empty is taken for a NACK, so a valid response with an empty `version_info` is acked
with the version acked before, which later requests carry on (`emptyVersion_ack_keeps_previous`).
-/

namespace GrpcGo
namespace XdsClient

open GoStd Machine

namespace TransportHelper

/-! ## What each function does -/

@[simp] theorem processWatchInfo_versionMap (t : TransportHelper) (w : watchAction) :
    (t.processWatchInfo w).2.versionMap = t.versionMap := rfl

@[simp] theorem processWatchInfo_nonceMap (t : TransportHelper) (w : watchAction) :
    (t.processWatchInfo w).2.nonceMap = t.nonceMap := rfl

@[simp] theorem processWatchInfo_sendCh (t : TransportHelper) (w : watchAction) :
    (t.processWatchInfo w).2.sendCh = t.sendCh := rfl

@[simp] theorem processWatchInfo_stream (t : TransportHelper) (w : watchAction) :
    (t.processWatchInfo w).2.stream = t.stream := rfl

/-- A watch request carries the version and nonce the maps hold for its type. -/
theorem processWatchInfo_fst (t : TransportHelper) (w : watchAction) :
    ∃ target, (t.processWatchInfo w).1 =
      (target, w.rType, (t.versionMap.lookup w.rType).getD "", (t.nonceMap.lookup w.rType).getD "")
  := ⟨_, rfl⟩

/-- **What `processAckInfo` can do.**  An ack of a stream other than the sender's changes
nothing and sends nothing.  One of the sender's stream records its nonce; then it is dropped
when no resource of its type is watched, sent as a NACK with the version acked before, or sent
as an ACK with its own version, which it records.  What it sends names the watched resources,
of which there is at least one. -/
theorem processAckInfo_cases (t : TransportHelper) (ack : ackAction) (stream : Option Nat) :
    (some ack.stream ≠ stream ∧
        t.processAckInfo ack stream = (([], .UnknownResource, "", "", false), t)) ∨
      (some ack.stream = stream ∧
        t.processAckInfo ack stream = (([], .UnknownResource, "", "", false),
          { t with nonceMap := Map.insert ack.rType ack.nonce t.nonceMap })) ∨
      (some ack.stream = stream ∧ ack.version = "" ∧
        ∃ s, t.watchMap.lookup ack.rType = some s ∧ s ≠ [] ∧
          t.processAckInfo ack stream = ((mapToSlice s, ack.rType,
            (t.versionMap.lookup ack.rType).getD "", ack.nonce, true),
            { t with nonceMap := Map.insert ack.rType ack.nonce t.nonceMap })) ∨
      (some ack.stream = stream ∧ ack.version ≠ "" ∧
        ∃ s, t.watchMap.lookup ack.rType = some s ∧ s ≠ [] ∧
          t.processAckInfo ack stream = ((mapToSlice s, ack.rType, ack.version, ack.nonce, true),
            { t with nonceMap := Map.insert ack.rType ack.nonce t.nonceMap,
                     versionMap := Map.insert ack.rType ack.version t.versionMap })) := by
  by_cases hstream : some ack.stream = stream
  · -- the watch map decides whether it is sent; the version, whether it is an ACK
    cases hs : t.watchMap.lookup ack.rType with
    | none => exact .inr (.inl ⟨hstream, by simp [processAckInfo, hstream, hs]⟩)
    | some s =>
      by_cases hempty : s = []
      · subst hempty
        exact .inr (.inl ⟨hstream, by simp [processAckInfo, hstream, hs]⟩)
      · have hne : s.isEmpty = false := List.isEmpty_eq_false_iff.mpr hempty
        by_cases hv : ack.version = ""
        · exact .inr (.inr (.inl ⟨hstream, hv, s, rfl, hempty,
            by simp [processAckInfo, hstream, hs, hne, hv]⟩))
        · exact .inr (.inr (.inr ⟨hstream, hv, s, rfl, hempty,
            by simp [processAckInfo, hstream, hs, hne, hv]⟩))
  · exact .inl ⟨hstream, by simp [processAckInfo, hstream]⟩

/-- `sendExisting` empties the maps, keeps the rest, and requests with no version or nonce. -/
theorem sendExisting_spec (t : TransportHelper) (stream : Nat) (failAt : Option Nat) :
    (t.sendExisting stream failAt).2.2 = { t with versionMap := [], nonceMap := [] } ∧
      ∀ r ∈ (t.sendExisting stream failAt).1, r.stream = stream ∧ r.version = "" ∧ r.nonce = "" := by
  have hreqs : ∀ r ∈ t.watchMap.map (fun e => (⟨stream, mapToSlice e.2, e.1, "", "", ""⟩ : request)),
      r.stream = stream ∧ r.version = "" ∧ r.nonce = "" := by
    intro r hr
    obtain ⟨e, -, rfl⟩ := List.mem_map.mp hr
    exact ⟨rfl, rfl, rfl⟩
  unfold sendExisting
  cases failAt with
  | none => exact ⟨rfl, hreqs⟩
  | some k =>
    dsimp only
    split
    · exact ⟨rfl, fun r hr => hreqs r (List.mem_of_mem_take hr)⟩
    · exact ⟨rfl, hreqs⟩

/-- `sendRequest` sends on the sender's stream, if it has one, and at most drops the stream. -/
theorem sendRequest_spec (t : TransportHelper) (target : List String) (rType : ResourceType)
    (version nonce errMsg : String) (sendOk : Bool) :
    (∀ r ∈ (t.sendRequest target rType version nonce errMsg sendOk).1,
        t.stream = some r.stream ∧ r.rType = rType ∧ r.version = version ∧ r.nonce = nonce) ∧
      ((t.sendRequest target rType version nonce errMsg sendOk).2 = t ∨
        (t.sendRequest target rType version nonce errMsg sendOk).2 = { t with stream := none }) := by
  unfold sendRequest
  cases hs : t.stream with
  | none => exact ⟨fun r hr => absurd hr List.not_mem_nil, .inl rfl⟩
  | some s =>
    refine ⟨fun r hr => ?_, ?_⟩
    · rw [List.mem_singleton.mp hr]
      exact ⟨rfl, rfl, rfl, rfl⟩
    · cases sendOk
      · exact .inr rfl
      · exact .inl rfl

/-! ## Provenance -/

/-- A version a request may carry on `stream` for `rType` after the events `pre`: none, or the
`version_info` of a valid response of that type received on that stream. -/
def VersionFrom (pre : List helperEvent) (stream : Nat) (rType : ResourceType) (version : String) :
    Prop :=
  version = "" ∨ ∃ nonce, helperEvent.response stream (.valid rType version nonce) ∈ pre

/-- A nonce a request may carry on `stream` for `rType` after the events `pre`: none, or the
nonce of a response of that type received on that stream, valid or not. -/
def NonceFrom (pre : List helperEvent) (stream : Nat) (rType : ResourceType) (nonce : String) :
    Prop :=
  nonce = "" ∨ (∃ version, helperEvent.response stream (.valid rType version nonce) ∈ pre) ∨
    ∃ errMsg, helperEvent.response stream (.invalid rType nonce errMsg) ∈ pre

theorem VersionFrom.mono {pre : List helperEvent} {stream : Nat} {rType : ResourceType}
    {version : String} (h : VersionFrom pre stream rType version) (es : List helperEvent) :
    VersionFrom (pre ++ es) stream rType version := by
  rcases h with h | ⟨nonce, h⟩
  · exact .inl h
  · exact .inr ⟨nonce, List.mem_append_left _ h⟩

theorem NonceFrom.mono {pre : List helperEvent} {stream : Nat} {rType : ResourceType}
    {nonce : String} (h : NonceFrom pre stream rType nonce) (es : List helperEvent) :
    NonceFrom (pre ++ es) stream rType nonce := by
  rcases h with h | ⟨version, h⟩ | ⟨errMsg, h⟩
  · exact .inl h
  · exact .inr (.inl ⟨version, List.mem_append_left _ h⟩)
  · exact .inr (.inr ⟨errMsg, List.mem_append_left _ h⟩)

/-- The ack `recv` makes of a response received on its stream carries that response's nonce, and
its version when it is an ACK. -/
theorem ackFor_from {pre : List helperEvent} {stream : Nat} {h : handledResponse} {ack : ackAction}
    (hrecv : helperEvent.response stream h ∈ pre) (hack : ackFor stream h = some ack) :
    ack.stream = stream ∧ VersionFrom pre stream ack.rType ack.version ∧
      NonceFrom pre stream ack.rType ack.nonce := by
  cases h with
  | unsupported => cases hack
  | invalid rType nonce errMsg =>
    cases hack
    exact ⟨rfl, .inl rfl, .inr (.inr ⟨errMsg, hrecv⟩)⟩
  | valid rType version nonce =>
    cases hack
    exact ⟨rfl, .inr ⟨nonce, hrecv⟩, .inr (.inl ⟨version, hrecv⟩)⟩

/-- What the maps hold, while the sender has the stream `stream`, came from responses on it. -/
structure MapsFrom (pre : List helperEvent) (stream : Nat)
    (versionMap nonceMap : List (ResourceType × String)) : Prop where
  versions : ∀ rType version, versionMap.lookup rType = some version →
    VersionFrom pre stream rType version
  nonces : ∀ rType nonce, nonceMap.lookup rType = some nonce → NonceFrom pre stream rType nonce

theorem MapsFrom.nil (pre : List helperEvent) (stream : Nat) : MapsFrom pre stream [] [] :=
  ⟨fun _ _ h => by simp at h, fun _ _ h => by simp at h⟩

theorem MapsFrom.mono {pre : List helperEvent} {stream : Nat}
    {versionMap nonceMap : List (ResourceType × String)}
    (h : MapsFrom pre stream versionMap nonceMap) (es : List helperEvent) :
    MapsFrom (pre ++ es) stream versionMap nonceMap :=
  ⟨fun rType version hv => (h.versions rType version hv).mono es,
    fun rType nonce hn => (h.nonces rType nonce hn).mono es⟩

/-- What a lookup with Go's zero value reads from such maps came from a response too. -/
theorem MapsFrom.version_getD {pre : List helperEvent} {stream : Nat}
    {versionMap nonceMap : List (ResourceType × String)}
    (h : MapsFrom pre stream versionMap nonceMap) (rType : ResourceType) :
    VersionFrom pre stream rType ((versionMap.lookup rType).getD "") := by
  cases hv : versionMap.lookup rType with
  | none => exact .inl rfl
  | some version => exact h.versions rType version hv

theorem MapsFrom.nonce_getD {pre : List helperEvent} {stream : Nat}
    {versionMap nonceMap : List (ResourceType × String)}
    (h : MapsFrom pre stream versionMap nonceMap) (rType : ResourceType) :
    NonceFrom pre stream rType ((nonceMap.lookup rType).getD "") := by
  cases hn : nonceMap.lookup rType with
  | none => exact .inl rfl
  | some nonce => exact h.nonces rType nonce hn

/-- Recording a version and a nonce that came from responses on the stream keeps the maps so. -/
theorem MapsFrom.insert_nonce {pre : List helperEvent} {stream : Nat}
    {versionMap nonceMap : List (ResourceType × String)} (h : MapsFrom pre stream versionMap nonceMap)
    {rType : ResourceType} {nonce : String} (hn : NonceFrom pre stream rType nonce) :
    MapsFrom pre stream versionMap (Map.insert rType nonce nonceMap) := by
  refine ⟨h.versions, fun rType' nonce' hlookup => ?_⟩
  rw [Map.lookup_insert] at hlookup
  by_cases hr : rType' = rType
  · rw [if_pos hr, Option.some.injEq] at hlookup
    rw [hr, ← hlookup]
    exact hn
  · rw [if_neg hr] at hlookup
    exact h.nonces rType' nonce' hlookup

theorem MapsFrom.insert_version {pre : List helperEvent} {stream : Nat}
    {versionMap nonceMap : List (ResourceType × String)} (h : MapsFrom pre stream versionMap nonceMap)
    {rType : ResourceType} {version : String} (hv : VersionFrom pre stream rType version) :
    MapsFrom pre stream (Map.insert rType version versionMap) nonceMap := by
  refine ⟨fun rType' version' hlookup => ?_, h.nonces⟩
  rw [Map.lookup_insert] at hlookup
  by_cases hr : rType' = rType
  · rw [if_pos hr, Option.some.injEq] at hlookup
    rw [hr, ← hlookup]
    exact hv
  · rw [if_neg hr] at hlookup
    exact h.versions rType' version' hlookup

/-- **The provenance invariant** after the events `pre`: every queued ack is what `recv` made of
a response received on its stream, and while the sender has a stream, the maps hold only what
came from responses on it. -/
structure Provenance (pre : List helperEvent) (t : TransportHelper) : Prop where
  queued : ∀ ack, action.ack ack ∈ t.sendCh →
    ∃ h, helperEvent.response ack.stream h ∈ pre ∧ ackFor ack.stream h = some ack
  maps : ∀ stream, t.stream = some stream → MapsFrom pre stream t.versionMap t.nonceMap

/-- The requests sent so far carry only versions and nonces received on their own stream, for
their own type. -/
def RequestsFrom (pre : List helperEvent) (out : List request) : Prop :=
  ∀ r ∈ out, VersionFrom pre r.stream r.rType r.version ∧ NonceFrom pre r.stream r.rType r.nonce

theorem RequestsFrom.append {pre : List helperEvent} {out out' : List request}
    (h : RequestsFrom pre out) (h' : RequestsFrom pre out') : RequestsFrom pre (out ++ out') := by
  intro r hr
  rcases List.mem_append.mp hr with hr | hr
  · exact h r hr
  · exact h' r hr

theorem RequestsFrom.mono {pre : List helperEvent} {out : List request}
    (h : RequestsFrom pre out) (es : List helperEvent) : RequestsFrom (pre ++ es) out :=
  fun r hr => ⟨(h r hr).1.mono es, (h r hr).2.mono es⟩

theorem provenance_newTransportHelper : Provenance [] NewTransportHelper :=
  ⟨fun _ h => absurd h List.not_mem_nil, fun _ h => by cases h⟩

/-- A request `sendRequest` sends with a version and a nonce that came from responses on the
sender's stream carries only such; and what is left keeps the provenance. -/
theorem Provenance.sendRequest {pre : List helperEvent} {t : TransportHelper}
    (hprov : Provenance pre t) {target : List String} {rType : ResourceType}
    {version nonce errMsg : String} (sendOk : Bool)
    (hfrom : ∀ stream, t.stream = some stream →
      VersionFrom pre stream rType version ∧ NonceFrom pre stream rType nonce) :
    RequestsFrom pre (t.sendRequest target rType version nonce errMsg sendOk).1 ∧
      Provenance pre (t.sendRequest target rType version nonce errMsg sendOk).2 := by
  obtain ⟨hsent, hleft⟩ := sendRequest_spec t target rType version nonce errMsg sendOk
  refine ⟨fun r hr => ?_, ?_⟩
  · obtain ⟨hs, hr, hv, hn⟩ := hsent r hr
    rw [hr, hv, hn]
    exact hfrom r.stream hs
  · rcases hleft with heq | heq <;> rw [heq]
    · exact hprov
    · exact ⟨hprov.queued, fun _ h => by cases h⟩

/-- Taking a watch action sends what the maps hold for its type. -/
theorem Provenance.takeWatch {pre : List helperEvent} {t : TransportHelper}
    (hprov : Provenance pre t) {w : watchAction} {rest : List action}
    (hch : t.sendCh = .watch w :: rest) (sendOk : Bool) :
    let r := { t with sendCh := rest }.processWatchInfo w
    RequestsFrom pre (r.2.sendRequest r.1.1 r.1.2.1 r.1.2.2.1 r.1.2.2.2 "" sendOk).1 ∧
      Provenance pre (r.2.sendRequest r.1.1 r.1.2.1 r.1.2.2.1 r.1.2.2.2 "" sendOk).2 := by
  intro r
  have hprov' : Provenance pre r.2 := by
    refine ⟨fun ack hack => hprov.queued ack ?_, fun stream hs => hprov.maps stream hs⟩
    rw [hch]
    exact List.mem_cons_of_mem _ hack
  obtain ⟨target, hr⟩ := processWatchInfo_fst { t with sendCh := rest } w
  refine hprov'.sendRequest sendOk fun stream hs => ?_
  rw [show r.1 = _ from hr]
  exact ⟨(hprov.maps stream hs).version_getD w.rType, (hprov.maps stream hs).nonce_getD w.rType⟩

/-- Taking an ack action of the sender's stream records, and sends, only what its response
brought, or what the maps held. -/
theorem Provenance.takeAck {pre : List helperEvent} {t : TransportHelper}
    (hprov : Provenance pre t) {ack : ackAction} {rest : List action}
    (hch : t.sendCh = .ack ack :: rest) (sendOk : Bool) :
    let r := { t with sendCh := rest }.processAckInfo ack t.stream
    RequestsFrom pre (if r.1.2.2.2.2 then r.2.sendRequest r.1.1 r.1.2.1 r.1.2.2.1 r.1.2.2.2.1
      ack.errMsg sendOk else ([], r.2)).1 ∧
    Provenance pre (if r.1.2.2.2.2 then r.2.sendRequest r.1.1 r.1.2.1 r.1.2.2.1 r.1.2.2.2.1
      ack.errMsg sendOk else ([], r.2)).2 := by
  intro r
  -- the ack came from a response on its own stream
  obtain ⟨h, hrecv, hack⟩ := hprov.queued ack (by rw [hch]; exact List.mem_cons_self)
  obtain ⟨-, hver, hnon⟩ := ackFor_from hrecv hack
  have hqueued : ∀ ack', action.ack ack' ∈ rest →
      ∃ h, helperEvent.response ack'.stream h ∈ pre ∧ ackFor ack'.stream h = some ack' :=
    fun ack' h' => hprov.queued ack' (by rw [hch]; exact List.mem_cons_of_mem _ h')
  rcases processAckInfo_cases { t with sendCh := rest } ack t.stream with
    ⟨-, hres⟩ | ⟨hs, hres⟩ | ⟨hs, -, s, -, -, hres⟩ | ⟨hs, -, s, -, -, hres⟩ <;>
    simp only [r, hres, ite_true, ite_false, Bool.false_eq_true]
  · -- an ack of an earlier stream: nothing changes
    exact ⟨fun _ h => absurd h List.not_mem_nil, hqueued, hprov.maps⟩
  · exact ⟨fun _ h => absurd h List.not_mem_nil, hqueued, fun stream hs' => by
      rw [← hs, Option.some.injEq] at hs'
      subst hs'
      exact (hprov.maps ack.stream hs.symm).insert_nonce hnon⟩
  · -- a NACK: the version acked before on this stream
    have hmaps := (hprov.maps ack.stream hs.symm).insert_nonce hnon
    refine Provenance.sendRequest ⟨hqueued, fun stream hs' => ?_⟩ sendOk fun stream hs' => ?_
    · rw [← hs, Option.some.injEq] at hs'
      subst hs'
      exact hmaps
    · rw [← hs, Option.some.injEq] at hs'
      subst hs'
      exact ⟨(hprov.maps ack.stream hs.symm).version_getD ack.rType, hnon⟩
  · -- an ACK: its own version, which is recorded
    have hmaps := ((hprov.maps ack.stream hs.symm).insert_nonce hnon).insert_version hver
    refine Provenance.sendRequest ⟨hqueued, fun stream hs' => ?_⟩ sendOk fun stream hs' => ?_
    · rw [← hs, Option.some.injEq] at hs'
      subst hs'
      exact hmaps
    · rw [← hs, Option.some.injEq] at hs'
      subst hs'
      exact ⟨hver, hnon⟩

/-- **One step keeps the provenance**, and what it sends carries only what came from responses on
its stream. -/
theorem Provenance.step {pre : List helperEvent} {t : TransportHelper} (hprov : Provenance pre t)
    (e : helperEvent) :
    RequestsFrom (pre ++ [e]) (t.step e).1 ∧ Provenance (pre ++ [e]) (t.step e).2 := by
  -- what held after `pre` holds after one more event
  have hmono : Provenance (pre ++ [e]) t :=
    ⟨fun ack hack => by
      obtain ⟨h, hrecv, hackFor⟩ := hprov.queued ack hack
      exact ⟨h, List.mem_append_left _ hrecv, hackFor⟩,
      fun stream hs => (hprov.maps stream hs).mono [e]⟩
  have hnil : RequestsFrom (pre ++ [e]) [] := fun _ h => absurd h List.not_mem_nil
  cases e with
  | watch w =>
    refine ⟨hnil, fun ack hack => hmono.queued ack ?_, hmono.maps⟩
    rcases List.mem_append.mp hack with h | h
    · exact h
    · simp at h
  | newStream => exact ⟨hnil, hmono.queued, hmono.maps⟩
  | response stream h =>
    dsimp only [TransportHelper.step]
    cases hack : ackFor stream h with
    | none => exact ⟨hnil, hmono⟩
    | some ack =>
      refine ⟨hnil, fun ack' hack' => ?_, hmono.maps⟩
      rcases List.mem_append.mp hack' with h' | h'
      · exact hmono.queued ack' h'
      · -- the ack of the response just received
        rw [List.mem_singleton, action.ack.injEq] at h'
        subst h'
        obtain ⟨hs, -, -⟩ := ackFor_from (List.mem_singleton_self _) hack
        exact ⟨h, List.mem_append_right _ (by rw [hs]; exact List.mem_singleton_self _),
          by rw [hs]; exact hack⟩
  | takeStream failAt =>
    dsimp only [TransportHelper.step]
    cases hch : t.streamCh with
    | none => exact ⟨hnil, hmono⟩
    | some s =>
      dsimp only
      obtain ⟨hleft, hsent⟩ := sendExisting_spec { t with streamCh := none } s failAt
      refine ⟨fun r hr => ?_, ⟨fun ack hack => ?_, fun stream _ => ?_⟩⟩
      · obtain ⟨-, hv, hn⟩ := hsent r hr
        exact ⟨.inl hv, .inl hn⟩
      · rw [hleft] at hack
        exact hmono.queued ack hack
      · -- a new stream starts with empty maps
        rw [hleft]
        exact MapsFrom.nil _ _
  | takeAction sendOk =>
    dsimp only [TransportHelper.step]
    cases hch : t.sendCh with
    | nil => exact ⟨hnil, hmono⟩
    | cons a rest =>
      cases a with
      | watch w => exact hmono.takeWatch hch sendOk
      | ack ack => exact hmono.takeAck hch sendOk

/-- **Requests carry only what was received on their stream.**  On every run of the loops, each
request sent on a stream for a resource type carries a version that is empty or the
`version_info` of a valid response of that type received on that stream, and a nonce that is
empty or the nonce of a response of that type received on that stream. -/
theorem requests_carry_received (es : List helperEvent) :
    RequestsFrom es (run step NewTransportHelper es).1 := by
  -- every event is allowed and the history is not restricted, so the invariant is `True`
  have hrun := @Invariant.history TransportHelper helperEvent request (fun _ _ => True) step
    (fun _ => True) (fun pre out t => RequestsFrom pre out ∧ Provenance pre t) (fun _ => True)
    (fun _ _ _ _ => trivial) (fun _ _ _ => trivial)
    (fun pre out t e _ _ _ hp =>
      ⟨(hp.1.mono [e]).append (hp.2.step e).1, (hp.2.step e).2⟩)
    es [] [] NewTransportHelper trivial (admits_of_forall (fun _ _ => trivial) _ es) trivial
    ⟨fun _ h => absurd h List.not_mem_nil, provenance_newTransportHelper⟩
  simpa using hrun.1

/-- A stream; a watch on the listener `foo`; a valid listener response of version `1`, then a
valid one whose `version_info` is empty, each acked as soon as it comes; a second watch. -/
def emptyVersionRun : List helperEvent :=
  [.newStream, .takeStream none, .watch ⟨.ListenerResource, false, "foo"⟩, .takeAction true,
    .response 0 (.valid .ListenerResource "1" "a"), .takeAction true,
    .response 0 (.valid .ListenerResource "" "b"), .takeAction true,
    .watch ⟨.ListenerResource, false, "bar"⟩, .takeAction true]

/-- On that run, the ACK of the second response carries the version `1` of the first, and so
does the request after it: neither the ACK nor the version requests carry is that of the most
recent response acked. -/
theorem emptyVersion_ack_keeps_previous :
    Admits Allowed step NewTransportHelper emptyVersionRun ∧
      (run step NewTransportHelper emptyVersionRun).1 =
        [⟨0, ["foo"], .ListenerResource, "", "", ""⟩,
          ⟨0, ["foo"], .ListenerResource, "1", "a", ""⟩,
          ⟨0, ["foo"], .ListenerResource, "1", "b", ""⟩,
          ⟨0, ["foo", "bar"], .ListenerResource, "1", "b", ""⟩] := by
  decide

end TransportHelper

end XdsClient
end GrpcGo
