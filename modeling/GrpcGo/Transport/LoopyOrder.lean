import GrpcGo.Lib.Drain
import GrpcGo.Transport.LoopyInv

/-!
# The order in which loopy writes a stream's data

The data of a stream is queued as `dataFrame`s, each `h ++ d` with its `endStream`, and
`processData` writes it out as DATA frames of at most the quota it has.  For each stream `s`,
`StreamLedger` relates what was queued for it (`queued`), the payloads of the DATA frames written
for it (`written`) and the items it still holds: these items are what is left of the queue after
what was written (`Drain.Drained`), trailers wait behind all the data, a DATA frame with
END_STREAM ends where a `dataFrame` with `endStream` ends, and a HEADERS frame with END_STREAM
comes after all the stream's data and nothing of it follows.

The ledger holds for the order in which the transport hands loopy a stream's items
(`TransportOrder`): a stream id is started once (registered by a server, originated by a client,
or aborted early), data is queued for a stream only after it was started and never after it was
ended.  Each stream changes only through a few transitions (`StreamLedger.create`, `push`,
`writeData`, `writeTrailer`, `delete`), and each handler is a composition of them.
-/

namespace GrpcGo
namespace Transport

open GoStd Drain

/-! ## What is queued for a stream and what is written of it -/

/-- The data of a stream's items still to write: `h ++ d` and `endStream` of each `*dataFrame`. -/
def itemsData : List outItem → List (Bytes × Bool)
  | [] => []
  | .dataFrame _ endStream h d :: itl => (h ++ d, endStream) :: itemsData itl
  | .headerFrame .. :: itl => itemsData itl

/-- Whether a stream's items hold its trailers. -/
def hasTrailer : List outItem → Bool
  | [] => false
  | .dataFrame .. :: itl => hasTrailer itl
  | .headerFrame .. :: _ => true

/-- A stream's trailers end the stream and no data waits behind them. -/
def DataFirst : List outItem → Prop
  | [] => True
  | .dataFrame .. :: itl => DataFirst itl
  | .headerFrame _ endStream _ :: itl => endStream = true ∧ itemsData itl = []

@[simp] theorem itemsData_append (itl itl' : List outItem) :
    itemsData (itl ++ itl') = itemsData itl ++ itemsData itl' := by
  induction itl with
  | nil => rfl
  | cons item itl ih => cases item <;> simp [itemsData, ih]

theorem dataFirst_append_of_hasTrailer {itl : List outItem} (h : hasTrailer itl = false)
    (itl' : List outItem) : DataFirst (itl ++ itl') ↔ DataFirst itl' := by
  induction itl with
  | nil => rfl
  | cons item itl ih =>
    cases item with
    | dataFrame => exact ih h
    | headerFrame => cases h

theorem hasTrailer_append (itl itl' : List outItem) :
    hasTrailer (itl ++ itl') = (hasTrailer itl || hasTrailer itl') := by
  induction itl with
  | nil => rfl
  | cons item itl ih => cases item <;> simp [hasTrailer, ih]

/-- Trailers queued behind a stream's items. -/
theorem dataFirst_append_trailer {itl : List outItem} (h : DataFirst itl) (streamID : Nat)
    (rst : Bool) : DataFirst (itl ++ [outItem.headerFrame streamID true rst]) := by
  induction itl with
  | nil => exact ⟨rfl, rfl⟩
  | cons item itl ih =>
    cases item with
    | dataFrame => exact ih h
    | headerFrame _ endStream _ =>
      obtain ⟨hend, hdata⟩ := h
      rw [List.cons_append]
      exact ⟨hend, by rw [itemsData_append, hdata]; rfl⟩

namespace LoopyEvent

/-- The data an event queues for stream `s`. -/
def dataFor (s : Nat) : LoopyEvent → List (Bytes × Bool)
  | .handle (.dataFrame streamID endStream h d) => if streamID = s then [(h ++ d, endStream)] else []
  | _ => []

/-- The stream an event queues data for. -/
def dataStream : LoopyEvent → Option Nat
  | .handle (.dataFrame streamID ..) => some streamID
  | _ => none

/-- The stream an event starts: a server registers it or aborts it early, a client originates
it. -/
def opens (sd : side) : LoopyEvent → Option Nat
  | .handle (.registerStream streamID) => some streamID
  | .handle (.headerFrame streamID _ _ _) => if sd = .clientSide then some streamID else none
  | .handle (.earlyAbortStream streamID) => some streamID
  | _ => none

/-- Whether an event ends stream `s`: headers with end of stream, or an early abort. -/
def closes (s : Nat) : LoopyEvent → Bool
  | .handle (.headerFrame streamID endStream _ _) => endStream && streamID == s
  | .handle (.earlyAbortStream streamID) => streamID == s
  | _ => false

theorem dataFor_eq_nil {s : Nat} {e : LoopyEvent} (h : e.dataStream ≠ some s) : e.dataFor s = [] := by
  match e with
  | .handle (.dataFrame streamID ..) =>
    simp only [dataStream, ne_eq, Option.some.injEq] at h
    simp [dataFor, h]
  | .handle (.incomingWindowUpdate ..) | .handle (.outgoingWindowUpdate ..)
  | .handle (.incomingSettings ..) | .handle .outgoingSettings | .handle (.headerFrame ..)
  | .handle (.registerStream ..) | .handle (.cleanupStream ..) | .handle (.earlyAbortStream ..)
  | .handle .incomingGoAway | .handle (.ping ..) | .handle (.goAway ..)
  | .handle .outFlowControlSizeRequest | .processData => rfl

end LoopyEvent

/-- The data queued for stream `s` by the events `es`, in order. -/
def queued (es : List LoopyEvent) (s : Nat) : List (Bytes × Bool) :=
  es.flatMap (LoopyEvent.dataFor s)

/-- The streams the events `es` started, in order. -/
def opened (sd : side) (es : List LoopyEvent) : List Nat :=
  es.filterMap (LoopyEvent.opens sd)

/-- Whether one of the events `es` ended stream `s`. -/
def Closed (es : List LoopyEvent) (s : Nat) : Prop :=
  ∃ e ∈ es, e.closes s = true

@[simp] theorem queued_append (es : List LoopyEvent) (e : LoopyEvent) (s : Nat) :
    queued (es ++ [e]) s = queued es s ++ e.dataFor s := by
  simp [queued]

theorem mem_opened_append {sd : side} {es : List LoopyEvent} {e : LoopyEvent} {s : Nat} :
    s ∈ opened sd (es ++ [e]) ↔ s ∈ opened sd es ∨ e.opens sd = some s := by
  simp [opened, eq_comm]

theorem closed_append {es : List LoopyEvent} {e : LoopyEvent} {s : Nat} :
    Closed (es ++ [e]) s ↔ Closed es s ∨ e.closes s = true := by
  simp [Closed]

/-- The event `e` may follow the events `pre`: it starts no stream started before, and it queues
data only for a stream started before and not ended. -/
def Follows (sd : side) (pre : List LoopyEvent) (e : LoopyEvent) : Prop :=
  (match e.opens sd with
    | some s => s ∉ opened sd pre
    | none => True) ∧
  (match e.dataStream with
    | some s => s ∈ opened sd pre ∧ ¬ Closed pre s
    | none => True)

instance Follows.dec (sd : side) (pre : List LoopyEvent) (e : LoopyEvent) :
    Decidable (Follows sd pre e) := by
  unfold Follows Closed
  split <;> split <;> infer_instance

theorem Follows.fresh {sd : side} {pre : List LoopyEvent} {e : LoopyEvent} {s : Nat}
    (h : Follows sd pre e) (hs : e.opens sd = some s) : s ∉ opened sd pre := by
  have h1 := h.1
  rw [hs] at h1
  exact h1

theorem Follows.data {sd : side} {pre : List LoopyEvent} {e : LoopyEvent} {s : Nat}
    (h : Follows sd pre e) (hs : e.dataStream = some s) : s ∈ opened sd pre ∧ ¬ Closed pre s := by
  have h2 := h.2
  rw [hs] at h2
  exact h2

/-- Each of the events `es` may follow `pre` and the events of `es` before it. -/
def OrderFrom (sd : side) : List LoopyEvent → List LoopyEvent → Prop
  | _, [] => True
  | pre, e :: es => Follows sd pre e ∧ OrderFrom sd (pre ++ [e]) es

instance OrderFrom.dec (sd : side) : (pre es : List LoopyEvent) → Decidable (OrderFrom sd pre es)
  | _, [] => isTrue trivial
  | pre, e :: es =>
    have := OrderFrom.dec sd (pre ++ [e]) es
    inferInstanceAs (Decidable (_ ∧ _))

/-- The order in which the transport hands loopy the items of its streams: each event may
follow the events before it. -/
def TransportOrder (sd : side) (es : List LoopyEvent) : Prop :=
  OrderFrom sd [] es

instance TransportOrder.dec (sd : side) (es : List LoopyEvent) : Decidable (TransportOrder sd es) :=
  OrderFrom.dec sd [] es

theorem OrderFrom.of_append {sd : side} :
    ∀ {pre es es' : List LoopyEvent}, OrderFrom sd pre (es ++ es') → OrderFrom sd pre es
  | _, [], _, _ => trivial
  | _, _ :: _, _, ⟨he, hes⟩ => ⟨he, OrderFrom.of_append hes⟩

theorem OrderFrom.last {sd : side} :
    ∀ {pre es : List LoopyEvent} {e : LoopyEvent}, OrderFrom sd pre (es ++ [e]) →
      Follows sd (pre ++ es) e
  | _, [], _, ⟨he, _⟩ => by simpa using he
  | pre, e' :: es, e, ⟨_, hes⟩ => by
    have : Follows sd (pre ++ [e'] ++ es) e := OrderFrom.last hes
    simpa using this

theorem TransportOrder.of_append {sd : side} {es es' : List LoopyEvent}
    (h : TransportOrder sd (es ++ es')) : TransportOrder sd es :=
  OrderFrom.of_append h

theorem TransportOrder.last {sd : side} {es : List LoopyEvent} {e : LoopyEvent}
    (h : TransportOrder sd (es ++ [e])) : Follows sd es e := by
  simpa using OrderFrom.last h

namespace Frame

/-- Whether a frame belongs to the data of stream `s`: a DATA frame of `s`, or a HEADERS frame
of `s` that ends it. -/
def carries (s : Nat) : Frame → Bool
  | .data streamID _ _ => streamID == s
  | .headers streamID endStream => endStream && streamID == s
  | _ => false

/-- The payload a frame carries for stream `s`. -/
def payloadFor (s : Nat) : Frame → Bytes
  | .data streamID _ payload => if streamID = s then payload else []
  | _ => []

theorem payloadFor_eq_nil {s : Nat} {x : Frame} (h : x.carries s = false) : x.payloadFor s = [] := by
  cases x with
  | data streamID _ _ =>
    simp only [carries, beq_eq_false_iff_ne, ne_eq] at h
    simp [payloadFor, h]
  | _ => rfl

end Frame

/-- The payloads of the DATA frames of `out` for stream `s`, in order. -/
def written (out : List Frame) (s : Nat) : Bytes :=
  out.flatMap (Frame.payloadFor s)

@[simp] theorem written_nil (s : Nat) : written [] s = [] := rfl

@[simp] theorem written_append (out fs : List Frame) (s : Nat) :
    written (out ++ fs) s = written out s ++ written fs s := by
  simp [written]

@[simp] theorem written_data (streamID s : Nat) (endStream : Bool) (data : Bytes) :
    written [.data streamID endStream data] s = if streamID = s then data else [] := by
  simp [written, Frame.payloadFor]

theorem written_eq_nil {fs : List Frame} {s : Nat} (h : ∀ x ∈ fs, x.carries s = false) :
    written fs s = [] := by
  simp only [written, List.flatMap_eq_nil_iff]
  exact fun x hx => Frame.payloadFor_eq_nil (h x hx)

/-- Where a frame of `out ++ fs` is: in `out`, with `fs` after it, or in `fs`. -/
theorem frame_mem_append {out fs pre post : List Frame} {x : Frame}
    (h : out ++ fs = pre ++ x :: post) :
    (∃ post', out = pre ++ x :: post' ∧ post = post' ++ fs) ∨
      ∃ fpre, pre = out ++ fpre ∧ fs = fpre ++ x :: post := by
  rcases List.append_eq_append_iff.mp h with ⟨a', hpre, hfs⟩ | ⟨c', hout, hx⟩
  · exact .inr ⟨a', hpre, hfs⟩
  · cases c' with
    | nil => exact .inr ⟨[], by rw [hout]; simp, hx.symm⟩
    | cons y c' =>
      obtain ⟨rfl, rfl⟩ := List.cons.inj hx
      exact .inl ⟨c', hout, rfl⟩

/-- A frame of `out ++ [y]` is in `out` or is `y`, last. -/
theorem frame_mem_append_singleton {out pre post : List Frame} {x y : Frame}
    (h : out ++ [y] = pre ++ x :: post) :
    (∃ post', out = pre ++ x :: post' ∧ post = post' ++ [y]) ∨ (pre = out ∧ x = y ∧ post = []) := by
  rcases frame_mem_append h with hin | ⟨fpre, hpre, hfs⟩
  · exact .inl hin
  · cases fpre with
    | nil =>
      obtain ⟨rfl, rfl⟩ := List.cons.inj hfs
      exact .inr ⟨by rw [hpre, List.append_nil], rfl, rfl⟩
    | cons z fpre =>
      have := (List.cons.inj hfs).2
      simp at this

theorem not_mem_of_carries {fs : List Frame} {s : Nat} (hfs : ∀ x ∈ fs, x.carries s = false)
    {fpre post : List Frame} {x : Frame} (h : fs = fpre ++ x :: post) (hx : x.carries s = true) :
    False := by
  have := hfs x (by rw [h]; simp)
  rw [hx] at this
  cases this

/-! ## The ledger of one stream -/

/-- What holds of stream `s`: whether it was `opened` and `closed`, the data `q` queued for it,
the frames `out` written, and `itl?`, its items if it is established. -/
structure StreamLedger (opened closed : Prop) (q : List (Bytes × Bool)) (out : List Frame)
    (itl? : Option (List outItem)) (s : Nat) : Prop where
  fresh : ¬ opened → q = [] ∧ (∀ x ∈ out, x.carries s = false) ∧ itl? = none
  drained : ∀ itl, itl? = some itl →
    Drained q (written out s) (itemsData itl) ∧ DataFirst itl ∧ (hasTrailer itl = true → closed)
  ordered : written out s <+: flat q
  endStream : ∀ pre payload post, out = pre ++ .data s true payload :: post →
    ∃ qpre b qpost, q = qpre ++ (b, true) :: qpost ∧ flat qpre ++ b = written pre s ++ payload
  trailer : ∀ pre post, out = pre ++ .headers s true :: post →
    written pre s = flat q ∧ written post s = [] ∧ closed ∧
      ∀ itl, itl? = some itl → itemsData itl = []

namespace StreamLedger

variable {o c o' c' : Prop} {q : List (Bytes × Bool)} {out : List Frame}
  {itl? : Option (List outItem)} {s : Nat}

theorem init (s : Nat) : StreamLedger False False [] [] none s where
  fresh _ := ⟨rfl, fun _ h => absurd h List.not_mem_nil, rfl⟩
  drained _ h := by cases h
  ordered := List.prefix_refl _
  endStream _ _ _ h := by simp at h
  trailer _ _ h := by simp at h

/-- Starting or ending the stream only adds to what is known of it. -/
theorem mono (h : StreamLedger o c q out itl? s) (ho : o → o') (hc : c → c') :
    StreamLedger o' c' q out itl? s where
  fresh hno := h.fresh (fun hy => hno (ho hy))
  drained itl hitl := by
    obtain ⟨hd, hfirst, htr⟩ := h.drained itl hitl
    exact ⟨hd, hfirst, fun ht => hc (htr ht)⟩
  ordered := h.ordered
  endStream := h.endStream
  trailer pre post hout := by
    obtain ⟨hw, hpost, hcl, hitl⟩ := h.trailer pre post hout
    exact ⟨hw, hpost, hc hcl, hitl⟩

/-- Frames of other streams, or that carry none of this stream's data, change nothing. -/
theorem emit (h : StreamLedger o c q out itl? s) {fs : List Frame}
    (hfs : ∀ x ∈ fs, x.carries s = false) : StreamLedger o c q (out ++ fs) itl? s where
  fresh hno := by
    obtain ⟨hq, hout, hitl⟩ := h.fresh hno
    refine ⟨hq, fun x hx => ?_, hitl⟩
    rcases List.mem_append.mp hx with hx | hx
    · exact hout x hx
    · exact hfs x hx
  drained itl hitl := by
    rw [written_append, written_eq_nil hfs, List.append_nil]
    exact h.drained itl hitl
  ordered := by
    rw [written_append, written_eq_nil hfs, List.append_nil]
    exact h.ordered
  endStream pre payload post hout := by
    rcases frame_mem_append hout with ⟨post', hout', -⟩ | ⟨fpre, -, hfs'⟩
    · exact h.endStream pre payload post' hout'
    · exact (not_mem_of_carries hfs hfs' (by simp [Frame.carries])).elim
  trailer pre post hout := by
    rcases frame_mem_append hout with ⟨post', hout', rfl⟩ | ⟨fpre, -, hfs'⟩
    · obtain ⟨hw, hpost, hcl, hitl⟩ := h.trailer pre post' hout'
      rw [written_append, hpost, written_eq_nil hfs]
      exact ⟨hw, rfl, hcl, hitl⟩
    · exact (not_mem_of_carries hfs hfs' (by simp [Frame.carries])).elim

/-- A stream started under an id never started before is established with no items. -/
theorem create (h : StreamLedger o c q out itl? s) (hnew : ¬ o) (ho : o') :
    StreamLedger o' c q out (some []) s := by
  obtain ⟨rfl, hout, -⟩ := h.fresh hnew
  have hw : written out s = [] := written_eq_nil hout
  refine ⟨fun hno => absurd ho hno, ?_, by rw [hw]; exact List.prefix_refl _, ?_, ?_⟩
  · intro itl hitl
    cases hitl
    refine ⟨by rw [hw]; exact Drained.nil, trivial, fun h => by cases h⟩
  · intro pre payload post hout'
    have := hout (.data s true payload) (by rw [hout']; simp)
    simp [Frame.carries] at this
  · intro pre post hout'
    have := hout (.headers s true) (by rw [hout']; simp)
    simp [Frame.carries] at this

/-- The stream is no longer established. -/
theorem delete (h : StreamLedger o c q out itl? s) : StreamLedger o c q out none s where
  fresh hno := by
    obtain ⟨hq, hout, -⟩ := h.fresh hno
    exact ⟨hq, hout, rfl⟩
  drained _ h := by cases h
  ordered := h.ordered
  endStream := h.endStream
  trailer pre post hout := by
    obtain ⟨hw, hpost, hcl, -⟩ := h.trailer pre post hout
    exact ⟨hw, hpost, hcl, fun _ h => by cases h⟩

/-- The stream's items replaced by items with the same data. -/
theorem setItems (h : StreamLedger o c q out (some itl) s) {itl' : List outItem}
    (hdata : itemsData itl' = itemsData itl) (hfirst : DataFirst itl')
    (htr : hasTrailer itl' = true → c) : StreamLedger o c q out (some itl') s where
  fresh hno := by
    obtain ⟨-, -, hnone⟩ := h.fresh hno
    cases hnone
  drained itl'' hitl := by
    cases hitl
    rw [hdata]
    exact ⟨(h.drained itl rfl).1, hfirst, htr⟩
  ordered := h.ordered
  endStream := h.endStream
  trailer pre post hout := by
    obtain ⟨hw, hpost, hcl, hitl⟩ := h.trailer pre post hout
    refine ⟨hw, hpost, hcl, fun _ h' => ?_⟩
    cases h'
    rw [hdata]
    exact hitl itl rfl

/-- A chunk queued for a stream that is not ended: behind its items if it is established,
dropped if it is not. -/
theorem push (h : StreamLedger o c q out itl? s) (ho : o) (hc : ¬ c) (x : Bytes × Bool)
    (itl?' : Option (List outItem))
    (hitl : ∀ itl', itl?' = some itl' → ∃ itl item, itl? = some itl ∧ itl' = itl ++ [item] ∧
      itemsData [item] = [x] ∧ hasTrailer [item] = false) :
    StreamLedger o c (q ++ [x]) out itl?' s where
  fresh hno := absurd ho hno
  drained itl' hitl' := by
    obtain ⟨itl, item, hitl₀, rfl, hdata, hitem⟩ := hitl itl' hitl'
    obtain ⟨hd, hfirst, htr⟩ := h.drained itl hitl₀
    -- no trailers are queued, since the stream is not ended
    have hnotr : hasTrailer itl = false := by
      cases ht : hasTrailer itl
      · rfl
      · exact absurd (htr ht) hc
    refine ⟨?_, ?_, ?_⟩
    · rw [itemsData_append, hdata]
      exact hd.push x
    · rw [dataFirst_append_of_hasTrailer hnotr]
      cases item with
      | dataFrame => trivial
      | headerFrame => cases hitem
    · rw [hasTrailer_append, hnotr, hitem]
      exact fun h => by cases h
  ordered := h.ordered.trans (by rw [flat_append]; exact List.prefix_append _ _)
  endStream pre payload post hout := by
    obtain ⟨qpre, b, qpost, hq, hb⟩ := h.endStream pre payload post hout
    exact ⟨qpre, b, qpost ++ [x], boundary_append hq [x], hb⟩
  trailer pre post hout := absurd (h.trailer pre post hout).2.2.1 hc

/-- `n` elements written from the stream's first pending chunk, as one DATA frame with
END_STREAM exactly when the chunk ends the stream and all of it is written. -/
theorem writeData (h : StreamLedger o c q out (some itl) s) {b : Bytes} {f : Bool}
    {P : List (Bytes × Bool)} (hitems : itemsData itl = (b, f) :: P) (n : Nat)
    {itl' : List outItem}
    (hdata : itemsData itl' = if b.length ≤ n then P else (b.drop n, f) :: P)
    (hfirst : DataFirst itl') (htr : hasTrailer itl' = true → c) :
    StreamLedger o c q (out ++ [Frame.data s (f && decide (b.length ≤ n)) (b.take n)]) (some itl')
      s := by
  have hd := (h.drained itl rfl).1
  rw [hitems] at hd
  have hw : written (out ++ [Frame.data s (f && decide (b.length ≤ n)) (b.take n)]) s =
      written out s ++ b.take n := by
    simp
  refine ⟨fun hno => ?_, fun itl'' hitl => ?_, ?_, fun pre payload post hout => ?_,
    fun pre post hout => ?_⟩
  · obtain ⟨-, -, hnone⟩ := h.fresh hno
    cases hnone
  · cases hitl
    rw [hw, hdata]
    exact ⟨hd.write n, hfirst, htr⟩
  · rw [hw]
    exact (hd.write n).isPrefix_flat
  · rcases frame_mem_append_singleton hout with ⟨post', hout', -⟩ | ⟨rfl, hx, -⟩
    · exact h.endStream pre payload post' hout'
    -- the new frame has END_STREAM: the chunk ends the stream and is written whole
    simp only [Frame.data.injEq, true_and] at hx
    obtain ⟨hend, rfl⟩ := hx
    obtain ⟨hf, hlen⟩ := Bool.and_eq_true_iff.mp hend.symm
    subst hf
    rw [List.take_of_length_le (of_decide_eq_true hlen)]
    exact hd.write_all_boundary
  · rcases frame_mem_append_singleton hout with ⟨post', hout', -⟩ | ⟨-, hx, -⟩
    · -- no trailers were written while data is pending
      have := (h.trailer pre post' hout').2.2.2 itl rfl
      rw [hitems] at this
      cases this
    · cases hx

/-- The stream's HEADERS frame with END_STREAM: the stream was started and ended, and all the
data queued for it was written. -/
theorem writeTrailer (h : StreamLedger o c q out itl? s) (ho : o) (hc : c)
    (hdone : written out s = flat q) (hitl : ∀ itl, itl? = some itl → itemsData itl = []) :
    StreamLedger o c q (out ++ [Frame.headers s true]) itl? s := by
  have hw : written (out ++ [Frame.headers s true]) s = written out s := by
    simp [written, Frame.payloadFor]
  refine ⟨fun hno => absurd ho hno, fun itl hitl' => ?_, ?_, fun pre payload post hout => ?_,
    fun pre post hout => ?_⟩
  · rw [hw]
    exact h.drained itl hitl'
  · rw [hw]
    exact h.ordered
  · rcases frame_mem_append_singleton hout with ⟨post', hout', -⟩ | ⟨-, hx, -⟩
    · exact h.endStream pre payload post' hout'
    · cases hx
  · rcases frame_mem_append_singleton hout with ⟨post', hout', rfl⟩ | ⟨rfl, -, rfl⟩
    · obtain ⟨hpre, hpost, hcl, hitl'⟩ := h.trailer pre post' hout'
      refine ⟨hpre, ?_, hcl, hitl'⟩
      rw [written_append, hpost]
      simp [written, Frame.payloadFor]
    · exact ⟨hdone, rfl, hc, hitl⟩

/-- A stream established with no data pending has had all its queued data written. -/
theorem written_eq_flat (h : StreamLedger o c q out (some itl) s) (hempty : itemsData itl = []) :
    written out s = flat q := by
  have := (h.drained itl rfl).1.append_flat
  rwa [hempty, flat_nil, List.append_nil] at this

/-- A stream whose trailers were written had all of its data written before them. -/
theorem written_eq_flat_of_trailer (h : StreamLedger o c q out itl? s)
    (hmem : Frame.headers s true ∈ out) : written out s = flat q := by
  obtain ⟨pre, post, hout⟩ := List.append_of_mem hmem
  obtain ⟨hpre, hpost, -, -⟩ := h.trailer pre post hout
  rw [hout, ← List.singleton_append, written_append, written_append, hpre, hpost]
  simp [written, Frame.payloadFor]

/-- An established stream was started. -/
theorem opened_of_some (h : StreamLedger o c q out (some itl) s) : o := by
  by_contra hno
  obtain ⟨-, -, hnone⟩ := h.fresh hno
  cases hnone

end StreamLedger

/-! ## The ledger of every stream of loopy -/

namespace loopyWriter

/-- The items of stream `s`, if it is established. -/
def itlOf (l : loopyWriter) (s : Nat) : Option (List outItem) :=
  (l.estdStreams.lookup s).map outStream.itl

variable (l : loopyWriter) (id k : Nat) (str : outStream)

theorem itlOf_setStream :
    (l.setStream id str).itlOf k = if k = id then some str.itl else l.itlOf k := by
  unfold itlOf
  rw [lookup_setStream]
  split_ifs <;> rfl

@[simp] theorem itlOf_enqueue : (l.enqueue id).itlOf k = l.itlOf k := rfl

theorem itlOf_deleteStream (hkeys : (l.estdStreams.map Prod.fst).Nodup) :
    (l.deleteStream id).itlOf k = if k = id then none else l.itlOf k := by
  unfold deleteStream
  split
  · unfold itlOf
    rw [Map.lookup_erase _ _ _ hkeys]
    split_ifs <;> rfl
  · rename_i hnone
    split_ifs with hk
    · subst hk
      simp [itlOf, hnone]
    · rfl

theorem itlOf_cleanupStreamHandler (hkeys : (l.estdStreams.map Prod.fst).Nodup) (rst : Bool) :
    (l.cleanupStreamHandler id rst).2.itlOf k = if k = id then none else l.itlOf k := by
  rw [← itlOf_deleteStream l id k hkeys]
  simp only [cleanupStreamHandler]
  split_ifs <;> rfl

/-- `cleanupStreamHandler` writes at most an RST_STREAM, which carries no data. -/
theorem carries_cleanupStreamHandler (rst : Bool) (s : Nat) :
    ∀ x ∈ (l.cleanupStreamHandler id rst).1, x.carries s = false := by
  simp only [cleanupStreamHandler]
  split_ifs <;> simp [Frame.carries]

theorem itlOf_wakeWaiting (order : List Nat) : (l.wakeWaiting order).itlOf k = l.itlOf k := by
  unfold itlOf
  rw [lookup_wakeWaiting, Option.map_map]
  congr 1
  funext str
  simp only [Function.comp_apply]
  split_ifs <;> rfl

theorem itlOf_applySettings : ∀ (ss : List Setting) (l : loopyWriter),
    (l.applySettings ss).itlOf k = l.itlOf k
  | [], _ => rfl
  | .initialWindowSize val order :: ss, l => by
    simp only [applySettings]
    rw [itlOf_applySettings ss]
    split_ifs
    · exact itlOf_wakeWaiting _ k order
    · rfl
  | .headerTableSize _ :: ss, l => itlOf_applySettings ss l
  | .other :: ss, l => itlOf_applySettings ss l

end loopyWriter

open loopyWriter

/-- The ledger of stream `s` after the events `es`, which wrote `out` and left loopy in `l`. -/
def LedgerAt (sd : side) (es : List LoopyEvent) (out : List Frame) (l : loopyWriter) (s : Nat) :
    Prop :=
  StreamLedger (s ∈ opened sd es) (Closed es s) (queued es s) out (l.itlOf s) s

section Steps

variable {sd : side} {es : List LoopyEvent} {out : List Frame} {l l' : loopyWriter} {s : Nat}
  {e : LoopyEvent}

/-- An event that queues nothing for `s`, frames that carry nothing of it, and its items as they
were. -/
theorem LedgerAt.quiet (h : LedgerAt sd es out l s) (hdata : e.dataFor s = []) {fs : List Frame}
    (hfs : ∀ x ∈ fs, x.carries s = false) (hitl : l'.itlOf s = l.itlOf s) :
    LedgerAt sd (es ++ [e]) (out ++ fs) l' s := by
  unfold LedgerAt
  rw [queued_append, hdata, List.append_nil, hitl]
  exact (h.mono (fun ho => mem_opened_append.mpr (.inl ho))
    (fun hc => closed_append.mpr (.inl hc))).emit hfs

/-- The ledger after an event that queues nothing for `s`, before its frames and its change of
the items of `s`. -/
theorem LedgerAt.after (h : LedgerAt sd es out l s) (hdata : e.dataFor s = []) :
    StreamLedger (s ∈ opened sd (es ++ [e])) (Closed (es ++ [e]) s) (queued (es ++ [e]) s) out
      (l.itlOf s) s := by
  rw [queued_append, hdata, List.append_nil]
  exact h.mono (fun ho => mem_opened_append.mpr (.inl ho)) (fun hc => closed_append.mpr (.inl hc))

/-- A stream started by `e` under an id never started before. -/
theorem LedgerAt.start (h : LedgerAt sd es out l s) (hnew : s ∉ opened sd es)
    (hopen : e.opens sd = some s) (hdata : e.dataFor s = []) :
    StreamLedger (s ∈ opened sd (es ++ [e])) (Closed (es ++ [e]) s) (queued (es ++ [e]) s) out
      (some []) s := by
  rw [queued_append, hdata, List.append_nil]
  exact (h.create hnew (mem_opened_append.mpr (.inr hopen))).mono (fun ho => ho)
    (fun hc => closed_append.mpr (.inl hc))

end Steps

theorem itlOf_of_lookup {l : loopyWriter} {id : Nat} {str : outStream}
    (h : l.estdStreams.lookup id = some str) : l.itlOf id = some str.itl := by
  simp [itlOf, h]

theorem carries_writeHeader {id s : Nat} (endStream : Bool) (hs : s ≠ id) :
    ∀ x ∈ writeHeader id endStream, x.carries s = false := by
  have hs' : (id == s) = false := beq_eq_false_iff_ne.mpr (Ne.symm hs)
  simp [writeHeader, Frame.carries, hs']

theorem itlOf_incomingWindowUpdateHandler (l : loopyWriter) (id k : Nat) (increment : UInt32) :
    (l.incomingWindowUpdateHandler id increment).2.itlOf k = l.itlOf k := by
  unfold incomingWindowUpdateHandler
  split_ifs
  · rfl
  split
  · rename_i str hstr
    -- only the stream's quota and state change
    have hsame : (l.setStream id { str with bytesOutStanding := str.bytesOutStanding - increment.toNat }).itlOf k = l.itlOf k := by
      rw [itlOf_setStream]
      split_ifs with hk
      · rw [hk, itlOf_of_lookup hstr]
      · rfl
    dsimp only
    split_ifs
    · rw [itlOf_enqueue, itlOf_setStream]
      split_ifs with hk
      · rw [hk, itlOf_of_lookup hstr]
      · rfl
    · exact hsame
  · rfl

/-! ## One lemma per handler -/

section Handlers

variable {sd : side} {es : List LoopyEvent} {out : List Frame} {l : loopyWriter} {s : Nat}

theorem LedgerAt.registerStreamHandler (h : LedgerAt sd es out l s) {id : Nat}
    (hfol : Follows sd es (.handle (.registerStream id))) :
    LedgerAt sd (es ++ [LoopyEvent.handle (.registerStream id)]) (out ++ (l.registerStreamHandler id).1)
      (l.registerStreamHandler id).2 s := by
  show LedgerAt sd _ (out ++ []) (l.setStream id ⟨id, .empty, [], 0⟩) s
  by_cases hs : s = id
  · subst hs
    unfold LedgerAt
    rw [itlOf_setStream, if_pos rfl, List.append_nil]
    exact h.start (hfol.fresh rfl) rfl rfl
  · exact h.quiet rfl (by simp) (by rw [itlOf_setStream, if_neg hs])

theorem LedgerAt.cleanupStreamHandler (hi : LoopyInv l) (h : LedgerAt sd es out l s)
    (id : Nat) (rst : Bool) :
    LedgerAt sd (es ++ [LoopyEvent.handle (.cleanupStream id rst)])
      (out ++ (l.cleanupStreamHandler id rst).1) (l.cleanupStreamHandler id rst).2 s := by
  by_cases hs : s = id
  · subst hs
    unfold LedgerAt
    rw [itlOf_cleanupStreamHandler _ _ _ hi.keys_nodup, if_pos rfl]
    exact ((h.after rfl).emit (carries_cleanupStreamHandler _ _ _ _)).delete
  · exact h.quiet rfl (carries_cleanupStreamHandler _ _ _ _)
      (by rw [itlOf_cleanupStreamHandler _ _ _ hi.keys_nodup, if_neg hs])

theorem LedgerAt.earlyAbortStreamHandler (h : LedgerAt sd es out l s)
    {id : Nat} (hfol : Follows sd es (.handle (.earlyAbortStream id))) :
    LedgerAt sd (es ++ [LoopyEvent.handle (.earlyAbortStream id)])
      (out ++ (l.earlyAbortStreamHandler id).1) (l.earlyAbortStreamHandler id).2 s := by
  unfold loopyWriter.earlyAbortStreamHandler
  split
  · exact h.quiet rfl (by simp) rfl
  by_cases hs : s = id
  · subst hs
    -- a stream never started: nothing was queued or written for it
    obtain ⟨hq, hout, hitl⟩ := h.fresh (hfol.fresh rfl)
    have hsl := h.after (e := .handle (.earlyAbortStream s)) rfl
    unfold LedgerAt
    show StreamLedger _ _ _ (out ++ [Frame.headers s true]) (l.itlOf s) s
    refine hsl.writeTrailer (mem_opened_append.mpr (.inr rfl))
      (closed_append.mpr (.inr (by simp [LoopyEvent.closes]))) ?_ (by rw [hitl]; simp)
    rw [queued_append, hq, written_eq_nil hout]
    rfl
  · exact h.quiet rfl (carries_writeHeader true hs) rfl

theorem LedgerAt.preprocessData (h : LedgerAt sd es out l s) {id : Nat} {endStream : Bool}
    {hh dd : Bytes} (hfol : Follows sd es (.handle (.dataFrame id endStream hh dd))) :
    LedgerAt sd (es ++ [LoopyEvent.handle (.dataFrame id endStream hh dd)])
      (out ++ (l.preprocessData id endStream hh dd).1) (l.preprocessData id endStream hh dd).2 s := by
  by_cases hs : s = id
  · subst hs
    obtain ⟨ho, hnc⟩ := hfol.data rfl
    have hsl : StreamLedger (s ∈ opened sd (es ++ [LoopyEvent.handle (.dataFrame s endStream hh dd)]))
        (Closed (es ++ [LoopyEvent.handle (.dataFrame s endStream hh dd)]) s) (queued es s) out (l.itlOf s) s :=
      h.mono (fun ho => mem_opened_append.mpr (.inl ho)) (fun hc => closed_append.mpr (.inl hc))
    have hc : ¬ Closed (es ++ [LoopyEvent.handle (.dataFrame s endStream hh dd)]) s := by
      rw [closed_append]
      rintro (hc | hc)
      · exact hnc hc
      · cases hc
    unfold LedgerAt
    rw [queued_append, show LoopyEvent.dataFor s (.handle (.dataFrame s endStream hh dd)) =
      [(hh ++ dd, endStream)] by simp [LoopyEvent.dataFor]]
    unfold loopyWriter.preprocessData
    split
    · -- a stream no longer established: the data is dropped
      rename_i hnone
      rw [List.append_nil]
      refine hsl.push (mem_opened_append.mpr (.inl ho)) hc _ _ (fun itl' hitl' => ?_)
      simp [itlOf, hnone] at hitl'
    · rename_i str hstr
      -- the data waits behind the stream's items
      have hpush := hsl.push (mem_opened_append.mpr (.inl ho)) hc (hh ++ dd, endStream)
        (some (str.itl ++ [outItem.dataFrame s endStream hh dd]))
        (fun itl' hitl' => ⟨str.itl, _, itlOf_of_lookup hstr, (Option.some.inj hitl').symm, rfl,
          rfl⟩)
      dsimp only
      split_ifs
      · rw [List.append_nil, itlOf_enqueue, itlOf_setStream, if_pos rfl]
        exact hpush
      · rw [List.append_nil, itlOf_setStream, if_pos rfl]
        exact hpush
  · have hdata : LoopyEvent.dataFor s (.handle (.dataFrame id endStream hh dd)) = [] := by
      simp [LoopyEvent.dataFor, Ne.symm hs]
    unfold loopyWriter.preprocessData
    split
    · exact h.quiet hdata (by simp) rfl
    · dsimp only
      split_ifs
      · exact h.quiet hdata (by simp) (by rw [itlOf_enqueue, itlOf_setStream, if_neg hs])
      · exact h.quiet hdata (by simp) (by rw [itlOf_setStream, if_neg hs])

theorem LedgerAt.headerHandler (hi : LoopyInv l) (hside : l.side = sd) (h : LedgerAt sd es out l s)
    {id : Nat} {endStream : Bool} {initStream : initResult} {rst : Bool}
    (hfol : Follows sd es (.handle (.headerFrame id endStream initStream rst))) :
    LedgerAt sd (es ++ [LoopyEvent.handle (.headerFrame id endStream initStream rst)])
      (out ++ (l.headerHandler id endStream initStream rst).1)
      (l.headerHandler id endStream initStream rst).2 s := by
  have hdata : LoopyEvent.dataFor s (.handle (.headerFrame id endStream initStream rst)) = [] := rfl
  have hcloses : endStream = true →
      Closed (es ++ [LoopyEvent.handle (.headerFrame id endStream initStream rst)]) id := by
    rintro rfl
    exact closed_append.mpr (.inr (by simp [LoopyEvent.closes]))
  unfold loopyWriter.headerHandler
  split
  · split
    · exact h.quiet hdata (by simp) rfl
    rename_i str hstr
    split_ifs with hend hne
    · -- case 1.A: response headers, which do not end the stream
      have hf : endStream = false := by simpa using hend
      exact h.quiet hdata (by simp [writeHeader, Frame.carries, hf]) rfl
    · -- case 1.B: the trailers wait behind the stream's data
      have ht : endStream = true := by simpa using hend
      by_cases hs : s = id
      · subst hs
        have hsl := h.after hdata
        rw [itlOf_of_lookup hstr] at hsl
        obtain ⟨-, hfirst, -⟩ := hsl.drained _ rfl
        unfold LedgerAt
        rw [itlOf_setStream, if_pos rfl, List.append_nil]
        refine hsl.setItems (by simp [itemsData]) ?_ (fun _ => hcloses ht)
        rw [ht]
        exact dataFirst_append_trailer hfirst s rst
      · exact h.quiet hdata (by simp) (by rw [itlOf_setStream, if_neg hs])
    · -- case 1.B on a stream with nothing queued: the trailers are written and it is closed
      have ht : endStream = true := by simpa using hend
      subst ht
      by_cases hs : s = id
      · subst hs
        have hnil := (hi.streams s str hstr).empty_itl (not_not.mp hne)
        have hsl := h.after hdata
        rw [itlOf_of_lookup hstr, hnil] at hsl
        unfold LedgerAt
        dsimp only
        rw [itlOf_cleanupStreamHandler _ _ _ hi.keys_nodup, if_pos rfl, writeHeader,
          ← List.append_assoc]
        exact ((hsl.writeTrailer hsl.opened_of_some (hcloses rfl) (hsl.written_eq_flat rfl)
          (fun _ h => by cases h; rfl)).emit (carries_cleanupStreamHandler _ _ _ _)).delete
      · refine h.quiet hdata (fun x hx => ?_)
          (by rw [itlOf_cleanupStreamHandler _ _ _ hi.keys_nodup, if_neg hs])
        rcases List.mem_append.mp hx with hx | hx
        · exact carries_writeHeader true hs x hx
        · exact carries_cleanupStreamHandler _ _ _ _ x hx
  · -- case 2: the client originates the stream
    rename_i hclient
    unfold originateStream
    split
    · by_cases hs : s = id
      · subst hs
        have hopen : LoopyEvent.opens sd (.handle (.headerFrame s endStream .ok rst)) =
            some s := by
          simp [LoopyEvent.opens, ← hside, hclient]
        have hsl := h.start (hfol.fresh hopen) hopen hdata
        unfold LedgerAt
        show StreamLedger _ _ _ _ ((l.setStream s ⟨s, .empty, [], 0⟩).itlOf s) s
        rw [itlOf_setStream, if_pos rfl]
        cases endStream with
        | true =>
          exact hsl.writeTrailer hsl.opened_of_some (hcloses rfl) (hsl.written_eq_flat rfl)
            (fun _ h => by cases h; rfl)
        | false => exact hsl.emit (by simp [writeHeader, Frame.carries])
      · exact h.quiet hdata (carries_writeHeader endStream hs)
          (show (l.setStream id ⟨id, .empty, [], 0⟩).itlOf s = _ by rw [itlOf_setStream, if_neg hs])
    · exact h.quiet hdata (by simp) rfl
    · exact h.quiet hdata (by simp) rfl

end Handlers

/-! ## `processData` -/

/-- What `processData` takes from a data frame's `h` and `d` with room for `maxSize` bytes: the
first `hSize + dSize` bytes of `h ++ d`, which leaves the rest. -/
theorem slice_spec {h d : Bytes} {maxSize hSize dSize : Nat} (hh : hSize = min maxSize h.length)
    (hd : dSize = min (maxSize - hSize) d.length) :
    (if hSize ≠ 0 then (if dSize = 0 then h else h.take hSize ++ d.take dSize) else d).take
        (hSize + dSize) = (h ++ d).take (hSize + dSize) ∧
      h.drop hSize ++ d.drop dSize = (h ++ d).drop (hSize + dSize) := by
  by_cases hlt : maxSize < h.length
  · -- the frame is filled from `h` alone
    obtain rfl : hSize = maxSize := by omega
    obtain rfl : dSize = 0 := by omega
    have hle : hSize ≤ h.length := le_of_lt hlt
    refine ⟨?_, by rw [List.drop_zero, Nat.add_zero, List.drop_append_of_le_length hle]⟩
    by_cases h0 : hSize = 0
    · simp [h0]
    · rw [if_pos h0, if_pos rfl, Nat.add_zero, List.take_append_of_le_length hle]
  · -- all of `h` and as much of `d` as fits
    obtain rfl : hSize = h.length := by omega
    refine ⟨?_, by rw [List.drop_length, List.nil_append, List.drop_length_add_append]⟩
    rw [List.take_length_add_append]
    by_cases h0 : h.length = 0
    · rw [if_neg (not_not.mpr h0), List.length_eq_zero_iff.mp h0]
      simp
    · rw [if_pos h0]
      split_ifs with hd0
      · rw [hd0, Nat.add_zero, List.take_length, List.take_zero, List.append_nil]
      · rw [List.take_length,
          List.take_of_length_le (by rw [List.length_append, List.length_take]; omega)]

namespace StreamLedger

variable {o c : Prop} {q : List (Bytes × Bool)} {out : List Frame} {s : Nat}

/-- The DATA frame `processData` writes from the stream's first data frame, and what is left of
that data frame. -/
theorem writeSlice {f : Bool} {h d : Bytes} {itl : List outItem}
    (hsl : StreamLedger o c q out (some (.dataFrame s f h d :: itl)) s)
    {maxSize hSize dSize : Nat} (hh : hSize = min maxSize h.length)
    (hd : dSize = min (maxSize - hSize) d.length) :
    StreamLedger o c q
      (out ++ [Frame.data s (f && decide (h.length + d.length ≤ hSize + dSize))
        ((if hSize ≠ 0 then (if dSize = 0 then h else h.take hSize ++ d.take dSize) else d).take
          (hSize + dSize))])
      (some (if (h.drop hSize).length = 0 ∧ (d.drop dSize).length = 0 then itl
        else .dataFrame s f (h.drop hSize) (d.drop dSize) :: itl)) s := by
  obtain ⟨htake, hdrop⟩ := slice_spec hh hd
  obtain ⟨-, hfirst, htr⟩ := hsl.drained _ rfl
  have hlen : (h ++ d).length = h.length + d.length := List.length_append
  rw [htake, ← hlen]
  refine hsl.writeData (b := h ++ d) rfl (hSize + dSize) ?_ ?_ ?_
  · -- nothing is left of the data frame exactly when all of `h ++ d` was written
    have hleft : ((h.drop hSize).length = 0 ∧ (d.drop dSize).length = 0) ↔
        (h ++ d).length ≤ hSize + dSize := by
      simp only [List.length_drop, List.length_append]
      omega
    by_cases hall : (h ++ d).length ≤ hSize + dSize
    · rw [if_pos (hleft.mpr hall), if_pos hall]
    · rw [if_neg (mt hleft.mp hall), if_neg hall, itemsData, hdrop]
  · split_ifs <;> exact hfirst
  · split_ifs <;> exact htr

/-- The trailers at the head of the stream's items, written with the stream's cleanup. -/
theorem writeTrailerItem {l₁ : loopyWriter} (str : outStream) {tID : Nat} {tEnd rst : Bool}
    {rest : List outItem} (hsl : StreamLedger o c q out (some str.itl) s)
    (hitl : str.itl = .headerFrame tID tEnd rst :: rest) (htid : tID = s)
    (hkeys : (l₁.estdStreams.map Prod.fst).Nodup) :
    StreamLedger o c q (out ++ ((l₁.setStream s str).writeTrailer tID tEnd rst).1)
      (((l₁.setStream s str).writeTrailer tID tEnd rst).2.itlOf s) s := by
  subst htid
  obtain ⟨-, hfirst, htr⟩ := hsl.drained _ rfl
  rw [hitl] at hfirst htr
  -- trailers end the stream and nothing is queued behind them
  obtain ⟨rfl, hempty⟩ := hfirst
  have hempty' : itemsData str.itl = [] := by rw [hitl]; exact hempty
  simp only [loopyWriter.writeTrailer, loopyWriter.writeHeader]
  rw [itlOf_cleanupStreamHandler _ _ _ (keys_nodup_setStream _ _ _ hkeys), if_pos rfl,
    ← List.append_assoc]
  exact ((hsl.writeTrailer hsl.opened_of_some (htr rfl) (hsl.written_eq_flat hempty')
    (fun _ h => by cases h; exact hempty')).emit (carries_cleanupStreamHandler _ _ _ _)).delete

/-- After a write the stream keeps its items, unless its trailers come next: then they are
written and the stream is cleaned up. -/
theorem afterWrite {l₁ : loopyWriter} {str : outStream} {fs : List Frame}
    (hsl : StreamLedger o c q (out ++ fs) (some str.itl) s)
    (hitems : ∀ item ∈ str.itl, item.streamID = s) (hkeys : (l₁.estdStreams.map Prod.fst).Nodup) :
    StreamLedger o c q (out ++ (l₁.afterWrite s str fs).2.1)
      ((l₁.afterWrite s str fs).2.2.itlOf s) s := by
  unfold loopyWriter.afterWrite
  split
  · rw [itlOf_setStream, if_pos rfl]
    exact hsl
  · rename_i tID tEnd rst rest hitl
    have htid : tID = s := hitems (.headerFrame tID tEnd rst) (by rw [hitl]; exact List.mem_cons_self)
    dsimp only
    rw [← List.append_assoc]
    exact hsl.writeTrailerItem str hitl htid hkeys
  · split_ifs
    · rw [itlOf_setStream, if_pos rfl]
      exact hsl
    · rw [itlOf_enqueue, itlOf_setStream, if_pos rfl]
      exact hsl

end StreamLedger

/-- The trailers of stream `id` carry nothing of another stream and leave its items. -/
theorem writeTrailer_other {l₁ : loopyWriter} {id k : Nat} {tEnd rst : Bool} (hk : k ≠ id)
    (hkeys : (l₁.estdStreams.map Prod.fst).Nodup) :
    (∀ x ∈ (l₁.writeTrailer id tEnd rst).1, x.carries k = false) ∧
      (l₁.writeTrailer id tEnd rst).2.itlOf k = l₁.itlOf k := by
  simp only [writeTrailer]
  refine ⟨fun x hx => ?_, by rw [itlOf_cleanupStreamHandler _ _ _ hkeys, if_neg hk]⟩
  rcases List.mem_append.mp hx with hx | hx
  · exact carries_writeHeader tEnd hk x hx
  · exact carries_cleanupStreamHandler _ _ _ _ x hx

/-- What `afterWrite` does to another stream: nothing. -/
theorem afterWrite_other {l₁ : loopyWriter} {id k : Nat} {str : outStream} {fs : List Frame}
    (hk : k ≠ id) (hkeys : (l₁.estdStreams.map Prod.fst).Nodup)
    (hitems : ∀ item ∈ str.itl, item.streamID = id) (hfs : ∀ x ∈ fs, x.carries k = false) :
    (∀ x ∈ (l₁.afterWrite id str fs).2.1, x.carries k = false) ∧
      (l₁.afterWrite id str fs).2.2.itlOf k = l₁.itlOf k := by
  unfold loopyWriter.afterWrite
  split
  · exact ⟨hfs, by rw [itlOf_setStream, if_neg hk]⟩
  · rename_i tID tEnd rst rest hitl
    have htid : tID = id := hitems (.headerFrame tID tEnd rst) (by rw [hitl]; exact List.mem_cons_self)
    subst htid
    obtain ⟨hcarry, hitl'⟩ := @writeTrailer_other (l₁.setStream tID str) tID k tEnd rst hk
      (keys_nodup_setStream _ _ _ hkeys)
    refine ⟨fun x hx => ?_, by rw [hitl', itlOf_setStream, if_neg hk]⟩
    rcases List.mem_append.mp hx with hx | hx
    · exact hfs x hx
    · exact hcarry x hx
  · split_ifs
    · exact ⟨hfs, by rw [itlOf_setStream, if_neg hk]⟩
    · exact ⟨hfs, by rw [itlOf_enqueue, itlOf_setStream, if_neg hk]⟩

theorem carries_data_other {id s : Nat} (hs : s ≠ id) (endStream : Bool) (payload : Bytes) :
    ∀ x ∈ [Frame.data id endStream payload], x.carries s = false := by
  have hs' : (id == s) = false := beq_eq_false_iff_ne.mpr (Ne.symm hs)
  simp [Frame.carries, hs']



section ProcessData

variable {sd : side} {es : List LoopyEvent} {out : List Frame} {l : loopyWriter} {s : Nat}

/-- `processData` writes the next piece of the stream it takes off `activeStreams` and leaves
every other stream as it was. -/
theorem LedgerAt.processData (hi : LoopyInv l) (h : LedgerAt sd es out l s) :
    LedgerAt sd (es ++ [LoopyEvent.processData]) (out ++ l.processData.2.1) l.processData.2.2 s := by
  have hsl := h.after (e := .processData) rfl
  unfold loopyWriter.processData
  split_ifs with hzero
  · exact h.quiet rfl (by simp) rfl
  split
  · exact h.quiet rfl (by simp) rfl
  rename_i id rest hact
  dsimp only
  split
  · exact h.quiet rfl (by simp) rfl
  rename_i str hstr
  have hok := hi.streams id str hstr
  have hkeys : ({ l with activeStreams := rest }.estdStreams.map Prod.fst).Nodup := hi.keys_nodup
  split
  swap
  · exact h.quiet rfl (by simp) rfl
  rename_i sid f hh dd itl hitl
  have hsid : sid = id :=
    hok.items_id (.dataFrame sid f hh dd) (by rw [hitl]; exact List.mem_cons_self)
  subst hsid
  have hitems : ∀ item ∈ itl, item.streamID = sid :=
    fun item hm => hok.items_id item (by rw [hitl]; exact List.mem_cons_of_mem _ hm)
  -- the items left after a write belong to the stream
  have hitems' : ∀ (p : Prop) [Decidable p] (h' d' : Bytes), ∀ item ∈ (if p then itl
      else .dataFrame sid f h' d' :: itl), item.streamID = sid := by
    intro p _ h' d' item hm
    split_ifs at hm
    · exact hitems item hm
    · rcases List.mem_cons.mp hm with rfl | hm
      · rfl
      · exact hitems item hm
  by_cases hs : s = sid
  · subst hs
    have hsl' := hsl
    rw [itlOf_of_lookup hstr, hitl] at hsl'
    unfold LedgerAt
    by_cases hempty : hh.length = 0 ∧ dd.length = 0
    · rw [if_pos hempty]
      obtain ⟨hh0, dd0⟩ := hempty
      rw [List.length_eq_zero_iff] at hh0 dd0
      subst hh0 dd0
      obtain ⟨-, hfirst, htr⟩ := hsl'.drained _ rfl
      -- an empty data frame is written as an empty DATA frame
      have hw := hsl'.writeData (b := []) (P := itemsData itl) rfl 0 (by simp)
        (show DataFirst itl from hfirst) (show hasTrailer itl = true → _ from htr)
      simp only [List.length_nil, le_refl, decide_true, Bool.and_true, List.take_zero] at hw
      split
      · rw [itlOf_setStream, if_pos rfl]
        exact hw
      · rename_i tID tEnd rst tail
        dsimp only
        rw [← List.append_assoc]
        exact hw.writeTrailerItem { str with itl := .headerFrame tID tEnd rst :: tail }
          rfl (hitems (.headerFrame tID tEnd rst) List.mem_cons_self) hkeys
      · rw [itlOf_enqueue, itlOf_setStream, if_pos rfl]
        exact hw
    · rw [if_neg hempty]
      split
      · -- no quota: the stream is parked with its items
        rw [List.append_nil, itlOf_setStream, if_pos rfl]
        show StreamLedger _ _ _ _ (some str.itl) s
        rw [hitl]
        exact hsl'
      · exact StreamLedger.afterWrite (hsl'.writeSlice rfl rfl) (hitems' _ _ _) hkeys
  · -- another stream: the frames are the stream `sid`'s and its items are as they were
    by_cases hempty : hh.length = 0 ∧ dd.length = 0
    · rw [if_pos hempty]
      split
      · exact h.quiet rfl (carries_data_other hs _ _) (by rw [itlOf_setStream, if_neg hs]; rfl)
      · rename_i tID tEnd rst tail
        have htid : tID = sid := hitems (.headerFrame tID tEnd rst) List.mem_cons_self
        subst htid
        have hother := @writeTrailer_other ({ l with activeStreams := rest }.setStream tID
          { str with itl := .headerFrame tID tEnd rst :: tail }) tID s tEnd rst hs
          (keys_nodup_setStream _ _ _ hkeys)
        refine h.quiet rfl (fun x hx => ?_) ?_
        · rcases List.mem_append.mp hx with hx | hx
          · exact carries_data_other hs _ _ x hx
          · exact hother.1 x hx
        · -- the error the cleanup may set is dropped, which leaves the items as they are
          exact hother.2.trans (by rw [itlOf_setStream, if_neg hs]; rfl)
      · exact h.quiet rfl (carries_data_other hs _ _)
          (by rw [itlOf_enqueue, itlOf_setStream, if_neg hs]; rfl)
    · rw [if_neg hempty]
      split
      · exact h.quiet rfl (by simp) (by rw [itlOf_setStream, if_neg hs]; rfl)
      · refine h.quiet rfl (fun x hx => ?_) ?_
        · exact (afterWrite_other hs (by exact hi.keys_nodup) (by exact hitems' _ _ _)
            (carries_data_other hs _ _)).1 x hx
        · exact (afterWrite_other hs (by exact hi.keys_nodup) (by exact hitems' _ _ _)
            (carries_data_other hs _ _)).2

end ProcessData

/-! ## Every step of loopy -/

namespace loopyWriter

variable (l : loopyWriter) (id : Nat) (str : outStream)

theorem incomingWindowUpdateHandler_fst (increment : UInt32) :
    (l.incomingWindowUpdateHandler id increment).1 = [] := by
  unfold incomingWindowUpdateHandler
  split_ifs
  · rfl
  split
  · dsimp only
    split_ifs <;> rfl
  · rfl

@[simp] theorem side_setStream : (l.setStream id str).side = l.side := rfl

@[simp] theorem side_enqueue : (l.enqueue id).side = l.side := rfl

theorem side_deleteStream : (l.deleteStream id).side = l.side := by
  unfold deleteStream
  split <;> rfl

theorem side_cleanupStreamHandler (rst : Bool) :
    (l.cleanupStreamHandler id rst).2.side = l.side := by
  simp only [cleanupStreamHandler]
  split_ifs <;> exact side_deleteStream l id

theorem side_writeTrailer (endStream rst : Bool) :
    (l.writeTrailer id endStream rst).2.side = l.side :=
  side_cleanupStreamHandler l id rst

theorem side_afterWrite (fs : List Frame) : (l.afterWrite id str fs).2.2.side = l.side := by
  unfold afterWrite
  split
  · rfl
  · dsimp only
    exact side_writeTrailer _ _ _ _
  · split_ifs <;> rfl

theorem side_wakeWaiting (order : List Nat) :
    ∀ (l : loopyWriter), (l.wakeWaiting order).side = l.side := by
  induction order with
  | nil => intro l; rfl
  | cons id order ih =>
    intro l
    simp only [wakeWaiting, List.foldl_cons] at ih ⊢
    rw [ih]
    split
    · split_ifs <;> rfl
    · rfl

theorem side_applySettings : ∀ (ss : List Setting) (l : loopyWriter),
    (l.applySettings ss).side = l.side
  | [], _ => rfl
  | .initialWindowSize val order :: ss, l => by
    simp only [applySettings]
    rw [side_applySettings ss]
    split_ifs
    · exact side_wakeWaiting order _
    · rfl
  | .headerTableSize _ :: ss, l => side_applySettings ss l
  | .other :: ss, l => side_applySettings ss l

theorem side_handle (i : controlItem) : (l.handle i).2.side = l.side := by
  cases i with
  | incomingWindowUpdate streamID increment =>
    simp only [handle, incomingWindowUpdateHandler]
    split_ifs
    · rfl
    split
    · split_ifs <;> rfl
    · rfl
  | incomingSettings ss => exact side_applySettings ss l
  | headerFrame streamID endStream initStream rst =>
    simp only [handle, headerHandler]
    split
    · split
      · rfl
      split_ifs
      · rfl
      · rfl
      · exact side_cleanupStreamHandler _ _ _
    · simp only [originateStream]
      split <;> rfl
  | cleanupStream streamID rst => exact side_cleanupStreamHandler l streamID rst
  | earlyAbortStream streamID =>
    simp only [handle, earlyAbortStreamHandler]
    split <;> rfl
  | incomingGoAway =>
    simp only [handle, incomingGoAwayHandler]
    split
    · split_ifs <;> rfl
    · rfl
  | dataFrame streamID endStream h d =>
    simp only [handle, preprocessData]
    split
    · rfl
    · split_ifs <;> rfl
  | goAway draining =>
    simp only [handle, goAwayHandler]
    split <;> rfl
  | outgoingWindowUpdate | outgoingSettings | registerStream | ping | outFlowControlSizeRequest =>
    rfl

theorem side_processData : l.processData.2.2.side = l.side := by
  unfold processData
  split_ifs
  · rfl
  split
  · rfl
  dsimp only
  split
  · rfl
  split
  · split
    · split
      · rfl
      · exact side_writeTrailer _ _ _ _
      · rfl
    · split
      · rfl
      · exact side_afterWrite _ _ _ _
  · rfl

theorem side_step (e : LoopyEvent) : (l.step e).2.side = l.side := by
  unfold step
  split_ifs
  · rfl
  cases e with
  | handle i => exact side_handle l i
  | processData => exact side_processData l

end loopyWriter

section Run

variable {sd : side} {es : List LoopyEvent} {out : List Frame} {l : loopyWriter} {s : Nat}

theorem LedgerAt.handle (hi : LoopyInv l) (hside : l.side = sd) (h : LedgerAt sd es out l s)
    (i : controlItem) (hfol : Follows sd es (.handle i)) :
    LedgerAt sd (es ++ [LoopyEvent.handle i]) (out ++ (l.handle i).1) (l.handle i).2 s := by
  cases i with
  | incomingWindowUpdate streamID increment =>
    exact h.quiet rfl (by simp [loopyWriter.handle, incomingWindowUpdateHandler_fst])
      (itlOf_incomingWindowUpdateHandler l streamID s increment)
  | incomingSettings ss =>
    exact h.quiet rfl (by simp [loopyWriter.handle, incomingSettingsHandler, Frame.carries])
      (itlOf_applySettings s ss l)
  | headerFrame streamID endStream initStream rst => exact h.headerHandler hi hside hfol
  | registerStream streamID => exact h.registerStreamHandler hfol
  | cleanupStream streamID rst => exact h.cleanupStreamHandler hi streamID rst
  | earlyAbortStream streamID => exact h.earlyAbortStreamHandler hfol
  | dataFrame streamID endStream hh dd => exact h.preprocessData hfol
  | incomingGoAway =>
    simp only [loopyWriter.handle, incomingGoAwayHandler]
    split
    · split_ifs
      · exact h.quiet rfl (by simp) rfl
      · exact h.quiet rfl (by simp) rfl
    · exact h.quiet rfl (by simp) rfl
  | goAway draining =>
    simp only [loopyWriter.handle, goAwayHandler]
    split
    · exact h.quiet rfl (by simp) rfl
    · exact h.quiet rfl (by simp) rfl
  | outgoingWindowUpdate | outgoingSettings | ping | outFlowControlSizeRequest =>
    exact h.quiet rfl (by simp [loopyWriter.handle, Frame.carries]) rfl

/-- The ledger of every stream.  Once loopy has stopped it writes nothing more, so what was left
of a stream's items no longer counts as pending. -/
def OrderInv (sd : side) (es : List LoopyEvent) (out : List Frame) (l : loopyWriter) : Prop :=
  l.side = sd ∧ ∀ s, StreamLedger (s ∈ opened sd es) (Closed es s) (queued es s) out
    (if l.err = none then l.itlOf s else none) s

theorem orderInv_newLoopyWriter (sd : side) : OrderInv sd [] [] (newLoopyWriter sd) :=
  ⟨rfl, fun s => (StreamLedger.init s).mono False.elim False.elim⟩

/-- An event loopy no longer handles: the data it queues is dropped. -/
theorem StreamLedger.stopped
    (h : StreamLedger (s ∈ opened sd es) (Closed es s) (queued es s) out none s) {e : LoopyEvent}
    (hfol : Follows sd es e) :
    StreamLedger (s ∈ opened sd (es ++ [e])) (Closed (es ++ [e]) s) (queued (es ++ [e]) s) out
      none s := by
  have hmono : StreamLedger (s ∈ opened sd (es ++ [e])) (Closed (es ++ [e]) s) (queued es s) out
      none s :=
    h.mono (fun ho => mem_opened_append.mpr (.inl ho)) (fun hc => closed_append.mpr (.inl hc))
  rw [queued_append]
  by_cases hd : e.dataStream = some s
  · -- data for a started stream that is not ended
    obtain ⟨hop, hnc⟩ := hfol.data hd
    match e, hd with
    | .handle (.dataFrame _ endStream hh dd), rfl =>
      rw [show LoopyEvent.dataFor s (.handle (.dataFrame s endStream hh dd)) =
        [(hh ++ dd, endStream)] by simp [LoopyEvent.dataFor]]
      refine hmono.push (mem_opened_append.mpr (.inl hop)) ?_ _ _ (fun _ h => by cases h)
      rw [closed_append]
      rintro (hcl | hcl)
      · exact hnc hcl
      · cases hcl
  · rw [LoopyEvent.dataFor_eq_nil hd, List.append_nil]
    exact hmono

/-- Every step keeps the ledger of every stream. -/
theorem OrderInv.step (hi : LoopyInv l) (h : OrderInv sd es out l) {e : LoopyEvent}
    (hfol : Follows sd es e) :
    OrderInv sd (es ++ [e]) (out ++ (l.step e).1) (l.step e).2 := by
  obtain ⟨hside, hs⟩ := h
  refine ⟨(side_step l e).trans hside, fun s => ?_⟩
  by_cases herr : l.err = none
  · have hsl : LedgerAt sd es out l s := by
      have := hs s
      rwa [if_pos herr] at this
    -- a running loopy handles the event; a handler's error then stops it
    have hfinish : ∀ {fs : List Frame} {l' : loopyWriter},
        LedgerAt sd (es ++ [e]) (out ++ fs) l' s →
        StreamLedger (s ∈ opened sd (es ++ [e])) (Closed (es ++ [e]) s) (queued (es ++ [e]) s)
          (out ++ fs) (if l'.err = none then l'.itlOf s else none) s := by
      intro fs l' h'
      split_ifs
      · exact h'
      · exact h'.delete
    cases e with
    | handle i =>
      have hstep : l.step (.handle i) = l.handle i := by simp [loopyWriter.step, herr]
      rw [hstep]
      exact hfinish (hsl.handle hi hside i hfol)
    | processData =>
      have hstep : l.step .processData = l.processData.2 := by simp [loopyWriter.step, herr]
      rw [hstep]
      exact hfinish (hsl.processData hi)
  · -- loopy has stopped: it writes nothing and its state stays
    have hstep : l.step e = ([], l) := by
      have herr' : l.err.isSome = true := Option.isSome_iff_ne_none.mpr herr
      simp [loopyWriter.step, herr']
    have hsl := hs s
    rw [if_neg herr] at hsl
    rw [hstep, List.append_nil]
    show StreamLedger _ _ _ _ (if l.err = none then l.itlOf s else none) s
    rw [if_neg herr]
    exact hsl.stopped hfol

/-- The ledger of every stream holds after every run in the transport's order. -/
theorem orderInv_run (sd : side) {es : List LoopyEvent}
    (hes : Machine.Admits loopyWriter.Allowed loopyWriter.step (newLoopyWriter sd) es)
    (hord : TransportOrder sd es) :
    OrderInv sd es (Machine.run loopyWriter.step (newLoopyWriter sd) es).1
      (Machine.run loopyWriter.step (newLoopyWriter sd) es).2 := by
  have hrun : OrderInv sd ([] ++ es) ([] ++ (Machine.run loopyWriter.step (newLoopyWriter sd) es).1)
      (Machine.run loopyWriter.step (newLoopyWriter sd) es).2 :=
    loopyInv_invariant.history (P := OrderInv sd) (H := TransportOrder sd)
      (fun _ _ h => h.of_append) (fun _ _ _ _ hi _ hh hp => hp.step hi hh.last)
      (loopyInv_newLoopyWriter sd) hes (by simpa using hord) (orderInv_newLoopyWriter sd)
  simpa using hrun

end Run


end Transport
end GrpcGo
