import VideoNode.Common.Delivery
import VideoNode.Lts.Parties

/-!
# Frame sinks

`VideoFrameSink` and `AudioFrameSink` are owned by the wrap of a remote media track
(`src/media/remote_{video,audio}_track_wrap.cpp`) and registered with the WebRTC track, which keeps
a pointer to them and calls it on a decoder thread. A track has any number of wraps, and rtc-cpp
stops answering with the WebRTC track once the Room has ended remotely, while WebRTC may go on
delivering. Sinks, wraps and tracks are numbered as they are made; a sink that is used after it was
freed is a fault.
-/

namespace VideoNode.Frames

open VideoNode.Common VideoNode.Lts

/-- Members of a sink; `src/sinks/video_frame_sink.h:50–61`, `src/sinks/audio_frame_sink.h:44–51`.
`delivered` are the frames its JavaScript callback was called with. -/
structure FrameSink (F : Type) where
  context : Traffic F
  closed : Bool
  nativeDropped : Nat
  freed : Bool
  delivered : List F
  deriving DecidableEq

namespace FrameSink

variable {F : Type}

/-- The constructor; `src/sinks/video_frame_sink.cpp:5–9`. -/
def create (maxQueueDepth : Nat) : FrameSink F :=
  ⟨⟨.create maxQueueDepth, [], []⟩, false, 0, false, []⟩

/-- `close`; `src/sinks/video_frame_sink.cpp:15–25`. Resetting `asyncContext_` destroys it. -/
def close (k : FrameSink F) : Option (FrameSink F) :=
  if k.closed then some k
  else (k.context.step .destroy).map fun context ↦
    { k with
      context := context
      closed := true
      nativeDropped := k.context.loop.ctx.dropped }

/-- `deliverFrame`; `src/sinks/video_frame_sink.cpp:68–74`. -/
def deliverFrame (k : FrameSink F) (frame : F) : FrameSink F :=
  if k.closed then k else { k with context := k.context.dispatch frame }

/-- The callback `deliverFrame` queues; `src/sinks/video_frame_sink.cpp:74–134`. -/
def run (k : FrameSink F) (frame : F) : FrameSink F :=
  if k.closed then k else { k with delivered := k.delivered ++ [frame] }

/-- `droppedCount`; `src/sinks/video_frame_sink.h:42–44`. -/
def droppedCount (k : FrameSink F) : Nat :=
  if k.closed then k.nativeDropped else k.context.loop.ctx.dropped

/-- `queueDepth`; `src/sinks/video_frame_sink.h:45`. -/
def queueDepth (k : FrameSink F) : Nat :=
  if k.closed then 0 else k.context.loop.ctx.queueDepth

/-- What holds of a sink by itself: its context is open exactly while the sink is, and its callback
was called with what the context started. -/
structure Sound (k : FrameSink F) : Prop where
  context : ∃ depth, (Traffic.machine F depth).Reachable k.context
  closed : k.context.loop.ctx.closed = k.closed
  alive : k.context.loop.ctx.alive = !k.closed
  freed : k.freed = true → k.closed = true
  delivered : k.delivered = k.context.started

/-- A fresh sink is sound. -/
theorem sound_create (depth : Nat) : (create depth : FrameSink F).Sound :=
  ⟨⟨depth, Machine.reachable_init _⟩, rfl, rfl, fun hf ↦ absurd hf Bool.false_ne_true, rfl⟩

/-- Only a sink that is open is closed, and what it delivered stays. -/
theorem close_of_open {k k' : FrameSink F} (ho : k.closed = false) (hc : k.close = some k') :
    ∃ context, k.context.step .destroy = some context ∧
      k' = { k with
        context := context
        closed := true
        nativeDropped := k.context.loop.ctx.dropped } := by
  simp only [close, ho, Bool.false_eq_true, if_false] at hc
  obtain ⟨context, hs, rfl⟩ := Option.map_eq_some_iff.mp hc
  exact ⟨context, hs, rfl⟩

/-- Closing, and freeing or releasing, leaves a sound sink. -/
theorem Sound.destroyed {k : FrameSink F} (h : k.Sound) {context : Traffic F}
    (hs : k.context.step .destroy = some context) (nativeDropped : Nat) (freed : Bool) :
    Sound { k with
      context := context
      closed := true
      nativeDropped := nativeDropped
      freed := freed } := by
  obtain ⟨depth, hr⟩ := h.context
  obtain ⟨-, hst, hcl⟩ := Traffic.step_destroy hs
  refine ⟨⟨depth, hr.step (a := .destroy) hs⟩, hcl, ?_, fun _ ↦ rfl, h.delivered.trans hst.symm⟩
  cases Traffic.stepped hs
  rw [AsyncContext.destroy_eq]
  rfl

/-- A frame that arrives leaves a sound sink, and one as open and as free as it was. -/
theorem Sound.deliverFrame {k : FrameSink F} (h : k.Sound) (frame : F) :
    (k.deliverFrame frame).Sound ∧ (k.deliverFrame frame).closed = k.closed ∧
      (k.deliverFrame frame).freed = k.freed := by
  unfold FrameSink.deliverFrame
  split
  · exact ⟨h, rfl, rfl⟩
  · next hc =>
    have hc : k.closed = false := by simpa using hc
    obtain ⟨depth, hr⟩ := h.context
    obtain ⟨hr', -, hst, hcl⟩ := Traffic.dispatch_of_open frame hr (h.closed.trans hc)
    refine ⟨⟨⟨depth, hr'⟩, hcl.trans hc.symm, ?_, h.freed, h.delivered.trans hst.symm⟩, rfl, rfl⟩
    have ha : k.context.loop.ctx.alive = true := by simpa [hc] using h.alive
    have hd : k.context.step (.dispatch frame) = some _ := if_pos ha
    rw [Traffic.dispatch, hd, Option.getD_some]
    exact (AsyncContext.dispatch_frame _ _).2.trans h.alive

/-- What a step through the drain of its context makes of a sink. -/
def turned (k : FrameSink F) (context : Traffic F) (started : Option F) : FrameSink F :=
  match started with
  | none => { k with context := context }
  | some frame => { k with context := context }.run frame

/-- A step through its drain leaves a sound sink, and one as open and as free as it was; only an
open sink is used by it. -/
theorem Sound.turned {k : FrameSink F} (h : k.Sound) {context : Traffic F} {t : Turn}
    (hs : k.context.step (.turn t) = some context) :
    (k.turned context (k.context.loop.started t)).Sound ∧
      (k.turned context (k.context.loop.started t)).closed = k.closed ∧
      (k.turned context (k.context.loop.started t)).freed = k.freed ∧
      (k.closed = true → k.context.loop.started t = none) := by
  obtain ⟨depth, hr⟩ := h.context
  obtain ⟨-, hst, hcl, hal⟩ := Traffic.step_turn hs
  have hn : k.closed = true → k.context.loop.started t = none := by
    intro hc
    exact Loop.started_of_closed (h.closed.trans hc)
  have hk : ∀ delivered, delivered = context.started →
      Sound { k with context := context, delivered := delivered } := by
    intro delivered hd
    exact ⟨⟨depth, hr.step (a := .turn t) hs⟩, hcl.trans h.closed, hal.trans h.alive, h.freed, hd⟩
  cases hf : k.context.loop.started t with
  | none =>
    rw [hf, Option.toList_none, List.append_nil] at hst
    exact ⟨hk _ (h.delivered.trans hst.symm), rfl, rfl, fun _ ↦ rfl⟩
  | some frame =>
    have ho : k.closed = false := by
      cases hc : k.closed with
      | false => rfl
      | true =>
        rw [hn hc] at hf
        cases hf
    rw [hf, Option.toList_some, ← h.delivered] at hst
    have he : k.turned context (some frame) =
        { k with context := context, delivered := k.delivered ++ [frame] } := by
      simp [FrameSink.turned, run, ho]
    rw [he]
    refine ⟨hk _ hst.symm, rfl, rfl, ?_⟩
    intro hc
    rw [ho] at hc
    cases hc

end FrameSink

/-- What WebRTC knows of a track: whether `getWebRtcTrack()` answers with it, and its sinks. -/
structure WebRtcTrack where
  available : Bool
  sinks : List Nat
  deriving DecidableEq, Repr

/-- Members of `RemoteVideoTrackWrap` and `RemoteAudioTrackWrap`. -/
structure MediaTrackWrap where
  track : Nat
  frameSink : Option Nat
  alive : Bool
  deriving DecidableEq, Repr

/-- All tracks, wraps and sinks of a process. -/
structure FrameSinks (F : Type) where
  tracks : List WebRtcTrack
  wraps : List MediaTrackWrap
  sinks : List (FrameSink F)
  fault : Bool
  deriving DecidableEq

/-- What rtc-cpp, the application, the garbage collector, decoder threads and drains do. -/
inductive FrameSinksAct (F : Type) where
  | subscribe
  | setAvailable (n : Nat) (available : Bool)
  | newInstance (n : Nat)
  | attachFrameSink (j depth : Nat)
  | detachFrameSink (j : Nat)
  | destroyWrap (j : Nat)
  /-- WebRTC calls a sink of the track; its list is locked meanwhile. -/
  | onFrame (n i : Nat) (frame : F)
  | turn (i : Nat) (t : Turn)

namespace FrameSinks

variable {F : Type}

/-- Use sink `i`. -/
def deref (s : FrameSinks F) (i : Nat) (f : FrameSink F → Option (FrameSink F)) :
    Option (FrameSinks F) :=
  match s.sinks[i]? with
  | none => some { s with fault := true }
  | some k => (f k).map fun k' ↦ { s with sinks := s.sinks.set i k', fault := s.fault || k.freed }

/-- Whether `getWebRtcTrack()` answers. -/
def available (s : FrameSinks F) (n : Nat) : Bool := s.tracks[n]?.any WebRtcTrack.available

/-- `AddSink` and `AddOrUpdateSink` of WebRTC. -/
def addSink (s : FrameSinks F) (n i : Nat) : FrameSinks F :=
  { s with tracks := s.tracks.modify n fun t ↦ { t with sinks := t.sinks ++ [i] } }

/-- `RemoveSink` of WebRTC. -/
def removeSink (s : FrameSinks F) (n i : Nat) : FrameSinks F :=
  { s with tracks := s.tracks.modify n fun t ↦ { t with sinks := t.sinks.filter (· ≠ i) } }

/-- Set the `frameSink_` of a wrap. -/
def setFrameSink (s : FrameSinks F) (j : Nat) (sink : Option Nat) : FrameSinks F :=
  { s with wraps := s.wraps.modify j fun w ↦ { w with frameSink := sink } }

/-- `detachSink`; `src/media/remote_video_track_wrap.cpp:46–61`,
`src/media/remote_audio_track_wrap.cpp:41–56`. -/
def detachSink (s : FrameSinks F) (j : Nat) (w : MediaTrackWrap) : Option (FrameSinks F) :=
  match w.frameSink with
  | none => some s
  | some i =>
    if s.available w.track then
      ((s.removeSink w.track i).deref i fun k ↦
        k.close.map fun k ↦ { k with freed := true }).map fun s ↦ s.setFrameSink j none
    else
      -- Released rather than freed: WebRTC may still have the pointer.
      (s.deref i FrameSink.close).map fun s ↦ s.setFrameSink j none

/-- Construct a sink for wrap `j` and register it where the track is available;
`src/media/remote_video_track_wrap.cpp:106–115`. -/
def makeSink (s : FrameSinks F) (j depth : Nat) (w : MediaTrackWrap) : FrameSinks F :=
  let i := s.sinks.length
  let made := { s with sinks := s.sinks ++ [FrameSink.create depth] }.setFrameSink j (some i)
  if s.available w.track then made.addSink w.track i else made

/-- `AttachFrameSink`; `src/media/remote_video_track_wrap.cpp:104–118`. -/
def attachFrameSink (s : FrameSinks F) (j depth : Nat) (w : MediaTrackWrap) :
    Option (FrameSinks F) :=
  (s.detachSink j w).map fun s ↦ s.makeSink j depth w

/-- The destructor of a wrap; `src/media/remote_video_track_wrap.cpp:42–44`. -/
def destroyWrap (s : FrameSinks F) (j : Nat) (w : MediaTrackWrap) : Option (FrameSinks F) :=
  (s.detachSink j w).map fun s ↦
    { s with wraps := s.wraps.modify j fun w ↦ { w with alive := false } }

/-- The wrap `j` that the application still has. -/
def onWrap (s : FrameSinks F) (j : Nat) (f : MediaTrackWrap → Option (FrameSinks F)) :
    Option (FrameSinks F) :=
  s.wraps[j]?.bind fun w ↦ if w.alive then f w else none

/-- A step through the drain of a sink's context. The context outlives the sink only on the stack
of its own drain; a callback that starts uses the sink. -/
def turn (s : FrameSinks F) (i : Nat) (t : Turn) : Option (FrameSinks F) :=
  s.sinks[i]?.bind fun k ↦ (k.context.step (.turn t)).map fun context ↦
    { s with
      sinks := s.sinks.set i (k.turned context (k.context.loop.started t))
      fault := s.fault || ((k.context.loop.started t).isSome && k.freed) }

/-- One step. -/
def step (s : FrameSinks F) : FrameSinksAct F → Option (FrameSinks F)
  | .subscribe => some { s with tracks := s.tracks ++ [⟨true, []⟩] }
  | .setAvailable n available =>
    some { s with tracks := s.tracks.modify n fun t ↦ { t with available := available } }
  | .newInstance n =>
    if n < s.tracks.length then some { s with wraps := s.wraps ++ [⟨n, none, true⟩] } else none
  | .attachFrameSink j depth => s.onWrap j (s.attachFrameSink j depth)
  | .detachFrameSink j => s.onWrap j (s.detachSink j)
  | .destroyWrap j => s.onWrap j (s.destroyWrap j)
  | .onFrame n i frame =>
    if s.tracks[n]?.any fun t ↦ i ∈ t.sinks then
      s.deref i fun k ↦ some (k.deliverFrame frame)
    else none
  | .turn i t => s.turn i t

/-- A process without remote tracks, and everything that can happen to their sinks. -/
def machine (F : Type) : Machine (FrameSinks F) (FrameSinksAct F) where
  init := ⟨[], [], [], false⟩
  step := step

/-- What keeps sinks safe: WebRTC only has sinks that are not freed, a wrap that has a sink has an
open one, which nobody else has and only its own track calls, and every open sink is had. -/
structure Safe (s : FrameSinks F) : Prop where
  fault : s.fault = false
  sound : ∀ (i : Nat) (k : FrameSink F), s.sinks[i]? = some k → k.Sound
  listed : ∀ (n : Nat) (t : WebRtcTrack) (i : Nat), s.tracks[n]? = some t → i ∈ t.sinks →
    ∃ k : FrameSink F, s.sinks[i]? = some k ∧ k.freed = false
  held : ∀ (j : Nat) (w : MediaTrackWrap) (i : Nat), s.wraps[j]? = some w →
    w.frameSink = some i → w.alive = true ∧
      ∃ k : FrameSink F, s.sinks[i]? = some k ∧ k.closed = false
  own : ∀ (j : Nat) (w : MediaTrackWrap) (i n : Nat) (t : WebRtcTrack), s.wraps[j]? = some w →
    w.frameSink = some i → s.tracks[n]? = some t → i ∈ t.sinks → n = w.track
  once : ∀ (j : Nat) (w : MediaTrackWrap) (j' : Nat) (w' : MediaTrackWrap) (i : Nat),
    s.wraps[j]? = some w → w.frameSink = some i → s.wraps[j']? = some w' →
      w'.frameSink = some i → j' = j
  owned : ∀ (i : Nat) (k : FrameSink F), s.sinks[i]? = some k → k.closed = false →
    ∃ (j : Nat) (w : MediaTrackWrap), s.wraps[j]? = some w ∧ w.frameSink = some i

/-- A change of one sink that leaves it as open and as free as it was. -/
theorem Safe.set_sink {s : FrameSinks F} (h : s.Safe) {i : Nat} {k k' : FrameSink F}
    (hk : s.sinks[i]? = some k) (hs : k'.Sound) (hc : k'.closed = k.closed)
    (hf : k'.freed = k.freed) : Safe { s with sinks := s.sinks.set i k' } where
  fault := h.fault
  sound := by
    intro m c hm
    rcases Parties.getElem?_set hk hm with ⟨-, rfl⟩ | ⟨-, hm⟩
    · exact hs
    · exact h.sound m c hm
  listed := by
    intro n t m ht hm
    obtain ⟨c, hc', hfr⟩ := h.listed n t m ht hm
    rcases Parties.getElem?_after_set hk hc' with ⟨-, rfl, hb⟩ | ⟨-, hb⟩
    · exact ⟨k', hb k', hf.trans hfr⟩
    · exact ⟨c, hb k', hfr⟩
  held := by
    intro j w m hj hw
    obtain ⟨ha, c, hc', ho⟩ := h.held j w m hj hw
    rcases Parties.getElem?_after_set hk hc' with ⟨-, rfl, hb⟩ | ⟨-, hb⟩
    · exact ⟨ha, k', hb k', hc.trans ho⟩
    · exact ⟨ha, c, hb k', ho⟩
  own := h.own
  once := h.once
  owned := by
    intro m c hm ho
    rcases Parties.getElem?_set hk hm with ⟨rfl, rfl⟩ | ⟨-, hm⟩
    · exact h.owned m k hk (hc.symm.trans ho)
    · exact h.owned m c hm ho

/-- What `detachSink` leaves of a wrap that has sink `i`: WebRTC forgets the sink and it is freed
where the track is available, and else it is only closed. -/
def detached (s : FrameSinks F) (j : Nat) (w : MediaTrackWrap) (i : Nat) (k : FrameSink F)
    (context : Traffic F) : FrameSinks F where
  tracks := if s.available w.track then (s.removeSink w.track i).tracks else s.tracks
  wraps := s.wraps.set j { w with frameSink := none }
  sinks := s.sinks.set i
    { k with
      context := context
      closed := true
      nativeDropped := k.context.loop.ctx.dropped
      freed := s.available w.track }
  fault := false

/-- The two ways `detachSink` goes. -/
theorem detachSink_cases {s s' : FrameSinks F} (h : s.Safe) {j : Nat} {w : MediaTrackWrap}
    (hw : s.wraps[j]? = some w) (hs : s.detachSink j w = some s') :
    (w.frameSink = none ∧ s' = s) ∨
      ∃ i k context, w.frameSink = some i ∧ s.sinks[i]? = some k ∧ k.closed = false ∧
        k.context.step .destroy = some context ∧ s' = s.detached j w i k context := by
  unfold detachSink at hs
  cases hi : w.frameSink with
  | none =>
    rw [hi] at hs
    cases hs
    exact .inl ⟨rfl, rfl⟩
  | some i =>
    obtain ⟨-, k, hk, ho⟩ := h.held j w i hw hi
    have hfr : k.freed = false := by
      cases hf : k.freed with
      | false => rfl
      | true =>
        have hc := (h.sound i k hk).freed hf
        rw [ho] at hc
        cases hc
    have hm : ∀ l : List MediaTrackWrap, l[j]? = some w →
        (l.modify j fun w ↦ { w with frameSink := none }) = l.set j { w with frameSink := none } :=
      fun l hl ↦ Parties.modify_eq_set_of hl _
    rw [hi] at hs
    right
    cases ha : s.available w.track with
    | true =>
      simp only [ha, if_true, Option.map_eq_some_iff] at hs
      obtain ⟨r, hr, rfl⟩ := hs
      simp only [deref, removeSink, hk, Option.map_map, Option.map_eq_some_iff] at hr
      obtain ⟨k', hc, rfl⟩ := hr
      obtain ⟨context, hd, rfl⟩ := FrameSink.close_of_open ho hc
      refine ⟨i, k, context, rfl, hk, ho, hd, ?_⟩
      simp [detached, setFrameSink, removeSink, ha, hfr, h.fault, hm _ hw]
    | false =>
      simp only [ha, Bool.false_eq_true, if_false, Option.map_eq_some_iff] at hs
      obtain ⟨r, hr, rfl⟩ := hs
      simp only [deref, hk, Option.map_eq_some_iff] at hr
      obtain ⟨k', hc, rfl⟩ := hr
      obtain ⟨context, hd, rfl⟩ := FrameSink.close_of_open ho hc
      refine ⟨i, k, context, rfl, hk, ho, hd, ?_⟩
      simp [detached, setFrameSink, ha, hfr, h.fault, hm _ hw]

private theorem mem_of_mem_detached {s : FrameSinks F} {j : Nat} {w : MediaTrackWrap} {i : Nat}
    {k : FrameSink F} {context : Traffic F} {n : Nat} {t : WebRtcTrack}
    (ht : (s.detached j w i k context).tracks[n]? = some t) :
    ∃ t' : WebRtcTrack, s.tracks[n]? = some t' ∧ t'.available = t.available ∧ ∀ m ∈ t.sinks,
      m ∈ t'.sinks ∧ (s.available w.track = true → n = w.track → m ≠ i) := by
  cases ha : s.available w.track with
  | false =>
    simp only [detached, ha, Bool.false_eq_true, if_false] at ht
    exact ⟨t, ht, rfl, fun m hm ↦ ⟨hm, fun he ↦ absurd he Bool.false_ne_true⟩⟩
  | true =>
    simp only [detached, ha, if_true, removeSink] at ht
    obtain ⟨t', ht', rfl⟩ := Parties.of_getElem?_modify ht
    refine ⟨t', ht', ?_, fun m hm ↦ ?_⟩
    · split <;> rfl
    · split at hm
      · next hn =>
        simp only [List.mem_filter, decide_eq_true_eq] at hm
        exact ⟨hm.1, fun _ _ ↦ hm.2⟩
      · next hn => exact ⟨hm, fun _ he ↦ absurd he.symm hn⟩

/-- Letting go of a sink keeps all others safe: only its own track could call it. -/
theorem Safe.detached {s : FrameSinks F} (h : s.Safe) {j : Nat} {w : MediaTrackWrap} {i : Nat}
    {k : FrameSink F} {context : Traffic F} (hw : s.wraps[j]? = some w)
    (hi : w.frameSink = some i) (hk : s.sinks[i]? = some k)
    (hs : k.context.step .destroy = some context) : Safe (s.detached j w i k context) where
  fault := rfl
  sound := by
    intro m c hm
    rcases Parties.getElem?_set hk hm with ⟨-, rfl⟩ | ⟨-, hm⟩
    · exact (h.sound i k hk).destroyed hs _ _
    · exact h.sound m c hm
  listed := by
    intro n t m ht hm
    obtain ⟨t', ht', -, hsub⟩ := mem_of_mem_detached ht
    obtain ⟨hm', hne⟩ := hsub m hm
    obtain ⟨c, hc, hf⟩ := h.listed n t' m ht' hm'
    rcases Parties.getElem?_after_set hk hc with ⟨rfl, -, hb⟩ | ⟨-, hb⟩
    · refine ⟨_, hb _, ?_⟩
      cases ha : s.available w.track with
      | false => rfl
      | true => exact absurd rfl (hne ha (h.own j w m n t' hw hi ht' hm'))
    · exact ⟨c, hb _, hf⟩
  held := by
    intro a wa m ha hm
    rcases Parties.getElem?_set hw ha with ⟨-, rfl⟩ | ⟨hne, ha'⟩
    · cases hm
    · obtain ⟨hal, c, hc, ho⟩ := h.held a wa m ha' hm
      rcases Parties.getElem?_after_set hk hc with ⟨rfl, -, -⟩ | ⟨-, hb⟩
      · exact absurd (h.once j w a wa m hw hi ha' hm) hne
      · exact ⟨hal, c, hb _, ho⟩
  own := by
    intro j' w' m n t hj' hm ht hmem
    obtain ⟨t', ht', -, hsub⟩ := mem_of_mem_detached ht
    rcases Parties.getElem?_set hw hj' with ⟨-, rfl⟩ | ⟨-, hj'⟩
    · cases hm
    · exact h.own j' w' m n t' hj' hm ht' (hsub m hmem).1
  once := by
    intro a wa b wb m ha hma hb hmb
    rcases Parties.getElem?_set hw ha with ⟨-, rfl⟩ | ⟨-, ha⟩
    · cases hma
    · rcases Parties.getElem?_set hw hb with ⟨-, rfl⟩ | ⟨-, hb⟩
      · cases hmb
      · exact h.once a wa b wb m ha hma hb hmb
  owned := by
    intro m c hm ho
    rcases Parties.getElem?_set hk hm with ⟨-, rfl⟩ | ⟨hne, hm⟩
    · cases ho
    · obtain ⟨j', w', hj', hw'⟩ := h.owned m c hm ho
      rcases Parties.getElem?_after_set hw hj' with ⟨-, rfl, -⟩ | ⟨-, hb⟩
      · rw [hi] at hw'
        cases hw'
        exact absurd rfl hne
      · exact ⟨j', w', hb _, hw'⟩

/-- `detachSink` keeps all sinks safe and leaves the wrap without one. -/
theorem Safe.detachSink {s s' : FrameSinks F} (h : s.Safe) {j : Nat} {w : MediaTrackWrap}
    (hw : s.wraps[j]? = some w) (hs : s.detachSink j w = some s') :
    s'.Safe ∧ s'.wraps[j]? = some { w with frameSink := none } := by
  rcases detachSink_cases h hw hs with ⟨hn, rfl⟩ | ⟨i, k, context, hi, hk, -, hd, rfl⟩
  · refine ⟨h, ?_⟩
    rw [hw, ← hn]
  · exact ⟨h.detached hw hi hk hd, Parties.getElem?_set_self hw⟩

/-- A wrap without a sink can become another one without a sink. -/
theorem Safe.set_wrap {s : FrameSinks F} (h : s.Safe) {j : Nat} {w w' : MediaTrackWrap}
    (hw : s.wraps[j]? = some w) (hn : w.frameSink = none) (hn' : w'.frameSink = none) :
    Safe { s with wraps := s.wraps.set j w' } where
  fault := h.fault
  sound := h.sound
  listed := h.listed
  held := by
    intro a wa m ha hm
    rcases Parties.getElem?_set hw ha with ⟨-, rfl⟩ | ⟨-, ha⟩
    · rw [hn'] at hm
      cases hm
    · exact h.held a wa m ha hm
  own := by
    intro a wa m n t ha hm
    rcases Parties.getElem?_set hw ha with ⟨-, rfl⟩ | ⟨-, ha⟩
    · rw [hn'] at hm
      cases hm
    · exact h.own a wa m n t ha hm
  once := by
    intro a wa b wb m ha hma hb hmb
    rcases Parties.getElem?_set hw ha with ⟨-, rfl⟩ | ⟨-, ha⟩
    · rw [hn'] at hma
      cases hma
    · rcases Parties.getElem?_set hw hb with ⟨-, rfl⟩ | ⟨-, hb⟩
      · rw [hn'] at hmb
        cases hmb
      · exact h.once a wa b wb m ha hma hb hmb
  owned := by
    intro m c hm ho
    obtain ⟨a, wa, ha, hma⟩ := h.owned m c hm ho
    rcases Parties.getElem?_after_set hw ha with ⟨-, rfl, -⟩ | ⟨-, hb⟩
    · rw [hn] at hma
      cases hma
    · exact ⟨a, wa, hb _, hma⟩

private theorem mem_of_mem_makeSink {s : FrameSinks F} {j depth : Nat} {w : MediaTrackWrap}
    {n : Nat} {t : WebRtcTrack} (ht : (s.makeSink j depth w).tracks[n]? = some t) :
    ∃ t' : WebRtcTrack, s.tracks[n]? = some t' ∧ t'.available = t.available ∧ ∀ m ∈ t.sinks,
      m ∈ t'.sinks ∨ m = s.sinks.length ∧ n = w.track := by
  unfold makeSink at ht
  split at ht
  · obtain ⟨t', ht', rfl⟩ := Parties.of_getElem?_modify ht
    refine ⟨t', ht', ?_, fun m hm ↦ ?_⟩
    · split <;> rfl
    · split at hm
      · next hn =>
        rcases List.mem_append.mp hm with hm | hm
        · exact .inl hm
        · exact .inr ⟨List.mem_singleton.mp hm, hn.symm⟩
      · exact .inl hm
  · exact ⟨t, ht, rfl, fun m hm ↦ .inl hm⟩

/-- The wraps and sinks once a wrap made a sink. -/
theorem makeSink_frame (s : FrameSinks F) (j depth : Nat) (w : MediaTrackWrap) :
    (s.makeSink j depth w).fault = s.fault ∧
      (s.makeSink j depth w).sinks = s.sinks ++ [FrameSink.create depth] ∧
      (s.makeSink j depth w).wraps = s.wraps.modify j fun w ↦
        { w with frameSink := some s.sinks.length } := by
  unfold makeSink
  split <;> exact ⟨rfl, rfl, rfl⟩

private theorem ne_length_of_getElem? {s : FrameSinks F} {m : Nat} {k : FrameSink F}
    (hm : s.sinks[m]? = some k) : m ≠ s.sinks.length :=
  ((List.getElem?_eq_some_iff.mp hm).1).ne

/-- A new sink of a wrap that has none keeps all sinks safe. -/
theorem Safe.makeSink {s : FrameSinks F} (h : s.Safe) {j : Nat} {w w' : MediaTrackWrap}
    (depth : Nat) (hw : s.wraps[j]? = some w) (hn : w.frameSink = none) (ha : w.alive = true)
    (ht : w'.track = w.track) : (s.makeSink j depth w').Safe := by
  obtain ⟨hfault, hsinks, hwraps⟩ := makeSink_frame s j depth w'
  rw [Parties.modify_eq_set_of hw] at hwraps
  have hkeep : ∀ (m : Nat) (k : FrameSink F), s.sinks[m]? = some k →
      (s.makeSink j depth w').sinks[m]? = some k := by
    intro m k hm
    rw [hsinks]
    exact (List.getElem?_append_left (List.getElem?_eq_some_iff.mp hm).1).trans hm
  have hnew : (s.makeSink j depth w').sinks[s.sinks.length]? = some (FrameSink.create depth) := by
    rw [hsinks]
    exact List.getElem?_concat_length
  have hold : ∀ (a : Nat) (wa : MediaTrackWrap) (m : Nat),
      (s.makeSink j depth w').wraps[a]? = some wa → wa.frameSink = some m →
        (a = j ∧ m = s.sinks.length ∧ wa.track = w.track ∧ wa.alive = true) ∨
          (s.wraps[a]? = some wa ∧ m ≠ s.sinks.length) := by
    intro a wa m hwa hm
    rw [hwraps] at hwa
    rcases Parties.getElem?_set hw hwa with ⟨rfl, rfl⟩ | ⟨-, hwa⟩
    · cases hm
      exact .inl ⟨rfl, rfl, rfl, ha⟩
    · obtain ⟨-, c, hc, -⟩ := h.held a wa m hwa hm
      exact .inr ⟨hwa, ne_length_of_getElem? hc⟩
  refine ⟨hfault.trans h.fault, ?_, ?_, ?_, ?_, ?_, ?_⟩
  · intro m c hm
    rw [hsinks] at hm
    rcases Parties.getElem?_concat hm with ⟨-, rfl⟩ | hm
    · exact FrameSink.sound_create depth
    · exact h.sound m c hm
  · intro n t m hnt hm
    obtain ⟨t', ht', -, hsub⟩ := mem_of_mem_makeSink hnt
    rcases hsub m hm with hm | ⟨rfl, -⟩
    · obtain ⟨c, hc, hf⟩ := h.listed n t' m ht' hm
      exact ⟨c, hkeep m c hc, hf⟩
    · exact ⟨_, hnew, rfl⟩
  · intro a wa m hwa hm
    rcases hold a wa m hwa hm with ⟨-, rfl, -, hal⟩ | ⟨hwa, -⟩
    · exact ⟨hal, _, hnew, rfl⟩
    · obtain ⟨hal, c, hc, ho⟩ := h.held a wa m hwa hm
      exact ⟨hal, c, hkeep m c hc, ho⟩
  · intro a wa m n t hwa hm hnt hmem
    obtain ⟨t', ht', -, hsub⟩ := mem_of_mem_makeSink hnt
    rcases hold a wa m hwa hm with ⟨-, rfl, htr, -⟩ | ⟨hwa, hne⟩
    · rcases hsub _ hmem with hmem | ⟨-, hnw⟩
      · obtain ⟨c, hc, -⟩ := h.listed n t' _ ht' hmem
        exact absurd rfl (ne_length_of_getElem? hc)
      · rw [hnw, ht, htr]
    · rcases hsub m hmem with hmem | ⟨he, -⟩
      · exact h.own a wa m n t' hwa hm ht' hmem
      · exact absurd he hne
  · intro a wa b wb m hwa hma hwb hmb
    rcases hold a wa m hwa hma with ⟨rfl, rfl, -, -⟩ | ⟨hwa, hne⟩
    · rcases hold b wb _ hwb hmb with ⟨rfl, -, -, -⟩ | ⟨-, hne⟩
      · rfl
      · exact absurd rfl hne
    · rcases hold b wb m hwb hmb with ⟨-, he, -, -⟩ | ⟨hwb, -⟩
      · exact absurd he hne
      · exact h.once a wa b wb m hwa hma hwb hmb
  · intro m c hm ho
    rw [hsinks] at hm
    rcases Parties.getElem?_concat hm with ⟨rfl, -⟩ | hm
    · refine ⟨j, { w with frameSink := some s.sinks.length }, ?_, rfl⟩
      rw [hwraps]
      exact Parties.getElem?_set_self hw
    · obtain ⟨a, wa, hwa, hma⟩ := h.owned m c hm ho
      rcases Parties.getElem?_after_set hw hwa with ⟨-, rfl, -⟩ | ⟨-, hb⟩
      · rw [hn] at hma
        cases hma
      · refine ⟨a, wa, ?_, hma⟩
        rw [hwraps]
        exact hb _

/-- What each step asks for, and what it leaves. -/
inductive Stepped (s : FrameSinks F) : FrameSinksAct F → FrameSinks F → Prop where
  | subscribe : Stepped s .subscribe { s with tracks := s.tracks ++ [⟨true, []⟩] }
  | setAvailable {n : Nat} {available : Bool} : Stepped s (.setAvailable n available)
    { s with tracks := s.tracks.modify n fun t ↦ { t with available := available } }
  | newInstance {n : Nat} : Stepped s (.newInstance n)
    { s with wraps := s.wraps ++ [⟨n, none, true⟩] }
  | attachFrameSink {j depth : Nat} {w : MediaTrackWrap} {r : FrameSinks F}
      (hw : s.wraps[j]? = some w) (ha : w.alive = true) (hd : s.detachSink j w = some r) :
    Stepped s (.attachFrameSink j depth) (r.makeSink j depth w)
  | detachFrameSink {j : Nat} {w : MediaTrackWrap} {r : FrameSinks F}
      (hw : s.wraps[j]? = some w) (ha : w.alive = true) (hd : s.detachSink j w = some r) :
    Stepped s (.detachFrameSink j) r
  | destroyWrap {j : Nat} {w : MediaTrackWrap} {r : FrameSinks F}
      (hw : s.wraps[j]? = some w) (ha : w.alive = true) (hd : s.detachSink j w = some r) :
    Stepped s (.destroyWrap j)
      { r with wraps := r.wraps.modify j fun w ↦ { w with alive := false } }
  | onFrame {n i : Nat} {frame : F} {t : WebRtcTrack} {r : FrameSinks F}
      (ht : s.tracks[n]? = some t) (hi : i ∈ t.sinks)
      (hd : s.deref i (fun k ↦ some (k.deliverFrame frame)) = some r) :
    Stepped s (.onFrame n i frame) r
  | turn {i : Nat} {t : Turn} {k : FrameSink F} {context : Traffic F}
      (hk : s.sinks[i]? = some k) (hc : k.context.step (.turn t) = some context) :
    Stepped s (.turn i t) { s with
      sinks := s.sinks.set i (k.turned context (k.context.loop.started t))
      fault := s.fault || ((k.context.loop.started t).isSome && k.freed) }

private theorem onWrap_eq_some {s s' : FrameSinks F} {j : Nat}
    {f : MediaTrackWrap → Option (FrameSinks F)} (hs : s.onWrap j f = some s') :
    ∃ w, s.wraps[j]? = some w ∧ w.alive = true ∧ f w = some s' := by
  obtain ⟨w, hw, hf⟩ := Option.bind_eq_some_iff.mp hs
  split at hf
  · next ha => exact ⟨w, hw, ha, hf⟩
  · cases hf

/-- Inversion of a step. -/
theorem stepped {s s' : FrameSinks F} {a : FrameSinksAct F} (hs : s.step a = some s') :
    Stepped s a s' := by
  cases a with
  | subscribe =>
    cases hs
    exact .subscribe
  | setAvailable n available =>
    cases hs
    exact .setAvailable
  | newInstance n =>
    simp only [step] at hs
    split at hs
    · cases hs
      exact .newInstance
    · cases hs
  | attachFrameSink j depth =>
    obtain ⟨w, hw, ha, hf⟩ := onWrap_eq_some hs
    obtain ⟨r, hd, rfl⟩ := Option.map_eq_some_iff.mp hf
    exact .attachFrameSink hw ha hd
  | detachFrameSink j =>
    obtain ⟨w, hw, ha, hd⟩ := onWrap_eq_some hs
    exact .detachFrameSink hw ha hd
  | destroyWrap j =>
    obtain ⟨w, hw, ha, hf⟩ := onWrap_eq_some hs
    obtain ⟨r, hd, rfl⟩ := Option.map_eq_some_iff.mp hf
    exact .destroyWrap hw ha hd
  | onFrame n i frame =>
    simp only [step] at hs
    split at hs
    · next hany =>
      cases ht : s.tracks[n]? with
      | none => simp [ht] at hany
      | some t => exact .onFrame ht (by simpa [ht] using hany) hs
    · cases hs
  | turn i t =>
    obtain ⟨k, hk, hf⟩ := Option.bind_eq_some_iff.mp hs
    obtain ⟨context, hc, rfl⟩ := Option.map_eq_some_iff.mp hf
    exact .turn hk hc

-- The invariant does not speak about which tracks are available.
private theorem safe_setAvailable {s : FrameSinks F} (h : s.Safe) (n : Nat) (available : Bool) :
    Safe { s with tracks := s.tracks.modify n fun t ↦ { t with available := available } } where
  fault := h.fault
  sound := h.sound
  listed := by
    intro m t i ht hi
    obtain ⟨t', ht', rfl⟩ := Parties.of_getElem?_modify ht
    refine h.listed m t' i ht' ?_
    split at hi <;> exact hi
  held := h.held
  own := by
    intro j w i m t hw hwi ht hi
    obtain ⟨t', ht', rfl⟩ := Parties.of_getElem?_modify ht
    refine h.own j w i m t' hw hwi ht' ?_
    split at hi <;> exact hi
  once := h.once
  owned := h.owned

private theorem safe_subscribe {s : FrameSinks F} (h : s.Safe) :
    Safe { s with tracks := s.tracks ++ [⟨true, []⟩] } where
  fault := h.fault
  sound := h.sound
  listed := by
    intro m t i ht hi
    rcases Parties.getElem?_concat ht with ⟨-, rfl⟩ | ht
    · cases hi
    · exact h.listed m t i ht hi
  held := h.held
  own := by
    intro j w i m t hw hwi ht hi
    rcases Parties.getElem?_concat ht with ⟨-, rfl⟩ | ht
    · cases hi
    · exact h.own j w i m t hw hwi ht hi
  once := h.once
  owned := h.owned

private theorem safe_newInstance {s : FrameSinks F} (h : s.Safe) (n : Nat) :
    Safe { s with wraps := s.wraps ++ [⟨n, none, true⟩] } where
  fault := h.fault
  sound := h.sound
  listed := h.listed
  held := by
    intro a wa m ha hm
    rcases Parties.getElem?_concat ha with ⟨-, rfl⟩ | ha
    · cases hm
    · exact h.held a wa m ha hm
  own := by
    intro a wa m n t ha hm
    rcases Parties.getElem?_concat ha with ⟨-, rfl⟩ | ha
    · cases hm
    · exact h.own a wa m n t ha hm
  once := by
    intro a wa b wb m ha hma hb hmb
    rcases Parties.getElem?_concat ha with ⟨-, rfl⟩ | ha
    · cases hma
    · rcases Parties.getElem?_concat hb with ⟨-, rfl⟩ | hb
      · cases hmb
      · exact h.once a wa b wb m ha hma hb hmb
  owned := by
    intro m c hm ho
    obtain ⟨a, wa, ha, hma⟩ := h.owned m c hm ho
    refine ⟨a, wa, ?_, hma⟩
    exact (List.getElem?_append_left (List.getElem?_eq_some_iff.mp ha).1).trans ha

/-- Every step keeps all sinks safe. -/
theorem Safe.step {s s' : FrameSinks F} {a : FrameSinksAct F} (h : s.Safe)
    (hs : s.step a = some s') : s'.Safe := by
  cases stepped hs with
  | subscribe => exact safe_subscribe h
  | setAvailable => exact safe_setAvailable h _ _
  | newInstance => exact safe_newInstance h _
  | attachFrameSink hw ha hd =>
    obtain ⟨hr, hj⟩ := h.detachSink hw hd
    exact hr.makeSink _ hj rfl ha rfl
  | detachFrameSink hw ha hd => exact (h.detachSink hw hd).1
  | destroyWrap hw ha hd =>
    obtain ⟨hr, hj⟩ := h.detachSink hw hd
    rw [Parties.modify_eq_set_of hj]
    exact hr.set_wrap hj rfl rfl
  | @onFrame n i frame t r ht hi hd =>
    obtain ⟨k, hk, hf⟩ := h.listed n t i ht hi
    obtain ⟨hsound, hc, hfr⟩ := (h.sound i k hk).deliverFrame frame
    simp only [deref, hk, Option.map_some, Option.some.injEq] at hd
    subst hd
    rw [hf, h.fault]
    simpa [h.fault] using h.set_sink hk hsound hc hfr
  | @turn i t k context hk hc =>
    obtain ⟨hsound, hcl, hfr, hn⟩ := (h.sound i k hk).turned hc
    have hu : ((k.context.loop.started t).isSome && k.freed) = false := by
      cases hf : k.freed with
      | false => exact Bool.and_false _
      | true =>
        rw [hn ((h.sound i k hk).freed hf)]
        rfl
    rw [hu, h.fault]
    simpa [h.fault] using h.set_sink hk hsound hcl hfr

/-- All sinks are safe in every interleaving. -/
theorem safe_of_reachable {s : FrameSinks F} (h : (machine F).Reachable s) : s.Safe := by
  refine h.invariant ⟨rfl, ?_, ?_, ?_, ?_, ?_, ?_⟩ fun _ _ _ hi hs ↦ hi.step hs
  all_goals simp [machine]

private theorem closed_step {s s' : FrameSinks F} {a : FrameSinksAct F} (h : s.Safe)
    (hs : s.step a = some s') {i : Nat} {k : FrameSink F} (hk : s.sinks[i]? = some k)
    (hc : k.closed = true) :
    ∃ k', s'.sinks[i]? = some k' ∧ k'.closed = true ∧ k'.delivered = k.delivered := by
  have hdetach : ∀ {j : Nat} {w : MediaTrackWrap} {r : FrameSinks F}, s.wraps[j]? = some w →
      s.detachSink j w = some r → r.sinks[i]? = some k := by
    intro j w r hw hd
    rcases detachSink_cases h hw hd with ⟨-, rfl⟩ | ⟨m, c, context, hm, hcm, ho, -, rfl⟩
    · exact hk
    · rcases Parties.getElem?_after_set hcm hk with ⟨-, rfl, -⟩ | ⟨-, hb⟩
      · rw [ho] at hc
        cases hc
      · exact hb _
  have hset : ∀ {m : Nat} {c c' : FrameSink F}, s.sinks[m]? = some c → c'.closed = c.closed →
      (c.closed = true → c'.delivered = c.delivered) → ∃ k', (s.sinks.set m c')[i]? = some k' ∧
        k'.closed = true ∧ k'.delivered = k.delivered := by
    intro m c c' hm hcl hd
    rcases Parties.getElem?_after_set hm hk with ⟨-, rfl, hb⟩ | ⟨-, hb⟩
    · exact ⟨c', hb c', hcl.trans hc, hd hc⟩
    · exact ⟨k, hb c', hc, rfl⟩
  cases stepped hs with
  | subscribe | setAvailable | newInstance => exact ⟨k, hk, hc, rfl⟩
  | attachFrameSink hw _ hd =>
    refine ⟨k, ?_, hc, rfl⟩
    have hr := hdetach hw hd
    rw [(makeSink_frame _ _ _ _).2.1]
    exact (List.getElem?_append_left (List.getElem?_eq_some_iff.mp hr).1).trans hr
  | detachFrameSink hw _ hd => exact ⟨k, hdetach hw hd, hc, rfl⟩
  | destroyWrap hw _ hd =>
    have hr := hdetach hw hd
    exact ⟨k, hr, hc, rfl⟩
  | @onFrame n m frame t r ht hm hd =>
    obtain ⟨c, hcm, -⟩ := h.listed n t m ht hm
    simp only [deref, hcm, Option.map_some, Option.some.injEq] at hd
    subst hd
    refine hset hcm ((h.sound m c hcm).deliverFrame frame).2.1 fun hcl ↦ ?_
    simp [FrameSink.deliverFrame, hcl]
  | @turn m t c context hcm hct =>
    obtain ⟨-, hcl, -, hn⟩ := (h.sound m c hcm).turned hct
    refine hset hcm hcl fun hcl ↦ ?_
    rw [hn hcl]
    rfl

/-- Over every interleaving of the application, the garbage collector, rtc-cpp and the decoder
threads: no sink is used after it was freed, and WebRTC has none that was; a sink is open exactly
while one wrap that is alive has it, which is then the only one; the frames its callback was called
with are frames WebRTC delivered, in order and none of them twice; and once it is closed its
callback is never called again. -/
theorem sinks_safe (s : FrameSinks F) (h : (machine F).Reachable s) :
    s.fault = false ∧
    (∀ t ∈ s.tracks, ∀ i ∈ t.sinks, ∃ k, s.sinks[i]? = some k ∧ k.freed = false) ∧
    (∀ (i : Nat) (k : FrameSink F), s.sinks[i]? = some k →
      (k.closed = false ↔ ∃ (j : Nat) (w : MediaTrackWrap), s.wraps[j]? = some w ∧
        w.alive = true ∧ w.frameSink = some i ∧ ∀ (j' : Nat) (w' : MediaTrackWrap),
          s.wraps[j']? = some w' → w'.frameSink = some i → j' = j) ∧
      k.delivered.Sublist k.context.accepted ∧
      (k.closed = true → ∀ (as : List (FrameSinksAct F)) (s' : FrameSinks F),
        (machine F).exec s as = some s' → ∃ k' : FrameSink F, s'.sinks[i]? = some k' ∧
          k'.closed = true ∧ k'.delivered = k.delivered)) := by
  have hi := safe_of_reachable h
  refine ⟨hi.fault, ?_, fun i k hk ↦ ⟨?_, ?_, ?_⟩⟩
  · intro t ht i hm
    obtain ⟨n, hn⟩ := List.mem_iff_getElem?.mp ht
    exact hi.listed n t i hn hm
  · constructor
    · intro ho
      obtain ⟨j, w, hj, hw⟩ := hi.owned i k hk ho
      exact ⟨j, w, hj, (hi.held j w i hj hw).1, hw, fun j' w' hj' hw' ↦
        hi.once j w j' w' i hj hw hj' hw'⟩
    · rintro ⟨j, w, hj, -, hw, -⟩
      obtain ⟨-, k', hk', ho⟩ := hi.held j w i hj hw
      rw [hk] at hk'
      cases hk'
      exact ho
  · have hs := hi.sound i k hk
    obtain ⟨depth, hr⟩ := hs.context
    have ho := (Traffic.lawful hr).order
    rw [hs.delivered]
    exact (List.sublist_append_left _ _).trans ho
  · intro hc as s' hr
    have hp : ∃ k' : FrameSink F, s'.sinks[i]? = some k' ∧ k'.closed = true ∧
        k'.delivered = k.delivered ∧ s'.Safe := by
      refine Machine.exec_invariant (p := fun s' : FrameSinks F ↦
        ∃ k' : FrameSink F, s'.sinks[i]? = some k' ∧ k'.closed = true ∧
          k'.delivered = k.delivered ∧ s'.Safe) ?_ ⟨k, hk, hc, rfl, hi⟩ hr
      rintro u a u' ⟨c, hc, hcl, hd, hu⟩ hs
      obtain ⟨c', hc', hcl', hd'⟩ := closed_step hu hs hc hcl
      exact ⟨c', hc', hcl', hd'.trans hd, hu.step hs⟩
    obtain ⟨k', hk', hc', hd', -⟩ := hp
    exact ⟨k', hk', hc', hd'⟩

-- A track two wraps listen to; one lets go before and one after the Room ended remotely.
private def endedRemotely : List (FrameSinksAct Nat) :=
  [.subscribe, .newInstance 0, .newInstance 0, .attachFrameSink 0 5, .attachFrameSink 1 1,
    .onFrame 0 0 1, .onFrame 0 1 1, .turn 0 .onAsync, .turn 0 .swap, .turn 0 .next,
    .detachFrameSink 0, .turn 0 .returned, .setAvailable 0 false, .destroyWrap 1, .onFrame 0 1 2]

/-- The sink let go of after the end is still called, and neither freed nor delivering. -/
theorem sinks_safe_endedRemotely : ∃ s, (machine Nat).Reachable s ∧
    s.tracks = [⟨false, [1]⟩] ∧
    s.sinks.map (fun k ↦ (k.closed, k.freed, k.delivered)) =
      [(true, true, [1]), (true, false, [])] ∧ s.fault = false := by
  have hrun : ((machine Nat).exec (machine Nat).init endedRemotely).map (fun s ↦
      (s.tracks, s.sinks.map fun k ↦ (k.closed, k.freed, k.delivered))) =
      some ([⟨false, [1]⟩], [(true, true, [1]), (true, false, [])]) := by decide +kernel
  obtain ⟨s, hs, hr⟩ := Option.map_eq_some_iff.mp hrun
  obtain ⟨ht, hk⟩ := Prod.mk.inj hr
  exact ⟨s, ⟨endedRemotely, hs⟩, ht, hk, (sinks_safe s ⟨endedRemotely, hs⟩).1⟩

end FrameSinks

end VideoNode.Frames
