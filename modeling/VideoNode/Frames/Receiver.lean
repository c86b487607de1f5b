import Mathlib.Data.List.ReduceOption
import VideoNode.Common.Delivery
import VideoNode.Frames.Consumption

/-!
# The receive pipeline

A media track with an active receiver: the decoder hands frames to the sink on a native thread
(`src/sinks/video_frame_sink.cpp`, `src/sinks/audio_frame_sink.cpp`), the sink's bounded
`AsyncContext` carries them to the JS thread, and its callback pushes each one into the
`FrameStream` the consumer iterates (`lib/remote_track.ts`). A callback that returns is the only
kind here, and the receiver stays attached.
-/

namespace VideoNode.Frames

open VideoNode.Js VideoNode.Common VideoNode.Lts

/-- The depth of the native transfer queue for the second argument of `_attachFrameSink`;
`src/media/remote_video_track_wrap.cpp:98–102`, `remote_audio_track_wrap.cpp:85–89`. -/
def attachDepth : JsValue → Nat
  | .number (.finite d) =>
    if 1 ≤ d ∧ d ≤ 1024 then d.floor.toNat else AsyncContext.kDefaultMaxQueueDepth
  | _ => AsyncContext.kDefaultMaxQueueDepth

/-- A resolved bound passes the native clamp unchanged. -/
theorem attachDepth_resolved (r : ResolvedOptions) :
    attachDepth (.ofNat r.maxQueue) = r.maxQueue := by
  have hp : (1 : ℚ) ≤ r.maxQueue := by exact_mod_cast r.pos
  have hc : (r.maxQueue : ℚ) ≤ 1024 := by exact_mod_cast r.ceiling
  have hf : (r.maxQueue : ℚ).floor = (r.maxQueue : Int) := by
    exact_mod_cast Rat.floor_intCast r.maxQueue
  simp [attachDepth, JsValue.ofNat, hp, hc, hf]

/-- The two queues, with every frame the decoder handed to the sink since it was attached;
`none` is a frame `ToI420()` gave no buffer for, or whose copy threw. -/
structure Receiver (T : Type) where
  decoded : List (Option T)
  native : Traffic T
  js : Consumption T

/-- What the decoder thread, the JS thread's drains, the consumer and the report timer do. -/
inductive ReceiverAct (T : Type) where
  | onFrame (frame : Option T)
  | turn (t : Turn)
  | next
  | timer (nowUs : Int)
  deriving DecidableEq, Repr

namespace Receiver

variable {T : Type} {timestamp : T → JsNumber}

/-- The sink and the stream of a fresh receiver; `lib/remote_track.ts:121–155`. -/
def attached (r : ResolvedOptions) : Receiver T where
  decoded := []
  native := ⟨.create (attachDepth (.ofNat r.maxQueue)), [], []⟩
  js := ⟨.create r true true, [], 0, []⟩

/-- `frames()` on a track without an active receiver; `lib/remote_track.ts:112–165`. -/
def frames (kind : TrackKind) (options : JsValue) : Except JsError (Receiver T) :=
  (resolveOptions kind options).map attached

/-- `OnFrame`; `src/sinks/video_frame_sink.cpp:28–76`, `audio_frame_sink.cpp:28–70`. -/
def onFrame (w : Receiver T) : Option T → Option (Receiver T)
  | none =>
    -- `if (!i420Buffer) return;`, or an exception the sink swallows.
    some { w with decoded := w.decoded ++ [none] }
  | some frame =>
    (w.native.step (.dispatch frame)).map fun native ↦
      { w with decoded := w.decoded ++ [some frame], native := native }

/-- One step of one thread; a callback the drain starts pushes its frame into the stream. -/
def step (timestamp : T → JsNumber) (w : Receiver T) : ReceiverAct T → Option (Receiver T)
  | .onFrame frame => w.onFrame frame
  | .turn (.threw _) => none
  | .turn t =>
    (w.native.step (.turn t)).bind fun native ↦
      match w.native.loop.started t with
      | none => some { w with native := native }
      | some frame =>
        (w.js.step timestamp (.push frame)).map fun js ↦ { w with native := native, js := js }
  | .next => (w.js.step timestamp .next).map fun js ↦ { w with js := js }
  | .timer nowUs => (w.js.step timestamp (.timer nowUs)).map fun js ↦ { w with js := js }

/-- What can happen to a receiver from the state `frames()` left it in. -/
def machine (timestamp : T → JsNumber) (w : Receiver T) :
    Machine (Receiver T) (ReceiverAct T) where
  init := w
  step := step timestamp

/-- `_sinkStats()`; `src/media/remote_video_track_wrap.cpp:120–128`. -/
def sinkStats (w : Receiver T) : NativeStats :=
  ⟨w.native.loop.ctx.dropped, w.native.loop.ctx.queueDepth⟩

/-- `getStats()` of the track while the receiver is active; `lib/remote_track.ts:171–175`. -/
def getStats (w : Receiver T) : DeliveryStats := w.js.stream.getStats (some w.sinkStats)

/-- Frames the sink accepted: those it had a buffer for. -/
def converted (w : Receiver T) : List T := w.decoded.reduceOption

/-- Each queue is in a state of its own runs, and what leaves the native queue is what was
pushed into the other one. -/
structure Inv (timestamp : T → JsNumber) (r : ResolvedOptions) (w : Receiver T) : Prop where
  native : (Traffic.machine T r.maxQueue).Reachable w.native
  js : (Consumption.machine timestamp r true true).Reachable w.js
  live : w.js.stream.ended = false
  isOpen : w.native.loop.ctx.closed = false
  handoff : w.js.pushed = w.native.started
  sunk : w.converted = w.native.accepted
  uncaught : ∀ error rest, w.native.loop.drain ≠ .caught error rest
  bound : w.native.loop.ctx.queue.length ≤ r.maxQueue

/-- A fresh receiver. -/
theorem inv_attached (r : ResolvedOptions) : Inv timestamp r (attached r : Receiver T) := by
  have he : (attached r : Receiver T).native = (Traffic.machine T r.maxQueue).init := by
    rw [attached, attachDepth_resolved]
    rfl
  refine ⟨?_, Machine.reachable_init _, rfl, rfl, rfl, rfl, ?_, Nat.zero_le _⟩
  · rw [he]
    exact Machine.reachable_init _
  · intro error rest hd
    cases hd

private theorem inv_native {r : ResolvedOptions} {w : Receiver T} {n : Traffic T}
    {a : TrafficAct T} (h : Inv timestamp r w) (hs : w.native.step a = some n) :
    (Traffic.machine T r.maxQueue).Reachable n ∧ n.loop.ctx.queue.length ≤ r.maxQueue := by
  refine ⟨h.native.step hs, ?_⟩
  rw [Traffic.length_step r.pos (Traffic.inv_of_reachable h.native) h.bound hs]
  intro error rest _ hd
  exact absurd hd (h.uncaught error rest)

private theorem inv_onFrame {r : ResolvedOptions} {w w' : Receiver T} {frame : Option T}
    (h : Inv timestamp r w) (hs : w.onFrame frame = some w') : Inv timestamp r w' := by
  cases frame with
  | none =>
    cases hs
    refine ⟨h.native, h.js, h.live, h.isOpen, h.handoff, ?_, h.uncaught, h.bound⟩
    simpa [converted, List.reduceOption_append] using h.sunk
  | some frame =>
    obtain ⟨n, hn, rfl⟩ := Option.map_eq_some_iff.mp hs
    obtain ⟨hr, hb⟩ := inv_native h hn
    cases Traffic.stepped hn
    refine ⟨hr, h.js, h.live, ?_, h.handoff, ?_, h.uncaught, hb⟩
    · rw [AsyncContext.dispatch_of_open h.isOpen]
      exact h.isOpen
    · have hc := h.sunk
      simp only [converted] at hc
      simp [converted, List.reduceOption_append, hc, h.isOpen]

private theorem uncaught_turn {l l' : Loop T} {t : Turn} (ht : ∀ e, t ≠ .threw e)
    (hl : l.turn t = some l') (error : String) (rest : List T) :
    l'.drain ≠ .caught error rest := by
  cases Loop.turned hl with
  | threw => exact absurd rfl (ht _)
  | _ => simp

/-- Inversion of a step through a drain: at most one callback starts, and it pushes its frame. -/
theorem turned {w w' : Receiver T} {t : Turn} (hs : w.step timestamp (.turn t) = some w') :
    (∀ e, t ≠ .threw e) ∧ ∃ n, w.native.step (.turn t) = some n ∧
      ((w.native.loop.started t = none ∧ w' = { w with native := n }) ∨
        ∃ frame j, w.native.loop.started t = some frame ∧
          w.js.step timestamp (.push frame) = some j ∧
          w' = { w with native := n, js := j }) := by
  by_cases ht : ∀ e, t ≠ .threw e
  · have hs : ((w.native.step (.turn t)).bind fun native ↦
        match w.native.loop.started t with
        | none => some { w with native := native }
        | some frame =>
          (w.js.step timestamp (.push frame)).map fun js ↦
            { w with native := native, js := js }) = some w' := by
      cases t with
      | threw e => exact absurd rfl (ht e)
      | _ => exact hs
    obtain ⟨n, hn, hs⟩ := Option.bind_eq_some_iff.mp hs
    refine ⟨ht, n, hn, ?_⟩
    split at hs
    · next hst =>
      cases hs
      exact .inl ⟨hst, rfl⟩
    · next frame hst =>
      obtain ⟨j, hj, rfl⟩ := Option.map_eq_some_iff.mp hs
      exact .inr ⟨frame, j, hst, hj, rfl⟩
  · cases t with
    | threw e => cases hs
    | _ => exact absurd (by simp) ht

private theorem inv_turn {r : ResolvedOptions} {w w' : Receiver T} {t : Turn}
    (h : Inv timestamp r w) (hs : w.step timestamp (.turn t) = some w') :
    Inv timestamp r w' := by
  obtain ⟨ht, n, hn, hs⟩ := turned hs
  obtain ⟨hr, hb⟩ := inv_native h hn
  obtain ⟨l, hl, rfl⟩ := Option.map_eq_some_iff.mp hn
  have ho : l.ctx.closed = false := (Loop.turn_frame hl).1.trans h.isOpen
  have hu := uncaught_turn ht hl
  rcases hs with ⟨hst, rfl⟩ | ⟨frame, j, hst, hj, rfl⟩
  · refine ⟨hr, h.js, h.live, ho, ?_, h.sunk, hu, hb⟩
    simp [h.handoff, hst]
  · refine ⟨hr, h.js.step (a := .push frame) hj, ?_, ho, ?_, h.sunk, hu, hb⟩
    · rw [Consumption.ended_eq_of_ne (by simp) (by simp) hj]
      exact h.live
    · cases hj
      simp [h.handoff, h.live, hst]

private theorem inv_js {r : ResolvedOptions} {w : Receiver T} {j : Consumption T}
    {a : ConsumptionAct T} (h : Inv timestamp r w) (ha : a = .next ∨ ∃ t, a = .timer t)
    (hj : w.js.step timestamp a = some j) : Inv timestamp r { w with js := j } := by
  have he : j.stream.ended = w.js.stream.ended := by
    apply Consumption.ended_eq_of_ne _ _ hj
    · rcases ha with rfl | ⟨t, rfl⟩ <;> simp
    · rcases ha with rfl | ⟨t, rfl⟩ <;> simp
  have hp : j.pushed = w.js.pushed := by
    rcases ha with rfl | ⟨t, rfl⟩
    · cases hj
      rfl
    · simp only [Consumption.step] at hj
      split at hj
      · cases hj
        rfl
      · cases hj
  exact ⟨h.native, h.js.step hj, he.trans h.live, h.isOpen, hp.trans h.handoff, h.sunk,
    h.uncaught, h.bound⟩

/-- Every step keeps the invariant. -/
theorem inv_step {r : ResolvedOptions} {w w' : Receiver T} {a : ReceiverAct T}
    (h : Inv timestamp r w) (hs : w.step timestamp a = some w') : Inv timestamp r w' := by
  cases a with
  | onFrame frame => exact inv_onFrame h hs
  | turn t => exact inv_turn h hs
  | next =>
    simp only [step, Option.map_eq_some_iff] at hs
    obtain ⟨j, hj, rfl⟩ := hs
    exact inv_js h (.inl rfl) hj
  | timer nowUs =>
    simp only [step, Option.map_eq_some_iff] at hs
    obtain ⟨j, hj, rfl⟩ := hs
    exact inv_js h (.inr ⟨nowUs, rfl⟩) hj

/-- A decoded frame the sink has a buffer for is accepted, and the JS side is left alone. -/
theorem onFrame_frame {w w' : Receiver T} {frame : Option T} (hs : w.onFrame frame = some w') :
    w'.js = w.js ∧ w'.converted = w.converted ++ frame.toList := by
  cases frame with
  | none =>
    cases hs
    exact ⟨rfl, by simp [converted, List.reduceOption_append]⟩
  | some frame =>
    obtain ⟨n, hn, rfl⟩ := Option.map_eq_some_iff.mp hs
    exact ⟨rfl, by simp [converted, List.reduceOption_append]⟩

/-- The frames of a step that the sink has a buffer for. -/
def converts : ReceiverAct T → List T
  | .onFrame frame => frame.toList
  | .turn _ | .next | .timer _ => []

/-- Only what the decoder hands to the sink is accepted. -/
theorem converted_step {w w' : Receiver T} {a : ReceiverAct T} (hs : w.step timestamp a = some w') :
    w'.converted = w.converted ++ converts a := by
  cases a with
  | onFrame frame => exact (onFrame_frame hs).2
  | turn t =>
    obtain ⟨-, n, -, ⟨-, rfl⟩ | ⟨frame, j, -, -, rfl⟩⟩ := turned hs <;>
      exact (List.append_nil _).symm
  | next | timer nowUs =>
    simp only [step, Option.map_eq_some_iff] at hs
    obtain ⟨j, -, rfl⟩ := hs
    exact (List.append_nil _).symm

/-- What a step does to the JS side is one method call on the stream, or nothing. -/
theorem js_step {w w' : Receiver T} {a : ReceiverAct T} (hs : w.step timestamp a = some w') :
    w'.js = w.js ∨ ∃ b, w.js.step timestamp b = some w'.js := by
  cases a with
  | onFrame frame => exact .inl (onFrame_frame hs).1
  | turn t =>
    obtain ⟨-, n, -, ⟨-, rfl⟩ | ⟨frame, j, -, hj, rfl⟩⟩ := turned hs
    · exact .inl rfl
    · exact .inr ⟨_, hj⟩
  | next | timer nowUs =>
    simp only [step, Option.map_eq_some_iff] at hs
    obtain ⟨j, hj, rfl⟩ := hs
    exact .inr ⟨_, hj⟩

/-- The native side accounts for every frame it accepted, with those a drain has in hand. -/
theorem native_count {r : ResolvedOptions} {w : Receiver T} (h : Inv timestamp r w) :
    w.converted.length = w.native.started.length + w.native.loop.ctx.dropped +
      w.native.loop.ctx.queueDepth + w.native.loop.drain.batch.length := by
  have hc : w.native.channel.posted.length = _ := (Traffic.lawful h.native).count
  simp only [Traffic.channel, h.isOpen, Loop.contents, List.length_append, Bool.false_eq_true,
    if_false] at hc
  rw [h.sunk, AsyncContext.queueDepth]
  omega

/-- The JS queue accounts for every frame that left the native one. -/
theorem js_count {r : ResolvedOptions} {w : Receiver T} (h : Inv timestamp r w) :
    w.native.started.length =
      w.js.stream.delivered + w.js.stream.dropped + w.js.stream.queue.length := by
  have hc : w.js.pushed.length = w.js.handed.length + w.js.stream.queue.length +
      w.js.stream.dropped := (Consumption.lawful h.js).count
  rw [← h.handoff, (Consumption.inv_of_reachable h.js).delivered]
  omega

/-- The consumer gets frames the sink accepted, in the order it did. -/
theorem handed_sublist {r : ResolvedOptions} {w : Receiver T} (h : Inv timestamp r w) :
    w.js.handed.Sublist w.converted := by
  have hj : (w.js.handed ++ w.js.stream.queue).Sublist w.js.pushed :=
    (Consumption.lawful h.js).order
  have hn : (w.native.started ++ w.native.channel.waiting).Sublist w.native.accepted :=
    (Traffic.lawful h.native).order
  rw [h.handoff] at hj
  rw [h.sunk]
  exact ((List.sublist_append_left _ _).trans hj).trans
    ((List.sublist_append_left _ _).trans hn)

/-- `frames()` starts a receiver with the options it resolves. -/
theorem frames_ok {kind : TrackKind} {options : JsValue} {w : Receiver T}
    (h : frames kind options = .ok w) :
    ∃ r, resolveOptions kind options = .ok r ∧ w = attached r := by
  unfold frames at h
  cases hr : resolveOptions kind options with
  | error e =>
    rw [hr] at h
    cases h
  | ok r =>
    rw [hr] at h
    cases h
    exact ⟨r, rfl, rfl⟩

/-- The receive pipeline of every accepted options object: the native bound is the resolved
`maxQueue`, both queues keep to it, the consumer gets frames of the decoder in order and none
twice, and whenever no drain is in progress `getStats()` accounts for every frame the sink had
a buffer for. -/
theorem pipeline_conservation (kind : TrackKind) (options : JsValue) (w₀ w : Receiver T)
    (h₀ : frames kind options = .ok w₀) (h : (machine timestamp w₀).Reachable w) :
    ∃ r, resolveOptions kind options = .ok r ∧
      w.native.loop.ctx.maxQueueDepth = r.maxQueue ∧
      w.native.loop.ctx.queue.length ≤ r.maxQueue ∧
      w.js.stream.queue.length ≤ r.maxQueue ∧
      w.js.handed.Sublist w.converted ∧
      (w.converted.Nodup → w.js.handed.Nodup) ∧
      (w.native.loop.drain = .idle → w.converted.length = w.getStats.framesDelivered +
        w.getStats.framesDropped + w.getStats.queueDepth) := by
  obtain ⟨r, hr, rfl⟩ := frames_ok h₀
  have hi : Inv timestamp r w :=
    h.invariant (inv_attached r) fun _ _ _ hv hs ↦ inv_step hv hs
  have hsub := handed_sublist hi
  refine ⟨r, hr, (Traffic.inv_of_reachable hi.native).depth, hi.bound,
    (Consumption.inv_of_reachable hi.js).bound, hsub, fun hn ↦ hn.sublist hsub, ?_⟩
  intro hd
  have hn := native_count hi
  have hj := js_count hi
  simp only [hd, Drain.batch, List.length_nil] at hn
  simp only [getStats, FrameStream.getStats, sinkStats, Option.getD_some]
  omega

private def stamp (n : Nat) : JsNumber := .finite n

-- A `latest` receiver that gets one frame through, queues another and sheds one natively.
private def latestRun : List (ReceiverAct Nat) :=
  [.onFrame (some 1), .turn .onAsync, .turn .swap, .next, .turn .next, .turn .returned,
    .turn .next, .onFrame (some 2), .onFrame (some 3)]

/-- The account of a receiver with the default video options. -/
theorem pipeline_conservation_latest : ∃ w : Receiver Nat,
    (machine stamp (attached (DEFAULTS .video))).Reachable w ∧ w.js.handed = [1] ∧
    w.converted.length = w.getStats.framesDelivered + w.getStats.framesDropped +
      w.getStats.queueDepth := by
  have h₀ : frames .video .undefined = .ok (attached (DEFAULTS .video) : Receiver Nat) := rfl
  have hr : (machine stamp (attached (DEFAULTS .video))).Reachable _ := ⟨latestRun, rfl⟩
  obtain ⟨r, -, -, -, -, -, -, hc⟩ := pipeline_conservation .video .undefined _ _ h₀ hr
  exact ⟨_, hr, rfl, hc rfl⟩

/-- A frame the sink has no buffer for is handed to it and counted nowhere. -/
theorem unconverted_uncounted : ¬ ∀ (kind : TrackKind) (options : JsValue) (w₀ w : Receiver Nat),
    frames kind options = .ok w₀ → (machine stamp w₀).Reachable w →
    w.native.loop.drain = .idle → w.decoded.length = w.getStats.framesDelivered +
      w.getStats.framesDropped + w.getStats.queueDepth := by
  intro h
  have hr : (machine stamp (attached (DEFAULTS .video))).Reachable _ :=
    ⟨[.onFrame none], rfl⟩
  have he := h .video .undefined _ _ rfl hr rfl
  exact absurd he (by decide)

end Receiver

end VideoNode.Frames
