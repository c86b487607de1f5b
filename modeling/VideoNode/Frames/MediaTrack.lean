import VideoNode.Frames.Receiver

/-!
# The receivers of one media track

`RemoteMediaTrack` of `lib/remote_track.ts` over all the receivers `frames()` gives it one after
another. Each receiver has a sink of its own, and `nextFrameId_` is a member of the sink
(`src/sinks/video_frame_sink.h:53–56`). A receiver that has ended stays around, since the
application may go on calling its iterator and a drain of its sink may still be on the stack.
-/

namespace VideoNode.Frames

open VideoNode.Js VideoNode.Common VideoNode.Lts

/-- What a sink hands on for a decoded frame; `src/sinks/video_frame_sink.h:12–26`. -/
structure FrameData (P : Type) where
  frameId : UInt32
  payload : P
  deriving DecidableEq

/-- How `OnFrame` fares with a decoded frame: there is no buffer, the copy throws behind the
counter, or the frame is handed on. -/
inductive Decoded (P : Type) where
  | noBuffer
  | copyThrew
  | copied (payload : P)
  deriving DecidableEq, Repr

/-- The active receiver: the counter of its sink, how many ids it has given out, and the two
queues behind it. -/
structure Reception (P : Type) where
  nextFrameId : UInt32
  taken : Nat
  receiver : Receiver (FrameData P)

/-- `this.stream`, the receivers that have ended, and every frame the application was given for
the track so far. -/
structure MediaTrack (P : Type) where
  stream : Option (Reception P)
  past : List (Receiver (FrameData P))
  given : List (FrameData P)

/-- What can happen to a track. A step of a receiver is one of its JS thread, its consumer or its
report timer; a decoded frame reaches it through the sink alone. -/
inductive MediaTrackAct (P : Type) where
  | frames (options : JsValue)
  | onFrame (decoded : Decoded P)
  | receiver (a : ReceiverAct (FrameData P))
  /-- `_end()` of the track, or `return()` of the active iterator. -/
  | end_
  | past (i : Nat) (a : ReceiverAct (FrameData P))

/-- `OnFrame` and `OnData`; `src/sinks/video_frame_sink.cpp:28–66`,
`src/sinks/audio_frame_sink.cpp:28–61`. -/
def Reception.onFrame {P : Type} (r : Reception P) : Decoded P → Option (Reception P)
  | .noBuffer => (r.receiver.onFrame none).map fun receiver ↦ { r with receiver := receiver }
  | .copyThrew => (r.receiver.onFrame none).map fun receiver ↦
      ⟨r.nextFrameId + 1, r.taken + 1, receiver⟩
  | .copied payload => (r.receiver.onFrame (some ⟨r.nextFrameId, payload⟩)).map fun receiver ↦
      ⟨r.nextFrameId + 1, r.taken + 1, receiver⟩

namespace MediaTrack

variable {P : Type} {kind : TrackKind} {timestamp : FrameData P → JsNumber}

/-- The frames a receiver's step hands to the application. -/
def handedOver (old new : Receiver (FrameData P)) : List (FrameData P) :=
  new.js.handed.drop old.js.handed.length

/-- The steps of a receiver that do not go through `OnFrame`. -/
def serve (timestamp : FrameData P → JsNumber) (receiver : Receiver (FrameData P)) :
    ReceiverAct (FrameData P) → Option (Receiver (FrameData P))
  | .onFrame _ => none
  | a => receiver.step timestamp a

/-- `frames()`; `lib/remote_track.ts:112–165`. `AttachFrameSink` makes a new sink
(`src/media/remote_video_track_wrap.cpp:104–107`), whose counter starts at 0. -/
def frames (kind : TrackKind) (w : MediaTrack P) (options : JsValue) : MediaTrack P :=
  match w.stream, Receiver.frames kind options with
  | none, .ok receiver => { w with stream := some ⟨0, 0, receiver⟩ }
  -- A receiver is already active, or the options are rejected: it throws.
  | _, _ => w

/-- The stream ends and its `onEnd` detaches the sink, which destroys the native queue;
`lib/remote_track.ts:125–138`, `src/sinks/video_frame_sink.cpp:15–25`. -/
def endReceiver (timestamp : FrameData P → JsNumber) (receiver : Receiver (FrameData P)) :
    Option (Receiver (FrameData P)) :=
  (receiver.js.step timestamp .end_).bind fun js ↦
    (receiver.native.step .destroy).map fun native ↦
      { receiver with native := native, js := js }

/-- One step of a track. -/
def step (kind : TrackKind) (timestamp : FrameData P → JsNumber) (w : MediaTrack P) :
    MediaTrackAct P → Option (MediaTrack P)
  | .frames options => some (w.frames kind options)
  | .onFrame decoded =>
    match w.stream with
    | none => some w
    | some r => (r.onFrame decoded).map fun r' ↦ { w with stream := some r' }
  | .receiver a =>
    w.stream.bind fun r ↦ (serve timestamp r.receiver a).map fun receiver ↦
      { w with
        stream := some { r with receiver := receiver }
        given := w.given ++ handedOver r.receiver receiver }
  | .end_ =>
    match w.stream with
    | none => some w
    | some r => (endReceiver timestamp r.receiver).map fun receiver ↦
        ⟨none, w.past ++ [receiver], w.given ++ handedOver r.receiver receiver⟩
  | .past i a =>
    w.past[i]?.bind fun old ↦ (serve timestamp old a).map fun receiver ↦
      { w with
        past := w.past.set i receiver
        given := w.given ++ handedOver old receiver }

/-- A subscribed track before its first receiver, and everything that can happen to it. -/
def machine (kind : TrackKind) (timestamp : FrameData P → JsNumber) :
    Machine (MediaTrack P) (MediaTrackAct P) where
  init := ⟨none, [], []⟩
  step := step kind timestamp

/-- Of two frames the application was given, the later one has the larger `frameId`. -/
def Increasing (w : MediaTrack P) : Prop :=
  (w.given.map fun frame ↦ frame.frameId.toNat).Pairwise (· < ·)

instance (w : MediaTrack P) : Decidable w.Increasing :=
  inferInstanceAs (Decidable (List.Pairwise _ _))

/-- The ids go on from those the application has seen: `frames()` starts a receiver only while no
frame of the track was given to it, and the counter of a sink has not wrapped around. -/
def CountsOn (kind : TrackKind) (w : MediaTrack P) : MediaTrackAct P → Prop
  | .frames options =>
    w.stream.isNone → (resolveOptions kind options).toBool → w.given = []
  | .onFrame _ => ∀ r, w.stream = some r → r.taken < 2 ^ 32
  | .receiver _ | .end_ | .past _ _ => True

instance (w : MediaTrack P) (a : MediaTrackAct P) : Decidable (w.CountsOn kind a) :=
  match a with
  | .frames options => inferInstanceAs
      (Decidable (w.stream.isNone → (resolveOptions kind options).toBool → w.given = []))
  | .onFrame _ => inferInstanceAs (Decidable (∀ r ∈ w.stream, r.taken < 2 ^ 32))
  | .receiver _ | .end_ | .past _ _ => inferInstanceAs (Decidable True)

/-- Serving is a step of the receiver. -/
theorem step_of_serve {receiver receiver' : Receiver (FrameData P)}
    {a : ReceiverAct (FrameData P)} (hs : serve timestamp receiver a = some receiver') :
    receiver.step timestamp a = some receiver' := by
  cases a with
  | onFrame frame => cases hs
  | turn t | next | timer nowUs => exact hs

/-- Serving leaves what the decoder handed to the sink. -/
theorem decoded_serve {receiver receiver' : Receiver (FrameData P)}
    {a : ReceiverAct (FrameData P)} (hs : serve timestamp receiver a = some receiver') :
    receiver'.decoded = receiver.decoded := by
  cases a with
  | onFrame frame => cases hs
  | turn t =>
    obtain ⟨-, n, -, ⟨-, rfl⟩ | ⟨frame, js, -, -, rfl⟩⟩ := Receiver.turned hs <;> rfl
  | next | timer nowUs =>
    simp only [serve, Receiver.step, Option.map_eq_some_iff] at hs
    obtain ⟨js, hj, rfl⟩ := hs
    rfl

end MediaTrack

namespace Reception

variable {P : Type} {timestamp : FrameData P → JsNumber}

/-- The counter has given out as many ids as it says, in order, and the sink accepted frames
under some of them. -/
structure Inv (timestamp : FrameData P → JsNumber) (r : Reception P) : Prop where
  receiver : ∃ opts, Receiver.Inv timestamp opts r.receiver
  counter : r.nextFrameId = UInt32.ofNat r.taken
  ids : (r.receiver.converted.map FrameData.frameId).Sublist
    ((List.range r.taken).map UInt32.ofNat)

/-- Until the counter wraps around, a receiver hands over frames with increasing ids. -/
theorem Inv.increasing {r : Reception P} (h : Inv timestamp r) (ht : r.taken ≤ 2 ^ 32) :
    (r.receiver.js.handed.map fun frame ↦ frame.frameId.toNat).Pairwise (· < ·) := by
  obtain ⟨opts, hi⟩ := h.receiver
  have hsub := ((Receiver.handed_sublist hi).map FrameData.frameId).trans h.ids
  have hrange : (((List.range r.taken).map UInt32.ofNat).map UInt32.toNat).Pairwise (· < ·) := by
    have he : ((List.range r.taken).map UInt32.ofNat).map UInt32.toNat = List.range r.taken := by
      have hn : ∀ n ∈ List.range r.taken, (UInt32.toNat ∘ UInt32.ofNat) n = id n := by
        intro n hn
        have hn := List.mem_range.mp hn
        apply UInt32.toNat_ofNat_of_lt'
        show n < 2 ^ 32
        omega
      rw [List.map_map, List.map_congr_left hn, List.map_id]
    rw [he]
    exact List.pairwise_lt_range
  have hp := hrange.sublist (hsub.map UInt32.toNat)
  rw [List.map_map] at hp
  exact hp

private theorem inv_take {r : Reception P} {receiver : Receiver (FrameData P)}
    {frame : Option (FrameData P)} (h : Inv timestamp r)
    (hf : ∀ f, frame = some f → f.frameId = r.nextFrameId)
    (hs : r.receiver.onFrame frame = some receiver) :
    Inv timestamp ⟨r.nextFrameId + 1, r.taken + 1, receiver⟩ := by
  obtain ⟨opts, hi⟩ := h.receiver
  refine ⟨⟨opts, Receiver.inv_step (a := .onFrame frame) hi hs⟩, ?_, ?_⟩
  · rw [h.counter]
    simp
  · rw [(Receiver.onFrame_frame hs).2, List.range_succ, List.map_append, List.map_append]
    apply h.ids.append
    cases frame with
    | none => simp
    | some f => simp [hf f rfl, h.counter]

/-- `OnFrame` keeps count and hands nothing over. -/
theorem inv_onFrame {r r' : Reception P} {decoded : Decoded P} (h : Inv timestamp r)
    (hs : r.onFrame decoded = some r') :
    Inv timestamp r' ∧ r'.receiver.js = r.receiver.js ∧ r'.taken ≤ r.taken + 1 := by
  obtain ⟨opts, hi⟩ := h.receiver
  cases decoded with
  | noBuffer =>
    simp only [onFrame, Option.map_eq_some_iff] at hs
    obtain ⟨receiver, hr, rfl⟩ := hs
    obtain ⟨hj, hc⟩ := Receiver.onFrame_frame hr
    refine ⟨⟨⟨opts, Receiver.inv_step (a := .onFrame none) hi hr⟩, h.counter, ?_⟩, hj, ?_⟩
    · simpa [hc] using h.ids
    · simp
  | copyThrew =>
    simp only [onFrame, Option.map_eq_some_iff] at hs
    obtain ⟨receiver, hr, rfl⟩ := hs
    refine ⟨inv_take h ?_ hr, (Receiver.onFrame_frame hr).1, Nat.le_refl _⟩
    intro f hf
    cases hf
  | copied payload =>
    simp only [onFrame, Option.map_eq_some_iff] at hs
    obtain ⟨receiver, hr, rfl⟩ := hs
    refine ⟨inv_take h ?_ hr, (Receiver.onFrame_frame hr).1, Nat.le_refl _⟩
    intro f hf
    cases hf
    rfl

/-- Every other step of the receiver keeps count as well. -/
theorem inv_serve {r : Reception P} {receiver : Receiver (FrameData P)}
    {a : ReceiverAct (FrameData P)} (h : Inv timestamp r)
    (hs : MediaTrack.serve timestamp r.receiver a = some receiver) :
    Inv timestamp { r with receiver := receiver } := by
  obtain ⟨opts, hi⟩ := h.receiver
  refine ⟨⟨opts, Receiver.inv_step (a := a) hi (MediaTrack.step_of_serve hs)⟩, h.counter, ?_⟩
  have hc : receiver.converted = r.receiver.converted := by
    rw [Receiver.converted, MediaTrack.decoded_serve hs]
    rfl
  simpa [hc] using h.ids

end Reception

namespace MediaTrack

variable {P : Type} {kind : TrackKind} {timestamp : FrameData P → JsNumber}

/-- A receiver whose stream has ended. -/
structure Ended (timestamp : FrameData P → JsNumber) (old : Receiver (FrameData P)) : Prop where
  js : ∃ opts, (Consumption.machine timestamp opts true true).Reachable old.js
  ended : old.js.stream.ended = true

/-- An active receiver whose counter has not wrapped around, and which has handed over every
frame the application was given. -/
structure Sole (timestamp : FrameData P → JsNumber) (given : List (FrameData P))
    (r : Reception P) : Prop where
  counts : r.Inv timestamp
  unwrapped : r.taken ≤ 2 ^ 32
  handed : given = r.receiver.js.handed

/-- What holds for as long as the ids go on. -/
structure Inv (timestamp : FrameData P → JsNumber) (w : MediaTrack P) : Prop where
  past : ∀ old ∈ w.past, Ended timestamp old
  active : ∀ r, w.stream = some r → Sole timestamp w.given r
  increasing : w.Increasing

private theorem handed_append {old new : Receiver (FrameData P)}
    (h : old.js.handed <+: new.js.handed) :
    old.js.handed ++ handedOver old new = new.js.handed := by
  obtain ⟨rest, hrest⟩ := h
  rw [handedOver, ← hrest, List.drop_left]

private theorem handedOver_of_eq {old new : Receiver (FrameData P)}
    (h : new.js.handed = old.js.handed) : handedOver old new = [] := by
  rw [handedOver, h, List.drop_length]

private theorem handed_serve {old new : Receiver (FrameData P)}
    {a : ReceiverAct (FrameData P)} (hs : serve timestamp old a = some new) :
    old.js.handed <+: new.js.handed := by
  rcases Receiver.js_step (step_of_serve hs) with hj | ⟨b, hj⟩
  · rw [hj]
  · exact Consumption.handed_grows hj

/-- Whatever is done with an ended receiver, it hands nothing over. -/
theorem ended_serve {old new : Receiver (FrameData P)} {a : ReceiverAct (FrameData P)}
    (h : Ended timestamp old) (hs : serve timestamp old a = some new) :
    Ended timestamp new ∧ handedOver old new = [] := by
  obtain ⟨⟨opts, hr⟩, he⟩ := h
  rcases Receiver.js_step (step_of_serve hs) with hj | ⟨b, hj⟩
  · refine ⟨⟨⟨opts, ?_⟩, ?_⟩, handedOver_of_eq ?_⟩
    · rw [hj]
      exact hr
    · rw [hj]
      exact he
    · rw [hj]
  · have hexec : (Consumption.machine timestamp opts true true).exec old.js [b] = some new.js := by
      rw [Machine.exec_singleton]
      exact hj
    obtain ⟨hstream, -, -, hlog⟩ := Consumption.exec_of_ended hr he hexec
    refine ⟨⟨⟨opts, hr.step (a := b) hj⟩, ?_⟩, handedOver_of_eq ?_⟩
    · rw [hstream]
      exact he
    · rw [Consumption.handed, hlog, List.filterMap_append, List.filterMap_map]
      simp [Consumption.handed]

private theorem inv_frames {w : MediaTrack P} {options : JsValue} (h : Inv timestamp w)
    (hc : w.CountsOn kind (.frames options)) : Inv timestamp (w.frames kind options) := by
  unfold frames
  split
  · next receiver hw hf =>
    obtain ⟨opts, hr, rfl⟩ := Receiver.frames_ok hf
    have hg : w.given = [] := by
      apply hc
      · rw [hw]
        rfl
      · rw [hr]
        rfl
    refine ⟨h.past, ?_, h.increasing⟩
    intro r he
    cases he
    refine ⟨⟨⟨opts, Receiver.inv_attached opts⟩, rfl, ?_⟩, Nat.zero_le _, hg⟩
    exact List.Sublist.refl _
  · exact h

private theorem inv_decoded {w w' : MediaTrack P} {decoded : Decoded P} (h : Inv timestamp w)
    (hc : w.CountsOn kind (.onFrame decoded))
    (hs : w.step kind timestamp (.onFrame decoded) = some w') : Inv timestamp w' := by
  simp only [step] at hs
  split at hs
  · cases hs
    exact h
  · next r hw =>
    obtain ⟨r', hr, rfl⟩ := Option.map_eq_some_iff.mp hs
    obtain ⟨hi, hj, ht⟩ := Reception.inv_onFrame (h.active r hw).counts hr
    have hlt := hc r hw
    refine ⟨h.past, ?_, h.increasing⟩
    intro q hq
    cases hq
    refine ⟨hi, by omega, ?_⟩
    rw [hj]
    exact (h.active r hw).handed

private theorem inv_receiver {w w' : MediaTrack P} {a : ReceiverAct (FrameData P)}
    (h : Inv timestamp w) (hs : w.step kind timestamp (.receiver a) = some w') :
    Inv timestamp w' := by
  simp only [step, Option.bind_eq_some_iff, Option.map_eq_some_iff] at hs
  obtain ⟨r, hw, receiver, hr, rfl⟩ := hs
  obtain ⟨hi, hu, hh⟩ := h.active r hw
  have hi := Reception.inv_serve hi hr
  have hg : w.given ++ handedOver r.receiver receiver = receiver.js.handed := by
    rw [hh]
    exact handed_append (handed_serve hr)
  refine ⟨h.past, ?_, ?_⟩
  · intro q hq
    cases hq
    exact ⟨hi, hu, hg⟩
  · unfold Increasing
    rw [hg]
    exact hi.increasing hu

private theorem inv_end {w w' : MediaTrack P} (h : Inv timestamp w)
    (hs : w.step kind timestamp .end_ = some w') : Inv timestamp w' := by
  simp only [step] at hs
  split at hs
  · cases hs
    exact h
  · next r hw =>
    simp only [endReceiver, Option.map_eq_some_iff, Option.bind_eq_some_iff] at hs
    obtain ⟨receiver, ⟨js, hj, native, hn, rfl⟩, rfl⟩ := hs
    obtain ⟨opts, hi⟩ := (h.active r hw).counts.receiver
    have hg : handedOver r.receiver { r.receiver with native := native, js := js } = [] :=
      handedOver_of_eq (Consumption.handed_end hj)
    refine ⟨?_, ?_, ?_⟩
    · intro old ho
      rcases List.mem_append.mp ho with ho | ho
      · exact h.past old ho
      · cases List.mem_singleton.mp ho
        refine ⟨⟨opts, hi.js.step (a := .end_) hj⟩, ?_⟩
        cases hj
        simp [FrameStream.endStream, hi.live]
    · intro q hq
      cases hq
    · unfold Increasing
      rw [hg, List.append_nil]
      exact h.increasing

private theorem inv_past {w w' : MediaTrack P} {i : Nat} {a : ReceiverAct (FrameData P)}
    (h : Inv timestamp w) (hs : w.step kind timestamp (.past i a) = some w') :
    Inv timestamp w' := by
  simp only [step, Option.bind_eq_some_iff, Option.map_eq_some_iff] at hs
  obtain ⟨old, hw, receiver, hr, rfl⟩ := hs
  obtain ⟨he, hg⟩ := ended_serve (h.past old (List.mem_of_getElem? hw)) hr
  rw [hg, List.append_nil]
  refine ⟨?_, h.active, h.increasing⟩
  intro o ho
  rcases List.mem_or_eq_of_mem_set ho with ho | rfl
  · exact h.past o ho
  · exact he

/-- Every step the ids go on at keeps the invariant. -/
theorem inv_step {w w' : MediaTrack P} {a : MediaTrackAct P} (h : Inv timestamp w)
    (hc : w.CountsOn kind a) (hs : w.step kind timestamp a = some w') : Inv timestamp w' := by
  cases a with
  | frames options =>
    cases hs
    exact inv_frames h hc
  | onFrame decoded => exact inv_decoded h hc hs
  | receiver a => exact inv_receiver h hs
  | end_ => exact inv_end h hs
  | past i a => exact inv_past h hs

-- The consumer of a new receiver is already waiting when its first frame arrives.
private def firstFrame (payload : P) : List (MediaTrackAct P) :=
  [.receiver .next, .onFrame (.copied payload), .receiver (.turn .onAsync),
    .receiver (.turn .swap), .receiver (.turn .next)]

/-- A new receiver can be given its first frame, and that frame has id 0. -/
theorem restart {w : MediaTrack P} {options : JsValue} {opts : ResolvedOptions} (payload : P)
    (hw : w.stream = none) (hr : resolveOptions kind options = .ok opts) :
    ∃ run v, (machine kind timestamp).exec w (.frames options :: run) = some v ∧
      v.given = w.given ++ [⟨0, payload⟩] := by
  obtain ⟨stream, past, given⟩ := w
  cases hw
  have hf : frames kind ⟨none, past, given⟩ options =
      (⟨some ⟨0, 0, .attached opts⟩, past, given⟩ : MediaTrack P) := by
    simp only [frames, Receiver.frames, hr]
    rfl
  have hs : (machine kind timestamp).step ⟨none, past, given⟩ (.frames options) =
      some (⟨some ⟨0, 0, .attached opts⟩, past, given⟩ : MediaTrack P) := by
    rw [← hf]
    rfl
  refine ⟨firstFrame payload, _, Machine.exec_cons_some.mpr ⟨_, hs, rfl⟩, ?_⟩
  show given ++ [] ++ [] ++ [] ++ [⟨0, payload⟩] = given ++ [⟨0, payload⟩]
  simp

/-- In every run in which the ids go on, a frame given later has the larger `frameId`. Nothing
less will do at a `frames()` call: once a frame of the track was given, every receiver started
after it can be given one with id 0. -/
theorem frameId_increasing (kind : TrackKind) (timestamp : FrameData P → JsNumber) :
    (∀ (run : List (MediaTrackAct P)) (w : MediaTrack P),
      (machine kind timestamp).Along (CountsOn kind) (machine kind timestamp).init run →
      (machine kind timestamp).exec (machine kind timestamp).init run = some w →
      w.Increasing) ∧
    ∀ (w : MediaTrack P) (options : JsValue), ¬ w.CountsOn kind (.frames options) →
      ∀ payload : P, ∃ run v, (machine kind timestamp).exec w (.frames options :: run) = some v ∧
        v.given = w.given ++ [⟨0, payload⟩] ∧ ¬ v.Increasing := by
  refine ⟨?_, ?_⟩
  · intro run w hc hr
    have hi : Inv timestamp w := by
      refine Machine.exec_invariant_along (c := CountsOn kind) ?_ ?_ hc hr
      · exact fun v a v' hv ha hs ↦ inv_step hv ha hs
      · refine ⟨?_, ?_, List.Pairwise.nil⟩
        · intro old ho
          cases ho
        · intro r hw
          cases hw
    exact hi.increasing
  · intro w options hc payload
    simp only [CountsOn, Classical.not_imp, Option.isNone_iff_eq_none] at hc
    obtain ⟨hw, hok, hg⟩ := hc
    cases hr : resolveOptions kind options with
    | error e =>
      rw [hr] at hok
      cases hok
    | ok opts =>
      obtain ⟨run, v, hv, hgiven⟩ := restart payload hw hr
      refine ⟨run, v, hv, hgiven, ?_⟩
      intro hi
      obtain ⟨frame, rest, hcons⟩ := List.exists_cons_of_ne_nil hg
      rw [Increasing, hgiven, hcons, List.map_append] at hi
      have hlt := (List.pairwise_append.mp hi).2.2 frame.frameId.toNat (by simp) 0 (by simp)
      omega

private def micros (frame : FrameData Nat) : JsNumber := .finite frame.payload

-- A frame that is decoded, and delivered to the receiver there is.
private def arrival (payload : Nat) : List (MediaTrackAct Nat) :=
  [.onFrame (.copied payload), .receiver (.turn .onAsync), .receiver (.turn .swap),
    .receiver (.turn .next), .receiver (.turn .returned), .receiver (.turn .next)]

-- A receiver that is given a frame, drops the next one for the third, and is given that.
private def newestOnly : List (MediaTrackAct Nat) :=
  [.frames .undefined, .receiver .next] ++ arrival 7 ++ arrival 8 ++ arrival 9 ++
    [.receiver .next]

-- One receiver that is given a frame and ends, and a second one.
private def twoReceivers : List (MediaTrackAct Nat) :=
  [.frames .undefined, .receiver .next] ++ arrival 7 ++ [.end_, .frames .undefined,
    .receiver .next] ++ arrival 8

/-- One receiver is given two frames, and a third one between them is dropped: their ids are not
consecutive, but they increase. -/
theorem frameId_increasing_dropped : ∃ w : MediaTrack Nat,
    (machine .video micros).exec (machine .video micros).init newestOnly = some w ∧
      w.given = [⟨0, 7⟩, ⟨2, 9⟩] ∧ w.Increasing := by
  have hr : (machine .video micros).exec (machine .video micros).init newestOnly = some _ := rfl
  exact ⟨_, hr, rfl, (frameId_increasing .video micros).1 newestOnly _ (by decide) hr⟩

/-- A second receiver on the same track is given a frame with the id of the first one's. -/
theorem frameId_repeated : ¬ ∀ (kind : TrackKind) (P : Type) (timestamp : FrameData P → JsNumber)
    (run : List (MediaTrackAct P)) (w : MediaTrack P),
    (machine kind timestamp).exec (machine kind timestamp).init run = some w →
      w.Increasing := by
  intro h
  have hi := h .video Nat micros twoReceivers _ rfl
  exact absurd hi (by decide)

end MediaTrack

end VideoNode.Frames
