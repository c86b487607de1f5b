import VideoNode.Audio.PublishQueue
import VideoNode.Audio.WriteInput
import VideoNode.Frames.TrackStats
import VideoNode.Video.Republish

/-!
# From a remote audio track to a local one

`AudioFrameSink` (`src/sinks/audio_frame_sink.cpp`) makes a JavaScript frame of what the engine
hands it, the application takes the frames of `frames()` one after another and writes each of them
to a local track, and the device queues their samples. Both paths drop whole frames only, each side
counts its own, and what is kept stays in order.
-/

namespace VideoNode.Audio

open VideoNode.Js VideoNode.Common VideoNode.Lts VideoNode.Frames

/-- What the engine calls the sink with. At 16 bits there is a sample for each channel of each of
its frames. -/
structure AudioData where
  data : List Int16Sample
  bitsPerSample : Int
  sampleRate : Int
  numberOfChannels : Nat
  numberOfFrames : Nat
  sized : bitsPerSample = 16 → data.length = numberOfFrames * numberOfChannels

/-- `src/sinks/audio_frame_sink.h:12–20`. -/
structure AudioFrameData where
  samples : List Int16Sample
  bitsPerSample : Int
  sampleRate : Int
  numberOfChannels : Nat
  numberOfFrames : Nat
  timestampUs : Int
  frameId : UInt32

/-- `src/sinks/audio_frame_sink.cpp:35–58`; other than 16 bits are silence. -/
def onData (audio : AudioData) (frameId : UInt32) (nowUs : Int) : AudioFrameData where
  samples :=
    if audio.bitsPerSample = 16 then audio.data
    else List.replicate (audio.numberOfFrames * audio.numberOfChannels) (0, 0)
  bitsPerSample := audio.bitsPerSample
  sampleRate := audio.sampleRate
  numberOfChannels := audio.numberOfChannels
  numberOfFrames := audio.numberOfFrames
  timestampUs := nowUs
  frameId := frameId

/-- The memory of a `Buffer<int16_t>`. -/
def int16Bytes (samples : List Int16Sample) : List UInt8 := samples.flatMap fun s ↦ [s.1, s.2]

namespace AudioFrameData

/-- `static_cast<uint32_t>` of the frames. -/
def frames (d : AudioFrameData) : Nat := (UInt32.ofNat d.numberOfFrames).toNat

/-- The object the callback is given; `src/sinks/audio_frame_sink.cpp:74–86`. Microseconds are taken
as they are, which is what a double does below 2⁵³. -/
def deliverFrame (d : AudioFrameData) : NapiValue :=
  .ofProps [("format", .string "PCM_S16LE"), ("sampleRate", .ofInt d.sampleRate),
    ("channels", .ofInt (UInt32.ofNat d.numberOfChannels).toNat), ("frames", .ofInt d.frames),
    ("pcm", .ofBytes (int16Bytes d.samples)), ("timestamp", .ofInt d.timestampUs),
    ("frameId", .ofInt d.frameId.toNat)]

/-- The frame the application is given; `lib/remote_track.ts:149–155`, `:212`. -/
def closable (d : AudioFrameData) : Video.ClosableFrame :=
  Video.attachClose d.deliverFrame ["pcm"]

/-- What `write()` reads of the frame. -/
def input (d : AudioFrameData) : AudioFrameInput Int16Sample := .ofValue d.deliverFrame

/-- The samples of a frame that a mono track takes: so many of the first ones as it has frames,
whatever its channels. -/
def mono (d : AudioFrameData) : List Int16Sample := d.samples.take d.frames

/-- What `write()` does not throw for: at least one frame, a sample for each, and a timestamp in
range. -/
structure Writable (d : AudioFrameData) : Prop where
  frames : 0 < d.frames
  samples : d.frames ≤ d.samples.length
  timestamp : 0 ≤ d.timestampUs ∧ d.timestampUs ≤ 9007199254740991

instance (d : AudioFrameData) : Decidable d.Writable :=
  decidable_of_iff (0 < d.frames ∧ d.frames ≤ d.samples.length ∧
      0 ≤ d.timestampUs ∧ d.timestampUs ≤ 9007199254740991)
    ⟨fun h ↦ ⟨h.1, h.2.1, h.2.2⟩, fun h ↦ ⟨h.frames, h.samples, h.timestamp⟩⟩

/-- At 16 bits there is a sample for each channel of each of the frames. -/
def Sized (d : AudioFrameData) : Prop :=
  d.bitsPerSample = 16 → d.samples.length = d.numberOfFrames * d.numberOfChannels

/-- The presentation time as the stream reads it. -/
def timestamp (d : AudioFrameData) : JsNumber := .finite d.timestampUs

end AudioFrameData

/-- What is laid out in memory is read back. -/
theorem int16Samples_int16Bytes (samples : List Int16Sample) :
    int16Samples (int16Bytes samples) = samples := by
  induction samples with
  | nil => rfl
  | cons s samples ih => exact congrArg (s :: ·) ih

namespace AudioFrameData

/-- What `write()` reads of a frame that the sink made. -/
theorem input_eq (d : AudioFrameData) :
    d.input = ⟨some d.samples, .number (.finite (d.frames : Int)),
      .number (.finite d.timestampUs)⟩ := by
  have hp : d.input.pcm = some (int16Samples (int16Bytes d.samples)) := rfl
  have he : d.input = ⟨d.input.pcm, .number (.finite (d.frames : Int)),
      .number (.finite d.timestampUs)⟩ := rfl
  rw [he, hp, int16Samples_int16Bytes]

/-- A frame that is not closed is written as what the sink made of it, whatever getters are over
it. -/
theorem writeReads_closable (d : AudioFrameData) (t : LocalAudioTrack)
    (device : NodeAudioDevice Int16Sample) (nowUs : Int) :
    t.writeReads device nowUs (some d.closable.reads) =
      match t.write device nowUs (some d.input) with
      | .error e => (.error e, t, device)
      | .ok (accepted, u, device) => (.ok accepted, u, device) := by
  have hc : t.checkReads nowUs (some d.closable.reads) =
      t.checkReads nowUs (some d.deliverFrame.reads) := rfl
  refine Eq.trans ?_ (LocalAudioTrack.writeReads_reads t device nowUs d.deliverFrame)
  rw [LocalAudioTrack.writeReads, LocalAudioTrack.writeReads, hc]

private theorem isInteger_finite (i : Int) : (JsNumber.finite i).isInteger = some i :=
  NapiValue.integer?_ofInt i

private theorem checkFrames_frames (d : AudioFrameData) :
    checkFrames (.number (.finite (d.frames : Int))) =
      if 0 < d.frames then .ok d.frames
      else .error ⟨.rangeError, "AudioFrameInput frames must be a positive integer", none⟩ := by
  have hb : d.frames < 2 ^ 32 := UInt32.toNat_lt _
  have hp : (0 < (d.frames : Int) ∧ (d.frames : Int) ≤ 2 ^ 63) ↔ 0 < d.frames := by omega
  simp only [checkFrames, isInteger_finite, hp]
  rfl

private theorem checkTimestamp_timestampUs (d : AudioFrameData) (nowUs : Int) :
    checkTimestamp nowUs (.number (.finite d.timestampUs)) =
      if 0 ≤ d.timestampUs ∧ d.timestampUs ≤ 9007199254740991 then .ok d.timestampUs
      else .error checkTimestamp.outOfRange := by
  simp only [checkTimestamp, isInteger_finite]

/-- Of a writable frame a track with a source takes the mono samples. -/
theorem checkInput_of_writable {d : AudioFrameData} {t : LocalAudioTrack} (h : d.Writable)
    (hs : t.hasSource = true) (nowUs : Int) :
    t.checkInput nowUs (some d.input) = .ok (d.mono, d.timestampUs) := by
  have hf := checkFrames_frames d
  have ht := checkTimestamp_timestampUs d nowUs
  rw [if_pos h.frames] at hf
  rw [if_pos h.timestamp] at ht
  have hl : ¬ d.samples.length < d.frames := Nat.not_lt.mpr h.samples
  rw [input_eq]
  simp only [LocalAudioTrack.checkInput, hf, ht, hl, hs, mono, bind, Except.bind, pure, Except.pure,
    if_false, Bool.not_true, Bool.false_eq_true]

/-- Only writable frames are not thrown for, by a track with a source. -/
theorem checkInput_eq_ok {d : AudioFrameData} {t : LocalAudioTrack} {nowUs timestampUs : Int}
    {samples : List Int16Sample}
    (h : t.checkInput nowUs (some d.input) = .ok (samples, timestampUs)) :
    d.Writable ∧ t.hasSource = true ∧ samples = d.mono := by
  have hw : d.Writable ∧ t.hasSource = true := by
    rw [input_eq] at h
    simp only [LocalAudioTrack.checkInput, checkFrames_frames, checkTimestamp_timestampUs] at h
    by_cases hf : 0 < d.frames
    · by_cases hl : d.samples.length < d.frames
      · simp [hf, hl, bind, Except.bind] at h
      · by_cases ht : 0 ≤ d.timestampUs ∧ d.timestampUs ≤ 9007199254740991
        · cases hs : t.hasSource
          · simp [hf, hl, hs, bind, Except.bind] at h
          · exact ⟨⟨hf, Nat.not_lt.mp hl, ht⟩, rfl⟩
        · cases hs : t.hasSource <;> simp [hf, hl, ht, hs, bind, Except.bind] at h
    · simp [hf, bind, Except.bind] at h
  rw [checkInput_of_writable hw.1 hw.2] at h
  cases h
  exact ⟨hw.1, hw.2, rfl⟩

/-- What the sink copies has the samples the engine handed over. -/
theorem sized_onData (audio : AudioData) (frameId : UInt32) (nowUs : Int) :
    (onData audio frameId nowUs).Sized := by
  intro hb
  have hs : (onData audio frameId nowUs).samples = audio.data := if_pos hb
  rw [hs]
  exact audio.sized hb

/-- What has one channel of 16 bits can be written, all of it. -/
theorem writable_of_mono {d : AudioFrameData} (hz : d.Sized) (hb : d.bitsPerSample = 16)
    (hc : d.numberOfChannels = 1) (hf : 0 < d.numberOfFrames ∧ d.numberOfFrames < 2 ^ 32)
    (ht : 0 ≤ d.timestampUs ∧ d.timestampUs ≤ 9007199254740991) :
    d.Writable ∧ d.mono = d.samples := by
  have hn : d.frames = d.numberOfFrames := UInt32.toNat_ofNat_of_lt' hf.2
  have hl : d.samples.length = d.numberOfFrames := by
    rw [hz hb, hc, Nat.mul_one]
  refine ⟨⟨by rw [hn]; exact hf.1, by rw [hn, hl], ht⟩, ?_⟩
  rw [mono, hn, ← hl, List.take_length]

end AudioFrameData

/-- A step is a write to the track. -/
def AudioPathAct.writesTo {S : Type} (track : Nat) : AudioPathAct S → Bool
  | .write t _ _ => t == track
  | _ => false

/-- A receiver and the publish path, with the frames the application has written so far and what
became of each: what `write()` returned, or nothing if it threw. -/
structure AudioRelay where
  receiver : Receiver AudioFrameData
  path : AudioPath Int16Sample
  outcomes : List (AudioFrameData × Option Bool)

/-- What the engine, the event loop, the device and the application do. Another track may be written
to as well; the one the frames go to is not. -/
inductive AudioRelayAct where
  | onData (audio : AudioData) (nowUs : Int)
  /-- The copy throws, which the sink swallows. -/
  | onDataThrows
  | turn (t : Turn)
  | next
  | timer (nowUs : Int)
  | path (a : AudioPathAct Int16Sample)
  /-- The body of the loop, with the next frame it was handed. -/
  | write (nowUs : Int)

/-- A step writes to another track. -/
def AudioRelayAct.elsewhere : AudioRelayAct → Bool
  | .path (.write _ _ _) => true
  | _ => false

namespace AudioRelay

/-- What a `write()` returns, or nothing if it throws. -/
def outcome (t : LocalAudioTrack) (d : NodeAudioDevice Int16Sample) (nowUs : Int)
    (frame : AudioFrameData) : Option Bool :=
  (t.writeReads d nowUs (some frame.closable.reads)).1.toOption

/-- A step of the receiver. -/
def receive (w : AudioRelay) (a : ReceiverAct AudioFrameData) : Option AudioRelay :=
  (w.receiver.step AudioFrameData.timestamp a).map fun receiver ↦ { w with receiver := receiver }

/-- One step. The id of a frame counts the calls of the sink. -/
def step (track : Nat) (w : AudioRelay) : AudioRelayAct → Option AudioRelay
  | .onData audio nowUs =>
    w.receive (.onFrame (some (onData audio (UInt32.ofNat w.receiver.decoded.length) nowUs)))
  | .onDataThrows => w.receive (.onFrame none)
  | .turn t => w.receive (.turn t)
  | .next => w.receive .next
  | .timer nowUs => w.receive (.timer nowUs)
  | .path a =>
    if a.writesTo track then none
    else (w.path.step a).map fun path ↦ { w with path := path }
  | .write nowUs =>
    w.receiver.js.handed[w.outcomes.length]?.bind fun frame ↦
      w.path.tracks[track]?.bind fun t ↦
        (w.path.step (.write track nowUs (some frame.input))).map fun path ↦
          { w with
            path := path
            outcomes := w.outcomes ++ [(frame, outcome t w.path.device nowUs frame)] }

/-- A fresh receiver whose frames go to the track, and everything that can happen. -/
def machine (receiver : Receiver AudioFrameData) (track : Nat) :
    Machine AudioRelay AudioRelayAct where
  init := ⟨receiver, (AudioPath.machine Int16Sample).init, []⟩
  step := step track

/-- The frames whose write returned true. -/
def kept (w : AudioRelay) : List AudioFrameData :=
  w.outcomes.filterMap fun o ↦ if o.2 = some true then some o.1 else none

/-- The samples the device accepts in a step. -/
def pushed (track : Nat) (w : AudioRelay) : AudioRelayAct → List Int16Sample
  | .path a => w.path.pushed a
  | .write nowUs =>
    match w.receiver.js.handed[w.outcomes.length]? with
    | some frame => w.path.pushed (.write track nowUs (some frame.input))
    | none => []
  | _ => []

/-- The samples that leave the queue in a step. -/
def removed (w : AudioRelay) : AudioRelayAct → List Int16Sample
  | .path a => w.path.removed a
  | _ => []

end AudioRelay

namespace AudioPath

variable {S : Type}

/-- Each step extends what was accepted by what is pushed in it. -/
theorem accepted_step {w w' : AudioPath S} {a : AudioPathAct S} (hs : w.step a = some w') :
    w'.accepted = w.accepted ++ w.pushed a := by
  cases a with
  | write track nowUs frame =>
    obtain ⟨t, ht, ⟨e, hin, rfl⟩ | ⟨samples, timestampUs, hin, rfl⟩⟩ := write_step_cases hs
    · simp [pushed, offered, ht, hin, Except.toOption]
    · cases hp : (w.device.pushRecordingData samples).1 <;>
        simp [pushed, offered, ht, hin, Except.toOption, hp]
  | take queue =>
    obtain ⟨-, rfl⟩ := take_some hs
    simp [pushed, offered]
  | emit queue =>
    obtain ⟨frame, -, rfl⟩ := emit_some hs
    simp [pushed, offered]
  | clearBuffer track =>
    obtain ⟨t, -, rfl⟩ := Option.map_eq_some_iff.mp hs
    exact (List.append_nil _).symm
  | destroyQueue i =>
    obtain ⟨-, rfl⟩ := destroyQueue_some hs
    exact (List.append_nil _).symm
  | createTrack hasSource | setMaxQueueChunks chunks | registerAudioCallback transport
    | setPlaying playing | setRecording recording | init | terminate =>
    cases hs
    exact (List.append_nil _).symm

/-- A step that does not write to a track leaves it as it is, or makes it. -/
theorem track_step {w w' : AudioPath S} {a : AudioPathAct S} {track : Nat}
    (hs : w.step a = some w') (ha : a.writesTo track = false) :
    w'.tracks[track]? = w.tracks[track]? ∨
      w.tracks[track]? = none ∧ ∃ hasSource, w'.tracks[track]? = some (.create hasSource) := by
  cases a with
  | createTrack hasSource =>
    cases hs
    rcases Nat.lt_trichotomy track w.tracks.length with h | h | h
    · exact .inl (List.getElem?_append_left h)
    · refine .inr ⟨by simp [h], hasSource, by simp [h]⟩
    · refine .inl ?_
      rw [List.getElem?_eq_none (Nat.le_of_lt h), List.getElem?_eq_none]
      simp only [List.length_append, List.length_singleton]
      omega
  | write t nowUs frame =>
    have hne : t ≠ track := by simpa [AudioPathAct.writesTo] using ha
    obtain ⟨u, -, ⟨e, -, rfl⟩ | ⟨samples, timestampUs, -, rfl⟩⟩ := write_step_cases hs
    · exact .inl rfl
    · exact .inl (List.getElem?_set_ne hne)
  | take queue =>
    obtain ⟨-, rfl⟩ := take_some hs
    cases queue <;> exact .inl rfl
  | emit queue =>
    obtain ⟨frame, -, rfl⟩ := emit_some hs
    cases queue <;> exact .inl rfl
  | clearBuffer t =>
    obtain ⟨u, -, rfl⟩ := Option.map_eq_some_iff.mp hs
    exact .inl rfl
  | destroyQueue i =>
    obtain ⟨-, rfl⟩ := destroyQueue_some hs
    exact .inl rfl
  | setMaxQueueChunks chunks | registerAudioCallback transport | setPlaying playing
    | setRecording recording | init | terminate =>
    cases hs
    exact .inl rfl

end AudioPath

namespace AudioRelay

open AudioFrameData

/-- How the two sides belong together. What is written is what was handed over first; a track counts
what its writes returned and throws for what is not writable, or for everything if it has no source;
and the device accepted the mono samples of the frames that were kept. -/
structure Inv (r : ResolvedOptions) (track : Nat) (w : AudioRelay) : Prop where
  receiver : Receiver.Inv timestamp r w.receiver
  sized : ∀ d ∈ w.receiver.converted, d.Sized
  order : w.outcomes.map Prod.fst <+: w.receiver.js.handed
  fresh : w.path.tracks[track]? = none → w.outcomes = []
  counts : ∀ t, w.path.tracks[track]? = some t →
    t.framesWritten = (w.outcomes.map Prod.snd).count (some true) ∧
    t.framesDropped = (w.outcomes.map Prod.snd).count (some false)
  thrown : ∀ t, w.path.tracks[track]? = some t →
    ∀ o ∈ w.outcomes, o.2 = none ↔ ¬ (o.1.Writable ∧ t.hasSource = true)
  sent : (w.kept.flatMap mono).Sublist w.path.accepted

/-- A receiver that nothing of has been written, and a process without tracks. -/
theorem inv_init (r : ResolvedOptions) (track : Nat) :
    Inv r track (machine (Receiver.attached r) track).init := by
  refine ⟨Receiver.inv_attached r, ?_, List.nil_prefix, fun _ ↦ rfl, ?_, ?_, List.nil_sublist _⟩
  · rintro d ⟨⟩
  · rintro t ⟨⟩
  · rintro t ⟨⟩

private theorem inv_receive {r : ResolvedOptions} {track : Nat} {w w' : AudioRelay}
    {a : ReceiverAct AudioFrameData} (h : Inv r track w)
    (ha : ∀ d ∈ Receiver.converts a, d.Sized) (hs : w.receive a = some w') : Inv r track w' := by
  obtain ⟨receiver, hr, rfl⟩ := Option.map_eq_some_iff.mp hs
  refine ⟨Receiver.inv_step h.receiver hr, ?_, ?_, h.fresh, h.counts, h.thrown, h.sent⟩
  · intro d hd
    rw [Receiver.converted_step hr] at hd
    exact (List.mem_append.mp hd).elim (h.sized d) (ha d)
  · refine h.order.trans ?_
    rcases Receiver.js_step hr with he | ⟨b, hb⟩
    · exact he ▸ List.prefix_rfl
    · exact Consumption.handed_grows hb

private theorem inv_path {r : ResolvedOptions} {track : Nat} {w : AudioRelay}
    {a : AudioPathAct Int16Sample} {path : AudioPath Int16Sample} (h : Inv r track w)
    (ha : a.writesTo track = false) (hs : w.path.step a = some path) :
    Inv r track { w with path := path } := by
  have hsent : (w.kept.flatMap mono).Sublist path.accepted := by
    rw [AudioPath.accepted_step hs]
    exact h.sent.trans (List.sublist_append_left _ _)
  rcases AudioPath.track_step hs ha with ht | ⟨hn, hasSource, ht⟩
  · refine ⟨h.receiver, h.sized, h.order, fun hn ↦ h.fresh (ht ▸ hn), fun t hu ↦ ?_,
      fun t hu ↦ ?_, hsent⟩
    · exact h.counts t (ht ▸ hu)
    · exact h.thrown t (ht ▸ hu)
  · have ho := h.fresh hn
    refine ⟨h.receiver, h.sized, h.order, fun _ ↦ ho, fun t hu ↦ ?_, fun t _ o hm ↦ ?_, hsent⟩
    · rw [ht] at hu
      cases hu
      simp [ho, LocalAudioTrack.create]
    · rw [ho] at hm
      cases hm

-- The write of the next frame: it throws and changes no more than the outcomes, or the mono samples
-- of the frame are pushed.
private theorem write_cases {track : Nat} {w w' : AudioRelay} {nowUs : Int}
    (hs : w.step track (.write nowUs) = some w') : ∃ frame t path,
    w.receiver.js.handed[w.outcomes.length]? = some frame ∧ w.path.tracks[track]? = some t ∧
    w.path.step (.write track nowUs (some frame.input)) = some path ∧
    ((¬ (frame.Writable ∧ t.hasSource = true) ∧ path = w.path ∧
        w' = { w with outcomes := w.outcomes ++ [(frame, none)] }) ∨
      ∃ accepted, frame.Writable ∧ t.hasSource = true ∧
        path.accepted = w.path.accepted ++ (if accepted then frame.mono else []) ∧
        path.tracks[track]? = some (t.count accepted frame.timestampUs) ∧
        w' = { w with path := path, outcomes := w.outcomes ++ [(frame, some accepted)] }) := by
  obtain ⟨frame, hf, hs⟩ := Option.bind_eq_some_iff.mp hs
  obtain ⟨t, ht, hs⟩ := Option.bind_eq_some_iff.mp hs
  obtain ⟨path, hp, rfl⟩ := Option.map_eq_some_iff.mp hs
  refine ⟨frame, t, path, hf, ht, hp, ?_⟩
  obtain ⟨u, hu, hc⟩ := AudioPath.write_step_cases hp
  rw [ht] at hu
  cases hu
  rcases hc with ⟨e, hin, rfl⟩ | ⟨samples, timestampUs, hin, rfl⟩
  · refine .inl ⟨?_, rfl, ?_⟩
    · rintro ⟨hw, hsrc⟩
      rw [checkInput_of_writable hw hsrc] at hin
      cases hin
    · simp [outcome, writeReads_closable, LocalAudioTrack.write, hin, bind, Except.bind,
        Except.toOption]
  · obtain ⟨hw, hsrc, rfl⟩ := checkInput_eq_ok hin
    have hts : timestampUs = frame.timestampUs := by
      rw [checkInput_of_writable hw hsrc] at hin
      cases hin
      rfl
    refine .inr ⟨(w.path.device.pushRecordingData frame.mono).1, hw, hsrc, ?_, ?_, ?_⟩
    · dsimp only
      split <;> simp
    · have hlt := (List.getElem?_eq_some_iff.mp ht).1
      rw [hts]
      exact List.getElem?_set_self hlt
    · rw [outcome, writeReads_closable, LocalAudioTrack.write_of_input hin]
      rfl

private theorem prefix_concat {α : Type} {xs ys : List α} {y : α} (h : xs <+: ys)
    (hy : ys[xs.length]? = some y) : xs ++ [y] <+: ys := by
  obtain ⟨zs, rfl⟩ := h
  cases zs with
  | nil => simp at hy
  | cons z zs =>
    have hz : z = y := by simpa using hy
    subst hz
    exact ⟨zs, by simp⟩

private theorem inv_write {r : ResolvedOptions} {track : Nat} {w w' : AudioRelay} {nowUs : Int}
    (h : Inv r track w) (hs : w.step track (.write nowUs) = some w') : Inv r track w' := by
  obtain ⟨frame, t, path, hf, ht, hp, hc⟩ := write_cases hs
  have horder : ∀ result : Option Bool,
      (w.outcomes ++ [(frame, result)]).map Prod.fst <+: w.receiver.js.handed := by
    intro result
    rw [List.map_append]
    exact prefix_concat h.order (by simpa using hf)
  rcases hc with ⟨hn, rfl, rfl⟩ | ⟨accepted, hw, hsrc, ha, hu, rfl⟩
  · refine ⟨h.receiver, h.sized, horder none, fun hnone ↦ ?_, fun u hu ↦ ?_, fun u hu ↦ ?_, ?_⟩
    · rw [ht] at hnone
      cases hnone
    · simpa using h.counts u hu
    · rw [ht] at hu
      cases hu
      rw [List.forall_mem_append, List.forall_mem_singleton]
      exact ⟨h.thrown t ht, iff_of_true rfl hn⟩
    · simpa [kept] using h.sent
  · refine ⟨h.receiver, h.sized, horder _, fun hnone ↦ ?_, fun u hu' ↦ ?_, fun u hu' ↦ ?_, ?_⟩
    · rw [hu] at hnone
      cases hnone
    · rw [hu] at hu'
      cases hu'
      obtain ⟨hwritten, hdropped⟩ := h.counts t ht
      cases accepted <;> simp [LocalAudioTrack.count, hwritten, hdropped]
    · rw [hu] at hu'
      cases hu'
      have hkeep : (t.count accepted frame.timestampUs).hasSource = t.hasSource := by
        cases accepted <;> rfl
      rw [hkeep, List.forall_mem_append, List.forall_mem_singleton]
      exact ⟨h.thrown t ht, iff_of_false (by simp) (not_not_intro ⟨hw, hsrc⟩)⟩
    · rw [ha]
      cases accepted with
      | false => simpa [kept] using h.sent
      | true => simpa [kept] using h.sent.append (List.Sublist.refl frame.mono)

/-- Every step keeps the two sides together. -/
theorem inv_step {r : ResolvedOptions} {track : Nat} {w w' : AudioRelay} {a : AudioRelayAct}
    (h : Inv r track w) (hs : w.step track a = some w') : Inv r track w' := by
  cases a with
  | onData audio nowUs =>
    refine inv_receive h ?_ hs
    rw [Receiver.converts, Option.toList_some, List.forall_mem_singleton]
    exact sized_onData audio _ nowUs
  | onDataThrows | next => exact inv_receive h (by rintro d ⟨⟩) hs
  | turn t => exact inv_receive h (by rintro d ⟨⟩) hs
  | timer nowUs => exact inv_receive h (by rintro d ⟨⟩) hs
  | path a =>
    simp only [step] at hs
    split at hs
    · cases hs
    · next ha =>
      obtain ⟨path, hp, rfl⟩ := Option.map_eq_some_iff.mp hs
      exact inv_path h (by simpa using ha) hp
  | write nowUs => exact inv_write h hs

/-- What the device accepts in a step is what is pushed in it, and goes to the back of its queue;
what is removed leaves at the front. -/
theorem device_step {track : Nat} {w w' : AudioRelay} {a : AudioRelayAct}
    (hs : w.step track a = some w') :
    w'.path.accepted = w.path.accepted ++ w.pushed track a ∧
      w.path.device.recBuffer ++ w.pushed track a = w.removed a ++ w'.path.device.recBuffer := by
  have hr : ∀ b, w.receive b = some w' → w'.path = w.path := by
    intro b hb
    obtain ⟨receiver, -, rfl⟩ := Option.map_eq_some_iff.mp hb
    rfl
  cases a with
  | onData audio nowUs =>
    rw [hr _ hs]
    exact ⟨(List.append_nil _).symm, List.append_nil _⟩
  | onDataThrows | next =>
    rw [hr _ hs]
    exact ⟨(List.append_nil _).symm, List.append_nil _⟩
  | turn t =>
    rw [hr _ hs]
    exact ⟨(List.append_nil _).symm, List.append_nil _⟩
  | timer nowUs =>
    rw [hr _ hs]
    exact ⟨(List.append_nil _).symm, List.append_nil _⟩
  | path a =>
    simp only [step] at hs
    split at hs
    · cases hs
    · obtain ⟨path, hp, rfl⟩ := Option.map_eq_some_iff.mp hs
      exact ⟨AudioPath.accepted_step hp, AudioPath.queue_step hp⟩
  | write nowUs =>
    obtain ⟨frame, t, path, hf, -, hp, hc⟩ := write_cases hs
    have hpath : w'.path = path := by
      rcases hc with ⟨-, rfl, rfl⟩ | ⟨accepted, -, -, -, -, rfl⟩ <;> rfl
    rw [hpath, pushed, hf]
    exact ⟨AudioPath.accepted_step hp, AudioPath.queue_step hp⟩

/-- Unless another track is written to, the device accepts just the samples of what is kept. -/
theorem kept_step {track : Nat} {w w' : AudioRelay} {a : AudioRelayAct}
    (hs : w.step track a = some w') (ha : a.elsewhere = false) :
    w'.kept.flatMap mono = w.kept.flatMap mono ++ w.pushed track a := by
  have hr : ∀ b, w.receive b = some w' → w'.kept.flatMap mono = w.kept.flatMap mono ++ [] := by
    intro b hb
    obtain ⟨receiver, -, rfl⟩ := Option.map_eq_some_iff.mp hb
    exact (List.append_nil _).symm
  cases a with
  | onData audio nowUs => exact hr _ hs
  | onDataThrows | next => exact hr _ hs
  | turn t => exact hr _ hs
  | timer nowUs => exact hr _ hs
  | path a =>
    simp only [step] at hs
    split at hs
    · cases hs
    · obtain ⟨path, -, rfl⟩ := Option.map_eq_some_iff.mp hs
      have hp : w.path.pushed a = [] := by
        cases a with
        | write t nowUs frame => cases ha
        | _ => rfl
      exact (List.append_nil _).symm.trans (congrArg _ hp.symm)
  | write nowUs =>
    obtain ⟨hacc, -⟩ := device_step hs
    obtain ⟨frame, t, path, -, -, -, hc⟩ := write_cases hs
    rcases hc with ⟨-, rfl, rfl⟩ | ⟨accepted, -, -, hpath, -, rfl⟩
    · have hp : w.pushed track (.write nowUs) = [] := List.append_right_eq_self.mp hacc.symm
      simp [hp, kept]
    · have hp : w.pushed track (.write nowUs) = if accepted then frame.mono else [] :=
        List.append_cancel_left (hacc.symm.trans hpath)
      rw [hp]
      cases accepted <;> simp [kept]

private theorem kept_sublist (w : AudioRelay) : w.kept.Sublist (w.outcomes.map Prod.fst) := by
  have hk : ∀ outcomes : List (AudioFrameData × Option Bool),
      (outcomes.filterMap fun o ↦ if o.2 = some true then some o.1 else none).Sublist
        (outcomes.map Prod.fst) := by
    intro outcomes
    induction outcomes with
    | nil => exact List.Sublist.refl _
    | cons o outcomes ih =>
      by_cases ho : o.2 = some true
      · simpa [ho] using ih
      · simpa [ho] using ih.cons o.1
  exact hk w.outcomes

private theorem count_outcomes (results : List (Option Bool)) : results.length =
    results.count (some true) + results.count (some false) + results.count none := by
  induction results with
  | nil => rfl
  | cons result results ih =>
    rw [List.length_cons, ih]
    rcases result with _ | _ | _ <;> simp <;> omega

/-- The whole way from a remote audio track to the device, in every order of the engine's calls, the
event loop, the loop that writes and the device. The frames that are kept come in the order they
were captured in, and none of them twice; the device accepts their mono samples in that order,
whole, and only them unless another track is written to; what it accepted has left its queue from
the front or is still there. Each frame the sink could copy is counted exactly once: by the track
it was written to, by the error `write()` threw, or by `getStats()` of the track it came from, if
it is not with the application or in the batch of a `drain()`. And `write()` throws for a track
without a source and for an empty frame, and for none of one channel and 16 bits whose size and
timestamp fit: its mono samples are all it has. -/
theorem relay_accounts {options : JsValue} {receiver : Receiver AudioFrameData}
    (ho : Receiver.frames .audio options = .ok receiver) (track : Nat) (run : List AudioRelayAct)
    (w : AudioRelay)
    (hr : (machine receiver track).exec (machine receiver track).init run = some w) :
    w.kept.Sublist w.receiver.converted ∧
    (w.kept.flatMap mono).Sublist w.path.accepted ∧
    ((machine receiver track).Along (fun _ a ↦ a.elsewhere = false)
        (machine receiver track).init run → w.kept.flatMap mono = w.path.accepted) ∧
    w.path.accepted = (machine receiver track).collect removed (machine receiver track).init run ++
      w.path.device.recBuffer ∧
    (∀ t, w.path.tracks[track]? = some t →
      w.receiver.converted.length = t.framesWritten + t.framesDropped +
        (w.outcomes.map Prod.snd).count none +
        (w.receiver.js.handed.drop w.outcomes.length).length +
        w.receiver.getStats.framesDropped + w.receiver.getStats.queueDepth + w.receiver.inHand) ∧
    ∀ t, w.path.tracks[track]? = some t → ∀ frame result, (frame, result) ∈ w.outcomes →
      (t.hasSource = false ∨ frame.numberOfFrames = 0 → result = none) ∧
      (t.hasSource = true → frame.bitsPerSample = 16 → frame.numberOfChannels = 1 →
        0 < frame.numberOfFrames ∧ frame.numberOfFrames < 2 ^ 32 →
        0 ≤ frame.timestampUs ∧ frame.timestampUs ≤ 9007199254740991 →
        result ≠ none ∧ frame.mono = frame.samples) := by
  obtain ⟨r, -, rfl⟩ := Receiver.frames_ok ho
  have hi : Inv r track w :=
    Machine.exec_invariant (p := Inv r track) (fun _ _ _ h hs ↦ inv_step h hs) (inv_init r track) hr
  have hlen := hi.order.length_le
  rw [List.length_map] at hlen
  have hwritten : (w.outcomes.map Prod.fst).Sublist w.receiver.converted :=
    hi.order.sublist.trans (Receiver.handed_sublist hi.receiver)
  refine ⟨?_, hi.sent, fun ha ↦ ?_, ?_, fun t ht ↦ ?_, fun t ht frame result ho ↦ ⟨?_, ?_⟩⟩
  · exact (kept_sublist w).trans hwritten
  · have hkept : ∀ (s : AudioRelay) (a : AudioRelayAct) (s' : AudioRelay),
        s.kept.flatMap mono = s.path.accepted → a.elsewhere = false →
        (machine (Receiver.attached r) track).step s a = some s' →
        s'.kept.flatMap mono = s'.path.accepted := by
      intro s a s' he ha hs
      rw [kept_step hs ha, he, (device_step hs).1]
    exact Machine.exec_invariant_along hkept rfl ha hr
  · have hlog := Machine.log_eq_collect (m := machine (Receiver.attached r) track)
      (i := fun _ ↦ True) (fun _ _ _ _ hs ↦ ⟨trivial, (device_step hs).1⟩) trivial hr
    have hflow := Machine.flow_eq_collect (m := machine (Receiver.attached r) track)
      (i := fun _ ↦ True) (fun _ _ _ _ hs ↦ ⟨trivial, (device_step hs).2⟩) trivial hr
    exact hlog.trans hflow
  · obtain ⟨hwritten, hdropped⟩ := hi.counts t ht
    have hn := Receiver.native_count hi.receiver
    have hj := Receiver.js_count hi.receiver
    have hdel := (Consumption.inv_of_reachable hi.receiver.js).delivered
    have hres := count_outcomes (w.outcomes.map Prod.snd)
    rw [List.length_map, ← hwritten, ← hdropped] at hres
    simp only [Receiver.getStats, FrameStream.getStats, Receiver.sinkStats, Option.getD_some,
      Receiver.inHand, List.length_drop]
    omega
  · intro h
    refine (hi.thrown t ht _ ho).mpr ?_
    rintro ⟨hw, hsrc⟩
    rcases h with hno | hz
    · rw [hno] at hsrc
      cases hsrc
    · have hf : 0 < (UInt32.ofNat frame.numberOfFrames).toNat := hw.frames
      simp [hz] at hf
  · intro hsrc hb hc hf hts
    have hz : frame.Sized :=
      hi.sized frame (hwritten.subset (List.mem_map_of_mem (f := Prod.fst) ho))
    obtain ⟨hw, hm⟩ := writable_of_mono hz hb hc hf hts
    exact ⟨fun hnone ↦ (hi.thrown t ht _ ho).mp hnone ⟨hw, hsrc⟩, hm⟩

-- A frame of two samples that goes all the way, an empty one that `write()` throws for, and one
-- that has not been drained yet.
private def twoSamples : AudioData := ⟨[(1, 0), (2, 0)], 16, 48000, 1, 2, fun _ ↦ rfl⟩

private def noSamples : AudioData := ⟨[], 16, 48000, 1, 0, fun _ ↦ rfl⟩

private def drained : List AudioRelayAct :=
  [.turn .onAsync, .turn .swap, .turn .next, .turn .returned, .turn .next]

private def relayed : List AudioRelayAct :=
  [.path (.createTrack true), .path .init, .next, .onData twoSamples 5] ++ drained ++
    [.write 7, .next, .onData noSamples 8] ++ drained ++
    [.write 9, .path (.take none), .onData twoSamples 10]

/-- The samples of the first frame are in the hand of a task, and the third frame is on its way. -/
theorem relay_accounts_two : ∃ w t, (machine (Receiver.attached (DEFAULTS .audio)) 0).exec
      (machine (Receiver.attached (DEFAULTS .audio)) 0).init relayed = some w ∧
    w.path.tracks[0]? = some t ∧ w.outcomes.map Prod.snd = [some true, none] ∧
    w.path.accepted = [(1, 0), (2, 0)] ∧ w.kept.flatMap mono = w.path.accepted ∧
    w.receiver.converted.length = 3 ∧ w.receiver.converted.length =
      t.framesWritten + t.framesDropped + (w.outcomes.map Prod.snd).count none +
        (w.receiver.js.handed.drop w.outcomes.length).length +
        w.receiver.getStats.framesDropped + w.receiver.getStats.queueDepth + w.receiver.inHand := by
  have ho : Receiver.frames .audio .undefined =
      .ok (Receiver.attached (DEFAULTS .audio) : Receiver AudioFrameData) := rfl
  have hr : (machine (Receiver.attached (DEFAULTS .audio)) 0).exec
      (machine (Receiver.attached (DEFAULTS .audio)) 0).init relayed = some _ := rfl
  obtain ⟨-, -, hkept, -, hcount, -⟩ := relay_accounts ho 0 relayed _ hr
  refine ⟨_, _, hr, rfl, rfl, rfl, hkept ?_, rfl, hcount _ rfl⟩
  simp [relayed, drained, Machine.Along, AudioRelayAct.elsewhere]

end AudioRelay

end VideoNode.Audio
