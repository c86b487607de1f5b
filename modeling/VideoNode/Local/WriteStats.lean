import VideoNode.Local.GivenFrames
import VideoNode.Lts.Tally

/-!
# Write statistics

`getWriteStats()` of a local video track and of a local audio track, after any sequence of writes of
any arguments. Both keep the same counters, so both are held to the tally of what their `write()`
calls returned or threw.
-/

namespace VideoNode

open VideoNode.Js VideoNode.Lts VideoNode.Video VideoNode.Audio

/-- `WriteStats`; `lib/types.ts:184–207`. -/
structure Local.WriteStats where
  framesWritten : Nat
  framesDropped : Nat
  sendQueueDepth : Nat
  maxQueue : Nat
  lastTimestamp : Option Int
  timestampRegressions : Nat
  deriving DecidableEq, Repr

/-- `src/media/local_video_track_wrap.cpp:304–318`; nothing is ever queued. -/
def Video.LocalVideoTrack.getWriteStats (t : LocalVideoTrack) : Local.WriteStats where
  framesWritten := t.framesWritten
  framesDropped := t.framesDropped
  sendQueueDepth := 0
  maxQueue := 0
  lastTimestamp := t.lastTimestampUs
  timestampRegressions := t.timestampRegressions

/-- `src/media/local_audio_track_wrap.cpp:212–227`; the depth is in whole chunks of 10 ms. -/
def Audio.LocalAudioTrack.getWriteStats {S : Type} (t : LocalAudioTrack) (d : NodeAudioDevice S) :
    Local.WriteStats where
  framesWritten := t.framesWritten
  framesDropped := t.framesDropped
  sendQueueDepth := if t.hasSource then d.recBuffer.length / kSamplesPer10Ms else 0
  maxQueue := if t.hasSource then d.maxQueueChunks else 0
  lastTimestamp := t.lastTimestampUs
  timestampRegressions := t.timestampRegressions

namespace Local

/-- What is called on a local video track. -/
inductive VideoTrackCall where
  | write (c : WriteCall)
  | configureSource (opts : NapiValue)

/-- A local video track, with whatever its `write()` calls are given. -/
def videoTrack (hasSource : Bool) : Machine LocalVideoTrack VideoTrackCall where
  init := .create hasSource
  step t
    | .write c => (t.write c.nowUs c.delivered c.info).map Prod.snd
    | .configureSource opts => some (t.configureSource opts)

/-- A call of `write()` of a local audio track, with what the writes of other tracks, the 10 ms
task, clears and `_configureSource` have made of the shared device by then. -/
structure AudioWriteCall where
  device : NodeAudioDevice Int16Sample
  nowUs : Int
  info : Option Reads

/-- A local audio track, with whatever its `write()` calls are given. -/
def audioTrack (hasSource : Bool) : Machine LocalAudioTrack AudioWriteCall where
  init := .create hasSource
  step t c := some (t.writeReads c.device c.nowUs c.info).2.1

/-- The timestamp of a frame: the whole number it gives, or the present time. -/
def frameTimestamp (nowUs : Int) (info : Option Reads) : Int :=
  match info.map (Reads.given · "timestamp") with
  | some (.ok (some v)) => v.integer?.getD nowUs
  | _ => nowUs

/-- How a call of `write()` ended that returned or threw this. -/
def ended (result : Except JsError Bool) (timestamp : Int) : Outcome Int :=
  match result with
  | .error _ => .failed
  | .ok false => .refused
  | .ok true => .accepted timestamp

/-- What a call on a video track returned or threw, if it was a `write()`. -/
def videoOutcomes (t : LocalVideoTrack) : VideoTrackCall → List (Outcome Int)
  | .write c => (t.write c.nowUs c.delivered c.info).toList.map fun r ↦
    ended r.1 (frameTimestamp c.nowUs c.info)
  | .configureSource _ => []

/-- What a call of `write()` of an audio track returned or threw. -/
def audioOutcomes (t : LocalAudioTrack) (c : AudioWriteCall) : List (Outcome Int) :=
  [ended (t.writeReads c.device c.nowUs c.info).1 (frameTimestamp c.nowUs c.info)]

/-- The statistics are those of a history of `write()` calls: those that returned true, those that
returned false, the timestamp of the last accepted frame, and the accepted frames whose timestamp
is not above that of the accepted frame before. -/
structure WriteStats.Exact (s : WriteStats) (h : List (Outcome Int)) : Prop where
  framesWritten : s.framesWritten = h.countP Outcome.isAccepted
  framesDropped : s.framesDropped = h.countP Outcome.isRefused
  absent : s.lastTimestamp = none ↔ ∀ o ∈ h, o.isAccepted = false
  lastTimestamp : s.lastTimestamp = (h.filterMap Outcome.stamp?).getLast?
  timestampRegressions : s.timestampRegressions = countRegressions (h.filterMap Outcome.stamp?)

/-- The counters among the statistics. -/
def WriteStats.tally (s : WriteStats) : Tally Int :=
  ⟨s.framesWritten, s.framesDropped, s.lastTimestamp, s.timestampRegressions⟩

/-- Counters that agree with the tally of a history are exact. -/
theorem WriteStats.exact_of_tally {s : WriteStats} {h : List (Outcome Int)}
    (hs : s.tally = .ofHistory h) : s.Exact h := by
  obtain ⟨hw, hd, hl, hr⟩ := Tally.mk.inj hs
  exact ⟨hw, hd, by rw [hl]; exact Tally.last_eq_none_iff h, hl, hr⟩

/-- What was read of a frame is what its timestamp depends on. -/
theorem frameTimestamp_of_given {nowUs : Int} {frame : Reads} {g : Option NapiValue}
    (hg : frame.given "timestamp" = .ok g) :
    frameTimestamp nowUs (some frame) = (g.bind NapiValue.integer?).getD nowUs := by
  simp only [frameTimestamp, Option.map_some, hg]
  cases g <;> rfl

private theorem video_checkTimestamp {nowUs timestampUs : Int} {g : Option NapiValue}
    (hc : Video.checkTimestamp nowUs g = .ok timestampUs) :
    (g.bind NapiValue.integer?).getD nowUs = timestampUs := by
  cases g with
  | none => cases hc; rfl
  | some v =>
    cases v with
    | number n =>
      simp only [Video.checkTimestamp] at hc
      cases hn : n.isInteger with
      | none => simp [hn] at hc
      | some i =>
        simp only [hn] at hc
        split at hc
        · cases hc
        · split at hc
          · cases hc
          · cases hc
            simp [NapiValue.integer?, NapiValue.number?, hn]
    | _ => cases hc

private theorem audio_checkTimestamp {nowUs timestampUs : Int} {g : Option NapiValue}
    (hc : Audio.checkTimestamp nowUs (g.elim .undefined NapiValue.described) = .ok timestampUs) :
    (g.bind NapiValue.integer?).getD nowUs = timestampUs := by
  cases g with
  | none => cases hc; rfl
  | some v =>
    cases v with
    | number n =>
      simp only [Option.elim, NapiValue.described, Audio.checkTimestamp] at hc
      cases hn : n.isInteger with
      | none => simp [hn] at hc
      | some i =>
        simp only [hn] at hc
        split at hc
        · cases hc
          simp [NapiValue.integer?, NapiValue.number?, hn]
        · cases hc
    | undefined => cases hc; rfl
    | object kind => cases kind <;> cases hc
    | _ => cases hc

/-- A push of a video frame is counted as it ended. -/
theorem tally_count_video (t : LocalVideoTrack) (delivered : Bool) (timestamp : Int) :
    (t.count delivered timestamp).getWriteStats.tally =
      t.getWriteStats.tally.add (ended (.ok delivered) timestamp) := by
  cases delivered with
  | false => rfl
  | true => cases hl : t.lastTimestampUs <;> simp [LocalVideoTrack.count,
      LocalVideoTrack.getWriteStats, WriteStats.tally, Tally.add, ended, hl]

/-- A push of audio samples is counted as it ended. -/
theorem tally_count_audio {S : Type} (t : LocalAudioTrack) (d d' : NodeAudioDevice S)
    (accepted : Bool) (timestamp : Int) :
    ((t.count accepted timestamp).getWriteStats d).tally =
      (t.getWriteStats d').tally.add (ended (.ok accepted) timestamp) := by
  cases accepted with
  | false => rfl
  | true => cases hl : t.lastTimestampUs <;> simp [LocalAudioTrack.count,
      LocalAudioTrack.getWriteStats, WriteStats.tally, Tally.add, ended, hl]

/-- A call on a video track returns, or throws and leaves the track, and is counted as it ended. -/
theorem step_video (hasSource : Bool) (t : LocalVideoTrack) (c : VideoTrackCall) :
    ∃ u, (videoTrack hasSource).step t c = some u ∧
      u.getWriteStats.tally = (videoOutcomes t c).foldl Tally.add t.getWriteStats.tally := by
  cases c with
  | write c =>
    obtain ⟨e, he⟩ | ⟨frame, i, buffer, hi, ha, -, he⟩ :=
      t.write_cases c.nowUs c.delivered c.info
    · exact ⟨t, by simp [videoTrack, he], by simp [videoOutcomes, he, ended, Tally.add]⟩
    · obtain ⟨g, hg, hc⟩ := ha.timestamp
      have hts : frameTimestamp c.nowUs c.info = i.timestampUs := by
        rw [hi]
        exact (frameTimestamp_of_given hg).trans (video_checkTimestamp hc)
      refine ⟨(t.pushFrame ⟨buffer, i.timestampUs, i.rotation⟩).count c.delivered i.timestampUs,
        by simp only [videoTrack, he, Option.map_some], ?_⟩
      simp only [videoOutcomes, he, hts, Option.toList_some, List.map_cons, List.map_nil,
        List.foldl_cons, List.foldl_nil]
      exact tally_count_video _ c.delivered i.timestampUs
  | configureSource opts =>
    refine ⟨_, rfl, ?_⟩
    simp only [videoOutcomes, List.foldl_nil, LocalVideoTrack.configureSource]
    split <;> rfl

/-- A write to an audio track, whatever the device is by then, is counted as it ended. -/
theorem step_audio (t : LocalAudioTrack) (c : AudioWriteCall) (d : NodeAudioDevice Int16Sample) :
    (((t.writeReads c.device c.nowUs c.info).2.1).getWriteStats d).tally =
      (audioOutcomes t c).foldl Tally.add (t.getWriteStats d).tally := by
  simp only [audioOutcomes, List.foldl_cons, List.foldl_nil]
  obtain ⟨e, he⟩ | ⟨samples, timestamp, hi, he⟩ :=
    t.writeReads_cases c.device c.nowUs c.info
  · rw [he]
    rfl
  · obtain ⟨frame, g, hf, hg, hc⟩ := LocalAudioTrack.timestamp_of_checkReads hi
    have hts : frameTimestamp c.nowUs c.info = timestamp := by
      rw [hf]
      exact (frameTimestamp_of_given hg).trans (audio_checkTimestamp hc)
    rw [he, hts]
    exact tally_count_audio t d d _ timestamp

/-- The statistics of a video track after any calls. -/
theorem exact_video (hasSource : Bool) (calls : List VideoTrackCall) :
    ∃ t, (videoTrack hasSource).exec (videoTrack hasSource).init calls = some t ∧
      t.getWriteStats.Exact
        ((videoTrack hasSource).collect videoOutcomes (videoTrack hasSource).init calls) := by
  obtain ⟨t, ht⟩ := Machine.exec_total
    (fun t c ↦ (step_video hasSource t c).imp fun _ hs ↦ hs.1) (videoTrack hasSource).init calls
  have hp : ∀ s c u, (videoTrack hasSource).step s c = some u →
      u.getWriteStats.tally = (videoOutcomes s c).foldl Tally.add s.getWriteStats.tally := by
    intro s c u hs
    obtain ⟨u', hu, hc⟩ := step_video hasSource s c
    cases hu.symm.trans hs
    exact hc
  exact ⟨t, ht, WriteStats.exact_of_tally (Tally.of_exec (h := []) hp rfl ht)⟩

/-- The statistics of an audio track after any writes, read with the device in any state. -/
theorem exact_audio (hasSource : Bool) (calls : List AudioWriteCall)
    (d : NodeAudioDevice Int16Sample) :
    ∃ t, (audioTrack hasSource).exec (audioTrack hasSource).init calls = some t ∧
      (t.getWriteStats d).Exact
        ((audioTrack hasSource).collect audioOutcomes (audioTrack hasSource).init calls) := by
  obtain ⟨t, ht⟩ := Machine.exec_total (m := audioTrack hasSource)
    (fun _ _ ↦ ⟨_, rfl⟩) (audioTrack hasSource).init calls
  have hp : ∀ s c u, (audioTrack hasSource).step s c = some u → (u.getWriteStats d).tally =
      (audioOutcomes s c).foldl Tally.add (s.getWriteStats d).tally := by
    intro s c u hs
    cases hs
    exact step_audio s c d
  exact ⟨t, ht, WriteStats.exact_of_tally (Tally.of_exec (h := []) hp rfl ht)⟩

/-- Write statistics are exact on both publish paths, after every sequence of `write()` calls with
any arguments. `framesWritten` and `framesDropped` count the calls that returned true and false; a
call that throws leaves the track as it is; `lastTimestamp` is that of the last accepted frame and
absent where none was accepted; and `timestampRegressions` counts the accepted frames whose
timestamp is not greater than that of the accepted frame immediately before. No call throws that is
given a well-formed frame, on a track with a source that does not expect another size. -/
theorem write_stats_exact (hasSource : Bool) :
    (∀ calls, ∃ t, (videoTrack hasSource).exec (videoTrack hasSource).init calls = some t ∧
      t.getWriteStats.Exact
        ((videoTrack hasSource).collect videoOutcomes (videoTrack hasSource).init calls)) ∧
    (∀ calls (d : NodeAudioDevice Int16Sample), ∃ t,
      (audioTrack hasSource).exec (audioTrack hasSource).init calls = some t ∧
      (t.getWriteStats d).Exact
        ((audioTrack hasSource).collect audioOutcomes (audioTrack hasSource).init calls)) ∧
    (∀ (t : LocalVideoTrack) nowUs delivered info, ∃ result u,
      t.write nowUs delivered info = some (result, u) ∧ (result = .ok delivered ∨ u = t)) ∧
    (∀ (t : LocalAudioTrack) d nowUs info, ∃ result u d',
      t.writeReads d nowUs info = (result, u, d') ∧
        ((∃ accepted, result = .ok accepted) ∨ u = t)) ∧
    (∀ (t : LocalVideoTrack) nowUs delivered (f : Video.GivenFrame), f.WellFormed →
      ¬ t.Disagrees f.width f.height → t.videoSource ≠ none →
        ∃ u, t.write nowUs delivered (some f.object.reads) = some (.ok delivered, u)) ∧
    ∀ (t : LocalAudioTrack) d nowUs (f : Audio.GivenFrame), f.WellFormed → t.hasSource = true →
      ∃ accepted u d', t.writeReads d nowUs (some f.object.reads) = (.ok accepted, u, d') := by
  refine ⟨exact_video hasSource, exact_audio hasSource, fun t nowUs delivered info ↦ ?_,
    fun t d nowUs info ↦ ?_,
    fun t nowUs delivered f h ha hs ↦ Video.GivenFrame.write_object h ha hs nowUs delivered,
    fun t d nowUs f h hs ↦ Audio.GivenFrame.writeReads_object h hs d nowUs⟩
  · obtain ⟨e, he⟩ | ⟨frame, i, buffer, -, -, -, he⟩ := t.write_cases nowUs delivered info
    · exact ⟨_, _, he, .inr rfl⟩
    · exact ⟨_, _, he, .inl rfl⟩
  · obtain ⟨e, he⟩ | ⟨samples, timestamp, -, he⟩ := t.writeReads_cases d nowUs info
    · exact ⟨_, _, _, he, .inr rfl⟩
    · exact ⟨_, _, _, he, .inl ⟨_, rfl⟩⟩

-- one sample with a timestamp
private def oneSample (timestamp : Int) : AudioWriteCall :=
  ⟨.create, 0, some (NapiValue.ofProps [("pcm", .ofBytes [0, 0]), ("frames", .ofInt 1),
    ("timestamp", .ofInt timestamp)]).reads⟩

/-- A timestamp that does not advance is a regression, and a negative one throws. -/
example : ((audioTrack true).exec (audioTrack true).init
    [oneSample 5, oneSample 5, oneSample (-1)]).map (·.getWriteStats (oneSample 5).device) =
      some ⟨2, 0, 0, 50, some 5, 1⟩ := rfl

end Local

end VideoNode
