import Mathlib.Data.List.Count
import VideoNode.Audio.LocalAudioTrack
import VideoNode.Lts.Machine

/-!
# What becomes of accepted audio

Every interleaving of the writes of any number of local audio tracks with the 10 ms task and with
what the engine calls on the shared device (`src/media/node_audio_device.cpp`). A task queue that
`Terminate()` has moved out goes on until it is destroyed, and its destruction waits for the run
in progress.
-/

namespace VideoNode.Audio

open VideoNode.Lts

/-- The device, the tracks on it, the task queues on their way out, every sample of a `write()`
that returned true, every sample a clear removed, and the calls on transports so far. -/
structure AudioPath (S : Type) where
  device : NodeAudioDevice S
  tracks : List LocalAudioTrack
  retired : List (Tick S)
  accepted : List S
  cleared : List S
  calls : List (TransportCall S)

/-- What the application, the engine and the tasks do. A task is named by its queue: the one of
the device, or one on its way out. -/
inductive AudioPathAct (S : Type) where
  | createTrack (hasSource : Bool)
  | write (track : Nat) (nowUs : Int) (frame : Option (AudioFrameInput S))
  | clearBuffer (track : Nat)
  | setMaxQueueChunks (chunks : Nat)
  | init
  | terminate
  /-- `queue.reset()` at the end of `Terminate()`. -/
  | destroyQueue (i : Nat)
  | registerAudioCallback (transport : Option Nat)
  | setPlaying (playing : Bool)
  | setRecording (recording : Bool)
  /-- A run of a task starts, under `rec_mutex_`. -/
  | take (queue : Option Nat)
  /-- The run goes on under `mutex_`. -/
  | emit (queue : Option Nat)

namespace AudioPath

variable {S : Type}

/-- The task of a queue. -/
def tickAt (w : AudioPath S) : Option Nat → Option (Tick S)
  | none => w.device.audioQueue
  | some i => w.retired[i]?

/-- The task of a queue has moved on. -/
def setTick (w : AudioPath S) (queue : Option Nat) (tick : Tick S) : AudioPath S :=
  match queue with
  | none => { w with device := { w.device with audioQueue := some tick } }
  | some i => { w with retired := w.retired.set i tick }

/-- One step. -/
def step (w : AudioPath S) : AudioPathAct S → Option (AudioPath S)
  | .createTrack hasSource => some { w with tracks := w.tracks ++ [.create hasSource] }
  | .write track nowUs frame =>
    w.tracks[track]?.bind fun t ↦
      match t.checkInput nowUs frame, t.write w.device nowUs frame with
      | .ok (samples, _), .ok (result, t', device) =>
        some { w with
          device := device
          tracks := w.tracks.set track t'
          accepted := if result then w.accepted ++ samples else w.accepted }
      -- It throws.
      | _, _ => some w
  | .clearBuffer track =>
    w.tracks[track]?.map fun t ↦
      { w with
        device := t.clearBuffer w.device
        cleared := if t.hasSource then w.cleared ++ w.device.recBuffer else w.cleared }
  | .setMaxQueueChunks chunks => some { w with device := w.device.setMaxQueueChunks chunks }
  | .init => some { w with device := w.device.init }
  | .terminate =>
    let r := w.device.terminate
    some { w with device := r.2, retired := w.retired ++ r.1.toList }
  | .destroyQueue i =>
    match w.retired[i]? with
    | some .waiting => some { w with retired := w.retired.eraseIdx i }
    | _ => none
  | .registerAudioCallback transport =>
    some { w with device := w.device.registerAudioCallback transport }
  | .setPlaying playing => some { w with device := w.device.setPlaying playing }
  | .setRecording recording => some { w with device := w.device.setRecording recording }
  | .take queue =>
    match w.tickAt queue with
    | some .waiting =>
      let r := w.device.takeFrame
      some (setTick { w with device := r.2 } queue (.took r.1))
    | _ => none
  | .emit queue =>
    match w.tickAt queue with
    | some (.took frame) =>
      some (setTick { w with calls := w.calls ++ w.device.emitFrame frame } queue .waiting)
    | _ => none

/-- A process that has created its device, and everything that can happen to it. -/
def machine (S : Type) : Machine (AudioPath S) (AudioPathAct S) where
  init := ⟨.create, [], [], [], [], []⟩
  step := step

/-- Samples `RecordedDataIsAvailable` was called with, the zeros of the device left out. -/
def passed (w : AudioPath S) : List S := w.calls.flatMap TransportCall.samples

/-- Samples a run of a task has taken and not gone on with. -/
def inHand (w : AudioPath S) : List S :=
  (w.device.audioQueue.toList ++ w.retired).flatMap Tick.frame

/-- Every sample of a `write()` that returned true is still queued, in the hand of a task, was
passed to a transport once, or was cleared. -/
def Accounted (w : AudioPath S) : Prop :=
  (w.passed ++ w.cleared ++ w.inHand ++ w.device.recBuffer).Perm w.accepted

/-- A task that has samples in hand goes on while the device records for a transport. -/
def Delivers (w : AudioPath S) : AudioPathAct S → Prop
  | .emit queue => ∀ tick ∈ w.tickAt queue,
      tick.frame = [] ∨ (w.device.recording && w.device.audioTransport.isSome) = true
  | _ => True

instance (w : AudioPath S) (a : AudioPathAct S) : Decidable (w.Delivers a) :=
  match a with
  | .emit queue => inferInstanceAs (Decidable (∀ tick ∈ w.tickAt queue, _ ∨ _))
  | .createTrack _ | .write _ _ _ | .clearBuffer _ | .setMaxQueueChunks _ | .init | .terminate
  | .destroyQueue _ | .registerAudioCallback _ | .setPlaying _ | .setRecording _ | .take _ =>
    inferInstanceAs (Decidable True)

private theorem accounted_iff_count [DecidableEq S] {w : AudioPath S} : w.Accounted ↔
    ∀ x, w.passed.count x + w.cleared.count x + w.inHand.count x + w.device.recBuffer.count x =
      w.accepted.count x := by
  simp only [Accounted, List.perm_iff_count, List.count_append]

private theorem count_frames_set [DecidableEq S] {ticks : List (Tick S)} {i : Nat}
    {old new : Tick S} (x : S) (h : ticks[i]? = some old) :
    ((ticks.set i new).flatMap Tick.frame).count x + old.frame.count x =
      (ticks.flatMap Tick.frame).count x + new.frame.count x := by
  induction ticks generalizing i with
  | nil => simp at h
  | cons t ticks ih =>
    cases i with
    | zero =>
      simp only [List.getElem?_cons_zero, Option.some.injEq] at h
      subst h
      simp only [List.set_cons_zero, List.flatMap_cons, List.count_append]
      omega
    | succ i =>
      have ht := ih (by simpa using h)
      simp only [List.set_cons_succ, List.flatMap_cons, List.count_append]
      omega

private theorem frames_eraseIdx {ticks : List (Tick S)} {i : Nat} (h : ticks[i]? = some .waiting) :
    (ticks.eraseIdx i).flatMap Tick.frame = ticks.flatMap Tick.frame := by
  induction ticks generalizing i with
  | nil => simp at h
  | cons t ticks ih =>
    cases i with
    | zero =>
      simp only [List.getElem?_cons_zero, Option.some.injEq] at h
      subst h
      simp [Tick.frame]
    | succ i => simp [ih (by simpa using h)]

private theorem count_setTick [DecidableEq S] {w : AudioPath S} {queue : Option Nat}
    {old new : Tick S} (x : S) (h : w.tickAt queue = some old) :
    (w.setTick queue new).inHand.count x + old.frame.count x =
      w.inHand.count x + new.frame.count x := by
  cases queue with
  | none =>
    have h : w.device.audioQueue = some old := h
    simp only [inHand, setTick, h, Option.toList_some, List.singleton_append, List.flatMap_cons,
      List.count_append]
    omega
  | some i =>
    have hs : ((w.retired.set i new).flatMap Tick.frame).count x + old.frame.count x =
        (w.retired.flatMap Tick.frame).count x + new.frame.count x := count_frames_set x h
    simp only [inHand, setTick, List.flatMap_append, List.count_append]
    omega

/-- Moving a task on changes nothing but that task. -/
@[simp] theorem setTick_frame (w : AudioPath S) (queue : Option Nat) (tick : Tick S) :
    (w.setTick queue tick).calls = w.calls ∧ (w.setTick queue tick).cleared = w.cleared ∧
      (w.setTick queue tick).accepted = w.accepted ∧
      (w.setTick queue tick).device.recBuffer = w.device.recBuffer ∧
      (w.setTick queue tick).device.initialized = w.device.initialized := by
  cases queue <;> exact ⟨rfl, rfl, rfl, rfl, rfl⟩

/-- A write throws and changes nothing, or it pushes its samples and is counted by the outcome. -/
theorem write_step_cases {w w' : AudioPath S} {track : Nat} {nowUs : Int}
    {frame : Option (AudioFrameInput S)} (hs : w.step (.write track nowUs frame) = some w') :
    ∃ t, w.tracks[track]? = some t ∧ ((∃ e, t.checkInput nowUs frame = .error e ∧ w' = w) ∨
      ∃ samples timestampUs, t.checkInput nowUs frame = .ok (samples, timestampUs) ∧
        w' = { w with
          device := (w.device.pushRecordingData samples).2
          tracks := w.tracks.set track
            (t.count (w.device.pushRecordingData samples).1 timestampUs)
          accepted := if (w.device.pushRecordingData samples).1 then w.accepted ++ samples
            else w.accepted }) := by
  obtain ⟨t, ht, hs⟩ := Option.bind_eq_some_iff.mp hs
  refine ⟨t, ht, ?_⟩
  cases hin : t.checkInput nowUs frame with
  | error e =>
    rw [hin] at hs
    cases hs
    exact .inl ⟨e, rfl, rfl⟩
  | ok input =>
    rw [hin, LocalAudioTrack.write_of_input hin] at hs
    cases hs
    exact .inr ⟨input.1, input.2, rfl, rfl⟩

/-- A run of a task starts where its task waits. -/
theorem take_some {w w' : AudioPath S} {queue : Option Nat}
    (hs : w.step (.take queue) = some w') : w.tickAt queue = some .waiting ∧
      w' = setTick { w with device := w.device.takeFrame.2 } queue
        (.took w.device.takeFrame.1) := by
  simp only [step] at hs
  split at hs
  · next hq =>
    cases hs
    exact ⟨hq, rfl⟩
  · cases hs

/-- A run goes on with what its task has in hand. -/
theorem emit_some {w w' : AudioPath S} {queue : Option Nat}
    (hs : w.step (.emit queue) = some w') : ∃ frame, w.tickAt queue = some (.took frame) ∧
      w' = setTick { w with calls := w.calls ++ w.device.emitFrame frame } queue .waiting := by
  simp only [step] at hs
  split at hs
  · next frame hq =>
    cases hs
    exact ⟨frame, hq, rfl⟩
  · cases hs

/-- A task queue is destroyed between two runs of its task. -/
theorem destroyQueue_some {w w' : AudioPath S} {i : Nat}
    (hs : w.step (.destroyQueue i) = some w') : w.retired[i]? = some .waiting ∧
      w' = { w with retired := w.retired.eraseIdx i } := by
  simp only [step] at hs
  split at hs
  · next hw =>
    cases hs
    exact ⟨hw, rfl⟩
  · cases hs

private theorem accounted_congr {w w' : AudioPath S} (h : w.Accounted)
    (hc : w'.calls = w.calls) (hl : w'.cleared = w.cleared) (hi : w'.inHand = w.inHand)
    (hb : w'.device.recBuffer = w.device.recBuffer) (ha : w'.accepted = w.accepted) :
    w'.Accounted := by
  unfold Accounted passed at *
  rw [hc, hl, hi, hb, ha]
  exact h

private theorem accounted_write {w w' : AudioPath S} {track : Nat} {nowUs : Int}
    {frame : Option (AudioFrameInput S)} (h : w.Accounted)
    (hs : w.step (.write track nowUs frame) = some w') : w'.Accounted := by
  obtain ⟨t, -, ⟨e, -, rfl⟩ | ⟨samples, timestampUs, -, rfl⟩⟩ := write_step_cases hs
  · exact h
  · rcases w.device.pushRecordingData_cases samples with hp | hp
    · rw [hp]
      exact accounted_congr h rfl rfl rfl rfl rfl
    · rw [hp]
      have hp : (w.passed ++ w.cleared ++ w.inHand ++ (w.device.recBuffer ++ samples)).Perm
          (w.accepted ++ samples) := by
        rw [← List.append_assoc]
        exact h.append_right samples
      exact hp

private theorem accounted_clear {w w' : AudioPath S} {track : Nat} (h : w.Accounted)
    (hs : w.step (.clearBuffer track) = some w') : w'.Accounted := by
  obtain ⟨t, ht, rfl⟩ := Option.map_eq_some_iff.mp hs
  unfold LocalAudioTrack.clearBuffer
  split
  · classical
    rw [accounted_iff_count] at h ⊢
    intro x
    have hx := h x
    simp only [passed, inHand, NodeAudioDevice.clearRecordingBuffer, List.count_append,
      List.count_nil] at hx ⊢
    omega
  · exact h

private theorem accounted_take {w w' : AudioPath S} {queue : Option Nat} (h : w.Accounted)
    (hs : w.step (.take queue) = some w') : w'.Accounted := by
  obtain ⟨hq, rfl⟩ := take_some hs
  let v : AudioPath S := { w with device := w.device.takeFrame.2 }
  have hv : v.tickAt queue = some .waiting := by cases queue <;> exact hq
  classical
  rw [accounted_iff_count] at h ⊢
  intro x
  have hx := h x
  have ht : (v.setTick queue (.took w.device.takeFrame.1)).inHand.count x + [].count x =
      w.inHand.count x + w.device.takeFrame.1.count x := count_setTick x hv
  have hb : w.device.recBuffer.count x = w.device.takeFrame.1.count x +
      v.device.recBuffer.count x := by
    rw [← List.count_append]
    simp [v, NodeAudioDevice.takeFrame]
  simp only [passed, setTick_frame] at hx ⊢
  simp only [List.count_nil] at ht
  show (w.calls.flatMap TransportCall.samples).count x + w.cleared.count x +
    (v.setTick queue (.took w.device.takeFrame.1)).inHand.count x +
    v.device.recBuffer.count x = w.accepted.count x
  omega

private theorem accounted_emit {w w' : AudioPath S} {queue : Option Nat} (h : w.Accounted)
    (hs : w.step (.emit queue) = some w') : w'.Accounted ↔ w.Delivers (.emit queue) := by
  obtain ⟨frame, hq, rfl⟩ := emit_some hs
  let v : AudioPath S := { w with calls := w.calls ++ w.device.emitFrame frame }
  have hv : v.tickAt queue = some (.took frame) := by cases queue <;> exact hq
  have hcalls : v.passed = w.passed ++
      if w.device.recording && w.device.audioTransport.isSome then frame else [] := by
    rw [← NodeAudioDevice.samples_emitFrame]
    simp [passed, v]
  have hd : w.Delivers (.emit queue) ↔ frame = [] ∨
      (w.device.recording && w.device.audioTransport.isSome) = true := by
    simp [Delivers, hq, Tick.frame]
  classical
  have hkey : (v.setTick queue .waiting).Accounted ↔
      ∀ x, (if w.device.recording && w.device.audioTransport.isSome then frame
        else []).count x = frame.count x := by
    rw [accounted_iff_count] at h ⊢
    apply forall_congr'
    intro x
    have hx := h x
    have ht : (v.setTick queue .waiting).inHand.count x + frame.count x =
        w.inHand.count x + [].count x := count_setTick x hv
    have hp : (v.setTick queue .waiting).passed = v.passed := by simp [passed]
    simp only [hp, hcalls, setTick_frame, List.count_append, List.count_nil] at ht ⊢
    show _ + w.cleared.count x + _ + w.device.recBuffer.count x = w.accepted.count x ↔ _
    omega
  rw [hkey, hd]
  split
  · next hb => simp [hb]
  · next hb =>
    simp only [hb, Bool.false_eq_true, or_false, List.count_nil]
    constructor
    · intro hn
      apply List.eq_nil_iff_forall_not_mem.mpr
      intro x hx
      have hpos := List.count_pos_iff.mpr hx
      have hn := hn x
      omega
    · rintro rfl x
      rfl

-- The device has a task queue exactly while it is initialized.
private def Queued (w : AudioPath S) : Prop :=
  w.device.initialized = w.device.audioQueue.isSome

private theorem queued_setTick {w v : AudioPath S} {queue : Option Nat} {old new : Tick S}
    (h : w.Queued) (hq : w.tickAt queue = some old)
    (hi : v.device.initialized = w.device.initialized)
    (ha : v.device.audioQueue = w.device.audioQueue) : (v.setTick queue new).Queued := by
  cases queue with
  | none =>
    have hq : w.device.audioQueue = some old := hq
    rw [Queued, hq] at h
    exact hi.trans h
  | some i =>
    rw [Queued, ← hi, ← ha] at h
    exact h

private theorem queued_step {w w' : AudioPath S} {a : AudioPathAct S} (h : w.Queued)
    (hs : w.step a = some w') : w'.Queued := by
  unfold Queued at h
  cases a with
  | createTrack hasSource | setMaxQueueChunks chunks | registerAudioCallback transport
    | setPlaying playing | setRecording recording =>
    cases hs
    exact h
  | write track nowUs frame =>
    obtain ⟨t, -, ⟨e, -, rfl⟩ | ⟨samples, timestampUs, -, rfl⟩⟩ := write_step_cases hs
    · exact h
    · obtain ⟨hi, hq⟩ := w.device.pushRecordingData_frame samples
      simp only [Queued, hi, hq]
      exact h
  | clearBuffer track =>
    obtain ⟨t, ht, rfl⟩ := Option.map_eq_some_iff.mp hs
    unfold Queued LocalAudioTrack.clearBuffer
    split
    · exact h
    · exact h
  | init =>
    cases hs
    unfold Queued NodeAudioDevice.init
    split
    · exact h
    · rfl
  | terminate =>
    cases hs
    unfold Queued NodeAudioDevice.terminate
    split
    · rfl
    · exact h
  | destroyQueue i =>
    obtain ⟨-, rfl⟩ := destroyQueue_some hs
    exact h
  | take queue =>
    obtain ⟨hq, rfl⟩ := take_some hs
    exact queued_setTick h hq rfl rfl
  | emit queue =>
    obtain ⟨frame, hq, rfl⟩ := emit_some hs
    exact queued_setTick h hq rfl rfl

private theorem accounted_init {w : AudioPath S} (hq : w.Queued) (h : w.Accounted) :
    AudioPath.Accounted { w with device := w.device.init } := by
  unfold NodeAudioDevice.init
  split
  · exact h
  · next hi =>
    have hn : w.device.audioQueue = none := by
      have hi : w.device.initialized = false := by simpa using hi
      rw [Queued, hi] at hq
      simpa using hq.symm
    refine accounted_congr h rfl rfl ?_ rfl rfl
    simp [inHand, hn, Tick.frame]

private theorem accounted_terminate {w : AudioPath S} (h : w.Accounted) :
    AudioPath.Accounted { w with
      device := w.device.terminate.2
      retired := w.retired ++ w.device.terminate.1.toList } := by
  unfold NodeAudioDevice.terminate
  split
  · -- The queue moves with what its task has in hand.
    classical
    rw [accounted_iff_count] at h ⊢
    intro x
    have hx := h x
    simp only [passed, inHand, List.flatMap_append, List.count_append, Option.toList_none,
      List.flatMap_nil, List.count_nil] at hx ⊢
    omega
  · refine accounted_congr h rfl rfl ?_ rfl rfl
    simp [inHand]

/-- A step from a state that accounts for every accepted sample leads to another one exactly if
it delivers. -/
theorem accounted_step {w w' : AudioPath S} {a : AudioPathAct S} (hq : w.Queued)
    (h : w.Accounted) (hs : w.step a = some w') : w'.Accounted ↔ w.Delivers a := by
  cases a with
  | emit queue => exact accounted_emit h hs
  | write track nowUs frame => exact ⟨fun _ ↦ True.intro, fun _ ↦ accounted_write h hs⟩
  | clearBuffer track => exact ⟨fun _ ↦ True.intro, fun _ ↦ accounted_clear h hs⟩
  | take queue => exact ⟨fun _ ↦ True.intro, fun _ ↦ accounted_take h hs⟩
  | createTrack hasSource | setMaxQueueChunks chunks | registerAudioCallback transport
    | setPlaying playing | setRecording recording =>
    cases hs
    exact ⟨fun _ ↦ True.intro, fun _ ↦ accounted_congr h rfl rfl rfl rfl rfl⟩
  | init =>
    cases hs
    exact ⟨fun _ ↦ True.intro, fun _ ↦ accounted_init hq h⟩
  | terminate =>
    cases hs
    exact ⟨fun _ ↦ True.intro, fun _ ↦ accounted_terminate h⟩
  | destroyQueue i =>
    refine ⟨fun _ ↦ True.intro, fun _ ↦ ?_⟩
    obtain ⟨hw, rfl⟩ := destroyQueue_some hs
    refine accounted_congr h rfl rfl ?_ rfl rfl
    simp [inHand, frames_eraseIdx hw]

/-- Along a run every accepted sample stays accounted for exactly if each task that has taken
samples goes on while the device records for a transport; and between the runs of the tasks that
means it is queued, was passed to a transport once, or was cleared. -/
theorem accepted_accounted_iff (run : List (AudioPathAct S)) :
    ((machine S).Always Accounted (machine S).init run ↔
      (machine S).Along Delivers (machine S).init run) ∧
    ((machine S).Along Delivers (machine S).init run → ∀ w : AudioPath S,
      (machine S).exec (machine S).init run = some w → w.inHand = [] →
      (w.passed ++ w.cleared ++ w.device.recBuffer).Perm w.accepted) := by
  have hiff : (machine S).Always Accounted (machine S).init run ↔
      (machine S).Along Delivers (machine S).init run := by
    have hq : (machine S).init.Queued := rfl
    refine Machine.always_iff_along (i := Queued) ?_ ?_ ?_ hq (List.Perm.refl _) run
    · exact fun w a w' hw hs ↦ queued_step hw hs
    · exact fun w a w' hw h hs ↦ accounted_step hw h hs
    · intro w a hw hs
      cases a with
      | emit queue =>
        intro tick hq
        have hs : w.step (.emit queue) = none := hs
        have hq : w.tickAt queue = some tick := hq
        cases tick with
        | waiting => exact .inl rfl
        | took frame => simp [step, hq] at hs
      | _ => exact True.intro
  refine ⟨hiff, ?_⟩
  intro hd w hw hn
  have h : w.Accounted := (hiff.mpr hd).last hw
  rw [Accounted, hn, List.append_nil] at h
  exact h

-- One sample written and ticked away, with or without an engine that records.
private def writeOne (engine : List (AudioPathAct Nat)) : List (AudioPathAct Nat) :=
  [.createTrack true, .init] ++ engine ++
    [.write 0 0 (some ⟨some [7], .ofNat 1, .undefined⟩), .take none, .emit none]

private def recorded : List (AudioPathAct Nat) :=
  writeOne [.registerAudioCallback (some 0), .setRecording true]

/-- A sample that reaches the transport. -/
theorem accepted_accounted_recording : ∃ w : AudioPath Nat,
    (machine Nat).exec (machine Nat).init recorded = some w ∧ w.accepted = [7] ∧
    w.passed = [7] ∧ (w.passed ++ w.cleared ++ w.device.recBuffer).Perm w.accepted := by
  have hr : (machine Nat).exec (machine Nat).init recorded = some _ := rfl
  exact ⟨_, hr, rfl, rfl, (accepted_accounted_iff recorded).2 (by decide) _ hr rfl⟩

/-- A sample accepted before the device records is gone after the next 10 ms. -/
theorem accepted_lost : ¬ ∀ (S : Type) (run : List (AudioPathAct S)) (w : AudioPath S),
    (machine S).exec (machine S).init run = some w → w.inHand = [] →
      (w.passed ++ w.cleared ++ w.device.recBuffer).Perm w.accepted := by
  intro h
  have hr : (machine Nat).exec (machine Nat).init (writeOne []) = some _ := rfl
  have hp := h Nat (writeOne []) _ hr rfl
  exact absurd hp.length_eq (by decide)

end AudioPath

end VideoNode.Audio
