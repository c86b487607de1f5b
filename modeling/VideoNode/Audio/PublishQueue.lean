import VideoNode.Audio.Accounting

/-!
# The publish queue

`rec_buffer_` of `NodeAudioDevice` under every interleaving of the writes of any number of tracks
with the 10 ms task, clears and changes of its bound. It takes a write whole or not at all, gives
samples back in the order it took them, and stays within the bounds it took them under.
-/

namespace VideoNode.Audio

open VideoNode.Lts

namespace AudioPath

variable {S : Type}

/-- The samples a step offers to the device: those of a `write()` that does not throw. -/
def offered (w : AudioPath S) : AudioPathAct S → Option (List S)
  | .write track nowUs frame =>
    w.tracks[track]?.bind fun t ↦ (t.checkInput nowUs frame).toOption.map Prod.fst
  | _ => none

/-- The samples the device accepts in a step. -/
def pushed (w : AudioPath S) (a : AudioPathAct S) : List S :=
  match w.offered a with
  | none => []
  | some samples => if (w.device.pushRecordingData samples).1 then samples else []

/-- The bound in force where a step has samples accepted. -/
def bounds (w : AudioPath S) (a : AudioPathAct S) : List Nat :=
  match w.offered a with
  | none => []
  | some samples =>
    if (w.device.pushRecordingData samples).1 then [w.device.maxQueueChunks] else []

/-- The samples a tick takes or a clear discards. -/
def removed (w : AudioPath S) : AudioPathAct S → List S
  | .take _ => w.device.takeFrame.1
  | .clearBuffer track =>
    if w.tracks[track]?.any LocalAudioTrack.hasSource then w.device.recBuffer else []
  | _ => []

/-- The tasks there are, of the device and of the queues on their way out. -/
def ticks (w : AudioPath S) : List (Tick S) := w.device.audioQueue.toList ++ w.retired

/-- A push is accepted exactly if it fits. -/
theorem pushRecordingData_iff (d : NodeAudioDevice S) (data : List S) :
    (d.pushRecordingData data).1 = true ↔
      d.recBuffer.length + data.length ≤ kSamplesPer10Ms * d.maxQueueChunks := by
  unfold NodeAudioDevice.pushRecordingData
  rw [Nat.mul_comm]
  split
  · next h => simp; omega
  · next h => simp; omega

private theorem mem_ticks_setTick {w : AudioPath S} {queue : Option Nat} {new tick : Tick S}
    (h : tick ∈ (w.setTick queue new).ticks) : tick = new ∨ tick ∈ w.ticks := by
  cases queue with
  | none =>
    rcases List.mem_append.mp h with h | h
    · exact .inl (List.mem_singleton.mp h)
    · exact .inr (List.mem_append_right _ h)
  | some i =>
    rcases List.mem_append.mp h with h | h
    · exact .inr (List.mem_append_left _ h)
    · rcases List.mem_or_eq_of_mem_set h with h | h
      · exact .inr (List.mem_append_right _ h)
      · exact .inl h

private theorem tickAt_setTick {w : AudioPath S} {queue : Option Nat} {old new : Tick S}
    (h : w.tickAt queue = some old) : (w.setTick queue new).tickAt queue = some new := by
  cases queue with
  | none => rfl
  | some i =>
    have hlt := (List.getElem?_eq_some_iff.mp h).1
    exact List.getElem?_set_self hlt

/-- What a write does to the queue: its samples are added, or nothing is. -/
theorem step_write {w w' : AudioPath S} {track : Nat} {nowUs : Int}
    {frame : Option (AudioFrameInput S)} (hs : w.step (.write track nowUs frame) = some w') :
    w'.device.recBuffer = w.device.recBuffer ++ w.pushed (.write track nowUs frame) ∧
      w'.device.maxQueueChunks = w.device.maxQueueChunks ∧ w'.ticks = w.ticks ∧
      w'.cleared = w.cleared := by
  obtain ⟨t, ht, ⟨e, hin, rfl⟩ | ⟨samples, timestampUs, hin, rfl⟩⟩ := write_step_cases hs
  · simp [pushed, offered, ht, hin, Except.toOption]
  · rcases w.device.pushRecordingData_cases samples with hp | hp
    · simp [pushed, offered, ht, hin, Except.toOption, hp, ticks]
    · simp [pushed, offered, ht, hin, Except.toOption, hp, ticks]

/-- What a tick does: its task takes the oldest 480 samples into its hand. -/
theorem step_take {w w' : AudioPath S} {queue : Option Nat} (hs : w.step (.take queue) = some w') :
    w'.device.recBuffer = w.device.recBuffer.drop kSamplesPer10Ms ∧
      w'.tickAt queue = some (.took (w.device.recBuffer.take kSamplesPer10Ms)) ∧
      w'.device.maxQueueChunks = w.device.maxQueueChunks ∧ w'.cleared = w.cleared ∧
      ∀ tick ∈ w'.ticks, tick = .took (w.device.recBuffer.take kSamplesPer10Ms) ∨
        tick ∈ w.ticks := by
  obtain ⟨hq, rfl⟩ := take_some hs
  let v : AudioPath S := { w with device := w.device.takeFrame.2 }
  have hv : v.tickAt queue = some .waiting := by cases queue <;> exact hq
  refine ⟨?_, tickAt_setTick hv, ?_, ?_, fun tick ht ↦ mem_ticks_setTick (w := v) ht⟩
  · cases queue <;> rfl
  · cases queue <;> rfl
  · cases queue <;> rfl

/-- What a run of a task does under `mutex_`: it passes on what it has in hand. -/
theorem step_emit {w w' : AudioPath S} {queue : Option Nat} (hs : w.step (.emit queue) = some w') :
    ∃ frame, w.tickAt queue = some (.took frame) ∧
      w'.calls = w.calls ++ w.device.emitFrame frame ∧
      w'.device.recBuffer = w.device.recBuffer ∧
      w'.device.maxQueueChunks = w.device.maxQueueChunks ∧ w'.cleared = w.cleared ∧
      ∀ tick ∈ w'.ticks, tick = .waiting ∨ tick ∈ w.ticks := by
  obtain ⟨frame, hq, rfl⟩ := emit_some hs
  let v : AudioPath S := { w with calls := w.calls ++ w.device.emitFrame frame }
  refine ⟨frame, hq, ?_, ?_, ?_, ?_, fun tick ht ↦ mem_ticks_setTick (w := v) ht⟩
  · cases queue <;> rfl
  · cases queue <;> rfl
  · cases queue <;> rfl
  · cases queue <;> rfl

/-- Each step adds at the back of the queue what is pushed, and takes from its front what is
removed. -/
theorem queue_step {w w' : AudioPath S} {a : AudioPathAct S} (hs : w.step a = some w') :
    w.device.recBuffer ++ w.pushed a = w.removed a ++ w'.device.recBuffer := by
  cases a with
  | write track nowUs frame => exact (step_write hs).1.symm
  | take queue =>
    obtain ⟨hb, -⟩ := step_take hs
    rw [hb]
    simp [pushed, offered, removed, NodeAudioDevice.takeFrame]
  | clearBuffer track =>
    obtain ⟨t, ht, rfl⟩ := Option.map_eq_some_iff.mp hs
    cases hsrc : t.hasSource <;>
      simp [pushed, offered, removed, ht, hsrc, LocalAudioTrack.clearBuffer,
        NodeAudioDevice.clearRecordingBuffer]
  | emit queue =>
    obtain ⟨frame, -, -, hb, -⟩ := step_emit hs
    rw [hb]
    simp [pushed, offered, removed]
  | destroyQueue i =>
    obtain ⟨-, rfl⟩ := destroyQueue_some hs
    simp [pushed, offered, removed]
  | init =>
    cases hs
    unfold NodeAudioDevice.init
    split <;> simp [pushed, offered, removed]
  | terminate =>
    cases hs
    unfold NodeAudioDevice.terminate
    split <;> simp [pushed, offered, removed]
  | createTrack hasSource | setMaxQueueChunks chunks | registerAudioCallback transport
    | setPlaying playing | setRecording recording =>
    cases hs
    exact List.append_nil _

/-- A step leaves the queue within the bounds it was within, those of the step's push included. -/
theorem length_step {w w' : AudioPath S} {a : AudioPathAct S} {n : Nat}
    (h : w.device.recBuffer.length ≤ kSamplesPer10Ms * n) (hs : w.step a = some w') :
    w'.device.recBuffer.length ≤ kSamplesPer10Ms * (w.bounds a).foldl max n := by
  have hq := congrArg List.length (queue_step hs)
  simp only [List.length_append] at hq
  unfold pushed at hq
  unfold bounds
  cases ho : w.offered a with
  | none =>
    rw [ho] at hq
    simp only [List.length_nil, List.foldl_nil] at hq ⊢
    omega
  | some samples =>
    simp only [ho] at hq ⊢
    split at hq
    · next ha =>
      have hfit := (pushRecordingData_iff w.device samples).mp ha
      rw [if_pos ha]
      simp only [List.foldl_cons, List.foldl_nil]
      have hmax : kSamplesPer10Ms * w.device.maxQueueChunks ≤
          kSamplesPer10Ms * max n w.device.maxQueueChunks :=
        Nat.mul_le_mul_left _ (Nat.le_max_right _ _)
      omega
    · next ha =>
      rw [if_neg ha]
      simp only [List.length_nil, List.foldl_nil] at hq ⊢
      omega

end AudioPath

end VideoNode.Audio
