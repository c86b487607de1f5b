/-!
# The shared audio device

`NodeAudioDevice` (`src/media/node_audio_device.cpp`): the publish queue every local audio track
of the process writes into, and the 10 ms task that empties it. The task works under two locks
one after the other, `rec_mutex_` and then `mutex_`, so it is two functions here and its position
between them is part of the task queue it runs on. Samples are opaque, and an `AudioTransport`
is named by a number.
-/

namespace VideoNode.Audio

/-- `kDefaultMaxQueueChunks`; `src/media/node_audio_device.h:35`. -/
def kDefaultMaxQueueChunks : Nat := 50

/-- `kSamplesPer10Ms`; `src/media/node_audio_device.h:136`. -/
def kSamplesPer10Ms : Nat := 480

/-- Where the repeating task of a task queue is: between two runs, or in a run that has taken
samples under `rec_mutex_` and does not hold `mutex_` yet. -/
inductive Tick (S : Type) where
  | waiting
  | took (frame : List S)
  deriving DecidableEq, Repr

/-- The samples a task has in hand. -/
def Tick.frame {S : Type} : Tick S → List S
  | .waiting => []
  | .took frame => frame

/-- What the task calls on an `AudioTransport`. A recorded frame is the samples taken from the
queue, followed by zeros up to 10 ms. -/
inductive TransportCall (S : Type) where
  | recordedDataIsAvailable (transport : Nat) (samples : List S) (zeros : Nat)
  | needMorePlayData (transport : Nat)
  deriving DecidableEq, Repr

/-- The published samples a call passes on. -/
def TransportCall.samples {S : Type} : TransportCall S → List S
  | .recordedDataIsAvailable _ samples _ => samples
  | .needMorePlayData _ => []

/-- Members of `NodeAudioDevice`; `src/media/node_audio_device.h:128–142`. -/
structure NodeAudioDevice (S : Type) where
  audioQueue : Option (Tick S)
  audioTransport : Option Nat
  initialized : Bool
  playing : Bool
  recording : Bool
  recBuffer : List S
  maxQueueChunks : Nat
  deriving DecidableEq, Repr

namespace NodeAudioDevice

variable {S : Type}

/-- A constructed device. -/
def create : NodeAudioDevice S where
  audioQueue := none
  audioTransport := none
  initialized := false
  playing := false
  recording := false
  recBuffer := []
  maxQueueChunks := kDefaultMaxQueueChunks

/-- `src/media/node_audio_device.cpp:22–39`; says whether the samples were taken. -/
def pushRecordingData (d : NodeAudioDevice S) (data : List S) : Bool × NodeAudioDevice S :=
  if d.maxQueueChunks * kSamplesPer10Ms < d.recBuffer.length + data.length then (false, d)
  else (true, { d with recBuffer := d.recBuffer ++ data })

/-- `src/media/node_audio_device.cpp:41–45`. -/
def setMaxQueueChunks (d : NodeAudioDevice S) (chunks : Nat) : NodeAudioDevice S :=
  { d with maxQueueChunks := if chunks < 1 then 1 else if 4800 < chunks then 4800 else chunks }

/-- `src/media/node_audio_device.cpp:52–55`. -/
def clearRecordingBuffer (d : NodeAudioDevice S) : NodeAudioDevice S :=
  { d with recBuffer := [] }

/-- `src/media/node_audio_device.cpp:57–70`. -/
def init (d : NodeAudioDevice S) : NodeAudioDevice S :=
  if d.initialized then d else { d with audioQueue := some .waiting, initialized := true }

/-- The task under `rec_mutex_`: the samples it copies and erases;
`src/media/node_audio_device.cpp:72–78`. -/
def takeFrame (d : NodeAudioDevice S) : List S × NodeAudioDevice S :=
  (d.recBuffer.take kSamplesPer10Ms, { d with recBuffer := d.recBuffer.drop kSamplesPer10Ms })

/-- The task under `mutex_`: its calls on the transport; `src/media/node_audio_device.cpp:80–99`. -/
def emitFrame (d : NodeAudioDevice S) (frame : List S) : List (TransportCall S) :=
  match d.audioTransport with
  | none => []
  | some transport =>
    (if d.recording then
      [.recordedDataIsAvailable transport frame (kSamplesPer10Ms - frame.length)] else []) ++
    if d.playing then [.needMorePlayData transport] else []

/-- `Terminate()` under `mutex_`: the device it leaves and the task queue it moves out, which it
destroys afterwards; `src/media/node_audio_device.cpp:107–122`. -/
def terminate (d : NodeAudioDevice S) : Option (Tick S) × NodeAudioDevice S :=
  if d.initialized then
    (d.audioQueue, { d with
      audioQueue := none
      initialized := false
      playing := false
      recording := false
      audioTransport := none })
  else (none, d)

/-- `src/media/node_audio_device.cpp:124–128`. -/
def registerAudioCallback (d : NodeAudioDevice S) (transport : Option Nat) : NodeAudioDevice S :=
  { d with audioTransport := transport }

/-- `StartPlayout()` and `StopPlayout()`; `src/media/node_audio_device.cpp:130–140`. -/
def setPlaying (d : NodeAudioDevice S) (playing : Bool) : NodeAudioDevice S :=
  { d with playing := playing }

/-- `StartRecording()` and `StopRecording()`; `src/media/node_audio_device.cpp:147–157`. -/
def setRecording (d : NodeAudioDevice S) (recording : Bool) : NodeAudioDevice S :=
  { d with recording := recording }

/-- A push is all or nothing. -/
theorem pushRecordingData_cases (d : NodeAudioDevice S) (data : List S) :
    d.pushRecordingData data = (false, d) ∨
      d.pushRecordingData data = (true, { d with recBuffer := d.recBuffer ++ data }) := by
  unfold pushRecordingData
  split
  · exact .inl rfl
  · exact .inr rfl

/-- A push leaves the task queue and whether there is one. -/
theorem pushRecordingData_frame (d : NodeAudioDevice S) (data : List S) :
    (d.pushRecordingData data).2.initialized = d.initialized ∧
      (d.pushRecordingData data).2.audioQueue = d.audioQueue := by
  rcases d.pushRecordingData_cases data with hp | hp <;> rw [hp] <;> exact ⟨rfl, rfl⟩

/-- The task hands its samples to the transport exactly if there is one and it records. -/
theorem samples_emitFrame (d : NodeAudioDevice S) (frame : List S) :
    (d.emitFrame frame).flatMap TransportCall.samples =
      if d.recording && d.audioTransport.isSome then frame else [] := by
  cases ht : d.audioTransport <;> cases hr : d.recording <;> cases hp : d.playing <;>
    simp [emitFrame, ht, hr, hp, TransportCall.samples]

end NodeAudioDevice

end VideoNode.Audio
