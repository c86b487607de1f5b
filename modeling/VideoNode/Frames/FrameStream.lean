import VideoNode.Frames.Options

/-!
# The JS policy queue

`FrameStream` of `lib/frame_stream.ts`. A method returns the new members and what it did to the
outside in order: resolve a `next()` promise, report drops, run `onEnd`. Promises are named by
the position of their `next()` call.
-/

namespace VideoNode.Frames

open VideoNode.Js

/-- `IteratorResult`; `done` has no value. -/
inductive IteratorResult (T : Type) where
  | value (frame : T)
  | done
  deriving DecidableEq, Repr

/-- What a method does outside its own members. -/
inductive Effect (T : Type) where
  | settle (call : Nat) (r : IteratorResult T)
  | onDropped (count : Nat) (sinceLastUs : Int)
  | onEnd
  deriving DecidableEq, Repr

/-- `DeliveryStats`; `lib/types.ts:156–167`. -/
structure DeliveryStats where
  framesDelivered : Nat
  framesDropped : Nat
  queueDepth : Nat
  maxQueue : Nat
  lastTimestamp : Option JsNumber
  deriving DecidableEq

/-- What `_sinkStats` reports about the native transfer queue. -/
structure NativeStats where
  nativeDropped : Nat
  nativeQueueDepth : Nat
  deriving DecidableEq, Repr

/-- Members of `FrameStream`; `lib/frame_stream.ts:89–120`. The two callbacks are optional, and
`dropTimer` says whether the report timer is armed. -/
structure FrameStream (T : Type) where
  opts : ResolvedOptions
  hasOnDropped : Bool
  hasOnEnd : Bool
  queue : List T
  waiters : List Nat
  ended : Bool
  delivered : Nat
  dropped : Nat
  lastTimestamp : Option JsNumber
  pendingDrops : Nat
  lastDropReportUs : Int
  dropTimer : Bool
  deriving DecidableEq

namespace FrameStream

variable {T : Type}

/-- The constructor; `lib/frame_stream.ts:113–122`. -/
def create (opts : ResolvedOptions) (hasOnDropped hasOnEnd : Bool) : FrameStream T where
  opts := opts
  hasOnDropped := hasOnDropped
  hasOnEnd := hasOnEnd
  queue := []
  waiters := []
  ended := false
  delivered := 0
  dropped := 0
  lastTimestamp := none
  pendingDrops := 0
  lastDropReportUs := 0
  dropTimer := false

/-- `lib/frame_stream.ts:156–160`; arms the report timer when somebody listens. -/
def countDrop (s : FrameStream T) : FrameStream T :=
  { s with
    dropped := s.dropped + 1
    pendingDrops := s.pendingDrops + 1
    dropTimer := s.dropTimer || s.hasOnDropped }

/-- The timer callback of `countDrop`; `lib/frame_stream.ts:160–170`. -/
def report (s : FrameStream T) (nowUs : Int) : FrameStream T × List (Effect T) :=
  let sinceUs := if s.lastDropReportUs = 0 then 0 else nowUs - s.lastDropReportUs
  ({ s with dropTimer := false, pendingDrops := 0, lastDropReportUs := nowUs },
    if s.hasOnDropped then [.onDropped s.pendingDrops sinceUs] else [])

-- `while (this.queue.length >= this.maxQueue)`: `countDrop` leaves the queue alone.
/-- Shed from the front until one more frame fits; `lib/frame_stream.ts:149–152`. -/
def makeRoom (s : FrameStream T) : List T → FrameStream T
  | [] => { s with queue := [] }
  | frame :: queue =>
    if s.opts.maxQueue ≤ (frame :: queue).length then makeRoom s.countDrop queue
    else { s with queue := frame :: queue }

/-- `lib/frame_stream.ts:128–154`. -/
def push (timestamp : T → JsNumber) (s : FrameStream T) (frame : T) :
    FrameStream T × List (Effect T) :=
  if s.ended then (s, []) else
    match s.waiters with
    | waiter :: waiters =>
      ({ s with
          waiters := waiters
          delivered := s.delivered + 1
          lastTimestamp := some (timestamp frame) }, [.settle waiter (.value frame)])
    | [] =>
      if s.opts.maxQueue ≤ s.queue.length then
        match s.opts.drop with
        | .newest => (s.countDrop, [])
        | .oldest =>
          let r := s.makeRoom s.queue
          ({ r with queue := r.queue ++ [frame] }, [])
      else ({ s with queue := s.queue ++ [frame] }, [])

/-- `end()`; `lib/frame_stream.ts:179–200`. -/
def endStream (s : FrameStream T) : FrameStream T × List (Effect T) :=
  if s.ended then (s, []) else
    ({ s with
        ended := true
        dropped := s.dropped + s.queue.length
        queue := []
        dropTimer := false
        waiters := [] },
      s.waiters.map (.settle · .done) ++ if s.hasOnEnd then [.onEnd] else [])

/-- `lib/frame_stream.ts:203–213`. -/
def getStats (s : FrameStream T) (nativeStats : Option NativeStats) : DeliveryStats :=
  let sink := nativeStats.getD ⟨0, 0⟩
  { framesDelivered := s.delivered
    framesDropped := s.dropped + sink.nativeDropped
    queueDepth := s.queue.length + sink.nativeQueueDepth
    maxQueue := s.opts.maxQueue
    lastTimestamp := s.lastTimestamp }

/-- `lib/frame_stream.ts:215–226`; `call` names the promise the call returns. -/
def next (timestamp : T → JsNumber) (s : FrameStream T) (call : Nat) :
    FrameStream T × List (Effect T) :=
  match s.queue with
  | frame :: queue =>
    ({ s with
        queue := queue
        delivered := s.delivered + 1
        lastTimestamp := some (timestamp frame) }, [.settle call (.value frame)])
  | [] =>
    if s.ended then (s, [.settle call .done])
    else ({ s with waiters := s.waiters ++ [call] }, [])

/-- Making room sheds exactly what does not fit beside one more frame, and counts it. -/
theorem makeRoom_eq (s : FrameStream T) (queue : List T) :
    s.makeRoom queue =
      { s with
        queue := queue.drop (queue.length + 1 - s.opts.maxQueue)
        dropped := s.dropped + (queue.length + 1 - s.opts.maxQueue)
        pendingDrops := s.pendingDrops + (queue.length + 1 - s.opts.maxQueue)
        dropTimer := s.dropTimer ||
          (decide (s.opts.maxQueue ≤ queue.length) && s.hasOnDropped) } := by
  have hp := s.opts.pos
  induction queue generalizing s with
  | nil =>
    have hk : 0 + 1 - s.opts.maxQueue = 0 := by omega
    have hz : s.opts.maxQueue ≠ 0 := by omega
    simp [makeRoom, hk, hz]
  | cons frame queue ih =>
    rw [makeRoom]
    split
    · next hf =>
      rw [ih s.countDrop hp]
      have hf : s.opts.maxQueue ≤ queue.length + 1 := hf
      have hk : queue.length + 1 + 1 - s.opts.maxQueue =
          (queue.length + 1 - s.opts.maxQueue) + 1 := by omega
      simp only [countDrop, List.length_cons, hk, List.drop_succ_cons, hf, decide_true,
        Bool.true_and, mk.injEq, true_and]
      refine ⟨by omega, by omega, ?_⟩
      cases s.dropTimer <;> cases s.hasOnDropped <;> simp
    · next hf =>
      simp only [List.length_cons, Nat.not_le] at hf
      have hk : queue.length + 1 + 1 - s.opts.maxQueue = 0 := by omega
      have hd : decide (s.opts.maxQueue ≤ queue.length + 1) = false := by
        simp only [decide_eq_false_iff_not]
        omega
      simp [hk, hd]

/-- The ways a push can go, with what each one requires. -/
inductive Pushed (timestamp : T → JsNumber) (frame : T) :
    FrameStream T → FrameStream T → List (Effect T) → Prop where
  | ended {s : FrameStream T} (he : s.ended = true) : Pushed timestamp frame s s []
  | handed {s : FrameStream T} {waiter : Nat} {waiters : List Nat} (he : s.ended = false)
      (hw : s.waiters = waiter :: waiters) :
      Pushed timestamp frame s
        { s with
          waiters := waiters
          delivered := s.delivered + 1
          lastTimestamp := some (timestamp frame) } [.settle waiter (.value frame)]
  | shedNewest {s : FrameStream T} (he : s.ended = false) (hw : s.waiters = [])
      (hf : s.opts.maxQueue ≤ s.queue.length) : Pushed timestamp frame s s.countDrop []
  | queued {s : FrameStream T} (he : s.ended = false) (hw : s.waiters = []) :
      Pushed timestamp frame s
        { s with
          queue := s.queue.drop (s.queue.length + 1 - s.opts.maxQueue) ++ [frame]
          dropped := s.dropped + (s.queue.length + 1 - s.opts.maxQueue)
          pendingDrops := s.pendingDrops + (s.queue.length + 1 - s.opts.maxQueue)
          dropTimer := s.dropTimer ||
            (decide (s.opts.maxQueue ≤ s.queue.length) && s.hasOnDropped) } []

/-- Inversion of a push. -/
theorem pushed (timestamp : T → JsNumber) (s : FrameStream T) (frame : T) :
    Pushed timestamp frame s (s.push timestamp frame).1 (s.push timestamp frame).2 := by
  unfold push
  split
  · next he => exact .ended he
  · next he =>
    have he : s.ended = false := by simpa using he
    split
    · next waiter waiters hw => exact .handed he hw
    · next hw =>
      split
      · next hf =>
        cases s.opts.drop with
        | newest => exact .shedNewest he hw hf
        | oldest =>
          simp only [makeRoom_eq]
          exact .queued he hw
      · next hf =>
        have hk : s.queue.length + 1 - s.opts.maxQueue = 0 := by omega
        have hq : Pushed timestamp frame s _ _ := .queued he hw
        simpa [hk, hf] using hq

/-- The ways a `next()` call can go. -/
inductive Nexted (timestamp : T → JsNumber) (call : Nat) :
    FrameStream T → FrameStream T → List (Effect T) → Prop where
  | taken {s : FrameStream T} {frame : T} {queue : List T} (hq : s.queue = frame :: queue) :
      Nexted timestamp call s
        { s with
          queue := queue
          delivered := s.delivered + 1
          lastTimestamp := some (timestamp frame) } [.settle call (.value frame)]
  | ended {s : FrameStream T} (hq : s.queue = []) (he : s.ended = true) :
      Nexted timestamp call s s [.settle call .done]
  | parked {s : FrameStream T} (hq : s.queue = []) (he : s.ended = false) :
      Nexted timestamp call s { s with waiters := s.waiters ++ [call] } []

/-- Inversion of a `next()` call. -/
theorem nexted (timestamp : T → JsNumber) (s : FrameStream T) (call : Nat) :
    Nexted timestamp call s (s.next timestamp call).1 (s.next timestamp call).2 := by
  unfold next
  split
  · next frame queue hq => exact .taken hq
  · next hq =>
    split
    · next he => exact .ended hq he
    · next he => exact .parked hq (by simpa using he)

end FrameStream

end VideoNode.Frames
