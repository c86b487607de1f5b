import Mathlib.Algebra.GroupWithZero.Nat
import VideoNode.Frames.Consumption

/-!
# Drop reports

The report timer of a `FrameStream` among the timers of the event loop: `countDrop` sets it,
`end()` clears it, and its callback runs `onDropped`, which may call any method of the stream
before it returns or throws. Nothing of the timer callback follows the call of `onDropped`.
-/

namespace VideoNode.Frames

open VideoNode.Js VideoNode.Lts

/-- What a method asks of the event loop. -/
inductive TimerCall where
  | setTimeout
  | clearTimeout
  deriving DecidableEq, Repr

/-- The timers that have been set and neither fired nor cleared, and the last handle that was given
out, which is what `dropTimer` holds when it is set. -/
structure EventLoop where
  outstanding : List Nat
  last : Nat
  deriving DecidableEq, Repr

namespace EventLoop

/-- One call; handles are never given out twice. -/
def call (l : EventLoop) : TimerCall → EventLoop
  | .setTimeout => ⟨l.outstanding ++ [l.last + 1], l.last + 1⟩
  | .clearTimeout => { l with outstanding := l.outstanding.erase l.last }

/-- The calls of a method. -/
def calls (l : EventLoop) (cs : List TimerCall) : EventLoop := cs.foldl call l

/-- A timer that fires is no longer outstanding. -/
def fired (l : EventLoop) (handle : Nat) : EventLoop :=
  { l with outstanding := l.outstanding.erase handle }

end EventLoop

namespace FrameStream

variable {T : Type}

/-- `countDrop` sets the timer unless nobody listens or it is set; `lib/frame_stream.ts:159–160`. -/
def countDropTimers (s : FrameStream T) : List TimerCall :=
  if !s.hasOnDropped || s.dropTimer then [] else [.setTimeout]

/-- The timers of `makeRoom`, one `countDrop` after the other; `lib/frame_stream.ts:149–152`. -/
def makeRoomTimers (s : FrameStream T) : List T → List TimerCall
  | [] => []
  | frame :: queue =>
    if s.opts.maxQueue ≤ (frame :: queue).length then
      s.countDropTimers ++ makeRoomTimers s.countDrop queue
    else []

/-- The timers of `push`; `lib/frame_stream.ts:128–154`. -/
def pushTimers (s : FrameStream T) : List TimerCall :=
  if s.ended then [] else
    match s.waiters with
    | _ :: _ => []
    | [] =>
      if s.opts.maxQueue ≤ s.queue.length then
        match s.opts.drop with
        | .newest => s.countDropTimers
        | .oldest => s.makeRoomTimers s.queue
      else []

/-- `end()` clears the timer if it is set; `lib/frame_stream.ts:188–191`. -/
def endTimers (s : FrameStream T) : List TimerCall :=
  if s.ended || !s.dropTimer then [] else [.clearTimeout]

end FrameStream

/-- The count of a drop report. -/
@[simp] def Effect.reported? {T : Type} : Effect T → Option Nat
  | .onDropped count _ => some count
  | .settle _ _ | .onEnd => none

/-- A stream in its event loop; `inCallback` while `onDropped` runs. -/
structure Reporting (T : Type) where
  run : Consumption T
  loop : EventLoop
  inCallback : Bool
  deriving DecidableEq

/-- What happens to a stream; `fire` is a timer that is outstanding, and `leave` the end of the
`onDropped` call it makes. -/
inductive ReportingAct (T : Type) where
  | push (frame : T)
  | next
  | end_
  | return_
  | fire (handle : Nat) (nowUs : Int)
  | leave (result : Except JsError Unit)

namespace Reporting

variable {T : Type}

/-- One method call, by anybody, the callback included; one firing of a timer, which waits for the
callback that runs; or the end of that callback, which leaves the stream as it is, also where it
throws. -/
def step (timestamp : T → JsNumber) (s : Reporting T) : ReportingAct T → Option (Reporting T)
  | .push frame => (s.run.step timestamp (.push frame)).map fun run ↦
    { s with run := run, loop := s.loop.calls s.run.stream.pushTimers }
  | .next => (s.run.step timestamp .next).map fun run ↦ { s with run := run }
  | .end_ => (s.run.step timestamp .end_).map fun run ↦
    { s with run := run, loop := s.loop.calls s.run.stream.endTimers }
  | .return_ => (s.run.step timestamp .return_).map fun run ↦
    { s with run := run, loop := s.loop.calls s.run.stream.endTimers }
  | .fire handle nowUs =>
    if handle ∈ s.loop.outstanding ∧ s.inCallback = false then
      let r := s.run.stream.report nowUs
      some { run := { s.run with stream := r.1, log := s.run.log ++ r.2 }
             loop := s.loop.fired handle
             inCallback := true }
    else none
  | .leave _ => if s.inCallback then some { s with inCallback := false } else none

/-- A stream constructed with an `onDropped` callback. -/
def machine (timestamp : T → JsNumber) (opts : ResolvedOptions) (hasOnEnd : Bool) :
    Machine (Reporting T) (ReportingAct T) where
  init := ⟨⟨.create opts true hasOnEnd, [], 0, []⟩, ⟨[], 0⟩, false⟩
  step := step timestamp

/-- The counts that were reported, in order. -/
def reports (s : Reporting T) : List Nat := s.run.log.filterMap Effect.reported?

/-- A report accounts for every drop before it, and one timer stands for those after it, until the
stream ends. -/
structure Complete (s : Reporting T) : Prop where
  sum : s.run.stream.ended = false →
    s.reports.sum + s.run.stream.pendingDrops = s.run.stream.dropped
  armed : s.run.stream.ended = false →
    (s.loop.outstanding ≠ [] ↔ 0 < s.run.stream.pendingDrops)
  cleared : s.run.stream.ended = true → s.loop.outstanding = []
  member : s.run.stream.dropTimer = true ↔ s.loop.outstanding ≠ []
  single : s.loop.outstanding.length ≤ 1
  positive : ∀ count ∈ s.reports, 1 ≤ count

end Reporting

/-- What holds of a stream in its event loop where so many drops have been reported. -/
structure FrameStream.Tracked {T : Type} (reported : Nat) (s : FrameStream T) (l : EventLoop) :
    Prop where
  listens : s.hasOnDropped = true
  timers : l.outstanding = if s.dropTimer then [l.last] else []
  sum : s.ended = false → reported + s.pendingDrops = s.dropped
  armed : s.ended = false → (s.dropTimer = true ↔ 0 < s.pendingDrops)
  ended : s.ended = true → s.dropTimer = false

namespace FrameStream

variable {T : Type} {timestamp : T → JsNumber} {reported : Nat} {s : FrameStream T} {l : EventLoop}

/-- Counting a drop of a live stream sets the timer where none is set. -/
theorem Tracked.countDrop (h : s.Tracked reported l) (he : s.ended = false) :
    s.countDrop.Tracked reported (l.calls s.countDropTimers) := by
  have hsum : reported + (s.pendingDrops + 1) = s.dropped + 1 := by
    have hs := h.sum he
    omega
  have hlive : s.countDrop.ended ≠ true := by simp [FrameStream.countDrop, he]
  refine ⟨h.listens, ?_, fun _ ↦ hsum, fun _ ↦ ?_, fun hf ↦ absurd hf hlive⟩
  · have ht := h.timers
    cases hd : s.dropTimer with
    | true =>
      rw [hd] at ht
      simpa [FrameStream.countDrop, countDropTimers, EventLoop.calls, hd] using ht
    | false =>
      rw [hd] at ht
      simp [FrameStream.countDrop, countDropTimers, EventLoop.calls, EventLoop.call, hd, h.listens,
        ht]
  · simp [FrameStream.countDrop, h.listens]

/-- What counting a drop keeps, making room keeps; by the frames it looks at. -/
theorem Tracked.makeRoom (h : s.Tracked reported l) (he : s.ended = false) (queue : List T) :
    (s.makeRoom queue).Tracked reported (l.calls (s.makeRoomTimers queue)) ∧
      (s.makeRoom queue).ended = false := by
  induction queue generalizing s l with
  | nil => exact ⟨⟨h.listens, h.timers, h.sum, h.armed, h.ended⟩, he⟩
  | cons frame queue ih =>
    rw [FrameStream.makeRoom, makeRoomTimers]
    split
    · next hf =>
      rw [EventLoop.calls, List.foldl_append]
      exact ih (h.countDrop he) he
    · exact ⟨⟨h.listens, h.timers, h.sum, h.armed, h.ended⟩, he⟩

/-- A push, whether it hands its frame over, queues it or drops some. -/
theorem Tracked.push (h : s.Tracked reported l) (frame : T) :
    (s.push timestamp frame).1.Tracked reported (l.calls s.pushTimers) := by
  unfold FrameStream.push pushTimers
  by_cases he : s.ended = true
  · rw [if_pos he, if_pos he]
    exact h
  · rw [if_neg he, if_neg he]
    have he : s.ended = false := by simpa using he
    cases hw : s.waiters with
    | cons waiter waiters => exact ⟨h.listens, h.timers, h.sum, h.armed, h.ended⟩
    | nil =>
      by_cases hf : s.opts.maxQueue ≤ s.queue.length
      · simp only [if_pos hf]
        cases s.opts.drop with
        | newest => exact h.countDrop he
        | oldest =>
          obtain ⟨hr, -⟩ := h.makeRoom he s.queue
          exact ⟨hr.listens, hr.timers, hr.sum, hr.armed, hr.ended⟩
      · simp only [if_neg hf]
        exact ⟨h.listens, h.timers, h.sum, h.armed, h.ended⟩

/-- A call of `next()` neither drops nor reports. -/
theorem Tracked.next (h : s.Tracked reported l) (call : Nat) :
    (s.next timestamp call).1.Tracked reported l := by
  unfold FrameStream.next
  split
  · exact ⟨h.listens, h.timers, h.sum, h.armed, h.ended⟩
  · split
    · exact h
    · exact ⟨h.listens, h.timers, h.sum, h.armed, h.ended⟩

/-- The end of a stream leaves no timer outstanding. -/
theorem Tracked.endStream (h : s.Tracked reported l) :
    s.endStream.1.Tracked reported (l.calls s.endTimers) := by
  unfold FrameStream.endStream
  split
  · next he =>
    rw [endTimers, he]
    exact h
  · next he =>
    have he : s.ended = false := by simpa using he
    refine ⟨h.listens, ?_, nofun, nofun, fun _ ↦ rfl⟩
    have ht := h.timers
    cases hd : s.dropTimer with
    | true =>
      rw [hd] at ht
      simp [endTimers, EventLoop.calls, EventLoop.call, he, hd, ht]
    | false =>
      rw [hd] at ht
      simpa [endTimers, EventLoop.calls, he, hd] using ht

/-- Only the timer that `dropTimer` holds is outstanding, it stands for a drop at least, and where
it fires the drops since the last report are reported. -/
theorem Tracked.report (h : s.Tracked reported l) {handle : Nat} (hh : handle ∈ l.outstanding)
    (nowUs : Int) : s.dropTimer = true ∧ 1 ≤ s.pendingDrops ∧
      (s.report nowUs).1.Tracked (reported + s.pendingDrops) (l.fired handle) := by
  have ht := h.timers
  cases hd : s.dropTimer with
  | false =>
    rw [ht, hd] at hh
    cases hh
  | true =>
    rw [hd, if_pos rfl] at ht
    obtain rfl : handle = l.last := by simpa [ht] using hh
    have he : s.ended = false := by
      cases he : s.ended with
      | false => rfl
      | true =>
        rw [h.ended he] at hd
        cases hd
    refine ⟨rfl, (h.armed he).mp hd, h.listens, ?_, fun _ ↦ h.sum he, fun _ ↦ ?_, fun _ ↦ rfl⟩
    · simp [EventLoop.fired, ht, FrameStream.report]
    · simp [FrameStream.report]

/-- A push reports nothing by itself. -/
theorem Pushed.reports_nothing {s' : FrameStream T} {frame : T} {out : List (Effect T)}
    (h : Pushed timestamp frame s s' out) : out.filterMap Effect.reported? = [] := by
  cases h <;> rfl

/-- A call of `next()` neither ends the stream nor reports. -/
theorem Nexted.reports_nothing {s' : FrameStream T} {call : Nat} {out : List (Effect T)}
    (h : Nexted timestamp call s s' out) :
    s'.ended = s.ended ∧ out.filterMap Effect.reported? = [] := by
  cases h with
  | taken | ended | parked => exact ⟨rfl, rfl⟩

/-- The end of a stream reports nothing, also not the drops it clears the timer of. -/
theorem reported_end (s : FrameStream T) :
    s.endStream.2.filterMap Effect.reported? = [] := by
  unfold endStream
  split
  · rfl
  · rw [List.filterMap_append]
    have hw : (s.waiters.map (Effect.settle (T := T) · .done)).filterMap Effect.reported? = [] := by
      rw [List.filterMap_map]
      exact List.filterMap_eq_nil_iff.mpr fun _ _ ↦ rfl
    rw [hw]
    cases s.hasOnEnd <;> rfl

end FrameStream

namespace Reporting

variable {T : Type} {timestamp : T → JsNumber} {opts : ResolvedOptions} {hasOnEnd : Bool}
  {s s' : Reporting T}

/-- A firing of a timer that is outstanding. -/
theorem fire_some {handle : Nat} {nowUs : Int}
    (hs : s.step timestamp (.fire handle nowUs) = some s') : handle ∈ s.loop.outstanding ∧
      s' = { run := { s.run with
               stream := (s.run.stream.report nowUs).1
               log := s.run.log ++ (s.run.stream.report nowUs).2 }
             loop := s.loop.fired handle
             inCallback := true } := by
  simp only [step] at hs
  split at hs
  · next hf =>
    cases hs
    exact ⟨hf.1, rfl⟩
  · cases hs

/-- The end of the callback, which leaves the stream and the timers as they are. -/
theorem leave_some {result : Except JsError Unit}
    (hs : s.step timestamp (.leave result) = some s') : s' = { s with inCallback := false } := by
  simp only [step] at hs
  split at hs
  · cases hs
    rfl
  · cases hs

/-- What every step keeps: the timers are tracked, and no report is empty. -/
structure Inv (s : Reporting T) : Prop where
  tracked : s.run.stream.Tracked s.reports.sum s.loop
  positive : ∀ count ∈ s.reports, 1 ≤ count

private theorem inv_of_silent (h : s.Inv) {stream : FrameStream T} {pushed : List T} {calls : Nat}
    {out : List (Effect T)} {loop : EventLoop} (ht : stream.Tracked s.reports.sum loop)
    (hr : out.filterMap Effect.reported? = []) :
    Inv ⟨⟨stream, pushed, calls, s.run.log ++ out⟩, loop, s.inCallback⟩ := by
  have he : (s.run.log ++ out).filterMap Effect.reported? = s.reports := by
    rw [List.filterMap_append, hr, List.append_nil]
    rfl
  constructor
  · show stream.Tracked ((s.run.log ++ out).filterMap Effect.reported?).sum loop
    rw [he]
    exact ht
  · intro count hc
    apply h.positive count
    rw [← he]
    exact hc

/-- A firing of a timer reports what was pending. -/
theorem reports_report (s : Reporting T) (h : s.Inv) (nowUs : Int) :
    (s.run.log ++ (s.run.stream.report nowUs).2).filterMap Effect.reported? =
      s.reports ++ [s.run.stream.pendingDrops] := by
  rw [List.filterMap_append, FrameStream.report, if_pos h.tracked.listens]
  rfl

/-- Every step keeps the invariant, one inside the callback as one outside. -/
theorem inv_step {a : ReportingAct T} (h : s.Inv) (hs : s.step timestamp a = some s') :
    s'.Inv := by
  cases a with
  | push frame =>
    cases hs
    exact inv_of_silent h (h.tracked.push frame)
      (s.run.stream.pushed timestamp frame).reports_nothing
  | next =>
    cases hs
    exact inv_of_silent h (h.tracked.next _)
      (s.run.stream.nexted timestamp s.run.calls).reports_nothing.2
  | end_ | return_ =>
    cases hs
    exact inv_of_silent h h.tracked.endStream (FrameStream.reported_end _)
  | fire handle nowUs =>
    obtain ⟨hh, rfl⟩ := fire_some hs
    obtain ⟨-, hpos, ht⟩ := h.tracked.report hh nowUs
    have hr := reports_report s h nowUs
    constructor
    · simp only [reports, hr, List.sum_append, List.sum_singleton]
      exact ht
    · intro count hc
      simp only [reports, hr, List.mem_append, List.mem_singleton] at hc
      rcases hc with hc | rfl
      · exact h.positive count hc
      · exact hpos
  | leave result =>
    obtain rfl := leave_some hs
    exact ⟨h.tracked, h.positive⟩

/-- The invariant holds after every sequence of steps. -/
theorem inv_of_reachable (h : (machine timestamp opts hasOnEnd).Reachable s) : s.Inv := by
  apply h.invariant
  · exact ⟨⟨rfl, rfl, fun _ ↦ rfl, fun _ ↦ by simp [machine, FrameStream.create], nofun⟩, nofun⟩
  · exact fun _ _ _ hi hs ↦ inv_step hi hs

/-- What the invariant says of the timers and the reports. -/
theorem complete_of_inv (h : s.Inv) : s.Complete := by
  have ht := h.tracked.timers
  have hm : s.run.stream.dropTimer = true ↔ s.loop.outstanding ≠ [] := by
    cases hd : s.run.stream.dropTimer <;> simp [ht, hd]
  refine ⟨h.tracked.sum, fun he ↦ ?_, fun he ↦ ?_, hm, ?_, h.positive⟩
  · rw [← hm]
    exact h.tracked.armed he
  · rw [ht, h.tracked.ended he]
    rfl
  · rw [ht]
    split <;> simp

/-- A step from an ended stream leaves it ended and reports nothing: no timer is outstanding. -/
theorem silent_step {a : ReportingAct T} (h : s.Inv) (he : s.run.stream.ended = true)
    (hs : s.step timestamp a = some s') :
    s'.run.stream.ended = true ∧ s'.reports = s.reports := by
  cases a with
  | push frame =>
    cases hs
    simp [FrameStream.push, he, reports]
  | next =>
    cases hs
    obtain ⟨hn, hr⟩ := (s.run.stream.nexted timestamp s.run.calls).reports_nothing
    refine ⟨hn.trans he, ?_⟩
    simp only [reports, List.filterMap_append, hr, List.append_nil]
  | end_ | return_ =>
    cases hs
    simp [FrameStream.endStream, he, reports]
  | fire handle nowUs =>
    have hn := (complete_of_inv h).cleared he
    simp [step, hn] at hs
  | leave result =>
    obtain rfl := leave_some hs
    exact ⟨he, rfl⟩

/-- A stream in its event loop is a run of the stream: a timer that fires is the one that is
armed. -/
theorem refines_consumption : Machine.Refines (machine timestamp opts hasOnEnd)
    (Consumption.machine timestamp opts true hasOnEnd) run where
  init := rfl
  step := by
    intro s a s' hr _ hs
    have h := inv_of_reachable hr
    have hs : s.step timestamp a = some s' := hs
    cases a with
    | push frame =>
      cases hs
      exact ⟨[.push frame], rfl⟩
    | next =>
      cases hs
      exact ⟨[.next], rfl⟩
    | end_ | return_ =>
      cases hs
      exact ⟨[.end_], rfl⟩
    | fire handle nowUs =>
      obtain ⟨hh, rfl⟩ := fire_some hs
      obtain ⟨hd, -, -⟩ := h.tracked.report hh nowUs
      refine ⟨[.timer nowUs], ?_⟩
      rw [Machine.exec_singleton]
      simp only [Consumption.machine, Consumption.step, if_pos hd]
    | leave result =>
      obtain rfl := leave_some hs
      exact ⟨[], rfl⟩

/-- Drop reports are complete and coalesced, in every run of a stream with an `onDropped` callback,
which may call the stream and throw: while the stream is live, the counts reported so far and the
pending drops are the drops counted, and a timer is outstanding exactly if drops are pending; there
is never more than one, `dropTimer` holds it, and every reported count is at least one. Once the
stream has ended no timer is outstanding, whatever was pending, and nothing is reported any
more. -/
theorem drop_reports_complete (h : (machine timestamp opts hasOnEnd).Reachable s) :
    s.Complete ∧ (s.run.stream.ended = true → ∀ as s',
      (machine timestamp opts hasOnEnd).exec s as = some s' → s'.reports = s.reports) := by
  have hi := inv_of_reachable h
  refine ⟨complete_of_inv hi, fun he as s' hr ↦ ?_⟩
  have hsilent : s'.Inv ∧ s'.run.stream.ended = true ∧ s'.reports = s.reports := by
    apply Machine.exec_invariant (p := fun t ↦ t.Inv ∧ t.run.stream.ended = true ∧
      t.reports = s.reports) ?_ ⟨hi, he, rfl⟩ hr
    rintro t a t' ⟨hi, he, hr⟩ hs
    obtain ⟨he', hr'⟩ := silent_step hi he hs
    exact ⟨inv_step hi hs, he', hr'.trans hr⟩
  exact hsilent.2.2

-- Two drops are reported at once; the callback has a third frame dropped and then throws.
private def reentrantRun : List (ReportingAct Nat) :=
  [.push 1, .push 2, .push 3, .fire 1 5, .push 4, .leave (.error ⟨.error, "", none⟩)]

/-- The laws on a `latest` stream whose callback drops a frame and throws. -/
theorem drop_reports_complete_reentrant : ∃ s : Reporting Nat,
    (machine (fun n : Nat ↦ .finite n) (DEFAULTS .video) true).Reachable s ∧ s.reports = [2] ∧
    s.loop.outstanding = [2] ∧
    s.reports.sum + s.run.stream.pendingDrops = s.run.stream.dropped := by
  have hr : (machine (fun n : Nat ↦ .finite n) (DEFAULTS .video) true).Reachable _ :=
    ⟨reentrantRun, rfl⟩
  obtain ⟨hc, -⟩ := drop_reports_complete hr
  exact ⟨_, hr, rfl, rfl, hc.sum rfl⟩

end Reporting

end VideoNode.Frames
