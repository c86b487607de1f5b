import VideoNode.Frames.FrameStream
import VideoNode.Lts.Channel

/-!
# Runs of one `FrameStream`

Every sequence of `push`, `next`, `end`, `return` and firings of the report timer on one stream.
The stream refines a lossy first-in first-out channel: a pushed frame is handed to a consumer,
queued or dropped and counted, and ending shuts the channel.
-/

namespace VideoNode.Frames

open VideoNode.Js VideoNode.Lts

namespace Effect

variable {T : Type}

/-- The frame a settled promise carries. -/
@[simp] def frame? : Effect T → Option T
  | .settle _ (.value frame) => some frame
  | .settle _ .done | .onDropped _ _ | .onEnd => none

/-- The `next()` call whose promise is settled. -/
@[simp] def call? : Effect T → Option Nat
  | .settle call _ => some call
  | .onDropped _ _ | .onEnd => none

/-- Whether this is a run of `onEnd`. -/
@[simp] def isOnEnd : Effect T → Bool
  | .onEnd => true
  | .settle _ _ | .onDropped _ _ => false

end Effect

/-- A stream with the frames pushed before it ended, the number of `next()` calls, and what it
has done to the outside so far. -/
structure Consumption (T : Type) where
  stream : FrameStream T
  pushed : List T
  calls : Nat
  log : List (Effect T)
  deriving DecidableEq

/-- What producer, consumer, owner and timer do to a stream. -/
inductive ConsumptionAct (T : Type) where
  | push (frame : T)
  | next
  | end_
  /-- `return()`; `lib/frame_stream.ts:229–232`, ends the stream. -/
  | return_
  | timer (nowUs : Int)
  deriving DecidableEq, Repr

namespace Consumption

variable {T : Type} {timestamp : T → JsNumber} {opts : ResolvedOptions}
  {hasOnDropped hasOnEnd : Bool}

/-- One method call, or one firing of an armed report timer. -/
def step (timestamp : T → JsNumber) (w : Consumption T) :
    ConsumptionAct T → Option (Consumption T)
  | .push frame =>
    let r := w.stream.push timestamp frame
    some { w with
      stream := r.1
      pushed := if w.stream.ended then w.pushed else w.pushed ++ [frame]
      log := w.log ++ r.2 }
  | .next =>
    let r := w.stream.next timestamp w.calls
    some { w with stream := r.1, calls := w.calls + 1, log := w.log ++ r.2 }
  | .end_ | .return_ =>
    let r := w.stream.endStream
    some { w with stream := r.1, log := w.log ++ r.2 }
  | .timer nowUs =>
    if w.stream.dropTimer then
      let r := w.stream.report nowUs
      some { w with stream := r.1, log := w.log ++ r.2 }
    else none

/-- What each step asks for, and what it leaves. -/
inductive Stepped (timestamp : T → JsNumber) (w : Consumption T) :
    ConsumptionAct T → Consumption T → Prop where
  | push {frame : T} {s' : FrameStream T} {out : List (Effect T)}
    (hp : FrameStream.Pushed timestamp frame w.stream s' out) :
    Stepped timestamp w (.push frame)
      { w with
        stream := s'
        pushed := if w.stream.ended then w.pushed else w.pushed ++ [frame]
        log := w.log ++ out }
  | next {s' : FrameStream T} {out : List (Effect T)}
    (hp : FrameStream.Nexted timestamp w.calls w.stream s' out) : Stepped timestamp w .next
      { w with stream := s', calls := w.calls + 1, log := w.log ++ out }
  | end_ : Stepped timestamp w .end_
      { w with stream := w.stream.endStream.1, log := w.log ++ w.stream.endStream.2 }
  | return_ : Stepped timestamp w .return_
      { w with stream := w.stream.endStream.1, log := w.log ++ w.stream.endStream.2 }
  | timer {nowUs : Int} (ht : w.stream.dropTimer = true) : Stepped timestamp w (.timer nowUs)
      { w with
        stream := (w.stream.report nowUs).1
        log := w.log ++ (w.stream.report nowUs).2 }

/-- Inversion of a step. -/
theorem stepped {w w' : Consumption T} {a : ConsumptionAct T}
    (hs : w.step timestamp a = some w') : Stepped timestamp w a w' := by
  cases a with
  | push frame =>
    cases hs
    exact .push (w.stream.pushed timestamp frame)
  | next =>
    cases hs
    exact .next (w.stream.nexted timestamp w.calls)
  | end_ =>
    cases hs
    exact .end_
  | return_ =>
    cases hs
    exact .return_
  | timer nowUs =>
    simp only [step] at hs
    split at hs
    · next ht =>
      cases hs
      exact .timer ht
    · cases hs

/-- A stream constructed with these options, and every method call on it. -/
def machine (timestamp : T → JsNumber) (opts : ResolvedOptions) (hasOnDropped hasOnEnd : Bool) :
    Machine (Consumption T) (ConsumptionAct T) where
  init := ⟨.create opts hasOnDropped hasOnEnd, [], 0, []⟩
  step := step timestamp

/-- Frames handed to the consumer, in the order their promises were settled. -/
def handed (w : Consumption T) : List T := w.log.filterMap Effect.frame?

/-- `next()` calls whose promise was settled, in the order they were. -/
def settled (w : Consumption T) : List Nat := w.log.filterMap Effect.call?

/-- How many times `onEnd` has run. -/
def onEndRuns (w : Consumption T) : Nat := w.log.countP Effect.isOnEnd

/-- The channel a stream implements. -/
def channel (w : Consumption T) : Channel T where
  posted := w.pushed
  delivered := w.handed
  waiting := w.stream.queue
  lost := w.stream.dropped
  isOpen := !w.stream.ended

/-- What every method keeps: the options of the constructor, consumers waiting only on an empty
queue, the bound, promises settled in call order, and an ended stream holding nothing. -/
structure Inv (opts : ResolvedOptions) (hasOnEnd : Bool) (w : Consumption T) : Prop where
  sameOpts : w.stream.opts = opts
  sameOnEnd : w.stream.hasOnEnd = hasOnEnd
  exclusive : w.stream.waiters = [] ∨ w.stream.queue = []
  bound : w.stream.queue.length ≤ opts.maxQueue
  delivered : w.stream.delivered = w.handed.length
  served : w.settled ++ w.stream.waiters = List.range w.calls
  ended : w.stream.ended = true →
    w.stream.queue = [] ∧ w.stream.waiters = [] ∧ w.stream.dropTimer = false
  onEnd : w.onEndRuns = if w.stream.ended && hasOnEnd then 1 else 0

private theorem released_log (waiters : List Nat) (hasOnEnd : Bool) :
    let log : List (Effect T) :=
      waiters.map (.settle · .done) ++ if hasOnEnd then [.onEnd] else []
    log.filterMap Effect.frame? = [] ∧ log.filterMap Effect.call? = waiters ∧
      log.countP Effect.isOnEnd = if hasOnEnd then 1 else 0 := by
  induction waiters with
  | nil => cases hasOnEnd <;> simp
  | cons c cs ih =>
    obtain ⟨hf, hc, hn⟩ := ih
    simp [List.filterMap_cons, hf, hc, hn]

private theorem inv_push {s s' : FrameStream T} {frames : List T} {calls : Nat}
    {log out : List (Effect T)} {frame : T} (h : Inv opts hasOnEnd ⟨s, frames, calls, log⟩)
    (hp : FrameStream.Pushed timestamp frame s s' out) :
    Inv opts hasOnEnd ⟨s', if s.ended then frames else frames ++ [frame], calls, log ++ out⟩ := by
  obtain ⟨hso, hse, hx, hb, hd, hv, hen, hn⟩ := h
  simp only [handed, settled, onEndRuns] at hso hse hx hb hd hv hen hn
  cases hp with
  | ended he =>
    simp only [List.append_nil]
    exact ⟨hso, hse, hx, hb, hd, hv, hen, hn⟩
  | @handed waiter waiters he hw =>
    have hq : s.queue = [] := hx.resolve_left (by simp [hw])
    refine ⟨hso, hse, .inr hq, hb, ?_, ?_, ?_, ?_⟩
    · simp [Consumption.handed, hd]
    · rw [← hv, hw]
      simp [settled]
    · intro hf
      rw [he] at hf
      cases hf
    · simpa [onEndRuns] using hn
  | shedNewest he hw hf =>
    simp only [List.append_nil]
    refine ⟨hso, hse, .inl hw, hb, hd, hv, ?_, hn⟩
    intro hf
    have hf : s.ended = true := hf
    rw [he] at hf
    cases hf
  | queued he hw =>
    simp only [List.append_nil]
    refine ⟨hso, hse, .inl hw, ?_, hd, hv, ?_, hn⟩
    · have hpos := opts.pos
      simp only [List.length_append, List.length_drop, List.length_singleton, hso]
      omega
    · intro hf
      have hf : s.ended = true := hf
      rw [he] at hf
      cases hf

private theorem inv_next {s s' : FrameStream T} {frames : List T} {calls : Nat}
    {log out : List (Effect T)} (h : Inv opts hasOnEnd ⟨s, frames, calls, log⟩)
    (hp : FrameStream.Nexted timestamp calls s s' out) :
    Inv opts hasOnEnd ⟨s', frames, calls + 1, log ++ out⟩ := by
  obtain ⟨hso, hse, hx, hb, hd, hv, hen, hn⟩ := h
  simp only [handed, settled, onEndRuns] at hso hse hx hb hd hv hen hn
  cases hp with
  | @taken frame queue hq =>
    have hw : s.waiters = [] := hx.resolve_right (by simp [hq])
    have hl : queue.length ≤ opts.maxQueue := by
      rw [hq, List.length_cons] at hb
      omega
    refine ⟨hso, hse, .inl hw, hl, ?_, ?_, ?_, ?_⟩
    · simp [handed, hd]
    · rw [hw, List.append_nil] at hv
      simp [settled, hw, hv, List.range_succ]
    · intro he
      rw [hq] at hen
      exact absurd (hen he).1 (by simp)
    · simpa [onEndRuns] using hn
  | ended hq he =>
    have hw : s.waiters = [] := (hen he).2.1
    refine ⟨hso, hse, hx, hb, ?_, ?_, hen, ?_⟩
    · simpa [handed, List.filterMap_cons] using hd
    · rw [hw, List.append_nil] at hv
      simp [settled, hw, hv, List.range_succ]
    · simpa [onEndRuns] using hn
  | parked hq he =>
    simp only [List.append_nil]
    refine ⟨hso, hse, .inr hq, hb, hd, ?_, ?_, hn⟩
    · simp only [settled]
      rw [← List.append_assoc, hv, List.range_succ]
    · intro hf
      have hf : s.ended = true := hf
      rw [he] at hf
      cases hf

private theorem inv_end {w : Consumption T} (h : Inv opts hasOnEnd w) :
    Inv opts hasOnEnd
      { w with stream := w.stream.endStream.1, log := w.log ++ w.stream.endStream.2 } := by
  obtain ⟨s, frames, calls, log⟩ := w
  simp only [FrameStream.endStream]
  split
  · simpa using h
  · next he =>
    obtain ⟨hso, hse, hx, hb, hd, hv, hen, hn⟩ := h
    simp only [handed, settled, onEndRuns] at hso hse hx hb hd hv hen hn
    obtain ⟨hlf, hlc, hln⟩ := released_log (T := T) s.waiters hasOnEnd
    have hn : log.countP Effect.isOnEnd = 0 := by simpa [he] using hn
    refine ⟨hso, hse, .inl rfl, Nat.zero_le _, ?_, ?_, fun _ ↦ ⟨rfl, rfl, rfl⟩, ?_⟩
    · simp only [handed, hse]
      rw [List.filterMap_append, hlf, List.append_nil]
      exact hd
    · simp only [settled, hse]
      rw [List.filterMap_append, hlc, List.append_nil]
      exact hv
    · simp only [onEndRuns, hse]
      rw [List.countP_append, hln, hn, Nat.zero_add, Bool.true_and]

private theorem inv_timer {w : Consumption T} (h : Inv opts hasOnEnd w)
    (ht : w.stream.dropTimer = true) (nowUs : Int) :
    Inv opts hasOnEnd
      { w with
        stream := (w.stream.report nowUs).1
        log := w.log ++ (w.stream.report nowUs).2 } := by
  have he : w.stream.ended ≠ true := by
    intro he
    rw [(h.ended he).2.2] at ht
    cases ht
  refine ⟨h.sameOpts, h.sameOnEnd, h.exclusive, h.bound, ?_, ?_, fun hf ↦ absurd hf he, ?_⟩
  · have hd : w.stream.delivered = (w.log.filterMap Effect.frame?).length := h.delivered
    simp only [handed, FrameStream.report]
    split <;> simpa [List.filterMap_cons] using hd
  · have hv : w.log.filterMap Effect.call? ++ w.stream.waiters = List.range w.calls := h.served
    simp only [settled, FrameStream.report]
    split <;> simpa [List.filterMap_cons] using hv
  · have hn : w.log.countP Effect.isOnEnd = _ := h.onEnd
    simp only [onEndRuns, FrameStream.report]
    split <;> simpa using hn

/-- Every method keeps the invariant. -/
theorem inv_step {w w' : Consumption T} {a : ConsumptionAct T} (h : Inv opts hasOnEnd w)
    (hs : w.step timestamp a = some w') : Inv opts hasOnEnd w' := by
  cases stepped hs with
  | push hp => exact inv_push h hp
  | next hp => exact inv_next h hp
  | end_ | return_ => exact inv_end h
  | timer ht => exact inv_timer h ht _

/-- The invariant holds after every sequence of calls. -/
theorem inv_of_reachable {w : Consumption T}
    (h : (machine timestamp opts hasOnDropped hasOnEnd).Reachable w) : Inv opts hasOnEnd w := by
  apply h.invariant
  · refine ⟨rfl, rfl, .inl rfl, Nat.zero_le _, rfl, rfl, ?_, rfl⟩
    intro he
    cases he
  · exact fun _ _ _ hw hs ↦ inv_step hw hs

private theorem channel_push {s s' : FrameStream T} {frames : List T} {calls : Nat}
    {log out : List (Effect T)} {frame : T} (h : Inv opts hasOnEnd ⟨s, frames, calls, log⟩)
    (hp : FrameStream.Pushed timestamp frame s s' out) :
    ∃ bs, (Channel.machine T true).exec (channel ⟨s, frames, calls, log⟩) bs = some
      (channel ⟨s', if s.ended then frames else frames ++ [frame], calls, log ++ out⟩) := by
  have hx : s.waiters = [] ∨ s.queue = [] := h.exclusive
  cases hp with
  | ended he =>
    have he : s.ended = true := he
    refine ⟨[], ?_⟩
    simp [channel, handed, he]
  | @handed waiter waiters he hw =>
    -- A waiting consumer takes the frame at once, ahead of nothing.
    have hq : s.queue = [] := hx.resolve_left (by simp [hw])
    refine ⟨[.post frame, .deliver], ?_⟩
    simp [Machine.exec_cons, Channel.machine, Channel.step, channel, handed, he, hq]
  | shedNewest he hw hf =>
    have hl : (s.queue ++ [frame]).eraseIdx s.queue.length = s.queue := by
      rw [List.eraseIdx_append_of_length_le (Nat.le_refl _), Nat.sub_self,
        List.eraseIdx_cons_zero, List.append_nil]
    refine ⟨[.post frame, .lose s.queue.length], ?_⟩
    simp [Machine.exec_cons, Channel.machine, Channel.step, channel, handed,
      FrameStream.countDrop, he, hl]
  | queued he hw =>
    let k := s.queue.length + 1 - s.opts.maxQueue
    have hk : k ≤ s.queue.length := by
      have hpos := s.opts.pos
      simp only [k]
      omega
    have hshed := Channel.exec_lose (channel ⟨s, frames, calls, log⟩) [] s.queue k rfl hk
    refine ⟨List.replicate k (.lose ([] : List T).length) ++ [.post frame], ?_⟩
    rw [Machine.exec_append, hshed, Option.bind_some, Machine.exec_singleton]
    simp [Channel.machine, Channel.step, channel, handed, he, k]

private theorem channel_next {s s' : FrameStream T} {frames : List T} {calls : Nat}
    {log out : List (Effect T)} (hp : FrameStream.Nexted timestamp calls s s' out) :
    ∃ bs, (Channel.machine T true).exec (channel ⟨s, frames, calls, log⟩) bs = some
      (channel ⟨s', frames, calls + 1, log ++ out⟩) := by
  cases hp with
  | taken hq =>
    refine ⟨[.deliver], ?_⟩
    simp [Machine.exec_cons, Channel.machine, Channel.step, channel, handed, hq]
  | ended hq he =>
    refine ⟨[], ?_⟩
    simp [channel, handed, List.filterMap_cons]
  | parked hq he =>
    refine ⟨[], ?_⟩
    simp [channel, handed]

private theorem channel_end (w : Consumption T) :
    ∃ bs, (Channel.machine T true).exec w.channel bs = some (channel
      { w with stream := w.stream.endStream.1, log := w.log ++ w.stream.endStream.2 }) := by
  simp only [FrameStream.endStream]
  split
  · refine ⟨[], ?_⟩
    simp [channel, handed]
  · next he =>
    have hl := (released_log (T := T) w.stream.waiters w.stream.hasOnEnd).1
    refine ⟨[.shut], ?_⟩
    rw [Machine.exec_singleton]
    simp only [Channel.machine, Channel.step, channel, handed]
    rw [List.filterMap_append, hl, List.append_nil]
    rfl

/-- A stream refines a lossy channel: a frame is handed over in push order or counted. -/
theorem refines_channel :
    Machine.Refines (machine timestamp opts hasOnDropped hasOnEnd) (Channel.machine T true)
      channel where
  init := rfl
  step := by
    intro w a w' hw _ hs
    have hs : w.step timestamp a = some w' := hs
    cases stepped hs with
    | push hp => exact channel_push (inv_of_reachable hw) hp
    | next hp => exact channel_next hp
    | end_ | return_ => exact channel_end w
    | timer =>
      refine ⟨[], ?_⟩
      simp only [channel, handed, FrameStream.report]
      split <;> simp [List.filterMap_cons]

/-- The channel laws, read on the stream. -/
theorem lawful {w : Consumption T}
    (h : (machine timestamp opts hasOnDropped hasOnEnd).Reachable w) : w.channel.Lawful true :=
  Channel.lawful_of_reachable (refines_channel.reachable h)

/-- What was handed over stays handed over. -/
theorem handed_grows {w w' : Consumption T} {a : ConsumptionAct T}
    (hs : w.step timestamp a = some w') : w.handed <+: w'.handed := by
  have hl : w.log <+: w'.log := by
    cases stepped hs with
    | push | next | end_ | return_ | timer => exact List.prefix_append _ _
  exact hl.filterMap _

/-- Ending a stream hands nothing over. -/
theorem handed_end {w w' : Consumption T} (hs : w.step timestamp .end_ = some w') :
    w'.handed = w.handed := by
  cases hs
  simp only [handed, FrameStream.endStream]
  split
  · simp
  · rw [List.filterMap_append, (released_log _ _).1, List.append_nil]

/-- A report hands nothing over. -/
theorem handed_timer {w w' : Consumption T} {nowUs : Int}
    (hs : w.step timestamp (.timer nowUs) = some w') : w'.handed = w.handed := by
  cases stepped hs with
  | timer ht =>
    have hr : (w.stream.report nowUs).2.filterMap Effect.frame? = [] := by
      cases hd : w.stream.hasOnDropped <;> simp [FrameStream.report, hd]
    rw [handed, List.filterMap_append, hr, List.append_nil]
    rfl

/-- Only `end()` and `return()` end a stream. -/
theorem ended_eq_of_ne {w w' : Consumption T} {a : ConsumptionAct T} (he : a ≠ .end_)
    (hr : a ≠ .return_) (hs : w.step timestamp a = some w') :
    w'.stream.ended = w.stream.ended := by
  cases stepped hs with
  | push hp => cases hp <;> rfl
  | next hp => cases hp <;> rfl
  | end_ => exact absurd rfl he
  | return_ => exact absurd rfl hr
  | timer => rfl

private theorem ended_step {w w' : Consumption T} {a : ConsumptionAct T}
    (hi : Inv opts hasOnEnd w) (he : w.stream.ended = true)
    (hs : w.step timestamp a = some w') :
    w'.stream = w.stream ∧ w'.pushed = w.pushed ∧ w.calls ≤ w'.calls ∧
      w'.log = w.log ++ (List.range' w.calls (w'.calls - w.calls)).map (.settle · .done) := by
  obtain ⟨hq, -, ht⟩ := hi.ended he
  cases a with
  | push frame =>
    cases hs
    simp [FrameStream.push, he]
  | next =>
    cases hs
    simp [FrameStream.next, hq, he]
  | end_ | return_ =>
    cases hs
    simp [FrameStream.endStream, he]
  | timer nowUs => simp [step, ht] at hs

/-- Whatever is called on an ended stream, it stays as it is and every `next()` is `done`. -/
theorem exec_of_ended {w w' : Consumption T} {as : List (ConsumptionAct T)}
    (h : (machine timestamp opts hasOnDropped hasOnEnd).Reachable w)
    (he : w.stream.ended = true)
    (hr : (machine timestamp opts hasOnDropped hasOnEnd).exec w as = some w') :
    w'.stream = w.stream ∧ w'.pushed = w.pushed ∧ w.calls ≤ w'.calls ∧
      w'.log = w.log ++ (List.range' w.calls (w'.calls - w.calls)).map (.settle · .done) := by
  induction as generalizing w with
  | nil =>
    cases hr
    simp
  | cons a as ih =>
    obtain ⟨v, hv, hr⟩ := Machine.exec_cons_some.mp hr
    obtain ⟨hs, hp, hc, hl⟩ := ended_step (inv_of_reachable h) he hv
    obtain ⟨hs', hp', hc', hl'⟩ := ih (h.step hv) (by rw [hs]; exact he) hr
    refine ⟨hs'.trans hs, hp'.trans hp, hc.trans hc', ?_⟩
    have hn : w'.calls - w.calls = (v.calls - w.calls) + (w'.calls - v.calls) := by omega
    have hm : w.calls + 1 * (v.calls - w.calls) = v.calls := by omega
    rw [hl', hl, hn, ← List.range'_append, hm, List.map_append, List.append_assoc]

/-- The laws of one stream after every sequence of calls on it. Consumers wait only on an empty
queue, and the queue is within its bound. The frames handed over and then the queued ones are
pushed frames in push order, and promises are settled in call order, each once. Every pushed
frame is delivered, dropped or queued. `end()` settles each waiting promise as done and runs
`onEnd`; an ended stream holds nothing, has run `onEnd` once, and no call changes it any more. -/
theorem conservation (w : Consumption T)
    (h : (machine timestamp opts hasOnDropped hasOnEnd).Reachable w) :
    (w.stream.waiters = [] ∨ w.stream.queue = []) ∧
    w.stream.queue.length ≤ opts.maxQueue ∧
    (w.handed ++ w.stream.queue).Sublist w.pushed ∧
    (w.pushed.Nodup → w.handed.Nodup) ∧
    w.settled ++ w.stream.waiters = List.range w.calls ∧
    w.stream.delivered = w.handed.length ∧
    w.pushed.length = w.stream.delivered + w.stream.dropped + w.stream.queue.length ∧
    w.onEndRuns = (if w.stream.ended && hasOnEnd then 1 else 0) ∧
    (w.stream.ended = false → ∀ a, a = .end_ ∨ a = .return_ →
      ∃ w', w.step timestamp a = some w' ∧ w'.stream.ended = true ∧
        w'.log = w.log ++ (w.stream.waiters.map (.settle · .done) ++
          if hasOnEnd then [.onEnd] else [])) ∧
    (w.stream.ended = true →
      w.stream.queue = [] ∧ w.stream.waiters = [] ∧
      w.pushed.length = w.stream.delivered + w.stream.dropped ∧
      ∀ as w', (machine timestamp opts hasOnDropped hasOnEnd).exec w as = some w' →
        w'.stream = w.stream ∧ w'.pushed = w.pushed ∧ w'.log = w.log ++
          (List.range' w.calls (w'.calls - w.calls)).map (.settle · .done)) := by
  have hi := inv_of_reachable h
  have hl := lawful h
  have hcount : w.pushed.length =
      w.stream.delivered + w.stream.dropped + w.stream.queue.length := by
    have hc : w.pushed.length =
        w.handed.length + w.stream.queue.length + w.stream.dropped := hl.count
    rw [hi.delivered]
    omega
  have hsub : w.handed.Sublist w.pushed := (List.sublist_append_left _ _).trans hl.order
  refine ⟨hi.exclusive, hi.bound, hl.order, fun hn ↦ hn.sublist hsub, hi.served, hi.delivered,
    hcount, hi.onEnd, ?_, ?_⟩
  · rintro he a (rfl | rfl)
    all_goals
      refine ⟨_, rfl, ?_, ?_⟩
      · simp [FrameStream.endStream, he]
      · simp [FrameStream.endStream, he, hi.sameOnEnd]
  · intro he
    obtain ⟨hq, hw, -⟩ := hi.ended he
    refine ⟨hq, hw, ?_, ?_⟩
    · rw [hcount, hq, List.length_nil, Nat.add_zero]
    · intro as w' hr
      obtain ⟨hs, hp, -, hl⟩ := exec_of_ended h he hr
      exact ⟨hs, hp, hl⟩

-- Two frames on a queue of one, a consumer that waits behind them, and the end.
private def latestRun : List (ConsumptionAct Nat) :=
  [.push 1, .push 2, .next, .next, .return_, .push 3, .end_]

private def stamp (n : Nat) : JsNumber := .finite n

/-- The laws on a `latest` stream that dropped a frame and was ended under a consumer. -/
theorem conservation_latest : ∃ w : Consumption Nat,
    (machine stamp (DEFAULTS .video) true true).Reachable w ∧ w.handed = [2] ∧
    w.settled ++ w.stream.waiters = [0, 1] ∧
    w.pushed.length = w.stream.delivered + w.stream.dropped := by
  have hr : (machine stamp (DEFAULTS .video) true true).Reachable _ := ⟨latestRun, rfl⟩
  obtain ⟨-, -, -, -, hs, -, -, -, -, he⟩ := conservation _ hr
  exact ⟨_, hr, rfl, hs, (he rfl).2.2.1⟩

end Consumption

end VideoNode.Frames
