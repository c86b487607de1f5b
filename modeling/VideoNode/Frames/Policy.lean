import VideoNode.Frames.Consumption
import VideoNode.Lts.Window

/-!
# The two drop policies

What `drop` of `FrameDeliveryOptions` means over a whole run of a `FrameStream`: `'oldest'` makes
the stream a sliding window on the frames pushed, and `'newest'` never takes back a frame that was
queued.
-/

namespace VideoNode.Frames

open VideoNode.Js VideoNode.Lts

namespace FrameStream

variable {T : Type} {timestamp : T → JsNumber}

/-- A push without a waiting consumer under `'oldest'`. -/
theorem push_oldest (timestamp : T → JsNumber) {s : FrameStream T} (frame : T)
    (hd : s.opts.drop = .oldest) (he : s.ended = false) (hw : s.waiters = []) :
    (s.push timestamp frame).1.queue =
        s.queue.drop (s.queue.length + 1 - s.opts.maxQueue) ++ [frame] ∧
      (s.push timestamp frame).1.ended = false ∧ (s.push timestamp frame).2 = [] := by
  simp only [push, he, Bool.false_eq_true, if_false, hw, hd]
  split
  · next hf => simp [makeRoom_eq, he]
  · next hf =>
    have hk : s.queue.length + 1 - s.opts.maxQueue = 0 := by omega
    simp [hk]

/-- A push without a waiting consumer under `'newest'`. -/
theorem push_newest (timestamp : T → JsNumber) {s : FrameStream T} (frame : T)
    (hd : s.opts.drop = .newest) (he : s.ended = false) (hw : s.waiters = []) :
    s.queue <+: (s.push timestamp frame).1.queue ∧ (s.push timestamp frame).2 = [] := by
  simp only [push, he, Bool.false_eq_true, if_false, hw, hd]
  split
  · exact ⟨List.prefix_rfl, rfl⟩
  · exact ⟨List.prefix_append _ _, rfl⟩

/-- A push with a waiting consumer, under either policy. -/
theorem push_waiting (timestamp : T → JsNumber) {s : FrameStream T} (frame : T)
    {waiter : Nat} {waiters : List Nat} (he : s.ended = false)
    (hw : s.waiters = waiter :: waiters) :
    (s.push timestamp frame).1.queue = s.queue ∧ (s.push timestamp frame).1.ended = false ∧
      (s.push timestamp frame).2 = [.settle waiter (.value frame)] := by
  simp [push, he, hw]

/-- A push on an ended stream does nothing. -/
theorem push_ended {s : FrameStream T} (frame : T) (he : s.ended = true) :
    s.push timestamp frame = (s, []) := by
  simp [push, he]

end FrameStream

namespace Consumption

variable {T : Type} {timestamp : T → JsNumber} {opts : ResolvedOptions}
  {hasOnDropped hasOnEnd : Bool}

/-- The window a stream keeps under `'oldest'`. -/
def window (w : Consumption T) : Window T where
  seen := w.pushed
  pos := w.pushed.length - w.stream.queue.length
  taken := w.handed
  isOpen := !w.stream.ended

private theorem queue_of_waiting {w : Consumption T} (hi : Inv opts hasOnEnd w) {r : Nat}
    {waiters : List Nat} (hw : w.stream.waiters = r :: waiters) : w.stream.queue = [] := by
  rcases hi.exclusive with hx | hx
  · rw [hw] at hx
    cases hx
  · exact hx

private theorem queue_suffix_push {w : Consumption T} (hi : Inv opts hasOnEnd w)
    (hd : opts.drop = .oldest) (h : w.stream.queue <:+ w.pushed) (frame : T) :
    (w.stream.push timestamp frame).1.queue <:+
      if w.stream.ended then w.pushed else w.pushed ++ [frame] := by
  cases he : w.stream.ended with
  | true =>
    rw [FrameStream.push_ended frame he]
    exact h
  | false =>
    simp only [Bool.false_eq_true, if_false]
    cases hw : w.stream.waiters with
    | nil =>
      rw [(FrameStream.push_oldest _ frame (by rw [hi.sameOpts]; exact hd) he hw).1]
      obtain ⟨l, hl⟩ := (List.drop_suffix (w.stream.queue.length + 1 - w.stream.opts.maxQueue)
        w.stream.queue).trans h
      exact ⟨l, by rw [← hl, List.append_assoc]⟩
    | cons waiter waiters =>
      have hq := queue_of_waiting hi hw
      rw [(FrameStream.push_waiting _ frame he hw).1, hq]
      exact List.nil_suffix

/-- Under `'oldest'` the queue is always the end of what was pushed. -/
theorem queue_suffix (hd : opts.drop = .oldest) {w : Consumption T}
    (h : (machine timestamp opts hasOnDropped hasOnEnd).Reachable w) :
    w.stream.queue <:+ w.pushed := by
  refine h.invariant_of_reachable (p := fun w : Consumption T ↦ w.stream.queue <:+ w.pushed)
    List.nil_suffix ?_
  intro v a v' hv hq hs
  have hi := inv_of_reachable hv
  have hs : v.step timestamp a = some v' := hs
  cases a with
  | push frame =>
    cases hs
    exact queue_suffix_push hi hd hq frame
  | next =>
    cases stepped hs with
    | next hn =>
      cases hn with
      | taken ht =>
        rw [ht] at hq
        exact (List.suffix_cons _ _).trans hq
      | ended | parked => exact hq
  | end_ | return_ =>
    cases hs
    unfold FrameStream.endStream
    split
    · exact hq
    · exact List.nil_suffix
  | timer nowUs =>
    cases stepped hs with
    | timer ht => exact hq

private theorem window_contents (hd : opts.drop = .oldest) {w : Consumption T}
    (h : (machine timestamp opts hasOnDropped hasOnEnd).Reachable w) :
    w.window.contents = w.stream.queue :=
  (List.suffix_iff_eq_drop.mp (queue_suffix hd h)).symm

private theorem window_push (hd : opts.drop = .oldest) {w : Consumption T}
    (h : (machine timestamp opts hasOnDropped hasOnEnd).Reachable w) (he : w.stream.ended = false)
    (frame : T) {w' : Consumption T} (hs : w.step timestamp (.push frame) = some w') :
    ∃ bs, (Window.machine T opts.maxQueue).exec w.window bs = some w'.window := by
  have hi := inv_of_reachable h
  have hp := opts.pos
  cases hs
  cases hw : w.stream.waiters with
  | nil =>
    obtain ⟨hq, hn, ho⟩ := FrameStream.push_oldest timestamp frame
      (by rw [hi.sameOpts]; exact hd) he hw
    have hb := hi.bound
    have hl := (queue_suffix hd h).length_le
    refine ⟨[.see frame], ?_⟩
    rw [Machine.exec_singleton]
    simp only [Window.machine, Window.step, window, he, Bool.not_false, if_true, hq, hn, ho,
      handed, List.append_nil, Bool.false_eq_true, if_false, List.length_append,
      List.length_drop, List.length_singleton, Option.some.injEq, Window.mk.injEq, true_and,
      and_true, hi.sameOpts]
    omega
  | cons waiter waiters =>
    have hq := queue_of_waiting hi hw
    obtain ⟨hq', hn, ho⟩ := FrameStream.push_waiting timestamp frame he hw
    refine ⟨[.see frame, .take], Machine.exec_cons_some.mpr
      ⟨⟨w.pushed ++ [frame], w.pushed.length, w.handed, true⟩, ?_, ?_⟩⟩
    · have hm : max w.pushed.length (w.pushed.length + 1 - opts.maxQueue) = w.pushed.length := by
        omega
      simp [Window.machine, Window.step, window, he, hq, hm]
    · rw [Machine.exec_singleton]
      simp [Window.machine, Window.step, Window.contents, window, he, hq, hq', hn, ho, handed]

/-- Under `'oldest'` a stream refines a sliding window of `maxQueue` frames. -/
theorem refines_window (hd : opts.drop = .oldest) :
    Machine.Refines (machine timestamp opts hasOnDropped hasOnEnd)
      (Window.machine T opts.maxQueue) window where
  init := rfl
  step := by
    intro w a w' h _ hs
    have hi := inv_of_reachable h
    have hc := window_contents hd h
    have hs : w.step timestamp a = some w' := hs
    cases a with
    | push frame =>
      cases he : w.stream.ended with
      | false => exact window_push hd h he frame hs
      | true =>
        cases hs
        refine ⟨[], ?_⟩
        rw [FrameStream.push_ended frame he]
        simp [he]
    | next =>
      cases stepped hs with
      | next hn =>
        cases hn with
        | @taken frame queue ht =>
          have hl := (queue_suffix hd h).length_le
          rw [ht] at hc hl
          refine ⟨[.take], ?_⟩
          rw [Machine.exec_singleton]
          simp only [Window.machine, Window.step, hc]
          simp only [List.length_cons] at hl
          simp [window, ht, handed]
          omega
        | ended | parked => exact ⟨[], by simp [window, handed]⟩
    | end_ | return_ =>
      cases hs
      cases he : w.stream.ended with
      | true =>
        refine ⟨[], ?_⟩
        simp [FrameStream.endStream, he]
      | false =>
        refine ⟨[.shut], ?_⟩
        rw [Machine.exec_singleton]
        have hs : w.step timestamp .end_ =
          some ⟨w.stream.endStream.1, w.pushed, w.calls, w.log ++ w.stream.endStream.2⟩ := rfl
        have hh := handed_end hs
        simp only [Window.machine, Window.step, window, hh]
        simp [FrameStream.endStream, he]
    | timer nowUs =>
      have hh := handed_timer hs
      cases stepped hs with
      | timer ht =>
        refine ⟨[], ?_⟩
        simp only [Machine.exec_nil, window, hh]
        rfl

private theorem prefix_step (hd : opts.drop = .newest) {w w' : Consumption T}
    {a : ConsumptionAct T} (h : (machine timestamp opts hasOnDropped hasOnEnd).Reachable w)
    (hs : w.step timestamp a = some w') (he : w'.stream.ended = false) :
    w.handed ++ w.stream.queue <+: w'.handed ++ w'.stream.queue := by
  have hi := inv_of_reachable h
  cases a with
  | push frame =>
    cases hs
    cases hen : w.stream.ended with
    | true =>
      rw [FrameStream.push_ended frame hen]
      simp [handed]
    | false =>
      cases hw : w.stream.waiters with
      | nil =>
        obtain ⟨hq, ho⟩ := FrameStream.push_newest timestamp frame
          (by rw [hi.sameOpts]; exact hd) hen hw
        have hp := (List.prefix_append_right_inj w.handed).mpr hq
        simpa [handed, ho] using hp
      | cons waiter waiters =>
        have hq := queue_of_waiting hi hw
        obtain ⟨hq', -, ho⟩ := FrameStream.push_waiting timestamp frame hen hw
        simp [handed, ho, hq, hq']
  | next =>
    cases stepped hs with
    | next hn =>
      cases hn with
      | taken ht => simp [handed, ht]
      | ended hq hen | parked hq hen => simp [handed, hq]
  | end_ | return_ =>
    cases hs
    cases hen : w.stream.ended with
    | true => simp [FrameStream.endStream, hen, handed]
    | false => simp [FrameStream.endStream, hen] at he
  | timer nowUs =>
    rw [handed_timer hs]
    cases stepped hs with
    | timer ht => exact List.prefix_rfl

/-- What the drop policy means in every run. Under `'oldest'`, while the stream goes on, the last
`maxQueue` frames pushed were handed over or are queued, nothing but the end of what was pushed is
queued, and so the frame `next()` takes is one of these. Under `'newest'` what was handed over and
what is queued is only ever added to at the back: no frame is displaced once it is queued. -/
theorem policy_kept (w : Consumption T)
    (h : (machine timestamp opts hasOnDropped hasOnEnd).Reachable w) :
    (opts.drop = .oldest → w.stream.ended = false →
      w.pushed.rtake opts.maxQueue <:+ w.handed ++ w.stream.queue ∧
      w.stream.queue <:+ w.pushed.rtake opts.maxQueue) ∧
    (opts.drop = .newest → ∀ (as : List (ConsumptionAct T)) (w' : Consumption T),
      (machine timestamp opts hasOnDropped hasOnEnd).exec w as = some w' →
      w'.stream.ended = false → w.handed ++ w.stream.queue <+: w'.handed ++ w'.stream.queue) := by
  constructor
  · intro hd he
    have hs := Window.sliding_of_reachable opts.pos ((refines_window hd).reachable h)
    have ho : w.window.isOpen = true := by simp [window, he]
    have hf := hs.fresh ho
    rw [window_contents hd h] at hf
    refine ⟨hf, ?_⟩
    have hq := queue_suffix hd h
    have hb := (inv_of_reachable h).bound
    rw [List.suffix_iff_eq_drop.mp hq, List.rtake]
    have hl := hq.length_le
    have hk : w.pushed.length - w.stream.queue.length = w.pushed.length - opts.maxQueue +
        (w.pushed.length - w.stream.queue.length - (w.pushed.length - opts.maxQueue)) := by omega
    rw [hk, ← List.drop_drop]
    exact List.drop_suffix _ _
  · intro hd as
    induction as generalizing w with
    | nil =>
      intro w' hr _
      cases hr
      exact List.prefix_rfl
    | cons a as ih =>
      intro w' hr he
      obtain ⟨u, ha, hu⟩ := Machine.exec_cons_some.mp hr
      have hru := h.step ha
      have heu : u.stream.ended = false := by
        cases hen : u.stream.ended with
        | false => rfl
        | true =>
          obtain ⟨hst, -⟩ := exec_of_ended hru hen hu
          rw [hst, hen] at he
          cases he
      exact (prefix_step hd h ha heu).trans (ih u hru w' hu he)

private def stampNat (n : Nat) : JsNumber := .finite n

private def twoNewest : ResolvedOptions := ⟨.queue, 2, .oldest, by decide, by decide⟩

/-- Three frames pushed before the consumer asks: the first one is shed and it is given the
second. -/
theorem policy_kept_oldest : ∃ w : Consumption Nat,
    (machine stampNat twoNewest true true).Reachable w ∧ w.handed = [2] ∧ w.stream.queue = [3] ∧
    w.pushed.rtake 2 <:+ w.handed ++ w.stream.queue := by
  have hr : (machine stampNat twoNewest true true).Reachable _ :=
    ⟨[.push 1, .push 2, .push 3, .next], rfl⟩
  exact ⟨_, hr, rfl, rfl, ((policy_kept _ hr).1 rfl rfl).1⟩

end Consumption

end VideoNode.Frames
