import VideoNode.Common.AsyncContext

/-!
# Delivery through one `AsyncContext`

Every interleaving of `dispatch()` from any thread with the JS thread's drains, callbacks
that return or throw, `close()` and destruction. The context refines a first-in first-out
channel, lossless when its depth is unlimited, and the wake-up obligation is carried beside
that refinement.
-/

namespace VideoNode.Common

open VideoNode.Lts

/-- A context with what was accepted while it was open and what was started so far. -/
structure Traffic (F : Type) where
  loop : Loop F
  accepted : List F
  started : List F
  deriving DecidableEq, Repr

/-- What threads do to a context. -/
inductive TrafficAct (F : Type) where
  /-- `dispatch()` from any thread, the JS thread inside a callback included. -/
  | dispatch (fn : F)
  | turn (t : Turn)
  | close
  | destroy
  deriving DecidableEq, Repr

namespace Traffic

variable {F : Type}

/-- One step of one thread. Members of a destroyed context are not used any more, and
`close()` and destruction happen where the JS thread runs code of its own. -/
def step (w : Traffic F) : TrafficAct F → Option (Traffic F)
  | .dispatch fn =>
    if w.loop.ctx.alive then
      some { w with
        loop := { w.loop with ctx := w.loop.ctx.dispatch fn }
        accepted := if w.loop.ctx.closed then w.accepted else w.accepted ++ [fn] }
    else none
  | .turn t =>
    (w.loop.turn t).map fun l ↦
      { w with loop := l, started := w.started ++ (w.loop.started t).toList }
  | .close =>
    if w.loop.ctx.alive ∧ w.loop.drain.yields then
      some { w with loop := { w.loop with ctx := w.loop.ctx.close } }
    else none
  | .destroy =>
    if w.loop.ctx.alive ∧ w.loop.drain.yields then
      some { w with loop := { w.loop with ctx := w.loop.ctx.destroy } }
    else none

/-- `ctx->dispatch(fn)`, which does nothing on a context that was destroyed. -/
def dispatch (w : Traffic F) (fn : F) : Traffic F := (w.step (.dispatch fn)).getD w

/-- What each step asks for, and what it leaves. -/
inductive Stepped (w : Traffic F) : TrafficAct F → Traffic F → Prop where
  | dispatch {fn : F} (ha : w.loop.ctx.alive = true) : Stepped w (.dispatch fn)
    { w with
      loop := { w.loop with ctx := w.loop.ctx.dispatch fn }
      accepted := if w.loop.ctx.closed then w.accepted else w.accepted ++ [fn] }
  | turn {t : Turn} {l : Loop F} (hl : w.loop.turn t = some l) : Stepped w (.turn t)
    { w with loop := l, started := w.started ++ (w.loop.started t).toList }
  | close (hy : w.loop.ctx.alive = true ∧ w.loop.drain.yields = true) : Stepped w .close
    { w with loop := { w.loop with ctx := w.loop.ctx.close } }
  | destroy (hy : w.loop.ctx.alive = true ∧ w.loop.drain.yields = true) : Stepped w .destroy
    { w with loop := { w.loop with ctx := w.loop.ctx.destroy } }

/-- Inversion of a step. -/
theorem stepped {w w' : Traffic F} {a : TrafficAct F} (hs : w.step a = some w') :
    Stepped w a w' := by
  cases a with
  | dispatch fn =>
    simp only [step] at hs
    split at hs
    · next ha =>
      cases hs
      exact .dispatch ha
    · cases hs
  | turn t =>
    obtain ⟨l, hl, rfl⟩ := Option.map_eq_some_iff.mp hs
    exact .turn hl
  | close =>
    simp only [step] at hs
    split at hs
    · next hy =>
      cases hs
      exact .close hy
    · cases hs
  | destroy =>
    simp only [step] at hs
    split at hs
    · next hy =>
      cases hs
      exact .destroy hy
    · cases hs

/-- A context constructed with the given depth, and everything that can happen to it. -/
def machine (F : Type) (maxQueueDepth : Nat) : Machine (Traffic F) (TrafficAct F) where
  init := ⟨.create maxQueueDepth, [], []⟩
  step := step

/-- The members agree, the depth is the constructor's, and a wake-up is due when needed. -/
structure Inv (maxQueueDepth : Nat) (w : Traffic F) : Prop where
  wf : w.loop.ctx.WF
  depth : w.loop.ctx.maxQueueDepth = maxQueueDepth
  due : w.loop.WakeupDue

private theorem inv_dispatch {n : Nat} {w : Traffic F} (h : Inv n w) (fn : F)
    (accepted : List F) : Inv n
      { w with loop := { w.loop with ctx := w.loop.ctx.dispatch fn }, accepted := accepted } := by
  refine ⟨AsyncContext.wf_dispatch h.wf, ?_, ?_⟩
  · cases hc : w.loop.ctx.closed with
    | true =>
      rw [AsyncContext.dispatch_of_closed hc]
      exact h.depth
    | false =>
      rw [AsyncContext.dispatch_of_open hc]
      exact h.depth
  · cases hc : w.loop.ctx.closed with
    | true =>
      rw [AsyncContext.dispatch_of_closed hc]
      exact h.due
    | false =>
      obtain ⟨a, ha⟩ := h.wf.handle hc
      rw [AsyncContext.dispatch_of_open hc]
      exact .inr (.inr ⟨a.send, by simp [ha], rfl⟩)

private theorem inv_close {n : Nat} {w : Traffic F} (h : Inv n w) :
    Inv n { w with loop := { w.loop with ctx := w.loop.ctx.close } } := by
  have hw := AsyncContext.wf_close h.wf
  exact ⟨hw, (AsyncContext.close_frame _).1.trans h.depth,
    .inl (hw.queue (AsyncContext.closed_close _))⟩

private theorem inv_destroy {n : Nat} {w : Traffic F} (h : Inv n w) :
    Inv n { w with loop := { w.loop with ctx := w.loop.ctx.destroy } } := by
  have hc := inv_close h
  refine ⟨AsyncContext.wf_destroy h.wf, ?_, ?_⟩
  · rw [← hc.depth, AsyncContext.destroy_eq]
  · rw [AsyncContext.destroy_eq]
    exact hc.due

/-- Every step keeps the invariant. -/
theorem inv_step {n : Nat} {w w' : Traffic F} {a : TrafficAct F} (h : Inv n w)
    (hs : w.step a = some w') : Inv n w' := by
  cases stepped hs with
  | dispatch => exact inv_dispatch h _ _
  | turn hl =>
    exact ⟨Loop.wf_turn hl h.wf, (Loop.turn_frame hl).2.2.2.trans h.depth,
      Loop.wakeupDue_turn hl h.wf h.due⟩
  | close => exact inv_close h
  | destroy => exact inv_destroy h

/-- The invariant holds in every interleaving. -/
theorem inv_of_reachable {n : Nat} {w : Traffic F} (h : (machine F n).Reachable w) : Inv n w :=
  h.invariant ⟨AsyncContext.wf_create n, rfl, .inl rfl⟩ fun _ _ _ hw hs ↦ inv_step hw hs

/-- An open context is alive and takes every callback. -/
theorem step_dispatch_of_open {n : Nat} {w : Traffic F} (fn : F) (h : Inv n w)
    (ho : w.loop.ctx.closed = false) : ∃ w', w.step (.dispatch fn) = some w' ∧
      w'.accepted = w.accepted ++ [fn] ∧ w'.started = w.started ∧
      w'.loop.ctx.closed = false ∧ w'.loop.drain = w.loop.drain := by
  have ha : w.loop.ctx.alive = true := by
    cases hf : w.loop.ctx.alive with
    | true => rfl
    | false =>
      have hc := h.wf.alive hf
      rw [ho] at hc
      cases hc
  refine ⟨_, if_pos ha, ?_, rfl, ?_, rfl⟩
  · simp [ho]
  · exact (AsyncContext.dispatch_frame _ _).1.trans ho

/-- Dispatching on an open context appends to what it accepted. -/
theorem dispatch_of_open {n : Nat} {w : Traffic F} (fn : F) (h : (machine F n).Reachable w)
    (ho : w.loop.ctx.closed = false) : (machine F n).Reachable (w.dispatch fn) ∧
      (w.dispatch fn).accepted = w.accepted ++ [fn] ∧ (w.dispatch fn).started = w.started ∧
      (w.dispatch fn).loop.ctx.closed = false := by
  obtain ⟨c, hc, ha, hst, hcl, -⟩ := step_dispatch_of_open fn (inv_of_reachable h) ho
  have he : w.dispatch fn = c := by rw [dispatch, hc, Option.getD_some]
  rw [he]
  exact ⟨h.step (a := .dispatch fn) hc, ha, hst, hcl⟩

/-- Replaying a buffer on an open context appends it in order. -/
theorem replay_of_open {n : Nat} {w : Traffic F} (fns : List F) (h : (machine F n).Reachable w)
    (ho : w.loop.ctx.closed = false) : (machine F n).Reachable (fns.foldl dispatch w) ∧
      (fns.foldl dispatch w).accepted = w.accepted ++ fns ∧
      (fns.foldl dispatch w).started = w.started ∧
      (fns.foldl dispatch w).loop.ctx.closed = false := by
  induction fns generalizing w with
  | nil => exact ⟨h, (List.append_nil _).symm, rfl, ho⟩
  | cons fn fns ih =>
    obtain ⟨hr, ha, hst, hcl⟩ := dispatch_of_open fn h ho
    obtain ⟨hr', ha', hst', hcl'⟩ := ih hr hcl
    refine ⟨hr', ?_, hst'.trans hst, hcl'⟩
    rw [List.foldl_cons, ha', ha, List.append_assoc, List.singleton_append]

/-- What a step through `drain()` does to the record of a context. -/
theorem step_turn {w w' : Traffic F} {t : Turn} (hs : w.step (.turn t) = some w') :
    w'.accepted = w.accepted ∧ w'.started = w.started ++ (w.loop.started t).toList ∧
      w'.loop.ctx.closed = w.loop.ctx.closed ∧ w'.loop.ctx.alive = w.loop.ctx.alive := by
  obtain ⟨l, hl, rfl⟩ := Option.map_eq_some_iff.mp hs
  obtain ⟨hc, ha, -, -⟩ := Loop.turn_frame hl
  exact ⟨rfl, rfl, hc, ha⟩

/-- Destruction closes and leaves the record as it is. -/
theorem step_destroy {w w' : Traffic F} (hs : w.step .destroy = some w') :
    w'.accepted = w.accepted ∧ w'.started = w.started ∧ w'.loop.ctx.closed = true := by
  cases stepped hs
  refine ⟨rfl, rfl, ?_⟩
  rw [AsyncContext.destroy_eq]
  exact AsyncContext.closed_close _

/-- The JS thread gets into a callback by starting it. -/
theorem started_of_calling {w w' : Traffic F} {t : Turn} {fn : F} {rest : List F}
    (hs : w.step (.turn t) = some w') (hd : w'.loop.drain = .calling fn rest) :
    w.loop.started t = some fn := by
  obtain ⟨l, hl, rfl⟩ := Option.map_eq_some_iff.mp hs
  obtain ⟨loop, accepted, started⟩ := w
  have hd : l.drain = .calling fn rest := hd
  cases Loop.turned hl with
  | next ho =>
    cases hd
    simp [Loop.started, Loop.starts, ho]
  | _ => cases hd

/-- The callback the JS thread is in was started. -/
theorem calling_mem_started {n : Nat} {w : Traffic F} (h : (machine F n).Reachable w) {fn : F}
    {rest : List F} (hd : w.loop.drain = .calling fn rest) : fn ∈ w.started := by
  refine h.invariant (p := fun w : Traffic F ↦
    ∀ fn rest, w.loop.drain = .calling fn rest → fn ∈ w.started) ?_ ?_ fn rest hd
  · intro fn rest hd
    cases hd
  · intro w a w' hp hs fn rest hd
    have hs : w.step a = some w' := hs
    cases stepped hs with
    | turn hl =>
      have hst := started_of_calling hs hd
      simp [hst]
    | dispatch | close | destroy => exact hp fn rest hd

/-- The channel a context implements: what waits is the batch in hand and then the queue,
and a closed context has lost everything it did not start. -/
def channel (w : Traffic F) : Channel F where
  posted := w.accepted
  delivered := w.started
  waiting := if w.loop.ctx.closed then [] else w.loop.contents
  lost := if w.loop.ctx.closed then w.accepted.length - w.started.length else w.loop.ctx.dropped
  isOpen := !w.loop.ctx.closed

private theorem channel_dispatch {n : Nat} {w w' : Traffic F} {fn : F} (h : Inv n w)
    (hs : w.step (.dispatch fn) = some w') :
    ∃ bs, (Channel.machine F (decide (0 < n))).exec w.channel bs = some w'.channel := by
  cases stepped hs
  cases hc : w.loop.ctx.closed with
  | true =>
    refine ⟨[], ?_⟩
    rw [AsyncContext.dispatch_of_closed hc]
    simp [channel]
  | false =>
    -- Shed from where the queue starts behind the batch in hand, then post.
    let k := AsyncContext.shedCount n w.loop.ctx.queue.length
    let shed : Channel F := { w.channel with
      waiting := w.loop.drain.batch ++ w.loop.ctx.queue.drop k
      lost := w.channel.lost + k }
    have hshed : (Channel.machine F (decide (0 < n))).exec w.channel
        (List.replicate k (.lose w.loop.drain.batch.length)) = some shed := by
      by_cases hn : n = 0
      · have hk : k = 0 := by simp [k, hn]
        simp [shed, hk, channel, hc, Loop.contents]
      · have hp : decide (0 < n) = true := by simp; omega
        rw [hp]
        exact Channel.exec_lose _ _ _ _ (by simp [channel, hc, Loop.contents])
          (AsyncContext.shedCount_le _)
    refine ⟨List.replicate k (.lose w.loop.drain.batch.length) ++ [.post fn], ?_⟩
    rw [Machine.exec_append, hshed, Option.bind_some, Machine.exec_singleton]
    rw [AsyncContext.dispatch_of_open hc]
    simp [Channel.machine, Channel.step, shed, channel, hc, Loop.contents, h.depth, k]

private theorem channel_turn {n : Nat} {w : Traffic F} {l : Loop F} {t : Turn} (h : Inv n w)
    (hl : w.loop.turn t = some l) :
    ∃ bs, (Channel.machine F (decide (0 < n))).exec w.channel bs = some
      (channel { w with loop := l, started := w.started ++ (w.loop.started t).toList }) := by
  obtain ⟨hclosed, -, hdropped, -⟩ := Loop.turn_frame hl
  cases hc : w.loop.ctx.closed with
  | true =>
    refine ⟨[], ?_⟩
    rw [Loop.started_of_closed hc]
    simp [channel, hclosed, hc]
  | false =>
    have hcont := Loop.turn_contents hl h.wf hc
    cases hst : w.loop.started t with
    | none =>
      refine ⟨[], ?_⟩
      rw [hst] at hcont
      simp [channel, hclosed, hc, hdropped, hcont]
    | some fn =>
      refine ⟨[.deliver], ?_⟩
      rw [hst] at hcont
      rw [Machine.exec_singleton]
      simp [Channel.machine, Channel.step, channel, hclosed, hc, hdropped, hcont]

private theorem channel_close {n : Nat} {w : Traffic F} {c : AsyncContext F}
    (hr : (Channel.machine F (decide (0 < n))).Reachable w.channel)
    (hcl : c.closed = true) (ho : w.loop.ctx.closed = false) :
    ∃ bs, (Channel.machine F (decide (0 < n))).exec w.channel bs = some
      (channel { w with loop := { w.loop with ctx := c } }) := by
  have hcount := (Channel.lawful_of_reachable hr).count
  refine ⟨[.shut], ?_⟩
  rw [Machine.exec_singleton]
  simp only [channel, ho, Bool.false_eq_true, if_false] at hcount
  simp only [Channel.machine, Channel.step, channel, hcl, ho, Bool.false_eq_true,
    if_false, if_true, Bool.not_true, Option.some.injEq, Channel.mk.injEq, true_and, and_true]
  omega

/-- A context refines a channel: lossless when its depth is unlimited, lossy otherwise. -/
theorem refines_channel (n : Nat) :
    Machine.Refines (machine F n) (Channel.machine F (decide (0 < n))) channel where
  init := by simp [machine, channel, Loop.create, AsyncContext.create, Loop.contents,
    Drain.batch, Channel.machine, Channel.empty]
  step := by
    intro w a w' hw hr hs
    have hi := inv_of_reachable hw
    have hs : w.step a = some w' := hs
    cases stepped hs with
    | dispatch => exact channel_dispatch hi hs
    | turn hl => exact channel_turn hi hl
    | close =>
      cases hc : w.loop.ctx.closed with
      | true =>
        rw [AsyncContext.close_of_closed hc]
        exact ⟨[], rfl⟩
      | false => exact channel_close hr (AsyncContext.closed_close _) hc
    | destroy =>
      cases hc : w.loop.ctx.closed with
      | true =>
        refine ⟨[], ?_⟩
        rw [AsyncContext.destroy_eq, AsyncContext.close_of_closed hc]
        rfl
      | false =>
        refine channel_close hr ?_ hc
        rw [AsyncContext.destroy_eq]
        exact AsyncContext.closed_close _

/-- The channel laws, read on the context. -/
theorem lawful {n : Nat} {w : Traffic F} (h : (machine F n).Reachable w) :
    w.channel.Lawful (decide (0 < n)) :=
  Channel.lawful_of_reachable ((refines_channel n).reachable h)

/-- An open, unlimited context that is drained has started all it accepted. -/
theorem started_eq_of_drained {w : Traffic F} (h : (machine F 0).Reachable w)
    (ho : w.loop.ctx.closed = false) (hd : w.loop.drain = .idle) (hq : w.loop.ctx.queue = []) :
    w.started = w.accepted := by
  have he := (lawful h).exact rfl (by simp [channel, ho])
  simpa [channel, ho, Loop.contents, hd, hq, Drain.batch] using he

/-- A closed context stays closed and empty and starts nothing more. -/
theorem exec_of_closed {n : Nat} {w w' : Traffic F} {as : List (TrafficAct F)}
    (h : (machine F n).Reachable w) (hc : w.loop.ctx.closed = true)
    (hr : (machine F n).exec w as = some w') :
    w'.started = w.started ∧ w'.loop.ctx.queue = [] := by
  obtain ⟨bs, hb⟩ := (refines_channel n).exec h hr
  have hs := Channel.exec_of_shut (lawful h) (by simp [channel, hc]) hb
  have hc' : w'.loop.ctx.closed = true := by simpa [channel] using hs.1
  exact ⟨hs.2, (inv_of_reachable (h.exec hr)).wf.queue hc'⟩

/-- What an unlimited context started is a prefix of what it accepted. -/
theorem started_prefix {w : Traffic F} (h : (machine F 0).Reachable w) :
    w.started <+: w.accepted := (lawful h).pre rfl

/-- While an unlimited context is open, what it started, the batch in hand and the queue are what
it accepted. -/
theorem contents_of_open {w : Traffic F} (h : (machine F 0).Reachable w)
    (ho : w.loop.ctx.closed = false) : w.started ++ w.loop.contents = w.accepted := by
  have he := (lawful h).exact rfl (by simp [channel, ho])
  simpa [channel, ho] using he

/-- A wake-up is outstanding while callbacks wait and no drain runs. -/
theorem wakeup_of_waiting {n : Nat} {w : Traffic F} (h : (machine F n).Reachable w)
    (hq : w.loop.ctx.queue ≠ []) (hd : w.loop.drain = .idle) :
    ∃ a, w.loop.ctx.async = some a ∧ a.pending = true := by
  rcases (inv_of_reachable h).due with he | he | he
  · exact absurd he hq
  · rw [hd] at he
    cases he
  · exact he

/-- Exactly-once delivery of an unlimited context, in order, over every interleaving: what
was started is a prefix of what was accepted; while open, the started callbacks, the batch in
hand and the queue are together what was accepted; after `close()` or destruction nothing
starts and nothing is queued; and a wake-up is outstanding whenever an undrained queue
holds anything. -/
theorem exactlyOnce_fifo (w : Traffic F) (h : (machine F 0).Reachable w) :
    (w.started <+: w.accepted ∧ (w.accepted.Nodup → w.started.Nodup)) ∧
    (w.loop.ctx.closed = false →
      w.started ++ (w.loop.drain.batch ++ w.loop.ctx.queue) = w.accepted) ∧
    (w.loop.ctx.closed = true ∨ w.loop.ctx.alive = false →
      ∀ as w', (machine F 0).exec w as = some w' →
        w'.started = w.started ∧ w'.loop.ctx.queue = []) ∧
    (w.loop.ctx.closed = false → w.loop.ctx.queue ≠ [] → w.loop.drain = .idle →
      ∃ a, w.loop.ctx.async = some a ∧ a.pending = true) := by
  have hl := lawful h
  have hi := inv_of_reachable h
  have hpre : w.started <+: w.accepted := hl.pre rfl
  refine ⟨⟨hpre, fun hn ↦ hn.sublist hpre.sublist⟩, ?_, ?_, ?_⟩
  · intro ho
    have he := hl.exact rfl (by simp [channel, ho])
    simpa [channel, ho, Loop.contents] using he
  · intro hc as w' hr
    have hcl : w.loop.ctx.closed = true := hc.elim id hi.wf.alive
    exact exec_of_closed h hcl hr
  · intro _ hq hd
    rcases hi.due with he | he | he
    · exact absurd he hq
    · rw [hd] at he
      cases he
    · exact he

-- Two callbacks of one batch, the first of which dispatches a third and throws.
private def failedBatch : List (TrafficAct Nat) :=
  [.dispatch 1, .dispatch 2, .turn .onAsync, .turn .swap, .turn .next, .dispatch 3,
    .turn (.threw .unknown), .turn .requeue, .turn .reported]

/-- The law at the end of a batch whose first callback dispatched another and threw. -/
theorem exactlyOnce_fifo_failedBatch : ∃ w, (machine Nat 0).Reachable w ∧
    w.loop.ctx.queue = [2, 3] ∧
    w.started ++ (w.loop.drain.batch ++ w.loop.ctx.queue) = [1, 2, 3] := by
  have hr : (machine Nat 0).Reachable
      ⟨⟨{ async := some ⟨true, false⟩, queue := [2, 3], closed := false, dropped := 0,
          maxQueueDepth := 0, alive := true }, .idle⟩, [1, 2, 3], [1]⟩ :=
    ⟨failedBatch, by decide⟩
  exact ⟨_, hr, rfl, (exactlyOnce_fifo _ hr).2.1 rfl⟩

/-- A re-queue fits when the rest of the failed batch and what was dispatched meanwhile are
together within the bound. -/
def RequeueFits (maxQueueDepth : Nat) (w : Traffic F) (a : TrafficAct F) : Prop :=
  ∀ error rest, a = .turn .requeue → w.loop.drain = .caught error rest →
    w.loop.ctx.closed = false → rest.length + w.loop.ctx.queue.length ≤ maxQueueDepth

/-- Only a re-queue has to fit. -/
theorem requeueFits_of_ne {n : Nat} {w : Traffic F} {a : TrafficAct F}
    (ha : a ≠ .turn .requeue) : RequeueFits n w a :=
  fun _ _ he ↦ absurd he ha

instance (n : Nat) (w : Traffic F) : ∀ a, Decidable (RequeueFits n w a)
  | .turn t =>
    if ht : t = .requeue then
      match hd : w.loop.drain with
      | .caught error rest => decidable_of_iff
          (w.loop.ctx.closed = false → rest.length + w.loop.ctx.queue.length ≤ n)
          ⟨fun h _ _ _ he ↦ by cases hd.symm.trans he; exact h, fun h ↦ h error rest (ht ▸ rfl) hd⟩
      | .idle | .entered | .looping _ | .calling .. | .reporting _ =>
        isTrue fun _ _ _ he ↦ by cases hd.symm.trans he
    else isTrue (requeueFits_of_ne (by simpa using ht))
  | .dispatch _ | .close | .destroy => isTrue (requeueFits_of_ne (by simp))

private theorem length_turn {n : Nat} {w : Traffic F} {l : Loop F} {t : Turn}
    (hq : w.loop.ctx.queue.length ≤ n) (hl : w.loop.turn t = some l) :
    l.ctx.queue.length ≤ n ↔ RequeueFits n w (.turn t) := by
  obtain ⟨loop, accepted, started⟩ := w
  by_cases ht : t = .requeue
  · subst ht
    cases Loop.turned hl with
    | @requeue c error rest =>
      have hq : c.queue.length ≤ n := hq
      constructor
      · intro hle error' rest' _ hd ho
        cases hd
        have ho : c.closed = false := ho
        rwa [AsyncContext.requeueFront_queue ho, List.length_append] at hle
      · intro hf
        rcases c.requeueFront_cases rest with he | ⟨ho, he⟩
        · rw [he]
          exact hq
        · have hle := hf error rest rfl rfl ho
          rw [he, List.length_append]
          exact hle
  · refine iff_of_true ?_ (requeueFits_of_ne (by simpa using ht))
    cases Loop.turned hl with
    | swap ho => exact Nat.zero_le _
    | requeue => exact absurd rfl ht
    | _ => exact hq

/-- From a queue within the bound, a step keeps the bound exactly if the re-queue it makes, if
any, fits. -/
theorem length_step {n : Nat} {w w' : Traffic F} {a : TrafficAct F} (hn : 0 < n)
    (hi : Inv n w) (hq : w.loop.ctx.queue.length ≤ n) (hs : w.step a = some w') :
    w'.loop.ctx.queue.length ≤ n ↔ RequeueFits n w a := by
  have hi' := inv_step hi hs
  cases stepped hs with
  | dispatch =>
    refine iff_of_true ?_ (requeueFits_of_ne (by simp))
    cases hc : w.loop.ctx.closed with
    | true => rwa [AsyncContext.dispatch_of_closed hc]
    | false =>
      rw [← hi.depth] at hn ⊢
      exact AsyncContext.dispatch_length_le hc hn
  | turn hl => exact length_turn hq hl
  | close =>
    refine iff_of_true ?_ (requeueFits_of_ne (by simp))
    rw [hi'.wf.queue (AsyncContext.closed_close _)]
    exact Nat.zero_le _
  | destroy =>
    refine iff_of_true ?_ (requeueFits_of_ne (by simp))
    rw [hi'.wf.queue (hi'.wf.alive (by rw [AsyncContext.destroy_eq]))]
    exact Nat.zero_le _

/-- A bounded context keeps its bound in every state of a run exactly if every re-queue of
the run fits; whether or not it does, while the context is open each accepted callback is
started, dropped and counted, in hand or queued, and the started ones keep their order. -/
theorem bounded_iff_requeueFits (n : Nat) (hn : 0 < n) (as : List (TrafficAct F)) :
    ((machine F n).Always (fun w ↦ w.loop.ctx.queue.length ≤ n) (machine F n).init as ↔
      (machine F n).Along (RequeueFits n) (machine F n).init as) ∧
    ∀ w, (machine F n).exec (machine F n).init as = some w →
      (w.loop.ctx.closed = false → w.accepted.length = w.started.length + w.loop.ctx.dropped +
        w.loop.drain.batch.length + w.loop.ctx.queue.length) ∧
      w.started.Sublist w.accepted := by
  constructor
  · apply Machine.always_iff_along (i := fun w ↦ Inv n w)
    · exact fun _ _ _ hi hs ↦ inv_step hi hs
    · exact fun _ _ _ hi hq hs ↦ length_step hn hi hq hs
    · intro w a _ hs error rest ha hd
      subst ha
      simp [machine, step, Loop.turn, hd] at hs
    · exact ⟨AsyncContext.wf_create n, rfl, .inl rfl⟩
    · exact Nat.zero_le _
  · intro w hr
    have hl := lawful ⟨as, hr⟩
    constructor
    · intro ho
      have hc := hl.count
      simp only [channel, ho, Loop.contents, List.length_append, Bool.false_eq_true,
        if_false] at hc
      omega
    · exact (List.sublist_append_left _ _).trans hl.order

/-- Both laws at a bound of two, on the failed batch, whose re-queue fits. -/
theorem bounded_iff_requeueFits_two :
    (machine Nat 2).Always (fun w ↦ w.loop.ctx.queue.length ≤ 2) (machine Nat 2).init
      failedBatch ∧
    ∃ w, (machine Nat 2).exec (machine Nat 2).init failedBatch = some w ∧
      w.accepted.length = w.started.length + w.loop.ctx.dropped +
        w.loop.drain.batch.length + w.loop.ctx.queue.length := by
  have hb := bounded_iff_requeueFits 2 (by decide) failedBatch
  have hr : (machine Nat 2).exec (machine Nat 2).init failedBatch = some
      ⟨⟨{ async := some ⟨true, false⟩, queue := [2, 3], closed := false, dropped := 0,
          maxQueueDepth := 2, alive := true }, .idle⟩, [1, 2, 3], [1]⟩ := by decide
  exact ⟨hb.1.mpr (by decide), _, hr, (hb.2 _ hr).1 rfl⟩

-- As `failedBatch`, with a fourth callback dispatched before the first one throws.
private def overfullBatch : List (TrafficAct Nat) :=
  [.dispatch 1, .dispatch 2, .turn .onAsync, .turn .swap, .turn .next, .dispatch 3,
    .dispatch 4, .turn (.threw .unknown), .turn .requeue]

/-- A bound of two does not hold: the rest of a failed batch is put back in front of a queue
that has been filled again meanwhile. -/
theorem bound_exceeded : ¬ ∀ n, 0 < n → ∀ w, (machine Nat n).Reachable w →
    w.loop.ctx.queue.length ≤ n := by
  intro h
  have hr : (machine Nat 2).Reachable
      ⟨⟨{ async := some ⟨true, false⟩, queue := [2, 3, 4], closed := false, dropped := 0,
          maxQueueDepth := 2, alive := true },
        .reporting "Unknown C++ exception in event callback"⟩, [1, 2, 3, 4], [1]⟩ :=
    ⟨overfullBatch, by decide⟩
  have hle := h 2 (by decide) _ hr
  exact absurd hle (by decide)

end Traffic

end VideoNode.Common
