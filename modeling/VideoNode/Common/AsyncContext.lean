import VideoNode.Lts.Channel

/-!
# The native-to-JS queue

`src/common/async_context.{h,cpp}`. Any thread queues callbacks with `dispatch()`; the JS
thread runs them in `drain()`, a batch at a time, from a libuv wake-up. Each critical section
of `mutex_` is one step here, and so is each point of `drain()` at which another thread can
get in between.
-/

namespace VideoNode.Common

/-- `uv_async_t`: whether a wake-up is due, and whether the handle holds the process. -/
structure UvAsync where
  pending : Bool
  referenced : Bool
  deriving DecidableEq, Repr

/-- `uv_async_send`; sends coalesce until the loop takes the wake-up. -/
def UvAsync.send (h : UvAsync) : UvAsync := { h with pending := true }

/-- What a callback can throw; `src/common/async_context.cpp:105–120`. -/
inductive Thrown where
  | napiError (value : String)
  | stdException (what : String)
  | unknown
  deriving DecidableEq, Repr

/-- The JS error each catch clause hands to `reportFatal`. -/
def Thrown.error : Thrown → String
  | .napiError value => value
  | .stdException what => what
  | .unknown => "Unknown C++ exception in event callback"

/-- Members of `AsyncContext`; `src/common/async_context.h:45–57`. The handle is absent once
closed, and `alive` is the flag the destructor clears. -/
structure AsyncContext (F : Type) where
  async : Option UvAsync
  queue : List F
  closed : Bool
  dropped : Nat
  maxQueueDepth : Nat
  alive : Bool
  deriving DecidableEq, Repr

namespace AsyncContext

variable {F : Type}

/-- `src/common/async_context.h:15`. -/
def kDefaultMaxQueueDepth : Nat := 5

/-- The constructor; `src/common/async_context.cpp:5–13`. The handle starts unreferenced. -/
def create (maxQueueDepth : Nat) : AsyncContext F :=
  { async := some ⟨false, false⟩, queue := [], closed := false, dropped := 0,
    maxQueueDepth := maxQueueDepth, alive := true }

-- The backpressure loop of `dispatch()`; a depth of 0 means unlimited.
/-- Pop and count the oldest callbacks while the queue is full. -/
def shedOldest (maxQueueDepth : Nat) : List F → Nat → List F × Nat
  | [], dropped => ([], dropped)
  | fn :: queue, dropped =>
    if 0 < maxQueueDepth ∧ maxQueueDepth ≤ (fn :: queue).length then
      shedOldest maxQueueDepth queue (dropped + 1)
    else (fn :: queue, dropped)

/-- `src/common/async_context.cpp:20–33`. -/
def dispatch (c : AsyncContext F) (fn : F) : AsyncContext F :=
  if c.closed then c else
    let shed := shedOldest c.maxQueueDepth c.queue c.dropped
    { c with queue := shed.1 ++ [fn], dropped := shed.2, async := c.async.map UvAsync.send }

/-- `src/common/async_context.cpp:35–38`. -/
def ref (c : AsyncContext F) : AsyncContext F :=
  { c with async := c.async.map fun h ↦ { h with referenced := true } }

/-- `src/common/async_context.cpp:40–43`. -/
def unref (c : AsyncContext F) : AsyncContext F :=
  { c with async := c.async.map fun h ↦ { h with referenced := false } }

/-- Whether the handle holds the process. -/
def holds (c : AsyncContext F) : Bool := (c.async.map UvAsync.referenced).getD false

/-- `src/common/async_context.cpp:45–48`. -/
def queueDepth (c : AsyncContext F) : Nat := c.queue.length

/-- `src/common/async_context.cpp:50–70`. -/
def close (c : AsyncContext F) : AsyncContext F :=
  if c.closed then c else { c with closed := true, queue := [], async := none }

/-- The destructor; `src/common/async_context.cpp:15–18`. -/
def destroy (c : AsyncContext F) : AsyncContext F := ({ c with alive := false }).close

/-- `src/common/async_context.cpp:134–147`. -/
def requeueFront (c : AsyncContext F) (pending : List F) : AsyncContext F :=
  if pending.isEmpty then c
  else if c.closed then c
  else { c with queue := pending ++ c.queue, async := c.async.map UvAsync.send }

/-- How many callbacks the backpressure loop drops from a queue of this length. -/
def shedCount (maxQueueDepth length : Nat) : Nat :=
  if maxQueueDepth = 0 then 0 else length + 1 - maxQueueDepth

/-- The backpressure loop drops from the front and counts what it dropped. -/
theorem shedOldest_eq (maxQueueDepth : Nat) (queue : List F) (dropped : Nat) :
    shedOldest maxQueueDepth queue dropped =
      (queue.drop (shedCount maxQueueDepth queue.length),
        dropped + min (shedCount maxQueueDepth queue.length) queue.length) := by
  induction queue generalizing dropped with
  | nil => simp [shedOldest]
  | cons fn queue ih =>
    rw [shedOldest]
    split
    · next hf =>
      obtain ⟨hn, hl⟩ := hf
      have hz : maxQueueDepth ≠ 0 := by omega
      have hc : shedCount maxQueueDepth (fn :: queue).length =
          shedCount maxQueueDepth queue.length + 1 := by
        simp only [shedCount, hz, if_false, List.length_cons] at hl ⊢
        omega
      rw [ih, hc, List.drop_succ_cons, List.length_cons]
      simp only [Prod.mk.injEq, true_and]
      omega
    · next hf =>
      have hc : shedCount maxQueueDepth (fn :: queue).length = 0 := by
        simp only [shedCount]
        split
        · rfl
        · omega
      rw [hc, List.drop_zero, Nat.zero_min, Nat.add_zero]

/-- With room for at least one callback the loop never needs more than the queue holds. -/
theorem shedCount_le {maxQueueDepth : Nat} (length : Nat) :
    shedCount maxQueueDepth length ≤ length := by
  simp only [shedCount]
  split <;> omega

/-- A closed context ignores `dispatch()`. -/
theorem dispatch_of_closed {c : AsyncContext F} {fn : F} (h : c.closed = true) :
    c.dispatch fn = c := by
  simp [dispatch, h]

/-- An open context queues the callback behind what survives the backpressure loop. -/
theorem dispatch_of_open {c : AsyncContext F} {fn : F} (h : c.closed = false) :
    c.dispatch fn =
      { c with
        queue := c.queue.drop (shedCount c.maxQueueDepth c.queue.length) ++ [fn]
        dropped := c.dropped + shedCount c.maxQueueDepth c.queue.length
        async := c.async.map UvAsync.send } := by
  simp [dispatch, h, shedOldest_eq, Nat.min_eq_left (shedCount_le _)]

/-- Dispatching neither closes nor destroys the context. -/
theorem dispatch_frame (c : AsyncContext F) (fn : F) :
    (c.dispatch fn).closed = c.closed ∧ (c.dispatch fn).alive = c.alive := by
  unfold dispatch
  split <;> exact ⟨rfl, rfl⟩

/-- An unlimited queue sheds nothing. -/
@[simp] theorem shedCount_zero (length : Nat) : shedCount 0 length = 0 := rfl

/-- A bounded queue is within its bound once a callback was dispatched. -/
theorem dispatch_length_le {c : AsyncContext F} {fn : F} (h : c.closed = false)
    (hn : 0 < c.maxQueueDepth) : (c.dispatch fn).queue.length ≤ c.maxQueueDepth := by
  rw [dispatch_of_open h]
  simp only [shedCount, List.length_append, List.length_drop, List.length_singleton]
  split <;> omega

/-- The re-queued rest of a batch goes in front of what was dispatched meanwhile. -/
theorem requeueFront_queue {c : AsyncContext F} {pending : List F} (h : c.closed = false) :
    (c.requeueFront pending).queue = pending ++ c.queue := by
  cases pending with
  | nil => rfl
  | cons fn pending => simp [requeueFront, h]

/-- A re-queue is either ignored or sends a wake-up. -/
theorem requeueFront_cases (c : AsyncContext F) (pending : List F) :
    c.requeueFront pending = c ∨ (c.closed = false ∧ c.requeueFront pending =
      { c with queue := pending ++ c.queue, async := c.async.map UvAsync.send }) := by
  unfold requeueFront
  split
  · exact .inl rfl
  · split
    · exact .inl rfl
    · next hc => exact .inr ⟨by simpa using hc, rfl⟩

/-- What the members say about each other: a destroyed context is closed, and a context has
its handle until it is closed and neither handle nor queue afterwards. -/
structure WF (c : AsyncContext F) : Prop where
  alive : c.alive = false → c.closed = true
  queue : c.closed = true → c.queue = []
  async : c.async.isSome = !c.closed

/-- A fresh context is well formed. -/
theorem wf_create (maxQueueDepth : Nat) : WF (create maxQueueDepth : AsyncContext F) := by
  constructor <;> simp [create]

/-- Dispatching keeps the members consistent. -/
theorem wf_dispatch {c : AsyncContext F} {fn : F} (h : c.WF) : (c.dispatch fn).WF := by
  cases hc : c.closed with
  | true => rwa [dispatch_of_closed hc]
  | false =>
    rw [dispatch_of_open hc]
    constructor
    · exact h.alive
    · intro hf
      rw [hc] at hf
      cases hf
    · simpa using h.async

/-- Closing keeps the members consistent. -/
theorem wf_close {c : AsyncContext F} (h : c.WF) : c.close.WF := by
  unfold close
  split
  · exact h
  · constructor <;> simp

/-- Destruction closes. -/
theorem destroy_eq (c : AsyncContext F) : c.destroy = { c.close with alive := false } := by
  unfold destroy close
  split <;> rfl

/-- Destroying keeps the members consistent. -/
theorem wf_destroy {c : AsyncContext F} (h : c.WF) : c.destroy.WF := by
  have hc := wf_close h
  rw [destroy_eq]
  constructor
  · intro _
    unfold close
    split
    · assumption
    · rfl
  · exact hc.queue
  · exact hc.async

/-- Re-queueing keeps the members consistent. -/
theorem wf_requeueFront {c : AsyncContext F} {pending : List F} (h : c.WF) :
    (c.requeueFront pending).WF := by
  rcases c.requeueFront_cases pending with he | ⟨hc, he⟩
  · rwa [he]
  · rw [he]
    constructor
    · exact h.alive
    · intro hf
      rw [hc] at hf
      cases hf
    · simpa using h.async

/-- An open context has its handle. -/
theorem WF.handle {c : AsyncContext F} (h : c.WF) (ho : c.closed = false) :
    ∃ a, c.async = some a := by
  have hs := h.async
  rw [ho] at hs
  exact Option.isSome_iff_exists.mp hs

/-- Telling the handle to hold the process keeps the members consistent. -/
theorem wf_ref {c : AsyncContext F} (h : c.WF) : c.ref.WF :=
  ⟨h.alive, h.queue, by simpa [ref] using h.async⟩

/-- Telling the handle to let go keeps the members consistent. -/
theorem wf_unref {c : AsyncContext F} (h : c.WF) : c.unref.WF :=
  ⟨h.alive, h.queue, by simpa [unref] using h.async⟩

/-- A context holds the process once told to, as long as it has its handle. -/
theorem holds_ref (c : AsyncContext F) : c.ref.holds = c.async.isSome := by
  cases h : c.async <;> simp [holds, ref, h]

/-- A context lets go of the process when told to. -/
@[simp] theorem holds_unref (c : AsyncContext F) : c.unref.holds = false := by
  cases h : c.async <;> simp [holds, unref, h]

/-- A closed context holds nothing. -/
@[simp] theorem holds_close {c : AsyncContext F} (h : c.WF) : c.close.holds = false := by
  have ha := (wf_close h).async
  have hc : c.close.closed = true := by
    unfold close
    split
    · assumption
    · rfl
  rw [hc] at ha
  cases hs : c.close.async with
  | none => simp [holds, hs]
  | some a => simp [hs] at ha

private theorem holds_send (c : AsyncContext F) (queue : List F) (dropped : Nat) :
    { c with queue := queue, dropped := dropped, async := c.async.map UvAsync.send }.holds =
      c.holds := by
  cases h : c.async <;> simp [holds, h, UvAsync.send]

/-- Dispatching leaves the hold as it is. -/
@[simp] theorem holds_dispatch (c : AsyncContext F) (fn : F) :
    (c.dispatch fn).holds = c.holds := by
  cases hc : c.closed with
  | true => rw [dispatch_of_closed hc]
  | false =>
    rw [dispatch_of_open hc]
    exact holds_send c _ _

/-- Re-queueing leaves the hold as it is. -/
@[simp] theorem holds_requeueFront (c : AsyncContext F) (pending : List F) :
    (c.requeueFront pending).holds = c.holds := by
  rcases c.requeueFront_cases pending with he | ⟨-, he⟩
  · rw [he]
  · rw [he]
    exact holds_send c _ _

/-- Closing leaves a closed context, whatever it was before. -/
@[simp] theorem closed_close (c : AsyncContext F) : c.close.closed = true := by
  unfold close
  split
  · assumption
  · rfl

/-- Closing changes neither the bound, nor the drop count, nor the life of the object. -/
theorem close_frame (c : AsyncContext F) : c.close.maxQueueDepth = c.maxQueueDepth ∧
    c.close.dropped = c.dropped ∧ c.close.alive = c.alive := by
  unfold close
  split <;> exact ⟨rfl, rfl, rfl⟩

/-- A closed context is not closed twice. -/
theorem close_of_closed {c : AsyncContext F} (h : c.closed = true) : c.close = c := by
  simp [close, h]

end AsyncContext

/-- Where the JS thread is in `drain()`; `src/common/async_context.cpp:72–124`. -/
inductive Drain (F : Type) where
  | idle
  /-- `onAsync` has called `drain()`, which has not taken `mutex_` yet. -/
  | entered
  /-- At the head of the loop. -/
  | looping (toProcess : List F)
  /-- Inside `fn(env)`. -/
  | calling (fn : F) (toProcess : List F)
  /-- In a catch clause that found the context alive, before `requeueFront`. -/
  | caught (error : String) (toProcess : List F)
  /-- Inside `napi_fatal_exception`. -/
  | reporting (error : String)
  deriving DecidableEq, Repr

/-- The part of the batch `drain()` holds that has not been started. -/
def Drain.batch {F : Type} : Drain F → List F
  | .looping toProcess | .calling _ toProcess | .caught _ toProcess => toProcess
  | .idle | .entered | .reporting _ => []

/-- Whether the JS thread runs code other than `drain()` itself: between loop turns, inside a
callback, or inside an `uncaughtException` handler. `uv_close` may only be called there. -/
def Drain.yields {F : Type} : Drain F → Bool
  | .idle | .calling _ _ | .reporting _ => true
  | .entered | .looping _ | .caught _ _ => false

/-- A context together with the JS thread's position in its `drain()`. -/
structure Loop (F : Type) where
  ctx : AsyncContext F
  drain : Drain F
  deriving DecidableEq, Repr

/-- The steps the JS thread takes in `drain()`. -/
inductive Turn where
  | onAsync
  | swap
  | next
  | returned
  | threw (thrown : Thrown)
  | requeue
  | reported
  deriving DecidableEq, Repr

namespace Loop

variable {F : Type}

/-- A fresh context nobody drains. -/
def create (maxQueueDepth : Nat) : Loop F := ⟨.create maxQueueDepth, .idle⟩

/-- Everything accepted and not yet started: the batch in hand, then the queue. -/
def contents (l : Loop F) : List F := l.drain.batch ++ l.ctx.queue

/-- The callback the head of the loop starts next; `src/common/async_context.cpp:91–104`. -/
def starts (l : Loop F) : Option F :=
  match l.drain with
  | .looping (fn :: _) => if l.ctx.closed then none else some fn
  | _ => none

/-- One step of the JS thread through `drain()`. -/
def turn (l : Loop F) : Turn → Option (Loop F)
  | .onAsync =>
    -- close() clears `handle->data`, so a closed context takes no wake-up.
    match l.drain, l.ctx.async with
    | .idle, some h =>
      if h.pending then
        some ⟨{ l.ctx with async := some { h with pending := false } }, .entered⟩
      else none
    | _, _ => none
  | .swap =>
    match l.drain with
    | .entered =>
      if l.ctx.closed then some { l with drain := .idle }
      else some ⟨{ l.ctx with queue := [] }, .looping l.ctx.queue⟩
    | _ => none
  | .next =>
    match l.drain with
    | .looping [] => some { l with drain := .idle }
    | .looping (fn :: toProcess) =>
      if l.ctx.closed then some { l with drain := .idle }
      else some { l with drain := .calling fn toProcess }
    | _ => none
  | .returned =>
    match l.drain with
    | .calling _ toProcess =>
      some { l with drain := if l.ctx.alive then .looping toProcess else .idle }
    | _ => none
  | .threw thrown =>
    match l.drain with
    | .calling _ toProcess =>
      some { l with drain :=
        if l.ctx.alive then .caught thrown.error toProcess else .reporting thrown.error }
    | _ => none
  | .requeue =>
    match l.drain with
    | .caught error toProcess => some ⟨l.ctx.requeueFront toProcess, .reporting error⟩
    | _ => none
  | .reported =>
    match l.drain with
    | .reporting _ => some { l with drain := .idle }
    | _ => none

/-- What is started by a step of `drain()`: only the head of the loop starts a callback. -/
def started (l : Loop F) : Turn → Option F
  | .next => l.starts
  | _ => none

/-- A context of which a wake-up is outstanding whenever callbacks wait and no drain has
already been entered to take them. -/
def WakeupDue (l : Loop F) : Prop :=
  l.ctx.queue = [] ∨ l.drain = .entered ∨ ∃ h, l.ctx.async = some h ∧ h.pending = true

/-- The ways a step through `drain()` can go, with what each one requires. -/
inductive Turned : Loop F → Turn → Loop F → Prop where
  | onAsync {c : AsyncContext F} {a : UvAsync} (ha : c.async = some a) (hp : a.pending = true) :
    Turned ⟨c, .idle⟩ .onAsync ⟨{ c with async := some { a with pending := false } }, .entered⟩
  | swap {c : AsyncContext F} (ho : c.closed = false) :
    Turned ⟨c, .entered⟩ .swap ⟨{ c with queue := [] }, .looping c.queue⟩
  | swapClosed {c : AsyncContext F} (hc : c.closed = true) :
    Turned ⟨c, .entered⟩ .swap ⟨c, .idle⟩
  | finished {c : AsyncContext F} : Turned ⟨c, .looping []⟩ .next ⟨c, .idle⟩
  | next {c : AsyncContext F} {fn : F} {rest : List F} (ho : c.closed = false) :
    Turned ⟨c, .looping (fn :: rest)⟩ .next ⟨c, .calling fn rest⟩
  | nextClosed {c : AsyncContext F} {fn : F} {rest : List F} (hc : c.closed = true) :
    Turned ⟨c, .looping (fn :: rest)⟩ .next ⟨c, .idle⟩
  | returned {c : AsyncContext F} {fn : F} {rest : List F} (ha : c.alive = true) :
    Turned ⟨c, .calling fn rest⟩ .returned ⟨c, .looping rest⟩
  | returnedDead {c : AsyncContext F} {fn : F} {rest : List F} (ha : c.alive = false) :
    Turned ⟨c, .calling fn rest⟩ .returned ⟨c, .idle⟩
  | threw {c : AsyncContext F} {thrown : Thrown} {fn : F} {rest : List F} (ha : c.alive = true) :
    Turned ⟨c, .calling fn rest⟩ (.threw thrown) ⟨c, .caught thrown.error rest⟩
  | threwDead {c : AsyncContext F} {thrown : Thrown} {fn : F} {rest : List F}
      (ha : c.alive = false) :
    Turned ⟨c, .calling fn rest⟩ (.threw thrown) ⟨c, .reporting thrown.error⟩
  | requeue {c : AsyncContext F} {error : String} {rest : List F} :
    Turned ⟨c, .caught error rest⟩ .requeue ⟨c.requeueFront rest, .reporting error⟩
  | reported {c : AsyncContext F} {error : String} :
    Turned ⟨c, .reporting error⟩ .reported ⟨c, .idle⟩

/-- Inversion of a step through `drain()`. -/
theorem turned {l l' : Loop F} {t : Turn} (h : l.turn t = some l') : Turned l t l' := by
  obtain ⟨c, drain⟩ := l
  cases t with
  | onAsync =>
    simp only [turn] at h
    split at h
    · next a ha =>
      split at h
      · next hp => cases h; exact .onAsync ha hp
      · cases h
    · cases h
  | swap =>
    cases drain <;> simp only [turn] at h <;> try cases h
    split at h
    · next hc => cases h; exact .swapClosed hc
    · next hc => cases h; exact .swap (by simpa using hc)
  | next =>
    cases drain <;> simp only [turn] at h <;> try cases h
    next toProcess =>
    cases toProcess with
    | nil => cases h; exact .finished
    | cons fn rest =>
      simp only at h
      split at h
      · next hc => cases h; exact .nextClosed hc
      · next hc => cases h; exact .next (by simpa using hc)
  | returned =>
    cases drain <;> simp only [turn] at h <;> try cases h
    next fn rest =>
    cases ha : c.alive with
    | true => exact .returned ha
    | false => exact .returnedDead ha
  | threw thrown =>
    cases drain <;> simp only [turn] at h <;> try cases h
    next fn rest =>
    cases ha : c.alive with
    | true => exact .threw ha
    | false => exact .threwDead ha
  | requeue =>
    cases drain <;> simp only [turn] at h <;> try cases h
    exact .requeue
  | reported =>
    cases drain <;> simp only [turn] at h <;> try cases h
    exact .reported

/-- A step through `drain()` neither closes nor destroys the context, nor drops anything. -/
theorem turn_frame {l l' : Loop F} {t : Turn} (h : l.turn t = some l') :
    l'.ctx.closed = l.ctx.closed ∧ l'.ctx.alive = l.ctx.alive ∧
      l'.ctx.dropped = l.ctx.dropped ∧ l'.ctx.maxQueueDepth = l.ctx.maxQueueDepth := by
  cases turned h with
  | @requeue c error rest =>
    rcases c.requeueFront_cases rest with he | ⟨-, he⟩ <;> rw [he] <;> exact ⟨rfl, rfl, rfl, rfl⟩
  | _ => exact ⟨rfl, rfl, rfl, rfl⟩

/-- A step through `drain()` leaves the hold on the process as it is. -/
theorem holds_turn {l l' : Loop F} {t : Turn} (h : l.turn t = some l') :
    l'.ctx.holds = l.ctx.holds := by
  cases turned h with
  | onAsync ha hp => simp [AsyncContext.holds, ha]
  | requeue => exact AsyncContext.holds_requeueFront _ _
  | _ => rfl

/-- A step through `drain()` keeps the members consistent. -/
theorem wf_turn {l l' : Loop F} {t : Turn} (h : l.turn t = some l') (hw : l.ctx.WF) :
    l'.ctx.WF := by
  cases turned h with
  | @onAsync c a ha hp =>
    refine ⟨hw.alive, hw.queue, ?_⟩
    have hs := hw.async
    rw [ha] at hs
    exact hs
  | swap ho => exact ⟨hw.alive, fun _ ↦ rfl, hw.async⟩
  | requeue => exact AsyncContext.wf_requeueFront hw
  | _ => exact hw

/-- While the context is open, a step through `drain()` moves at most the head of what waits
to the started callbacks and neither loses nor reorders the rest. -/
theorem turn_contents {l l' : Loop F} {t : Turn} (h : l.turn t = some l') (hw : l.ctx.WF)
    (ho : l.ctx.closed = false) : l.contents = (l.started t).toList ++ l'.contents := by
  have hl : l.ctx.alive = false → False := by
    intro ha
    have hc := hw.alive ha
    rw [ho] at hc
    cases hc
  cases turned h with
  | onAsync ha hp => rfl
  | swap ho => simp [contents, Drain.batch, started]
  | finished => simp [contents, Drain.batch, started, starts]
  | @next c fn rest ho =>
    have ho : c.closed = false := ho
    simp [contents, Drain.batch, started, starts, ho]
  | returned ha => simp [contents, Drain.batch, started]
  | threw ha => simp [contents, Drain.batch, started]
  | requeue =>
    simp only [contents, Drain.batch, started, Option.toList_none, List.nil_append]
    rw [AsyncContext.requeueFront_queue ho]
  | reported => simp [contents, Drain.batch, started]
  | swapClosed hc => exact absurd ho (by simp [hc])
  | nextClosed hc => exact absurd ho (by simp [hc])
  | returnedDead ha => exact (hl ha).elim
  | threwDead ha => exact (hl ha).elim

/-- A closed context starts nothing. -/
theorem started_of_closed {l : Loop F} {t : Turn} (h : l.ctx.closed = true) :
    l.started t = none := by
  cases t <;> simp only [started]
  unfold starts
  split
  · simp [h]
  · rfl

/-- Only an open context with a callback in hand starts one, and it is the first in hand. -/
theorem starts_some {l : Loop F} {fn : F} (h : l.starts = some fn) :
    ∃ rest, l.drain = .looping (fn :: rest) ∧ l.ctx.closed = false := by
  unfold starts at h
  split at h
  · next f rest hd =>
    split at h
    · cases h
    · next hc =>
      cases h
      exact ⟨rest, hd, by simpa using hc⟩
  · cases h

/-- The wake-up obligation survives every step through `drain()`. -/
theorem wakeupDue_turn {l l' : Loop F} {t : Turn} (h : l.turn t = some l') (hw : l.ctx.WF)
    (hd : l.WakeupDue) : l'.WakeupDue := by
  cases turned h with
  | onAsync ha hp => exact .inr (.inl rfl)
  | swap ho => exact .inl rfl
  | swapClosed hc => exact .inl (hw.queue hc)
  | @requeue c error rest =>
    rcases c.requeueFront_cases rest with he | ⟨hc, he⟩ <;> rw [he]
    · rcases hd with hq | hd | hp
      · exact .inl hq
      · cases hd
      · exact .inr (.inr hp)
    · obtain ⟨a, ha⟩ := hw.handle hc
      have ha : c.async = some a := ha
      exact .inr (.inr ⟨a.send, by simp [ha], rfl⟩)
  | _ =>
    rcases hd with hq | hd | hp
    · exact .inl hq
    · cases hd
    · exact .inr (.inr hp)

end Loop

end VideoNode.Common
