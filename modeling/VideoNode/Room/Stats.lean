import VideoNode.Common.Delivery
import VideoNode.Lts.Parties

/-!
# Room statistics

`getStats()` of `lib/room.ts` over `src/video/room_wrap.{h,cpp}`: one-shot observers that the
engine reports to on its own threads, the registry that keeps them alive, and the teardown that
cancels them. A `getStats()` promise, and the callback that settles it, is named by the position
of the call. Engine threads take the steps of `onStats` one by one; of `cancel()` only the
exchange of `fired_` can race, so the rest of it is one step with it.
-/

namespace VideoNode.Room

open VideoNode.Common VideoNode.Lts

/-- Callbacks dispatched on the Room's context. -/
inductive Task where
  /-- A Room event; `src/video/room_observer_wrap.cpp`. -/
  | event
  | stats (callback : Option Nat)
  | failed (callback : Option Nat) (error : String)
  deriving DecidableEq, Repr

/-- The `getStats()` callback a task calls. -/
def Task.callback : Task → Option Nat
  | .event => none
  | .stats callback | .failed callback _ => callback

/-- Members of `OneShotStatsObserver`; `src/video/room_wrap.h:39–57`. -/
structure OneShotStatsObserver where
  callback : Option Nat
  fired : Bool
  deriving DecidableEq, Repr

/-- Where an engine thread is in `onStats`; `src/video/room_wrap.cpp:888–912`. -/
inductive OnStatsPc where
  /-- The `weak_ptr` was locked. -/
  | entered
  /-- It is this call that set `fired_`. -/
  | won
  | moved (cb : Option Nat)
  | dispatching (cb : Option Nat)
  | removing
  | returned
  deriving DecidableEq, Repr

/-- The callback a call of `onStats` holds. -/
def OnStatsPc.callback : OnStatsPc → Option Nat
  | .moved cb | .dispatching cb => cb
  | .entered | .won | .removing | .returned => none

@[simp] private theorem callback_entered : OnStatsPc.callback .entered = none := rfl
@[simp] private theorem callback_won : OnStatsPc.callback .won = none := rfl
@[simp] private theorem callback_moved (cb : Option Nat) :
    OnStatsPc.callback (.moved cb) = cb := rfl
@[simp] private theorem callback_dispatching (cb : Option Nat) :
    OnStatsPc.callback (.dispatching cb) = cb := rfl
@[simp] private theorem callback_removing : OnStatsPc.callback .removing = none := rfl
@[simp] private theorem callback_returned : OnStatsPc.callback .returned = none := rfl

/-- One call of `onStats` on the observer with the given number. -/
structure OnStats where
  obs : Nat
  pc : OnStatsPc
  deriving DecidableEq, Repr

/-- Whether a call of `onStats` still has its strong reference. -/
def OnStats.active (c : OnStats) : Bool := c.pc ≠ .returned

/-- Where the JS thread is; `destroying` tells the destructor from `Dispose`. -/
inductive JsPc where
  | idle
  /-- In `GetStats`, which holds the observer it made. -/
  | getStats (obs : Nat)
  /-- In `cancelAll`, which holds the whole set it swapped out. -/
  | cancelling (todo held : List Nat) (destroying : Bool)
  | closing (destroying : Bool)
  deriving DecidableEq, Repr

/-- Observers the JS thread holds. -/
def JsPc.refs : JsPc → List Nat
  | .idle | .closing _ => []
  | .getStats obs => [obs]
  | .cancelling _ held _ => held

/-- Observers `cancelAll` has yet to cancel. -/
def JsPc.todo : JsPc → List Nat
  | .idle | .getStats _ | .closing _ => []
  | .cancelling todo _ _ => todo

/-- Whether a teardown is under way. -/
def JsPc.tearing : JsPc → Bool
  | .idle | .getStats _ => false
  | .cancelling _ _ _ | .closing _ => true

/-- `room_` and `asyncContext_` are reset by `Dispose`, the registry goes with the wrap. -/
inductive WrapLife where
  | live
  | disposed
  | destroyed
  deriving DecidableEq, Repr

/-- A Room with every thread that has to do with its statistics. `immediate` are the promises the
call itself settled, and `pendingAtDispose` those unsettled when `Dispose` was first called. -/
structure StatsRoom where
  traffic : Traffic Task
  observers : List OneShotStatsObserver
  registry : List Nat
  calls : List OnStats
  js : JsPc
  life : WrapLife
  promises : Nat
  immediate : List (Nat × String)
  pendingAtDispose : Option (List Nat)
  deriving DecidableEq, Repr

/-- What the application, the engine threads, the JS thread and the garbage collector do. -/
inductive StatsAct where
  /-- `getStats()`, with what `Room.state` and then `room_->getState()` answer. -/
  | getStats (disconnected connected : Bool)
  | getStatsReturns
  /-- An engine thread locks its `weak_ptr` and calls `onStats`. -/
  | onStats (obs : Nat)
  | onStatsStep (k : Nat)
  | roomEvent
  | turn (t : Turn)
  | dispose
  | destroy
  /-- `cancelAll` goes on to the given observer; the order of the set is by address. -/
  | cancelStep (obs : Nat)
  | cancelDone
  | closeContext
  deriving DecidableEq, Repr

namespace StatsRoom

/-- Promises settled so far: a started task called the callback, or the call itself did. -/
def settled (s : StatsRoom) : List Nat :=
  s.traffic.started.filterMap Task.callback ++ s.immediate.map Prod.fst

/-- Promises not settled yet. -/
def pending (s : StatsRoom) : List Nat :=
  (List.range s.promises).filter fun i ↦ i ∉ s.settled

/-- Whether anybody has a strong reference to an observer; without one it is destroyed. -/
def Held (s : StatsRoom) (obs : Nat) : Prop :=
  obs ∈ s.registry ∨ (∃ c ∈ s.calls, c.obs = obs ∧ c.active = true) ∨ obs ∈ s.js.refs

instance (s : StatsRoom) (obs : Nat) : Decidable (s.Held obs) :=
  inferInstanceAs (Decidable (_ ∨ _ ∨ _))

/-- Whether the JS thread runs JavaScript: between turns or inside a callback. -/
def runsJs (s : StatsRoom) : Bool := s.js = .idle && s.traffic.loop.drain.yields

/-- `dispatch()` on the Room's context. -/
def dispatch (s : StatsRoom) (t : Task) : Option StatsRoom :=
  (s.traffic.step (.dispatch t)).map fun tr ↦ { s with traffic := tr }

/-- `getStats()`; `lib/room.ts:375–388`, and `GetStats`; `src/video/room_wrap.cpp:930–974`, up
to its return. -/
def getStats (s : StatsRoom) (disconnected connected : Bool) : Option StatsRoom :=
  let p := s.promises
  let s := { s with promises := p + 1 }
  if disconnected then some { s with immediate := s.immediate ++ [(p, "Room is disconnected")] }
  else
    match s.life with
    | .live =>
      if connected then
        some { s with
          observers := s.observers ++ [⟨some p, false⟩]
          registry := s.registry ++ [s.observers.length]
          js := .getStats s.observers.length }
      else if s.traffic.loop.ctx.closed then
        some { s with immediate := s.immediate ++ [(p, "Room is not connected")] }
      else s.dispatch (.failed (some p) "Room is not connected")
    | .disposed => some { s with immediate := s.immediate ++ [(p, "Room is not connected")] }
    | .destroyed => none

/-- One step of `onStats`; `src/video/room_wrap.cpp:888–912`. -/
def onStatsStep (s : StatsRoom) (k : Nat) : Option StatsRoom :=
  match s.calls[k]? with
  | none => none
  | some ⟨obs, pc⟩ =>
    let goto (s : StatsRoom) (pc : OnStatsPc) : StatsRoom :=
      { s with calls := s.calls.set k ⟨obs, pc⟩ }
    match s.observers[obs]? with
    | none => none
    | some o =>
      match pc with
      | .entered =>
        if o.fired then some (goto s .returned)
        else some (goto { s with observers := s.observers.set obs { o with fired := true } } .won)
      | .won =>
        some (goto { s with observers := s.observers.set obs { o with callback := none } }
          (.moved o.callback))
      | .moved cb =>
        if s.traffic.loop.ctx.closed then some (goto s .removing)
        else some (goto s (.dispatching cb))
      | .dispatching cb => ((goto s .removing).dispatch (.stats cb))
      | .removing =>
        -- Skipped once the registry went with the wrap.
        let registry := if s.life = .destroyed then s.registry else s.registry.erase obs
        some (goto { s with registry := registry } .returned)
      | .returned => none

/-- `cancel()`; `src/video/room_wrap.cpp:914–928`. -/
def cancel (s : StatsRoom) (obs : Nat) : Option StatsRoom :=
  match s.observers[obs]? with
  | none => none
  | some o =>
    if o.fired then some s
    else
      let s := { s with observers := s.observers.set obs ⟨none, true⟩ }
      if s.traffic.loop.ctx.closed then some s
      else s.dispatch (.failed o.callback "Room was disconnected")

/-- One step of one thread. -/
def step (s : StatsRoom) : StatsAct → Option StatsRoom
  | .getStats disconnected connected =>
    if s.runsJs ∧ s.life ≠ .destroyed then s.getStats disconnected connected else none
  | .getStatsReturns =>
    match s.js with
    | .getStats _ => some { s with js := .idle }
    | _ => none
  | .onStats obs =>
    if s.Held obs then some { s with calls := s.calls ++ [⟨obs, .entered⟩] } else none
  | .onStatsStep k => s.onStatsStep k
  | .roomEvent => s.dispatch .event
  | .turn t =>
    if s.js = .idle then (s.traffic.step (.turn t)).map fun tr ↦ { s with traffic := tr }
    else none
  | .dispose =>
    if s.runsJs ∧ s.life ≠ .destroyed then
      some { s with
        registry := []
        js := .cancelling s.registry s.registry false
        pendingAtDispose := if s.life = .live then some s.pending else s.pendingAtDispose }
    else none
  | .destroy =>
    if s.runsJs ∧ s.life ≠ .destroyed then
      some { s with registry := [], js := .cancelling s.registry s.registry true }
    else none
  | .cancelStep obs =>
    match s.js with
    | .cancelling todo held destroying =>
      if obs ∈ todo then
        (s.cancel obs).map fun s ↦ { s with js := .cancelling (todo.erase obs) held destroying }
      else none
    | _ => none
  | .cancelDone =>
    match s.js with
    | .cancelling [] _ destroying => some { s with js := .closing destroying }
    | _ => none
  | .closeContext =>
    match s.js with
    | .closing destroying =>
      (s.traffic.step .close).map fun tr ↦
        { s with traffic := tr, js := .idle, life := if destroying then .destroyed else .disposed }
    | _ => none

/-- A connected Room nobody asked for statistics yet, and everything that can happen to it. -/
def machine : Machine StatsRoom StatsAct where
  init := ⟨⟨.create 0, [], []⟩, [], [], [], .idle, .live, 0, [], none⟩
  step := step

/-- Whether this is the callback of promise `i`. -/
def names (i : Nat) : Option Nat → Bool
  | some j => j == i
  | none => false

@[simp] private theorem names_none (i : Nat) : names i none = false := rfl
@[simp] private theorem names_some (i j : Nat) : names i (some j) = (j == i) := rfl

/-- How many places have the callback of promise `i`: accepted tasks, calls of `onStats`, the
observer, and the call that settled it itself. -/
def tokens (s : StatsRoom) (i : Nat) : Nat :=
  s.traffic.accepted.countP (names i ·.callback) + s.calls.countP (names i ·.pc.callback) +
    s.observers.countP (names i ·.callback) + s.immediate.countP (·.1 == i)

/-- A dispatch changes the context only, and at most accepts the task. -/
theorem dispatch_spec {s s' : StatsRoom} {t : Task} (h : s.dispatch t = some s') :
    ∃ tr, s.traffic.step (.dispatch t) = some tr ∧ s' = { s with traffic := tr } ∧
      tr.started = s.traffic.started ∧ tr.loop.ctx.closed = s.traffic.loop.ctx.closed ∧
      (tr.accepted = s.traffic.accepted ∨ tr.accepted = s.traffic.accepted ++ [t]) := by
  obtain ⟨tr, htr, rfl⟩ := Option.map_eq_some_iff.mp h
  refine ⟨tr, htr, rfl, ?_⟩
  cases Traffic.stepped htr
  refine ⟨rfl, (AsyncContext.dispatch_frame _ _).1, ?_⟩
  simp only
  split
  · exact .inl rfl
  · exact .inr rfl

/-- How `getStats()` goes: it settles its promise itself, makes an observer, or dispatches the
rejection. -/
inductive Asked (s : StatsRoom) : StatsRoom → Prop where
  | settled (error : String) : Asked s
    { s with
      promises := s.promises + 1
      immediate := s.immediate ++ [(s.promises, error)] }
  | observed : Asked s
    { s with
      promises := s.promises + 1
      observers := s.observers ++ [⟨some s.promises, false⟩]
      registry := s.registry ++ [s.observers.length]
      js := .getStats s.observers.length }
  | dispatched {s' : StatsRoom}
    (h : dispatch { s with promises := s.promises + 1 }
      (.failed (some s.promises) "Room is not connected") = some s') : Asked s s'

/-- How a step of a call of `onStats` goes, by where the call is. -/
inductive Reported (s : StatsRoom) (k obs : Nat) (o : OneShotStatsObserver) :
    OnStatsPc → StatsRoom → Prop where
  | late (hf : o.fired = true) : Reported s k obs o .entered
    { s with calls := s.calls.set k ⟨obs, .returned⟩ }
  | first (hf : o.fired = false) : Reported s k obs o .entered
    { s with
      observers := s.observers.set obs { o with fired := true }
      calls := s.calls.set k ⟨obs, .won⟩ }
  | moves : Reported s k obs o .won
    { s with
      observers := s.observers.set obs { o with callback := none }
      calls := s.calls.set k ⟨obs, .moved o.callback⟩ }
  | skips (cb : Option Nat) (hc : s.traffic.loop.ctx.closed = true) : Reported s k obs o (.moved cb)
    { s with calls := s.calls.set k ⟨obs, .removing⟩ }
  | goes (cb : Option Nat) (hc : s.traffic.loop.ctx.closed = false) : Reported s k obs o (.moved cb)
    { s with calls := s.calls.set k ⟨obs, .dispatching cb⟩ }
  | dispatches (cb : Option Nat) {s' : StatsRoom}
    (h : dispatch { s with calls := s.calls.set k ⟨obs, .removing⟩ } (.stats cb) = some s') :
    Reported s k obs o (.dispatching cb) s'
  | removes : Reported s k obs o .removing
    { s with
      registry := if s.life = .destroyed then s.registry else s.registry.erase obs
      calls := s.calls.set k ⟨obs, .returned⟩ }

/-- How `cancel()` of an observer goes: it comes too late, or takes the callback and dispatches the
rejection unless the context is closed. -/
inductive Cancelled (s : StatsRoom) (obs : Nat) (o : OneShotStatsObserver) : StatsRoom → Prop where
  | late (hf : o.fired = true) : Cancelled s obs o s
  | skipped (hc : s.traffic.loop.ctx.closed = true) : Cancelled s obs o
    { s with observers := s.observers.set obs ⟨none, true⟩ }
  | dispatched {s' : StatsRoom}
    (h : dispatch { s with observers := s.observers.set obs ⟨none, true⟩ }
      (.failed o.callback "Room was disconnected") = some s') : Cancelled s obs o s'

/-- What each step asks for, and what it leaves. -/
inductive Stepped (s : StatsRoom) : StatsAct → StatsRoom → Prop where
  | getStats (disconnected connected : Bool) {s' : StatsRoom} (hj : s.js = .idle)
    (h : Asked s s') : Stepped s (.getStats disconnected connected) s'
  | getStatsReturns (obs : Nat) (hj : s.js = .getStats obs) : Stepped s .getStatsReturns
    { s with js := .idle }
  | onStats (obs : Nat) (h : s.Held obs) : Stepped s (.onStats obs)
    { s with calls := s.calls ++ [⟨obs, .entered⟩] }
  | onStatsStep (k obs : Nat) (pc : OnStatsPc) (o : OneShotStatsObserver) {s' : StatsRoom}
    (hk : s.calls[k]? = some ⟨obs, pc⟩) (ho : s.observers[obs]? = some o)
    (h : Reported s k obs o pc s') : Stepped s (.onStatsStep k) s'
  | roomEvent {s' : StatsRoom} (h : s.dispatch .event = some s') : Stepped s .roomEvent s'
  | turn (t : Turn) {tr : Traffic Task} (hj : s.js = .idle)
    (h : s.traffic.step (.turn t) = some tr) : Stepped s (.turn t) { s with traffic := tr }
  | dispose (hj : s.js = .idle) : Stepped s .dispose
    { s with
      registry := []
      js := .cancelling s.registry s.registry false
      pendingAtDispose := if s.life = .live then some s.pending else s.pendingAtDispose }
  | destroy (hj : s.js = .idle) : Stepped s .destroy
    { s with registry := [], js := .cancelling s.registry s.registry true }
  | cancelStep (obs : Nat) {todo held : List Nat} {destroying : Bool} {o : OneShotStatsObserver}
    {s' : StatsRoom} (hj : s.js = .cancelling todo held destroying)
    (ho : s.observers[obs]? = some o) (h : Cancelled s obs o s') : Stepped s (.cancelStep obs)
    { s' with js := .cancelling (todo.erase obs) held destroying }
  | cancelDone {held : List Nat} {destroying : Bool} (hj : s.js = .cancelling [] held destroying) :
    Stepped s .cancelDone { s with js := .closing destroying }
  | closeContext {destroying : Bool} {tr : Traffic Task} (hj : s.js = .closing destroying)
    (h : s.traffic.step .close = some tr) : Stepped s .closeContext
    { s with
      traffic := tr
      js := .idle
      life := if destroying then .destroyed else .disposed }

private theorem asked {s s' : StatsRoom} {d c : Bool} (h : s.getStats d c = some s') :
    Asked s s' := by
  simp only [getStats] at h
  split at h
  · cases h
    exact .settled _
  split at h
  · split at h
    · cases h
      exact .observed
    split at h
    · cases h
      exact .settled _
    · exact .dispatched h
  · cases h
    exact .settled _
  · cases h

private theorem reported {s s' : StatsRoom} {k : Nat} (h : s.onStatsStep k = some s') :
    ∃ obs pc o, s.calls[k]? = some ⟨obs, pc⟩ ∧ s.observers[obs]? = some o ∧
      Reported s k obs o pc s' := by
  simp only [onStatsStep] at h
  split at h
  · cases h
  next obs pc hk =>
  split at h
  · cases h
  next o ho =>
  refine ⟨obs, pc, o, hk, ho, ?_⟩
  cases pc with
  | entered =>
    cases hf : o.fired with
    | true =>
      simp only [hf, if_true] at h
      cases h
      exact .late hf
    | false =>
      simp only [hf] at h
      cases h
      exact .first hf
  | won =>
    cases h
    exact .moves
  | moved cb =>
    cases hcl : s.traffic.loop.ctx.closed with
    | true =>
      simp only [hcl, if_true] at h
      cases h
      exact .skips cb hcl
    | false =>
      simp only [hcl] at h
      cases h
      exact .goes cb hcl
  | dispatching cb => exact .dispatches cb h
  | removing =>
    cases h
    exact .removes
  | returned => cases h

private theorem cancelled {s s' : StatsRoom} {obs : Nat} (h : s.cancel obs = some s') :
    ∃ o, s.observers[obs]? = some o ∧ Cancelled s obs o s' := by
  simp only [cancel] at h
  split at h
  · cases h
  next o ho =>
  refine ⟨o, ho, ?_⟩
  split at h
  · next hf =>
    cases h
    exact .late hf
  split at h
  · next hc =>
    cases h
    exact .skipped hc
  · exact .dispatched h

private theorem js_of_runsJs {s : StatsRoom} (h : s.runsJs = true) : s.js = .idle := by
  simp only [runsJs, Bool.and_eq_true, decide_eq_true_eq] at h
  exact h.1

/-- Inversion of a step. -/
theorem stepped {s s' : StatsRoom} {a : StatsAct} (h : s.step a = some s') : Stepped s a s' := by
  cases a with
  | getStats d c =>
    simp only [step] at h
    split at h
    · next hg => exact .getStats d c (js_of_runsJs hg.1) (asked h)
    · cases h
  | getStatsReturns =>
    simp only [step] at h
    split at h
    next obs hj =>
      cases h
      exact .getStatsReturns obs hj
    · cases h
  | onStats obs =>
    simp only [step] at h
    split at h
    · next hh =>
      cases h
      exact .onStats obs hh
    · cases h
  | onStatsStep k =>
    obtain ⟨obs, pc, o, hk, ho, hr⟩ := reported h
    exact .onStatsStep k obs pc o hk ho hr
  | roomEvent => exact .roomEvent h
  | turn t =>
    simp only [step] at h
    split at h
    · next hj =>
      obtain ⟨tr, htr, rfl⟩ := Option.map_eq_some_iff.mp h
      exact .turn t hj htr
    · cases h
  | dispose =>
    simp only [step] at h
    split at h
    · next hg =>
      cases h
      exact .dispose (js_of_runsJs hg.1)
    · cases h
  | destroy =>
    simp only [step] at h
    split at h
    · next hg =>
      cases h
      exact .destroy (js_of_runsJs hg.1)
    · cases h
  | cancelStep obs =>
    simp only [step] at h
    split at h
    next todo held destroying hj =>
      split at h
      · obtain ⟨r, hr, rfl⟩ := Option.map_eq_some_iff.mp h
        obtain ⟨o, ho, hc⟩ := cancelled hr
        exact .cancelStep obs hj ho hc
      · cases h
    · cases h
  | cancelDone =>
    simp only [step] at h
    split at h
    next held destroying hj =>
      cases h
      exact .cancelDone hj
    · cases h
  | closeContext =>
    simp only [step] at h
    split at h
    next destroying hj =>
      obtain ⟨tr, htr, rfl⟩ := Option.map_eq_some_iff.mp h
      exact .closeContext hj htr
    · cases h

private theorem tokens_dispatch {s s' : StatsRoom} {t : Task} (h : s.dispatch t = some s')
    (i : Nat) : s'.promises = s.promises ∧
      s'.tokens i ≤ s.tokens i + (names i t.callback).toNat := by
  obtain ⟨tr, -, rfl, -, -, ha⟩ := dispatch_spec h
  refine ⟨rfl, ?_⟩
  rcases ha with ha | ha
  · simp only [tokens, ha]
    omega
  · simp only [tokens, ha, Parties.countP_concat]
    omega

private theorem tokens_asked {s s' : StatsRoom} (h : Asked s s') (i : Nat) :
    s'.promises = s.promises + 1 ∧ s'.tokens i ≤ s.tokens i + (s.promises == i).toNat := by
  cases h with
  | settled error =>
    refine ⟨rfl, ?_⟩
    simp only [tokens, Parties.countP_concat]
    omega
  | observed =>
    refine ⟨rfl, ?_⟩
    simp only [tokens, Parties.countP_concat, names_some]
    omega
  | dispatched h => exact tokens_dispatch h i

private theorem tokens_reported {s s' : StatsRoom} {k obs : Nat} {pc : OnStatsPc}
    {o : OneShotStatsObserver} (hk : s.calls[k]? = some ⟨obs, pc⟩)
    (ho : s.observers[obs]? = some o) (h : Reported s k obs o pc s') (i : Nat) :
    s'.promises = s.promises ∧ s'.tokens i ≤ s.tokens i := by
  have hcalls := fun pc' ↦ Parties.countP_set (b := (⟨obs, pc'⟩ : OnStats))
    (fun c ↦ names i c.pc.callback) hk
  have hobs := fun o' ↦ Parties.countP_set (b := (o' : OneShotStatsObserver))
    (fun o ↦ names i o.callback) ho
  cases h with
  | late | removes =>
    have hc := hcalls .returned
    simp only [callback_entered, callback_removing, callback_returned] at hc
    refine ⟨rfl, ?_⟩
    simp only [tokens]
    omega
  | first =>
    have hc := hcalls .won
    have ho' := hobs { o with fired := true }
    simp only [callback_entered, callback_won] at hc
    refine ⟨rfl, ?_⟩
    simp only [tokens] at ho' ⊢
    omega
  | moves =>
    have hc := hcalls (.moved o.callback)
    have ho' := hobs { o with callback := none }
    simp only [callback_won, callback_moved, names_none, Bool.toNat_false] at hc ho'
    refine ⟨rfl, ?_⟩
    simp only [tokens]
    omega
  | skips cb =>
    have hc := hcalls .removing
    simp only [callback_removing, names_none, Bool.toNat_false] at hc
    refine ⟨rfl, ?_⟩
    simp only [tokens]
    omega
  | goes cb =>
    have hc := hcalls (.dispatching cb)
    simp only [callback_moved, callback_dispatching] at hc
    refine ⟨rfl, ?_⟩
    simp only [tokens]
    omega
  | dispatches cb h =>
    obtain ⟨hp, ht⟩ := tokens_dispatch h i
    have hc := hcalls .removing
    simp only [callback_dispatching, callback_removing, names_none, Bool.toNat_false] at hc
    refine ⟨hp, ?_⟩
    simp only [tokens, Task.callback] at ht ⊢
    omega

private theorem tokens_cancelled {s s' : StatsRoom} {obs : Nat} {o : OneShotStatsObserver}
    (ho : s.observers[obs]? = some o) (h : Cancelled s obs o s') (i : Nat) :
    s'.promises = s.promises ∧ s'.tokens i ≤ s.tokens i := by
  have hobs := Parties.countP_set (b := (⟨none, true⟩ : OneShotStatsObserver))
    (fun o ↦ names i o.callback) ho
  simp only [names_none, Bool.toNat_false] at hobs
  cases h with
  | late => exact ⟨rfl, Nat.le_refl _⟩
  | skipped =>
    refine ⟨rfl, ?_⟩
    simp only [tokens]
    omega
  | dispatched h =>
    obtain ⟨hp, ht⟩ := tokens_dispatch h i
    refine ⟨hp, ?_⟩
    simp only [tokens, Task.callback] at ht ⊢
    omega

/-- A step adds no callback but that of the promise it makes. -/
theorem tokens_step {s s' : StatsRoom} {a : StatsAct} (h : s.step a = some s') (i : Nat) :
    (s'.promises = s.promises ∧ s'.tokens i ≤ s.tokens i) ∨
    (s'.promises = s.promises + 1 ∧ s'.tokens i ≤ s.tokens i + (s.promises == i).toNat) := by
  cases stepped h with
  | getStats d c _ h => exact .inr (tokens_asked h i)
  | onStats obs =>
    refine .inl ⟨rfl, ?_⟩
    simp only [tokens, Parties.countP_concat, callback_entered, names_none, Bool.toNat_false]
    omega
  | onStatsStep k obs pc o hk ho h => exact .inl (tokens_reported hk ho h i)
  | roomEvent h => exact .inl (tokens_dispatch h i)
  | turn t _ htr =>
    obtain ⟨l, -, rfl⟩ := Option.map_eq_some_iff.mp htr
    exact .inl ⟨rfl, Nat.le_refl _⟩
  | cancelStep obs _ ho hc => exact .inl (tokens_cancelled ho hc i)
  | closeContext _ htr =>
    cases Traffic.stepped htr
    exact .inl ⟨rfl, Nat.le_refl _⟩
  | getStatsReturns | dispose | destroy | cancelDone => exact .inl ⟨rfl, Nat.le_refl _⟩

/-- What a step does to the context: nothing, a dispatch, a turn of the drain, or its close. -/
inductive Moved (s s' : StatsRoom) (a : StatsAct) : Prop where
  | same (h : s'.traffic = s.traffic)
  | dispatched (t : Task) (h : s.traffic.step (.dispatch t) = some s'.traffic)
  | turned (t : Turn) (ha : a = .turn t) (hj : s.js = .idle)
      (h : s.traffic.step (.turn t) = some s'.traffic)
  | closed (h : s.traffic.step .close = some s'.traffic)

private theorem Moved.of_dispatch {s r s' : StatsRoom} {a : StatsAct} {t : Task}
    (h : r.dispatch t = some s') (hr : r.traffic = s.traffic) : Moved s s' a := by
  obtain ⟨tr, htr, rfl, -⟩ := dispatch_spec h
  rw [hr] at htr
  exact .dispatched t htr

/-- Inversion of a step, as far as the context is concerned. -/
theorem moved {s s' : StatsRoom} {a : StatsAct} (h : s.step a = some s') : Moved s s' a := by
  cases stepped h with
  | getStats d c _ h =>
    cases h with
    | settled | observed => exact .same rfl
    | dispatched h => exact .of_dispatch h rfl
  | onStatsStep k obs pc o _ _ h =>
    cases h with
    | dispatches cb h => exact .of_dispatch h rfl
    | late | first | moves | skips | goes | removes => exact .same rfl
  | roomEvent h => exact .of_dispatch h rfl
  | turn t hj htr => exact .turned t rfl hj htr
  | cancelStep obs _ _ hc =>
    cases hc with
    | late | skipped => exact .same rfl
    | dispatched hd =>
      obtain ⟨tr, htr, rfl, -⟩ := dispatch_spec hd
      exact .dispatched _ htr
  | closeContext _ htr => exact .closed htr
  | getStatsReturns | onStats _ | dispose | destroy | cancelDone => exact .same rfl

/-- Every callback is in at most one place, and a promise not made yet has none. -/
structure Tokens (s : StatsRoom) : Prop where
  traffic : (Traffic.machine Task 0).Reachable s.traffic
  once : ∀ i, s.tokens i ≤ 1
  fresh : ∀ i, s.promises ≤ i → s.tokens i = 0

/-- Every step keeps the callbacks where they are or moves them on. -/
theorem tokens_inv {s s' : StatsRoom} {a : StatsAct} (h : Tokens s) (hs : s.step a = some s') :
    Tokens s' := by
  have htokens := tokens_step hs
  constructor
  · cases moved hs with
    | same he =>
      rw [he]
      exact h.traffic
    | dispatched t ht => exact h.traffic.step (a := .dispatch t) ht
    | turned t _ _ ht => exact h.traffic.step (a := .turn t) ht
    | closed hc => exact h.traffic.step (a := .close) hc
  · intro i
    have ho := h.once i
    rcases htokens i with ⟨-, ht⟩ | ⟨-, ht⟩
    · omega
    · by_cases hi : s.promises = i
      · have hf := h.fresh i (by omega)
        have hle : (s.promises == i).toNat ≤ 1 := Bool.toNat_le _
        omega
      · have hz : (s.promises == i).toNat = 0 := by simp [hi]
        omega
  · intro i hi
    rcases htokens i with ⟨hp, ht⟩ | ⟨hp, ht⟩
    · have hf := h.fresh i (by omega)
      omega
    · have hf := h.fresh i (by omega)
      have hz : (s.promises == i).toNat = 0 := by
        have hne : s.promises ≠ i := by omega
        simp [hne]
      omega

/-- A promise is settled no more often than there are places its callback came from. -/
theorem count_settled_le {s : StatsRoom} (h : Tokens s) (i : Nat) :
    s.settled.count i ≤ s.tokens i := by
  have hpre : s.traffic.started.Sublist s.traffic.accepted :=
    ((Traffic.lawful h.traffic).pre rfl).sublist
  have hle := hpre.countP_le (p := (names i ·.callback))
  have hst : (s.traffic.started.filterMap Task.callback).count i =
      s.traffic.started.countP (names i ·.callback) := by
    rw [List.count, List.countP_filterMap]
    apply List.countP_congr
    intro t _
    cases t.callback <;> simp [names]
  have him : (s.immediate.map Prod.fst).count i = s.immediate.countP (·.1 == i) := by
    rw [List.count, List.countP_map]
    rfl
  simp only [settled, List.count_append, hst, him, tokens]
  omega

/-- Who keeps an observer alive: until it has fired, the registry or the `cancelAll` that took it
from there; after that, the call of `onStats` that has yet to move the callback out. -/
structure Owned (s : StatsRoom) : Prop where
  known : ∀ o ob, s.observers[o]? = some ob → ob.fired = false →
    o ∈ s.registry ∨ o ∈ s.js.todo
  winner : ∀ o ob, s.observers[o]? = some ob → ob.fired = true → ob.callback ≠ none →
    ∃ c ∈ s.calls, c.obs = o ∧ c.pc = .won
  racing : ∀ c ∈ s.calls, c.pc ≠ .entered → c.pc ≠ .returned →
    ∃ ob, s.observers[c.obs]? = some ob ∧ ob.fired = true
  refs : ∀ o ∈ s.js.todo, o ∈ s.js.refs

private theorem owned_congr {s s' : StatsRoom} (h : Owned s) (ho : s'.observers = s.observers)
    (hr : s'.registry = s.registry) (hc : s'.calls = s.calls)
    (hj : ∀ o ∈ s.js.todo, o ∈ s'.js.todo) (hj' : ∀ o ∈ s'.js.todo, o ∈ s'.js.refs) :
    Owned s' := by
  constructor
  · intro o ob hob hf
    rw [ho] at hob
    rw [hr]
    exact (h.known o ob hob hf).imp id (hj o)
  · rw [ho, hc]
    exact h.winner
  · rw [ho, hc]
    exact h.racing
  · exact hj'

private theorem owned_asked {s s' : StatsRoom} (h : Owned s) (hj : s.js = .idle)
    (hs : Asked s s') : Owned s' := by
  have hsame : ∀ s'' : StatsRoom, s''.observers = s.observers → s''.registry = s.registry →
      s''.calls = s.calls → s''.js = s.js → Owned s'' := by
    intro s'' ho hr hc hj'
    apply owned_congr h ho hr hc
    · rw [hj']
      exact fun _ ↦ id
    · rw [hj', hj]
      intro o ho
      cases ho
  cases hs with
  | settled error => exact hsame _ rfl rfl rfl rfl
  | observed =>
    constructor
    · intro o ob hob hf
      rcases Parties.getElem?_concat hob with ⟨rfl, -⟩ | hob
      · exact .inl (List.mem_append_right _ (List.mem_singleton_self _))
      · rcases h.known o ob hob hf with hr | ht
        · exact .inl (List.mem_append_left _ hr)
        · rw [hj] at ht
          cases ht
    · intro o ob hob hf hc
      rcases Parties.getElem?_concat hob with ⟨-, rfl⟩ | hob
      · cases hf
      · exact h.winner o ob hob hf hc
    · intro c hc he hr
      obtain ⟨ob, hob, hf⟩ := h.racing c hc he hr
      have hi := (List.getElem?_eq_some_iff.mp hob).1
      exact ⟨ob, by simpa [List.getElem?_append_left hi] using hob, hf⟩
    · intro o ho
      cases ho
  | dispatched hd =>
    obtain ⟨tr, -, rfl, -⟩ := dispatch_spec hd
    exact hsame _ rfl rfl rfl rfl

private theorem owned_goto {s s' : StatsRoom} {k obs : Nat} {pc pc' : OnStatsPc} (h : Owned s)
    (hk : s.calls[k]? = some ⟨obs, pc⟩) (hw : pc ≠ .won) (ho : s'.observers = s.observers)
    (hc : s'.calls = s.calls.set k ⟨obs, pc'⟩) (hj : s'.js = s.js)
    (hr : ∀ o ob, s.observers[o]? = some ob → ob.fired = false → o ∈ s.registry →
      o ∈ s'.registry)
    (hf : pc' ≠ .returned → ∃ ob, s.observers[obs]? = some ob ∧ ob.fired = true) :
    Owned s' := by
  constructor
  · intro o ob hob hfired
    rw [ho] at hob
    rw [hj]
    exact (h.known o ob hob hfired).imp (hr o ob hob hfired) id
  · intro o ob hob hfired hcb
    rw [ho] at hob
    obtain ⟨c, hcm, hco, hcw⟩ := h.winner o ob hob hfired hcb
    rw [hc]
    rcases Parties.eq_or_mem_set (b := (⟨obs, pc'⟩ : OnStats)) hk hcm with rfl | hcm
    · exact absurd hcw hw
    · exact ⟨c, hcm, hco, hcw⟩
  · intro c hcm he hret
    rw [hc] at hcm
    rw [ho]
    rcases Parties.mem_of_mem_set hcm with rfl | hcm
    · exact hf hret
    · exact h.racing c hcm he hret
  · rw [hj]
    exact h.refs

private theorem owned_fired {s s' : StatsRoom} {obs : Nat} {o o' : OneShotStatsObserver}
    (h : Owned s) (ho : s.observers[obs]? = some o)
    (hobs : s'.observers = s.observers.set obs o') (hf : o'.fired = true)
    (hr : s'.registry = s.registry) (hj : ∀ i ∈ s.js.todo, i ≠ obs → i ∈ s'.js.todo)
    (hj' : ∀ i ∈ s'.js.todo, i ∈ s'.js.refs)
    (hw : o'.callback ≠ none → ∃ c ∈ s'.calls, c.obs = obs ∧ c.pc = .won)
    (hc : ∀ c ∈ s.calls, c.obs ≠ obs → c ∈ s'.calls)
    (hc' : ∀ c ∈ s'.calls, c ∈ s.calls ∨ c.obs = obs) : Owned s' := by
  constructor
  · intro i ob hob hfired
    rw [hobs] at hob
    rw [hr]
    rcases Parties.getElem?_set ho hob with ⟨-, rfl⟩ | ⟨hne, hob⟩
    · rw [hf] at hfired
      cases hfired
    · exact (h.known i ob hob hfired).imp id fun ht ↦ hj i ht hne
  · intro i ob hob hfired hcb
    rw [hobs] at hob
    rcases Parties.getElem?_set ho hob with ⟨rfl, rfl⟩ | ⟨hne, hob⟩
    · exact hw hcb
    · obtain ⟨c, hcm, rfl, hcw⟩ := h.winner i ob hob hfired hcb
      exact ⟨c, hc c hcm hne, rfl, hcw⟩
  · intro c hcm he hret
    rw [hobs]
    by_cases hco : c.obs = obs
    · rw [hco]
      exact ⟨o', Parties.getElem?_set_self ho, hf⟩
    · obtain ⟨ob, hob, hfired⟩ := h.racing c ((hc' c hcm).resolve_right hco) he hret
      exact ⟨ob, by rw [List.getElem?_set_ne (Ne.symm hco)]; exact hob, hfired⟩
  · exact hj'

private theorem owned_reported {s s' : StatsRoom} {k obs : Nat} {pc : OnStatsPc}
    {o : OneShotStatsObserver} (h : Owned s) (hk : s.calls[k]? = some ⟨obs, pc⟩)
    (ho : s.observers[obs]? = some o) (hs : Reported s k obs o pc s') : Owned s' := by
  have hset : ∀ pc', ∀ c ∈ s.calls, c.obs ≠ obs → c ∈ s.calls.set k ⟨obs, pc'⟩ := by
    intro pc' c hc hne
    rcases Parties.eq_or_mem_set (b := (⟨obs, pc'⟩ : OnStats)) hk hc with rfl | hc
    · exact absurd rfl hne
    · exact hc
  have hset' : ∀ pc', ∀ c ∈ s.calls.set k ⟨obs, pc'⟩, c ∈ s.calls ∨ c.obs = obs := by
    intro pc' c hc
    rcases Parties.mem_of_mem_set hc with rfl | hc
    · exact .inr rfl
    · exact .inl hc
  have hfired : pc ≠ .entered → pc ≠ .returned → o.fired = true := by
    intro he hret
    obtain ⟨ob, hob, hf⟩ := h.racing _ (List.mem_iff_getElem?.mpr ⟨k, hk⟩) he hret
    rw [ho] at hob
    cases hob
    exact hf
  cases hs with
  | late =>
    exact owned_goto h hk (by simp) rfl rfl rfl (fun _ _ _ _ ↦ id) (fun hn ↦ absurd rfl hn)
  | first =>
    refine owned_fired h ho rfl rfl rfl (fun _ hi _ ↦ hi) h.refs ?_ (hset _) (hset' _)
    intro _
    exact ⟨_, List.mem_iff_getElem?.mpr ⟨k, Parties.getElem?_set_self hk⟩, rfl, rfl⟩
  | moves =>
    exact owned_fired h ho rfl (hfired (by simp) (by simp)) rfl (fun _ hi _ ↦ hi) h.refs
      (fun hn ↦ absurd rfl hn) (hset _) (hset' _)
  | skips cb | goes cb =>
    have hf := hfired (by simp) (by simp)
    exact owned_goto h hk (by simp) rfl rfl rfl (fun _ _ _ _ ↦ id) (fun _ ↦ ⟨o, ho, hf⟩)
  | dispatches cb hd =>
    have hf := hfired (by simp) (by simp)
    obtain ⟨tr, -, rfl, -⟩ := dispatch_spec hd
    exact owned_goto h hk (by simp) rfl rfl rfl (fun _ _ _ _ ↦ id) (fun _ ↦ ⟨o, ho, hf⟩)
  | removes =>
    have hf := hfired (by simp) (by simp)
    refine owned_goto h hk (by simp) rfl rfl rfl ?_ (fun hn ↦ absurd rfl hn)
    intro i ob hob hunfired hi
    simp only
    split
    · exact hi
    · have hne : i ≠ obs := by
        rintro rfl
        rw [ho] at hob
        cases hob
        rw [hf] at hunfired
        cases hunfired
      exact (List.mem_erase_of_ne hne).mpr hi

private theorem owned_cancelled {s s' : StatsRoom} {obs : Nat} {o : OneShotStatsObserver}
    {todo held : List Nat} {destroying : Bool} (h : Owned s)
    (hj : s.js = .cancelling todo held destroying) (ho : s.observers[obs]? = some o)
    (hs : Cancelled s obs o s') :
    Owned { s' with js := .cancelling (todo.erase obs) held destroying } := by
  have htodo : ∀ i ∈ s.js.todo, i ≠ obs → i ∈ todo.erase obs := by
    rw [hj]
    exact fun i hi hne ↦ (List.mem_erase_of_ne hne).mpr hi
  have hrefs : ∀ i ∈ todo.erase obs, i ∈ held := by
    intro i hi
    have hr := h.refs i
    rw [hj] at hr
    exact hr (List.mem_of_mem_erase hi)
  cases hs with
  | late hf =>
    have hsame : s.observers = s.observers.set obs o := by
      obtain ⟨hi, hget⟩ := List.getElem?_eq_some_iff.mp ho
      rw [← hget, List.set_getElem_self]
    exact owned_fired h ho hsame hf rfl htodo hrefs (fun hcb ↦ h.winner obs o ho hf hcb)
      (fun _ hc _ ↦ hc) (fun _ ↦ .inl)
  | skipped =>
    exact owned_fired h ho rfl rfl rfl htodo hrefs (fun hn ↦ absurd rfl hn)
      (fun _ hc _ ↦ hc) (fun _ ↦ .inl)
  | dispatched hd =>
    obtain ⟨tr, -, rfl, -⟩ := dispatch_spec hd
    exact owned_fired h ho rfl rfl rfl htodo hrefs (fun hn ↦ absurd rfl hn)
      (fun _ hc _ ↦ hc) (fun _ ↦ .inl)

/-- Every step leaves every observer that owns its callback with somebody who keeps it alive. -/
theorem owned_inv {s s' : StatsRoom} {a : StatsAct} (h : Owned s) (hs : s.step a = some s') :
    Owned s' := by
  cases stepped hs with
  | getStats d c hj hs => exact owned_asked h hj hs
  | getStatsReturns obs hj =>
    refine owned_congr h rfl rfl rfl ?_ ?_ <;> simp [hj, JsPc.todo]
  | onStats obs =>
    refine ⟨h.known, ?_, ?_, h.refs⟩
    · intro o ob hob hf hcb
      obtain ⟨c, hc, hco⟩ := h.winner o ob hob hf hcb
      exact ⟨c, List.mem_append_left _ hc, hco⟩
    · intro c hc he hret
      rcases List.mem_append.mp hc with hc | hc
      · exact h.racing c hc he hret
      · rw [List.mem_singleton] at hc
        subst hc
        exact absurd rfl he
  | onStatsStep k obs pc o hk ho hs => exact owned_reported h hk ho hs
  | roomEvent hs =>
    obtain ⟨tr, -, rfl, -⟩ := dispatch_spec hs
    exact owned_congr h rfl rfl rfl (fun _ ↦ id) h.refs
  | turn t => exact owned_congr h rfl rfl rfl (fun _ ↦ id) h.refs
  | dispose hj | destroy hj =>
    refine ⟨?_, h.winner, h.racing, fun _ ↦ id⟩
    intro o ob hob hf
    rcases h.known o ob hob hf with hr | ht
    · exact .inr hr
    · rw [hj] at ht
      cases ht
  | cancelStep obs hj ho hc => exact owned_cancelled h hj ho hc
  | cancelDone hj | closeContext hj =>
    refine owned_congr h rfl rfl rfl ?_ ?_ <;> simp [hj, JsPc.todo]

/-- An observer that owns its callback is kept alive. -/
theorem held_of_callback {s : StatsRoom} (h : Owned s) {o : Nat} {ob : OneShotStatsObserver}
    (hob : s.observers[o]? = some ob) (hcb : ob.callback ≠ none) : s.Held o := by
  cases hf : ob.fired with
  | false =>
    rcases h.known o ob hob hf with hr | ht
    · exact .inl hr
    · exact .inr (.inr (h.refs o ht))
  | true =>
    obtain ⟨c, hc, hco, hw⟩ := h.winner o ob hob hf hcb
    exact .inr (.inl ⟨c, hc, hco, by simp [OnStats.active, hw]⟩)

/-- Once `Dispose` was called, what was unsettled then stays so, since no callback is started
any more: the JS thread is in the teardown, or the context is closed. -/
def Abandoned (s : StatsRoom) : Prop :=
  ∀ p, s.pendingAtDispose = some p → (s.js.tearing = true ∨ s.traffic.loop.ctx.closed = true) ∧
    ∀ i ∈ p, i < s.promises ∧ i ∉ s.settled

-- What a step that runs no JavaScript leaves as it is.
private structure Quiet (s s' : StatsRoom) : Prop where
  settled : s'.settled = s.settled
  promises : s'.promises = s.promises
  js : s'.js = s.js
  pending : s'.pendingAtDispose = s.pendingAtDispose
  closed : s'.traffic.loop.ctx.closed = s.traffic.loop.ctx.closed

private theorem quiet_dispatch {s s' : StatsRoom} {t : Task} (h : s.dispatch t = some s') :
    Quiet s s' := by
  obtain ⟨tr, -, rfl, hst, hcl, -⟩ := dispatch_spec h
  exact ⟨by simp only [settled, hst], rfl, rfl, rfl, hcl⟩

private theorem quiet_cancelled {s s' : StatsRoom} {obs : Nat} {o : OneShotStatsObserver}
    (h : Cancelled s obs o s') : Quiet s s' := by
  cases h with
  | late | skipped => exact ⟨rfl, rfl, rfl, rfl, rfl⟩
  | dispatched h =>
    have hq := quiet_dispatch h
    exact ⟨hq.settled, hq.promises, hq.js, hq.pending, hq.closed⟩

private theorem quiet_reported {s s' : StatsRoom} {k obs : Nat} {pc : OnStatsPc}
    {o : OneShotStatsObserver} (h : Reported s k obs o pc s') : Quiet s s' := by
  cases h with
  | late | first | moves | skips | goes | removes => exact ⟨rfl, rfl, rfl, rfl, rfl⟩
  | dispatches cb h =>
    have hq := quiet_dispatch h
    exact ⟨hq.settled, hq.promises, hq.js, hq.pending, hq.closed⟩

private theorem abandoned_quiet {s s' : StatsRoom} (h : Abandoned s) (hq : Quiet s s') :
    Abandoned s' := by
  intro p hp
  rw [hq.js, hq.closed, hq.promises, hq.settled]
  rw [hq.pending] at hp
  exact h p hp

private theorem abandoned_tearing {s s' : StatsRoom} (h : Abandoned s)
    (ht : s'.js.tearing = true ∨ s'.traffic.loop.ctx.closed = true)
    (hp : s'.pendingAtDispose = s.pendingAtDispose) (hn : s'.promises = s.promises)
    (hs : s'.settled = s.settled) : Abandoned s' := by
  intro p hp'
  rw [hn, hs]
  exact ⟨ht, (h p (hp.symm.trans hp')).2⟩

private theorem closed_of_abandoned {s : StatsRoom} (h : Abandoned s) {p : List Nat}
    (hp : s.pendingAtDispose = some p) (hj : s.js.tearing = false) :
    s.traffic.loop.ctx.closed = true := by
  apply (h p hp).1.resolve_left
  rw [hj]
  exact Bool.false_ne_true

private theorem abandoned_asked {s s' : StatsRoom} (h : Abandoned s) (hj : s.js = .idle)
    (hs : Asked s s') : Abandoned s' := by
  cases hs with
  | settled error =>
    intro p hp
    obtain ⟨hcl, hk⟩ := h p hp
    refine ⟨hcl, fun i hi ↦ ?_⟩
    obtain ⟨hlt, hn⟩ := hk i hi
    refine ⟨Nat.lt_succ_of_lt hlt, ?_⟩
    simp only [settled, List.map_append, List.map_cons, List.map_nil, ← List.append_assoc]
    intro hm
    rcases List.mem_append.mp hm with hm | hm
    · exact hn hm
    · rw [List.mem_singleton] at hm
      omega
  | observed =>
    intro p hp
    have hclosed : s.traffic.loop.ctx.closed = true :=
      closed_of_abandoned h hp (by rw [hj]; rfl)
    refine ⟨.inr hclosed, fun i hi ↦ ?_⟩
    exact ((h p hp).2 i hi).imp_left Nat.lt_succ_of_lt
  | dispatched hd =>
    have hq := quiet_dispatch hd
    intro p hp
    rw [hq.pending] at hp
    obtain ⟨hcl, hk⟩ := h p hp
    rw [hq.js, hq.closed, hq.promises, hq.settled]
    exact ⟨hcl, fun i hi ↦ (hk i hi).imp_left Nat.lt_succ_of_lt⟩

/-- Every step leaves unsettled what was unsettled when `Dispose` was called. -/
theorem abandoned_inv {s s' : StatsRoom} {a : StatsAct} (h : Abandoned s)
    (hs : s.step a = some s') : Abandoned s' := by
  cases stepped hs with
  | getStats d c hj hs => exact abandoned_asked h hj hs
  | getStatsReturns obs hj =>
    intro p hp
    have hclosed : s.traffic.loop.ctx.closed = true :=
      closed_of_abandoned h hp (by rw [hj]; rfl)
    exact ⟨.inr hclosed, (h p hp).2⟩
  | onStats obs => exact abandoned_quiet h ⟨rfl, rfl, rfl, rfl, rfl⟩
  | onStatsStep k obs pc o _ _ hs => exact abandoned_quiet h (quiet_reported hs)
  | roomEvent hs => exact abandoned_quiet h (quiet_dispatch hs)
  | turn t hj htr =>
    obtain ⟨l, hl, rfl⟩ := Option.map_eq_some_iff.mp htr
    intro p hp
    have hclosed : s.traffic.loop.ctx.closed = true :=
      closed_of_abandoned h hp (by rw [hj]; rfl)
    refine ⟨.inr ((Loop.turn_frame hl).1.trans hclosed), ?_⟩
    simp only [settled, Loop.started_of_closed hclosed, Option.toList_none, List.append_nil]
    exact (h p hp).2
  | dispose hj =>
    intro p hp
    simp only at hp
    split at hp
    · cases hp
      refine ⟨.inl rfl, fun i hi ↦ ?_⟩
      have hi : i ∈ s.pending := hi
      simp only [pending, List.mem_filter, List.mem_range, decide_eq_true_eq] at hi
      exact hi
    · exact ⟨.inl rfl, (h p hp).2⟩
  | destroy hj | cancelDone hj => exact abandoned_tearing h (.inl rfl) rfl rfl rfl
  | cancelStep obs hj _ hc =>
    have hq := quiet_cancelled hc
    exact abandoned_tearing h (.inl rfl) hq.pending hq.promises hq.settled
  | closeContext hj htr =>
    cases Traffic.stepped htr
    exact abandoned_tearing h (.inr (AsyncContext.closed_close _)) rfl rfl rfl

/-- `getStats()` over every interleaving. Each callback is called at most once, and no observer
is destroyed while it owns its callback. Once `dispose()` has returned and the drain it was
called from, if any, is over, the promises that were pending when it was called are all settled
exactly if there were none: `Dispose` closes the context its cancellations were dispatched on. -/
theorem getStats_settles (s : StatsRoom) (h : machine.Reachable s) :
    s.settled.Nodup ∧
    (∀ o ob, s.observers[o]? = some ob → ob.callback ≠ none → s.Held o) ∧
    (∀ p, s.pendingAtDispose = some p → s.life ≠ .live → s.js = .idle →
      s.traffic.loop.drain = .idle → ((∀ i ∈ p, i ∈ s.settled) ↔ p = [])) := by
  have ht : Tokens s := by
    apply h.invariant
    · refine ⟨Machine.reachable_init _, fun _ ↦ Nat.zero_le _, fun _ _ ↦ rfl⟩
    · exact fun _ _ _ hi hs ↦ tokens_inv hi hs
  have ho : Owned s := by
    apply h.invariant
    · constructor <;> simp [machine, JsPc.todo]
    · exact fun _ _ _ hi hs ↦ owned_inv hi hs
  have ha : Abandoned s := by
    apply h.invariant
    · intro p hp
      cases hp
    · exact fun _ _ _ hi hs ↦ abandoned_inv hi hs
  refine ⟨?_, fun o ob hob hcb ↦ held_of_callback ho hob hcb, ?_⟩
  · rw [List.nodup_iff_count]
    exact fun i ↦ (count_settled_le ht i).trans (ht.once i)
  · intro p hp _ _ _
    obtain ⟨-, hk⟩ := ha p hp
    constructor
    · intro hall
      cases p with
      | nil => rfl
      | cons i p => exact absurd (hall i List.mem_cons_self) (hk i List.mem_cons_self).2
    · rintro rfl i hi
      cases hi

-- A report in flight, and a promise nobody has reported to when the Room is disposed.
private def disposedRun : List StatsAct :=
  [.getStats false true, .getStatsReturns, .dispose, .cancelStep 0, .cancelDone, .closeContext]

private def disposedRoom : StatsRoom :=
  ⟨⟨⟨(AsyncContext.create 0).close, .idle⟩, [.failed (some 0) "Room was disconnected"], []⟩,
    [⟨none, true⟩], [], [], .idle, .disposed, 1, [], some [0]⟩

private theorem disposedRoom_reachable : machine.Reachable disposedRoom :=
  ⟨disposedRun, rfl⟩

/-- The laws on a Room disposed under a pending promise. -/
theorem getStats_settles_disposed :
    ((∀ i ∈ [0], i ∈ disposedRoom.settled) ↔ [0] = []) :=
  (getStats_settles disposedRoom disposedRoom_reachable).2.2 [0] rfl (by decide) rfl rfl

/-- A promise pending when its Room is disposed is not settled: its cancellation is discarded. -/
theorem cancelled_unsettled : ¬ ∀ s, machine.Reachable s → ∀ p, s.pendingAtDispose = some p →
    s.life ≠ .live → s.js = .idle → s.traffic.loop.drain = .idle → ∀ i ∈ p, i ∈ s.settled := by
  intro h
  have hs := h disposedRoom disposedRoom_reachable [0] rfl (by decide) rfl rfl 0 (by decide)
  exact absurd hs (by decide)

end StatsRoom

end VideoNode.Room
