import Mathlib.Data.Rat.Defs
import VideoNode.Js.Emitter
import VideoNode.Lts.Machine

/-!
# Connecting to a Room

The promise of `connect()` in `lib/index.ts`, with the Room it builds as far as `lib/room.ts`
lets it matter: the native events `connected`, `connectFailure` and `disconnected`, the two
timers, and what the application does with the Room once it has it. The timer callback calls
the native `disconnect()` in the middle, which may run events before it returns or throws, so
it is two steps. `E` is what `liftTwilioError` makes of a native error; it is always an object,
so the `Error('Connection failed')` in its place is never made.
-/

namespace VideoNode.Room

open VideoNode.Js VideoNode.Lts

/-- The Room events `connect()` listens for. -/
inductive ConnectEvent where
  | connectFailure
  | disconnected
  deriving DecidableEq, Repr

/-- What `connect()` rejects with. -/
inductive Rejection (E : Type) where
  /-- The error of the `connectFailure` event. -/
  | connectFailure (error : E)
  /-- `RoomConnectTimeoutError`; `lib/index.ts:321–326`. -/
  | connectTimeout (message : String × ℚ × String)
  deriving DecidableEq

/-- `lib/index.ts:323–324`. -/
def Rejection.timedOut {E : Type} (timeoutMs : ℚ) : Rejection E :=
  .connectTimeout ("Timed out after ", timeoutMs, " ms connecting to the Room. " ++
    "Raise connectionTimeout, or pass 0 to wait indefinitely.")

/-- Who calls `dispose()` of the Room. -/
inductive Disposer where
  | onFailure
  | disposeOnce
  | application
  deriving DecidableEq, Repr

/-- What is called, by `connect()`, the Room and the event loop, in the order of the calls. -/
inductive Call (E : Type) where
  | resolve
  | reject (rejection : Rejection E)
  | dispose (disposer : Disposer)
  | disconnect
  | emit (event : ConnectEvent)
  /-- The callback of the grace timer. -/
  | grace
  /-- A listener of the application. -/
  | listener (n : Nat)
  deriving DecidableEq

/-- The functions that listen on the Room; those of the application say how they end. -/
inductive ConnectListener where
  | onFailure
  | disposeOnce
  | application (n : Nat) (ends : Completion)
  deriving DecidableEq, Repr

/-- Where the callback of the connection timer is. -/
inductive TimerPc where
  | waiting
  /-- Inside `timedOutRoom.disconnect()`; `lib/index.ts:335`. -/
  | disconnecting
  | done
  deriving DecidableEq, Repr

/-- The variables `connect()` closes over, `onConnected` of the Room's constructor, the Room's
listeners, and the timers of the event loop. -/
structure Connect (E : Type) where
  timeoutMs : ℚ
  timer : Bool
  settled : Bool
  disposed : Bool
  onConnected : Bool
  listeners : Emitter ConnectEvent ConnectListener
  pc : TimerPc
  timerArmed : Bool
  graceArmed : Bool
  calls : List (Call E)
  deriving DecidableEq

namespace Connect

variable {E : Type}

/-- What `connect()` leaves when it returns the promise; `lib/index.ts:258–347`. -/
def create (timeoutMs : ℚ) : Connect E where
  timeoutMs := timeoutMs
  timer := decide (0 < timeoutMs)
  settled := false
  disposed := false
  onConnected := true
  listeners := Emitter.empty.once .connectFailure .onFailure
  pc := .waiting
  timerArmed := decide (0 < timeoutMs)
  graceArmed := false
  calls := []

/-- One more call. -/
def log (s : Connect E) (c : Call E) : Connect E := { s with calls := s.calls ++ [c] }

/-- `clearTimer()`; `lib/index.ts:283–288`. -/
def clearTimer (s : Connect E) : Connect E :=
  if s.timer then { s with timer := false, timerArmed := false } else s

/-- `dispose()`; `lib/room.ts:402–423`, as far as the listeners go. -/
def dispose (s : Connect E) (disposer : Disposer) : Connect E :=
  { s.log (.dispose disposer) with listeners := s.listeners.removeAllListeners }

/-- `onFailure(error)`; `lib/index.ts:290–296`. -/
def onFailure (error : E) (s : Connect E) : Connect E :=
  if s.settled then s else
    (({ s with settled := true }.clearTimer).dispose .onFailure).log
      (.reject (.connectFailure error))

/-- The third argument of `new Room`; `lib/index.ts:298–304`. -/
def connected (s : Connect E) : Connect E :=
  if s.settled then s else
    let s := { s with settled := true }.clearTimer
    { s with listeners := s.listeners.removeListener .connectFailure .onFailure }.log .resolve

/-- `disposeOnce()`; `lib/index.ts:328–333`. -/
def disposeOnce (s : Connect E) : Connect E :=
  if s.disposed then s else { s with disposed := true }.dispose .disposeOnce

/-- The listeners of the Room. -/
def slot : Emitter.Slot (Connect E) ConnectEvent ConnectListener where
  read s := s.listeners
  write s m := { s with listeners := m }

/-- A listener is called; `error` is the argument of `connectFailure`. -/
def run (error : Option E) : ConnectListener → Connect E → Connect E × Completion
  | .onFailure, s => ((error.elim s fun error ↦ s.onFailure error), .returned)
  | .disposeOnce, s => (s.disposeOnce, .returned)
  | .application n ends, s => (s.log (.listener n), ends)

/-- `emit(event, …)` on the Room; what an emit throws goes to the native caller. -/
def emit (event : ConnectEvent) (error : Option E) (s : Connect E) : Connect E :=
  (Emitter.emit slot (run error) event (s.log (.emit event))).1

/-- The callback of the connection timer up to the call of `disconnect()`;
`lib/index.ts:311–335`. -/
def timerFires (s : Connect E) : Connect E :=
  let s := { s with timer := false, timerArmed := false }
  if s.settled then s else
    let s := { s with
      settled := true
      listeners := s.listeners.removeListener .connectFailure .onFailure }.log
        (.reject (.timedOut s.timeoutMs))
    { s with
      listeners := s.listeners.once .disconnected .disposeOnce
      pc := .disconnecting }.log .disconnect

/-- What the application has done with the Room. -/
inductive Use where
  | on (event : ConnectEvent) (n : Nat) (ends : Completion)
  | once (event : ConnectEvent) (n : Nat) (ends : Completion)
  | removeListener (event : ConnectEvent) (n : Nat) (ends : Completion)
  | removeAllListeners
  | dispose
  deriving DecidableEq, Repr

/-- A call of the application. -/
def use (s : Connect E) : Use → Connect E
  | .on event n ends => { s with listeners := s.listeners.on event (.application n ends) }
  | .once event n ends => { s with listeners := s.listeners.once event (.application n ends) }
  | .removeListener event n ends =>
    { s with listeners := s.listeners.removeListener event (.application n ends) }
  | .removeAllListeners => { s with listeners := s.listeners.removeAllListeners }
  | .dispose => s.dispose .application

end Connect

/-- What happens after `connect()` has returned the promise. -/
inductive ConnectAct (E : Type) where
  /-- The native event `connected`; seeding the participants may throw. -/
  | connected (seeded : Completion)
  /-- The native event `connectFailure`. -/
  | connectFailure (error : E)
  /-- The native event `disconnected`; ending the receivers may throw. -/
  | disconnected (released : Completion)
  | timer
  /-- The native `disconnect()` the timer callback has called is over; `lib/index.ts:336–341`. -/
  | disconnectEnds (ends : Completion)
  | grace
  /-- The application has the Room from the promise. -/
  | use (use : Connect.Use)
  deriving DecidableEq

namespace Connect

variable {E : Type} [DecidableEq E]

/-- One step. -/
def step (s : Connect E) : ConnectAct E → Option (Connect E)
  | .connected .returned =>
    if s.onConnected then some { s.connected with onConnected := false } else some s
  | .connected .threw => some s
  | .connectFailure error => some (s.emit .connectFailure (some error))
  | .disconnected .returned => some (s.emit .disconnected none)
  | .disconnected .threw => some s
  | .timer => if s.timerArmed then some s.timerFires else none
  | .disconnectEnds _ =>
    if s.pc = .disconnecting then some { s with pc := .done, graceArmed := true } else none
  | .grace =>
    if s.graceArmed then some ({ s with graceArmed := false }.log .grace).disposeOnce else none
  | .use use => if .resolve ∈ s.calls then some (s.use use) else none

/-- `connect()` with its timeout, and everything that can happen to its promise. -/
def machine (E : Type) [DecidableEq E] (timeoutMs : ℚ) :
    Machine (Connect E) (ConnectAct E) where
  init := create timeoutMs
  step := step

end Connect

end VideoNode.Room
