import VideoNode.Common.Delivery
import VideoNode.Js.Map
import VideoNode.Lts.Parties

/-!
# Closing a Room observer

`RoomObserverWrap` (`src/video/room_observer_wrap.{h,cpp}`) between the signaling thread, which
raises Room callbacks, and whoever calls `close()`. Each section under one of its three locks is one
step, and any number of calls are on their way at a time. An observer of a participant that nobody
closes keeps the events it buffers for ever.
-/

namespace VideoNode.Remote

open VideoNode.Js VideoNode.Common VideoNode.Lts

/-- Where a call is, between two of its sections; `src/video/room_observer_wrap.cpp`. -/
inductive ObserverPc (Sid E : Type) where
  /-- `onConnected` has created an observer; line 113. -/
  | created (o : Nat) (event : E)
  /-- Before the first check of `dispatchEvent`; line 94. -/
  | entered (event : E)
  /-- Before the lock of `dispatchEvent`; line 96. -/
  | checked (event : E)
  /-- `onParticipantDisconnected` has its observer; line 175. -/
  | forgetting (sid : Sid)
  /-- `close()` has set `closed_`; line 32. -/
  | swapping
  /-- `close()` has these observers left to close; line 40. -/
  | closing (observers : List Nat)
  /-- Line 43. -/
  | swappingLocal
  /-- Line 48. -/
  | closingLocal (o : Option Nat)
  /-- Line 52. -/
  | closingContext
  | done
  deriving DecidableEq, Repr

namespace ObserverPc

variable {Sid E : Type}

/-- `close()` has not emptied the map of observers yet. -/
def isSwapping : ObserverPc Sid E → Bool
  | .swapping => true
  | _ => false

/-- `close()` has not taken the observer of the local participant yet. -/
def beforeLocal : ObserverPc Sid E → Bool
  | .swapping | .closing _ | .swappingLocal => true
  | _ => false

/-- `close()` has not closed the queue yet. -/
def isClosing : ObserverPc Sid E → Bool
  | .swapping | .closing _ | .swappingLocal | .closingLocal _ | .closingContext => true
  | _ => false

/-- The observer of the local participant that the call has to store or to close. -/
def localObserver : ObserverPc Sid E → Option Nat
  | .created o _ => some o
  | .closingLocal o => o
  | _ => none

/-- `onConnected` has an observer to store. -/
def isCreated : ObserverPc Sid E → Bool
  | .created _ _ => true
  | _ => false

/-- The observers of remote participants that the call has to close. -/
def remoteObservers : ObserverPc Sid E → List Nat
  | .closing observers => observers
  | _ => []

end ObserverPc

/-- Members of `RoomObserverWrap`, the `closed_` of every observer of the local participant and of
remote ones in the order they were created, the calls, and what came of it: `dropped` are local
observers that another one replaced, `forgotten` remote ones that left the map otherwise than by
`close()`, and `late` those created after `close()` had emptied it. `emitted` are the events
`roomWrap_` emitted. -/
structure RoomObserver (Sid E : Type) where
  closed : Bool
  roomWrap : Bool
  participantObservers : JsMap Sid (Nat × Nat)
  localParticipantObserver : Option Nat
  context : Traffic E
  locals : List Bool
  remotes : List Bool
  calls : List (ObserverPc Sid E)
  dropped : List Nat
  forgotten : List Nat
  late : List Nat
  emitted : List E

/-- What the signaling thread, the JS thread and the wraps do. -/
inductive RoomObserverAct (Sid E : Type) where
  /-- The native Room has a local participant or not. -/
  | onConnected (localParticipant : Bool) (event : E)
  /-- A callback that names a participant, which `p` is. -/
  | onParticipant (sid : Sid) (p : Nat) (event : E)
  | onParticipantDisconnected (sid : Sid) (p : Nat)
  /-- Any other callback, or the queue of a participant getting to a disconnect. -/
  | dispatchEvent (event : E)
  /-- A read of `room.participants` or `room.dominantSpeaker`. -/
  | getOrCreate (sid : Sid) (p : Nat)
  | close
  /-- A wrap closes the observer it is bound to. -/
  | closeRemote (o : Nat)
  | closeLocal (o : Nat)
  /-- Call `i` gets on. -/
  | run (i : Nat)
  | turn (t : Turn)

namespace RoomObserver

variable {Sid E : Type} [DecidableEq Sid]

/-- The constructor; `src/video/room_observer_wrap.cpp:9–13`. -/
def create : RoomObserver Sid E where
  closed := false
  roomWrap := true
  participantObservers := .empty
  localParticipantObserver := none
  context := ⟨.create 0, [], []⟩
  locals := []
  remotes := []
  calls := []
  dropped := []
  forgotten := []
  late := []
  emitted := []

/-- A call begins. -/
def call (s : RoomObserver Sid E) (pc : ObserverPc Sid E) : RoomObserver Sid E :=
  { s with calls := s.calls ++ [pc] }

/-- Call `i` is now there. -/
def goto (s : RoomObserver Sid E) (i : Nat) (pc : ObserverPc Sid E) : RoomObserver Sid E :=
  { s with calls := s.calls.set i pc }

/-- Whether `close()` has emptied the map. -/
def swapped (s : RoomObserver Sid E) : Bool := s.closed && !s.calls.any ObserverPc.isSwapping

/-- `CreateObserver` and the assignment to the map; lines 69–71. -/
def installObserver (s : RoomObserver Sid E) (sid : Sid) (p : Nat) : RoomObserver Sid E :=
  { s with
    remotes := s.remotes ++ [false]
    participantObservers := s.participantObservers.set sid (p, s.remotes.length)
    late := if s.swapped then s.late ++ [s.remotes.length] else s.late }

/-- `ForgetParticipantObserver`; `src/video/room_observer_wrap.cpp:74–77`. -/
def forgetParticipantObserver (s : RoomObserver Sid E) (sid : Sid) : RoomObserver Sid E :=
  { s with
    participantObservers := s.participantObservers.delete sid
    forgotten := s.forgotten ++
      ((s.participantObservers.get sid).map Prod.snd).toList }

/-- `GetOrCreateParticipantObserver`; `src/video/room_observer_wrap.cpp:55–72`. -/
def getOrCreateParticipantObserver (s : RoomObserver Sid E) (sid : Sid) (p : Nat) :
    RoomObserver Sid E :=
  match s.participantObservers.get sid with
  | some (q, o) =>
    if q = p ∧ s.remotes[o]? = some false then s
    else (s.forgetParticipantObserver sid).installObserver sid p
  | none => s.installObserver sid p

/-- The first section of `close()`; `src/video/room_observer_wrap.cpp:23–31`. -/
def close (s : RoomObserver Sid E) : RoomObserver Sid E :=
  if s.closed then s else { s with closed := true, roomWrap := false }.call .swapping

/-- `onConnected` up to its lock; `src/video/room_observer_wrap.cpp:109–113`. -/
def onConnected (s : RoomObserver Sid E) (localParticipant : Bool) (event : E) :
    RoomObserver Sid E :=
  if localParticipant then
    { s with locals := s.locals ++ [false] }.call (.created s.locals.length event)
  else s.call (.entered event)

/-- Call `i` gets on by one section. -/
def run (s : RoomObserver Sid E) (i : Nat) : ObserverPc Sid E → Option (RoomObserver Sid E)
  | .created o event =>
    if s.closed then some ({ s with locals := s.locals.set o true }.goto i .done)
    else some ({ s with
      localParticipantObserver := some o
      dropped := s.dropped ++ s.localParticipantObserver.toList }.goto i (.entered event))
  | .entered event => some (s.goto i (if s.closed then .done else .checked event))
  | .checked event =>
    if s.closed ∨ s.roomWrap = false then some (s.goto i .done)
    else some ({ s with context := s.context.dispatch event }.goto i .done)
  | .forgetting sid => some ((s.forgetParticipantObserver sid).goto i .done)
  | .swapping =>
    some ({ s with participantObservers := .empty }.goto i
      (.closing (s.participantObservers.entries.map fun (e : Sid × Nat × Nat) ↦ e.2.2)))
  | .closing [] => some (s.goto i .swappingLocal)
  | .closing (o :: observers) =>
    some ({ s with remotes := s.remotes.set o true }.goto i (.closing observers))
  | .swappingLocal =>
    some ({ s with localParticipantObserver := none }.goto i
      (.closingLocal s.localParticipantObserver))
  | .closingLocal none => some (s.goto i .closingContext)
  | .closingLocal (some o) =>
    some ({ s with locals := s.locals.set o true }.goto i .closingContext)
  | .closingContext =>
    (s.context.step .close).map fun context ↦ { s with context := context }.goto i .done
  | .done => none

/-- A step through the drain of Room events; `src/video/room_observer_wrap.cpp:101–106`. -/
def turn (s : RoomObserver Sid E) (t : Turn) : Option (RoomObserver Sid E) :=
  (s.context.step (.turn t)).map fun context ↦
    { s with
      context := context
      emitted :=
        if s.closed ∨ s.roomWrap = false then s.emitted
        else s.emitted ++ (s.context.loop.started t).toList }

/-- One step. -/
def step (s : RoomObserver Sid E) : RoomObserverAct Sid E → Option (RoomObserver Sid E)
  | .onConnected localParticipant event => some (s.onConnected localParticipant event)
  | .onParticipant sid p event =>
    some ((s.getOrCreateParticipantObserver sid p).call (.entered event))
  | .onParticipantDisconnected sid p =>
    some ((s.getOrCreateParticipantObserver sid p).call (.forgetting sid))
  | .dispatchEvent event => some (s.call (.entered event))
  | .getOrCreate sid p => some (s.getOrCreateParticipantObserver sid p)
  | .close => some s.close
  | .closeRemote o => some { s with remotes := s.remotes.set o true }
  | .closeLocal o => some { s with locals := s.locals.set o true }
  | .run i => s.calls[i]?.bind (s.run i)
  | .turn t => s.turn t

/-- A new observer, and every interleaving of its calls. -/
def machine (Sid E : Type) [DecidableEq Sid] :
    Machine (RoomObserver Sid E) (RoomObserverAct Sid E) where
  init := create
  step := step

/-- Who will close what: an observer that is open was let go of on purpose, or it is where
`close()` still comes by, or some call has it in hand. -/
structure Kept (s : RoomObserver Sid E) : Prop where
  wrap : s.roomWrap = !s.closed
  context : (Traffic.machine E 0).Reachable s.context
  shut : s.closed = true →
    s.context.loop.ctx.closed = true ∨ ∃ pc ∈ s.calls, pc.isClosing = true
  slot : s.closed = true →
    s.localParticipantObserver = none ∨ ∃ pc ∈ s.calls, pc.beforeLocal = true
  locals : ∀ o : Nat, s.locals[o]? = some false → o ∈ s.dropped ∨
    s.localParticipantObserver = some o ∨ ∃ pc ∈ s.calls, pc.localObserver = some o
  remotes : ∀ o : Nat, s.remotes[o]? = some false → o ∈ s.forgotten ∨
    (∃ sid p, s.participantObservers.get sid = some (p, o)) ∨
      ∃ pc ∈ s.calls, o ∈ pc.remoteObservers
  late : s.closed = true → (∃ pc ∈ s.calls, pc.isSwapping = true) ∨
    ∀ sid p o, s.participantObservers.get sid = some (p, o) → o ∈ s.late

omit [DecidableEq Sid] in
private theorem survives {s : RoomObserver Sid E} {i : Nat} {pc pc' : ObserverPc Sid E}
    (hi : s.calls[i]? = some pc) {r : ObserverPc Sid E → Prop} (hr : r pc → r pc')
    (h : ∃ c ∈ s.calls, r c) : ∃ c ∈ s.calls.set i pc', r c := by
  obtain ⟨c, hc, hrc⟩ := h
  rcases Parties.eq_or_mem_set (b := pc') hi hc with rfl | hc
  · exact ⟨pc', List.mem_of_getElem? (Parties.getElem?_set_self hi), hr hrc⟩
  · exact ⟨c, hc, hrc⟩

/-- A call that begins takes nothing from the others. -/
theorem Kept.call {s : RoomObserver Sid E} (h : s.Kept) (pc : ObserverPc Sid E) :
    (s.call pc).Kept := by
  have hm : ∀ {r : ObserverPc Sid E → Prop}, (∃ c ∈ s.calls, r c) →
      ∃ c ∈ s.calls ++ [pc], r c := by
    rintro r ⟨c, hc, hr⟩
    exact ⟨c, List.mem_append_left _ hc, hr⟩
  exact ⟨h.wrap, h.context, fun hc ↦ (h.shut hc).imp_right hm, fun hc ↦ (h.slot hc).imp_right hm,
    fun o ho ↦ (h.locals o ho).imp_right (Or.imp_right hm),
    fun o ho ↦ (h.remotes o ho).imp_right (Or.imp_right hm),
    fun hc ↦ (h.late hc).imp_left hm⟩

/-- A call that goes on without letting go of anything. -/
theorem Kept.goto {s : RoomObserver Sid E} (h : s.Kept) {i : Nat} {pc pc' : ObserverPc Sid E}
    (hi : s.calls[i]? = some pc) (hc : pc.isClosing = true → pc'.isClosing = true)
    (hl : pc.beforeLocal = true → pc'.beforeLocal = true)
    (hs : pc.isSwapping = true → pc'.isSwapping = true)
    (ho : ∀ o, pc.localObserver = some o → pc'.localObserver = some o)
    (hr : ∀ o ∈ pc.remoteObservers, o ∈ pc'.remoteObservers) : (s.goto i pc').Kept :=
  ⟨h.wrap, h.context, fun hcl ↦ (h.shut hcl).imp_right (survives hi hc),
    fun hcl ↦ (h.slot hcl).imp_right (survives hi hl),
    fun o hop ↦ (h.locals o hop).imp_right (Or.imp_right (survives hi (ho o))),
    fun o hop ↦ (h.remotes o hop).imp_right (Or.imp_right (survives hi (hr o))),
    fun hcl ↦ (h.late hcl).imp_left (survives hi hs)⟩

/-- A call that has nothing in hand and is not one of `close()` can go anywhere. -/
theorem Kept.goto_of_free {s : RoomObserver Sid E} (h : s.Kept) {i : Nat}
    {pc : ObserverPc Sid E} (hi : s.calls[i]? = some pc) (hc : pc.isClosing = false)
    (hl : pc.localObserver = none) (pc' : ObserverPc Sid E) : (s.goto i pc').Kept := by
  apply h.goto hi
  all_goals cases pc <;> simp_all [ObserverPc.isClosing, ObserverPc.beforeLocal,
    ObserverPc.isSwapping, ObserverPc.localObserver, ObserverPc.remoteObservers]

/-- Forgetting an observer lets go of it and of no other. -/
theorem Kept.forget {s : RoomObserver Sid E} (h : s.Kept) (sid : Sid) :
    (s.forgetParticipantObserver sid).Kept := by
  refine ⟨h.wrap, h.context, h.shut, h.slot, h.locals, ?_, ?_⟩
  · intro o ho
    simp only [forgetParticipantObserver, List.mem_append, JsMap.get_delete]
    rcases h.remotes o ho with hf | ⟨sid', p, hg⟩ | hc
    · exact .inl (.inl hf)
    · by_cases hs : sid' = sid
      · subst hs
        exact .inl (.inr (by simp [hg]))
      · exact .inr (.inl ⟨sid', p, by rw [if_neg hs]; exact hg⟩)
    · exact .inr (.inr hc)
  · intro hc
    refine (h.late hc).imp_right fun hl sid' p o hg ↦ ?_
    simp only [forgetParticipantObserver, JsMap.get_delete] at hg
    split at hg
    · cases hg
    · exact hl sid' p o hg

/-- A new observer is in the map, and late where nobody will empty it any more. -/
theorem Kept.install {s : RoomObserver Sid E} (h : s.Kept) {sid : Sid} (p : Nat)
    (hn : s.participantObservers.get sid = none) : (s.installObserver sid p).Kept := by
  refine ⟨h.wrap, h.context, h.shut, h.slot, h.locals, ?_, ?_⟩
  · intro o ho
    simp only [installObserver, JsMap.get_set]
    rcases Parties.getElem?_concat ho with ⟨rfl, -⟩ | ho
    · exact .inr (.inl ⟨sid, p, if_pos rfl⟩)
    · rcases h.remotes o ho with hf | ⟨sid', q, hg⟩ | hc
      · exact .inl hf
      · refine .inr (.inl ⟨sid', q, ?_⟩)
        rw [if_neg]
        · exact hg
        · rintro rfl
          rw [hn] at hg
          cases hg
      · exact .inr (.inr hc)
  · intro hc
    have hc : s.closed = true := hc
    rcases h.late hc with hs | hl
    · exact .inl hs
    · cases ha : s.calls.any ObserverPc.isSwapping with
      | true => exact .inl (List.any_eq_true.mp ha)
      | false =>
        right
        intro sid' q o hg
        simp only [installObserver, swapped, hc, ha, Bool.not_false, Bool.and_self, if_true,
          List.mem_append, List.mem_singleton]
        simp only [installObserver, JsMap.get_set] at hg
        split at hg
        · cases hg
          exact .inr rfl
        · exact .inl (hl sid' q o hg)

/-- Looking up an observer keeps account of all of them. -/
theorem Kept.getOrCreate {s : RoomObserver Sid E} (h : s.Kept) (sid : Sid) (p : Nat) :
    (s.getOrCreateParticipantObserver sid p).Kept := by
  unfold getOrCreateParticipantObserver
  split
  · split
    · exact h
    · refine (h.forget sid).install p ?_
      simp [forgetParticipantObserver, JsMap.get_delete]
  · next hn => exact h.install p hn

private theorem Kept.withContext {s : RoomObserver Sid E} (h : s.Kept) {context : Traffic E}
    (emitted : List E) (hr : (Traffic.machine E 0).Reachable context)
    (hc : s.context.loop.ctx.closed = true → context.loop.ctx.closed = true) :
    Kept { s with context := context, emitted := emitted } :=
  ⟨h.wrap, hr, fun hcl ↦ (h.shut hcl).imp_left hc, h.slot, h.locals, h.remotes, h.late⟩

private theorem Kept.closeRemotes {s : RoomObserver Sid E} (h : s.Kept) {remotes : List Bool}
    (hr : ∀ o : Nat, remotes[o]? = some false → s.remotes[o]? = some false) :
    Kept { s with remotes := remotes } :=
  ⟨h.wrap, h.context, h.shut, h.slot, h.locals, fun o ho ↦ h.remotes o (hr o ho), h.late⟩

private theorem Kept.closeLocals {s : RoomObserver Sid E} (h : s.Kept) {locals : List Bool}
    (hl : ∀ o : Nat, locals[o]? = some false → s.locals[o]? = some false) :
    Kept { s with locals := locals } :=
  ⟨h.wrap, h.context, h.shut, h.slot, fun o ho ↦ h.locals o (hl o ho), h.remotes, h.late⟩

private theorem open_of_set {l : List Bool} {o m : Nat} (h : (l.set o true)[m]? = some false) :
    m ≠ o ∧ l[m]? = some false := by
  rw [List.getElem?_set] at h
  split at h
  · split at h <;> cases h
  · next hne => exact ⟨fun he ↦ hne he.symm, h⟩

private theorem locals_of_set {s : RoomObserver Sid E} (h : s.Kept) {i o m : Nat}
    {pc pc' : ObserverPc Sid E} (hi : s.calls[i]? = some pc) (hpc : pc.localObserver = some o)
    (hm : (s.locals.set o true)[m]? = some false) : m ∈ s.dropped ∨
      s.localParticipantObserver = some m ∨ ∃ c ∈ s.calls.set i pc', c.localObserver = some m := by
  obtain ⟨hne, hm⟩ := open_of_set hm
  refine (h.locals m hm).imp_right (Or.imp_right (survives hi fun he ↦ ?_))
  rw [hpc] at he
  cases he
  exact absurd rfl hne

private theorem kept_created {s : RoomObserver Sid E} (h : s.Kept) {i o : Nat} {event : E}
    (hi : s.calls[i]? = some (.created o event)) {s' : RoomObserver Sid E}
    (hs : s.run i (.created o event) = some s') : s'.Kept := by
  simp only [run] at hs
  split at hs
  · next hc =>
    cases hs
    refine ⟨h.wrap, h.context, fun hcl ↦ (h.shut hcl).imp_right (survives hi (by simp
      [ObserverPc.isClosing])), fun hcl ↦ (h.slot hcl).imp_right (survives hi (by simp
      [ObserverPc.beforeLocal])), ?_, fun m hm ↦ (h.remotes m hm).imp_right (Or.imp_right
      (survives hi (by simp [ObserverPc.remoteObservers]))), fun hcl ↦ (h.late hcl).imp_left
      (survives hi (by simp [ObserverPc.isSwapping]))⟩
    exact fun m hm ↦ locals_of_set h hi rfl hm
  · next hc =>
    cases hs
    have hc : s.closed = false := by simpa using hc
    refine ⟨h.wrap, h.context, fun hcl ↦ (h.shut hcl).imp_right (survives hi (by simp
      [ObserverPc.isClosing])), fun hcl ↦ absurd (hc.symm.trans hcl) Bool.false_ne_true, ?_,
      fun m hm ↦ (h.remotes m hm).imp_right (Or.imp_right
      (survives hi (by simp [ObserverPc.remoteObservers]))), fun hcl ↦ (h.late hcl).imp_left
      (survives hi (by simp [ObserverPc.isSwapping]))⟩
    intro m hm
    simp only [goto, List.mem_append, Option.mem_toList]
    rcases h.locals m hm with hd | hl | ⟨pc, hpc, hm'⟩
    · exact .inl (.inl hd)
    · exact .inl (.inr hl)
    · rcases Parties.eq_or_mem_set (b := .entered event) hi hpc with rfl | hpc
      · cases hm'
        exact .inr (.inl rfl)
      · exact .inr (.inr ⟨pc, hpc, hm'⟩)

private theorem kept_swapping {s : RoomObserver Sid E} (h : s.Kept) {i : Nat}
    (hi : s.calls[i]? = some .swapping) : Kept ({ s with participantObservers := .empty }.goto i
      (.closing (s.participantObservers.entries.map fun (e : Sid × Nat × Nat) ↦ e.2.2))) := by
  refine ⟨h.wrap, h.context, fun hcl ↦ (h.shut hcl).imp_right (survives hi fun _ ↦ rfl),
    fun hcl ↦ (h.slot hcl).imp_right (survives hi fun _ ↦ rfl),
    fun o ho ↦ (h.locals o ho).imp_right (Or.imp_right (survives hi (by simp
      [ObserverPc.localObserver]))), ?_, fun _ ↦ .inr (by simp [goto])⟩
  intro o ho
  rcases h.remotes o ho with hf | ⟨sid, p, hg⟩ | hc
  · exact .inl hf
  · right
    right
    refine ⟨_, List.mem_of_getElem? (Parties.getElem?_set_self hi), ?_⟩
    exact List.mem_map_of_mem (f := fun (e : Sid × Nat × Nat) ↦ e.2.2) (JsMap.mem_entries.mpr hg)
  · exact .inr (.inr (survives hi (by simp [ObserverPc.remoteObservers]) hc))

private theorem kept_closing {s : RoomObserver Sid E} (h : s.Kept) {i o : Nat}
    {observers : List Nat} (hi : s.calls[i]? = some (.closing (o :: observers))) :
    Kept ({ s with remotes := s.remotes.set o true }.goto i (.closing observers)) := by
  refine ⟨h.wrap, h.context, fun hcl ↦ (h.shut hcl).imp_right (survives hi fun _ ↦ rfl),
    fun hcl ↦ (h.slot hcl).imp_right (survives hi fun _ ↦ rfl),
    fun m hm ↦ (h.locals m hm).imp_right (Or.imp_right (survives hi (by simp
      [ObserverPc.localObserver]))), ?_, fun hcl ↦ (h.late hcl).imp_left (survives hi (by simp
      [ObserverPc.isSwapping]))⟩
  intro m hm
  obtain ⟨hne, hm⟩ := open_of_set hm
  refine (h.remotes m hm).imp_right (Or.imp_right (survives hi ?_))
  intro hmem
  exact (List.mem_cons.mp hmem).resolve_left hne

private theorem kept_swappingLocal {s : RoomObserver Sid E} (h : s.Kept) {i : Nat}
    (hi : s.calls[i]? = some .swappingLocal) :
    Kept ({ s with localParticipantObserver := none }.goto i
      (.closingLocal s.localParticipantObserver)) := by
  refine ⟨h.wrap, h.context, fun hcl ↦ (h.shut hcl).imp_right (survives hi fun _ ↦ rfl),
    fun _ ↦ .inl rfl, ?_, fun m hm ↦ (h.remotes m hm).imp_right (Or.imp_right (survives hi
      (by simp [ObserverPc.remoteObservers]))), fun hcl ↦ (h.late hcl).imp_left (survives hi
      (by simp [ObserverPc.isSwapping]))⟩
  intro o ho
  rcases h.locals o ho with hd | hl | hc
  · exact .inl hd
  · exact .inr (.inr ⟨_, List.mem_of_getElem? (Parties.getElem?_set_self hi), hl⟩)
  · exact .inr (.inr (survives hi (by simp [ObserverPc.localObserver]) hc))

private theorem kept_closingLocal {s : RoomObserver Sid E} (h : s.Kept) {i o : Nat}
    (hi : s.calls[i]? = some (.closingLocal (some o))) :
    Kept ({ s with locals := s.locals.set o true }.goto i .closingContext) := by
  refine ⟨h.wrap, h.context, fun hcl ↦ (h.shut hcl).imp_right (survives hi fun _ ↦ rfl),
    fun hcl ↦ (h.slot hcl).imp_right (survives hi (by simp [ObserverPc.beforeLocal])), ?_,
    fun m hm ↦ (h.remotes m hm).imp_right (Or.imp_right (survives hi (by simp
      [ObserverPc.remoteObservers]))), fun hcl ↦ (h.late hcl).imp_left (survives hi (by simp
      [ObserverPc.isSwapping]))⟩
  exact fun m hm ↦ locals_of_set h hi rfl hm

private theorem kept_closingContext {s : RoomObserver Sid E} (h : s.Kept) {i : Nat}
    (hi : s.calls[i]? = some .closingContext) {context : Traffic E}
    (hs : s.context.step .close = some context) :
    Kept ({ s with context := context }.goto i .done) := by
  have hc : context.loop.ctx.closed = true := by
    cases Traffic.stepped hs
    exact AsyncContext.closed_close _
  exact ⟨h.wrap, h.context.step (a := .close) hs, fun _ ↦ .inl hc,
    fun hcl ↦ (h.slot hcl).imp_right (survives hi (by simp [ObserverPc.beforeLocal])),
    fun m hm ↦ (h.locals m hm).imp_right (Or.imp_right (survives hi (by simp
      [ObserverPc.localObserver]))),
    fun m hm ↦ (h.remotes m hm).imp_right (Or.imp_right (survives hi (by simp
      [ObserverPc.remoteObservers]))),
    fun hcl ↦ (h.late hcl).imp_left (survives hi (by simp [ObserverPc.isSwapping]))⟩

private theorem dispatch_context {s : RoomObserver Sid E} (h : s.Kept) (event : E) :
    (Traffic.machine E 0).Reachable (s.context.dispatch event) ∧
      (s.context.loop.ctx.closed = true →
        (s.context.dispatch event).loop.ctx.closed = true) := by
  unfold Traffic.dispatch
  cases hs : s.context.step (.dispatch event) with
  | none => exact ⟨h.context, id⟩
  | some context =>
    refine ⟨h.context.step (a := .dispatch event) hs, fun hc ↦ ?_⟩
    cases Traffic.stepped hs
    exact (AsyncContext.dispatch_frame _ _).1.trans hc

/-- Every section of a call keeps account of all observers. -/
theorem Kept.run {s s' : RoomObserver Sid E} (h : s.Kept) {i : Nat} {pc : ObserverPc Sid E}
    (hi : s.calls[i]? = some pc) (hs : s.run i pc = some s') : s'.Kept := by
  cases pc with
  | created o event => exact kept_created h hi hs
  | entered event =>
    cases hs
    exact h.goto_of_free hi rfl rfl _
  | checked event =>
    obtain ⟨hr, hc⟩ := dispatch_context h event
    simp only [RoomObserver.run] at hs
    split at hs
    · cases hs
      exact h.goto_of_free hi rfl rfl _
    · cases hs
      exact (h.withContext s.emitted hr hc).goto_of_free hi rfl rfl _
  | forgetting sid =>
    cases hs
    exact (h.forget sid).goto_of_free hi rfl rfl _
  | swapping =>
    cases hs
    exact kept_swapping h hi
  | closing observers =>
    cases observers with
    | nil =>
      cases hs
      exact h.goto hi (fun _ ↦ rfl) (fun _ ↦ rfl) (by simp [ObserverPc.isSwapping])
        (by simp [ObserverPc.localObserver]) (by simp [ObserverPc.remoteObservers])
    | cons o observers =>
      cases hs
      exact kept_closing h hi
  | swappingLocal =>
    cases hs
    exact kept_swappingLocal h hi
  | closingLocal o =>
    cases o with
    | none =>
      cases hs
      exact h.goto hi (fun _ ↦ rfl) (by simp [ObserverPc.beforeLocal])
        (by simp [ObserverPc.isSwapping]) (by simp [ObserverPc.localObserver])
        (by simp [ObserverPc.remoteObservers])
    | some o =>
      cases hs
      exact kept_closingLocal h hi
  | closingContext =>
    obtain ⟨context, hc, rfl⟩ := Option.map_eq_some_iff.mp hs
    exact kept_closingContext h hi hc
  | done => cases hs

private theorem Kept.close {s : RoomObserver Sid E} (h : s.Kept) : s.close.Kept := by
  unfold RoomObserver.close
  split
  · exact h
  · have hm : ObserverPc.swapping ∈ s.calls ++ [ObserverPc.swapping] := by simp
    refine ⟨rfl, h.context, fun _ ↦ .inr ⟨_, hm, rfl⟩, fun _ ↦ .inr ⟨_, hm, rfl⟩, ?_, ?_,
      fun _ ↦ .inl ⟨_, hm, rfl⟩⟩
    · intro o ho
      refine (h.locals o ho).imp_right (Or.imp_right ?_)
      rintro ⟨pc, hpc, hl⟩
      exact ⟨pc, List.mem_append_left _ hpc, hl⟩
    · intro o ho
      refine (h.remotes o ho).imp_right (Or.imp_right ?_)
      rintro ⟨pc, hpc, hl⟩
      exact ⟨pc, List.mem_append_left _ hpc, hl⟩

private theorem Kept.onConnected {s : RoomObserver Sid E} (h : s.Kept) (localParticipant : Bool)
    (event : E) : (s.onConnected localParticipant event).Kept := by
  unfold RoomObserver.onConnected
  split
  · have hc := h.call (.created s.locals.length event)
    refine ⟨hc.wrap, hc.context, hc.shut, hc.slot, ?_, hc.remotes, hc.late⟩
    intro o ho
    rcases Parties.getElem?_concat ho with ⟨rfl, -⟩ | ho
    · exact .inr (.inr ⟨_, List.mem_append_right _ (List.mem_singleton_self _), rfl⟩)
    · exact hc.locals o ho
  · exact h.call _

/-- Every step keeps account of all observers. -/
theorem Kept.step {s s' : RoomObserver Sid E} {a : RoomObserverAct Sid E} (h : s.Kept)
    (hs : s.step a = some s') : s'.Kept := by
  cases a with
  | onConnected localParticipant event =>
    cases hs
    exact h.onConnected localParticipant event
  | onParticipant sid p event =>
    cases hs
    exact (h.getOrCreate sid p).call _
  | onParticipantDisconnected sid p =>
    cases hs
    exact (h.getOrCreate sid p).call _
  | dispatchEvent event =>
    cases hs
    exact h.call _
  | getOrCreate sid p =>
    cases hs
    exact h.getOrCreate sid p
  | close =>
    cases hs
    exact h.close
  | closeRemote o =>
    cases hs
    exact h.closeRemotes fun m hm ↦ (open_of_set hm).2
  | closeLocal o =>
    cases hs
    exact h.closeLocals fun m hm ↦ (open_of_set hm).2
  | run i =>
    obtain ⟨pc, hi, hr⟩ := Option.bind_eq_some_iff.mp hs
    exact h.run hi hr
  | turn t =>
    obtain ⟨context, hc, rfl⟩ := Option.map_eq_some_iff.mp hs
    refine h.withContext _ (h.context.step (a := .turn t) hc) fun hcl ↦ ?_
    exact (Traffic.step_turn hc).2.2.1.trans hcl

/-- All observers are accounted for in every interleaving. -/
theorem kept_of_reachable {s : RoomObserver Sid E} (h : (machine Sid E).Reachable s) : s.Kept := by
  refine h.invariant ⟨rfl, Machine.reachable_init _, ?_, ?_, ?_, ?_, ?_⟩
    fun _ _ _ hk hs ↦ hk.step hs
  all_goals simp [machine, create]

private theorem getOrCreate_frame (s : RoomObserver Sid E) (sid : Sid) (p : Nat) :
    (s.getOrCreateParticipantObserver sid p).closed = s.closed ∧
      (s.getOrCreateParticipantObserver sid p).emitted = s.emitted ∧
      (s.getOrCreateParticipantObserver sid p).context = s.context ∧
      (s.getOrCreateParticipantObserver sid p).locals = s.locals ∧
      (s.getOrCreateParticipantObserver sid p).dropped = s.dropped ∧
      (s.getOrCreateParticipantObserver sid p).localParticipantObserver =
        s.localParticipantObserver ∧
      (s.getOrCreateParticipantObserver sid p).calls = s.calls := by
  unfold getOrCreateParticipantObserver
  split
  · split <;> exact ⟨rfl, rfl, rfl, rfl, rfl, rfl, rfl⟩
  · exact ⟨rfl, rfl, rfl, rfl, rfl, rfl, rfl⟩

private theorem silent_run {s s' : RoomObserver Sid E} {i : Nat} {pc : ObserverPc Sid E}
    (hc : s.closed = true) (hs : s.run i pc = some s') :
    s'.closed = true ∧ s'.emitted = s.emitted ∧ s'.context.accepted = s.context.accepted := by
  cases pc with
  | created o event =>
    simp only [run] at hs
    rw [if_pos hc] at hs
    cases hs
    exact ⟨hc, rfl, rfl⟩
  | checked event =>
    simp only [run] at hs
    rw [if_pos (.inl hc)] at hs
    cases hs
    exact ⟨hc, rfl, rfl⟩
  | entered event | forgetting sid | swapping | swappingLocal =>
    cases hs
    exact ⟨hc, rfl, rfl⟩
  | closing observers => cases observers <;> cases hs <;> exact ⟨hc, rfl, rfl⟩
  | closingLocal o => cases o <;> cases hs <;> exact ⟨hc, rfl, rfl⟩
  | closingContext =>
    obtain ⟨context, hctx, rfl⟩ := Option.map_eq_some_iff.mp hs
    cases Traffic.stepped hctx
    exact ⟨hc, rfl, rfl⟩
  | done => cases hs

private theorem silent_step {s s' : RoomObserver Sid E} {a : RoomObserverAct Sid E}
    (hc : s.closed = true) (hs : s.step a = some s') :
    s'.closed = true ∧ s'.emitted = s.emitted ∧ s'.context.accepted = s.context.accepted := by
  cases a with
  | onConnected localParticipant event =>
    cases hs
    unfold onConnected
    split <;> exact ⟨hc, rfl, rfl⟩
  | onParticipant sid p event | onParticipantDisconnected sid p | getOrCreate sid p =>
    cases hs
    obtain ⟨hcl, he, hx, -⟩ := getOrCreate_frame s sid p
    exact ⟨hcl.trans hc, he, congrArg Traffic.accepted hx⟩
  | dispatchEvent event | closeRemote o | closeLocal o =>
    cases hs
    exact ⟨hc, rfl, rfl⟩
  | close =>
    cases hs
    simp [RoomObserver.close, hc]
  | run i =>
    obtain ⟨pc, -, hr⟩ := Option.bind_eq_some_iff.mp hs
    exact silent_run hc hr
  | turn t =>
    obtain ⟨context, hctx, rfl⟩ := Option.map_eq_some_iff.mp hs
    exact ⟨hc, by simp [hc], (Traffic.step_turn hctx).1⟩

/-- Whether `onConnected` has stored an observer before. -/
def stored (s : RoomObserver Sid E) : Nat :=
  if s.dropped = [] ∧ s.localParticipantObserver = none then 0 else 1

/-- Every observer of the local participant that was replaced, the last one stored and those to be
stored are different ones. -/
def Counted (s : RoomObserver Sid E) : Prop :=
  s.dropped.length + s.stored + s.calls.countP ObserverPc.isCreated ≤ s.locals.length

omit [DecidableEq Sid] in
private theorem counted_goto {s : RoomObserver Sid E} (h : s.Counted) {i : Nat}
    {pc : ObserverPc Sid E} (hi : s.calls[i]? = some pc) {q : ObserverPc Sid E}
    (hc : q.isCreated = false) {s' : RoomObserver Sid E} (hcalls : s'.calls = s.calls.set i q)
    (hl : s'.locals.length = s.locals.length)
    (hd : s'.dropped.length + s'.stored ≤ s.dropped.length + s.stored + pc.isCreated.toNat) :
    s'.Counted := by
  have hcount := Parties.countP_set (b := q) ObserverPc.isCreated hi
  rw [hc] at hcount
  unfold Counted at h ⊢
  rw [hcalls, hl]
  simp only [Bool.toNat_false] at hcount
  omega

private theorem counted_run {s s' : RoomObserver Sid E} {i : Nat} {pc : ObserverPc Sid E}
    (h : s.Counted) (hi : s.calls[i]? = some pc) (hs : s.run i pc = some s') : s'.Counted := by
  cases pc with
  | created o event =>
    simp only [run] at hs
    split at hs <;> cases hs
    · exact counted_goto h hi (q := .done) rfl rfl (List.length_set ..) (Nat.le_add_right _ _)
    · refine counted_goto h hi (q := .entered event) rfl rfl rfl ?_
      cases hl : s.localParticipantObserver <;> simp [stored, goto, hl, ObserverPc.isCreated]
  | entered event =>
    cases hs
    refine counted_goto h hi ?_ rfl rfl (Nat.le_add_right _ _)
    split <;> rfl
  | checked event =>
    simp only [run] at hs
    split at hs <;> cases hs <;>
      exact counted_goto h hi (q := .done) rfl rfl rfl (Nat.le_add_right _ _)
  | forgetting sid =>
    cases hs
    exact counted_goto h hi (q := .done) rfl rfl rfl (Nat.le_add_right _ _)
  | swapping =>
    cases hs
    exact counted_goto h hi rfl rfl rfl (Nat.le_add_right _ _)
  | closing observers =>
    cases observers <;> cases hs <;> exact counted_goto h hi rfl rfl rfl (Nat.le_add_right _ _)
  | swappingLocal =>
    cases hs
    refine counted_goto h hi rfl rfl rfl ?_
    simp only [stored, goto]
    split <;> split <;> simp_all
  | closingLocal o =>
    cases o <;> cases hs
    · exact counted_goto h hi rfl rfl rfl (Nat.le_add_right _ _)
    · exact counted_goto h hi rfl rfl (List.length_set ..) (Nat.le_add_right _ _)
  | closingContext =>
    obtain ⟨context, hctx, rfl⟩ := Option.map_eq_some_iff.mp hs
    exact counted_goto h hi (q := .done) rfl rfl rfl (Nat.le_add_right _ _)
  | done => cases hs

omit [DecidableEq Sid] in
private theorem counted_call {s : RoomObserver Sid E} (h : s.Counted) {pc : ObserverPc Sid E}
    (hc : pc.isCreated = false) : (s.call pc).Counted := by
  unfold Counted at h ⊢
  have hcount := Parties.countP_concat ObserverPc.isCreated s.calls pc
  rw [hc] at hcount
  simp only [call, hcount]
  exact h

private theorem counted_getOrCreate {s : RoomObserver Sid E} (h : s.Counted) (sid : Sid) (p : Nat) :
    (s.getOrCreateParticipantObserver sid p).Counted := by
  obtain ⟨-, -, -, hl, hd, hs, hc⟩ := getOrCreate_frame s sid p
  simpa [Counted, stored, hl, hd, hs, hc] using h

private theorem counted_step {s s' : RoomObserver Sid E} {a : RoomObserverAct Sid E}
    (h : s.Counted) (hs : s.step a = some s') : s'.Counted := by
  cases a with
  | onConnected localParticipant event =>
    cases hs
    unfold onConnected
    split
    · have hcount := Parties.countP_concat ObserverPc.isCreated s.calls
        (.created s.locals.length event)
      unfold Counted at h ⊢
      simp only [call, hcount, List.length_append, List.length_singleton, ObserverPc.isCreated,
        Bool.toNat_true]
      have hst : ∀ l c, stored { s with locals := l, calls := c } = s.stored := fun _ _ ↦ rfl
      rw [hst]
      omega
    · exact counted_call h rfl
  | onParticipant sid p event | onParticipantDisconnected sid p =>
    cases hs
    exact counted_call (counted_getOrCreate h sid p) rfl
  | dispatchEvent event =>
    cases hs
    exact counted_call h rfl
  | getOrCreate sid p =>
    cases hs
    exact counted_getOrCreate h sid p
  | close =>
    cases hs
    unfold close
    split
    · exact h
    · exact counted_call (s := { s with closed := true, roomWrap := false }) h rfl
  | closeRemote o =>
    cases hs
    exact h
  | closeLocal o =>
    cases hs
    unfold Counted at h ⊢
    rw [List.length_set]
    exact h
  | run i =>
    obtain ⟨pc, hi, hr⟩ := Option.bind_eq_some_iff.mp hs
    exact counted_run h hi hr
  | turn t =>
    obtain ⟨context, hctx, rfl⟩ := Option.map_eq_some_iff.mp hs
    exact h

private theorem counted_of_reachable {s : RoomObserver Sid E}
    (h : (machine Sid E).Reachable s) : s.Counted := by
  refine h.invariant ?_ fun _ _ _ hk hs ↦ counted_step hk hs
  simp [Counted, stored, machine, create]

/-- From `close()` on no event is queued or emitted, whatever calls are on their way. Once they have
all returned, the queue is closed and empty, no observer of the local participant is stored, and
every one is closed if `onConnected` was called once; and an observer of a remote participant is
open only if it had left the map before, or was created after `close()` emptied it. -/
theorem close_complete (s : RoomObserver Sid E) (h : (machine Sid E).Reachable s)
    (hc : s.closed = true) :
    (∀ (as : List (RoomObserverAct Sid E)) (t : RoomObserver Sid E),
      (machine Sid E).exec s as = some t → t.closed = true ∧ t.emitted = s.emitted ∧
        t.context.accepted = s.context.accepted) ∧
    ((∀ pc ∈ s.calls, pc = .done) →
      s.context.loop.ctx.closed = true ∧ s.context.loop.ctx.queue = [] ∧
      s.localParticipantObserver = none ∧
      (∀ o : Nat, s.locals[o]? = some false → o ∈ s.dropped) ∧
      (s.locals.length ≤ 1 → ∀ o : Nat, s.locals[o]? ≠ some false) ∧
      ∀ o : Nat, s.remotes[o]? = some false → o ∈ s.forgotten ∨ o ∈ s.late) := by
  have hk := kept_of_reachable h
  refine ⟨fun as t hr ↦ ?_, fun hd ↦ ?_⟩
  · refine Machine.exec_invariant (p := fun t : RoomObserver Sid E ↦ t.closed = true ∧
      t.emitted = s.emitted ∧ t.context.accepted = s.context.accepted) ?_ ⟨hc, rfl, rfl⟩ hr
    rintro u a u' ⟨hcu, heu, hau⟩ hs
    obtain ⟨hcu', heu', hau'⟩ := silent_step hcu hs
    exact ⟨hcu', heu'.trans heu, hau'.trans hau⟩
  · have hn : ∀ {r : ObserverPc Sid E → Prop}, ¬r .done → ¬∃ pc ∈ s.calls, r pc := by
      rintro r hr ⟨pc, hpc, hp⟩
      rw [hd pc hpc] at hp
      exact hr hp
    have hctx := (hk.shut hc).resolve_right (hn (by simp [ObserverPc.isClosing]))
    have hslot := (hk.slot hc).resolve_right (hn (by simp [ObserverPc.beforeLocal]))
    have hlate := (hk.late hc).resolve_left (hn (by simp [ObserverPc.isSwapping]))
    have hlocals : ∀ o : Nat, s.locals[o]? = some false → o ∈ s.dropped := by
      intro o ho
      rcases hk.locals o ho with hdr | hl | hx
      · exact hdr
      · rw [hslot] at hl
        cases hl
      · exact absurd hx (hn (by simp [ObserverPc.localObserver]))
    refine ⟨hctx, (Traffic.inv_of_reachable hk.context).wf.queue hctx, hslot, hlocals, ?_, ?_⟩
    · intro hone o ho
      have hcount := counted_of_reachable h
      have hne : s.dropped ≠ [] := List.ne_nil_of_mem (hlocals o ho)
      have hpos := List.length_pos_iff.mpr hne
      have hst : s.stored = 1 := if_neg fun hand ↦ hne hand.1
      unfold Counted at hcount
      omega
    · intro o ho
      rcases hk.remotes o ho with hf | ⟨sid, p, hg⟩ | hx
      · exact .inl hf
      · exact .inr (hlate sid p o hg)
      · exact absurd hx (hn (by simp [ObserverPc.remoteObservers]))

-- The Room is closed while `onConnected` has its observer but not the lock, and a participant
-- joins once the map was emptied.
private def closedMeanwhile : List (RoomObserverAct String String) :=
  [.onParticipant "PA1" 1 "participantConnected", .run 0, .run 0,
    .onConnected true "connected", .close, .run 2, .onParticipant "PA2" 2 "participantConnected",
    .run 3, .run 1, .run 2, .run 2, .run 2, .run 2, .run 2]

/-- The observer on its way is closed by `onConnected` itself, and the one created late stays
open. -/
theorem close_complete_meanwhile : ∃ s, (machine String String).Reachable s ∧
    s.locals = [true] ∧ s.remotes = [true, false] ∧ s.late = [1] ∧
    s.localParticipantObserver = none := by
  have hrun : ((machine String String).exec (machine String String).init closedMeanwhile).map
      (fun s ↦ (s.closed && s.calls.all (decide <| · = .done), s.locals, s.remotes, s.late)) =
      some (true, [true], [true, false], [1]) := by decide +kernel
  obtain ⟨s, hs, hr⟩ := Option.map_eq_some_iff.mp hrun
  simp only [Prod.mk.injEq, Bool.and_eq_true, List.all_eq_true, decide_eq_true_eq] at hr
  obtain ⟨⟨hc, hd⟩, hl, hrem, hlate⟩ := hr
  exact ⟨s, ⟨closedMeanwhile, hs⟩, hl, hrem, hlate,
    ((close_complete s ⟨closedMeanwhile, hs⟩ hc).2 hd).2.2.1⟩

end RoomObserver

end VideoNode.Remote
