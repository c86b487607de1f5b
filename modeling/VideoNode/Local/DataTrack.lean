import Mathlib.Data.List.Sort
import VideoNode.Common.AsyncContext
import VideoNode.Js.Value
import VideoNode.Lts.Machine

/-!
# The local data track

`LocalDataTrackWrap` and its `LocalDataTrackSendObserver`,
`src/media/local_data_track_wrap.{h,cpp}`. A `send()` promise is named by the message id
rtc-cpp gave the message. Methods return the new members and the promises they settle.
-/

namespace VideoNode.Local

open VideoNode.Js VideoNode.Common VideoNode.Lts

/-- What a `send()` promise resolves to. -/
structure SendResult where
  ok : Bool
  messageId : Nat
  error : Option String
  deriving DecidableEq, Repr

/-- A settled `send()` promise: resolved with a result, or rejected. -/
structure Settled where
  id : Nat
  outcome : Except JsError SendResult

/-- The callback the observer dispatches: a call of `settleSend`. -/
structure SendReport where
  id : Nat
  ok : Bool
  error : String
  deriving DecidableEq, Repr

/-- Members of `LocalDataTrackWrap`; `observed` says whether the observer still has its owner. -/
structure LocalDataTrackWrap where
  hasTrack : Bool
  observed : Bool
  loop : Loop SendReport
  pendingSends : List Nat
  rooms : Nat
  deriving DecidableEq, Repr

namespace LocalDataTrackWrap

/-- `NewInstance`; `src/media/local_data_track_wrap.cpp:75–95`. -/
def newInstance : LocalDataTrackWrap where
  hasTrack := true
  observed := true
  loop := .create 0
  pendingSends := []
  rooms := 0

/-- Replace the context. -/
def withCtx (w : LocalDataTrackWrap) (ctx : AsyncContext SendReport) : LocalDataTrackWrap :=
  { w with loop := { w.loop with ctx := ctx } }

/-- `onSendProcessedSuccessfully` and `onSendProcessedWithFailure`; lines 24–45. -/
def onSendProcessed (w : LocalDataTrackWrap) (r : SendReport) : LocalDataTrackWrap :=
  if w.observed then w.withCtx (w.loop.ctx.dispatch r) else w

-- `Resolve()` is the only way any of these promises is settled.
/-- `settleAllPending`; lines 112–131. -/
def settleAllPending (w : LocalDataTrackWrap) (error : String) :
    LocalDataTrackWrap × List Settled :=
  ({ w with pendingSends := [] },
    w.pendingSends.map fun id ↦ ⟨id, .ok ⟨false, id, some error⟩⟩)

/-- `settleSend`; lines 133–151. -/
def settleSend (w : LocalDataTrackWrap) (r : SendReport) : LocalDataTrackWrap × List Settled :=
  if r.id ∈ w.pendingSends then
    let pending := w.pendingSends.erase r.id
    ({ w.withCtx (if pending.isEmpty then w.loop.ctx.unref else w.loop.ctx) with
        pendingSends := pending },
      [⟨r.id, .ok ⟨r.ok, r.id, if r.ok then none else some r.error⟩⟩])
  else (w, [])

/-- The size `Send` checks: UTF-8 bytes of a string, bytes of a `Buffer`. -/
def messageSize : JsValue → Option Nat
  | .string message => some message.utf8ByteSize
  | .buffer bytes => some bytes.length
  | _ => none

/-- The end of `Send`: file the promise, and hold the process for the first one. -/
def emplace (w : LocalDataTrackWrap) (id : Nat) : LocalDataTrackWrap :=
  let pending := if id ∈ w.pendingSends then w.pendingSends
    else w.pendingSends.orderedInsert (· ≤ ·) id
  { w.withCtx (if pending.length = 1 then w.loop.ctx.ref else w.loop.ctx) with
    pendingSends := pending }

/-- `Send`; lines 179–239. `id` is what rtc-cpp returns for the message. -/
def send (kMaxMessageSize : Nat) (w : LocalDataTrackWrap) (args : List JsValue) (id : Nat) :
    Except JsError (LocalDataTrackWrap × List Settled) :=
  if !w.hasTrack then .error ⟨.error, "Track not initialized", none⟩ else
    match args with
    | [] => .error ⟨.typeError, "Expected 1 argument", none⟩
    | arg :: _ =>
      match messageSize arg with
      | none => .error ⟨.typeError, "Argument must be string or Buffer", none⟩
      | some size =>
        if kMaxMessageSize < size then
          .error ⟨.rangeError, "Data track message is " ++ toString size ++
            " bytes, which exceeds the " ++ toString kMaxMessageSize ++ "-byte maximum", none⟩
        else if w.rooms = 0 then
          .ok (w, [⟨id, .ok ⟨false, id, some "Data track is not published to a Room"⟩⟩])
        else
          .ok (w.emplace id, [])

/-- `AttachRoom`; lines 241–244. -/
def attachRoom (w : LocalDataTrackWrap) : LocalDataTrackWrap := { w with rooms := w.rooms + 1 }

/-- `DetachRoom`; lines 246–249. -/
def detachRoom (w : LocalDataTrackWrap) : LocalDataTrackWrap :=
  if 0 < w.rooms then { w with rooms := w.rooms - 1 } else w

/-- `SettlePendingIfUnpublished`; lines 254–260. -/
def settlePendingIfUnpublished (w : LocalDataTrackWrap) (error : String) :
    LocalDataTrackWrap × List Settled :=
  if w.rooms = 0 ∧ w.pendingSends ≠ [] then
    let r := w.settleAllPending error
    (r.1.withCtx r.1.loop.ctx.unref, r.2)
  else (w, [])

/-- The destructor, and then that of the `AsyncContext` member; lines 102–110. -/
def destroy (w : LocalDataTrackWrap) : LocalDataTrackWrap × List Settled :=
  let r := { w with observed := false }.settleAllPending
    "Local data track was destroyed before the send completed"
  (r.1.withCtx r.1.loop.ctx.close.destroy, r.2)

/-- A `send()` that returns a promise settles it at once without a Room, and files it
otherwise. -/
theorem send_ok {m id : Nat} {w : LocalDataTrackWrap} {args : List JsValue}
    {r : LocalDataTrackWrap × List Settled} (h : w.send m args id = .ok r) :
    (w.rooms = 0 ∧
      r = (w, [⟨id, .ok ⟨false, id, some "Data track is not published to a Room"⟩⟩])) ∨
    (w.rooms ≠ 0 ∧ r = (w.emplace id, [])) := by
  unfold send at h
  split at h
  · cases h
  cases args with
  | nil => cases h
  | cons arg args =>
    simp only at h
    split at h
    · cases h
    split at h
    · cases h
    split at h
    · next hr =>
      cases h
      exact .inl ⟨hr, rfl⟩
    · next hr =>
      cases h
      exact .inr ⟨hr, rfl⟩

/-- Filing a new id puts it among the pending ones, and the first of them takes the hold. -/
theorem emplace_new {id : Nat} {w : LocalDataTrackWrap} (hid : id ∉ w.pendingSends) :
    (w.emplace id).pendingSends.Perm (id :: w.pendingSends) ∧
    (w.emplace id).loop.ctx =
      (if w.pendingSends.isEmpty then w.loop.ctx.ref else w.loop.ctx) := by
  have hins := List.perm_orderedInsert (· ≤ ·) id w.pendingSends
  have hlen := hins.length_eq
  simp only [emplace, withCtx, hid, if_false]
  refine ⟨hins, ?_⟩
  cases hp : w.pendingSends with
  | nil => rfl
  | cons i is =>
    rw [hp] at hlen
    rw [if_neg (by simp only [hlen, List.length_cons]; omega)]
    rfl

end LocalDataTrackWrap

/-- A track with the ids its `send()` calls returned a promise for, and what was settled. -/
structure TrackSends where
  wrap : LocalDataTrackWrap
  returned : List Nat
  settled : List Settled

/-- What the application, the JS layer, the engine and the garbage collector do to a track. -/
inductive TrackAct where
  | send (args : List JsValue) (id : Nat)
  | onSendProcessed (r : SendReport)
  | turn (t : Turn)
  | attachRoom
  | detachRoom
  | settlePendingIfUnpublished (error : String)
  | destroy

namespace TrackSends

/-- Apply a method that settles promises. -/
def apply (ts : TrackSends) (r : LocalDataTrackWrap × List Settled) : TrackSends :=
  { ts with wrap := r.1, settled := ts.settled ++ r.2 }

-- rtc-cpp's ids are unique per track, and JS cannot reach a destroyed object.
/-- One step of one thread. A drain that starts a callback runs `settleSend`. -/
def step (kMaxMessageSize : Nat) (ts : TrackSends) : TrackAct → Option TrackSends
  | .send args id =>
    if ts.wrap.loop.ctx.alive ∧ id ∉ ts.returned then
      match ts.wrap.send kMaxMessageSize args id with
      | .error _ => some ts
      | .ok r => some { ts.apply r with returned := ts.returned ++ [id] }
    else none
  | .onSendProcessed r => some { ts with wrap := ts.wrap.onSendProcessed r }
  | .turn t =>
    (ts.wrap.loop.turn t).map fun l ↦
      let wrap := { ts.wrap with loop := l }
      match ts.wrap.loop.started t with
      | none => { ts with wrap := wrap }
      | some r => ts.apply (wrap.settleSend r)
  | .attachRoom => some { ts with wrap := ts.wrap.attachRoom }
  | .detachRoom => some { ts with wrap := ts.wrap.detachRoom }
  | .settlePendingIfUnpublished error => some (ts.apply (ts.wrap.settlePendingIfUnpublished error))
  | .destroy =>
    if ts.wrap.loop.ctx.alive ∧ ts.wrap.loop.drain.yields then some (ts.apply ts.wrap.destroy)
    else none

/-- A track fresh from `createDataTrack`, and everything that can happen to it. -/
def machine (kMaxMessageSize : Nat) : Machine TrackSends TrackAct where
  init := ⟨.newInstance, [], []⟩
  step := step kMaxMessageSize

/-- Ids whose promise was settled, in order. -/
def settledIds (ts : TrackSends) : List Nat := ts.settled.map Settled.id

/-- What every step keeps: a promise is settled or pending, never both and never twice; every
settled one was resolved; the process is held exactly while a send is pending; and a destroyed
track has none pending. -/
structure Inv (ts : TrackSends) : Prop where
  wf : ts.wrap.loop.ctx.WF
  unique : ts.returned.Nodup
  account : ∀ id, ts.settledIds.count id + ts.wrap.pendingSends.count id = ts.returned.count id
  resolved : ∀ x ∈ ts.settled, ∃ r, x.outcome = .ok r
  hold : ts.wrap.loop.ctx.holds = !ts.wrap.pendingSends.isEmpty
  alive : ts.wrap.loop.ctx.alive = !ts.wrap.loop.ctx.closed
  dead : ts.wrap.loop.ctx.closed = true → ts.wrap.pendingSends = []

private theorem inv_send {m : Nat} {ts ts' : TrackSends} {args : List JsValue} {id : Nat}
    (h : Inv ts) (hs : ts.step m (.send args id) = some ts') : Inv ts' := by
  simp only [step] at hs
  split at hs
  · next hf =>
    obtain ⟨hal, hid⟩ := hf
    have ho : ts.wrap.loop.ctx.closed = false := by simpa [h.alive] using hal
    have hunique : (ts.returned ++ [id]).Nodup :=
      List.Nodup.append h.unique (List.nodup_singleton _) (by simpa using hid)
    have hpend : id ∉ ts.wrap.pendingSends := by
      have ha := h.account id
      rw [List.count_eq_zero_of_not_mem hid] at ha
      exact List.count_eq_zero.mp (by omega)
    split at hs
    · cases hs
      exact h
    · next r hr =>
      cases hs
      rcases LocalDataTrackWrap.send_ok hr with ⟨-, rfl⟩ | ⟨-, rfl⟩
      · refine ⟨h.wf, hunique, ?_, ?_, h.hold, h.alive, h.dead⟩
        · intro i
          have ha := h.account i
          simp only [settledIds, apply, List.map_append, List.count_append, List.map_cons,
            List.map_nil] at ha ⊢
          omega
        · intro x hx
          simp only [apply, List.mem_append, List.mem_singleton] at hx
          rcases hx with hx | rfl
          · exact h.resolved x hx
          · exact ⟨_, rfl⟩
      · obtain ⟨hins, hctx⟩ := LocalDataTrackWrap.emplace_new hpend
        have hclosed : (ts.wrap.emplace id).loop.ctx.closed = ts.wrap.loop.ctx.closed := by
          rw [hctx]
          split <;> rfl
        have hne : (ts.wrap.emplace id).pendingSends.isEmpty = false := by
          rw [hins.isEmpty_eq]
          rfl
        refine ⟨?_, hunique, ?_, ?_, ?_, ?_, ?_⟩
        · simp only [apply, hctx]
          split
          · exact AsyncContext.wf_ref h.wf
          · exact h.wf
        · intro i
          have ha := h.account i
          have hc := hins.count_eq i
          simp only [settledIds, apply, List.append_nil, List.count_append, hc,
            List.count_cons, List.count_nil] at ha ⊢
          omega
        · intro x hx
          simp only [apply, List.append_nil] at hx
          exact h.resolved x hx
        · simp only [apply, hctx, hne]
          split
          · rw [AsyncContext.holds_ref, h.wf.async, ho]
          · next hp => rw [h.hold, Bool.eq_false_iff.mpr hp]
        · simp only [apply, hctx]
          split <;> exact h.alive
        · intro hc
          simp only [apply, hclosed, ho] at hc
          cases hc
  · cases hs

private theorem inv_onSendProcessed {ts : TrackSends} {r : SendReport} (h : Inv ts) :
    Inv { ts with wrap := ts.wrap.onSendProcessed r } := by
  simp only [LocalDataTrackWrap.onSendProcessed]
  split
  · have hf := AsyncContext.dispatch_frame ts.wrap.loop.ctx r
    refine ⟨AsyncContext.wf_dispatch h.wf, h.unique, h.account, h.resolved, ?_, ?_, ?_⟩
    · exact (AsyncContext.holds_dispatch _ _).trans h.hold
    · simp only [LocalDataTrackWrap.withCtx]
      rw [hf.1, hf.2]
      exact h.alive
    · simp only [LocalDataTrackWrap.withCtx]
      rw [hf.1]
      exact h.dead
  · exact h

private theorem inv_settleSend {ts : TrackSends} {r : SendReport} (h : Inv ts) :
    Inv (ts.apply (ts.wrap.settleSend r)) := by
  by_cases hid : r.id ∈ ts.wrap.pendingSends
  · have hc : 0 < ts.wrap.pendingSends.count r.id := List.count_pos_iff.mpr hid
    simp only [LocalDataTrackWrap.settleSend, hid, if_true]
    refine ⟨?_, h.unique, ?_, ?_, ?_, ?_, ?_⟩
    · simp only [apply, LocalDataTrackWrap.withCtx]
      split
      · exact AsyncContext.wf_unref h.wf
      · exact h.wf
    · intro i
      have ha := h.account i
      simp only [settledIds, apply, List.map_append, List.count_append, List.map_cons,
        List.map_nil, List.count_cons, List.count_nil, List.count_erase, beq_iff_eq] at ha ⊢
      split
      · next he =>
        subst he
        omega
      · omega
    · intro x hx
      simp only [apply, List.mem_append, List.mem_singleton] at hx
      rcases hx with hx | rfl
      · exact h.resolved x hx
      · exact ⟨_, rfl⟩
    · simp only [apply, LocalDataTrackWrap.withCtx]
      split
      · next he => simp [he]
      · next he =>
        have hn : ts.wrap.pendingSends.isEmpty = false := by
          cases hp : ts.wrap.pendingSends with
          | nil => simp [hp] at hid
          | cons i is => rfl
        rw [h.hold, hn, Bool.eq_false_iff.mpr he]
    · simp only [apply, LocalDataTrackWrap.withCtx]
      split <;> exact h.alive
    · intro hcl
      have hcl : ts.wrap.loop.ctx.closed = true := by
        simp only [apply, LocalDataTrackWrap.withCtx] at hcl
        split at hcl <;> exact hcl
      simp [h.dead hcl] at hid
  · simp only [LocalDataTrackWrap.settleSend, hid, if_false, apply, List.append_nil]
    exact h

private theorem inv_turn {m : Nat} {ts ts' : TrackSends} {t : Turn} (h : Inv ts)
    (hs : ts.step m (.turn t) = some ts') : Inv ts' := by
  obtain ⟨l, hl, he⟩ := Option.map_eq_some_iff.mp hs
  obtain ⟨hc, ha, -, -⟩ := Loop.turn_frame hl
  have hi : Inv { ts with wrap := { ts.wrap with loop := l } } := by
    refine ⟨Loop.wf_turn hl h.wf, h.unique, h.account, h.resolved, ?_, ?_, ?_⟩
    · exact (Loop.holds_turn hl).trans h.hold
    · simp only [hc, ha]
      exact h.alive
    · simp only [hc]
      exact h.dead
  cases hst : ts.wrap.loop.started t with
  | none =>
    simp only [hst] at he
    rw [← he]
    exact hi
  | some r =>
    simp only [hst] at he
    rw [← he]
    exact inv_settleSend hi

private theorem inv_settleAll {ts : TrackSends} {error : String} {c : AsyncContext SendReport}
    (h : Inv ts) (hw : c.WF) (hh : c.holds = false) (ha : c.alive = !c.closed) :
    Inv (ts.apply (({ ts.wrap with pendingSends := [] } : LocalDataTrackWrap).withCtx c,
      (ts.wrap.settleAllPending error).2)) := by
  refine ⟨hw, h.unique, ?_, ?_, hh, ha, fun _ ↦ rfl⟩
  · intro i
    have hc := h.account i
    simp only [settledIds, apply, LocalDataTrackWrap.settleAllPending,
      LocalDataTrackWrap.withCtx, List.map_append, List.map_map, List.count_append,
      List.count_nil] at hc ⊢
    have hm : List.map (Settled.id ∘ fun id ↦ ⟨id, .ok ⟨false, id, some error⟩⟩)
        ts.wrap.pendingSends = ts.wrap.pendingSends := List.map_id _
    rw [hm]
    omega
  · intro x hx
    simp only [apply, LocalDataTrackWrap.settleAllPending, List.mem_append, List.mem_map] at hx
    rcases hx with hx | ⟨i, -, rfl⟩
    · exact h.resolved x hx
    · exact ⟨_, rfl⟩

private theorem inv_settleIfUnpublished {ts : TrackSends} {error : String} (h : Inv ts) :
    Inv (ts.apply (ts.wrap.settlePendingIfUnpublished error)) := by
  unfold LocalDataTrackWrap.settlePendingIfUnpublished
  split
  · exact inv_settleAll h (AsyncContext.wf_unref h.wf) (AsyncContext.holds_unref _) h.alive
  · simpa [apply] using h

private theorem inv_destroy {ts : TrackSends} (h : Inv ts) : Inv (ts.apply ts.wrap.destroy) := by
  have hw := AsyncContext.wf_close h.wf
  have hd := AsyncContext.destroy_eq ts.wrap.loop.ctx.close
  have hh : ts.wrap.loop.ctx.close.destroy.holds = false := by
    rw [hd]
    exact AsyncContext.holds_close hw
  have ha : ts.wrap.loop.ctx.close.destroy.alive = !ts.wrap.loop.ctx.close.destroy.closed := by
    rw [hd]
    simp
  have hi : Inv { ts with wrap := { ts.wrap with observed := false } } :=
    ⟨h.wf, h.unique, h.account, h.resolved, h.hold, h.alive, h.dead⟩
  exact inv_settleAll hi (AsyncContext.wf_destroy hw) hh ha

/-- Every step keeps the invariant. -/
theorem inv_step {m : Nat} {ts ts' : TrackSends} {a : TrackAct} (h : Inv ts)
    (hs : ts.step m a = some ts') : Inv ts' := by
  cases a with
  | send args id => exact inv_send h hs
  | onSendProcessed r =>
    cases hs
    exact inv_onSendProcessed h
  | turn t => exact inv_turn h hs
  | attachRoom =>
    cases hs
    exact ⟨h.wf, h.unique, h.account, h.resolved, h.hold, h.alive, h.dead⟩
  | detachRoom =>
    cases hs
    simp only [LocalDataTrackWrap.detachRoom]
    split
    · exact ⟨h.wf, h.unique, h.account, h.resolved, h.hold, h.alive, h.dead⟩
    · exact h
  | settlePendingIfUnpublished error =>
    cases hs
    exact inv_settleIfUnpublished h
  | destroy =>
    simp only [step] at hs
    split at hs
    · cases hs
      exact inv_destroy h
    · cases hs

/-- The invariant holds in every interleaving. -/
theorem inv_of_reachable {m : Nat} {ts : TrackSends} (h : (machine m).Reachable ts) : Inv ts := by
  apply h.invariant
  · refine ⟨AsyncContext.wf_create 0, List.nodup_nil, fun _ ↦ rfl, ?_, rfl, rfl, fun _ ↦ rfl⟩
    intro x hx
    cases hx
  · exact fun _ _ _ hi hs ↦ inv_step hi hs

/-- Where reports go: the queue takes any number, and the observer has its owner until the end. -/
structure Hears (w : LocalDataTrackWrap) : Prop where
  unlimited : w.loop.ctx.maxQueueDepth = 0
  observed : w.loop.ctx.closed = false → w.observed = true

private theorem settleSend_frame (w : LocalDataTrackWrap) (r : SendReport) :
    (w.settleSend r).1.rooms = w.rooms ∧
      ((w.settleSend r).1.pendingSends ≠ [] → w.pendingSends ≠ []) := by
  unfold LocalDataTrackWrap.settleSend
  split
  · refine ⟨rfl, ?_⟩
    intro hp hn
    simp [hn] at hp
  · exact ⟨rfl, id⟩

/-- What the application and the engine do to a track leaves its count alone, and a send stays
pending only if one was or a Room counts the track. -/
theorem step_frame {m : Nat} {ts ts' : TrackSends} {a : TrackAct}
    (ha : a ≠ .attachRoom ∧ a ≠ .detachRoom ∧ ∀ e, a ≠ .settlePendingIfUnpublished e)
    (hs : ts.step m a = some ts') : ts'.wrap.rooms = ts.wrap.rooms ∧
      (ts'.wrap.pendingSends ≠ [] → ts.wrap.pendingSends ≠ [] ∨ 0 < ts.wrap.rooms) := by
  obtain ⟨hatt, hdet, hset⟩ := ha
  cases a with
  | send args id =>
    simp only [step] at hs
    split at hs
    · split at hs
      · cases hs
        exact ⟨rfl, .inl⟩
      · next r hr =>
        cases hs
        rcases LocalDataTrackWrap.send_ok hr with ⟨-, rfl⟩ | ⟨hn, rfl⟩
        · exact ⟨rfl, .inl⟩
        · exact ⟨rfl, fun _ ↦ .inr (by omega)⟩
    · cases hs
  | onSendProcessed r =>
    cases hs
    simp only [LocalDataTrackWrap.onSendProcessed]
    split <;> exact ⟨rfl, .inl⟩
  | turn t =>
    obtain ⟨l, -, he⟩ := Option.map_eq_some_iff.mp hs
    split at he
    · rw [← he]
      exact ⟨rfl, .inl⟩
    · next r _ =>
      have hf := settleSend_frame { ts.wrap with loop := l } r
      rw [← he]
      exact ⟨hf.1, fun hp ↦ .inl (hf.2 hp)⟩
  | attachRoom => exact absurd rfl hatt
  | detachRoom => exact absurd rfl hdet
  | settlePendingIfUnpublished error => exact absurd rfl (hset error)
  | destroy =>
    simp only [step] at hs
    split at hs
    · cases hs
      exact ⟨rfl, fun hp ↦ absurd rfl hp⟩
    · cases hs

end TrackSends

end VideoNode.Local
