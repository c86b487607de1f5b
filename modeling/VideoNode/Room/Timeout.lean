import Mathlib.Data.Rat.Floor
import VideoNode.Js.Value
import VideoNode.Lts.Timed
import VideoNode.Room.Settling

/-!
# How long `connect()` waits

The `connectionTimeout` that `connect()` accepts, the delay Node makes of it, and the promise
beside a clock that starts when the timer is armed. Node takes a delay that does not fit a signed
32-bit integer for one millisecond.
-/

namespace VideoNode.Room

open VideoNode.Js Lts

/-- `lib/index.ts:168`. -/
def DEFAULT_CONNECTION_TIMEOUT_MS : ℚ := 30000

/-- What `connectionTimeout` is taken for; `lib/index.ts:214–224`. -/
def checkTimeout (connectionTimeout : JsValue) : Except JsError ℚ :=
  if connectionTimeout.isUndefined then .ok DEFAULT_CONNECTION_TIMEOUT_MS else
    match connectionTimeout with
    | .number (.finite ms) => if ms < 0 then .error (refused connectionTimeout) else .ok ms
    | _ => .error (refused connectionTimeout)
where
  /-- The error of a value that is no finite number, or a negative one. -/
  refused (v : JsValue) : JsError :=
    ⟨.rangeError, "connectionTimeout must be a non-negative finite number of milliseconds; got ",
      some v⟩

/-- A timeout is accepted when it is a number that is finite and not negative, or the default. -/
theorem checkTimeout_eq_ok {connectionTimeout : JsValue} {timeoutMs : ℚ} :
    checkTimeout connectionTimeout = .ok timeoutMs ↔
      connectionTimeout = .undefined ∧ timeoutMs = DEFAULT_CONNECTION_TIMEOUT_MS ∨
      connectionTimeout = .number (.finite timeoutMs) ∧ 0 ≤ timeoutMs := by
  unfold checkTimeout
  cases connectionTimeout with
  | undefined => simp [JsValue.isUndefined, eq_comm]
  | number n =>
    cases n with
    | finite ms =>
      by_cases hm : ms < 0
      · simp only [JsValue.isUndefined, Bool.false_eq_true, if_false, hm, if_true, reduceCtorEq,
          false_and, false_or, false_iff, JsValue.number.injEq, JsNumber.finite.injEq]
        rintro ⟨rfl, hn⟩
        exact absurd hm (not_lt.mpr hn)
      · simp only [JsValue.isUndefined, Bool.false_eq_true, if_false, hm, reduceCtorEq,
          false_and, false_or, JsValue.number.injEq, JsNumber.finite.injEq, Except.ok.injEq]
        constructor
        · rintro rfl
          exact ⟨rfl, not_lt.mp hm⟩
        · exact And.left
    | nan => simp [JsValue.isUndefined]
    | infinity negative => simp [JsValue.isUndefined]
  | null => simp [JsValue.isUndefined]
  | boolean b => simp [JsValue.isUndefined]
  | string s => simp [JsValue.isUndefined]
  | symbol description => simp [JsValue.isUndefined]
  | bigint i => simp [JsValue.isUndefined]
  | function => simp [JsValue.isUndefined]
  | object props => simp [JsValue.isUndefined]
  | buffer bytes => simp [JsValue.isUndefined]

/-- The longest delay of `setTimeout`, a signed 32-bit integer. -/
def TIMEOUT_MAX : ℚ := 2147483647

/-- What `setTimeout` makes of a delay: a fraction is cut off, and a delay that is too short or too
long is one millisecond. -/
def timerDelay (delay : ℚ) : ℤ := if 1 ≤ delay ∧ delay ≤ TIMEOUT_MAX then ⌊delay⌋ else 1

/-- The promise is rejected with `RoomConnectTimeoutError`. -/
def Call.expires {E : Type} : Call E → Bool
  | .reject (.connectTimeout _) => true
  | .reject (.connectFailure _) | .resolve | .dispose _ | .disconnect | .emit _ | .grace
  | .listener _ => false

/-- The native event tells how the attempt to connect has ended. -/
def ConnectAct.outcome {E : Type} : ConnectAct E → Bool
  | .connected _ | .connectFailure _ => true
  | .disconnected _ | .timer | .disconnectEnds _ | .grace | .use _ => false

namespace Connect

variable {E : Type}

/-- `RoomConnectTimeoutError` is what the promise was rejected with. -/
def expired (s : Connect E) : Bool := s.calls.any Call.expires

/-- The time from which an action is enabled; only the connection timer is held to a time. -/
def due (timeoutMs : ℚ) : ConnectAct E → ℚ
  | .timer => timerDelay timeoutMs
  | _ => 0

/-- `connect()` beside a clock that starts when the timer is armed. -/
def clocked (E : Type) [DecidableEq E] (timeoutMs : ℚ) :
    Machine (Timed (Connect E)) (TimedAct (ConnectAct E)) :=
  (machine E timeoutMs).timed (due timeoutMs)

/-- Whenever `connected` is emitted, seeding the participants returns. -/
def SeedingReturns (as : List (TimedAct (ConnectAct E))) : Prop :=
  .act (.connected .threw) ∉ as

/-- If the step after the run rejects with `RoomConnectTimeoutError`, there is a timeout, it has
passed, and neither `connected` nor `connectFailure` was in the run. -/
def NeverEarly [DecidableEq E] (timeoutMs : ℚ) (as : List (TimedAct (ConnectAct E))) : Prop :=
  ∀ a s t, (clocked E timeoutMs).exec (clocked E timeoutMs).init as = some s →
    (clocked E timeoutMs).step s a = some t → s.state.expired = false → t.state.expired = true →
    0 < timeoutMs ∧ ⌊timeoutMs⌋ ≤ s.now ∧ ∀ b : ConnectAct E, .act b ∈ as → b.outcome = false

/-- What a step other than the timer's expiry leaves as it is. -/
structure Keeps (s t : Connect E) : Prop where
  settled : s.settled = true → t.settled = true
  timerArmed : t.timerArmed = true → s.timerArmed = true
  onConnected : t.onConnected = false → s.onConnected = false ∨ t.settled = true
  expired : t.expired = true → s.expired = true

section Frames

variable {s t u : Connect E}

private theorem keeps_refl (s : Connect E) : Keeps s s := ⟨id, id, .inl, id⟩

private theorem Keeps.trans (h : Keeps s t) (h' : Keeps t u) : Keeps s u where
  settled hs := h'.settled (h.settled hs)
  timerArmed hu := h.timerArmed (h'.timerArmed hu)
  onConnected hu := by
    cases h'.onConnected hu with
    | inl ht => exact (h.onConnected ht).imp_right h'.settled
    | inr hu => exact .inr hu
  expired hu := h.expired (h'.expired hu)

private theorem keeps_log (s : Connect E) {c : Call E} (hc : c.expires = false) :
    Keeps s (s.log c) where
  settled := id
  timerArmed := id
  onConnected := .inl
  expired h := by simpa [Connect.expired, log, hc] using h

private theorem keeps_listeners (s : Connect E) (m : Emitter ConnectEvent ConnectListener) :
    Keeps s { s with listeners := m } := ⟨id, id, .inl, id⟩

private theorem keeps_settle (s : Connect E) : Keeps s { s with settled := true }.clearTimer := by
  unfold clearTimer
  split
  · exact ⟨fun _ ↦ rfl, fun h ↦ (Bool.noConfusion h), .inl, id⟩
  · exact ⟨fun _ ↦ rfl, id, .inl, id⟩

private theorem settled_settle (s : Connect E) :
    { s with settled := true }.clearTimer.settled = true := by
  unfold clearTimer
  split <;> rfl

private theorem keeps_dispose (s : Connect E) (disposer : Disposer) :
    Keeps s (s.dispose disposer) :=
  (keeps_log s rfl).trans (keeps_listeners _ _)

private theorem keeps_onFailure (s : Connect E) (error : E) : Keeps s (s.onFailure error) := by
  unfold onFailure
  split
  · exact keeps_refl s
  · exact ((keeps_settle s).trans (keeps_dispose _ _)).trans (keeps_log _ rfl)

private theorem keeps_connected (s : Connect E) : Keeps s s.connected := by
  unfold connected
  split
  · exact keeps_refl s
  · exact ((keeps_settle s).trans (keeps_listeners _ _)).trans (keeps_log _ rfl)

private theorem keeps_disposeOnce (s : Connect E) : Keeps s s.disposeOnce := by
  unfold disposeOnce
  split
  · exact keeps_refl s
  · have hd : Keeps s { s with disposed := true } := ⟨id, id, .inl, id⟩
    exact hd.trans (keeps_dispose _ _)

private theorem keeps_run (error : Option E) (l : ConnectListener) (s : Connect E) :
    Keeps s (run error l s).1 := by
  cases l with
  | onFailure =>
    cases error with
    | none => exact keeps_refl s
    | some error => exact keeps_onFailure s error
  | disposeOnce => exact keeps_disposeOnce s
  | application n ends => exact keeps_log s rfl

private theorem keeps_emit (s : Connect E) (event : ConnectEvent) (error : Option E) :
    Keeps s (s.emit event error) := by
  apply Emitter.emit_invariant (p := Keeps s)
  · intro t i ht
    exact ht.trans (keeps_listeners t _)
  · intro r _ _ t ht
    exact ht.trans (keeps_run error r.listener t)
  · exact keeps_log s rfl

private theorem keeps_use (s : Connect E) (use : Use) : Keeps s (s.use use) := by
  cases use with
  | on event n ends => exact keeps_listeners s _
  | once event n ends => exact keeps_listeners s _
  | removeListener event n ends => exact keeps_listeners s _
  | removeAllListeners => exact keeps_listeners s _
  | dispose => exact keeps_dispose s .application

private theorem settled_connected (s : Connect E) : s.connected.settled = true := by
  unfold connected
  split
  · next hs => exact hs
  · exact settled_settle s

private theorem settled_onFailure (s : Connect E) (error : E) :
    (s.onFailure error).settled = true := by
  unfold onFailure
  split
  · next hs => exact hs
  · exact settled_settle s

end Frames

section Steps

variable [DecidableEq E] {s t : Connect E}

/-- The timer expires in a promise that is pending, or the step keeps what matters to it. -/
theorem step_cases {a : ConnectAct E} (h : s.step a = some t) :
    Keeps s t ∨ a = .timer ∧ s.timerArmed = true ∧ s.settled = false ∧ t.settled = true ∧
      t.timerArmed = false := by
  cases a with
  | connected seeded =>
    cases seeded with
    | returned =>
      simp only [step] at h
      split at h
      · cases h
        have hc := keeps_connected s
        exact .inl ⟨hc.settled, hc.timerArmed, fun _ ↦ .inr (settled_connected s), hc.expired⟩
      · cases h
        exact .inl (keeps_refl s)
    | threw =>
      cases h
      exact .inl (keeps_refl s)
  | connectFailure error =>
    cases h
    exact .inl (keeps_emit s _ _)
  | disconnected released =>
    cases released with
    | returned =>
      cases h
      exact .inl (keeps_emit s _ _)
    | threw =>
      cases h
      exact .inl (keeps_refl s)
  | timer =>
    simp only [step] at h
    split at h
    · next ha =>
      cases h
      by_cases hs : s.settled = true
      · have hf : s.timerFires = { s with timer := false, timerArmed := false } := if_pos hs
        rw [hf]
        exact .inl ⟨id, fun hf ↦ Bool.noConfusion hf, .inl, id⟩
      · have hs : s.settled = false := Bool.eq_false_iff.mpr hs
        rw [timerFires_eq hs]
        exact .inr ⟨rfl, ha, hs, rfl, rfl⟩
    · cases h
  | disconnectEnds ends =>
    simp only [step] at h
    split at h
    · cases h
      exact .inl ⟨id, id, .inl, id⟩
    · cases h
  | grace =>
    simp only [step] at h
    split at h
    · cases h
      have hg : Keeps s { s with graceArmed := false } := ⟨id, id, .inl, id⟩
      exact .inl ((hg.trans (keeps_log _ rfl)).trans (keeps_disposeOnce _))
    · cases h
  | use use =>
    simp only [step] at h
    split at h
    · cases h
      exact .inl (keeps_use s use)
    · cases h

/-- A promise that is settled stays so. -/
theorem settled_step {a : ConnectAct E} (hs : s.settled = true) (h : s.step a = some t) :
    t.settled = true := by
  cases step_cases h with
  | inl hk => exact hk.settled hs
  | inr hx => exact hx.2.2.2.1

/-- The timer is armed only with a timeout, and `onConnected` is dropped only once it was called. -/
structure Armed (timeoutMs : ℚ) (s : Connect E) : Prop where
  positive : s.timerArmed = true → 0 < timeoutMs
  told : s.onConnected = false → s.settled = true

private theorem armed_step {timeoutMs : ℚ} {a : ConnectAct E} (hs : Armed timeoutMs s)
    (h : s.step a = some t) : Armed timeoutMs t := by
  cases step_cases h with
  | inl hk =>
    constructor
    · intro ht
      exact hs.positive (hk.timerArmed ht)
    · intro ht
      cases hk.onConnected ht with
      | inl ho => exact hk.settled (hs.told ho)
      | inr ht => exact ht
  | inr hx =>
    obtain ⟨-, -, -, ht, ha⟩ := hx
    constructor
    · intro hf
      rw [ha] at hf
      cases hf
    · intro _
      exact ht

/-- Every reachable state is armed as it should be. -/
theorem armed_reachable {timeoutMs : ℚ} (h : (machine E timeoutMs).Reachable s) :
    Armed timeoutMs s := by
  apply h.invariant
  · constructor
    · intro ha
      exact of_decide_eq_true ha
    · intro ho
      cases ho
  · intro s a t hs ht
    exact armed_step hs ht

/-- An event that ends the attempt to connect settles the promise. -/
theorem settled_of_outcome {timeoutMs : ℚ} {a : ConnectAct E}
    (hr : (machine E timeoutMs).Reachable s) (ha : a.outcome = true) (hn : a ≠ .connected .threw)
    (h : s.step a = some t) : t.settled = true := by
  cases a with
  | connected seeded =>
    cases seeded with
    | returned =>
      simp only [step] at h
      split at h
      · cases h
        exact settled_connected s
      · next ho =>
        cases h
        exact (armed_reachable hr).told (Bool.eq_false_iff.mpr ho)
    | threw => exact absurd rfl hn
  | connectFailure error =>
    by_cases hs : s.settled = true
    · exact settled_step hs h
    · cases h
      cases phase_reachable hr with
      | pending _ _ _ hl =>
        rw [emit_connectFailure hl]
        exact settled_onFailure _ error
      | resolved hx => exact absurd hx.settled hs
      | failed hx => exact absurd hx hs
      | expired hx => exact absurd hx hs
      | unwound hx => exact absurd hx hs
  | disconnected released => cases ha
  | timer => cases ha
  | disconnectEnds ends => cases ha
  | grace => cases ha
  | use use => cases ha

end Steps

section Clock

variable [DecidableEq E] {timeoutMs : ℚ} {as : List (TimedAct (ConnectAct E))}
  {s : Timed (Connect E)}

private theorem clocked_reachable (h : (clocked E timeoutMs).exec (clocked E timeoutMs).init as =
    some s) : (machine E timeoutMs).Reachable s.state :=
  (Machine.timed_refines _ _).reachable ⟨as, h⟩

private theorem settled_of_mem (hr : (clocked E timeoutMs).exec (clocked E timeoutMs).init as =
    some s) (hs : SeedingReturns as) {b : ConnectAct E} (hb : .act b ∈ as)
    (ho : b.outcome = true) : s.state.settled = true := by
  obtain ⟨l, r, rfl⟩ := List.append_of_mem hb
  rw [Machine.exec_append] at hr
  obtain ⟨u, hu, hr⟩ := Option.bind_eq_some_iff.mp hr
  obtain ⟨v, hv, hr⟩ := Machine.exec_cons_some.mp hr
  have hn : b ≠ .connected .threw := by
    rintro rfl
    exact hs hb
  have hv : v.state.settled = true :=
    settled_of_outcome (clocked_reachable hu) ho hn (Machine.timed_act_eq_some.mp hv).2.1
  apply Machine.timed_invariant (p := fun s ↦ s.settled = true) _ hv hr
  intro s a t hs ht
  exact settled_step hs ht

/-- A delay that fits is waited for. -/
theorem floor_le_timerDelay {delay : ℚ} (h : delay ≤ TIMEOUT_MAX) : ⌊delay⌋ ≤ timerDelay delay := by
  unfold timerDelay
  split
  · exact le_refl _
  · next hn =>
    have hl : delay < 1 := by
      by_contra hl
      exact hn ⟨not_lt.mp hl, h⟩
    have hf : ⌊delay⌋ < 1 := Int.floor_lt.mpr (by exact_mod_cast hl)
    omega

/-- A delay that does not fit is one millisecond. -/
theorem timerDelay_of_gt {delay : ℚ} (h : TIMEOUT_MAX < delay) : timerDelay delay = 1 := by
  apply if_neg
  intro hd
  exact absurd hd.2 (not_le.mpr h)

/-- A timeout that fits is waited for in every run. -/
theorem neverEarly_of_le (ht : timeoutMs ≤ TIMEOUT_MAX) (hs : SeedingReturns as) :
    NeverEarly timeoutMs as := by
  intro a s t hr hst hn hx
  cases a with
  | tick time =>
    rw [Machine.timed_tick_eq_some.mp hst, hn] at hx
    cases hx
  | act a =>
    obtain ⟨hd, hst, -⟩ := Machine.timed_act_eq_some.mp hst
    cases step_cases hst with
    | inl hk =>
      rw [hk.expired hx] at hn
      cases hn
    | inr hx =>
      obtain ⟨rfl, ha, hns, -⟩ := hx
      refine ⟨(armed_reachable (clocked_reachable hr)).positive ha, ?_, ?_⟩
      · have hf : (⌊timeoutMs⌋ : ℚ) ≤ timerDelay timeoutMs := by
          exact_mod_cast floor_le_timerDelay ht
        exact hf.trans hd
      · intro b hb
        by_contra ho
        rw [settled_of_mem hr hs hb (Bool.eq_true_of_not_eq_false ho)] at hns
        cases hns

-- the default timeout expires after 30 s, and not a millisecond earlier
example : ((clocked Nat 30000).exec (clocked Nat 30000).init [.tick 29999, .act .timer]).isNone ∧
    ((clocked Nat 30000).exec (clocked Nat 30000).init [.tick 30000, .act .timer]).any
      fun s ↦ s.state.expired := by
  decide +kernel

-- the timer of a timeout that does not fit expires after a millisecond
private theorem early_of_gt (ht : TIMEOUT_MAX < timeoutMs) :
    ¬NeverEarly (E := E) timeoutMs [.tick 1] := by
  intro h
  have hp : 0 < timeoutMs := lt_trans (by decide) ht
  let s : Timed (Connect E) := ⟨create timeoutMs, 0 + ((1 : ℚ≥0) : ℚ)⟩
  let t : Timed (Connect E) := ⟨s.state.timerFires, s.now⟩
  have hr : (clocked E timeoutMs).exec (clocked E timeoutMs).init [.tick 1] = some s := rfl
  have hd : due timeoutMs (.timer : ConnectAct E) ≤ s.now := by
    show (timerDelay timeoutMs : ℚ) ≤ 0 + ((1 : ℚ≥0) : ℚ)
    rw [timerDelay_of_gt ht]
    norm_num
  have ha : (create timeoutMs : Connect E).timerArmed = true := decide_eq_true hp
  have hst : (clocked E timeoutMs).step s (.act .timer) = some t :=
    Machine.timed_act_eq_some.mpr ⟨hd, if_pos ha, rfl⟩
  have hx : t.state.expired = true := rfl
  obtain ⟨-, hf, -⟩ := h _ s t hr hst rfl hx
  have hl : (2147483647 : ℤ) ≤ ⌊timeoutMs⌋ := by
    rw [Int.le_floor]
    exact_mod_cast ht.le
  have hl : (2147483647 : ℚ) ≤ 0 + ((1 : ℚ≥0) : ℚ) := le_trans (by exact_mod_cast hl) hf
  norm_num at hl

variable (E) in
/-- The promise never times out early exactly when the timeout given is not a number above the
longest delay of `setTimeout`. -/
theorem timeout_never_early_iff (connectionTimeout : JsValue) :
    (∀ timeoutMs, checkTimeout connectionTimeout = .ok timeoutMs →
      ∀ as : List (TimedAct (ConnectAct E)), SeedingReturns as → NeverEarly timeoutMs as) ↔
      ∀ ms, connectionTimeout = .number (.finite ms) → ms ≤ TIMEOUT_MAX := by
  constructor
  · intro h ms hv
    by_contra ht
    have ht : TIMEOUT_MAX < ms := not_le.mp ht
    have hp : 0 ≤ ms := le_trans (by decide) ht.le
    apply early_of_gt (E := E) ht
    exact h ms (checkTimeout_eq_ok.mpr (.inr ⟨hv, hp⟩)) _ (by simp [SeedingReturns])
  · intro h timeoutMs hv as hs
    apply neverEarly_of_le _ hs
    cases checkTimeout_eq_ok.mp hv with
    | inl hu =>
      rw [hu.2]
      decide
    | inr hn => exact h timeoutMs hn.1

/-- `timeout_never_early_iff` one millisecond above the longest delay. -/
theorem timeout_early :
    checkTimeout (.number (.finite 2147483648)) = .ok 2147483648 ∧
      SeedingReturns (E := Nat) [.tick 1] ∧ ¬NeverEarly (E := Nat) 2147483648 [.tick 1] :=
  ⟨checkTimeout_eq_ok.mpr (.inr ⟨rfl, by decide⟩), by simp [SeedingReturns],
    early_of_gt (by decide)⟩

end Clock

end Connect

end VideoNode.Room
