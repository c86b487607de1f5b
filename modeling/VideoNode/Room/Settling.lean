import VideoNode.Room.Connect

/-!
# How `connect()` settles

The promise goes through five phases: pending, resolved, failed, expired and unwound. Each
says which listeners the Room has and what was called so far, and every step stays in a phase
or goes on to a later one.
-/

namespace VideoNode.Room

open VideoNode.Js VideoNode.Lts

namespace Call

variable {E : Type}

/-- The promise is resolved or rejected. -/
def settles : Call E → Bool
  | .resolve | .reject _ => true
  | .dispose _ | .disconnect | .emit _ | .grace | .listener _ => false

/-- `connect()` disposes the Room. -/
def disposes : Call E → Bool
  | .dispose .onFailure | .dispose .disposeOnce => true
  | .dispose .application | .resolve | .reject _ | .disconnect | .emit _ | .grace
  | .listener _ => false

/-- A Room that has timed out has waited long enough. -/
def ends : Call E → Bool
  | .emit .disconnected | .grace => true
  | .emit .connectFailure | .resolve | .reject _ | .dispose _ | .disconnect | .listener _ => false

/-- None of the calls settles the promise, and none is a `dispose()` of `connect()`. -/
def Quiet (l : List (Call E)) : Prop := ∀ c ∈ l, c.settles = false ∧ c.disposes = false

/-- How often the promise is settled. -/
def settlements (l : List (Call E)) : Nat := l.countP settles

/-- How often `connect()` disposes the Room. -/
def disposals (l : List (Call E)) : Nat := l.countP disposes

private theorem quiet_append {l l' : List (Call E)} (h : Quiet l) (h' : Quiet l') :
    Quiet (l ++ l') := by
  intro c hc
  cases List.mem_append.mp hc with
  | inl hc => exact h c hc
  | inr hc => exact h' c hc

private theorem quiet_singleton {c : Call E} (hs : c.settles = false) (hd : c.disposes = false) :
    Quiet [c] := by
  intro c' hc
  rw [List.mem_singleton.mp hc]
  exact ⟨hs, hd⟩

private theorem quiet_nil : Quiet ([] : List (Call E)) := by
  intro c hc
  cases hc

private theorem quiet_listeners (ns : List Nat) :
    Quiet (ns.map Call.listener : List (Call E)) := by
  intro c hc
  obtain ⟨n, -, rfl⟩ := List.mem_map.mp hc
  exact ⟨rfl, rfl⟩

private theorem settlements_append (l l' : List (Call E)) :
    settlements (l ++ l') = settlements l + settlements l' := List.countP_append

private theorem disposals_append (l l' : List (Call E)) :
    disposals (l ++ l') = disposals l + disposals l' := List.countP_append

private theorem settlements_cons (c : Call E) (l : List (Call E)) :
    settlements (c :: l) = settlements l + if c.settles then 1 else 0 := List.countP_cons

private theorem disposals_cons (c : Call E) (l : List (Call E)) :
    disposals (c :: l) = disposals l + if c.disposes then 1 else 0 := List.countP_cons

private theorem settled_there {a b l l' : List (Call E)} {x y : Call E} (ha : settlements a = 0)
    (hb : settlements b = 0) (hy : y.settles = true) (h : a ++ x :: b = l ++ y :: l') :
    a = l ∧ x = y ∧ b = l' := by
  have hn : ∀ k : List (Call E), settlements k = 0 → y ∉ k := by
    intro k hk hm
    exact List.countP_eq_zero.mp hk y hm hy
  exact (List.append_cons_inj_of_notMem (hn a ha) (hn b hb)).mp h

private theorem settlements_of_quiet {l : List (Call E)} (h : Quiet l) : settlements l = 0 := by
  rw [settlements, List.countP_eq_zero]
  intro c hc
  simp [(h c hc).1]

private theorem disposals_of_quiet {l : List (Call E)} (h : Quiet l) : disposals l = 0 := by
  rw [disposals, List.countP_eq_zero]
  intro c hc
  simp [(h c hc).2]

private theorem not_mem_of_quiet {l : List (Call E)} (h : Quiet l) {c : Call E}
    (hc : c.settles = true) : c ∉ l := by
  intro hm
  rw [(h c hm).1] at hc
  cases hc

end Call

namespace Connect

variable {E : Type}

/-- Nothing but listeners of the application were called, and none was added. -/
structure Undisturbed (s t : Connect E) : Prop where
  rest : t = { s with listeners := t.listeners, calls := t.calls }
  calls : ∃ ns : List Nat, t.calls = s.calls ++ ns.map .listener
  listeners : ∀ r ∈ t.listeners.registrations, r ∈ s.listeners.registrations

/-- The promise is resolved, and `connect()` is done with the Room. -/
structure Resolved (s : Connect E) : Prop where
  settled : s.settled = true
  timerArmed : s.timerArmed = false
  graceArmed : s.graceArmed = false
  pc : s.pc = .waiting
  listeners : ∀ r ∈ s.listeners.registrations, ∃ n ends, r.listener = .application n ends
  calls : ∃ l l', s.calls = l ++ .resolve :: l' ∧ Call.Quiet l ∧ Call.Quiet l'

/-- Where `connect()` stands, and what holds there. -/
inductive Phase (s : Connect E) : Prop where
  | pending (hs : s.settled = false) (ht : s.timer = s.timerArmed) (hd : s.disposed = false)
      (hl : s.listeners = ⟨[⟨.connectFailure, .onFailure, some 0⟩], [false]⟩)
      (hg : s.graceArmed = false) (hp : s.pc = .waiting) (hc : Call.Quiet s.calls)
  | resolved (h : Resolved s)
  | failed (hs : s.settled = true) (ht : s.timerArmed = false)
      (hl : s.listeners.registrations = []) (hg : s.graceArmed = false) (hp : s.pc = .waiting)
      {error : E} {l l' : List (Call E)}
      (hc : s.calls = (l ++ [.dispose .onFailure]) ++ .reject (.connectFailure error) :: l')
      (hq : Call.Quiet l) (hq' : Call.Quiet l')
  | expired (hs : s.settled = true) (ht : s.timerArmed = false) (hd : s.disposed = false)
      (hl : s.listeners = ⟨[⟨.disconnected, .disposeOnce, some 1⟩], [false, false]⟩)
      {message : String × ℚ × String} {l l' : List (Call E)}
      (hc : s.calls = l ++ .reject (.connectTimeout message) :: l') (hq : Call.Quiet l)
      (hq' : Call.Quiet l') (he : ∀ c ∈ l', c.ends = false)
  | unwound (hs : s.settled = true) (ht : s.timerArmed = false) (hd : s.disposed = true)
      (hl : s.listeners.registrations = []) {message : String × ℚ × String}
      {l l₁ l₂ : List (Call E)}
      (hc : s.calls = l ++ .reject (.connectTimeout message) ::
        (l₁ ++ .dispose .disposeOnce :: l₂))
      (hq : Call.Quiet l) (hq₁ : Call.Quiet l₁) (hq₂ : Call.Quiet l₂) (he : ∃ c ∈ l₁, c.ends = true)

section Emit

variable {s : Connect E} {event : ConnectEvent} {error : Option E}

private theorem emit_silent (h : ∀ r ∈ s.listeners.registrations, r.event ≠ event) :
    s.emit event error = s.log (.emit event) := by
  rw [emit, Emitter.emit_of_silent (s := s.log (.emit event)) h]

private theorem emit_application
    (h : ∀ r ∈ s.listeners.registrations, ∃ n ends, r.listener = .application n ends) :
    Undisturbed (s.log (.emit event)) (s.emit event error) := by
  apply Emitter.emit_invariant (p := Undisturbed (s.log (.emit event)))
  · intro t i ht
    exact ⟨by rw [ht.rest]; rfl, ht.calls, fun r hr ↦ ht.listeners r (Emitter.mem_of_fire hr)⟩
  · intro r hr he t ht
    obtain ⟨n, ends, hn⟩ := h r hr
    obtain ⟨ns, hns⟩ := ht.calls
    rw [hn]
    refine ⟨by rw [ht.rest]; rfl, ⟨ns ++ [n], ?_⟩, ht.listeners⟩
    simp only [run, log, hns, List.map_append, List.map_cons, List.map_nil, List.append_assoc]
  · exact ⟨rfl, ⟨[], by simp⟩, fun r hr ↦ hr⟩

/-- While the promise is pending, `connectFailure` is `onFailure` and no other listener. -/
theorem emit_connectFailure {error : E}
    (hl : s.listeners = ⟨[⟨.connectFailure, .onFailure, some 0⟩], [false]⟩) :
    s.emit .connectFailure (some error) =
      onFailure error { s.log (.emit .connectFailure) with listeners := ⟨[], [true]⟩ } := by
  simp [emit, Emitter.emit, Emitter.listening, Emitter.calls, Emitter.call, Emitter.hasFired,
    Emitter.fire, slot, log, hl, run]

private theorem emit_disconnected
    (hl : s.listeners = ⟨[⟨.disconnected, .disposeOnce, some 1⟩], [false, false]⟩) :
    s.emit .disconnected error =
      disposeOnce { s.log (.emit .disconnected) with listeners := ⟨[], [false, true]⟩ } := by
  simp [emit, Emitter.emit, Emitter.listening, Emitter.calls, Emitter.call, Emitter.hasFired,
    Emitter.fire, slot, log, hl, run]

end Emit

section Phases

variable {s t : Connect E} {error : E}

private theorem resolved_log (h : Resolved s) {c : Call E} (hq : Call.Quiet [c]) :
    Resolved (s.log c) := by
  obtain ⟨l, l', hc, hl, hl'⟩ := h.calls
  have hc' : (s.log c).calls = l ++ .resolve :: (l' ++ [c]) := by
    simp only [log, hc, List.append_assoc, List.cons_append]
  exact ⟨h.settled, h.timerArmed, h.graceArmed, h.pc, h.listeners,
    l, l' ++ [c], hc', hl, Call.quiet_append hl' hq⟩

private theorem resolved_undisturbed (h : Resolved s) (hu : Undisturbed s t) : Resolved t := by
  obtain ⟨l, l', hc, hl, hl'⟩ := h.calls
  obtain ⟨ns, hns⟩ := hu.calls
  have hc' : t.calls = l ++ .resolve :: (l' ++ ns.map .listener) := by
    rw [hns, hc, List.append_assoc, List.cons_append]
  have hr := hu.rest
  refine ⟨?_, ?_, ?_, ?_, fun r hr ↦ h.listeners r (hu.listeners r hr),
    l, _, hc', hl, Call.quiet_append hl' (Call.quiet_listeners ns)⟩
  · rw [hr]
    exact h.settled
  · rw [hr]
    exact h.timerArmed
  · rw [hr]
    exact h.graceArmed
  · rw [hr]
    exact h.pc

private theorem resolved_emit (h : Resolved s) (event : ConnectEvent) (error : Option E) :
    Resolved (s.emit event error) :=
  resolved_undisturbed (resolved_log h (Call.quiet_singleton rfl rfl))
    (emit_application h.listeners)

private theorem resolved_use (h : Resolved s) (use : Use) : Resolved (s.use use) := by
  have ha : ∀ r : Registration ConnectEvent ConnectListener,
      r ∈ s.listeners.registrations ∨ (∃ n ends, r.listener = .application n ends) →
      ∃ n ends, r.listener = .application n ends := by
    intro r hr
    cases hr with
    | inl hr => exact h.listeners r hr
    | inr hr => exact hr
  cases use with
  | on event n ends =>
    refine ⟨h.settled, h.timerArmed, h.graceArmed, h.pc, fun r hr ↦ ha r ?_, h.calls⟩
    simp only [Connect.use, Emitter.registrations_on, List.mem_append, List.mem_singleton] at hr
    cases hr with
    | inl hr => exact .inl hr
    | inr hr => exact .inr ⟨n, ends, by rw [hr]⟩
  | once event n ends =>
    refine ⟨h.settled, h.timerArmed, h.graceArmed, h.pc, fun r hr ↦ ha r ?_, h.calls⟩
    simp only [Connect.use, Emitter.registrations_once, List.mem_append, List.mem_singleton] at hr
    cases hr with
    | inl hr => exact .inl hr
    | inr hr => exact .inr ⟨n, ends, by rw [hr]⟩
  | removeListener event n ends =>
    exact ⟨h.settled, h.timerArmed, h.graceArmed, h.pc,
      fun r hr ↦ h.listeners r (Emitter.mem_of_removeListener hr), h.calls⟩
  | removeAllListeners =>
    refine ⟨h.settled, h.timerArmed, h.graceArmed, h.pc, fun r hr ↦ ?_, h.calls⟩
    cases hr
  | dispose =>
    have hl := resolved_log h (Call.quiet_singleton (c := .dispose .application) rfl rfl)
    refine ⟨hl.settled, hl.timerArmed, hl.graceArmed, hl.pc, fun r hr ↦ ?_, hl.calls⟩
    cases hr

private theorem phase_onConnected (h : Phase s) (b : Bool) :
    Phase { s with onConnected := b } := by
  cases h with
  | pending hs ht hd hl hg hp hc => exact .pending hs ht hd hl hg hp hc
  | resolved h =>
    exact .resolved ⟨h.settled, h.timerArmed, h.graceArmed, h.pc, h.listeners, h.calls⟩
  | failed hs ht hl hg hp hc hq hq' => exact .failed hs ht hl hg hp hc hq hq'
  | expired hs ht hd hl hc hq hq' he => exact .expired hs ht hd hl hc hq hq' he
  | unwound hs ht hd hl hc hq hq₁ hq₂ he => exact .unwound hs ht hd hl hc hq hq₁ hq₂ he

private theorem phase_log (h : Phase s) {c : Call E} (hq : Call.Quiet [c])
    (he : c.ends = true → ∀ r ∈ s.listeners.registrations, r.listener ≠ .disposeOnce) :
    Phase (s.log c) := by
  cases h with
  | pending hs ht hd hl hg hp hc =>
    exact .pending hs ht hd hl hg hp (Call.quiet_append hc hq)
  | resolved h => exact .resolved (resolved_log h hq)
  | @failed hs ht hl hg hp error l l' hc hq₁ hq₂ =>
    have hc' : (s.log c).calls =
        (l ++ [.dispose .onFailure]) ++ .reject (.connectFailure error) :: (l' ++ [c]) := by
      simp only [log, hc, List.append_assoc, List.cons_append]
    exact .failed hs ht hl hg hp hc' hq₁ (Call.quiet_append hq₂ hq)
  | @expired hs ht hd hl message l l' hc hq₁ hq₂ hn =>
    have hc' : (s.log c).calls = l ++ .reject (.connectTimeout message) :: (l' ++ [c]) := by
      simp only [log, hc, List.append_assoc, List.cons_append]
    have hce : c.ends = false := by
      cases hce : c.ends with
      | false => rfl
      | true => exact absurd rfl (he hce ⟨.disconnected, .disposeOnce, some 1⟩ (by simp [hl]))
    have hn' : ∀ c' ∈ l' ++ [c], c'.ends = false := by
      intro c' hc'
      cases List.mem_append.mp hc' with
      | inl hc' => exact hn c' hc'
      | inr hc' => rw [List.mem_singleton.mp hc', hce]
    exact .expired hs ht hd hl hc' hq₁ (Call.quiet_append hq₂ hq) hn'
  | @unwound hs ht hd hl message l l₁ l₂ hc hq₁ hq₂ hq₃ hn =>
    have hc' : (s.log c).calls = l ++ .reject (.connectTimeout message) ::
        (l₁ ++ .dispose .disposeOnce :: (l₂ ++ [c])) := by
      simp only [log, hc, List.append_assoc, List.cons_append]
    exact .unwound hs ht hd hl hc' hq₁ hq₂ (Call.quiet_append hq₃ hq) hn

private theorem clearTimer_eq (ht : s.timer = s.timerArmed) :
    s.clearTimer = { s with timer := false, timerArmed := false } := by
  unfold clearTimer
  split
  · rfl
  · next hf =>
    have hf : s.timer = false := by simpa using hf
    rw [hf] at ht
    cases s
    simp_all only

private theorem removed_onFailure :
    Emitter.removeListener ⟨[⟨ConnectEvent.connectFailure, ConnectListener.onFailure, some 0⟩],
      [false]⟩ .connectFailure .onFailure = ⟨[], [false]⟩ := rfl

private theorem connected_eq (hs : s.settled = false) (ht : s.timer = s.timerArmed) :
    s.connected = { s with
      settled := true
      timer := false
      timerArmed := false
      listeners := s.listeners.removeListener .connectFailure .onFailure
      calls := s.calls ++ [.resolve] } := by
  have hns : ¬s.settled = true := by simp [hs]
  rw [connected, if_neg hns, clearTimer_eq (by exact ht)]
  rfl

private theorem onFailure_eq (hs : s.settled = false) (ht : s.timer = s.timerArmed) (error : E) :
    s.onFailure error = { s with
      settled := true
      timer := false
      timerArmed := false
      listeners := s.listeners.removeAllListeners
      calls := s.calls ++ [.dispose .onFailure] ++ [.reject (.connectFailure error)] } := by
  have hns : ¬s.settled = true := by simp [hs]
  rw [onFailure, if_neg hns, clearTimer_eq (by exact ht)]
  rfl

/-- The timer that expires in a pending promise rejects it and asks the Room to disconnect. -/
theorem timerFires_eq (hs : s.settled = false) :
    s.timerFires = { s with
      timer := false
      timerArmed := false
      settled := true
      listeners := (s.listeners.removeListener .connectFailure .onFailure).once
        .disconnected .disposeOnce
      pc := .disconnecting
      calls := s.calls ++ [.reject (.timedOut s.timeoutMs)] ++ [.disconnect] } := by
  have hns : ¬s.settled = true := by simp [hs]
  rw [timerFires, if_neg (by exact hns)]
  rfl

private theorem disposeOnce_eq (hd : s.disposed = false) :
    s.disposeOnce = { s with
      disposed := true
      listeners := s.listeners.removeAllListeners
      calls := s.calls ++ [.dispose .disposeOnce] } := by
  have hnd : ¬s.disposed = true := by simp [hd]
  rw [disposeOnce, if_neg hnd]
  rfl

private theorem phase_connected (h : Phase s) : Phase s.connected := by
  by_cases hs : s.settled = true
  · rw [connected, if_pos hs]
    exact h
  · cases h with
    | pending hs' ht hd hl hg hp hc =>
      rw [connected_eq hs' ht]
      refine .resolved ⟨rfl, rfl, hg, hp, fun r hr ↦ ?_, s.calls, [], rfl, hc, Call.quiet_nil⟩
      rw [hl, removed_onFailure] at hr
      cases hr
    | resolved h => exact absurd h.settled hs
    | failed hs' | expired hs' | unwound hs' => exact absurd hs' hs

private theorem phase_connectFailure (h : Phase s) (error : E) :
    Phase (s.emit .connectFailure (some error)) := by
  have hq : Call.Quiet [Call.emit (E := E) .connectFailure] := Call.quiet_singleton rfl rfl
  -- Nobody listens for the event any more.
  have hsilent : (∀ r ∈ s.listeners.registrations, r.event ≠ .connectFailure) →
      Phase (s.emit .connectFailure (some error)) := by
    intro hn
    rw [emit_silent hn]
    apply phase_log h hq
    intro he
    cases he
  cases h with
  | pending hs ht hd hl hg hp hc =>
    rw [emit_connectFailure hl, onFailure_eq (by exact hs) (by exact ht)]
    exact .failed rfl rfl rfl hg hp rfl (Call.quiet_append hc hq) Call.quiet_nil
  | resolved h => exact .resolved (resolved_emit h .connectFailure (some error))
  | failed hs ht hl | unwound hs ht hd hl =>
    apply hsilent
    simp [hl]
  | expired hs ht hd hl =>
    apply hsilent
    simp [hl]

private theorem phase_disposed (h : Phase s) (hd : s.disposed = false)
    (hl : s.listeners = ⟨[⟨.disconnected, .disposeOnce, some 1⟩], [false, false]⟩) {c : Call E}
    (hq : Call.Quiet [c]) (he : c.ends = true) (m : Emitter ConnectEvent ConnectListener) :
    Phase { s.log c with listeners := m }.disposeOnce := by
  rw [disposeOnce_eq (by exact hd)]
  cases h with
  | pending _ _ _ hl' =>
    rw [hl] at hl'
    cases hl'
  | resolved h =>
    obtain ⟨n, ends, hn⟩ := h.listeners ⟨.disconnected, .disposeOnce, some 1⟩ (by simp [hl])
    cases hn
  | failed _ _ hl' | unwound _ _ _ hl' =>
    rw [hl] at hl'
    cases hl'
  | @expired hs ht hd' hl' message l l' hc hq₁ hq₂ hn =>
    have hc' : s.calls ++ [c] ++ [.dispose .disposeOnce] =
        l ++ .reject (.connectTimeout message) :: (l' ++ [c] ++ .dispose .disposeOnce :: []) := by
      simp only [hc, List.append_assoc, List.cons_append]
    exact .unwound hs ht rfl rfl hc' hq₁ (Call.quiet_append hq₂ hq) Call.quiet_nil
      ⟨c, by simp, he⟩

private theorem phase_disconnected (h : Phase s) : Phase (s.emit .disconnected none) := by
  have hq : Call.Quiet [Call.emit (E := E) .disconnected] := Call.quiet_singleton rfl rfl
  have hsilent : (∀ r ∈ s.listeners.registrations, r.event ≠ .disconnected ∧
      r.listener ≠ .disposeOnce) → Phase (s.emit .disconnected none) := by
    intro hn
    rw [emit_silent fun r hr ↦ (hn r hr).1]
    exact phase_log h hq fun _ r hr ↦ (hn r hr).2
  cases hp : h with
  | pending _ _ _ hl =>
    apply hsilent
    simp [hl]
  | resolved h => exact .resolved (resolved_emit h .disconnected none)
  | failed _ _ hl | unwound _ _ _ hl =>
    apply hsilent
    simp [hl]
  | expired _ _ hd hl =>
    rw [emit_disconnected hl]
    exact phase_disposed h hd hl hq rfl _

private theorem phase_timer (h : Phase s) (ha : s.timerArmed = true) : Phase s.timerFires := by
  cases h with
  | pending hs ht hd hl hg hp hc =>
    have hc' : s.calls ++ [.reject (.timedOut s.timeoutMs)] ++ [.disconnect] =
        s.calls ++ .reject (.timedOut s.timeoutMs) :: [.disconnect] := by
      rw [List.append_assoc, List.singleton_append]
    have hn : ∀ c : Call E, c ∈ [.disconnect] → c.ends = false := by
      intro c hc
      rw [List.mem_singleton.mp hc]
      rfl
    rw [timerFires_eq hs, hl, removed_onFailure]
    exact .expired rfl rfl hd rfl hc' hc (Call.quiet_singleton rfl rfl) hn
  | resolved h =>
    rw [h.timerArmed] at ha
    cases ha
  | failed _ ht | expired _ ht | unwound _ ht =>
    rw [ht] at ha
    cases ha

private theorem phase_disconnectEnds (h : Phase s) (hp : s.pc = .disconnecting) :
    Phase { s with pc := .done, graceArmed := true } := by
  cases h with
  | pending _ _ _ _ _ hw | failed _ _ _ _ hw =>
    rw [hw] at hp
    cases hp
  | resolved h =>
    rw [h.pc] at hp
    cases hp
  | expired hs ht hd hl hc hq hq' he => exact .expired hs ht hd hl hc hq hq' he
  | unwound hs ht hd hl hc hq hq₁ hq₂ he => exact .unwound hs ht hd hl hc hq hq₁ hq₂ he

private theorem phase_graceArmed (h : Phase s) (ha : s.graceArmed = true) :
    Phase { s with graceArmed := false } := by
  cases h with
  | pending _ _ _ _ hg | failed _ _ _ hg =>
    rw [hg] at ha
    cases ha
  | resolved h =>
    rw [h.graceArmed] at ha
    cases ha
  | expired hs ht hd hl hc hq hq' he => exact .expired hs ht hd hl hc hq hq' he
  | unwound hs ht hd hl hc hq hq₁ hq₂ he => exact .unwound hs ht hd hl hc hq hq₁ hq₂ he

private theorem phase_grace (h : Phase s) (ha : s.graceArmed = true) :
    Phase ({ s with graceArmed := false }.log .grace).disposeOnce := by
  have hq : Call.Quiet [Call.grace (E := E)] := Call.quiet_singleton rfl rfl
  have hg := phase_graceArmed h ha
  cases h with
  | pending _ _ _ _ hn | failed _ _ _ hn =>
    rw [hn] at ha
    cases ha
  | resolved h =>
    rw [h.graceArmed] at ha
    cases ha
  | expired _ _ hd hl => exact phase_disposed hg hd hl hq rfl s.listeners
  | unwound _ _ hd hl =>
    rw [disposeOnce, if_pos (by exact hd)]
    apply phase_log hg hq
    simp [hl]

private theorem resolved_of_mem (h : Phase s) (hr : .resolve ∈ s.calls) : Resolved s := by
  have hn : ∀ {l : List (Call E)}, Call.Quiet l → .resolve ∉ l :=
    fun hq ↦ Call.not_mem_of_quiet hq rfl
  cases h with
  | pending _ _ _ _ _ _ hc => exact absurd hr (hn hc)
  | resolved h => exact h
  | failed _ _ _ _ _ hc hq hq' | expired _ _ _ _ hc hq hq' | unwound _ _ _ _ hc hq hq' hq₂ =>
    rw [hc] at hr
    simp_all

private theorem phase_create (timeoutMs : ℚ) : Phase (create timeoutMs : Connect E) :=
  .pending rfl rfl rfl rfl rfl rfl Call.quiet_nil

end Phases

section Machine

variable [DecidableEq E] {s t : Connect E}

/-- Every step stays in a phase, or goes on to another. -/
theorem phase_step {a : ConnectAct E} (h : Phase s) (hs : s.step a = some t) : Phase t := by
  cases a with
  | connected seeded =>
    cases seeded with
    | returned =>
      simp only [step] at hs
      split at hs
      · cases hs
        exact phase_onConnected (phase_connected h) false
      · cases hs
        exact h
    | threw =>
      cases hs
      exact h
  | connectFailure error =>
    cases hs
    exact phase_connectFailure h error
  | disconnected released =>
    cases released with
    | returned =>
      cases hs
      exact phase_disconnected h
    | threw =>
      cases hs
      exact h
  | timer =>
    simp only [step] at hs
    split at hs
    · next ha =>
      cases hs
      exact phase_timer h ha
    · cases hs
  | disconnectEnds ends =>
    simp only [step] at hs
    split at hs
    · next hp =>
      cases hs
      exact phase_disconnectEnds h hp
    · cases hs
  | grace =>
    simp only [step] at hs
    split at hs
    · next ha =>
      cases hs
      exact phase_grace h ha
    · cases hs
  | use use =>
    simp only [step] at hs
    split at hs
    · next hr =>
      cases hs
      exact .resolved (resolved_use (resolved_of_mem h hr) use)
    · cases hs

/-- Every reachable state is in a phase. -/
theorem phase_reachable {timeoutMs : ℚ} (h : (machine E timeoutMs).Reachable s) : Phase s :=
  h.invariant (phase_create timeoutMs) fun _ _ _ h hs ↦ phase_step h hs

/-- What `connect()` owes its caller. -/
structure Settles (s : Connect E) : Prop where
  once : Call.settlements s.calls ≤ 1
  resolved : .resolve ∈ s.calls → Call.disposals s.calls = 0 ∧ s.timerArmed = false ∧
    ∀ error t, s.step (.connectFailure error) = some t →
      Undisturbed (s.log (.emit .connectFailure)) t
  failed : ∀ error l l', s.calls = l ++ .reject (.connectFailure error) :: l' →
    Call.disposals l = 1 ∧ Call.disposals l' = 0
  expired : ∀ message l l', s.calls = l ++ .reject (.connectTimeout message) :: l' →
    Call.disposals l = 0 ∧ Call.disposals l' = if l'.any Call.ends then 1 else 0

private theorem settles_pending (hc : Call.Quiet s.calls) : Settles s := by
  have hn : ∀ {c : Call E}, c.settles = true → c ∉ s.calls := fun h ↦ Call.not_mem_of_quiet hc h
  have hs := Call.settlements_of_quiet hc
  refine ⟨by omega, fun h ↦ absurd h (hn rfl), ?_, ?_⟩
  · intro error l l' h
    exact absurd (by simp [h]) (hn (c := .reject (.connectFailure error)) rfl)
  · intro message l l' h
    exact absurd (by simp [h]) (hn (c := .reject (.connectTimeout message)) rfl)

private theorem settles_resolved (h : Resolved s) : Settles s := by
  obtain ⟨l, l', hc, hl, hl'⟩ := h.calls
  have hs := Call.settlements_of_quiet hl
  have hs' := Call.settlements_of_quiet hl'
  have hd : Call.disposals s.calls = 0 := by
    rw [hc, Call.disposals_append, Call.disposals_cons, Call.disposals_of_quiet hl,
      Call.disposals_of_quiet hl']
    rfl
  refine ⟨?_, fun _ ↦ ⟨hd, h.timerArmed, ?_⟩, ?_, ?_⟩
  · rw [hc, Call.settlements_append, Call.settlements_cons, hs, hs']
    simp [Call.settles]
  · intro error t ht
    cases ht
    exact emit_application h.listeners
  · intro error k k' he
    obtain ⟨-, hx, -⟩ := Call.settled_there hs hs' rfl (hc.symm.trans he)
    cases hx
  · intro message k k' he
    obtain ⟨-, hx, -⟩ := Call.settled_there hs hs' rfl (hc.symm.trans he)
    cases hx

private theorem settles_failed {error : E} {l l' : List (Call E)}
    (hc : s.calls = (l ++ [.dispose .onFailure]) ++ .reject (.connectFailure error) :: l')
    (hl : Call.Quiet l) (hl' : Call.Quiet l') : Settles s := by
  have hs : Call.settlements (l ++ [.dispose .onFailure]) = 0 := by
    rw [Call.settlements_append, Call.settlements_of_quiet hl]
    rfl
  have hs' := Call.settlements_of_quiet hl'
  refine ⟨?_, ?_, ?_, ?_⟩
  · rw [hc, Call.settlements_append, Call.settlements_cons, hs, hs']
    simp [Call.settles]
  · intro hr
    obtain ⟨k, k', he⟩ := List.append_of_mem hr
    obtain ⟨-, hx, -⟩ := Call.settled_there hs hs' rfl (hc.symm.trans he)
    cases hx
  · intro error' k k' he
    obtain ⟨rfl, -, rfl⟩ := Call.settled_there hs hs' rfl (hc.symm.trans he)
    rw [Call.disposals_append, Call.disposals_of_quiet hl, Call.disposals_of_quiet hl']
    exact ⟨rfl, rfl⟩
  · intro message k k' he
    obtain ⟨-, hx, -⟩ := Call.settled_there hs hs' rfl (hc.symm.trans he)
    cases hx

private theorem settles_timedOut {message : String × ℚ × String} {l l' : List (Call E)}
    (hc : s.calls = l ++ .reject (.connectTimeout message) :: l') (hl : Call.Quiet l)
    (hs' : Call.settlements l' = 0)
    (hd : Call.disposals l' = if l'.any Call.ends then 1 else 0) : Settles s := by
  have hs := Call.settlements_of_quiet hl
  refine ⟨?_, ?_, ?_, ?_⟩
  · rw [hc, Call.settlements_append, Call.settlements_cons, hs, hs']
    simp [Call.settles]
  · intro hr
    obtain ⟨k, k', he⟩ := List.append_of_mem hr
    obtain ⟨-, hx, -⟩ := Call.settled_there hs hs' rfl (hc.symm.trans he)
    cases hx
  · intro error k k' he
    obtain ⟨-, hx, -⟩ := Call.settled_there hs hs' rfl (hc.symm.trans he)
    cases hx
  · intro message' k k' he
    obtain ⟨rfl, -, rfl⟩ := Call.settled_there hs hs' rfl (hc.symm.trans he)
    exact ⟨Call.disposals_of_quiet hl, hd⟩

/-- The promise is settled at most once. A Room it resolved with is the application's: `connect()`
does not dispose it, and a later `connectFailure` does nothing. A Room that failed is disposed
once before the rejection, and one that timed out once after it, as soon as `disconnected` is
emitted or the grace timer fires. -/
theorem connect_settles_once {timeoutMs : ℚ} (h : (machine E timeoutMs).Reachable s) :
    Settles s := by
  cases phase_reachable h with
  | pending _ _ _ _ _ _ hc => exact settles_pending hc
  | resolved h => exact settles_resolved h
  | failed _ _ _ _ _ hc hl hl' => exact settles_failed hc hl hl'
  | @expired _ _ _ _ _ l l' hc hl hl' he =>
    apply settles_timedOut hc hl (Call.settlements_of_quiet hl')
    have hn : l'.any Call.ends = false := by
      rw [List.any_eq_false]
      intro c hc
      simp [he c hc]
    rw [hn, Call.disposals_of_quiet hl']
    rfl
  | @unwound _ _ _ _ _ l l₁ l₂ hc hl hl₁ hl₂ he =>
    apply settles_timedOut hc hl
    · rw [Call.settlements_append, Call.settlements_cons, Call.settlements_of_quiet hl₁,
        Call.settlements_of_quiet hl₂]
      rfl
    · have ha : (l₁ ++ .dispose .disposeOnce :: l₂).any Call.ends = true := by
        obtain ⟨c, hm, hce⟩ := he
        rw [List.any_eq_true]
        exact ⟨c, List.mem_append_left _ hm, hce⟩
      rw [ha, Call.disposals_append, Call.disposals_cons, Call.disposals_of_quiet hl₁,
        Call.disposals_of_quiet hl₂]
      rfl

-- The connection times out, connects late, and the grace timer finds the Room disposed.
private def lateRun : List (ConnectAct Nat) :=
  [.disconnected .returned, .timer, .connected .returned, .disconnectEnds .threw,
    .disconnected .returned, .connectFailure 53000, .grace]

/-- `connect_settles_once` where every kind of event comes after the timeout. -/
theorem connect_settles_once_late : ∃ s : Connect Nat,
    (machine Nat 30000).exec (machine Nat 30000).init lateRun = some s ∧ Settles s ∧
      s.calls = [.emit .disconnected, .reject (.timedOut 30000), .disconnect,
        .emit .disconnected, .dispose .disposeOnce, .emit .connectFailure, .grace] := by
  have hr : ((machine Nat 30000).exec (machine Nat 30000).init lateRun).map calls =
      some [.emit .disconnected, .reject (.timedOut 30000), .disconnect,
        .emit .disconnected, .dispose .disposeOnce, .emit .connectFailure, .grace] := by
    decide +kernel
  obtain ⟨s, hs, hc⟩ := Option.map_eq_some_iff.mp hr
  exact ⟨s, hs, connect_settles_once ⟨lateRun, hs⟩, hc⟩

end Machine

end Connect

end VideoNode.Room
