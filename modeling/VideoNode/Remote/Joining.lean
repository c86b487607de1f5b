import VideoNode.Remote.Teardown

/-!
# Participants that are in the Room already

`RoomObserverWrap::onConnected` installs no observer on the participants the native Room has at
the time: the JS thread does so when it seeds them, one hop later. Which of their events arrive is
decided by what is installed when they are raised.
-/

namespace VideoNode.Remote

open VideoNode.Common VideoNode.Lts VideoNode.Js

namespace Room

variable {Sid : Type} [DecidableEq Sid] {sid : Handle → Sid}

/-- An event that was raised before the participant left, and whether it was heard. -/
structure Past (k : Nat) (heard : Prop) (x : Participant) : Prop where
  raised : k < x.raised
  before : ∀ d, x.disconnectedAt = some d → k < d
  heard : k ∈ x.heard ↔ heard

private theorem past_raised {x x' : Participant} (hr : Participant.Raised x x')
    (hl : x.Logged) (hd : x.disconnectedAt = none) : Past x.raised (x.observer ≠ none) x' := by
  cases hr with
  | unheard ho =>
    refine ⟨Nat.lt_succ_self _, by simp [hd], ?_⟩
    simpa [ho] using fun hk ↦ absurd (hl.raised _ hk) (Nat.lt_irrefl _)
  | heard ho he =>
    obtain ⟨hraised, hheard, -, -, hdis⟩ := (Participant.appended he).record
    refine ⟨by simp [hraised], ?_, by simp [hheard, ho]⟩
    intro d hd'
    rw [hdis] at hd'
    exact absurd (hd.symm.trans hd') (by simp)

private theorem past_changed {sole heard : Prop} {n k : Nat} {x x' : Participant}
    (hc : Changed sole n x x') (hs : x.Sane) (h : Past k heard x) : Past k heard x' := by
  have hsame : ∀ {y : Participant}, y.raised = x.raised → y.heard = x.heard →
      y.disconnectedAt = x.disconnectedAt → Past k heard y := by
    intro y hr hh hd
    exact ⟨hr ▸ h.raised, hd ▸ h.before, hh ▸ h.heard⟩
  cases hc with
  | calm hcalm _ => exact hsame hcalm.raised hcalm.heard hcalm.disconnectedAt
  | announced hcalm _ hne hy => exact hsame hcalm.raised hcalm.heard hcalm.disconnectedAt
  | parted hcalm _ hsy hy ho he =>
    obtain ⟨hr, hh, -⟩ := (Participant.appended he).record
    have hk := hsame (hr.trans hcalm.raised) (hh.trans hcalm.heard)
      ((Participant.appended he).record.2.2.2.2.trans hcalm.disconnectedAt)
    refine ⟨hk.raised, ?_, hk.heard⟩
    intro d hd
    cases hd
    rw [hcalm.raised]
    exact h.raised
  | raised =>
    have hr := Participant.raised_cases hs.law
    generalize x.raise = x' at hr
    cases hr with
    | unheard ho => exact ⟨Nat.lt_succ_of_lt h.raised, h.before, h.heard⟩
    | heard ho he =>
      obtain ⟨hraised, hheard, -, -, hdis⟩ := (Participant.appended he).record
      refine ⟨?_, hdis ▸ h.before, ?_⟩
      · rw [hraised]
        exact Nat.lt_succ_of_lt h.raised
      · have hne := Nat.ne_of_lt h.raised
        rw [hheard, List.mem_append, List.mem_singleton]
        simpa [hne] using h.heard
  | turned ht => cases ht <;> exact hsame rfl rfl rfl

private theorem past_exec {heard : Prop} {k : Nat} {p : Handle} {s t : Room Sid}
    {as : List RoomAct} (hr : (machine sid).Reachable s) (h : Past k heard (s.participant p))
    (hx : (machine sid).exec s as = some t) : Past k heard (t.participant p) := by
  have hb : (machine sid).Reachable t ∧ Past k heard (t.participant p) := by
    refine Machine.exec_invariant (m := machine sid)
      (p := fun t ↦ (machine sid).Reachable t ∧ Past k heard (t.participant p)) ?_ ⟨hr, h⟩ hx
    rintro s a t ⟨hr, h⟩ hs
    have ht := typed_of_reachable hr
    exact ⟨hr.step hs, past_changed ((effect_of_step ht hs).changed p) (ht.sane p) h⟩
  exact hb.2

/-- Only what was heard is received. -/
theorem heard_of_received {s : Room Sid} {p : Handle} {k : Nat} (h : (machine sid).Reachable s)
    (hk : k ∈ received s p) : k ∈ (s.participant p).heard := by
  have ht := typed_of_reachable h
  have hl := logged_of_reachable h p
  obtain ⟨w, hw, hkw⟩ := List.mem_flatMap.mp hk
  obtain ⟨j, hj⟩ := List.mem_iff_getElem?.mp hw
  have hs := (hl.received j w hj).subset hkw
  obtain ⟨e, he, hek⟩ := List.mem_filterMap.mp hs
  obtain ⟨ob, hob, ha, -⟩ := (ht.sane p).law.owned j w hj
    (Participant.owns_of_started (ht.sane p).law hj he)
  have hpre : w.context.started <+: w.context.accepted :=
    (Traffic.lawful ((ht.sane p).law.sound j w hj)).pre rfl
  have hacc := hpre.subset he
  rw [ha] at hacc
  cases e with
  | event i =>
    cases hek
    exact (hl.logs _ ob hob).heard k hacc
  | raw i => cases hek

/-- An event raised on a participant that has not left is received once and in order, when the
queues are drained, exactly if an observer is installed on the participant when the event is
raised: whether it was announced, or is in the native Room since that connected. -/
theorem joined_received_iff {s r : Room Sid} {p : Handle} {as bs : List RoomAct}
    (hp : Sole sid p) (hr : (machine sid).exec init as = some r)
    (hleft : (r.participant p).disconnectedAt = none)
    (hs : (machine sid).exec r (.onTrackEvent p :: bs) = some s) (hd : Drained s p) :
    ((received s p).Pairwise (· < ·) ∧ (r.participant p).raised ∈ received s p) ↔
      (r.participant p).observer ≠ none := by
  have hrr : (machine sid).Reachable r := ⟨as, hr⟩
  have hsr := hrr.exec hs
  obtain ⟨r', hr', hx⟩ := Machine.exec_cons_some.mp hs
  have hstep : r' = r.modify p Participant.raise := (Option.some.inj hr').symm
  have hpast : Past (r.participant p).raised ((r.participant p).observer ≠ none)
      (r'.participant p) := by
    rw [hstep, participant_modify_self]
    exact past_raised (Participant.raised_cases ((typed_of_reachable hrr).sane p).law)
      (logged_of_reachable hrr p) hleft
  have hk := past_exec (hrr.step hr') hpast hx
  rw [← hk.heard]
  constructor
  · exact fun hrec ↦ heard_of_received hsr hrec.2
  · exact fun hheard ↦ ⟨received_sorted hp hsr, received_of_drained hp hsr hd hheard hk.before⟩

-- A participant is in the Room, is seeded, and has a track event.
private def seeded : List RoomAct := [.onConnected [7]] ++ drainRun 1 [7]

/-- The law of a participant that was seeded before its event. -/
theorem joined_received_iff_seeded : ∃ s : Room Nat, (machine id).Reachable s ∧
    Drained s 7 ∧ 0 ∈ received s 7 := by
  have hrun : ((machine (id : Handle → Nat)).exec init seeded).bind (fun r ↦
      ((machine id).exec r (.onTrackEvent 7 :: participantDrainRun 7 0 1)).map fun s ↦
        ((r.participant 7).presentAt, (r.participant 7).disconnectedAt, (r.participant 7).raised,
          (r.participant 7).observer, decide (Drained s 7))) =
      some (some 0, none, 0, some 0, true) := by decide +kernel
  obtain ⟨r, hr, hrun⟩ := Option.bind_eq_some_iff.mp hrun
  obtain ⟨s, hs, hf⟩ := Option.map_eq_some_iff.mp hrun
  simp only [Prod.mk.injEq, decide_eq_true_eq] at hf
  obtain ⟨-, hleft, hzero, hobs, hd⟩ := hf
  have hiff := joined_received_iff (fun q hq ↦ hq) hr hleft hs hd
  have hrec := (hiff.mpr (by simp [hobs])).2
  rw [hzero] at hrec
  exact ⟨s, Machine.Reachable.exec ⟨seeded, hr⟩ hs, hd, hrec⟩

-- The track event of a participant in the Room comes before the JS thread has seeded it.
private def unseeded : List RoomAct :=
  [.onConnected [7], .onTrackEvent 7] ++ drainRun 1 [7]

/-- An event raised before the JS thread handles 'connected' is lost. -/
theorem joined_event_lost : ¬ ∀ (s : Room Nat), (machine id).Reachable s → ∀ p a,
    (s.participant p).presentAt = some a → (s.participant p).disconnectedAt = none →
    Drained s p → ∀ k, a ≤ k → k < (s.participant p).raised → k ∈ received s p := by
  intro h
  have hrun : ((machine (id : Handle → Nat)).exec init unseeded).map (fun s ↦
      ((s.participant 7).presentAt, (s.participant 7).disconnectedAt, (s.participant 7).raised,
        received s 7, decide (Drained s 7))) = some (some 0, none, 1, [], true) := by
    decide +kernel
  obtain ⟨s, hs, hf⟩ := Option.map_eq_some_iff.mp hrun
  simp only [Prod.mk.injEq, decide_eq_true_eq] at hf
  obtain ⟨hpres, hleft, hraised, hrec, hd⟩ := hf
  have hmem := h s ⟨unseeded, hs⟩ 7 0 hpres hleft hd 0 (Nat.le_refl _) (by omega)
  rw [hrec] at hmem
  cases hmem

end Room

end VideoNode.Remote
