import VideoNode.Remote.Records

/-!
# The events a participant's listeners are owed

Events of a participant that is attended to are not lost on the way: what an installed observer
heard it has accepted, what was accepted starts in order on the queue of the wrap bound to it, and
what starts there reaches the event callback, up to the participant's last hop.
-/

namespace VideoNode.Remote

open VideoNode.Common VideoNode.Lts VideoNode.Js

namespace Participant

/-- The participant was not superseded, and it is not gone, or it is the only one of its SID and
the event is from before it left. -/
def Owed (sole : Prop) (x : Participant) (k : Nat) : Prop :=
  x.superseded = false ∧
    (x.gone = false ∨ (sole ∧ ∀ d, x.disconnectedAt = some d → k < d))

/-- What has started something owns the binding of its observer. -/
theorem owns_of_started {x : Participant} {j : Nat} {w : Wrap} {e : PendingEvent} (h : Law x)
    (hw : x.wraps[j]? = some w) (he : e ∈ w.context.started) : w.ownsObserverBinding = true := by
  cases hown : w.ownsObserverBinding with
  | true => rfl
  | false =>
    have hmem := ((Traffic.lawful (h.sound j w hw)).pre rfl).subset he
    have ha : e ∈ w.context.accepted := hmem
    rw [h.unowned j w hw hown] at ha
    cases ha

/-- A participant with one observer has one owner, at most. -/
theorem owner_unique {x : Participant} {j j' : Nat} {w w' : Wrap} (h : Law x)
    (hlen : x.observers.length ≤ 1) (hw : x.wraps[j]? = some w) (hw' : x.wraps[j']? = some w')
    (hown : w.ownsObserverBinding = true) (hown' : w'.ownsObserverBinding = true) : j = j' := by
  have hzero : ∀ {i : Nat} {v : Wrap}, x.wraps[i]? = some v → v.ownsObserverBinding = true →
      v.observer = 0 := by
    intro i v hv hvown
    obtain ⟨ob, hob, -, -⟩ := h.owned i v hv hvown
    have hlt := (List.getElem?_eq_some_iff.mp hob).1
    omega
  exact h.sole j j' w w' hw hw' hown hown' (by rw [hzero hw hown, hzero hw' hown'])

/-- What is accepted after a hop that was started is from after the participant left. -/
theorem le_of_hop_started {heard : List Nat} {left : Option Nat} {l started : List PendingEvent}
    {i k d : Nat} (h : Log heard left l) (hpre : started <+: l) (hi : .raw i ∈ started)
    (hk : .event k ∈ l) (hns : .event k ∉ started) (hd : left = some d) : d ≤ k := by
  obtain ⟨rest, rfl⟩ := hpre
  have hk : .event k ∈ rest := (List.mem_append.mp hk).resolve_left hns
  have hpair := (List.pairwise_append.mp (h.last d hd)).2.2
  exact hpair _ hi _ hk rfl k rfl

end Participant

namespace Room

variable {Sid : Type} [DecidableEq Sid] {sid : Handle → Sid}

/-- Nothing that a participant's listeners are owed gets lost. -/
structure Flowing (sid : Handle → Sid) (s : Room Sid) (p : Handle) : Prop where
  alone : Sole sid p → (s.participant p).superseded = false
  few : Sole sid p → (s.participant p).observers.length ≤ 1
  kept : ∀ k ∈ (s.participant p).heard, (s.participant p).Owed (Sole sid p) k →
    ∃ ob : Observer, (s.participant p).observers[0]? = some ob ∧ .event k ∈ ob.accepted
  announced : ∀ c, (s.participant p).connectedAt = some c → ∀ k, c ≤ k →
    k < (s.participant p).raised → (s.participant p).Owed (Sole sid p) k →
      k ∈ (s.participant p).heard
  delivered : ∀ (j : Nat) (w : Wrap) (k : Nat), (s.participant p).wraps[j]? = some w →
    .event k ∈ w.context.started → (s.participant p).Owed (Sole sid p) k → k ∈ w.received
  hop : Sole sid p → ∀ d, (s.participant p).disconnectedAt = some d →
    ∃ (ob : Observer) (i : Nat), (s.participant p).observers[0]? = some ob ∧ .raw i ∈ ob.accepted
  once : Sole sid p → (s.context.accepted.countP fun t ↦ t.event = .participantDisconnected p) ≤ 1
  named : Attending sid s p → (s.participant p).wraps = [] →
    (∃ t ∈ s.context.accepted, t.event.participant = some p) ∨
    ((s.participant p).connectedAt = none ∧ ∃ d, (s.participant p).disconnectedAt = some d ∧
      ∀ k ∈ (s.participant p).heard, d ≤ k)

omit [DecidableEq Sid] in
/-- Nothing was raised. -/
theorem flowing_init (p : Handle) : Flowing sid (init : Room Sid) p where
  alone _ := rfl
  few _ := Nat.zero_le _
  kept k hk := by cases hk
  announced c hc := by cases hc
  delivered j w k hw := by simp [init, Participant.init] at hw
  hop _ d hd := by cases hd
  once _ := Nat.zero_le _
  named h := absurd rfl h.1

/-- Who was superseded stays so. -/
theorem Changed.superseded {sole : Prop} {n : Nat} {x x' : Participant} (h : Changed sole n x x')
    (hs : x.Sane) (hx : x'.superseded = false) : x.superseded = false := by
  by_contra hne
  have hsup : x.superseded = true := by simpa using hne
  have hsup' : x'.superseded = true := by
    cases h with
    | calm hc _ => exact hc.superseded hsup
    | announced hc _ hne hy => exact hc.superseded hsup
    | parted hc _ hsy hg ho he =>
      exact (Participant.appended he).record.2.2.1.trans (hc.superseded hsup)
    | raised =>
      exact (Participant.sane_raised hs (Participant.raised_cases hs.law)).2.superseded hsup
    | turned ht => exact (Participant.sane_turn hs ht).2.1.superseded hsup
  rw [hx] at hsup'
  cases hsup'

/-- What is owed after a step was owed before it. -/
theorem Changed.owed {sole : Prop} {n k : Nat} {x x' : Participant} (h : Changed sole n x x')
    (hs : x.Sane) (ho : x'.Owed sole k) : x.Owed sole k := by
  obtain ⟨hsup, ho⟩ := ho
  refine ⟨h.superseded hs hsup, ?_⟩
  rcases ho with hg | ⟨hsole, hd⟩
  · left
    by_contra hx
    rw [h.gone hs (by simpa using hx)] at hg
    cases hg
  · cases h with
    | calm hc hsup => exact .inr ⟨hsole, fun d hx ↦ hd d (hc.disconnectedAt.trans hx)⟩
    | announced hc hsup hne hy =>
      exact .inr ⟨hsole, fun d hx ↦ hd d (hc.disconnectedAt.trans hx)⟩
    | parted hc hsup hsy hg hop he => exact .inl (hc.gone.symm.trans hg)
    | raised =>
      refine .inr ⟨hsole, fun d hx ↦ hd d ?_⟩
      have hr := Participant.raised_cases hs.law
      generalize x.raise = x' at hr
      cases hr with
      | unheard ho => exact hx
      | heard ho he => exact (Participant.appended he).record.2.2.2.2.trans hx
    | turned ht =>
      refine .inr ⟨hsole, fun d hx ↦ hd d ?_⟩
      cases ht <;> exact hx

/-- Observers stay, with all they have accepted. -/
theorem Changed.accepted {sole : Prop} {n o : Nat} {x x' : Participant} {ob : Observer}
    (h : Changed sole n x x') (hs : x.Sane) (hob : x.observers[o]? = some ob) :
    ∃ ob' : Observer, x'.observers[o]? = some ob' ∧ ∀ e ∈ ob.accepted, e ∈ ob'.accepted := by
  have hadd : ∀ {y y' : Participant} {o' : Nat} {e : PendingEvent} {ob : Observer},
      Participant.Enqueued y o' e y' → y.observers[o]? = some ob →
      ∃ ob' : Observer, y'.observers[o]? = some ob' ∧ ∀ e ∈ ob.accepted, e ∈ ob'.accepted := by
    intro y y' o' e ob he hob
    obtain ⟨ob', hob', ha | ⟨-, ha⟩⟩ := (Participant.appended he).observers o ob hob
    · exact ⟨ob', hob', fun _ h ↦ ha ▸ h⟩
    · exact ⟨ob', hob', fun _ h ↦ ha ▸ List.mem_append_left _ h⟩
  cases h with
  | calm hc hg =>
    obtain ⟨ob', hob', ha⟩ := hc.observers o ob hob
    exact ⟨ob', hob', fun _ h ↦ ha ▸ h⟩
  | announced hc hg hne hy =>
    obtain ⟨ob', hob', ha⟩ := hc.observers o ob hob
    exact ⟨ob', hob', fun _ h ↦ ha ▸ h⟩
  | parted hc _ hsy hg hop he =>
    obtain ⟨ob₁, hob₁, ha₁⟩ := hc.observers o ob hob
    obtain ⟨ob', hob', ha⟩ := hadd he hob₁
    exact ⟨ob', hob', fun e h ↦ ha e (ha₁ ▸ h)⟩
  | raised =>
    have hr := Participant.raised_cases hs.law
    generalize x.raise = x' at hr
    cases hr with
    | unheard ho => exact ⟨ob, hob, fun _ h ↦ h⟩
    | heard ho he => exact hadd he hob
  | turned ht => cases ht <;> exact ⟨ob, hob, fun _ h ↦ h⟩

/-- The number of observers of a participant that is gone. -/
theorem Changed.frozen {sole : Prop} {n : Nat} {x x' : Participant} (h : Changed sole n x x')
    (hs : x.Sane) (hg : x.gone = true) : x'.observers.length = x.observers.length := by
  cases h with
  | calm hc _ => exact hc.frozen hg
  | announced hc _ hne hy => exact hc.frozen hg
  | parted hc _ hsy hg' hop he =>
    rw [hc.gone, hg] at hg'
    cases hg'
  | raised =>
    have hr := Participant.raised_cases hs.law
    generalize x.raise = x' at hr
    cases hr with
    | unheard ho => rfl
    | heard ho he => exact (Participant.appended he).length
  | turned ht => cases ht <;> rfl

omit [DecidableEq Sid] in
/-- What is on the Room's queue stays to have been put there. -/
theorem Effect.accepted {s s' : Room Sid} (h : Effect sid s s') :
    ∀ t ∈ s.context.accepted, t ∈ s'.context.accepted := by
  intro t ht
  cases h with
  | quiet hq ha hst =>
    rw [hq.context]
    exact ha ▸ ht
  | starts hq htask ha hst =>
    rw [hq.context]
    exact ha ▸ ht
  | dispatches hq he hp ha hst hr => exact ha ▸ List.mem_append_left _ ht
  | announces hq hne hg hp ha hst hr => exact ha ▸ List.mem_append_left _ ht
  | parts hq hs hg ho hx hp hc hr => rwa [hc]
  | raises hp hc hr => rwa [hc]
  | turns hx hp hc hr => rwa [hc]
  | hops hx hp ha hst hr => exact ha ▸ List.mem_append_left _ ht

omit [DecidableEq Sid] in
/-- What the Room's queue has started: all it had started, and what was accepted before. -/
theorem Effect.started {s s' : Room Sid} (h : Effect sid s s')
    (hs : ∀ t ∈ s.context.started, t ∈ s.context.accepted) :
    (∀ t ∈ s.context.started, t ∈ s'.context.started) ∧
      ∀ t ∈ s'.context.started, t ∈ s.context.accepted := by
  have hsame : s'.context.started = s.context.started →
      (∀ t ∈ s.context.started, t ∈ s'.context.started) ∧
        ∀ t ∈ s'.context.started, t ∈ s.context.accepted := by
    intro he
    rw [he]
    exact ⟨fun _ h ↦ h, hs⟩
  cases h with
  | quiet hq ha hst => exact hsame (by rw [hq.context]; exact hst)
  | @starts c task hq htask ha hst =>
    have hst : s'.context.started = s.context.started ++ [task] := by
      rw [hq.context]
      exact hst
    rw [hst]
    refine ⟨fun t ht ↦ List.mem_append_left _ ht, fun t ht ↦ ?_⟩
    rcases List.mem_append.mp ht with ht | ht
    · exact hs t ht
    · rw [List.mem_singleton.mp ht]
      exact htask
  | dispatches hq he hp ha hst hr => exact hsame hst
  | announces hq hne hg hp ha hst hr => exact hsame hst
  | parts hq hs hg ho hx hp hc hr => exact hsame (by rw [hc])
  | raises hp hc hr => exact hsame (by rw [hc])
  | turns hx hp hc hr => exact hsame (by rw [hc])
  | hops hx hp ha hst hr => exact hsame hst

/-- Only raising an event adds to what was raised and heard. -/
theorem Changed.raised_cases {sole : Prop} {n : Nat} {x x' : Participant}
    (h : Changed sole n x x') :
    (x'.heard = x.heard ∧ x'.raised = x.raised) ∨ x' = x.raise := by
  cases h with
  | calm hc _ => exact .inl ⟨hc.heard, hc.raised⟩
  | announced hc _ hne hy => exact .inl ⟨hc.heard, hc.raised⟩
  | parted hc _ hsy hg ho he =>
    obtain ⟨hr, hh, -⟩ := (Participant.appended he).record
    exact .inl ⟨hh.trans hc.heard, hr.trans hc.raised⟩
  | raised => exact .inr rfl
  | turned ht => exact .inl (by cases ht <;> exact ⟨rfl, rfl⟩)

/-- An announcement is recorded once, and nothing was raised after it yet. -/
theorem Changed.connectedAt {sole : Prop} {n c : Nat} {x x' : Participant}
    (h : Changed sole n x x') (hs : x.Sane) (hc : x'.connectedAt = some c) :
    x.connectedAt = some c ∨ (x'.raised ≤ c ∧ x'.raised = x.raised) := by
  cases h with
  | calm hcalm _ => exact .inl (hcalm.connectedAt ▸ hc)
  | @announced y hcalm _ hne hy =>
    have hc : y.connectedAt.or (some y.raised) = some c := hc
    cases hy : y.connectedAt with
    | none =>
      rw [hy] at hc
      cases hc
      exact .inr ⟨Nat.le_refl _, hcalm.raised⟩
    | some c' =>
      rw [hy] at hc
      cases hc
      exact .inl (hcalm.connectedAt.symm.trans hy)
  | parted hcalm _ hsy hg ho he =>
    obtain ⟨-, -, -, hcon, -⟩ := (Participant.appended he).record
    exact .inl (hcalm.connectedAt.symm.trans (hcon.symm.trans hc))
  | raised =>
    have hr := Participant.raised_cases hs.law
    generalize x.raise = x' at hr hc
    cases hr with
    | unheard ho => exact .inl hc
    | heard ho he => exact .inl ((Participant.appended he).record.2.2.2.1.symm.trans hc)
  | turned ht => exact .inl (by cases ht <;> exact hc)

section Step

variable {s s' : Room Sid} {p : Handle} (h : Flowing sid s p) (ht : Typed sid s)
  (hl : (s.participant p).Logged) (ha : Attended sid s p) (he : Effect sid s s')

include hl in
omit [DecidableEq Sid] in
private theorem current_of_owed
    (ho : (s.participant p).Owed (Sole sid p) (s.participant p).raised) :
    (s.participant p).Current := by
  obtain ⟨hsup, hg | ⟨-, hd⟩⟩ := ho
  · exact ⟨hg, hsup⟩
  · refine ⟨?_, hsup⟩
    by_contra hg
    obtain ⟨d, hd'⟩ := Option.isSome_iff_exists.mp (eq_true_of_ne_false hg)
    exact absurd (hd d hd') (Nat.not_lt.mpr (hl.disconnected d hd'))

include ht ha in
private theorem heard_of_live (hne : (s.participant p).observers ≠ [])
    (hcur : (s.participant p).Current) :
    (s.participant p).raised ∈ (s.participant p).raise.heard ∧
    ∃ ob : Observer, (s.participant p).raise.observers[0]? = some ob ∧
      .event (s.participant p).raised ∈ ob.accepted := by
  obtain ⟨ob, hco⟩ := ha ⟨hne, hcur.2, .inl hcur.1⟩
  have hr := Participant.raised_cases (ht.sane p).law
  generalize hx : (s.participant p).raise = x' at hr
  cases hr with
  | unheard ho =>
    rw [hco.observer] at ho
    cases ho
  | heard ho hen =>
    obtain ⟨-, hh, -⟩ := (Participant.appended hen).record
    rw [hco.observer] at ho
    cases ho
    refine ⟨by simp [hh], hen.accepts ?_⟩
    simp [Participant.isObserverClosed, hco.observers, hco.isOpen]

include h ht hl ha he

private theorem kept_step : ∀ k ∈ (s'.participant p).heard,
    (s'.participant p).Owed (Sole sid p) k →
    ∃ ob : Observer, (s'.participant p).observers[0]? = some ob ∧ .event k ∈ ob.accepted := by
  intro k hk ho
  have hch := he.changed p
  have ho := hch.owed (ht.sane p) ho
  have hold : k ∈ (s.participant p).heard →
      ∃ ob : Observer, (s'.participant p).observers[0]? = some ob ∧ .event k ∈ ob.accepted := by
    intro hk
    obtain ⟨ob, hob, hek⟩ := h.kept k hk ho
    obtain ⟨ob', hob', hacc⟩ := hch.accepted (ht.sane p) hob
    exact ⟨ob', hob', hacc _ hek⟩
  rcases hch.raised_cases with ⟨hh, -⟩ | hx
  · exact hold (hh ▸ hk)
  · by_cases hlt : k ∈ (s.participant p).heard
    · exact hold hlt
    · -- The event just raised.
      have hr := Participant.raised_cases (ht.sane p).law
      have hkr : k = (s.participant p).raised ∧ (s.participant p).observers ≠ [] := by
        rw [hx] at hk
        generalize (s.participant p).raise = x' at hr hk
        cases hr with
        | unheard ho => exact absurd hk hlt
        | heard hobs hen =>
          rw [(Participant.appended hen).record.2.1] at hk
          refine ⟨List.mem_singleton.mp ((List.mem_append.mp hk).resolve_left hlt), ?_⟩
          intro hn
          have hlt := (ht.sane p).observed _ hobs
          simp [hn] at hlt
      obtain ⟨rfl, hne⟩ := hkr
      rw [hx]
      exact (heard_of_live ht ha hne (current_of_owed hl ho)).2

private theorem announced_step : ∀ c, (s'.participant p).connectedAt = some c → ∀ k, c ≤ k →
    k < (s'.participant p).raised → (s'.participant p).Owed (Sole sid p) k →
      k ∈ (s'.participant p).heard := by
  intro c hc k hck hkr ho
  have hch := he.changed p
  have ho := hch.owed (ht.sane p) ho
  rcases hch.connectedAt (ht.sane p) hc with hc' | ⟨hle, -⟩
  · rcases hch.raised_cases with ⟨hh, hr⟩ | hx
    · rw [hh]
      exact h.announced c hc' k hck (hr ▸ hkr) ho
    · have hr := Participant.raised_cases (ht.sane p).law
      by_cases hlt : k < (s.participant p).raised
      · have hk := h.announced c hc' k hck hlt ho
        rw [hx]
        generalize (s.participant p).raise = x' at hr
        cases hr with
        | unheard hobs => exact hk
        | heard hobs hen =>
          rw [(Participant.appended hen).record.2.1]
          exact List.mem_append_left _ hk
      · -- The event just raised.
        have hkr : k = (s.participant p).raised := by
          rw [hx] at hkr
          have hle : (s.participant p).raise.raised = (s.participant p).raised + 1 := by
            generalize (s.participant p).raise = x' at hr
            cases hr with
            | unheard hobs => rfl
            | heard hobs hen => exact (Participant.appended hen).record.1
          omega
        subst hkr
        rw [hx]
        exact (heard_of_live ht ha (hl.connected (by simp [hc'])) (current_of_owed hl ho)).1
  · omega

omit h hl he in
private theorem eventCallback_of_started (hf : Flowing sid s p)
    (hl : (s.participant p).Logged) (hrec : Recorded s) {j k : Nat} {w : Wrap}
    {c : Traffic PendingEvent} {t : Turn} (hw : (s.participant p).wraps[j]? = some w)
    (hc : w.context.step (.turn t) = some c) (hst : w.context.loop.started t = some (.event k))
    (ho : (s.participant p).Owed (Sole sid p) k) : w.eventCallback = true := by
  obtain ⟨hown, hopen⟩ := Participant.owner_of_started (ht.sane p).law hw hst
  obtain ⟨ob, hob, hacc, hb⟩ := (ht.sane p).law.owned j w hw hown
  have hb : ob.wrap = some j := hb.resolve_right (by simp [hopen])
  have hne : (s.participant p).observers ≠ [] := by
    intro hn
    simp [hn] at hob
  have hlive : Attending sid s p → w.eventCallback = true := by
    intro hat
    obtain ⟨ob', hco⟩ := ha hat
    obtain rfl := hco.only hob
    obtain ⟨-, w', hw', hcb⟩ := hco.bound j hb
    cases hw.symm.trans hw'
    exact hcb
  obtain ⟨hsup, hg | ⟨hsole, hd⟩⟩ := ho
  · exact hlive ⟨hne, hsup, .inl hg⟩
  · by_cases hdisc : ∀ u ∈ s.context.started, u.event ≠ .participantDisconnected p
    · exact hlive ⟨hne, hsup, .inr ⟨hsole, hdisc⟩⟩
    · -- The last hop was started on this queue, and everything owed before it.
      simp only [not_forall, not_not] at hdisc
      obtain ⟨u, hu, hup⟩ := hdisc
      have hua := ((Traffic.lawful ht.context).pre rfl).subset hu
      obtain ⟨j', w', i, hw', hi⟩ := hrec.hopped u hua p hup
      have hown' := Participant.owns_of_started (ht.sane p).law hw' hi
      have hjj := Participant.owner_unique (ht.sane p).law (hf.few hsole) hw hw' hown hown'
      subst hjj
      cases hw.symm.trans hw'
      obtain ⟨d, hd'⟩ := Option.isSome_iff_exists.mp (ht.parted u hua p hup)
      have hlog := hl.logs _ ob hob
      obtain ⟨hca, hcs, -, -⟩ := Traffic.step_turn hc
      have hpre : c.started <+: c.accepted :=
        (Traffic.lawful (Machine.Reachable.step (a := .turn t) ((ht.sane p).law.sound j w hw)
          hc)).pre rfl
      rw [hca, hacc, hcs, hst] at hpre
      obtain ⟨rest, hrest⟩ := hpre
      have hpair := hlog.last d hd'
      rw [← hrest, List.append_assoc] at hpair
      have hle := (List.pairwise_append.mp hpair).2.2 _ hi (.event k) (by simp) rfl k rfl
      exact absurd (hd d hd') (Nat.not_lt.mpr hle)

private theorem delivered_step (hrec : Recorded s) : ∀ (j : Nat) (w : Wrap) (k : Nat),
    (s'.participant p).wraps[j]? = some w → .event k ∈ w.context.started →
    (s'.participant p).Owed (Sole sid p) k → k ∈ w.received := by
  intro j w' k hw' hk ho
  have hch := he.changed p
  have ho := hch.owed (ht.sane p) ho
  have hcalm : ∀ {y : Participant} {v : Wrap}, (s.participant p).Calm y → y.wraps[j]? = some v →
      .event k ∈ v.context.started → k ∈ v.received := by
    intro y v hc hv hk
    rcases hc.started_cases hv with ⟨-, hst⟩ | ⟨w, hw, hr, hst⟩
    · rw [hst] at hk
      cases hk
    · rw [hr]
      exact h.delivered j w k hw (hst ▸ hk) ho
  generalize s'.participant p = x' at hw' hch
  cases hch with
  | calm hc _ => exact hcalm hc hw' hk
  | announced hc _ hne hy => exact hcalm hc hw' hk
  | parted hc _ hsy hg hop hen =>
    obtain ⟨w, hw, hr, hst⟩ := (Participant.appended hen).started_cases hw'
    rw [hr]
    exact hcalm hc hw (hst ▸ hk)
  | raised =>
    have hr := Participant.raised_cases (ht.sane p).law
    generalize (s.participant p).raise = x' at hr hw'
    cases hr with
    | unheard hobs => exact h.delivered j w' k hw' hk ho
    | heard hobs hen =>
      obtain ⟨w, hw, hr, hst⟩ := (Participant.appended hen).started_cases hw'
      rw [hr]
      exact h.delivered j w k hw (hst ▸ hk) ho
  | turned hturn =>
    cases hturn with
    | @quiet v c hv hc hst =>
      obtain ⟨-, hcs, -, -⟩ := Traffic.step_turn hc
      rcases Parties.getElem?_set hv hw' with ⟨rfl, rfl⟩ | ⟨-, hw'⟩
      · exact h.delivered j v k hv (by simpa [hcs, hst] using hk) ho
      · exact h.delivered j w' k hw' hk ho
    | @event v c i hv hc hst =>
      obtain ⟨-, hcs, -, -⟩ := Traffic.step_turn hc
      rcases Parties.getElem?_set hv hw' with ⟨rfl, rfl⟩ | ⟨-, hw'⟩
      · have hk : .event k ∈ c.started := hk
        rw [hcs, hst, List.mem_append] at hk
        rcases hk with hk | hk
        · have hold := h.delivered j v k hv hk ho
          simp only
          split
          · exact List.mem_append_left _ hold
          · exact hold
        · obtain rfl : k = i := by simpa using hk
          have hcb := eventCallback_of_started ht ha h hl hrec hv hc hst ho
          simp [hcb]
      · exact h.delivered j w' k hw' hk ho
    | @hop v c i hv hc hst =>
      obtain ⟨-, hcs, -, -⟩ := Traffic.step_turn hc
      rcases Parties.getElem?_set hv hw' with ⟨rfl, rfl⟩ | ⟨-, hw'⟩
      · exact h.delivered j v k hv (by simpa [hcs, hst] using hk) ho
      · exact h.delivered j w' k hw' hk ho

omit h hl ha in
private theorem alone_step (hf : Flowing sid s p) (hsole : Sole sid p) :
    (s'.participant p).superseded = false := by
  have hch := he.changed p
  have hsup := hf.alone hsole
  generalize s'.participant p = x' at hch
  cases hch with
  | calm hc hs => exact (hs hsole).trans hsup
  | announced hc hs hne hy => exact (hs hsole).trans hsup
  | parted hc hs hsy hy hop hen =>
    exact (Participant.appended hen).record.2.2.1.trans ((hs hsole).trans hsup)
  | raised =>
    have hr := Participant.raised_cases (ht.sane p).law
    generalize (s.participant p).raise = x' at hr
    cases hr with
    | unheard hobs => exact hsup
    | heard hobs hen => exact (Participant.appended hen).record.2.2.1.trans hsup
  | turned hturn => cases hturn <;> exact hsup

omit h hl ha in
private theorem not_parted (hg : (s.participant p).gone = false) :
    ∀ t ∈ s'.context.started, t.event ≠ .participantDisconnected p := by
  intro t hts hp
  have hacc := (he.started fun _ h ↦ ((Traffic.lawful ht.context).pre rfl).subset h).2 t hts
  rw [ht.parted t hacc p hp] at hg
  cases hg

omit h hl ha in
private theorem few_step (hf : Flowing sid s p) (ha' : Attended sid s' p) (hsole : Sole sid p) :
    (s'.participant p).observers.length ≤ 1 := by
  cases hg : (s.participant p).gone with
  | true =>
    rw [(he.changed p).frozen (ht.sane p) hg]
    exact hf.few hsole
  | false =>
    by_cases hn : (s'.participant p).observers = []
    · simp [hn]
    · obtain ⟨ob, hco⟩ := ha' ⟨hn, alone_step ht he hf hsole, .inr ⟨hsole, not_parted ht he hg⟩⟩
      simp [hco.observers]

omit h hl ha in
private theorem hop_step (hf : Flowing sid s p) (ha' : Attended sid s' p) (hsole : Sole sid p) :
    ∀ d, (s'.participant p).disconnectedAt = some d → ∃ (ob : Observer) (i : Nat),
      (s'.participant p).observers[0]? = some ob ∧ .raw i ∈ ob.accepted := by
  intro d hd
  have hfew := few_step ht he hf ha' hsole
  have hch := he.changed p
  have hold : ∀ d, (s.participant p).disconnectedAt = some d → ∃ (ob : Observer) (i : Nat),
      (s'.participant p).observers[0]? = some ob ∧ .raw i ∈ ob.accepted := by
    intro d hd
    obtain ⟨ob, i, hob, hi⟩ := hf.hop hsole d hd
    obtain ⟨ob', hob', hacc⟩ := hch.accepted (ht.sane p) hob
    exact ⟨ob', i, hob', hacc _ hi⟩
  generalize s'.participant p = x' at hd hch hfew hold ⊢
  cases hch with
  | calm hc _ => exact hold d (hc.disconnectedAt.symm.trans hd)
  | announced hc _ hne hy => exact hold d (hc.disconnectedAt.symm.trans hd)
  | @parted y y' o hc _ hsy hy hop hen =>
    obtain ⟨ob, hob, hmem⟩ := hen.accepts hop
    have hlt : o < y'.observers.length := (List.getElem?_eq_some_iff.mp hob).1
    have hfew : y'.observers.length ≤ 1 := hfew
    obtain rfl : o = 0 := by omega
    exact ⟨ob, _, hob, hmem⟩
  | raised =>
    have hr := Participant.raised_cases (ht.sane p).law
    generalize (s.participant p).raise = x' at hr hd hold ⊢
    cases hr with
    | unheard hobs => exact hold d hd
    | heard hobs hen => exact hold d ((Participant.appended hen).record.2.2.2.2.symm.trans hd)
  | turned hturn => exact hold d (by cases hturn <;> exact hd)

omit h ha in
private theorem once_step (hf : Flowing sid s p) (hrec : Recorded s) (hsole : Sole sid p) :
    (s'.context.accepted.countP fun t ↦ t.event = .participantDisconnected p) ≤ 1 := by
  have hsame : s'.context.accepted = s.context.accepted →
      (s'.context.accepted.countP fun t ↦ t.event = .participantDisconnected p) ≤ 1 := by
    intro he
    rw [he]
    exact hf.once hsole
  have hother : ∀ {task : Task}, s'.context.accepted = s.context.accepted ++ [task] →
      task.event ≠ .participantDisconnected p →
      (s'.context.accepted.countP fun t ↦ t.event = .participantDisconnected p) ≤ 1 := by
    intro task he hne
    rw [he, List.countP_append]
    simpa [hne] using hf.once hsole
  cases he with
  | quiet hq hacc hst => exact hsame (by rw [hq.context]; exact hacc)
  | starts hq htask hacc hst => exact hsame (by rw [hq.context]; exact hacc)
  | dispatches hq hne hp hacc hst hr => exact hother hacc (hne p)
  | announces hq hne hg hp hacc hst hr => exact hother hacc (by simp)
  | parts hq hs hg ho hx hp hc hr => exact hsame (by rw [hc])
  | raises hp hc hr => exact hsame (by rw [hc])
  | turns hx hp hc hr => exact hsame (by rw [hc])
  | @hops q j t x i o hx hp hacc hst hr =>
    by_cases hq : q = p
    · subst hq
      -- The owner has accepted one hop only, so none was started before.
      have hzero :
          (s.context.accepted.countP fun t ↦ t.event = .participantDisconnected q) = 0 := by
        rw [List.countP_eq_zero]
        intro u hu hup
        obtain ⟨j', w', i', hw', hi'⟩ := hrec.hopped u hu q (by simpa using hup)
        have hown' := Participant.owns_of_started (ht.sane q).law hw' hi'
        cases hx with
        | @hop w c _ hw hc hst =>
          obtain ⟨hown, -⟩ := Participant.owner_of_started (ht.sane q).law hw hst
          have hjj := Participant.owner_unique (ht.sane q).law (hf.few hsole) hw hw' hown hown'
          subst hjj
          have hi' : .raw i' ∈ w.context.started := by
            cases hw.symm.trans hw'
            exact hi'
          obtain ⟨ob, hob, hwacc, -⟩ := (ht.sane q).law.owned j w hw hown
          obtain ⟨hca, hcs, -, -⟩ := Traffic.step_turn hc
          have hpre : c.started <+: c.accepted :=
            (Traffic.lawful (Machine.Reachable.step (a := .turn t) ((ht.sane q).law.sound j w hw)
              hc)).pre rfl
          rw [hca, hwacc, hcs, hst] at hpre
          have hcount := hpre.sublist.countP_le (p := PendingEvent.isRaw)
          have hpos : 0 < w.context.started.countP PendingEvent.isRaw :=
            List.countP_pos_iff.mpr ⟨_, hi', rfl⟩
          have hsingle := (hl.logs _ ob hob).single
          simp only [List.countP_append, Option.toList_some, List.countP_singleton,
            PendingEvent.isRaw, if_true] at hcount
          omega
      rw [hacc, List.countP_append, hzero]
      simp
    · exact hother hacc (by simpa using hq)

omit h ha in
-- Whoever gets a first observer gets a wrap as well, is named in a callback on the Room's queue, or
-- leaves at once.
private theorem first_observer (hn : (s.participant p).observers = [])
    (hne : (s'.participant p).observers ≠ []) : (s'.participant p).wraps ≠ [] ∨
    (∃ t ∈ s'.context.accepted, t.event.participant = some p) ∨
    ((s'.participant p).connectedAt = none ∧ ∃ d, (s'.participant p).disconnectedAt = some d ∧
      ∀ k ∈ (s'.participant p).heard, d ≤ k) := by
  have hquiet : ∀ {s₁ : Room Sid} {named : Option Handle}, Quiet sid named s s₁ →
      (s'.participant p).observers = (s₁.participant p).observers →
      (s'.participant p).wraps = (s₁.participant p).wraps → named ≠ some p →
      (s'.participant p).wraps ≠ [] := by
    intro s₁ named hq hobs hw hnp
    rw [hw]
    exact hq.wrapped p hnp hn (hobs ▸ hne)
  have hraise : ∀ {x : Participant}, Participant.Raised (s.participant p) x →
      x.observers.length = (s.participant p).observers.length := by
    intro x hx
    cases hx with
    | unheard ho => rfl
    | heard ho hen => exact (Participant.appended hen).length
  cases he with
  | quiet hq ha hst => exact .inl (hq.wrapped p (by simp) hn hne)
  | starts hq htask ha hst => exact .inl (hq.wrapped p (by simp) hn hne)
  | @dispatches s₁ event o hq hnd hp ha hst hr =>
    by_cases hpp : event.participant = some p
    · exact .inr (.inl ⟨_, ha ▸ List.mem_append_right _ (List.mem_singleton_self _), hpp⟩)
    · exact .inl (hquiet hq (by rw [hp]) (by rw [hp]) hpp)
  | @announces s₁ q o hq hqne hg hp ha hst hr =>
    by_cases hqp : q = p
    · subst hqp
      exact .inr (.inl ⟨_, ha ▸ List.mem_append_right _ (List.mem_singleton_self _), rfl⟩)
    · have hpq := participant_modify_of_ne s₁ (fun x ↦
        { x with connectedAt := x.connectedAt.or (some x.raised) }) (Ne.symm hqp)
      exact .inl (hquiet hq (by rw [hp, hpq]) (by rw [hp, hpq]) (by simpa using hqp))
  | @parts s₁ q o x hq hs hg ho hx hp hc hr =>
    by_cases hqp : q = p
    · subst hqp
      -- Nothing was heard without an observer.
      rw [hp, participant_modify_self]
      obtain ⟨-, hh, -, hcon, -⟩ := (Participant.appended hx).record
      have hheard : x.heard = [] := by
        rw [hh, (hq.calm q).heard]
        by_contra hne
        exact hl.observed hne hn
      refine .inr (.inr ⟨?_, _, rfl, ?_⟩)
      · rw [hcon, (hq.calm q).connectedAt]
        by_contra hne
        exact hl.connected hne hn
      · intro k hk
        rw [hheard] at hk
        cases hk
    · have hpq := participant_modify_of_ne s₁ (fun _ ↦ { x with
        disconnectedAt := some (s₁.participant q).raised }) (Ne.symm hqp)
      exact .inl (hquiet hq (by rw [hp, hpq]) (by rw [hp, hpq]) (by simpa using hqp))
  | @raises q hp hc hr =>
    have hlen : (s'.participant p).observers.length = (s.participant p).observers.length := by
      rw [hp]
      by_cases hqp : p = q
      · subst hqp
        rw [participant_modify_self]
        exact hraise (Participant.raised_cases (ht.sane p).law)
      · rw [participant_modify_of_ne s _ hqp]
    rw [hn] at hlen
    exact absurd (List.length_eq_zero_iff.mp hlen) hne
  | @turns q j t x hx hp hc hr =>
    refine absurd ?_ hne
    rw [hp]
    by_cases hqp : p = q
    · subst hqp
      rw [participant_modify_self]
      cases hx <;> exact hn
    · rw [participant_modify_of_ne s _ hqp]
      exact hn
  | @hops q j t x i o hx hp ha hst hr =>
    refine absurd ?_ hne
    rw [hp]
    by_cases hqp : p = q
    · subst hqp
      rw [participant_modify_self]
      cases hx
      exact hn
    · rw [participant_modify_of_ne s _ hqp]
      exact hn

omit h ha in
private theorem named_step (hf : Flowing sid s p) (hat' : Attending sid s' p)
    (hw : (s'.participant p).wraps = []) :
    (∃ t ∈ s'.context.accepted, t.event.participant = some p) ∨
    ((s'.participant p).connectedAt = none ∧ ∃ d, (s'.participant p).disconnectedAt = some d ∧
      ∀ k ∈ (s'.participant p).heard, d ≤ k) := by
  have hch := he.changed p
  by_cases hn : (s.participant p).observers = []
  · exact (first_observer ht hl he hn hat'.1).resolve_left fun hne ↦ hne hw
  · have hstart := he.started fun _ h ↦ ((Traffic.lawful ht.context).pre rfl).subset h
    have hat : Attending sid s p := by
      refine ⟨hn, hch.superseded (ht.sane p) hat'.2.1,
        hat'.2.2.imp (fun hg ↦ ?_) fun hsole ↦ ⟨hsole.1, fun t hts ↦ ?_⟩⟩
      · by_contra hx
        rw [hch.gone (ht.sane p) (by simpa using hx)] at hg
        cases hg
      · exact hsole.2 t (hstart.1 t hts)
    have hw₀ : (s.participant p).wraps = [] := by
      by_contra hne
      obtain ⟨w, hmem⟩ := List.exists_mem_of_ne_nil _ hne
      obtain ⟨j, hj⟩ := List.mem_iff_getElem?.mp hmem
      obtain ⟨w', hw', -⟩ := hch.started (ht.sane p) hj
      simp [hw] at hw'
    rcases hf.named hat hw₀ with ⟨t, hacc, hp⟩ | ⟨hcon, d, hd, hle⟩
    · exact .inl ⟨t, he.accepted t hacc, hp⟩
    · -- A participant that has left is neither announced nor leaves again.
      have hgone : (s.participant p).gone = true := Option.isSome_iff_exists.mpr ⟨d, hd⟩
      have hdr := hl.disconnected d hd
      refine .inr ?_
      generalize s'.participant p = x' at hch ⊢
      cases hch with
      | calm hc _ =>
        refine ⟨hc.connectedAt.trans hcon, d, hc.disconnectedAt.trans hd, ?_⟩
        rw [hc.heard]
        exact hle
      | announced hc _ hne hy =>
        rw [hc.gone, hgone] at hy
        cases hy
      | parted hc _ hsy hy hop hen =>
        rw [hc.gone, hgone] at hy
        cases hy
      | raised =>
        have hr := Participant.raised_cases (ht.sane p).law
        generalize (s.participant p).raise = x' at hr ⊢
        cases hr with
        | unheard hobs => exact ⟨hcon, d, hd, hle⟩
        | heard hobs hen =>
          obtain ⟨-, hh, -, hcon', hdis⟩ := (Participant.appended hen).record
          refine ⟨hcon'.trans hcon, d, hdis.trans hd, fun k hk ↦ ?_⟩
          rw [hh] at hk
          rcases List.mem_append.mp hk with hk | hk
          · exact hle k hk
          · rw [List.mem_singleton.mp hk]
            exact hdr
      | turned hturn => cases hturn <;> exact ⟨hcon, d, hd, hle⟩

/-- Every step of a participant that is attended to before and after it keeps the flow. -/
theorem flowing_step (hrec : Recorded s) (ha' : Attended sid s' p) : Flowing sid s' p where
  alone := alone_step ht he h
  few := few_step ht he h ha'
  kept := kept_step h ht hl ha he
  announced := announced_step h ht hl ha he
  delivered := delivered_step h ht hl ha he hrec
  hop := hop_step ht he h ha'
  once := once_step ht hl he h hrec
  named := named_step ht hl he h

end Step

/-- In every run, events of a participant with a SID of its own flow. -/
theorem flowing_of_sole {s : Room Sid} {p : Handle} (hp : Sole sid p)
    (h : (machine sid).Reachable s) : Flowing sid s p := by
  refine h.invariant_of_reachable (p := fun s ↦ Flowing sid s p) (flowing_init p) ?_
  intro s a s' hr hf hs
  have ht := typed_of_reachable hr
  exact flowing_step hf ht (logged_of_reachable hr p) (attended_of_sole hp hr)
    (effect_of_step ht hs) (recorded_of_reachable hr) (attended_of_sole hp (hr.step hs))

end Room

end VideoNode.Remote
