import VideoNode.Remote.Effects

/-!
# What the Room's queue has to do with the Room callbacks raised

An event is put on the Room's queue as soon as its callback is raised, except for a
`participantDisconnected`: that one waits on the participant's own queue first, and is put on the
Room's queue when its last hop starts there.
-/

namespace VideoNode.Remote

open VideoNode.Common VideoNode.Lts VideoNode.Js

namespace Participant

/-- An observer has accepted this last hop. -/
def Hop (x : Participant) (i : Nat) : Prop :=
  ∃ (o : Nat) (ob : Observer), x.observers[o]? = some ob ∧ .raw i ∈ ob.accepted

/-- A wrap has started a last hop. -/
def Hopped (x : Participant) : Prop :=
  ∃ (j : Nat) (w : Wrap) (i : Nat), x.wraps[j]? = some w ∧ .raw i ∈ w.context.started

/-- No hop is made and none is started. -/
structure Hopless (x x' : Participant) : Prop where
  hop : ∀ i, x'.Hop i → x.Hop i
  hopped : x'.Hopped → x.Hopped

/-- No change at all. -/
theorem Hopless.refl (x : Participant) : Hopless x x := ⟨fun _ ↦ id, id⟩

/-- A calm change makes and starts no hop. -/
theorem hopless_of_calm {x x' : Participant} (h : Calm x x') : Hopless x x' where
  hop i hi := by
    obtain ⟨o, ob', hob', hi⟩ := hi
    rcases h.accepted_cases hob' with ha | ⟨ob, hob, ha⟩
    · rw [ha] at hi
      cases hi
    · exact ⟨o, ob, hob, ha ▸ hi⟩
  hopped hx := by
    obtain ⟨j, w', i, hw', hi⟩ := hx
    rcases h.started_cases hw' with ⟨-, hst⟩ | ⟨w, hw, -, hst⟩
    · rw [hst] at hi
      cases hi
    · exact ⟨j, w, i, hw, hst ▸ hi⟩

private theorem hopped_of_enqueued {x x' : Participant} {o : Nat} {event : PendingEvent}
    (h : Enqueued x o event x') (hx : x'.Hopped) : x.Hopped := by
  obtain ⟨j, w', i, hw', hi⟩ := hx
  obtain ⟨w, hw, -, hst⟩ := (appended h).started_cases hw'
  exact ⟨j, w, i, hw, hst ▸ hi⟩

/-- Raising an event makes and starts no hop. -/
theorem hopless_of_raised {x x' : Participant} (h : Raised x x') : Hopless x x' := by
  cases h with
  | unheard ho => exact ⟨fun _ ↦ id, id⟩
  | heard ho he =>
    have hb := hopped_of_enqueued he
    refine ⟨fun i hi ↦ ?_, hb⟩
    obtain ⟨o', ob', hob', hi⟩ := hi
    obtain ⟨ob, hob, ha | ⟨-, ha⟩⟩ := (appended he).accepted_cases hob'
    · exact ⟨o', ob, hob, ha ▸ hi⟩
    · exact ⟨o', ob, hob, by simpa [ha] using hi⟩

/-- A step of a wrap's `drain()` makes no hop. -/
theorem hop_of_turned {x x' : Participant} {j : Nat} {t : Turn} {hop : Option (Nat × Nat)} {i : Nat}
    (h : Turned x j t x' hop) (hi : x'.Hop i) : x.Hop i := by
  cases h <;> exact hi

/-- A step of a wrap's `drain()` that starts no hop. -/
theorem hopless_of_turned {x x' : Participant} {j : Nat} {t : Turn} (h : Turned x j t x' none) :
    Hopless x x' := by
  have key : ∀ {w w' : Wrap}, x.wraps[j]? = some w →
      (∀ i, .raw i ∈ w'.context.started → .raw i ∈ w.context.started) →
      Participant.Hopped { x with wraps := x.wraps.set j w' } → x.Hopped := by
    rintro w w' hw hst ⟨i, u, n, hu, hn⟩
    rcases Parties.getElem?_set hw hu with ⟨rfl, rfl⟩ | ⟨-, hu⟩
    · exact ⟨i, w, n, hw, hst n hn⟩
    · exact ⟨i, u, n, hu, hn⟩
  refine ⟨fun i ↦ hop_of_turned h, ?_⟩
  cases h with
  | quiet hw hc hst =>
    obtain ⟨-, hcs, -, -⟩ := Traffic.step_turn hc
    exact key hw (by simp [hcs, hst])
  | event hw hc hst =>
    obtain ⟨-, hcs, -, -⟩ := Traffic.step_turn hc
    exact key hw (by simp [hcs, hst])

/-- The last callback about a participant makes the one hop, and starts none. -/
theorem hop_of_enqueued {x x' : Participant} {o n : Nat} (h : Enqueued x o (.raw n) x') :
    (∀ i, x'.Hop i → x.Hop i ∨ i = n) ∧ (x'.Hopped → x.Hopped) := by
  refine ⟨fun i hi ↦ ?_, hopped_of_enqueued h⟩
  obtain ⟨o', ob', hob', hi⟩ := hi
  obtain ⟨ob, hob, ha | ⟨-, ha⟩⟩ := (appended h).accepted_cases hob'
  · exact .inl ⟨o', ob, hob, ha ▸ hi⟩
  · rw [ha, List.mem_append, List.mem_singleton] at hi
    rcases hi with hi | hi
    · exact .inl ⟨o', ob, hob, hi⟩
    · exact .inr (by cases hi; rfl)

/-- A hop that a step of a wrap's `drain()` starts was accepted, and is started then. -/
theorem hop_of_hops {x x' : Participant} {j : Nat} {t : Turn} {i o : Nat} (h : Law x)
    (ht : Turned x j t x' (some (i, o))) : x.Hop i ∧ x'.Hopped := by
  have hl := law_turn h ht
  cases ht with
  | @hop w c i hw hc hst =>
    obtain ⟨hca, hcs, -, -⟩ := Traffic.step_turn hc
    have hmem : .raw i ∈ c.started := by simp [hcs, hst]
    have hw' : (x.wraps.set j { w with context := c })[j]? = some { w with context := c } :=
      Parties.getElem?_set_self hw
    refine ⟨?_, j, _, i, hw', hmem⟩
    obtain ⟨hown, -⟩ := owner_of_started h hw hst
    obtain ⟨ob, hob, ha, -⟩ := h.owned j w hw hown
    refine ⟨w.observer, ob, hob, ?_⟩
    rw [← ha, ← hca]
    exact ((Traffic.lawful (hl.sound j _ hw')).pre rfl).subset hmem

end Participant

namespace Room

variable {Sid : Type} [DecidableEq Sid] {sid : Handle → Sid}

/-- What a wrap has started it stays to have started. -/
theorem Changed.started {sole : Prop} {n : Nat} {x x' : Participant} (h : Changed sole n x x')
    (hs : x.Sane) {j : Nat} {w : Wrap} (hw : x.wraps[j]? = some w) :
    ∃ w' : Wrap, x'.wraps[j]? = some w' ∧ (∀ k ∈ w.received, k ∈ w'.received) ∧
      ∀ e ∈ w.context.started, e ∈ w'.context.started := by
  have hsame : ∀ {w' : Wrap}, w'.received = w.received → w'.context.started = w.context.started →
      (∀ k ∈ w.received, k ∈ w'.received) ∧ ∀ e ∈ w.context.started, e ∈ w'.context.started :=
    fun hr hst ↦ ⟨fun _ h ↦ hr ▸ h, fun _ h ↦ hst ▸ h⟩
  cases h with
  | calm hc hg =>
    obtain ⟨w', hw', hr, hst⟩ := hc.wraps j w hw
    exact ⟨w', hw', hsame hr hst⟩
  | announced hc hg hne hy =>
    obtain ⟨w', hw', hr, hst⟩ := hc.wraps j w hw
    exact ⟨w', hw', hsame hr hst⟩
  | parted hc _ hsy hg ho he =>
    obtain ⟨w₁, hw₁, hr₁, hst₁⟩ := hc.wraps j w hw
    obtain ⟨w', hw', hr, hst⟩ := (Participant.appended he).wraps j w₁ hw₁
    exact ⟨w', hw', hsame (hr.trans hr₁) (hst.trans hst₁)⟩
  | raised =>
    have hr := Participant.raised_cases hs.law
    generalize x.raise = x' at hr
    cases hr with
    | unheard ho => exact ⟨w, hw, hsame rfl rfl⟩
    | heard ho he =>
      obtain ⟨w', hw', hr, hst⟩ := (Participant.appended he).wraps j w hw
      exact ⟨w', hw', hsame hr hst⟩
  | turned ht =>
    have hset : ∀ {i : Nat} {v v' : Wrap}, x.wraps[i]? = some v →
        (∀ k ∈ v.received, k ∈ v'.received) →
        (∀ e ∈ v.context.started, e ∈ v'.context.started) →
        ∃ w' : Wrap, (x.wraps.set i v')[j]? = some w' ∧ (∀ k ∈ w.received, k ∈ w'.received) ∧
          ∀ e ∈ w.context.started, e ∈ w'.context.started := by
      intro i v v' hv hr hst
      rcases Parties.getElem?_after_set hv hw with ⟨-, rfl, h⟩ | ⟨-, h⟩
      · exact ⟨v', h v', hr, hst⟩
      · exact ⟨w, h v', fun _ h ↦ h, fun _ h ↦ h⟩
    cases ht with
    | quiet hv hc hst =>
      obtain ⟨-, hcs, -, -⟩ := Traffic.step_turn hc
      exact hset hv (fun _ h ↦ h) (by simp +contextual [hcs])
    | event hv hc hst =>
      obtain ⟨-, hcs, -, -⟩ := Traffic.step_turn hc
      refine hset hv ?_ (by simp +contextual [hcs])
      intro k hk
      simp only
      split
      · exact List.mem_append_left _ hk
      · exact hk
    | hop hv hc hst =>
      obtain ⟨-, hcs, -, -⟩ := Traffic.step_turn hc
      exact hset hv (fun _ h ↦ h) (by simp +contextual [hcs])

/-- Who is gone stays gone. -/
theorem Changed.gone {sole : Prop} {n : Nat} {x x' : Participant} (h : Changed sole n x x')
    (hs : x.Sane) (hg : x.gone = true) : x'.gone = true := by
  cases h with
  | calm hc _ => exact hc.gone.trans hg
  | announced hc _ hne hy => exact hc.gone.trans hg
  | parted hc _ hsy hg' ho he => rfl
  | raised => exact (Participant.sane_raised hs (Participant.raised_cases hs.law)).2.gone hg
  | turned ht => exact (Participant.sane_turn hs ht).2.1.gone hg

/-- A started hop stays started. -/
theorem Changed.hopped {sole : Prop} {n : Nat} {x x' : Participant} (h : Changed sole n x x')
    (hs : x.Sane) (hx : x.Hopped) : x'.Hopped := by
  obtain ⟨j, w, i, hw, hi⟩ := hx
  obtain ⟨w', hw', -, hst⟩ := h.started hs hw
  exact ⟨j, w', i, hw', hst _ hi⟩

/-- How the Room's queue and the hops agree with the Room callbacks raised so far. -/
structure Recorded (s : Room Sid) : Prop where
  tasks : ∀ t ∈ s.context.accepted, s.raised[t.index]? = some t.event
  hops : ∀ (p : Handle) (i : Nat), (s.participant p).Hop i →
    s.raised[i]? = some (.participantDisconnected p)
  plain : ∀ (i : Nat) (event : RoomEvent), s.raised[i]? = some event →
    (∀ p, event ≠ .participantDisconnected p) → ∃ t ∈ s.context.accepted, t.index = i
  parted : ∀ (p : Handle) (i : Nat), s.raised[i]? = some (.participantDisconnected p) →
    (s.participant p).gone = true
  once : ∀ (p : Handle) (i j : Nat), s.raised[i]? = some (.participantDisconnected p) →
    s.raised[j]? = some (.participantDisconnected p) → i = j
  hopped : ∀ t ∈ s.context.accepted, ∀ p, t.event = .participantDisconnected p →
    (s.participant p).Hopped
  landed : ∀ p, (s.participant p).Hopped →
    ∃ t ∈ s.context.accepted, t.event = .participantDisconnected p
  order : ∀ (n : Nat) (t : Task) (p : Handle), s.context.accepted[n]? = some t →
    t.event = .participantDisconnected p → ∀ (i : Nat) (event : RoomEvent), i < t.index →
      s.raised[i]? = some event → (∀ q, q ≠ p → event ≠ .participantDisconnected q) →
      ∃ (m : Nat) (u : Task), m < n ∧ s.context.accepted[m]? = some u ∧ u.index = i

omit [DecidableEq Sid] in
/-- Nothing was raised. -/
theorem recorded_init : Recorded (init : Room Sid) where
  tasks t ht := by cases ht
  hops p i hi := by
    obtain ⟨o, ob, hob, -⟩ := hi
    simp [init, Participant.init] at hob
  plain i event hi := by simp [init] at hi
  parted p i hi := by simp [init] at hi
  once p i j hi := by simp [init] at hi
  hopped t ht := by cases ht
  landed p hp := by
    obtain ⟨j, w, i, hw, -⟩ := hp
    simp [init, Participant.init] at hw
  order n t p hn := by
    have hn : ([] : List Task)[n]? = some t := hn
    simp at hn

omit [DecidableEq Sid] in
private theorem Recorded.keep {s s' : Room Sid} (h : Recorded s)
    (ha : s'.context.accepted = s.context.accepted) (hr : s'.raised = s.raised)
    (hh : ∀ p, (s.participant p).Hopless (s'.participant p))
    (hg : ∀ p, (s.participant p).gone = true → (s'.participant p).gone = true)
    (hd : ∀ p, (s.participant p).Hopped → (s'.participant p).Hopped) : Recorded s' := by
  refine ⟨?_, ?_, ?_, ?_, ?_, ?_, ?_, ?_⟩
  · rw [ha, hr]
    exact h.tasks
  · rw [hr]
    exact fun p i hi ↦ h.hops p i ((hh p).hop i hi)
  · rw [ha, hr]
    exact h.plain
  · rw [hr]
    exact fun p i hi ↦ hg p (h.parted p i hi)
  · rw [hr]
    exact h.once
  · rw [ha]
    exact fun t ht p hp ↦ hd p (h.hopped t ht p hp)
  · rw [ha]
    exact fun p hp ↦ h.landed p ((hh p).hopped hp)
  · rw [ha, hr]
    exact h.order

private theorem getElem?_concat_of {α : Type} {l : List α} {i : Nat} {a b : α}
    (h : l[i]? = some a) : (l ++ [b])[i]? = some a := by
  rw [List.getElem?_append_left (List.getElem?_eq_some_iff.mp h).1]
  exact h

omit [DecidableEq Sid] in
private theorem Recorded.dispatch {s s' : Room Sid} {event : RoomEvent} {o : Option Nat}
    (h : Recorded s) (he : ∀ p, event ≠ .participantDisconnected p)
    (ha : s'.context.accepted = s.context.accepted ++ [⟨s.raised.length, event, o⟩])
    (hr : s'.raised = s.raised ++ [event])
    (hh : ∀ p, (s.participant p).Hopless (s'.participant p))
    (hg : ∀ p, (s.participant p).gone = true → (s'.participant p).gone = true)
    (hd : ∀ p, (s.participant p).Hopped → (s'.participant p).Hopped) : Recorded s' := by
  -- A `participantDisconnected` was raised before.
  have hold : ∀ {p : Handle} {i : Nat}, s'.raised[i]? = some (.participantDisconnected p) →
      s.raised[i]? = some (.participantDisconnected p) := by
    intro p i hi
    rw [hr] at hi
    rcases Parties.getElem?_concat hi with ⟨-, hp⟩ | hi
    · exact absurd hp.symm (he p)
    · exact hi
  refine ⟨?_, ?_, ?_, ?_, ?_, ?_, ?_, ?_⟩
  · intro t ht
    rw [ha, List.mem_append, List.mem_singleton] at ht
    rw [hr]
    rcases ht with ht | rfl
    · exact getElem?_concat_of (h.tasks t ht)
    · simp
  · intro p i hi
    rw [hr]
    exact getElem?_concat_of (h.hops p i ((hh p).hop i hi))
  · intro i e hi hne
    rw [hr] at hi
    rw [ha]
    rcases Parties.getElem?_concat hi with ⟨rfl, rfl⟩ | hi
    · exact ⟨_, List.mem_append_right _ (List.mem_singleton_self _), rfl⟩
    · obtain ⟨t, ht, hi⟩ := h.plain i e hi hne
      exact ⟨t, List.mem_append_left _ ht, hi⟩
  · exact fun p i hi ↦ hg p (h.parted p i (hold hi))
  · exact fun p i j hi hj ↦ h.once p i j (hold hi) (hold hj)
  · intro t ht p hp
    rw [ha, List.mem_append, List.mem_singleton] at ht
    rcases ht with ht | rfl
    · exact hd p (h.hopped t ht p hp)
    · exact absurd hp (he p)
  · intro p hp
    obtain ⟨t, ht, htp⟩ := h.landed p ((hh p).hopped hp)
    exact ⟨t, ha ▸ List.mem_append_left _ ht, htp⟩
  · intro n t p hn hp i e hi hie hq
    rw [ha] at hn
    rcases Parties.getElem?_concat hn with ⟨-, rfl⟩ | hn
    · exact absurd hp (he p)
    · -- What was raised before an event on the queue was raised before.
      have hlt : i < s.raised.length := by
        have hti := h.tasks t (List.mem_iff_getElem?.mpr ⟨n, hn⟩)
        exact Nat.lt_trans hi (List.getElem?_eq_some_iff.mp hti).1
      rw [hr, List.getElem?_append_left hlt] at hie
      obtain ⟨m, u, hm, hu, hui⟩ := h.order n t p hn hp i e hi hie hq
      exact ⟨m, u, hm, ha ▸ getElem?_concat_of hu, hui⟩

omit [DecidableEq Sid] in
private theorem Recorded.part {s s' : Room Sid} {p : Handle} (h : Recorded s)
    (hgone : (s.participant p).gone = false) (hgone' : (s'.participant p).gone = true)
    (ha : s'.context.accepted = s.context.accepted)
    (hr : s'.raised = s.raised ++ [.participantDisconnected p])
    (hh : ∀ q i, (s'.participant q).Hop i →
      (s.participant q).Hop i ∨ (q = p ∧ i = s.raised.length))
    (hb : ∀ q, (s'.participant q).Hopped → (s.participant q).Hopped)
    (hg : ∀ q, (s.participant q).gone = true → (s'.participant q).gone = true)
    (hd : ∀ q, (s.participant q).Hopped → (s'.participant q).Hopped) : Recorded s' := by
  have hnone : ∀ {i : Nat}, s.raised[i]? ≠ some (.participantDisconnected p) := by
    intro i hi
    rw [h.parted p i hi] at hgone
    cases hgone
  refine ⟨?_, ?_, ?_, ?_, ?_, ?_, ?_, ?_⟩
  · intro t ht
    rw [hr]
    exact getElem?_concat_of (h.tasks t (ha ▸ ht))
  · intro q i hi
    rw [hr]
    rcases hh q i hi with hi | ⟨rfl, rfl⟩
    · exact getElem?_concat_of (h.hops q i hi)
    · simp
  · intro i e hi hne
    rw [hr] at hi
    rw [ha]
    rcases Parties.getElem?_concat hi with ⟨-, rfl⟩ | hi
    · exact absurd rfl (hne p)
    · exact h.plain i e hi hne
  · intro q i hi
    rw [hr] at hi
    rcases Parties.getElem?_concat hi with ⟨-, hq⟩ | hi
    · cases hq
      exact hgone'
    · exact hg q (h.parted q i hi)
  · intro q i j hi hj
    rw [hr] at hi hj
    rcases Parties.getElem?_concat hi with ⟨rfl, hq⟩ | hi <;>
      rcases Parties.getElem?_concat hj with ⟨rfl, hq'⟩ | hj
    · rfl
    · cases hq
      exact absurd hj hnone
    · cases hq'
      exact absurd hi hnone
    · exact h.once q i j hi hj
  · exact fun t ht q hq ↦ hd q (h.hopped t (ha ▸ ht) q hq)
  · rw [ha]
    exact fun q hq ↦ h.landed q (hb q hq)
  · intro n t q hn hp i e hi hie hq
    rw [ha] at hn ⊢
    have hlt : i < s.raised.length := by
      have hti := h.tasks t (List.mem_iff_getElem?.mpr ⟨n, hn⟩)
      exact Nat.lt_trans hi (List.getElem?_eq_some_iff.mp hti).1
    rw [hr, List.getElem?_append_left hlt] at hie
    exact h.order n t q hn hp i e hi hie hq

omit [DecidableEq Sid] in
private theorem Recorded.hop {s s' : Room Sid} {p : Handle} {i : Nat} {o : Option Nat}
    (h : Recorded s) (hi : (s.participant p).Hop i)
    (ha : s'.context.accepted = s.context.accepted ++ [⟨i, .participantDisconnected p, o⟩])
    (hr : s'.raised = s.raised)
    (hh : ∀ q i, (s'.participant q).Hop i → (s.participant q).Hop i)
    (hb : ∀ q, q ≠ p → (s'.participant q).Hopped → (s.participant q).Hopped)
    (hg : ∀ q, (s.participant q).gone = true → (s'.participant q).gone = true)
    (hd : ∀ q, (s.participant q).Hopped → (s'.participant q).Hopped)
    (hp : (s'.participant p).Hopped) : Recorded s' := by
  have hri := h.hops p i hi
  refine ⟨?_, ?_, ?_, ?_, ?_, ?_, ?_, ?_⟩
  · intro t ht
    rw [ha, List.mem_append, List.mem_singleton] at ht
    rw [hr]
    rcases ht with ht | rfl
    · exact h.tasks t ht
    · exact hri
  · rw [hr]
    exact fun q j hj ↦ h.hops q j (hh q j hj)
  · intro j e hj hne
    rw [hr] at hj
    obtain ⟨t, ht, hj⟩ := h.plain j e hj hne
    exact ⟨t, ha ▸ List.mem_append_left _ ht, hj⟩
  · rw [hr]
    exact fun q j hj ↦ hg q (h.parted q j hj)
  · rw [hr]
    exact h.once
  · intro t ht q hq
    rw [ha, List.mem_append, List.mem_singleton] at ht
    rcases ht with ht | rfl
    · exact hd q (h.hopped t ht q hq)
    · cases hq
      exact hp
  · intro q hq
    rw [ha]
    by_cases hqp : q = p
    · subst hqp
      exact ⟨_, List.mem_append_right _ (List.mem_singleton_self _), rfl⟩
    · obtain ⟨t, ht, htq⟩ := h.landed q (hb q hqp hq)
      exact ⟨t, List.mem_append_left _ ht, htq⟩
  · intro n t q hn hq j e hj hje hne
    rw [ha] at hn
    rw [hr] at hje
    rcases Parties.getElem?_concat hn with ⟨rfl, rfl⟩ | hn
    · cases hq
      -- Every other event raised before is on the queue already.
      have hplain : ∀ r, e ≠ .participantDisconnected r := by
        intro r hr
        by_cases hrp : r = p
        · subst hrp hr
          exact absurd (h.once r j i hje hri) (Nat.ne_of_lt hj)
        · exact hne r hrp hr
      obtain ⟨u, hu, huj⟩ := h.plain j e hje hplain
      obtain ⟨m, hm⟩ := List.mem_iff_getElem?.mp hu
      exact ⟨m, u, (List.getElem?_eq_some_iff.mp hm).1, ha ▸ getElem?_concat_of hm, huj⟩
    · obtain ⟨m, u, hm, hu, huj⟩ := h.order n t q hn hq j e hj hje hne
      exact ⟨m, u, hm, ha ▸ getElem?_concat_of hu, huj⟩

/-- Every effect keeps the agreement. -/
theorem recorded_of_effect {s s' : Room Sid} (h : Recorded s) (ht : Typed sid s)
    (he : Effect sid s s') : Recorded s' := by
  have hg : ∀ p, (s.participant p).gone = true → (s'.participant p).gone = true :=
    fun p ↦ (he.changed p).gone (ht.sane p)
  have hd : ∀ p, (s.participant p).Hopped → (s'.participant p).Hopped :=
    fun p ↦ (he.changed p).hopped (ht.sane p)
  cases he with
  | @quiet c hq ha hst =>
    refine h.keep ?_ hq.raised (fun p ↦ Participant.hopless_of_calm (hq.calm p)) hg hd
    rw [hq.context]
    exact ha
  | @starts c task hq htask ha hst =>
    refine h.keep ?_ hq.raised (fun p ↦ Participant.hopless_of_calm (hq.calm p)) hg hd
    rw [hq.context]
    exact ha
  | dispatches hq hne hp ha hst hr =>
    refine h.dispatch hne ha hr (fun p ↦ ?_) hg hd
    rw [hp]
    exact Participant.hopless_of_calm (hq.calm p)
  | @announces s₁ q o hq hne hgone hp ha hst hr =>
    refine h.dispatch (by simp) ha hr (fun p ↦ ?_) hg hd
    have hc := Participant.hopless_of_calm (hq.calm p)
    rw [hp]
    by_cases hpq : p = q
    · subst hpq
      rw [participant_modify_self]
      exact ⟨hc.hop, hc.hopped⟩
    · rwa [participant_modify_of_ne s₁ _ hpq]
  | @parts s₁ p o x hq hs hgone ho hx hp hc hr =>
    obtain ⟨hhop, hhopped⟩ := Participant.hop_of_enqueued hx
    have hself : s'.participant p = { x with
        disconnectedAt := some (s₁.participant p).raised } := by
      rw [hp, participant_modify_self]
    have hcalm := fun q ↦ Participant.hopless_of_calm (hq.calm q)
    refine h.part ((hq.calm p).gone.symm.trans hgone) (by rw [hself]; rfl) (by rw [hc]) hr ?_ ?_
      hg hd
    · intro q i hi
      by_cases hpq : q = p
      · subst hpq
        rw [hself] at hi
        exact (hhop i hi).imp ((hcalm q).hop i) fun hi ↦ ⟨rfl, hi⟩
      · rw [hp, participant_modify_of_ne s₁ _ hpq] at hi
        exact .inl ((hcalm q).hop i hi)
    · intro q hh
      by_cases hpq : q = p
      · subst hpq
        rw [hself] at hh
        exact (hcalm q).hopped (hhopped hh)
      · rw [hp, participant_modify_of_ne s₁ _ hpq] at hh
        exact (hcalm q).hopped hh
  | @raises p hp hc hr =>
    refine h.keep (by rw [hc]) hr (fun q ↦ ?_) hg hd
    rw [hp]
    by_cases hpq : q = p
    · subst hpq
      rw [participant_modify_self]
      exact Participant.hopless_of_raised (Participant.raised_cases (ht.sane q).law)
    · rw [participant_modify_of_ne s _ hpq]
      exact .refl _
  | @turns p j t x hx hp hc hr =>
    refine h.keep (by rw [hc]) hr (fun q ↦ ?_) hg hd
    rw [hp]
    by_cases hpq : q = p
    · subst hpq
      rw [participant_modify_self]
      exact Participant.hopless_of_turned hx
    · rw [participant_modify_of_ne s _ hpq]
      exact .refl _
  | @hops p j t x i o hx hp ha hst hr =>
    obtain ⟨hhop, hhopped⟩ := Participant.hop_of_hops (ht.sane p).law hx
    refine h.hop hhop ha hr (fun q i hi ↦ ?_) (fun q hq hh ↦ ?_) hg hd
      (by rwa [hp, participant_modify_self])
    · rw [hp] at hi
      by_cases hpq : q = p
      · subst hpq
        rw [participant_modify_self] at hi
        exact Participant.hop_of_turned hx hi
      · rwa [participant_modify_of_ne s _ hpq] at hi
    · rwa [hp, participant_modify_of_ne s _ hq] at hh

/-- The agreement holds in every reachable state. -/
theorem recorded_of_reachable {s : Room Sid} (h : (machine sid).Reachable s) : Recorded s := by
  refine h.invariant_of_reachable recorded_init ?_
  intro s a s' hr hrec hs
  have ht := typed_of_reachable hr
  exact recorded_of_effect hrec ht (effect_of_step ht hs)

end Room

end VideoNode.Remote
