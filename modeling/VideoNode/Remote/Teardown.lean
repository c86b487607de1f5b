import VideoNode.Remote.Flow

/-!
# Teardown of a remote participant

Every event of a participant that was announced reaches one JS `RemoteParticipant`, once and in
order, and its `participantDisconnected` is emitted once, after all of them and after the Room
events raised before it, for every interleaving of callbacks, reads, drains, thrown errors and
garbage collection. The participant is the only native one with its SID.
-/

namespace VideoNode.Remote

open VideoNode.Common VideoNode.Lts VideoNode.Js

namespace Room

variable {Sid : Type} [DecidableEq Sid] {sid : Handle → Sid}

/-- An event raised on a participant after it was announced and before it left. -/
def Due (s : Room Sid) (p : Handle) (k : Nat) : Prop :=
  (∃ c, (s.participant p).connectedAt = some c ∧ c ≤ k) ∧ k < (s.participant p).raised ∧
    ∀ d, (s.participant p).disconnectedAt = some d → k < d

omit [DecidableEq Sid] in
/-- What an event callback was called with was received. -/
theorem mem_received {s : Room Sid} {p : Handle} {j k : Nat} {w : Wrap}
    (hw : (s.participant p).wraps[j]? = some w) (hk : k ∈ w.received) : k ∈ received s p :=
  List.mem_flatMap.mpr ⟨w, List.mem_iff_getElem?.mpr ⟨j, hw⟩, hk⟩

/-- The wrap an observer is bound to has accepted what the observer has. -/
theorem Coherent.owner {s : Room Sid} {p : Handle} {ob : Observer} {j : Nat}
    (hco : Coherent sid s p ob) (ht : Typed sid s) (hj : ob.wrap = some j) :
    ∃ w : Wrap, (s.participant p).wraps[j]? = some w ∧ w.isOpen = true ∧
      w.context.accepted = ob.accepted := by
  have hob : (s.participant p).observers[0]? = some ob := by
    rw [hco.observers]
    rfl
  obtain ⟨-, w, hw, ho, hown, hopen⟩ := (ht.sane p).law.bound 0 ob j hob hj
  obtain ⟨ob', hob', ha, -⟩ := (ht.sane p).law.owned j w hw hown
  rw [ho, hob] at hob'
  cases hob'
  exact ⟨w, hw, hopen, ha⟩

section Sole

variable {s : Room Sid} {p : Handle} (hp : Sole sid p) (h : (machine sid).Reachable s)

include h

private theorem owner_of_received {j : Nat} {w : Wrap} (hw : (s.participant p).wraps[j]? = some w)
    (hr : w.received ≠ []) : w.ownsObserverBinding = true := by
  obtain ⟨k, hk⟩ := List.exists_mem_of_ne_nil _ hr
  have hs := ((logged_of_reachable h p).received j w hw).subset hk
  obtain ⟨e, he, -⟩ := List.mem_filterMap.mp hs
  exact Participant.owns_of_started ((typed_of_reachable h).sane p).law hw he

include hp

/-- A participant is attended to until its `participantDisconnected` is emitted. -/
theorem attending_of_disconnects (hne : (s.participant p).observers ≠ [])
    (hd : disconnects s p = 0) : Attending sid s p := by
  refine ⟨hne, (flowing_of_sole hp h).alone hp, .inr ⟨hp, fun t hts he ↦ ?_⟩⟩
  simpa [he] using List.countP_eq_zero.mp hd t hts

/-- One wrap receives all events. -/
theorem received_single {j j' : Nat} {w w' : Wrap} (hw : (s.participant p).wraps[j]? = some w)
    (hw' : (s.participant p).wraps[j']? = some w') (hr : w.received ≠ []) (hr' : w'.received ≠ []) :
    j = j' :=
  Participant.owner_unique ((typed_of_reachable h).sane p).law ((flowing_of_sole hp h).few hp)
    hw hw' (owner_of_received h hw hr) (owner_of_received h hw' hr')

/-- Events are received at most once and in the order they were raised. -/
theorem received_sorted : (received s p).Pairwise (· < ·) := by
  have ht := typed_of_reachable h
  have hl := logged_of_reachable h p
  rw [received, List.pairwise_flatMap]
  constructor
  · intro w hw
    obtain ⟨j, hj⟩ := List.mem_iff_getElem?.mp hw
    by_cases hr : w.received = []
    · simp [hr]
    · -- The owner has started a prefix of what its observer has accepted.
      obtain ⟨ob, hob, ha, -⟩ := (ht.sane p).law.owned j w hj (owner_of_received h hj hr)
      have hpre : w.context.started <+: w.context.accepted :=
        (Traffic.lawful ((ht.sane p).law.sound j w hj)).pre rfl
      rw [ha] at hpre
      have hsub := (hl.received j w hj).trans (hpre.sublist.filterMap PendingEvent.index?)
      exact (hl.logs _ ob hob).sorted.sublist hsub
  · rw [List.pairwise_iff_getElem]
    intro i j hi hj hij k hk m hm
    have hne := received_single hp h (List.getElem?_eq_getElem hi) (List.getElem?_eq_getElem hj)
      (List.ne_nil_of_mem hk) (List.ne_nil_of_mem hm)
    omega

/-- While its `participantDisconnected` is not emitted, whatever a participant's events reach is
the `RemoteParticipant` JS has cached under its SID. -/
theorem cached_of_received {j : Nat} {w : Wrap} (hw : (s.participant p).wraps[j]? = some w)
    (hr : w.received ≠ []) (hd : disconnects s p = 0) :
    s.remoteParticipantCache.get (sid p) = some (p, j) := by
  have ht := typed_of_reachable h
  obtain ⟨ob, hob, -, hb⟩ := (ht.sane p).law.owned j w hw (owner_of_received h hw hr)
  have hne : (s.participant p).observers ≠ [] := by
    intro hn
    simp [hn] at hob
  obtain ⟨ob', hco⟩ := attended_of_sole hp h (attending_of_disconnects hp h hne hd)
  obtain rfl := hco.only hob
  exact (hco.bound j (hb.resolve_right (by simp [hco.isOpen]))).1

/-- The `participantDisconnected` of a participant is emitted at most once. -/
theorem disconnects_le_one : disconnects s p ≤ 1 := by
  have ht := typed_of_reachable h
  have hpre : s.context.started <+: s.context.accepted := (Traffic.lawful ht.context).pre rfl
  exact hpre.sublist.countP_le.trans ((flowing_of_sole hp h).once hp)

/-- Once a last hop was started, all that was heard before the participant left is received. -/
theorem received_of_hopped {k : Nat} (hh : (s.participant p).Hopped)
    (hk : k ∈ (s.participant p).heard)
    (ho : ∀ d, (s.participant p).disconnectedAt = some d → k < d) : k ∈ received s p := by
  have ht := typed_of_reachable h
  have hf := flowing_of_sole hp h
  obtain ⟨j, w, i, hw, hi⟩ := hh
  obtain ⟨ob, hob, hek⟩ := hf.kept k hk ⟨hf.alone hp, .inr ⟨hp, ho⟩⟩
  have hown := Participant.owns_of_started (ht.sane p).law hw hi
  obtain ⟨ob', hob', ha, -⟩ := (ht.sane p).law.owned j w hw hown
  have hzero : w.observer = 0 := by
    have hlt := (List.getElem?_eq_some_iff.mp hob').1
    have hfew := hf.few hp
    omega
  rw [hzero, hob] at hob'
  cases hob'
  have hpre : w.context.started <+: w.context.accepted :=
    (Traffic.lawful ((ht.sane p).law.sound j w hw)).pre rfl
  rw [ha] at hpre
  by_cases hst : .event k ∈ w.context.started
  · exact mem_received hw (hf.delivered j w k hw hst ⟨hf.alone hp, .inr ⟨hp, ho⟩⟩)
  · -- The hop was accepted after the event.
    have hg := (ht.sane p).parting 0 ob i hob (hpre.subset hi)
    obtain ⟨d, hd⟩ := Option.isSome_iff_exists.mp hg
    have hle := Participant.le_of_hop_started ((logged_of_reachable h p).logs 0 ob hob) hpre hi hek
      hst hd
    exact absurd (ho d hd) (Nat.not_lt.mpr hle)

/-- When the `participantDisconnected` is emitted, all that was heard before is received. -/
theorem received_of_disconnects {k : Nat} (hd : 0 < disconnects s p)
    (hk : k ∈ (s.participant p).heard)
    (ho : ∀ d, (s.participant p).disconnectedAt = some d → k < d) : k ∈ received s p := by
  have ht := typed_of_reachable h
  obtain ⟨t, hts, htp⟩ := List.countP_pos_iff.mp hd
  have hta := ((Traffic.lawful ht.context).pre rfl).subset hts
  exact received_of_hopped hp h
    ((recorded_of_reachable h).hopped t hta p (by simpa using htp)) hk ho

-- Once drained, the wrap bound to the observer of a participant that heard something, and whose
-- `participantDisconnected` was not emitted, has started all it accepted.
private theorem drained_owner {e : PendingEvent} {ob : Observer} (hdr : Drained s p)
    (hd : disconnects s p = 0) (hob : (s.participant p).observers[0]? = some ob)
    (he : e ∈ ob.accepted) (hn : (s.participant p).wraps ≠ []) :
    ∃ (j : Nat) (w : Wrap), (s.participant p).wraps[j]? = some w ∧ e ∈ w.context.started := by
  have ht := typed_of_reachable h
  have hne : (s.participant p).observers ≠ [] := by
    intro hn
    simp [hn] at hob
  obtain ⟨ob', hco⟩ := attended_of_sole hp h (attending_of_disconnects hp h hne hd)
  rw [hco.observers] at hob
  cases hob
  cases hw : ob.wrap with
  | none => exact absurd (hco.unbound hw).1 hn
  | some j =>
    obtain ⟨w, hwj, hopen, ha⟩ := hco.owner ht hw
    obtain ⟨hidle, hq⟩ := hdr.wraps w (List.mem_of_getElem? hwj)
    have hst := Traffic.started_eq_of_drained ((ht.sane p).law.sound j w hwj)
      (by simpa [Wrap.isOpen] using hopen) hidle hq
    exact ⟨j, w, hwj, by rw [hst, ha]; exact he⟩

-- Once drained, a participant that heard an event before it left has a wrap, or its
-- `participantDisconnected` was emitted.
private theorem drained_wraps (hdr : Drained s p) (hd : disconnects s p = 0)
    (hne : (s.participant p).observers ≠ [])
    (hno : (s.participant p).connectedAt ≠ none ∨ ∃ k ∈ (s.participant p).heard,
      ∀ d, (s.participant p).disconnectedAt = some d → k < d) :
    (s.participant p).wraps ≠ [] := by
  intro hw
  have ht := typed_of_reachable h
  have hat := attending_of_disconnects hp h hne hd
  rcases (flowing_of_sole hp h).named hat hw with ⟨t, hta, htp⟩ | ⟨hcon, d, hd', hle⟩
  · -- The callback that names the participant has run.
    have hst := Traffic.started_eq_of_drained ht.context ht.isOpen hdr.room.1 hdr.room.2
    obtain ⟨ob, hco⟩ := attended_of_sole hp h hat
    have hun : ob.wrap = none := by
      cases hwr : ob.wrap with
      | none => rfl
      | some j =>
        obtain ⟨-, w, hwj, -⟩ := hco.bound j hwr
        simp [hw] at hwj
    exact (hco.unbound hun).2 t (hst ▸ hta) htp
  · rcases hno with hc | ⟨k, hk, hlt⟩
    · exact hc hcon
    · exact absurd (hlt d hd') (Nat.not_lt.mpr (hle k hk))

/-- Once drained, all that was heard before the participant left is received. -/
theorem received_of_drained {k : Nat} (hdr : Drained s p) (hk : k ∈ (s.participant p).heard)
    (ho : ∀ d, (s.participant p).disconnectedAt = some d → k < d) : k ∈ received s p := by
  rcases Nat.eq_zero_or_pos (disconnects s p) with hd | hd
  · have hf := flowing_of_sole hp h
    obtain ⟨ob, hob, hek⟩ := hf.kept k hk ⟨hf.alone hp, .inr ⟨hp, ho⟩⟩
    have hne : (s.participant p).observers ≠ [] := by
      intro hn
      simp [hn] at hob
    obtain ⟨j, w, hw, hst⟩ := drained_owner hp h hdr hd hob hek
      (drained_wraps hp h hdr hd hne (.inr ⟨k, hk, ho⟩))
    exact mem_received hw (hf.delivered j w k hw hst ⟨hf.alone hp, .inr ⟨hp, ho⟩⟩)
  · exact received_of_disconnects hp h hd hk ho

/-- Once drained, a participant that was announced and has left was reported so. -/
theorem disconnects_of_drained (hdr : Drained s p) (hc : (s.participant p).connectedAt ≠ none)
    (hdis : (s.participant p).disconnectedAt ≠ none) : disconnects s p = 1 := by
  refine Nat.le_antisymm (disconnects_le_one hp h) ?_
  rcases Nat.eq_zero_or_pos (disconnects s p) with hd | hd
  · have ht := typed_of_reachable h
    obtain ⟨d, hd'⟩ := Option.ne_none_iff_exists'.mp hdis
    obtain ⟨ob, i, hob, hi⟩ := (flowing_of_sole hp h).hop hp d hd'
    have hne : (s.participant p).observers ≠ [] := by
      intro hn
      simp [hn] at hob
    obtain ⟨j, w, hw, hst⟩ := drained_owner hp h hdr hd hob hi
      (drained_wraps hp h hdr hd hne (.inl hc))
    -- The hop is on the Room's queue, which is drained.
    obtain ⟨t, hta, htp⟩ := (recorded_of_reachable h).landed p ⟨j, w, i, hw, hst⟩
    have hroom := Traffic.started_eq_of_drained ht.context ht.isOpen hdr.room.1 hdr.room.2
    exact List.countP_pos_iff.mpr ⟨t, hroom ▸ hta, by simpa using htp⟩
  · exact hd

end Sole

/-- A `participantDisconnected` is emitted after all Room events raised before it, except the
`participantDisconnected` of others. -/
theorem emitted_order {s : Room Sid} {p : Handle} (h : (machine sid).Reachable s) {n i : Nat}
    (hn : (emitted s)[n]? = some i) (hi : s.raised[i]? = some (.participantDisconnected p))
    {j : Nat} {event : RoomEvent} (hj : j < i) (hje : s.raised[j]? = some event)
    (hne : ∀ q, q ≠ p → event ≠ .participantDisconnected q) : j ∈ (emitted s).take n := by
  have ht := typed_of_reachable h
  have hr := recorded_of_reachable h
  have hpre : s.context.started <+: s.context.accepted := (Traffic.lawful ht.context).pre rfl
  obtain ⟨rest, hrest⟩ := hpre
  rw [emitted, List.getElem?_map] at hn
  obtain ⟨t, hts, rfl⟩ := Option.map_eq_some_iff.mp hn
  have hlt := (List.getElem?_eq_some_iff.mp hts).1
  have hta : s.context.accepted[n]? = some t := by
    rw [← hrest, List.getElem?_append_left hlt]
    exact hts
  have htp : t.event = .participantDisconnected p := by
    have htr := hr.tasks t (List.mem_iff_getElem?.mpr ⟨n, hta⟩)
    rw [hi] at htr
    exact (Option.some.inj htr).symm
  obtain ⟨m, u, hm, hu, rfl⟩ := hr.order n t p hta htp j event hj hje hne
  rw [← hrest, List.getElem?_append_left (Nat.lt_trans hm hlt)] at hu
  refine List.mem_iff_getElem?.mpr ⟨m, ?_⟩
  rw [List.getElem?_take_of_lt hm, emitted, List.getElem?_map, hu]
  rfl

/-- Teardown order of a participant that was announced, in every state of every run in which
native participants have different SIDs: its events reach one wrap, in order and at most once,
which is that of the cached `RemoteParticipant` until `participantDisconnected` is emitted; that
happens at most once, after every event due, and after every Room event raised before except the
`participantDisconnected` of others; and once the queues are drained nothing due is missing. -/
theorem teardown_order (hinj : Function.Injective sid) (s : Room Sid)
    (h : (machine sid).Reachable s) (p : Handle) (c : Nat)
    (hc : (s.participant p).connectedAt = some c) :
    ((received s p).Pairwise (· < ·) ∧
      (∀ (j j' : Nat) (w w' : Wrap), (s.participant p).wraps[j]? = some w →
        (s.participant p).wraps[j']? = some w' → w.received ≠ [] → w'.received ≠ [] → j = j') ∧
      ∀ (j : Nat) (w : Wrap), (s.participant p).wraps[j]? = some w → w.received ≠ [] →
        disconnects s p = 0 → s.remoteParticipantCache.get (sid p) = some (p, j)) ∧
    disconnects s p ≤ 1 ∧
    (0 < disconnects s p → ∀ k, Due s p k → k ∈ received s p) ∧
    (∀ n i : Nat, (emitted s)[n]? = some i →
      s.raised[i]? = some (.participantDisconnected p) →
      ∀ (j : Nat) (event : RoomEvent), j < i → s.raised[j]? = some event →
        (∀ q, q ≠ p → event ≠ .participantDisconnected q) → j ∈ (emitted s).take n) ∧
    (Drained s p → (∀ k, Due s p k → k ∈ received s p) ∧
      ((s.participant p).disconnectedAt ≠ none → disconnects s p = 1)) := by
  have hp : Sole sid p := fun q hq ↦ hinj hq
  have hheard : ∀ k, Due s p k → k ∈ (s.participant p).heard := by
    rintro k ⟨⟨c, hc, hck⟩, hkr, hd⟩
    exact (flowing_of_sole hp h).announced c hc k hck hkr
      ⟨(flowing_of_sole hp h).alone hp, .inr ⟨hp, hd⟩⟩
  refine ⟨⟨received_sorted hp h, ?_, ?_⟩, disconnects_le_one hp h, ?_, ?_, ?_⟩
  · exact fun j j' w w' hw hw' ↦ received_single hp h hw hw'
  · exact fun j w hw ↦ cached_of_received hp h hw
  · exact fun hd k hk ↦ received_of_disconnects hp h hd (hheard k hk) hk.2.2
  · exact fun n i hn hi j event hj hje hne ↦ emitted_order h hn hi hj hje hne
  · intro hdr
    refine ⟨fun k hk ↦ received_of_drained hp h hdr (hheard k hk) hk.2.2, ?_⟩
    exact disconnects_of_drained hp h hdr (by simp [hc])

-- A participant that is announced, has a track event, and leaves behind another one.
private def leaving : List RoomAct :=
  [.onParticipantConnected 7, .onTrackEvent 7] ++ drainRun 1 [] ++ participantDrainRun 7 0 1 ++
    [.onTrackEvent 7, .onParticipantDisconnected 7] ++ participantDrainRun 7 0 2 ++ drainRun 1 []

/-- The order at the end of a run in which a participant comes and goes. -/
theorem teardown_order_leaving : ∃ s : Room Nat, (machine id).Reachable s ∧
    disconnects s 7 = 1 ∧ received s 7 = [0, 1] ∧ ∀ k, Due s 7 k → k ∈ received s 7 := by
  have hrun : ((machine (id : Handle → Nat)).exec init leaving).map
      (fun s ↦ (disconnects s 7, received s 7, (s.participant 7).connectedAt)) =
      some (1, [0, 1], some 0) := by decide +kernel
  obtain ⟨s, hs, hf⟩ := Option.map_eq_some_iff.mp hrun
  simp only [Prod.mk.injEq] at hf
  obtain ⟨hd, hr, hc⟩ := hf
  have ht := teardown_order Function.injective_id s ⟨leaving, hs⟩ 7 0 hc
  exact ⟨s, ⟨leaving, hs⟩, hd, hr, ht.2.2.1 (by omega)⟩

-- Two participants leave, and the queue of the second one is drained first.
private def overtaking : List RoomAct :=
  [.onParticipantConnected 1, .onParticipantConnected 2] ++ drainRun 2 [] ++
    [.onParticipantDisconnected 1, .onParticipantDisconnected 2] ++ participantDrainRun 2 0 1 ++
    drainRun 1 []

/-- A `participantDisconnected` can be emitted before the one of another participant that was
raised before it: that one still waits on its own participant's queue. -/
theorem disconnect_overtaken : ¬ ∀ (s : Room Nat), (machine id).Reachable s → ∀ p,
    (s.participant p).connectedAt ≠ none → ∀ n i : Nat, (emitted s)[n]? = some i →
      s.raised[i]? = some (.participantDisconnected p) → ∀ j, j < i → j ∈ (emitted s).take n := by
  intro h
  have hrun : ((machine (id : Handle → Nat)).exec init overtaking).map
      (fun s ↦ (emitted s, s.raised[3]?, (s.participant 2).connectedAt)) =
      some ([0, 1, 3], some (.participantDisconnected 2), some 0) := by decide +kernel
  obtain ⟨s, hs, hf⟩ := Option.map_eq_some_iff.mp hrun
  simp only [Prod.mk.injEq] at hf
  obtain ⟨he, hr, hc⟩ := hf
  have hmem := h s ⟨overtaking, hs⟩ 2 (by simp [hc]) 2 3 (by simp [he]) hr 2 (by decide)
  rw [he] at hmem
  exact absurd hmem (by decide)

end Room

end VideoNode.Remote
