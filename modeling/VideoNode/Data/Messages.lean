import VideoNode.Data.Registrations

/-!
# Messages of remote data tracks

What a wrap gets to see of the messages raised on its track: all of them from when it was bound
until the unsubscribe of the track was handled, in order, whatever other wraps and other tracks
there are, and nothing after that.
-/

namespace VideoNode.Data

open VideoNode.Common VideoNode.Lts

namespace DataTracks

variable {s s' : DataTracks} {i n o : Nat} {track : NativeDataTrack} {w : Wrap}

/-- The messages raised on the track of a wrap since the wrap was bound. -/
def raisedFor (s : DataTracks) (w : Wrap) : List Message :=
  ((s.raised.drop w.since).filter fun e ↦ e.1 = w.track).map Prod.snd

/-- The unsubscribe of a track was handled. -/
def unsubscribed (s : DataTracks) (n : Nat) : Bool :=
  s.tracks[n]?.any fun track ↦ track.phase == .unsubscribed

end DataTracks

/-- The messages that wait for their turn. -/
def Wrap.waiting (w : Wrap) : List Pending := w.traffic.loop.drain.batch ++ w.traffic.loop.ctx.queue

namespace DataTracks

variable {s s' : DataTracks} {i n o : Nat} {track : NativeDataTrack} {w : Wrap}

/-- What a wrap was told of what was raised. -/
structure Lawful (s : DataTracks) (w : Wrap) : Prop where
  queue : (Traffic.machine Pending 0).Reachable w.traffic
  closed : w.traffic.loop.ctx.closed = !w.alive
  since : w.since ≤ s.raised.length
  accepted : w.alive = true → w.traffic.accepted = (s.raisedFor w).map (·, w.observer)
  handed : w.turns.map Prod.fst <+: w.traffic.started.map Prod.fst
  exact : w.alive = true → s.closed w.observer = false →
    w.turns.map Prod.fst = w.traffic.started.map Prod.fst

/-- What every step keeps. -/
structure Inv (s : DataTracks) : Prop where
  linked : s.Linked
  lawful : ∀ w ∈ s.wraps, s.Lawful w

private theorem Lawful.mono (h : s.Lawful w) (hr : s'.raised = s.raised)
    (hc : s'.closed w.observer = false → s.closed w.observer = false) : s'.Lawful w := by
  refine ⟨h.queue, h.closed, hr ▸ h.since, fun ha ↦ ?_, h.handed, fun ha ho ↦ h.exact ha (hc ho)⟩
  rw [h.accepted ha, raisedFor, raisedFor, hr]

private theorem closed_modify {f : Observer → Observer} (hf : ∀ ob, (f ob).closed = ob.closed)
    (o p : Nat) : (s.observers.modify o f)[p]?.any Observer.closed = s.closed p := by
  simp only [DataTracks.closed, List.getElem?_modify]
  cases s.observers[p]? with
  | none => rfl
  | some ob =>
    simp only [Option.map_eq_map, Option.map_some, Option.any_some]
    split
    · exact hf ob
    · rfl

private theorem lawful_create (n o : Nat) : s.Lawful (.create n o s.raised.length) := by
  refine ⟨Machine.reachable_init _, rfl, Nat.le_refl _, fun _ ↦ ?_, List.prefix_refl _,
    fun _ _ ↦ rfl⟩
  simp [raisedFor, Wrap.create, Traffic.machine]

private theorem lawful_addWrap (h : ∀ w ∈ s.wraps, s.Lawful w) (n o : Nat) :
    ∀ w ∈ (s.addWrap n o).wraps, (s.addWrap n o).Lawful w := by
  have hclosed : ∀ p, (s.addWrap n o).closed p = s.closed p := by
    refine closed_modify (fun ob ↦ ?_) o
    unfold Observer.bind
    split <;> rfl
  intro w hw
  rcases List.mem_append.mp hw with hw | hw
  · exact (h w hw).mono rfl fun hc ↦ (hclosed _).symm.trans hc
  · rw [List.mem_singleton] at hw
    subst hw
    exact (lawful_create n o).mono rfl fun hc ↦ (hclosed _).symm.trans hc

private theorem lawful_newInstance (h : ∀ w ∈ s.wraps, s.Lawful w) :
    ∀ w ∈ (s.newInstance n track).wraps, (s.newInstance n track).Lawful w := by
  unfold newInstance
  split
  · exact lawful_addWrap h n _
  · refine lawful_addWrap (s := s.install n track) (fun v hv ↦ (h v hv).mono rfl fun hc ↦ ?_) n _
    simp only [DataTracks.closed, install, List.getElem?_append] at hc ⊢
    split at hc
    · exact hc
    · next hlt =>
      have hge : s.observers.length ≤ v.observer := Nat.le_of_not_lt hlt
      rw [List.getElem?_eq_none hge]
      rfl

private theorem lawful_closeObserver (h : ∀ w ∈ s.wraps, s.Lawful w) :
    ∀ w ∈ (s.closeObserver n track).wraps, (s.closeObserver n track).Lawful w := by
  have hclose : ∀ o p, (s.observers.modify o Observer.close)[p]?.any Observer.closed = false →
      s.closed p = false := by
    intro o p hc
    rw [List.getElem?_modify] at hc
    unfold DataTracks.closed
    cases hob : s.observers[p]? with
    | none => rfl
    | some ob =>
      rw [hob] at hc
      simp only [Option.map_eq_map, Option.map_some, Option.any_some] at hc ⊢
      split at hc
      · unfold Observer.close at hc
        split at hc
        · exact hc
        · cases hc
      · exact hc
  unfold closeObserver
  dsimp only
  split
  · exact fun w hw ↦ (h w hw).mono rfl id
  · refine fun w hw ↦ (h w hw).mono rfl fun hc ↦ ?_
    simp only [DataTracks.closed] at hc
    split at hc
    · exact hc
    · exact hclose _ _ hc

private theorem lawful_destroyWrap (h : ∀ w ∈ s.wraps, s.Lawful w) {traffic : Traffic Pending}
    (hw : s.wraps[i]? = some w) (ht : w.traffic.step .destroy = some traffic) :
    ∀ v ∈ (s.destroyWrap i w traffic).wraps, (s.destroyWrap i w traffic).Lawful v := by
  have hclosed : ∀ p, (s.destroyWrap i w traffic).closed p = s.closed p :=
    closed_modify (f := (·.unbind i)) (fun _ ↦ rfl) w.observer
  intro v hv
  rcases Parties.mem_of_mem_set hv with rfl | hv
  · have hl := h w (List.mem_of_getElem? hw)
    obtain ⟨-, hs, hc⟩ := Traffic.step_destroy ht
    have hstep : (Traffic.machine Pending 0).step w.traffic .destroy = some traffic := ht
    refine ⟨hl.queue.step hstep, hc, hl.since, fun ha ↦ (by cases ha), ?_, fun ha ↦ (by cases ha)⟩
    simp only [hs]
    exact hl.handed
  · exact (h v hv).mono rfl fun hc ↦ (hclosed _).symm.trans hc

private theorem lawful_set (h : ∀ w ∈ s.wraps, s.Lawful w) {v : Wrap} (hv : s.Lawful v) :
    ∀ u ∈ s.wraps.set i v, Lawful { s with wraps := s.wraps.set i v } u := by
  intro u hu
  rcases Parties.mem_of_mem_set hu with rfl | hu
  · exact hv.mono rfl id
  · exact (h u hu).mono rfl id

/-- A message in the queue of a wrap looks at the observer of the wrap. -/
theorem Lawful.pending (h : s.Lawful w) (ha : w.alive = true) {t : Turn} {p : Pending}
    {traffic : Traffic Pending} (ht : w.traffic.step (.turn t) = some traffic)
    (hp : w.traffic.loop.started t = some p) : p.2 = w.observer := by
  obtain ⟨hacc, hst, -, -⟩ := Traffic.step_turn ht
  have hstep : (Traffic.machine Pending 0).step w.traffic (.turn t) = some traffic := ht
  have hpre := (Traffic.lawful (h.queue.step hstep)).pre rfl
  have hmem : p ∈ traffic.accepted := hpre.subset (by simp [Traffic.channel, hst, hp])
  rw [hacc, h.accepted ha] at hmem
  obtain ⟨m, -, rfl⟩ := List.mem_map.mp hmem
  rfl

/-- A turn hands a message to the callback there is, unless the wrap is destroyed or its observer
closed. -/
theorem turned_eq (h : s.Lawful w) {t : Turn} {traffic : Traffic Pending}
    (ht : w.traffic.step (.turn t) = some traffic) :
    s.turned w t traffic = { w with
      traffic := traffic
      turns :=
        if w.alive = true ∧ s.closed w.observer = false then
          w.turns ++ (w.traffic.loop.started t).toList.map fun p ↦ (p.1, w.messageCallback)
        else w.turns } := by
  unfold turned
  cases hp : w.traffic.loop.started t with
  | none => simp
  | some p =>
    simp only [Wrap.run]
    cases ha : w.alive with
    | false => simp
    | true =>
      have hobs := h.pending ha ht hp
      rw [hobs]
      cases hc : s.closed w.observer with
      | false => simp [Wrap.onMessage]
      | true => simp

private theorem lawful_turned (h : s.Lawful w) {t : Turn} {traffic : Traffic Pending}
    (ht : w.traffic.step (.turn t) = some traffic) : s.Lawful (s.turned w t traffic) := by
  obtain ⟨hacc, hst, hcl, -⟩ := Traffic.step_turn ht
  have hstep : (Traffic.machine Pending 0).step w.traffic (.turn t) = some traffic := ht
  rw [turned_eq h ht]
  refine ⟨h.queue.step hstep, hcl.trans h.closed, h.since, fun ha ↦ ?_, ?_, fun ha hc ↦ ?_⟩
  · exact hacc.trans (h.accepted ha)
  · simp only [hst, List.map_append]
    split
    · next hop =>
      rw [List.map_append, h.exact hop.1 hop.2, List.map_map]
      exact List.prefix_refl _
    · exact h.handed.trans (List.prefix_append ..)
  · simp only [hst, List.map_append]
    rw [if_pos ⟨ha, hc⟩, List.map_append, h.exact ha hc, List.map_map]
    rfl

private theorem dispatch_eq (h : s.Lawful w) (ha : w.alive = true) (p : Pending) :
    ∃ traffic, w.dispatch p = { w with traffic := traffic } ∧
      w.traffic.step (.dispatch p) = some traffic ∧
      traffic.accepted = w.traffic.accepted ++ [p] ∧ traffic.started = w.traffic.started ∧
      traffic.loop.ctx.closed = false := by
  have hopen : w.traffic.loop.ctx.closed = false := by simp [h.closed, ha]
  obtain ⟨traffic, ht, hacc, hst, hcl, -⟩ :=
    Traffic.step_dispatch_of_open p (Traffic.inv_of_reachable h.queue) hopen
  refine ⟨traffic, ?_, ht, hacc, hst, hcl⟩
  simp [Wrap.dispatch, ht]

private theorem raisedFor_append (hw : w.since ≤ s.raised.length) (n : Nat) (m : Message) :
    raisedFor { s with raised := s.raised ++ [(n, m)] } w =
      s.raisedFor w ++ if n = w.track then [m] else [] := by
  simp only [raisedFor, List.drop_append_of_le_length hw, List.filter_append, List.map_append]
  by_cases hn : n = w.track <;> simp [hn]

-- Every target is a wrap that is not destroyed, so the observer drops none.
private theorem forEachTarget_eq (h : s.Linked) {ob : Observer}
    (hob : s.observers[o]? = some ob) (hopen : ob.closed = false) (m : Message) :
    s.forEachTarget o m = { s with
      wraps := ob.targets.foldl (fun wraps i ↦ wraps.modify i (Wrap.dispatch (m, o)))
        s.wraps } := by
  have htargets : ob.targets.filter s.wrapAlive = ob.targets := by
    rw [List.filter_eq_self]
    intro j hj
    obtain ⟨q, v, hv, ha, -⟩ := (h.targets o ob hob).2 j hj
    simp [wrapAlive, hv, ha]
  have hset : s.observers.set o ob = s.observers := by
    apply List.ext_getElem?
    intro q
    by_cases hq : o = q
    · subst hq
      rw [Parties.getElem?_set_self hob, hob]
    · rw [List.getElem?_set_ne hq]
  unfold forEachTarget
  rw [hob]
  dsimp only
  rw [if_neg (by simp [hopen]), htargets, hset]

/-- What raising a message on a track does: every wrap of the track that is not destroyed queues
it, and no other wrap does. -/
structure Raises (s : DataTracks) (n : Nat) (m : Message) (s' : DataTracks) : Prop where
  tracks : s'.tracks = s.tracks
  observers : s'.observers = s.observers
  registrations : s'.registrations = s.registrations
  raised : s'.raised = s.raised ++ [(n, m)]
  wraps : ∀ i : Nat, s'.wraps[i]? = s.wraps[i]?.map fun w : Wrap ↦
    if w.alive = true ∧ w.track = n then w.dispatch (m, w.observer) else w

/-- A message that is raised reaches the wraps of its track. -/
theorem raises_onMessage (h : s.Inv) (ht : s.tracks[n]? = some track)
    (hp : track.phase ≠ .unsubscribed) (m : Message) :
    Raises s n m (s.onMessage n track m) := by
  -- Without a wrap nobody has to be told.
  have hidle : (∀ i o, ¬ s.Live i n o) →
      Raises s n m { s with raised := s.raised ++ [(n, m)] } := by
    intro hno
    refine ⟨rfl, rfl, rfl, rfl, fun i ↦ ?_⟩
    cases hw : s.wraps[i]? with
    | none => simp
    | some w =>
      rw [Option.map_some, if_neg]
      rintro ⟨ha, hn⟩
      exact hno i w.observer ⟨w, hw, ha, hn, rfl⟩
  have hinst : ∀ i o, s.Live i n o → track.observer = some o := by
    intro i o hlive
    obtain ⟨-, -, hinst, -⟩ := (h.linked.bound i n o hlive).observe ht hp
    exact hinst
  unfold onMessage
  dsimp only
  cases hobs : track.observer with
  | none =>
    refine hidle fun i o hlive ↦ ?_
    have hsome := hinst i o hlive
    rw [hobs] at hsome
    cases hsome
  | some o =>
    have hexp' : observerExpired { s with raised := s.raised ++ [(n, m)] } o =
        s.observerExpired o := rfl
    dsimp only
    rw [hexp']
    cases hexp : s.observerExpired o with
    | true =>
      refine hidle fun i p hlive ↦ ?_
      have hsome := (hinst i p hlive).symm.trans hobs
      cases hsome
      rw [observerExpired_iff.mpr ⟨i, n, hlive⟩] at hexp
      cases hexp
    | false =>
      obtain ⟨i, k, hlive⟩ := observerExpired_iff.mp hexp
      obtain rfl := (h.linked.installed n track o ht hobs).2 i k hlive
      obtain ⟨ob, hob, -, -, hopen, -⟩ := (h.linked.bound i k o hlive).observe ht hp
      obtain ⟨hnd, hmem⟩ := h.linked.targets o ob hob
      have hl : Linked { s with raised := s.raised ++ [(k, m)] } :=
        linked_of_live h.linked rfl rfl rfl fun _ _ _ ↦ Iff.rfl
      rw [if_neg Bool.false_ne_true, forEachTarget_eq hl hob hopen]
      refine ⟨rfl, rfl, rfl, rfl, fun j ↦ ?_⟩
      rw [Parties.getElem?_foldl_modify hnd]
      cases hw : s.wraps[j]? with
      | none => simp
      | some w =>
        simp only [Option.map_some]
        -- The targets of the observer are the wraps of the track.
        by_cases hj : j ∈ ob.targets
        · obtain ⟨q, hq⟩ := hmem j hj
          obtain rfl := (h.linked.installed k track o ht hobs).2 j q hq
          obtain ⟨v, hv, ha, hk, ho⟩ := hq
          cases hw.symm.trans hv
          rw [if_pos hj, if_pos ⟨ha, hk⟩, ho]
        · rw [if_neg hj, if_neg]
          rintro ⟨ha, rfl⟩
          have hlive' : s.Live j w.track w.observer := ⟨w, hw, ha, rfl, rfl⟩
          obtain ⟨ob', hob', hsome, -, -, htarget⟩ :=
            (h.linked.bound j _ _ hlive').observe ht hp
          cases hsome.symm.trans hobs
          cases hob.symm.trans hob'
          exact hj htarget

private theorem inv_raises (h : s.Inv) {m : Message} (hs : Raises s n m s') : s'.Inv := by
  have hof : ∀ (i : Nat) (w' : Wrap), s'.wraps[i]? = some w' → ∃ w : Wrap,
      s.wraps[i]? = some w ∧
      w' = if w.alive = true ∧ w.track = n then w.dispatch (m, w.observer) else w := by
    intro i w' hw'
    rw [hs.wraps i] at hw'
    obtain ⟨w, hw, he⟩ := Option.map_eq_some_iff.mp hw'
    exact ⟨w, hw, he.symm⟩
  have hframe : ∀ w ∈ s.wraps, ∀ w' : Wrap,
      w' = (if w.alive = true ∧ w.track = n then w.dispatch (m, w.observer) else w) →
      w'.alive = w.alive ∧ w'.track = w.track ∧ w'.observer = w.observer := by
    intro w hw w' he
    split at he
    · next hc =>
      obtain ⟨traffic, hd, -⟩ := dispatch_eq (h.lawful w hw) hc.1 (m, w.observer)
      rw [he, hd]
      exact ⟨rfl, rfl, rfl⟩
    · rw [he]
      exact ⟨rfl, rfl, rfl⟩
  constructor
  · refine linked_of_live h.linked hs.tracks hs.observers hs.registrations fun i k o ↦ ?_
    constructor
    · rintro ⟨w', hw', ha, hk, ho⟩
      obtain ⟨w, hw, he⟩ := hof i w' hw'
      obtain ⟨h1, h2, h3⟩ := hframe w (List.mem_of_getElem? hw) w' he
      exact ⟨w, hw, h1 ▸ ha, h2 ▸ hk, h3 ▸ ho⟩
    · rintro ⟨w, hw, ha, hk, ho⟩
      obtain ⟨h1, h2, h3⟩ := hframe w (List.mem_of_getElem? hw) _ rfl
      exact ⟨_, by rw [hs.wraps i, hw]; rfl, h1.trans ha, h2.trans hk, h3.trans ho⟩
  · intro w' hw'
    obtain ⟨i, hi⟩ := List.mem_iff_getElem?.mp hw'
    obtain ⟨w, hw, rfl⟩ := hof i w' hi
    have hl := h.lawful w (List.mem_of_getElem? hw)
    have hraised : ∀ v : Wrap, v.since = w.since → v.track = w.track →
        s'.raisedFor v = s.raisedFor w ++ if n = w.track then [m] else [] := by
      intro v hv hk
      rw [← raisedFor_append hl.since]
      simp only [raisedFor, hs.raised, hv, hk]
    have hsince : w.since ≤ s'.raised.length := by
      rw [hs.raised, List.length_append]
      exact Nat.le_add_right_of_le hl.since
    have hclosed : ∀ o, s'.closed o = s.closed o := fun o ↦ by
      rw [DataTracks.closed, hs.observers]
      rfl
    split
    · next hc =>
      obtain ⟨traffic, he, ht, hacc, hst, hcl⟩ := dispatch_eq hl hc.1 (m, w.observer)
      have hstep : (Traffic.machine Pending 0).step w.traffic (.dispatch (m, w.observer)) =
        some traffic := ht
      rw [he]
      refine ⟨hl.queue.step hstep, by simp [hcl, hc.1], hsince, fun ha ↦ ?_, ?_, fun ha ho ↦ ?_⟩
      · have hr := hraised { w with traffic := traffic } rfl rfl
        rw [hr, if_pos hc.2.symm, List.map_append, ← hl.accepted ha]
        exact hacc
      · simp only [hst]
        exact hl.handed
      · simp only [hst]
        exact hl.exact ha ((hclosed _).symm.trans ho)
    · next hc =>
      refine ⟨hl.queue, hl.closed, hsince, fun ha ↦ ?_, hl.handed,
        fun ha ho ↦ hl.exact ha ((hclosed _).symm.trans ho)⟩
      have hne : n ≠ w.track := fun he ↦ hc ⟨ha, he.symm⟩
      rw [hraised w rfl rfl, if_neg hne, List.append_nil]
      exact hl.accepted ha

/-- What a step on a track that is not freed requires. -/
theorem onTrack_some {p : NativeDataTrack → Bool} {f : NativeDataTrack → DataTracks}
    (h : s.onTrack n p f = some s') : ∃ track, s.tracks[n]? = some track ∧ track.alive = true ∧
      p track = true ∧ s' = f track := by
  unfold onTrack at h
  split at h
  · cases h
  · next track ht =>
    split at h
    · next hc =>
      rw [Bool.and_eq_true] at hc
      cases h
      exact ⟨track, ht, hc.1, hc.2, rfl⟩
    · cases h

/-- What a step on a wrap that is not destroyed requires. -/
theorem onWrap_some {f : Wrap → Option Wrap} (h : s.onWrap i f = some s') :
    ∃ w v, s.wraps[i]? = some w ∧ w.alive = true ∧ f w = some v ∧
      s' = { s with wraps := s.wraps.set i v } := by
  unfold onWrap at h
  split at h
  · cases h
  · next w hw =>
    split at h
    · next ha =>
      obtain ⟨v, hv, rfl⟩ := Option.map_eq_some_iff.mp h
      exact ⟨w, v, hw, ha, hv, rfl⟩
    · cases h

/-- What a turn of the queue of a wrap requires. -/
theorem step_turn_some {t : Turn} (h : s.step (.turn i t) = some s') :
    ∃ w traffic, s.wraps[i]? = some w ∧ w.traffic.step (.turn t) = some traffic ∧
      s' = { s with wraps := s.wraps.set i (s.turned w t traffic) } := by
  simp only [step] at h
  split at h
  · cases h
  · next w hw =>
    obtain ⟨traffic, ht, rfl⟩ := Option.map_eq_some_iff.mp h
    exact ⟨w, traffic, hw, ht, rfl⟩

/-- What destroying a wrap requires. -/
theorem step_destroy_some (h : s.step (.destroy i) = some s') :
    ∃ w traffic, s.wraps[i]? = some w ∧ w.alive = true ∧
      w.traffic.step .destroy = some traffic ∧ s' = s.destroyWrap i w traffic := by
  simp only [step] at h
  split at h
  · cases h
  · next w hw =>
    split at h
    · next ha =>
      obtain ⟨traffic, ht, rfl⟩ := Option.map_eq_some_iff.mp h
      exact ⟨w, traffic, hw, ha, ht, rfl⟩
    · cases h

private theorem inv_set (h : s.Inv) {v : Wrap} (hw : s.wraps[i]? = some w) (hv : s.Lawful v)
    (ha : v.alive = w.alive) (ht : v.track = w.track) (ho : v.observer = w.observer) :
    Inv { s with wraps := s.wraps.set i v } := by
  refine ⟨linked_of_live h.linked rfl rfl rfl fun j n o ↦ ?_, lawful_set h.lawful hv⟩
  constructor
  · rintro ⟨u, hu, h1, h2, h3⟩
    rcases Parties.getElem?_set hw hu with ⟨rfl, rfl⟩ | ⟨-, hu⟩
    · exact ⟨w, hw, ha ▸ h1, ht ▸ h2, ho ▸ h3⟩
    · exact ⟨u, hu, h1, h2, h3⟩
  · rintro ⟨u, hu, h1, h2, h3⟩
    rcases Parties.getElem?_after_set hw hu with ⟨rfl, rfl, hb⟩ | ⟨-, hb⟩
    · exact ⟨v, hb v, ha.trans h1, ht.trans h2, ho.trans h3⟩
    · exact ⟨u, hb v, h1, h2, h3⟩

private theorem lawful_tracks (h : ∀ w ∈ s.wraps, s.Lawful w) (tracks : List NativeDataTrack) :
    ∀ w ∈ s.wraps, Lawful { s with tracks := tracks } w :=
  fun w hw ↦ (h w hw).mono rfl id

/-- Every step keeps the invariant. -/
theorem inv_step {a : DataAct} (h : s.Inv) (hs : s.step a = some s') : s'.Inv := by
  cases a with
  | subscribe address =>
    simp only [step] at hs
    split at hs
    · cases hs
    · next hfree =>
      cases hs
      exact ⟨linked_subscribe h.linked (by simpa using hfree), lawful_tracks h.lawful _⟩
  | onMessage n m =>
    obtain ⟨track, ht, -, hp, rfl⟩ := onTrack_some hs
    have hp : track.phase = .subscribed := by simpa using hp
    exact inv_raises h (raises_onMessage h ht (by simp [hp]) m)
  | onDataTrackUnsubscribed n =>
    obtain ⟨track, ht, -, hp, rfl⟩ := onTrack_some hs
    exact ⟨linked_unsubscribing h.linked ht (by simpa using hp), lawful_tracks h.lawful _⟩
  | trackUnsubscribed n =>
    obtain ⟨track, ht, ha, hp, rfl⟩ := onTrack_some hs
    have hp : track.phase = .unsubscribing := by simpa using hp
    have hne : track.phase ≠ .unsubscribed := by simp [hp]
    obtain ⟨hl, o, hlive, htr⟩ := linked_newInstance h.linked ht ha hne
    refine ⟨linked_close hl hlive htr ha hne, ?_⟩
    exact lawful_tracks (lawful_closeObserver (lawful_newInstance h.lawful)) _
  | free n =>
    obtain ⟨track, ht, -, hno, rfl⟩ := onTrack_some hs
    refine ⟨linked_free h.linked ht ?_, lawful_tracks h.lawful _⟩
    rintro i o ⟨w, hw, ha, hn, -⟩
    rw [Bool.not_eq_true', List.any_eq_false] at hno
    exact hno w (List.mem_of_getElem? hw) (by simp [ha, hn])
  | newInstance n =>
    obtain ⟨track, ht, ha, hp, rfl⟩ := onTrack_some hs
    exact ⟨(linked_newInstance h.linked ht ha (by simpa using hp)).1, lawful_newInstance h.lawful⟩
  | installCallback i callback =>
    obtain ⟨w, v, hw, ha, hv, rfl⟩ := onWrap_some hs
    cases hv
    obtain ⟨h1, h2, h3, h4, h5, h6⟩ := h.lawful w (List.mem_of_getElem? hw)
    exact inv_set h hw ⟨h1, h2, h3, h4, h5, h6⟩ rfl rfl rfl
  | removeMessageCallback i =>
    obtain ⟨w, v, hw, ha, hv, rfl⟩ := onWrap_some hs
    cases hv
    obtain ⟨h1, h2, h3, h4, h5, h6⟩ := h.lawful w (List.mem_of_getElem? hw)
    exact inv_set h hw ⟨h1, h2, h3, h4, h5, h6⟩ rfl rfl rfl
  | turn i t =>
    obtain ⟨w, traffic, hw, ht, rfl⟩ := step_turn_some hs
    have hl := h.lawful w (List.mem_of_getElem? hw)
    have he := turned_eq hl ht
    exact inv_set h hw (lawful_turned hl ht) (by rw [he]) (by rw [he]) (by rw [he])
  | destroy i =>
    obtain ⟨w, traffic, hw, ha, ht, rfl⟩ := step_destroy_some hs
    exact ⟨linked_destroyWrap h.linked hw ha, lawful_destroyWrap h.lawful hw ht⟩

/-- The invariant holds in every interleaving. -/
theorem inv_of_reachable (h : machine.Reachable s) : s.Inv := by
  apply h.invariant
  · exact ⟨linked_init, fun w hw ↦ (by cases hw)⟩
  · exact fun _ _ _ hi hs ↦ inv_step hi hs

/-- From `s` to `s'` no wrap of track `n` is made or told anything, and the track stays
unsubscribed. -/
structure Silent (n : Nat) (s s' : DataTracks) : Prop where
  unsubscribed : s'.unsubscribed n = true
  wraps : ∀ (i : Nat) (w' : Wrap), s'.wraps[i]? = some w' → w'.track = n →
    ∃ w, s.wraps[i]? = some w ∧ w.track = n ∧ w'.turns = w.turns

/-- Silence composes. -/
theorem Silent.trans {t : DataTracks} (h : Silent n s s') (h' : Silent n s' t) :
    Silent n s t := by
  refine ⟨h'.unsubscribed, fun i w' hw' hn ↦ ?_⟩
  obtain ⟨v, hv, hvn, hvt⟩ := h'.wraps i w' hw' hn
  obtain ⟨w, hw, hwn, hwt⟩ := h.wraps i v hv hvn
  exact ⟨w, hw, hwn, hvt.trans hwt⟩

private theorem silent_wraps (hu : s'.unsubscribed n = true) (hw : s'.wraps = s.wraps) :
    Silent n s s' :=
  ⟨hu, fun _ w' hi hn ↦ ⟨w', hw ▸ hi, hn, rfl⟩⟩

private theorem silent_set {v : Wrap} (hu : s.unsubscribed n = true) (hw : s.wraps[i]? = some w)
    (ht : v.track = w.track) (hv : w.track = n → v.turns = w.turns) :
    Silent n s { s with wraps := s.wraps.set i v } := by
  refine ⟨hu, fun j u hj hn ↦ ?_⟩
  rcases Parties.getElem?_set hw hj with ⟨rfl, rfl⟩ | ⟨-, hj⟩
  · exact ⟨w, hw, ht ▸ hn, hv (ht ▸ hn)⟩
  · exact ⟨u, hj, hn, rfl⟩

private theorem unsubscribed_iff :
    s.unsubscribed n = true ↔ ∃ track, s.tracks[n]? = some track ∧ track.phase = .unsubscribed := by
  simp [unsubscribed, Option.any_eq_true]

private theorem ne_of_phase {k : Nat} (hu : s.unsubscribed n = true)
    (ht : s.tracks[k]? = some track) (hp : track.phase ≠ .unsubscribed) : n ≠ k := by
  rintro rfl
  obtain ⟨t, htn, hpn⟩ := unsubscribed_iff.mp hu
  cases ht.symm.trans htn
  exact hp hpn

private theorem unsubscribed_set {k : Nat} {u : NativeDataTrack} (hu : s.unsubscribed n = true)
    (hk : n ≠ k) : unsubscribed { s with tracks := s.tracks.set k u } n = true := by
  obtain ⟨t, ht, hp⟩ := unsubscribed_iff.mp hu
  exact unsubscribed_iff.mpr ⟨t, (List.getElem?_set_ne (Ne.symm hk)).trans ht, hp⟩

private theorem silent_newInstance {k : Nat} (hu : s.unsubscribed n = true) (hk : n ≠ k) :
    Silent n s (s.newInstance k track) := by
  have hadd : ∀ (r : DataTracks) (o : Nat), r.unsubscribed n = true → r.wraps = s.wraps →
      Silent n s (r.addWrap k o) := by
    intro r o hr hw
    refine ⟨hr, fun i w' hi hn ↦ ?_⟩
    rcases Parties.getElem?_concat hi with ⟨-, rfl⟩ | hi
    · exact absurd hn.symm hk
    · exact ⟨w', hw ▸ hi, hn, rfl⟩
  unfold newInstance
  split
  · exact hadd s _ hu rfl
  · exact hadd _ _ (unsubscribed_set hu hk) rfl

/-- Once the unsubscribe of a track was handled, no step tells a wrap of it anything. -/
theorem silent_step {a : DataAct} (h : s.Inv) (hu : s.unsubscribed n = true)
    (hs : s.step a = some s') : Silent n s s' := by
  cases a with
  | subscribe address =>
    simp only [step] at hs
    split at hs
    · cases hs
    · cases hs
      refine silent_wraps ?_ rfl
      obtain ⟨t, ht, hp⟩ := unsubscribed_iff.mp hu
      refine unsubscribed_iff.mpr ⟨t, ?_, hp⟩
      exact (List.getElem?_append_left (List.getElem?_eq_some_iff.mp ht).1).trans ht
  | onMessage k m =>
    obtain ⟨track, ht, -, hp, rfl⟩ := onTrack_some hs
    have hp : track.phase = .subscribed := by simpa using hp
    have hr := raises_onMessage h ht (by simp [hp]) m
    refine ⟨?_, fun i w' hi hn ↦ ?_⟩
    · rw [unsubscribed, hr.tracks]
      exact hu
    · rw [hr.wraps i] at hi
      obtain ⟨w, hw, rfl⟩ := Option.map_eq_some_iff.mp hi
      refine ⟨w, hw, ?_⟩
      split at hn
      · next hc =>
        obtain ⟨traffic, he, -⟩ := dispatch_eq (h.lawful w (List.mem_of_getElem? hw)) hc.1
          (m, w.observer)
        rw [if_pos hc, he]
        rw [he] at hn
        exact ⟨hn, rfl⟩
      · next hc =>
        rw [if_neg hc]
        exact ⟨hn, rfl⟩
  | onDataTrackUnsubscribed k =>
    obtain ⟨track, ht, -, hp, rfl⟩ := onTrack_some hs
    have hp : track.phase = .subscribed := by simpa using hp
    refine silent_wraps ?_ rfl
    rw [setPhase, Parties.modify_eq_set_of ht]
    exact unsubscribed_set hu (ne_of_phase hu ht (by simp [hp]))
  | trackUnsubscribed k =>
    obtain ⟨track, ht, ha, hp, rfl⟩ := onTrack_some hs
    have hp : track.phase = .unsubscribing := by simpa using hp
    have hne : track.phase ≠ .unsubscribed := by simp [hp]
    have hk := ne_of_phase hu ht hne
    obtain ⟨hl, o, hlive, htr⟩ := linked_newInstance h.linked ht ha hne
    have hnew : Silent n s (s.newInstance k track) := silent_newInstance hu hk
    refine hnew.trans ?_
    rw [closeObserver_eq hl hlive htr hne]
    exact silent_wraps (unsubscribed_set hnew.unsubscribed hk) rfl
  | free k =>
    obtain ⟨track, ht, -, -, rfl⟩ := onTrack_some hs
    refine silent_wraps ?_ rfl
    by_cases hk : n = k
    · subst hk
      obtain ⟨t, htn, hp⟩ := unsubscribed_iff.mp hu
      cases ht.symm.trans htn
      exact unsubscribed_iff.mpr ⟨_, Parties.getElem?_set_self ht, hp⟩
    · exact unsubscribed_set hu hk
  | newInstance k =>
    obtain ⟨track, ht, ha, hp, rfl⟩ := onTrack_some hs
    exact silent_newInstance hu (ne_of_phase hu ht (by simpa using hp))
  | installCallback i callback =>
    obtain ⟨w, v, hw, ha, hv, rfl⟩ := onWrap_some hs
    cases hv
    exact silent_set hu hw rfl fun _ ↦ rfl
  | removeMessageCallback i =>
    obtain ⟨w, v, hw, ha, hv, rfl⟩ := onWrap_some hs
    cases hv
    exact silent_set hu hw rfl fun _ ↦ rfl
  | turn i t =>
    obtain ⟨w, traffic, hw, ht, rfl⟩ := step_turn_some hs
    have he := turned_eq (h.lawful w (List.mem_of_getElem? hw)) ht
    refine silent_set hu hw (by rw [he]) fun hn ↦ ?_
    rw [he]
    apply if_neg
    rintro ⟨ha, hc⟩
    -- The observer of a wrap of the track is closed.
    obtain ⟨t, htn, hp⟩ := unsubscribed_iff.mp hu
    have hb := h.linked.bound i n w.observer ⟨w, hw, ha, hn, rfl⟩
    rw [(hb.closed_iff htn).mpr hp] at hc
    cases hc
  | destroy =>
    obtain ⟨w, traffic, hw, ha, ht, rfl⟩ := step_destroy_some hs
    refine ⟨hu, fun j v hj hn ↦ ?_⟩
    rcases Parties.getElem?_set hw hj with ⟨rfl, rfl⟩ | ⟨-, hj⟩
    · exact ⟨w, hw, hn, rfl⟩
    · exact ⟨v, hj, hn, rfl⟩

/-- Once the unsubscribe of a track was handled, its wraps are told nothing. -/
theorem silent_run {as : List DataAct} (h : s.Inv) (hu : s.unsubscribed n = true)
    (hr : machine.exec s as = some s') : Silent n s s' := by
  induction as generalizing s with
  | nil =>
    cases hr
    exact silent_wraps hu rfl
  | cons a as ih =>
    obtain ⟨t, ha, ht⟩ := Machine.exec_cons_some.mp hr
    have hs := silent_step h hu ha
    exact hs.trans (ih (inv_step h ha) hs.unsubscribed ht)

/-- In every interleaving a wrap that is not destroyed is told, in order and each once, the
messages raised on its own track since it was bound, and no others; those not told yet wait, with
a wake-up due, until the unsubscribe of the track was handled. A turn hands its message to the
callback that is installed then, or to nobody if the unsubscribe was handled; and from then on no
wrap of the track is told anything. -/
theorem messages_complete (s : DataTracks) (h : machine.Reachable s) :
    (∀ (i : Nat) (w : Wrap), s.wraps[i]? = some w → w.alive = true →
      w.turns.map Prod.fst <+: s.raisedFor w ∧
      (s.unsubscribed w.track = false →
        w.turns.map Prod.fst ++ w.waiting.map Prod.fst = s.raisedFor w ∧
        (w.traffic.loop.ctx.queue ≠ [] → w.traffic.loop.drain = .idle →
          ∃ a, w.traffic.loop.ctx.async = some a ∧ a.pending = true)) ∧
      ∀ (t : Turn) (p : Pending) (s' : DataTracks), s.step (.turn i t) = some s' →
        w.traffic.loop.started t = some p → ∃ w', s'.wraps[i]? = some w' ∧
          w'.turns = if s.unsubscribed w.track then w.turns
            else w.turns ++ [(p.1, w.messageCallback)]) ∧
    ∀ n, s.unsubscribed n = true → ∀ (as : List DataAct) (s' : DataTracks),
      machine.exec s as = some s' → ∀ (i : Nat) (w' : Wrap), s'.wraps[i]? = some w' →
        w'.track = n → ∃ w, s.wraps[i]? = some w ∧ w'.turns = w.turns := by
  have hi := inv_of_reachable h
  constructor
  · intro i w hw ha
    have hl := hi.lawful w (List.mem_of_getElem? hw)
    have hb := hi.linked.bound i w.track w.observer ⟨w, hw, ha, rfl, rfl⟩
    have hpre := Traffic.started_prefix hl.queue
    have hall := Traffic.contents_of_open hl.queue
    have hopen : w.traffic.loop.ctx.closed = false := by simp [hl.closed, ha]
    have hclosed : s.closed w.observer = s.unsubscribed w.track := by
      obtain ⟨track, ht, -⟩ := hb.found
      rw [Bool.eq_iff_iff, unsubscribed_iff, hb.closed_iff ht]
      simp [ht]
    have hfst : w.traffic.accepted.map Prod.fst = s.raisedFor w := by
      rw [hl.accepted ha, List.map_map]
      exact List.map_id _
    refine ⟨?_, fun hu ↦ ⟨?_, Traffic.wakeup_of_waiting hl.queue⟩, fun t p s' hs hp ↦ ?_⟩
    · rw [← hfst]
      exact hl.handed.trans (hpre.map _)
    · rw [hl.exact ha (hclosed.trans hu), ← List.map_append, ← hfst]
      exact congrArg _ (hall hopen)
    · obtain ⟨v, traffic, hv, ht, rfl⟩ := step_turn_some hs
      cases hw.symm.trans hv
      refine ⟨_, Parties.getElem?_set_self hw, ?_⟩
      rw [turned_eq hl ht, hp, ← hclosed]
      cases hc : s.closed w.observer <;> simp [ha]
  · intro n hu as s' hr i w' hw' hn
    obtain ⟨w, hw, -, ht⟩ := (silent_run hi hu hr).wraps i w' hw' hn
    exact ⟨w, hw, ht⟩

-- A second track gets the address of the first one; its second wrap is bound between messages.
private def reusingAddress : List DataAct :=
  [.subscribe 5, .newInstance 0, .onMessage 0 (.text "a"), .onDataTrackUnsubscribed 0,
    .destroy 0, .free 0, .subscribe 5, .newInstance 1, .installCallback 1 7,
    .onMessage 1 (.text "b"), .newInstance 1, .onMessage 1 (.binary [1]), .turn 1 .onAsync,
    .turn 1 .swap, .turn 1 .next, .turn 1 (.threw .unknown), .turn 1 .requeue]

/-- A wrap at an address that was used before, with a message told and one put back. -/
theorem messages_complete_address : ∃ s w, machine.Reachable s ∧ s.wraps[1]? = some w ∧
    w.turns = [(.text "b", some 7)] ∧
    w.turns.map Prod.fst ++ w.waiting.map Prod.fst = [.text "b", .binary [1]] := by
  have hrun : (machine.exec init reusingAddress).bind (fun s ↦ s.wraps[1]?.map fun w ↦
      (w.alive, w.turns, s.raisedFor w, s.unsubscribed w.track)) =
      some (true, [(.text "b", some 7)], [.text "b", .binary [1]], false) := by decide +kernel
  obtain ⟨s, hs, hr⟩ := Option.bind_eq_some_iff.mp hrun
  obtain ⟨w, hw, hr⟩ := Option.map_eq_some_iff.mp hr
  simp only [Prod.mk.injEq] at hr
  obtain ⟨ha, ht, hraised, hu⟩ := hr
  have hreach : machine.Reachable s := ⟨reusingAddress, hs⟩
  obtain ⟨-, hall, -⟩ := (messages_complete s hreach).1 1 w hw ha
  exact ⟨s, w, hreach, hw, ht, (hall hu).1.trans hraised⟩

end DataTracks

end VideoNode.Data
