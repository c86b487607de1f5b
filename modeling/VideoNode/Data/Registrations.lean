import Mathlib.Data.List.Nodup
import VideoNode.Data.RemoteDataTrack
import VideoNode.Lts.Parties

/-!
# Observers and the tracks they observe

What holds between native tracks, observers, wraps and registrations after every step: all wraps
of a track that are not destroyed share the observer installed on it, which has them as its
targets and is open until the unsubscribe of the track was handled. Addresses that are used again
change nothing in this, since a registration is for a track and not for an address.
-/

namespace VideoNode.Data

open VideoNode.Common VideoNode.Lts

namespace DataTracks

variable {s s' : DataTracks} {i n o : Nat} {track : NativeDataTrack}

/-- Wrap `i` is not destroyed; it is of track `n` and has observer `o`. -/
def Live (s : DataTracks) (i n o : Nat) : Prop :=
  ∃ w, s.wraps[i]? = some w ∧ w.alive = true ∧ w.track = n ∧ w.observer = o

/-- An observer is there exactly if a wrap has it. -/
theorem observerExpired_iff : s.observerExpired o = false ↔ ∃ i n, s.Live i n o := by
  simp only [observerExpired, Bool.not_eq_false', List.any_eq_true, Bool.and_eq_true, beq_iff_eq]
  constructor
  · rintro ⟨w, hw, ha, ho⟩
    obtain ⟨i, hi⟩ := List.mem_iff_getElem?.mp hw
    exact ⟨i, w.track, w, hi, ha, rfl, ho⟩
  · rintro ⟨i, n, w, hi, ha, -, ho⟩
    exact ⟨w, List.mem_of_getElem? hi, ha, ho⟩

/-- What a wrap finds its track and its observer to be: installed, registered and targeted, or
closed. -/
inductive Bound (s : DataTracks) (i n o : Nat) : Prop where
  | observed (track : NativeDataTrack) (observer : Observer) (ht : s.tracks[n]? = some track)
      (ho : s.observers[o]? = some observer) (alive : track.alive = true)
      (phase : track.phase ≠ .unsubscribed) (installed : track.observer = some o)
      (registered : s.registrations track.address = some ⟨n, o⟩)
      (opened : observer.closed = false) (target : i ∈ observer.targets)
  | closed (track : NativeDataTrack) (observer : Observer) (ht : s.tracks[n]? = some track)
      (ho : s.observers[o]? = some observer) (alive : track.alive = true)
      (phase : track.phase = .unsubscribed) (closed : observer.closed = true)

/-- What every step keeps. -/
structure Linked (s : DataTracks) : Prop where
  bound : ∀ i n o, s.Live i n o → s.Bound i n o
  targets : ∀ o observer, s.observers[o]? = some observer →
    observer.targets.Nodup ∧ ∀ i ∈ observer.targets, ∃ n, s.Live i n o
  installed : ∀ n track o, s.tracks[n]? = some track → track.observer = some o →
    o < s.observers.length ∧ ∀ i m, s.Live i m o → m = n
  registered : ∀ a r, s.registrations a = some r →
    r.observer < s.observers.length ∧ ∀ i m, s.Live i m r.observer → m = r.track
  address : ∀ (n m : Nat) (t u : NativeDataTrack), s.tracks[n]? = some t →
    s.tracks[m]? = some u → t.alive = true → u.alive = true → t.address = u.address → n = m

/-- Nothing is there at first. -/
theorem linked_init : init.Linked := by
  constructor
  · rintro i n o ⟨w, hw, -⟩
    cases hw
  · intro o observer ho
    cases ho
  · intro n track o ht
    cases ht
  · intro a r hr
    cases hr
  · intro n m t u ht
    cases ht

/-- A wrap of a track that was not unsubscribed. -/
theorem Bound.observe (h : s.Bound i n o) (ht : s.tracks[n]? = some track)
    (hp : track.phase ≠ .unsubscribed) : ∃ observer, s.observers[o]? = some observer ∧
      track.observer = some o ∧ s.registrations track.address = some ⟨n, o⟩ ∧
      observer.closed = false ∧ i ∈ observer.targets := by
  cases h with
  | observed t observer ht' ho alive phase installed registered opened target =>
    cases ht.symm.trans ht'
    exact ⟨observer, ho, installed, registered, opened, target⟩
  | closed t observer ht' ho alive phase closed =>
    cases ht.symm.trans ht'
    exact absurd phase hp

/-- The track of a wrap is not freed. -/
theorem Bound.found (h : s.Bound i n o) :
    ∃ track : NativeDataTrack, s.tracks[n]? = some track ∧ track.alive = true := by
  cases h with
  | observed t observer ht ho alive => exact ⟨t, ht, alive⟩
  | closed t observer ht ho alive => exact ⟨t, ht, alive⟩

/-- The observer of a wrap is open exactly until the unsubscribe of its track was handled. -/
theorem Bound.closed_iff (h : s.Bound i n o) (ht : s.tracks[n]? = some track) :
    s.closed o = true ↔ track.phase = .unsubscribed := by
  cases h with
  | observed t observer ht' ho alive phase installed registered opened target =>
    cases ht.symm.trans ht'
    simp [DataTracks.closed, ho, opened, phase]
  | closed t observer ht' ho alive phase closed =>
    cases ht.symm.trans ht'
    simp [DataTracks.closed, ho, closed, phase]

/-- Wraps that stay what they are keep what holds between them and the rest. -/
theorem linked_of_live (h : s.Linked) (ht : s'.tracks = s.tracks)
    (ho : s'.observers = s.observers) (hr : s'.registrations = s.registrations)
    (hl : ∀ i n o, s'.Live i n o ↔ s.Live i n o) : s'.Linked := by
  constructor
  · intro i n o hlive
    cases h.bound i n o ((hl i n o).mp hlive) with
    | observed t observer h1 h2 h3 h4 h5 h6 h7 h8 =>
      exact .observed t observer (ht ▸ h1) (ho ▸ h2) h3 h4 h5 (hr ▸ h6) h7 h8
    | closed t observer h1 h2 h3 h4 h5 => exact .closed t observer (ht ▸ h1) (ho ▸ h2) h3 h4 h5
  · intro o observer hob
    obtain ⟨hn, hm⟩ := h.targets o observer (ho ▸ hob)
    refine ⟨hn, fun i hi ↦ ?_⟩
    obtain ⟨n, hlive⟩ := hm i hi
    exact ⟨n, (hl i n o).mpr hlive⟩
  · intro n track o htr hobs
    obtain ⟨hlt, hm⟩ := h.installed n track o (ht ▸ htr) hobs
    exact ⟨ho ▸ hlt, fun i m hlive ↦ hm i m ((hl i m o).mp hlive)⟩
  · intro a r hreg
    obtain ⟨hlt, hm⟩ := h.registered a r (hr ▸ hreg)
    exact ⟨ho ▸ hlt, fun i m hlive ↦ hm i m ((hl i m _).mp hlive)⟩
  · rw [ht]
    exact h.address

/-- A new track is nobody's. -/
theorem linked_subscribe (h : s.Linked) {address : Nat}
    (ha : s.tracks.any (fun t ↦ t.alive && t.address == address) = false) :
    Linked { s with tracks := s.tracks ++ [⟨address, true, .subscribed, none⟩] } := by
  have hfree : ∀ t ∈ s.tracks, t.alive = true → t.address ≠ address := by
    intro t ht halive haddr
    rw [List.any_eq_false] at ha
    exact ha t ht (by simp [halive, haddr])
  have hget : ∀ (m : Nat) (t : NativeDataTrack), s.tracks[m]? = some t →
      (s.tracks ++ [⟨address, true, .subscribed, none⟩])[m]? = some t := by
    intro m t ht
    rw [List.getElem?_append_left (List.getElem?_eq_some_iff.mp ht).1]
    exact ht
  constructor
  · intro i n o hlive
    cases h.bound i n o hlive with
    | observed t observer h1 h2 h3 h4 h5 h6 h7 h8 =>
      exact .observed t observer (hget n t h1) h2 h3 h4 h5 h6 h7 h8
    | closed t observer h1 h2 h3 h4 h5 => exact .closed t observer (hget n t h1) h2 h3 h4 h5
  · exact h.targets
  · intro n track o ht hobs
    rcases Parties.getElem?_concat ht with ⟨-, rfl⟩ | ht
    · cases hobs
    · exact h.installed n track o ht hobs
  · exact h.registered
  · intro n m t u ht hu hta hua heq
    rcases Parties.getElem?_concat ht with ⟨rfl, rfl⟩ | ht
    · rcases Parties.getElem?_concat hu with ⟨rfl, -⟩ | hu
      · rfl
      · exact absurd heq.symm (hfree u (List.mem_of_getElem? hu) hua)
    · rcases Parties.getElem?_concat hu with ⟨rfl, rfl⟩ | hu
      · exact absurd heq (hfree t (List.mem_of_getElem? ht) hta)
      · exact h.address n m t u ht hu hta hua heq

/-- The unsubscribe callback leaves the track as it is but for its phase. -/
theorem linked_unsubscribing (h : s.Linked) (ht : s.tracks[n]? = some track)
    (hp : track.phase = .subscribed) : (s.setPhase n .unsubscribing).Linked := by
  have hset : (s.setPhase n .unsubscribing).tracks =
      s.tracks.set n { track with phase := .unsubscribing } := Parties.modify_eq_set_of ht _
  have hof : ∀ (m : Nat) (u : NativeDataTrack),
      (s.setPhase n .unsubscribing).tracks[m]? = some u → ∃ t : NativeDataTrack,
        s.tracks[m]? = some t ∧ u.alive = t.alive ∧ u.address = t.address ∧
          u.observer = t.observer := by
    intro m u hu
    rw [hset] at hu
    rcases Parties.getElem?_set ht hu with ⟨rfl, rfl⟩ | ⟨-, hu⟩
    · exact ⟨track, ht, rfl, rfl, rfl⟩
    · exact ⟨u, hu, rfl, rfl, rfl⟩
  constructor
  · intro i m o hlive
    by_cases hm : m = n
    · subst hm
      cases h.bound i m o hlive with
      | observed t observer h1 h2 h3 h4 h5 h6 h7 h8 =>
        cases ht.symm.trans h1
        exact .observed { track with phase := .unsubscribing } observer
          (hset ▸ Parties.getElem?_set_self ht) h2 h3 (by simp) h5 h6 h7 h8
      | closed t observer h1 h2 h3 h4 h5 =>
        cases ht.symm.trans h1
        rw [hp] at h4
        cases h4
    · have hget : (s.setPhase n .unsubscribing).tracks[m]? = s.tracks[m]? := by
        rw [hset, List.getElem?_set_ne (Ne.symm hm)]
      cases h.bound i m o hlive with
      | observed t observer h1 h2 h3 h4 h5 h6 h7 h8 =>
        exact .observed t observer (hget.trans h1) h2 h3 h4 h5 h6 h7 h8
      | closed t observer h1 h2 h3 h4 h5 =>
        exact .closed t observer (hget.trans h1) h2 h3 h4 h5
  · exact h.targets
  · intro m u o hu hobs
    obtain ⟨t, htm, -, -, hobs'⟩ := hof m u hu
    exact h.installed m t o htm (hobs' ▸ hobs)
  · exact h.registered
  · intro m m' t u htm hum hta hua heq
    obtain ⟨t', ht', ha, haddr, -⟩ := hof m t htm
    obtain ⟨u', hu', ha', haddr', -⟩ := hof m' u hum
    exact h.address m m' t' u' ht' hu' (ha ▸ hta) (ha' ▸ hua) (by rw [← haddr, ← haddr', heq])

/-- A track is freed when no wrap has it. -/
theorem linked_free (h : s.Linked) (ht : s.tracks[n]? = some track)
    (hno : ∀ i o, ¬ s.Live i n o) :
    Linked { s with tracks := s.tracks.set n { track with alive := false } } := by
  constructor
  · intro i m o hlive
    have hlive : s.Live i m o := hlive
    have hm : m ≠ n := by
      rintro rfl
      exact hno i o hlive
    cases h.bound i m o hlive with
    | observed t observer h1 h2 h3 h4 h5 h6 h7 h8 =>
      exact .observed t observer ((List.getElem?_set_ne (Ne.symm hm)).trans h1) h2 h3 h4 h5 h6 h7 h8
    | closed t observer h1 h2 h3 h4 h5 =>
      exact .closed t observer ((List.getElem?_set_ne (Ne.symm hm)).trans h1) h2 h3 h4 h5
  · exact h.targets
  · intro m u o hu hobs
    rcases Parties.getElem?_set ht hu with ⟨rfl, rfl⟩ | ⟨-, hu⟩
    · exact h.installed m track o ht hobs
    · exact h.installed m u o hu hobs
  · exact h.registered
  · intro m m' t u htm hum hta hua heq
    rcases Parties.getElem?_set ht htm with ⟨-, rfl⟩ | ⟨-, htm⟩
    · cases hta
    · rcases Parties.getElem?_set ht hum with ⟨-, rfl⟩ | ⟨-, hum⟩
      · cases hua
      · exact h.address m m' t u htm hum hta hua heq

/-- Only a track without a wrap gets a new observer. -/
theorem registered_eq (h : s.Linked) (ht : s.tracks[n]? = some track) (ha : track.alive = true)
    (hp : track.phase ≠ .unsubscribed) : s.registered n track.address = some o ↔
      ∃ i, s.Live i n o := by
  simp only [registered, Option.map_eq_some_iff, Option.filter_eq_some_iff, Bool.and_eq_true,
    beq_iff_eq, Bool.not_eq_true']
  constructor
  · rintro ⟨r, ⟨hr, ⟨hn, -⟩, he⟩, rfl⟩
    obtain ⟨i, m, hlive⟩ := observerExpired_iff.mp he
    have hm := (h.registered _ r hr).2 i m hlive
    exact ⟨i, by rw [← hn, ← hm]; exact hlive⟩
  · rintro ⟨i, hlive⟩
    obtain ⟨observer, -, -, hreg, -⟩ := (h.bound i n o hlive).observe ht hp
    refine ⟨⟨n, o⟩, ⟨hreg, ⟨rfl, ?_⟩, observerExpired_iff.mpr ⟨i, n, hlive⟩⟩, rfl⟩
    simp [trackExpired, ht, ha]

private theorem observers_prune : s.pruneDataTrackObservers.observers = s.observers := rfl

/-- A new observer is installed where no wrap is. -/
theorem linked_install (h : s.Linked) (ht : s.tracks[n]? = some track) (ha : track.alive = true)
    (hno : ∀ i o, ¬ s.Live i n o) : (s.install n track).Linked := by
  have hlt : ∀ i m o, s.Live i m o → o < s.observers.length := by
    intro i m o hlive
    cases h.bound i m o hlive with
    | observed t observer h1 h2 => exact (List.getElem?_eq_some_iff.mp h2).1
    | closed t observer h1 h2 => exact (List.getElem?_eq_some_iff.mp h2).1
  constructor
  · intro i m o hlive
    have hlive : s.Live i m o := hlive
    have hm : m ≠ n := by
      rintro rfl
      exact hno i o hlive
    have htr : ∀ t : NativeDataTrack, s.tracks[m]? = some t →
        (s.install n track).tracks[m]? = some t :=
      fun t h1 ↦ (List.getElem?_set_ne (Ne.symm hm)).trans h1
    have hob : ∀ ob : Observer, s.observers[o]? = some ob →
        (s.install n track).observers[o]? = some ob :=
      fun ob h2 ↦ (List.getElem?_append_left (hlt i m o hlive)).trans h2
    cases h.bound i m o hlive with
    | observed t observer h1 h2 h3 h4 h5 h6 h7 h8 =>
      have haddr : t.address ≠ track.address :=
        fun he ↦ hm (h.address m n t track h1 ht h3 ha he)
      refine .observed t observer (htr t h1) (hob observer h2) h3 h4 h5 ?_ h7 h8
      have hexp : s.observerExpired o = false := observerExpired_iff.mpr ⟨i, m, hlive⟩
      show Function.update _ track.address _ t.address = _
      rw [Function.update_of_ne haddr]
      simp [pruneDataTrackObservers, h6, trackExpired, h1, h3, hexp]
    | closed t observer h1 h2 h3 h4 h5 =>
      exact .closed t observer (htr t h1) (hob observer h2) h3 h4 h5
  · intro o observer ho
    rcases Parties.getElem?_concat ho with ⟨-, rfl⟩ | ho
    · exact ⟨List.nodup_nil, fun i hi ↦ (by cases hi)⟩
    · exact h.targets o observer ho
  · intro m u o hu hobs
    simp only [install, observers_prune, List.length_append, List.length_singleton]
    rcases Parties.getElem?_set ht hu with ⟨rfl, rfl⟩ | ⟨-, hu⟩
    · obtain rfl : s.observers.length = o := by simpa [observers_prune] using hobs
      exact ⟨Nat.lt_succ_self _, fun i k hlive ↦ absurd (hlt i k _ hlive) (Nat.lt_irrefl _)⟩
    · obtain ⟨hl, hk⟩ := h.installed m u o hu hobs
      exact ⟨by omega, hk⟩
  · intro a r hr
    simp only [install, observers_prune, List.length_append, List.length_singleton] at hr ⊢
    by_cases haddr : a = track.address
    · subst haddr
      rw [Function.update_self] at hr
      cases hr
      exact ⟨Nat.lt_succ_self _, fun i k hlive ↦ absurd (hlt i k _ hlive) (Nat.lt_irrefl _)⟩
    · rw [Function.update_of_ne haddr] at hr
      obtain ⟨hr, -⟩ := Option.filter_eq_some_iff.mp hr
      obtain ⟨hl, hk⟩ := h.registered a r hr
      exact ⟨by omega, hk⟩
  · intro m m' t u htm hum hta hua heq
    rcases Parties.getElem?_set ht htm with ⟨hm, rfl⟩ | ⟨-, htm'⟩
    · rcases Parties.getElem?_set ht hum with ⟨hm', -⟩ | ⟨-, hum'⟩
      · rw [hm, hm']
      · rw [hm]
        exact h.address n m' track u ht hum' hta hua heq
    · rcases Parties.getElem?_set ht hum with ⟨hm', rfl⟩ | ⟨-, hum'⟩
      · rw [hm']
        exact h.address m n t track htm' ht hta hua heq
      · exact h.address m m' t u htm' hum' hta hua heq

/-- The wraps there are when one is added. -/
theorem live_addWrap {j m p : Nat} : (s.addWrap n o).Live j m p ↔
    s.Live j m p ∨ j = s.wraps.length ∧ m = n ∧ p = o := by
  constructor
  · rintro ⟨w, hw, ha, hm, hp⟩
    rcases Parties.getElem?_concat hw with ⟨rfl, rfl⟩ | hw
    · exact .inr ⟨rfl, hm.symm, hp.symm⟩
    · exact .inl ⟨w, hw, ha, hm, hp⟩
  · rintro (⟨w, hw, ha, hm, hp⟩ | ⟨rfl, rfl, rfl⟩)
    · refine ⟨w, ?_, ha, hm, hp⟩
      exact (List.getElem?_append_left (List.getElem?_eq_some_iff.mp hw).1).trans hw
    · exact ⟨_, List.getElem?_concat_length, rfl, rfl, rfl⟩

/-- A track with its observer installed, registered and open, which no other track has. -/
structure Ready (s : DataTracks) (n o : Nat) (track : NativeDataTrack) : Prop where
  found : s.tracks[n]? = some track
  alive : track.alive = true
  phase : track.phase ≠ .unsubscribed
  installed : track.observer = some o
  registered : s.registrations track.address = some ⟨n, o⟩
  opened : ∃ observer, s.observers[o]? = some observer ∧ observer.closed = false
  own : ∀ (m : Nat) (t : NativeDataTrack), s.tracks[m]? = some t → t.observer = some o → n = m
  ownRegistered : ∀ a r, s.registrations a = some r → r.observer = o → n = r.track

/-- A wrap is bound to the observer of its track. -/
theorem linked_addWrap (h : s.Linked) (hr : s.Ready n o track) : (s.addWrap n o).Linked := by
  obtain ⟨ob, hob, hopen⟩ := hr.opened
  have hbind : ob.bind s.wraps.length = { ob with targets := ob.targets ++ [s.wraps.length] } := by
    simp [Observer.bind, hopen]
  have hnew : (s.addWrap n o).observers[o]? =
      some { ob with targets := ob.targets ++ [s.wraps.length] } := by
    show (s.observers.modify o _)[o]? = _
    rw [Parties.getElem?_modify_of hob, if_pos rfl, hbind]
  have hold : ∀ (p : Nat) (u : Observer), s.observers[p]? = some u → ∃ u' : Observer,
      (s.addWrap n o).observers[p]? = some u' ∧ u'.closed = u.closed ∧
        ∀ i ∈ u.targets, i ∈ u'.targets := by
    intro p u hu
    by_cases hp : o = p
    · subst hp
      cases hob.symm.trans hu
      exact ⟨_, hnew, rfl, fun i hi ↦ List.mem_append_left _ hi⟩
    · refine ⟨u, ?_, rfl, fun i hi ↦ hi⟩
      show (s.observers.modify o _)[p]? = _
      rw [Parties.getElem?_modify_of hu, if_neg hp]
  have hlen : (s.addWrap n o).observers.length = s.observers.length := List.length_modify ..
  constructor
  · intro i m p hlive
    rcases live_addWrap.mp hlive with hlive | ⟨rfl, rfl, rfl⟩
    · cases h.bound i m p hlive with
      | observed t u h1 h2 h3 h4 h5 h6 h7 h8 =>
        obtain ⟨u', hu', hc, hsub⟩ := hold p u h2
        exact .observed t u' h1 hu' h3 h4 h5 h6 (hc.trans h7) (hsub i h8)
      | closed t u h1 h2 h3 h4 h5 =>
        obtain ⟨u', hu', hc, -⟩ := hold p u h2
        exact .closed t u' h1 hu' h3 h4 (hc.trans h5)
    · exact .observed track _ hr.found hnew hr.alive hr.phase hr.installed hr.registered hopen
        (by simp)
  · intro p u hu
    obtain ⟨u₀, hu₀, rfl⟩ := Parties.of_getElem?_modify hu
    obtain ⟨hnd, hmem⟩ := h.targets p u₀ hu₀
    split
    · next hp =>
      subst hp
      cases hob.symm.trans hu₀
      rw [hbind]
      constructor
      · refine List.Nodup.append hnd (List.nodup_singleton _) ?_
        rw [List.disjoint_singleton]
        intro hin
        obtain ⟨m, w, hw, -⟩ := hmem _ hin
        exact absurd (List.getElem?_eq_some_iff.mp hw).1 (Nat.lt_irrefl _)
      · intro i hi
        rcases List.mem_append.mp hi with hi | hi
        · obtain ⟨m, hlive⟩ := hmem i hi
          exact ⟨m, live_addWrap.mpr (.inl hlive)⟩
        · exact ⟨n, live_addWrap.mpr (.inr ⟨by simpa using hi, rfl, rfl⟩)⟩
    · refine ⟨hnd, fun i hi ↦ ?_⟩
      obtain ⟨m, hlive⟩ := hmem i hi
      exact ⟨m, live_addWrap.mpr (.inl hlive)⟩
  · intro m u p hu hobs
    obtain ⟨hl, hk⟩ := h.installed m u p hu hobs
    refine ⟨hlen ▸ hl, fun i k hlive ↦ ?_⟩
    rcases live_addWrap.mp hlive with hlive | ⟨-, rfl, rfl⟩
    · exact hk i k hlive
    · exact hr.own m u hu hobs
  · intro a r hreg
    obtain ⟨hl, hk⟩ := h.registered a r hreg
    refine ⟨hlen ▸ hl, fun i k hlive ↦ ?_⟩
    rcases live_addWrap.mp hlive with hlive | ⟨-, rfl, he⟩
    · exact hk i k hlive
    · exact hr.ownRegistered a r hreg he
  · exact h.address

/-- Making a wrap installs an observer only where there is none, and leaves the track with the
observer of the wrap. -/
theorem linked_newInstance (h : s.Linked) (ht : s.tracks[n]? = some track)
    (ha : track.alive = true) (hp : track.phase ≠ .unsubscribed) :
    (s.newInstance n track).Linked ∧ ∃ o, (s.newInstance n track).Live s.wraps.length n o ∧
      (s.newInstance n track).tracks[n]? = some { track with observer := some o } := by
  unfold newInstance
  cases hreg : s.registered n track.address with
  | some o =>
    obtain ⟨i, hlive⟩ := (registered_eq h ht ha hp).mp hreg
    obtain ⟨observer, hob, hinst, hregd, hopen, -⟩ := (h.bound i n o hlive).observe ht hp
    have hready : s.Ready n o track := by
      refine ⟨ht, ha, hp, hinst, hregd, ⟨observer, hob, hopen⟩, ?_, ?_⟩
      · intro m t htm hobs
        exact (h.installed m t o htm hobs).2 i n hlive
      · rintro a r har rfl
        exact (h.registered a r har).2 i n hlive
    have heq : { track with observer := some o } = track := by rw [← hinst]
    exact ⟨linked_addWrap h hready, o, live_addWrap.mpr (.inr ⟨rfl, rfl, rfl⟩), heq ▸ ht⟩
  | none =>
    have hno : ∀ i o, ¬ s.Live i n o := by
      intro i o hlive
      have hsome := (registered_eq h ht ha hp).mpr ⟨i, hlive⟩
      rw [hreg] at hsome
      cases hsome
    have hset : (s.install n track).tracks[n]? =
        some { track with observer := some s.observers.length } := Parties.getElem?_set_self ht
    have hready : (s.install n track).Ready n s.observers.length
        { track with observer := some s.observers.length } := by
      refine ⟨hset, ha, hp, rfl, ?_, ⟨.create, ?_, rfl⟩, ?_, ?_⟩
      · exact Function.update_self ..
      · exact List.getElem?_concat_length
      · intro m t htm hobs
        rcases Parties.getElem?_set ht htm with ⟨rfl, -⟩ | ⟨-, htm'⟩
        · rfl
        · exact absurd (h.installed m t _ htm' hobs).1 (Nat.lt_irrefl _)
      · intro a r har hobs
        by_cases haddr : a = track.address
        · subst haddr
          have heq := (Function.update_self ..).symm.trans har
          cases heq
          rfl
        · simp only [install] at har
          rw [Function.update_of_ne haddr] at har
          obtain ⟨har, -⟩ := Option.filter_eq_some_iff.mp har
          have hlt := (h.registered a r har).1
          omega
    exact ⟨linked_addWrap (linked_install h ht ha hno) hready, _,
      live_addWrap.mpr (.inr ⟨rfl, rfl, rfl⟩), hset⟩

/-- Closing the observer of a wrapped track: what is left of the track and its observer. -/
theorem closeObserver_eq (h : s.Linked) (hlive : s.Live i n o)
    (ht : s.tracks[n]? = some { track with observer := some o })
    (hp : track.phase ≠ .unsubscribed) :
    (s.closeObserver n track).setPhase n .unsubscribed =
      { s with
        tracks := s.tracks.set n { track with observer := none, phase := .unsubscribed }
        observers := s.observers.modify o Observer.close
        registrations := Function.update s.registrations track.address none } := by
  obtain ⟨-, -, -, hreg, -⟩ := (h.bound i n o hlive).observe ht hp
  have hexp : s.observerExpired o = false := observerExpired_iff.mpr ⟨i, n, hlive⟩
  have hexp' : observerExpired { s with tracks := s.tracks.set n { track with observer := none } } o
      = false := hexp
  have hreg : s.registrations track.address = some ⟨n, o⟩ := hreg
  simp only [closeObserver, hreg, hexp', setPhase]
  rw [Parties.modify_eq_set_of (Parties.getElem?_set_self ht), List.set_set]
  rfl

/-- Handling the unsubscribe closes the observer and leaves no way to it. -/
theorem linked_close (h : s.Linked) (hlive : s.Live i n o)
    (ht : s.tracks[n]? = some { track with observer := some o }) (ha : track.alive = true)
    (hp : track.phase ≠ .unsubscribed) :
    ((s.closeObserver n track).setPhase n .unsubscribed).Linked := by
  rw [closeObserver_eq h hlive ht hp]
  obtain ⟨ob, hob, -, -, hopen, -⟩ := (h.bound i n o hlive).observe ht hp
  have hclose : ob.close = ⟨true, []⟩ := by simp [Observer.close, hopen]
  constructor
  · rintro j m p hlive'
    have hlive' : s.Live j m p := hlive'
    by_cases hm : m = n
    · subst hm
      obtain ⟨-, -, hinst, -⟩ := (h.bound j m p hlive').observe ht hp
      cases hinst
      refine .closed { track with observer := none, phase := .unsubscribed } ⟨true, []⟩ ?_ ?_ ha
        rfl rfl
      · exact Parties.getElem?_set_self ht
      · rw [Parties.getElem?_modify_of hob, if_pos rfl, hclose]
    · have hpo : o ≠ p := by
        rintro rfl
        exact hm ((h.installed n _ o ht rfl).2 j m hlive')
      have htr : ∀ t : NativeDataTrack, s.tracks[m]? = some t →
          (s.tracks.set n { track with observer := none, phase := .unsubscribed })[m]? = some t :=
        fun t h1 ↦ (List.getElem?_set_ne (Ne.symm hm)).trans h1
      have hobs : ∀ u : Observer, s.observers[p]? = some u →
          (s.observers.modify o Observer.close)[p]? = some u := by
        intro u h2
        rw [Parties.getElem?_modify_of h2, if_neg hpo]
      cases h.bound j m p hlive' with
      | observed t u h1 h2 h3 h4 h5 h6 h7 h8 =>
        have haddr : t.address ≠ track.address :=
          fun he ↦ hm (h.address m n t _ h1 ht h3 ha he)
        refine .observed t u (htr t h1) (hobs u h2) h3 h4 h5 ?_ h7 h8
        exact (Function.update_of_ne haddr ..).trans h6
      | closed t u h1 h2 h3 h4 h5 => exact .closed t u (htr t h1) (hobs u h2) h3 h4 h5
  · intro p u hu
    obtain ⟨u₀, hu₀, rfl⟩ := Parties.of_getElem?_modify hu
    split
    · next hpo =>
      subst hpo
      cases hob.symm.trans hu₀
      rw [hclose]
      exact ⟨List.nodup_nil, fun j hj ↦ (by cases hj)⟩
    · exact h.targets p u₀ hu₀
  · intro m u p hu hobs
    rcases Parties.getElem?_set ht hu with ⟨-, rfl⟩ | ⟨-, hu⟩
    · cases hobs
    · obtain ⟨hl, hk⟩ := h.installed m u p hu hobs
      exact ⟨by simpa using hl, hk⟩
  · intro a r hreg
    by_cases haddr : a = track.address
    · subst haddr
      dsimp only at hreg
      rw [Function.update_self] at hreg
      cases hreg
    · dsimp only at hreg
      rw [Function.update_of_ne haddr] at hreg
      obtain ⟨hl, hk⟩ := h.registered a r hreg
      exact ⟨by simpa using hl, hk⟩
  · intro m m' t u htm hum hta hua heq
    rcases Parties.getElem?_set ht htm with ⟨hm, rfl⟩ | ⟨-, htm'⟩
    · rcases Parties.getElem?_set ht hum with ⟨hm', -⟩ | ⟨-, hum'⟩
      · rw [hm, hm']
      · rw [hm]
        exact h.address n m' _ u ht hum' hta hua heq
    · rcases Parties.getElem?_set ht hum with ⟨hm', rfl⟩ | ⟨-, hum'⟩
      · rw [hm']
        exact h.address m n t _ htm' ht hta hua heq
      · exact h.address m m' t u htm' hum' hta hua heq

/-- The wraps that are left when one is destroyed. -/
theorem live_destroyWrap {w : Wrap} {traffic : Traffic Pending} {j m p : Nat}
    (hw : s.wraps[i]? = some w) :
    (s.destroyWrap i w traffic).Live j m p ↔ s.Live j m p ∧ j ≠ i := by
  constructor
  · rintro ⟨v, hv, ha, hm, hp⟩
    rcases Parties.getElem?_set hw hv with ⟨-, rfl⟩ | ⟨hne, hv⟩
    · cases ha
    · exact ⟨⟨v, hv, ha, hm, hp⟩, hne⟩
  · rintro ⟨⟨v, hv, ha, hm, hp⟩, hne⟩
    exact ⟨v, (List.getElem?_set_ne (Ne.symm hne)).trans hv, ha, hm, hp⟩

/-- A wrap that is destroyed leaves its observer to the others. -/
theorem linked_destroyWrap (h : s.Linked) {w : Wrap} {traffic : Traffic Pending}
    (hw : s.wraps[i]? = some w) (ha : w.alive = true) :
    (s.destroyWrap i w traffic).Linked := by
  have hlive : s.Live i w.track w.observer := ⟨w, hw, ha, rfl, rfl⟩
  have hold : ∀ (p : Nat) (u : Observer), s.observers[p]? = some u → ∃ u' : Observer,
      (s.destroyWrap i w traffic).observers[p]? = some u' ∧ u'.closed = u.closed ∧
        ∀ j ∈ u.targets, j ≠ i → j ∈ u'.targets := by
    intro p u hu
    refine ⟨_, Parties.getElem?_modify_of hu _, ?_, ?_⟩
    · split <;> rfl
    · intro j hj hne
      split
      · simpa [Observer.unbind] using ⟨hj, hne⟩
      · exact hj
  constructor
  · intro j m p hlive'
    obtain ⟨hlive', hne⟩ := (live_destroyWrap hw).mp hlive'
    cases h.bound j m p hlive' with
    | observed t u h1 h2 h3 h4 h5 h6 h7 h8 =>
      obtain ⟨u', hu', hc, hsub⟩ := hold p u h2
      exact .observed t u' h1 hu' h3 h4 h5 h6 (hc.trans h7) (hsub j h8 hne)
    | closed t u h1 h2 h3 h4 h5 =>
      obtain ⟨u', hu', hc, -⟩ := hold p u h2
      exact .closed t u' h1 hu' h3 h4 (hc.trans h5)
  · intro p u hu
    obtain ⟨u₀, hu₀, rfl⟩ := Parties.of_getElem?_modify hu
    obtain ⟨hnd, hmem⟩ := h.targets p u₀ hu₀
    split
    · refine ⟨hnd.filter _, fun j hj ↦ ?_⟩
      simp only [Observer.unbind, List.mem_filter, decide_eq_true_eq] at hj
      obtain ⟨m, hlive'⟩ := hmem j hj.1
      exact ⟨m, (live_destroyWrap hw).mpr ⟨hlive', hj.2⟩⟩
    · next hpo =>
      refine ⟨hnd, fun j hj ↦ ?_⟩
      obtain ⟨m, hlive'⟩ := hmem j hj
      refine ⟨m, (live_destroyWrap hw).mpr ⟨hlive', ?_⟩⟩
      rintro rfl
      obtain ⟨v, hv, -, -, hobs⟩ := hlive'
      cases hw.symm.trans hv
      exact hpo hobs
  · intro m u p hu hobs
    obtain ⟨hl, hk⟩ := h.installed m u p hu hobs
    refine ⟨?_, fun j k hlive' ↦ hk j k ((live_destroyWrap hw).mp hlive').1⟩
    simpa [destroyWrap] using hl
  · intro a r hreg
    obtain ⟨hl, hk⟩ := h.registered a r hreg
    refine ⟨?_, fun j k hlive' ↦ hk j k ((live_destroyWrap hw).mp hlive').1⟩
    simpa [destroyWrap] using hl
  · exact h.address

end DataTracks

end VideoNode.Data
