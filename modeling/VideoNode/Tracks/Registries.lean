import VideoNode.Tracks.Receivers

/-!
# Registries side by side

Any number of `TrackRegistry` objects (`lib/track_registry.ts`), one a Room, over the wrappers of
one process, where no native call throws. A call on a registry is the one of `Receivers` on its map
and the wrappers there are. It touches only wrappers that its registry has cached, and a registry
caches only wrappers it has made.
-/

namespace VideoNode.Tracks

open VideoNode.Js VideoNode.Frames VideoNode.Lts

/-- The wrappers of a process, the map of each registry, and the iterators `frames()` has handed
out, each named by its wrapper and its number there. -/
structure Registries where
  tracks : List RemoteTrack
  registries : List (JsMap String Nat)
  iterators : List (Nat × Nat)

/-- What is called on the registries, named by the order they were made in, and on the wrappers they
have returned. -/
inductive RegistriesCall where
  | create
  | wrapRemoteTrack (i : Nat) (n : NativeTrack)
  | releaseRemoteTrack (i : Nat) (k : String)
  | releaseAllRemoteTracks (i : Nat)
  | frames (w : Nat) (options : JsValue)
  | returnIterator (w : Nat) (r : Nat)
  | listen (w : Nat)

/-- The registry a call is made on. -/
def RegistriesCall.registry? : RegistriesCall → Option Nat
  | .wrapRemoteTrack i _ | .releaseRemoteTrack i _ | .releaseAllRemoteTracks i => some i
  | .create | .frames .. | .returnIterator .. | .listen .. => none

/-- No native call throws where a receiver ends. -/
def allReturn : Nat → EndCalls := fun _ ↦ .returning

namespace Registries

variable (sid : NativeTrack → Option String) (kind : NativeTrack → NativeKind)

/-- A map, with the wrappers and the iterators there are. -/
def view (s : Registries) (r : JsMap String Nat) : Receivers := ⟨⟨s.tracks, r⟩, s.iterators⟩

/-- A call on one registry. -/
def onRegistry (s : Registries) (i : Nat) (c : TrackCall) : Option Registries :=
  s.registries[i]?.bind fun r ↦ ((s.view r).step sid kind c).map fun v ↦
    { tracks := v.registry.tracks
      registries := s.registries.set i v.registry.registry
      iterators := v.iterators }

/-- A call on a wrapper, which reads no registry. -/
def onWrapper (s : Registries) (c : TrackCall) : Option Registries :=
  ((s.view .empty).step sid kind c).map fun v ↦
    { s with tracks := v.registry.tracks, iterators := v.iterators }

/-- One call, to its return or its throw. -/
def step (s : Registries) : RegistriesCall → Option Registries
  | .create => some { s with registries := s.registries ++ [.empty] }
  | .wrapRemoteTrack i n => s.onRegistry sid kind i (.wrap n allReturn)
  | .releaseRemoteTrack i k => s.onRegistry sid kind i (.release k allReturn)
  | .releaseAllRemoteTracks i => s.onRegistry sid kind i (.releaseAll allReturn)
  | .frames w options => s.onWrapper sid kind (.frames w options (.ok ()))
  | .returnIterator w r => s.onWrapper sid kind (.returnIterator w r .returning)
  | .listen w => s.onWrapper sid kind (.listen w (.ok ()))

/-- No registries yet. -/
def machine : Machine Registries RegistriesCall where
  init := ⟨[], [], []⟩
  step := step sid kind

/-- What `wrapRemoteTrack(native)` on a registry returns or throws. -/
def wrapResult (s : Registries) (i : Nat) (n : NativeTrack) : Option (Except JsError Nat) :=
  s.registries[i]?.map fun r ↦
    ((s.view r).registry.wrapRemoteTrack sid kind allReturn n).2

/-- A registry has a wrapper cached under a SID. -/
def Caches (s : Registries) (i : Nat) (k : String) (w : Nat) : Prop :=
  ∃ r, s.registries[i]? = some r ∧ r.get k = some w

/-- A receiver of a wrapper is active: its iterator was handed out and has not ended. -/
def Active (s : Registries) (w r : Nat) : Prop := (s.view .empty).Active w r

/-- A call removes what a registry has cached under a SID: a release of it or of all, or a wrap of a
native track with the SID and another kind. -/
def Removes (s : Registries) (i : Nat) (k : String) : RegistriesCall → Prop
  | .wrapRemoteTrack j n => j = i ∧ sid n = some k ∧
    ∃ w t, s.Caches i k w ∧ s.tracks[w]? = some t ∧ t.kind ≠ kind n
  | .releaseRemoteTrack j k' => j = i ∧ k' = k
  | .releaseAllRemoteTracks j => j = i
  | .create | .frames .. | .returnIterator .. | .listen .. => False

/-- A wrapper has nothing going on: no receiver of it is active, and its track receives nothing. -/
def Released (s : Registries) (w : Nat) : Prop :=
  (∀ r, ¬ s.Active w r) ∧ ∀ t, s.tracks[w]? = some t → t.receiving = false

end Registries

namespace TrackRegistry

variable {sid : NativeTrack → Option String} {kind : NativeTrack → NativeKind}
  {s s' : TrackRegistry} {n : NativeTrack} {k : String} {w : Nat} {t : RemoteTrack}
  {calls : Nat → EndCalls}

/-- What a call on a registry does to wrappers at large: they stay, one that is cached was cached
before or is new, and one that was not cached is as it was. -/
structure Confined (s s' : TrackRegistry) : Prop extends Kept s s' where
  entries : ∀ k w, s'.registry.get k = some w →
    s.registry.get k = some w ∨ s.tracks.length ≤ w
  steady : ∀ (w : Nat) (t : RemoteTrack), s.tracks[w]? = some t →
    (∀ k, s.registry.get k ≠ some w) → s'.tracks[w]? = some t

private theorem steady_endTrack {v : Nat} (ht : s.tracks[w]? = some t) (hv : w ≠ v) :
    (s.endTrack calls v).1.tracks[w]? = some t := by
  unfold endTrack
  split
  · exact ht
  · rw [List.getElem?_set_ne (Ne.symm hv)]
    exact ht

private theorem steady_endTracks {ws : List Nat} (ht : s.tracks[w]? = some t) (hw : w ∉ ws) :
    (s.endTracks calls ws).1.tracks[w]? = some t := by
  induction ws generalizing s with
  | nil => exact ht
  | cons v ws ih =>
    simp only [List.mem_cons, not_or] at hw
    have hs : (s.endTrack calls v).1.tracks[w]? = some t := steady_endTrack ht hw.1
    unfold endTracks
    split
    · next he => rwa [he] at hs
    · next he =>
      rw [he] at hs
      exact ih hs hw.2

/-- `releaseAllRemoteTracks()` touches only what is cached. -/
theorem confined_releaseAll (s : TrackRegistry) :
    Confined s (s.releaseAllRemoteTracks calls).1 := by
  have hs : Shrunk s (s.releaseAllRemoteTracks calls).1 := shrunk_releaseAllRemoteTracks s
  refine ⟨hs.toKept, fun k w hw ↦ .inl (hs.sub k w hw), fun w t ht hn ↦ ?_⟩
  have hw : w ∉ s.registry.entries.map Prod.snd := by
    intro hm
    obtain ⟨⟨k, v⟩, hk, rfl⟩ := List.mem_map.mp hm
    exact hn k (JsMap.mem_entries.mp hk)
  have hend : (s.endTracks calls (s.registry.entries.map Prod.snd)).1.tracks[w]? = some t :=
    steady_endTracks ht hw
  unfold releaseAllRemoteTracks
  split
  · next he => rwa [he] at hend
  · next he => rwa [he] at hend

/-- `releaseRemoteTrack(sid)` touches only what is cached. -/
theorem confined_release (s : TrackRegistry) (k : String) :
    Confined s (s.releaseRemoteTrack calls (some k)).1 := by
  have hs : Shrunk s (s.releaseRemoteTrack calls (some k)).1 :=
    shrunk_releaseRemoteTrack s (some k)
  exact ⟨hs.toKept, fun k w hw ↦ .inl (hs.sub k w hw),
    fun w t ht hn ↦ steady_releaseRemoteTrack ht fun k' _ ↦ hn k'⟩

private theorem confined_cleared {s₀ : TrackRegistry} (h : Cleared sid kind calls s n s₀) :
    Confined s s₀ ∧ s₀.tracks.length = s.tracks.length := by
  have hs := shrunk_cleared h
  cases h with
  | absent he => exact ⟨⟨hs.toKept, fun k w hw ↦ .inl hw, fun w t ht _ ↦ ht⟩, rfl⟩
  | @ended k v u hk hv hu hne =>
    refine ⟨⟨hs.toKept, fun k' w hw ↦ .inl (hs.sub k' w hw), fun w t ht hn ↦ ?_⟩,
      List.length_set ..⟩
    have hvw : v ≠ w := by
      rintro rfl
      exact hn k hv
    rw [List.getElem?_set_ne hvw]
    exact ht

/-- `wrapRemoteTrack(native)` touches only what is cached, and caches only a new wrapper. -/
theorem Wrapped.confined {res : TrackRegistry × Except JsError Nat}
    (h : s.Wrapped sid kind calls n res) : Confined s res.1 := by
  refine ⟨h.kept, ?_, ?_⟩
  · intro k w hw
    cases h with
    | found => exact .inl hw
    | @made s₀ u hc hu =>
      obtain ⟨hcf, hlen⟩ := confined_cleared hc
      cases hsid : sid n with
      | none =>
        rw [hsid] at hw
        exact hcf.entries k w hw
      | some k' =>
        simp only [hsid, JsMap.get_set] at hw
        split at hw
        · cases hw
          exact .inr (Nat.le_of_eq hlen.symm)
        · exact hcf.entries k w hw
    | failed hc => exact (confined_cleared hc).1.entries k w hw
  · intro w t ht hn
    cases h with
    | found => exact ht
    | made hc hu => exact get_concat ((confined_cleared hc).1.steady w t ht hn)
    | failed hc => exact (confined_cleared hc).1.steady w t ht hn

private theorem cleared_stops {s₀ : TrackRegistry} (h : Cleared sid kind allReturn s n s₀)
    (hf : s.Free) (hk : sid n = some k) (hg : s.registry.get k = some w)
    (ht : s₀.tracks[w]? = some t) : t.receiving = false := by
  cases h with
  | absent he =>
    rw [existing, hk, Option.bind_some, hg] at he
    cases he
  | @ended k' v u hk' hv hu hne =>
    cases hk.symm.trans hk'
    cases hg.symm.trans hv
    have he : (s.endTrack allReturn w).1.tracks =
        s.tracks.set w (u.endTrack (allReturn w)).1 := by
      simp [endTrack, hu]
    rw [← he] at ht
    exact endTrack_stops hf (fun _ _ _ ↦ rfl) ht

/-- What is cached stays cached through a wrap, or the native track has its SID and another kind and
it receives nothing any more, also where the wrap throws. -/
theorem Wrapped.entry {res : TrackRegistry × Except JsError Nat}
    (h : s.Wrapped sid kind allReturn n res) (hf : s.Free) (hg : s.registry.get k = some w) :
    res.1.registry.get k = some w ∨
      ((sid n = some k ∧ ∃ t, s.tracks[w]? = some t ∧ t.kind ≠ kind n) ∧
        ∀ t, res.1.tracks[w]? = some t → t.receiving = false) := by
  by_cases hr : s.Replaces sid kind k n
  · right
    obtain ⟨hk, v, u, hv, hu, hne⟩ := hr
    cases hg.symm.trans hv
    refine ⟨⟨hk, u, hu, hne⟩, fun t ht ↦ ?_⟩
    cases h with
    | found hk' hw hu' he =>
      cases hk.symm.trans hk'
      cases hg.symm.trans hw
      cases hu.symm.trans hu'
      exact absurd he hne
    | @made s₀ u' hc hu' =>
      rcases Parties.getElem?_concat ht with ⟨-, rfl⟩ | ht
      · -- A new wrapper has no receiver either.
        cases hkind : kind n with
        | other name =>
          rw [hkind] at hu'
          cases hu'
        | _ =>
          rw [hkind] at hu'
          cases hu'
          rfl
      · exact cleared_stops hc hf hk hg ht
    | failed hc => exact cleared_stops hc hf hk hg ht
  · exact .inl (h.get_of_cached hg hr)

/-- What is cached stays cached through a release, or it is what was released and receives nothing
any more. -/
theorem release_entry (hf : s.Free) (hg : s.registry.get k = some w) (k' : String) :
    (s.releaseRemoteTrack allReturn (some k')).1.registry.get k = some w ∨
      (k' = k ∧ ∀ t, (s.releaseRemoteTrack allReturn (some k')).1.tracks[w]? = some t →
        t.receiving = false) := by
  by_cases hkk : k = k'
  · subst hkk
    refine .inr ⟨rfl, fun t ht ↦ ?_⟩
    have hfd : (s.delete (some k)).Free := hf
    simp only [releaseRemoteTrack, Option.bind_some, hg] at ht
    exact endTrack_stops hfd (fun _ _ _ ↦ rfl) ht
  · left
    rw [get_releaseRemoteTrack_of_ne s hkk]
    exact hg

private theorem returns_endTrack (s : TrackRegistry) (w : Nat) :
    (s.endTrack allReturn w).2 = .ok () := by
  have hmedia : ∀ m : MediaTrack, (m.endTrack .returning).2 = .ok () := by
    intro m
    unfold MediaTrack.endTrack MediaTrack.endStream
    split
    · rfl
    · split <;> rfl
  unfold endTrack
  split
  · rfl
  · next t ht =>
    cases t with
    | video m => exact hmedia m
    | audio m => exact hmedia m
    | data m => rfl

private theorem returns_endTracks (s : TrackRegistry) (ws : List Nat) :
    (s.endTracks allReturn ws).2 = .ok () := by
  induction ws generalizing s with
  | nil => rfl
  | cons w ws ih =>
    have hw := returns_endTrack s w
    unfold endTracks
    split
    · next he =>
      rw [he] at hw
      cases hw
    · exact ih _

/-- Nothing is cached once all is released. -/
theorem get_releaseAll (s : TrackRegistry) (k : String) :
    (s.releaseAllRemoteTracks allReturn).1.registry.get k = none := by
  have hr := returns_endTracks s (s.registry.entries.map Prod.snd)
  unfold releaseAllRemoteTracks
  split
  · next he =>
    rw [he] at hr
    cases hr
  · exact JsMap.get_empty k

/-- A wrap of a native track with the SID and another kind leaves another wrapper or none cached. -/
theorem Wrapped.forgets {res : TrackRegistry × Except JsError Nat}
    (h : s.Wrapped sid kind calls n res) (hk : sid n = some k) (hg : s.registry.get k = some w)
    (ht : s.tracks[w]? = some t) (hne : t.kind ≠ kind n) : res.1.registry.get k ≠ some w := by
  have hlt := (List.getElem?_eq_some_iff.mp ht).1
  have hnone : ∀ {error}, res.2 = .error error → res.1.registry.get k = none :=
    fun he ↦ h.get_of_error he hk
  cases h with
  | found hk' hw hu he =>
    cases hk.symm.trans hk'
    cases hg.symm.trans hw
    cases ht.symm.trans hu
    exact absurd he hne
  | made hc hu =>
    have hlen := (confined_cleared hc).2
    simp only [hk, JsMap.get_set, if_pos]
    intro he
    have he := Option.some.inj he
    omega
  | failed hc =>
    rw [hnone rfl]
    exact (Option.some_ne_none w).symm

/-- A wrap of a native track whose kind is known returns a wrapper of that kind. -/
theorem wrapRemoteTrack_ok (hl : s.Law sid kind) (n : NativeTrack)
    (hkind : ∀ name, kind n ≠ .other name) : ∃ w t,
      (s.wrapRemoteTrack sid kind allReturn n).2 = .ok w ∧
      (s.wrapRemoteTrack sid kind allReturn n).1.tracks[w]? = some t ∧ t.kind = kind n := by
  have hmint : ∀ s₀ : TrackRegistry, ∃ w t, (mint sid kind s₀ n).2 = .ok w ∧
      (mint sid kind s₀ n).1.tracks[w]? = some t ∧ t.kind = kind n := by
    intro s₀
    cases hk : kind n with
    | other name => exact absurd hk (hkind name)
    | _ => exact ⟨s₀.tracks.length, _, by simp [mint, RemoteTrack.create, hk],
        by simp [mint, RemoteTrack.create, hk]; rfl, rfl⟩
  unfold wrapRemoteTrack
  split
  · exact hmint s
  · next w he =>
    obtain ⟨k, hk, hw⟩ := Option.bind_eq_some_iff.mp he
    obtain ⟨t, ht, -⟩ := hl.cached k w hw
    split
    · next hm =>
      rw [ht, Option.map_some, Option.some.injEq] at hm
      exact ⟨w, t, rfl, ht, hm⟩
    · have hr := returns_endTrack (s.delete (sid n)) w
      split
      · next he =>
        rw [he] at hr
        cases hr
      · exact hmint _

/-- A cached wrapper of the right kind is what a wrap returns. -/
theorem wrapRemoteTrack_of_cached (hk : sid n = some k) (hg : s.registry.get k = some w)
    (ht : s.tracks[w]? = some t) (he : t.kind = kind n) :
    s.wrapRemoteTrack sid kind calls n = (s, .ok w) := by
  simp [wrapRemoteTrack, existing, hk, hg, ht, he]

end TrackRegistry

namespace Registries

open TrackRegistry

variable {sid : NativeTrack → Option String} {kind : NativeTrack → NativeKind}
  {s s' : Registries} {i j : Nat} {k : String} {w : Nat}

/-- What every call keeps: each registry caches by SID and kind, no wrapper is cached in two, and
the slot of a track is empty or held by the one iterator that has not ended. -/
structure Inv (sid : NativeTrack → Option String) (kind : NativeTrack → NativeKind)
    (s : Registries) : Prop where
  law : ∀ r ∈ s.registries, (s.view r).registry.Law sid kind
  apart : ∀ i j k k' w, s.Caches i k w → s.Caches j k' w → i = j
  belongs : Belongs s.iterators (s.view .empty).registry
  free : (s.view .empty).registry.Free

/-- One registry of the process is one whose receivers belong together. -/
theorem Inv.held (h : s.Inv sid kind) {r : JsMap String Nat} (hr : s.registries[i]? = some r) :
    Receivers.Held sid kind (s.view r) :=
  ⟨h.law r (List.mem_of_getElem? hr), h.belongs.of_tracks rfl⟩

/-- Inversion of a call on a registry. -/
theorem onRegistry_eq_some {c : TrackCall} : s.onRegistry sid kind i c = some s' ↔
    ∃ r v, s.registries[i]? = some r ∧ (s.view r).step sid kind c = some v ∧
      s' = ⟨v.registry.tracks, s.registries.set i v.registry.registry, v.iterators⟩ := by
  simp only [onRegistry, Option.bind_eq_some_iff, Option.map_eq_some_iff]
  constructor
  · rintro ⟨r, hr, v, hv, rfl⟩
    exact ⟨r, v, hr, hv, rfl⟩
  · rintro ⟨r, v, hr, hv, rfl⟩
    exact ⟨r, hr, v, hv, rfl⟩

/-- Inversion of a call on a wrapper. -/
theorem onWrapper_eq_some {c : TrackCall} : s.onWrapper sid kind c = some s' ↔
    ∃ v, (s.view .empty).step sid kind c = some v ∧
      s' = { s with tracks := v.registry.tracks, iterators := v.iterators } := by
  simp only [onWrapper, Option.map_eq_some_iff]
  exact exists_congr fun v ↦ and_congr_right fun _ ↦ eq_comm

/-- The cached wrappers are there. -/
theorem Inv.cached (h : s.Inv sid kind) (hc : s.Caches i k w) :
    ∃ t, s.tracks[w]? = some t ∧ sid t.native = some k ∧ t.kind = kind t.native := by
  obtain ⟨r, hr, hg⟩ := hc
  exact (h.law r (List.mem_of_getElem? hr)).cached k w hg

private theorem law_of_kept {r : JsMap String Nat} {v : TrackRegistry}
    (hk : Kept (s.view r).registry v) (hl : (s.view r).registry.Law sid kind) :
    TrackRegistry.Law sid kind ⟨v.tracks, r⟩ :=
  Shrunk.law ⟨⟨hk.same⟩, fun _ _ h ↦ h⟩ hl

private theorem inv_set {r : JsMap String Nat} {v : Receivers} (h : s.Inv sid kind)
    (hr : s.registries[i]? = some r) (hcf : Confined (s.view r).registry v.registry)
    (hheld : Receivers.Held sid kind v) (hf : v.registry.Free) :
    Inv sid kind ⟨v.registry.tracks, s.registries.set i v.registry.registry, v.iterators⟩ := by
  have hcaches : ∀ j k w, Caches ⟨v.registry.tracks, s.registries.set i v.registry.registry,
      v.iterators⟩ j k w → s.Caches j k w ∨ (j = i ∧ s.tracks.length ≤ w) := by
    rintro j k w ⟨r', hr', hg⟩
    rcases Parties.getElem?_set hr hr' with ⟨rfl, rfl⟩ | ⟨-, hr'⟩
    · rcases hcf.entries k w hg with hg | hn
      · exact .inl ⟨r, hr, hg⟩
      · exact .inr ⟨rfl, hn⟩
    · exact .inl ⟨r', hr', hg⟩
  have hold : ∀ {j k w}, s.Caches j k w → w < s.tracks.length := by
    intro j k w hc
    obtain ⟨t, ht, -⟩ := h.cached hc
    exact (List.getElem?_eq_some_iff.mp ht).1
  refine ⟨fun r' hr' ↦ ?_, fun j j' k k' w hc hc' ↦ ?_, hheld.belongs.of_tracks rfl, hf⟩
  · rcases Parties.mem_of_mem_set hr' with rfl | hr'
    · exact hheld.law
    · exact law_of_kept ⟨hcf.same⟩ (h.law r' hr')
  · -- A wrapper that is new is cached in the registry of the call only.
    rcases hcaches j k w hc with ho | ⟨rfl, hn⟩ <;> rcases hcaches j' k' w hc' with ho' | ⟨rfl, hn'⟩
    · exact h.apart j j' k k' w ho ho'
    · have hlt := hold ho
      omega
    · have hlt := hold ho'
      omega
    · rfl

/-- What a call on a registry does, throw or return: it touches what the registry has cached, and
what is cached stays so, or the call removes it and it receives nothing any more. -/
theorem step_registry {a : RegistriesCall} (h : s.Inv sid kind)
    (hs : s.step sid kind a = some s') (ha : a.registry? = some i) :
    ∃ r v, s.registries[i]? = some r ∧
      s' = ⟨v.tracks, s.registries.set i v.registry, s.iterators⟩ ∧ s'.Inv sid kind ∧
      Confined (s.view r).registry v ∧
      ∀ k w, r.get k = some w → v.registry.get k = some w ∨
        (s.Removes sid kind i k a ∧ ∀ t, v.tracks[w]? = some t → t.receiving = false) := by
  have hf : ∀ r, (s.view r).registry.Free := fun _ ↦ h.free
  have hinv : ∀ {r v c}, s.registries[i]? = some r → (s.view r).step sid kind c = some v →
      (s.view r).SinkStatsReturn sid kind c → Confined (s.view r).registry v.registry →
      Inv sid kind ⟨v.registry.tracks, s.registries.set i v.registry.registry, v.iterators⟩ := by
    intro r v c hr hv hq hcf
    obtain ⟨hheld, hfree⟩ := Receivers.step_frees (h.held hr) hv
    exact inv_set h hr hcf hheld ((hfree (hf r)).mpr hq)
  cases a with
  | wrapRemoteTrack j n =>
    cases ha
    obtain ⟨r, v, hr, hv, rfl⟩ := onRegistry_eq_some.mp hs
    have hw := wrapped allReturn (h.held hr).law n
    obtain rfl := Option.some.inj hv
    refine ⟨r, _, hr, rfl, hinv hr hv (fun _ _ _ _ _ _ ↦ rfl) hw.confined, hw.confined, ?_⟩
    intro k w hg
    apply (hw.entry (hf r) hg).imp_right
    rintro ⟨⟨hk, t, ht, hne⟩, hstop⟩
    exact ⟨⟨rfl, hk, w, t, ⟨r, hr, hg⟩, ht, hne⟩, hstop⟩
  | releaseRemoteTrack j k' =>
    cases ha
    obtain ⟨r, v, hr, hv, rfl⟩ := onRegistry_eq_some.mp hs
    have hcf : Confined _ ((s.view r).registry.releaseRemoteTrack allReturn (some k')).1 :=
      confined_release _ k'
    obtain rfl := Option.some.inj hv
    refine ⟨r, _, hr, rfl, hinv hr hv (fun _ _ _ _ _ ↦ rfl) hcf, hcf, fun k w hg ↦ ?_⟩
    apply (release_entry (hf r) hg k').imp_right
    exact fun hrel ↦ ⟨⟨rfl, hrel.1⟩, hrel.2⟩
  | releaseAllRemoteTracks j =>
    cases ha
    obtain ⟨r, v, hr, hv, rfl⟩ := onRegistry_eq_some.mp hs
    have hcf : Confined _ ((s.view r).registry.releaseAllRemoteTracks allReturn).1 :=
      confined_releaseAll _
    have hq : ∀ k w, r.get k = some w → (s.view r).registry.Quiet w (allReturn w) :=
      fun _ _ _ _ _ _ ↦ rfl
    obtain rfl := Option.some.inj hv
    refine ⟨r, _, hr, rfl, hinv hr hv hq hcf, hcf, fun k w hg ↦ .inr ⟨rfl, fun t ht ↦ ?_⟩⟩
    exact releaseAll_stops (h.held hr).belongs (hf r) hq hg ht
  | _ => cases ha

private theorem inv_onWrapper {c : TrackCall} (h : s.Inv sid kind)
    (hs : s.onWrapper sid kind c = some s') (hq : (s.view .empty).SinkStatsReturn sid kind c) :
    s'.registries = s.registries ∧ s'.Inv sid kind := by
  obtain ⟨v, hv, rfl⟩ := onWrapper_eq_some.mp hs
  have hempty : Receivers.Held sid kind (s.view .empty) :=
    ⟨⟨fun k w hw ↦ by simp [view] at hw⟩, h.belongs⟩
  obtain ⟨hheld, hfree⟩ := Receivers.step_frees hempty hv
  have hk := Receivers.kept_step hempty.law hv
  exact ⟨rfl, fun r hr ↦ law_of_kept ⟨hk.same⟩ (h.law r hr), h.apart,
    hheld.belongs.of_tracks rfl, (hfree h.free).mpr hq⟩

/-- Making a registry or calling a wrapper keeps what is cached and the invariant. -/
theorem step_other {a : RegistriesCall} (h : s.Inv sid kind) (hs : s.step sid kind a = some s')
    (ha : a.registry? = none) :
    s'.Inv sid kind ∧ ∀ i k w, s.Caches i k w → s'.Caches i k w := by
  have hkeep : s'.registries = s.registries → ∀ i k w, s.Caches i k w → s'.Caches i k w := by
    rintro he i k w ⟨r, hr, hg⟩
    exact ⟨r, by rw [he]; exact hr, hg⟩
  cases a with
  | create =>
    cases hs
    have hcaches : ∀ i k w, Caches { s with registries := s.registries ++ [.empty] } i k w →
        s.Caches i k w := by
      rintro i k w ⟨r, hr, hg⟩
      rcases Parties.getElem?_concat hr with ⟨-, rfl⟩ | hr
      · simp at hg
      · exact ⟨r, hr, hg⟩
    refine ⟨⟨fun r hr ↦ ?_, fun i j k k' w hc hc' ↦ ?_, h.belongs, h.free⟩, ?_⟩
    · rcases List.mem_append.mp hr with hr | hr
      · exact h.law r hr
      · obtain rfl := List.mem_singleton.mp hr
        exact ⟨fun k w hg ↦ by simp [view] at hg⟩
    · exact h.apart i j k k' w (hcaches i k w hc) (hcaches j k' w hc')
    · rintro i k w ⟨r, hr, hg⟩
      exact ⟨r, by rw [List.getElem?_append_left (List.getElem?_eq_some_iff.mp hr).1]; exact hr, hg⟩
  | frames w options =>
    obtain ⟨he, hi⟩ := inv_onWrapper h hs trivial
    exact ⟨hi, hkeep he⟩
  | returnIterator w r =>
    obtain ⟨he, hi⟩ := inv_onWrapper h hs fun _ _ _ _ ↦ rfl
    exact ⟨hi, hkeep he⟩
  | listen w =>
    obtain ⟨he, hi⟩ := inv_onWrapper h hs trivial
    exact ⟨hi, hkeep he⟩
  | _ => cases ha

/-- Every call keeps the invariant. -/
theorem inv_step {a : RegistriesCall} (h : s.Inv sid kind) (hs : s.step sid kind a = some s') :
    s'.Inv sid kind := by
  cases ha : a.registry? with
  | none => exact (step_other h hs ha).1
  | some i =>
    obtain ⟨r, v, -, -, hi, -⟩ := step_registry h hs ha
    exact hi

/-- The invariant holds after every sequence of calls. -/
theorem inv_of_reachable (h : (machine sid kind).Reachable s) : s.Inv sid kind := by
  apply h.invariant
  · refine ⟨nofun, ?_, ⟨?_, nofun⟩, ?_⟩
    · rintro i j k k' w ⟨r, hr, -⟩
      simp [machine] at hr
    · intro w m hm
      simp [machine, view, media] at hm
    · intro w m hm
      simp [machine, view, media] at hm
  · exact fun _ _ _ hi hs ↦ inv_step hi hs

/-- A wrapper that receives nothing has no active receiver. -/
theorem released_of_stops (h : s.Inv sid kind)
    (hstop : ∀ t, s.tracks[w]? = some t → t.receiving = false) : s.Released w := by
  refine ⟨fun r hact ↦ ?_, hstop⟩
  obtain ⟨hin, m, hm, he⟩ := hact
  have hcur := (h.belongs.held w m hm).current r hin he
  obtain ⟨t, ht, hmedia⟩ := Option.bind_eq_some_iff.mp hm
  have hrec := hstop t ht
  cases t with
  | video t =>
    cases hmedia
    simp [RemoteTrack.receiving, hcur] at hrec
  | audio t =>
    cases hmedia
    simp [RemoteTrack.receiving, hcur] at hrec
  | data t => cases hmedia

/-- What is cached stays cached through a call, or the call removes it and it is released. -/
theorem entry_step {a : RegistriesCall} (h : s.Inv sid kind) (hs : s.step sid kind a = some s')
    (hc : s.Caches i k w) :
    s'.Caches i k w ∨ (s.Removes sid kind i k a ∧ s'.Released w) := by
  cases ha : a.registry? with
  | none => exact .inl ((step_other h hs ha).2 i k w hc)
  | some j =>
    obtain ⟨r, v, hr, rfl, hi, -, hentry⟩ := step_registry h hs ha
    obtain ⟨r', hr', hg⟩ := hc
    by_cases hij : i = j
    · subst hij
      cases hr.symm.trans hr'
      rcases hentry k w hg with hg' | ⟨hrem, hstop⟩
      · exact .inl ⟨v.registry, Parties.getElem?_set_self hr, hg'⟩
      · exact .inr ⟨hrem, released_of_stops hi hstop⟩
    · left
      refine ⟨r', ?_, hg⟩
      rw [List.getElem?_set_ne (Ne.symm hij)]
      exact hr'

/-- What a call removes is not cached any more. -/
theorem forgotten_step {a : RegistriesCall} (h : s.Inv sid kind)
    (hs : s.step sid kind a = some s') (hrem : s.Removes sid kind i k a) (hc : s.Caches i k w) :
    ¬ s'.Caches i k w := by
  have hafter : ∀ {r : JsMap String Nat} {v : Receivers}, s.registries[i]? = some r →
      Caches ⟨v.registry.tracks, s.registries.set i v.registry.registry, v.iterators⟩ i k w →
      v.registry.registry.get k = some w := by
    rintro r v hr ⟨r', hr', hg⟩
    rcases Parties.getElem?_set hr hr' with ⟨-, rfl⟩ | ⟨hne, -⟩
    · exact hg
    · exact absurd rfl hne
  cases a with
  | wrapRemoteTrack j n =>
    obtain ⟨rfl, hk, w', t, hc', ht, hne⟩ := hrem
    obtain ⟨r, v, hr, hv, rfl⟩ := onRegistry_eq_some.mp hs
    obtain ⟨r', hr', hg⟩ := hc
    obtain ⟨r'', hr'', hg'⟩ := hc'
    cases hr.symm.trans hr'
    cases hr.symm.trans hr''
    cases hg.symm.trans hg'
    obtain rfl := Option.some.inj hv
    have hw := wrapped allReturn (h.held hr).law n
    exact fun hc ↦ hw.forgets hk hg ht hne (hafter hr hc)
  | releaseRemoteTrack j k' =>
    obtain ⟨rfl, rfl⟩ := hrem
    obtain ⟨r, v, hr, hv, rfl⟩ := onRegistry_eq_some.mp hs
    obtain rfl := Option.some.inj hv
    intro hc
    have hg := hafter hr hc
    rw [get_releaseRemoteTrack] at hg
    cases hg
  | releaseAllRemoteTracks j =>
    obtain rfl := hrem
    obtain ⟨r, v, hr, hv, rfl⟩ := onRegistry_eq_some.mp hs
    obtain rfl := Option.some.inj hv
    intro hc
    have hg := hafter hr hc
    rw [get_releaseAll] at hg
    cases hg
  | _ => exact hrem.elim

/-- A release of a SID or of all caches nothing. -/
theorem caches_of_release {a : RegistriesCall} (hs : s.step sid kind a = some s')
    (ha : (∃ k, a = .releaseRemoteTrack j k) ∨ a = .releaseAllRemoteTracks j)
    (hc : s'.Caches i k w) : s.Caches i k w := by
  have hsub : ∀ {r : JsMap String Nat} {v : Receivers}, s.registries[j]? = some r →
      Shrunk (s.view r).registry v.registry →
      Caches ⟨v.registry.tracks, s.registries.set j v.registry.registry, v.iterators⟩ i k w →
      s.Caches i k w := by
    rintro r v hr hsh ⟨r', hr', hg⟩
    rcases Parties.getElem?_set hr hr' with ⟨rfl, rfl⟩ | ⟨-, hr'⟩
    · exact ⟨r, hr, hsh.sub k w hg⟩
    · exact ⟨r', hr', hg⟩
  rcases ha with ⟨k', rfl⟩ | rfl
  · obtain ⟨r, v, hr, hv, rfl⟩ := onRegistry_eq_some.mp hs
    obtain rfl := Option.some.inj hv
    exact hsub hr (shrunk_releaseRemoteTrack _ _) hc
  · obtain ⟨r, v, hr, hv, rfl⟩ := onRegistry_eq_some.mp hs
    obtain rfl := Option.some.inj hv
    exact hsub hr (shrunk_releaseAllRemoteTracks _) hc

/-- A call on one registry leaves the wrappers of another one, and their receivers. -/
theorem steady_step {a : RegistriesCall} (h : s.Inv sid kind) (hs : s.step sid kind a = some s')
    (ha : a.registry? = some i) (hc : s.Caches j k w) (hij : j ≠ i) :
    s'.tracks[w]? = s.tracks[w]? ∧ ∀ r, s'.Active w r ↔ s.Active w r := by
  obtain ⟨r, v, hr, rfl, -, hcf, -⟩ := step_registry h hs ha
  obtain ⟨t, ht, -⟩ := h.cached hc
  have hv : v.tracks[w]? = some t := hcf.steady w t ht fun k' hg ↦
    hij (h.apart j i k k' w hc ⟨r, hr, hg⟩)
  have he : v.tracks[w]? = s.tracks[w]? := by rw [hv, ht]
  refine ⟨he, fun r ↦ ?_⟩
  simp only [Active, Receivers.Active, view, media]
  rw [he]

/-- What `wrapRemoteTrack` returns for a SID is cached under it afterwards. -/
theorem caches_of_wrap (h : s.Inv sid kind) {n : NativeTrack} (hk : sid n = some k)
    (hr : s.wrapResult sid kind i n = some (.ok w))
    (hs : s.step sid kind (.wrapRemoteTrack i n) = some s') : s'.Caches i k w := by
  obtain ⟨r, hi, hres⟩ := Option.map_eq_some_iff.mp hr
  obtain ⟨r', v, hi', hv, rfl⟩ := onRegistry_eq_some.mp hs
  cases hi.symm.trans hi'
  cases hv
  exact ⟨_, Parties.getElem?_set_self hi, (wrapped allReturn (h.held hi).law n).get_of_ok hres hk⟩

/-- A SID that is cached is wrapped by the wrapper that is cached, unless that has another kind. -/
theorem wrapResult_of_caches (h : s.Inv sid kind) {n : NativeTrack} (hk : sid n = some k)
    (hc : s.Caches i k w) (hn : ¬ s.Removes sid kind i k (.wrapRemoteTrack i n)) :
    s.wrapResult sid kind i n = some (.ok w) := by
  obtain ⟨t, ht, -⟩ := h.cached hc
  have hkind : t.kind = kind n :=
    Classical.not_not.mp fun hne ↦ hn ⟨rfl, hk, w, t, hc, ht, hne⟩
  obtain ⟨r, hr, hg⟩ := hc
  have hw : ((s.view r).registry.wrapRemoteTrack sid kind allReturn n) =
      ((s.view r).registry, .ok w) := wrapRemoteTrack_of_cached hk hg ht hkind
  rw [wrapResult, hr, Option.map_some, hw]

/-- A run that does not remove what is cached under a SID leaves it cached, and every wrap of the
SID in it returns that wrapper. -/
theorem stable_run {run : List RegistriesCall} (h : s.Inv sid kind) (hc : s.Caches i k w)
    (hrun : (machine sid kind).Along (fun s a ↦ ¬ s.Removes sid kind i k a) s run) :
    (∀ s', (machine sid kind).exec s run = some s' → s'.Caches i k w) ∧
    (machine sid kind).Along (fun s a ↦ ∀ n, a = .wrapRemoteTrack i n → sid n = some k →
      s.wrapResult sid kind i n = some (.ok w)) s run := by
  have hkeep : ∀ s a t, (s.Inv sid kind ∧ s.Caches i k w) → ¬ s.Removes sid kind i k a →
      (machine sid kind).step s a = some t → t.Inv sid kind ∧ t.Caches i k w := by
    rintro s a t ⟨hi, hc⟩ hn hs
    exact ⟨inv_step hi hs, (entry_step hi hs hc).resolve_right fun hr ↦ hn hr.1⟩
  constructor
  · intro s' hr
    exact (Machine.exec_invariant_along hkeep ⟨h, hc⟩ hrun hr).2
  · apply hrun.mono hkeep ?_ ⟨h, hc⟩
    rintro s a ⟨hi, hc⟩ hn n rfl hk
    exact wrapResult_of_caches hi hk hc hn

/-- A wrap of a native track whose kind is known returns a wrapper of that kind. -/
theorem wrapResult_ok (h : s.Inv sid kind) {n : NativeTrack}
    (hkind : ∀ name, kind n ≠ .other name)
    (hs : s.step sid kind (.wrapRemoteTrack i n) = some s') : ∃ w t,
      s.wrapResult sid kind i n = some (.ok w) ∧ s'.tracks[w]? = some t ∧ t.kind = kind n := by
  obtain ⟨r, v, hr, hv, rfl⟩ := onRegistry_eq_some.mp hs
  obtain rfl := Option.some.inj hv
  obtain ⟨w, t, hres, ht, he⟩ := wrapRemoteTrack_ok (h.held hr).law n hkind
  exact ⟨w, t, by rw [wrapResult, hr, Option.map_some, hres], ht, he⟩

/-- Wrappers are stable and released with their receiver, in every run of calls on any number of
registries and their wrappers. What is cached under a SID is a wrapper of a native track with it,
and of its kind. A wrap returns a wrapper of the kind of its native track unless that is unknown;
what a wrap of a SID returns is cached under it, and as long as it is not removed, every wrap of the
SID returns it. A call leaves what is cached under a SID so exactly if it does not remove it: after
a release of a SID nothing is cached under it, after a release of all nothing at all. Where a call
ends with a wrapper no longer cached that was, also a call that throws, the wrapper is released. And
a call on one registry leaves every wrapper that another one has cached, and its receivers, as they
were. -/
theorem registries_stable (h : (machine sid kind).Reachable s) :
    (∀ i k w, s.Caches i k w →
      ∃ t, s.tracks[w]? = some t ∧ sid t.native = some k ∧ t.kind = kind t.native) ∧
    (∀ i n s', (∀ name, kind n ≠ .other name) →
      s.step sid kind (.wrapRemoteTrack i n) = some s' → ∃ w t,
        s.wrapResult sid kind i n = some (.ok w) ∧ s'.tracks[w]? = some t ∧ t.kind = kind n) ∧
    (∀ i n k w s', sid n = some k → s.wrapResult sid kind i n = some (.ok w) →
      s.step sid kind (.wrapRemoteTrack i n) = some s' → s'.Caches i k w) ∧
    (∀ i k w run, s.Caches i k w →
      (machine sid kind).Along (fun s a ↦ ¬ s.Removes sid kind i k a) s run →
      (∀ s', (machine sid kind).exec s run = some s' → s'.Caches i k w) ∧
      (machine sid kind).Along (fun s a ↦ ∀ n, a = .wrapRemoteTrack i n → sid n = some k →
        s.wrapResult sid kind i n = some (.ok w)) s run) ∧
    (∀ i k s', s.step sid kind (.releaseRemoteTrack i k) = some s' → ∀ w, ¬ s'.Caches i k w) ∧
    (∀ i s', s.step sid kind (.releaseAllRemoteTracks i) = some s' → ∀ k w, ¬ s'.Caches i k w) ∧
    ∀ a s', s.step sid kind a = some s' →
      (∀ i k w, s.Caches i k w → (s'.Caches i k w ↔ ¬ s.Removes sid kind i k a)) ∧
      (∀ i k w, s.Caches i k w → ¬ s'.Caches i k w → s'.Released w) ∧
      ∀ i j k w, a.registry? = some i → j ≠ i → s.Caches j k w →
        s'.tracks[w]? = s.tracks[w]? ∧ ∀ r, s'.Active w r ↔ s.Active w r := by
  have hi := inv_of_reachable h
  refine ⟨fun i k w hc ↦ hi.cached hc, fun i n s' hk hs ↦ wrapResult_ok hi hk hs,
    fun i n k w s' hk hr hs ↦ caches_of_wrap hi hk hr hs,
    fun i k w run hc hrun ↦ stable_run hi hc hrun, ?_, ?_, fun a s' hs ↦ ⟨?_, ?_, ?_⟩⟩
  · intro i k s' hs w hc
    exact forgotten_step hi hs ⟨rfl, rfl⟩ (caches_of_release hs (.inl ⟨k, rfl⟩) hc) hc
  · intro i s' hs k w hc
    exact forgotten_step hi hs rfl (caches_of_release hs (.inr rfl) hc) hc
  · intro i k w hc
    refine ⟨fun hc' hrem ↦ forgotten_step hi hs hrem hc hc', fun hn ↦ ?_⟩
    exact (entry_step hi hs hc).resolve_right fun hr ↦ hn hr.1
  · intro i k w hc hn
    rcases entry_step hi hs hc with hc' | ⟨-, hrel⟩
    · exact absurd hc' hn
    · exact hrel
  · exact fun i j k w ha hij hc ↦ steady_step hi hs ha hc hij

-- two Rooms with a track of one SID, which a native track of an unknown kind comes to have
private def sharedSid : NativeTrack → Option String := fun _ ↦ some "MT0"
private def kinds (n : NativeTrack) : NativeKind := if n = 0 then .video else .other "text"

/-- A wrap that throws for its kind ends the receiver of the wrapper it drops, and not that of the
other Room, which a release of its SID then forgets and ends. -/
theorem registries_stable_replaced : ∃ s s' s'' : Registries,
    (machine sharedSid kinds).Reachable s ∧ s.Active 0 0 ∧ s.Active 1 0 ∧
    s.step sharedSid kinds (.wrapRemoteTrack 0 1) = some s' ∧
    ¬ s'.Caches 0 "MT0" 0 ∧ s'.Released 0 ∧ s'.Caches 1 "MT0" 1 ∧ s'.Active 1 0 ∧
    s'.step sharedSid kinds (.releaseRemoteTrack 1 "MT0") = some s'' ∧
    (∀ w, ¬ s''.Caches 1 "MT0" w) ∧ s''.Released 1 := by
  have hr : (machine sharedSid kinds).Reachable _ :=
    ⟨[.create, .create, .wrapRemoteTrack 0 0, .wrapRemoteTrack 1 0, .frames 0 .undefined,
      .frames 1 .undefined], rfl⟩
  have hr' : (machine sharedSid kinds).Reachable _ := hr.step (a := .wrapRemoteTrack 0 1) rfl
  obtain ⟨-, -, -, -, -, -, hstep⟩ := registries_stable hr
  obtain ⟨hkept, hrel, hsteady⟩ := hstep (.wrapRemoteTrack 0 1) _ rfl
  have hgone := fun hc ↦ (hkept 0 "MT0" 0 ⟨_, rfl, rfl⟩).mp hc
    ⟨rfl, rfl, 0, _, ⟨_, rfl, rfl⟩, rfl, by decide⟩
  have hother := (hkept 1 "MT0" 1 ⟨_, rfl, rfl⟩).mpr fun hrem ↦ absurd hrem.1 (by decide)
  obtain ⟨-, -, -, -, hforgets, -, hstep'⟩ := registries_stable hr'
  have hnone := hforgets 1 "MT0" _ rfl
  obtain ⟨-, hrel', -⟩ := hstep' (.releaseRemoteTrack 1 "MT0") _ rfl
  exact ⟨_, _, _, hr, ⟨.head _, _, rfl, rfl⟩, ⟨.tail _ (.head _), _, rfl, rfl⟩, rfl, hgone,
    hrel 0 "MT0" 0 ⟨_, rfl, rfl⟩ hgone, hother,
    ((hsteady 0 1 "MT0" 1 rfl (by decide) ⟨_, rfl, rfl⟩).2 0).mpr
      ⟨.tail _ (.head _), _, rfl, rfl⟩, rfl, hnone, hrel' 1 "MT0" 1 hother (hnone 1)⟩

end Registries

end VideoNode.Tracks
