import VideoNode.Js.Map
import VideoNode.Lts.Parties
import VideoNode.Tracks.RemoteTrack

/-!
# The track registry of a Room

`TrackRegistry` of `lib/track_registry.ts`: the wrapper a native track is given is cached under
its SID. A wrapper is named by its position among the wrappers there are, and it stays one after
the registry has forgotten it.
-/

namespace VideoNode.Tracks

open VideoNode.Js VideoNode.Lts

/-- The wrappers there are, and which of them is cached under a SID. -/
structure TrackRegistry where
  tracks : List RemoteTrack
  registry : JsMap String Nat

namespace TrackRegistry

/-- `new TrackRegistry()`. -/
def empty : TrackRegistry := ⟨[], .empty⟩

/-- `_end()` of one wrapper. -/
def endTrack (calls : Nat → EndCalls) (s : TrackRegistry) (w : Nat) : TrackRegistry × NativeCall :=
  match s.tracks[w]? with
  | none => (s, .ok ())
  | some t =>
    let r := t.endTrack (calls w)
    ({ s with tracks := s.tracks.set w r.1 }, r.2)

/-- A call of the application on one wrapper. -/
def modify (s : TrackRegistry) (w : Nat) (f : RemoteTrack → RemoteTrack) : TrackRegistry :=
  { s with tracks := s.tracks.modify w f }

variable (sid : NativeTrack → Option String) (kind : NativeTrack → NativeKind)

/-- `const existing`; `lib/track_registry.ts:43–45`. -/
def existing (s : TrackRegistry) (n : NativeTrack) : Option Nat := (sid n).bind s.registry.get

/-- The new wrapper; `lib/track_registry.ts:55–71`. -/
def mint (s : TrackRegistry) (n : NativeTrack) : TrackRegistry × Except JsError Nat :=
  match RemoteTrack.create (kind n) n with
  | .error error => (s, .error error)
  | .ok t =>
    ({ tracks := s.tracks ++ [t]
       registry := match sid n with
        | none => s.registry
        | some k => s.registry.set k s.tracks.length }, .ok s.tracks.length)

/-- `delete(sid as Track.SID)`. -/
def delete (s : TrackRegistry) (k : Option String) : TrackRegistry :=
  match k with
  | none => s
  | some k => { s with registry := s.registry.delete k }

/-- `wrapRemoteTrack(native)`; `lib/track_registry.ts:40–73`. -/
def wrapRemoteTrack (calls : Nat → EndCalls) (s : TrackRegistry) (n : NativeTrack) :
    TrackRegistry × Except JsError Nat :=
  match existing sid s n with
  | none => mint sid kind s n
  | some w =>
    if s.tracks[w]?.map RemoteTrack.kind = some (kind n) then (s, .ok w) else
      match (s.delete (sid n)).endTrack calls w with
      | (s, .error error) => (s, .error error)
      | (s, .ok ()) => mint sid kind s n

/-- `releaseRemoteTrack(sid)`; `lib/track_registry.ts:88–93`. Nothing is cached under
`undefined`. -/
def releaseRemoteTrack (calls : Nat → EndCalls) (s : TrackRegistry) (k : Option String) :
    TrackRegistry × NativeCall :=
  match k.bind s.registry.get with
  | none => (s, .ok ())
  | some w => (s.delete k).endTrack calls w

/-- The loop of `releaseAllRemoteTracks()`; a wrapper that throws leaves it. -/
def endTracks (calls : Nat → EndCalls) (s : TrackRegistry) : List Nat → TrackRegistry × NativeCall
  | [] => (s, .ok ())
  | w :: ws =>
    match s.endTrack calls w with
    | (s, .error error) => (s, .error error)
    | (s, .ok ()) => endTracks calls s ws

/-- `releaseAllRemoteTracks()`; `lib/track_registry.ts:96–99`. -/
def releaseAllRemoteTracks (calls : Nat → EndCalls) (s : TrackRegistry) :
    TrackRegistry × NativeCall :=
  match s.endTracks calls (s.registry.entries.map Prod.snd) with
  | (s, .error error) => (s, .error error)
  | (s, .ok ()) => ({ s with registry := .empty }, .ok ())

/-- The native track behind the wrapper that is cached under a SID. -/
def backing (s : TrackRegistry) (k : String) : Option NativeTrack :=
  (s.registry.get k).bind fun w ↦ s.tracks[w]?.map RemoteTrack.native

/-- What is cached under a SID is a wrapper of a native track with that SID, and has its kind. -/
structure Law (s : TrackRegistry) : Prop where
  cached : ∀ k w, s.registry.get k = some w →
    ∃ t, s.tracks[w]? = some t ∧ sid t.native = some k ∧ t.kind = kind t.native

/-- Wrappers stay where they are. -/
structure Kept (s s' : TrackRegistry) : Prop where
  same : ∀ (w : Nat) (t : RemoteTrack), s.tracks[w]? = some t →
    ∃ t', s'.tracks[w]? = some t' ∧ RemoteTrack.Same t t'

/-- Wrappers stay where they are, and at most those that were cached are. -/
structure Shrunk (s s' : TrackRegistry) : Prop extends Kept s s' where
  sub : ∀ k w, s'.registry.get k = some w → s.registry.get k = some w

/-- A wrapper would have to be made: none of the right kind is cached. -/
def Mints (s : TrackRegistry) (n : NativeTrack) : Prop :=
  ∀ w, existing sid s n = some w → s.tracks[w]?.map RemoteTrack.kind ≠ some (kind n)

instance (s : TrackRegistry) (n : NativeTrack) : Decidable (Mints sid kind s n) :=
  match h : existing sid s n with
  | none => isTrue fun w hw ↦ by rw [h] at hw; cases hw
  | some w => decidable_of_iff (s.tracks[w]?.map RemoteTrack.kind ≠ some (kind n))
    ⟨fun hk w' hw ↦ by rw [h] at hw; cases hw; exact hk, fun hm ↦ hm w h⟩

/-- A wrap of a native track takes away what is cached under a SID: it has the SID, and another
kind. -/
def Replaces (s : TrackRegistry) (k : String) (n : NativeTrack) : Prop :=
  sid n = some k ∧
    ∃ w t, s.registry.get k = some w ∧ s.tracks[w]? = some t ∧ t.kind ≠ kind n

/-- What `wrapRemoteTrack` leaves before it makes a wrapper. -/
inductive Cleared (calls : Nat → EndCalls) (s : TrackRegistry) (n : NativeTrack) :
    TrackRegistry → Prop where
  | absent (he : existing sid s n = none) : Cleared calls s n s
  | ended {k : String} {w : Nat} {t : RemoteTrack} (hk : sid n = some k)
      (hw : s.registry.get k = some w) (ht : s.tracks[w]? = some t) (hne : t.kind ≠ kind n) :
      Cleared calls s n
        ⟨s.tracks.set w (t.endTrack (calls w)).1, s.registry.delete k⟩

/-- The outcomes of `wrapRemoteTrack`. -/
inductive Wrapped (calls : Nat → EndCalls) (s : TrackRegistry) (n : NativeTrack) :
    TrackRegistry × Except JsError Nat → Prop where
  | found {k : String} {w : Nat} {t : RemoteTrack} (hk : sid n = some k)
      (hw : s.registry.get k = some w) (ht : s.tracks[w]? = some t) (he : t.kind = kind n) :
      Wrapped calls s n (s, .ok w)
  | made {s₀ : TrackRegistry} {t : RemoteTrack} (hc : Cleared sid kind calls s n s₀)
      (ht : RemoteTrack.create (kind n) n = .ok t) :
      Wrapped calls s n (⟨s₀.tracks ++ [t], match sid n with
        | none => s₀.registry
        | some k => s₀.registry.set k s₀.tracks.length⟩, .ok s₀.tracks.length)
  | failed {s₀ : TrackRegistry} {error : JsError} (hc : Cleared sid kind calls s n s₀) :
      Wrapped calls s n (s₀, .error error)

variable {sid kind} {calls : Nat → EndCalls} {s s' : TrackRegistry} {n : NativeTrack}

private theorem minted {s₀ : TrackRegistry} (hc : Cleared sid kind calls s n s₀) :
    Wrapped sid kind calls s n (mint sid kind s₀ n) := by
  cases ht : RemoteTrack.create (kind n) n with
  | error e => simpa only [mint, ht] using Wrapped.failed hc
  | ok t => simpa only [mint, ht] using Wrapped.made hc ht

/-- Inversion of `wrapRemoteTrack`. -/
theorem wrapped (calls : Nat → EndCalls) (hl : Law sid kind s) (n : NativeTrack) :
    Wrapped sid kind calls s n (wrapRemoteTrack sid kind calls s n) := by
  unfold wrapRemoteTrack
  split
  · next he => exact minted (.absent he)
  · next w he =>
    obtain ⟨k, hk, hw⟩ := Option.bind_eq_some_iff.mp he
    obtain ⟨t, ht, -, -⟩ := hl.cached k w hw
    simp only [ht, Option.map_some, Option.some.injEq]
    split
    · next hkind => exact .found hk hw ht hkind
    · next hne =>
      have hc : Cleared sid kind calls s n _ := .ended hk hw ht hne
      simp only [endTrack, delete, hk, ht]
      split
      · next he =>
        obtain ⟨rfl, -⟩ := Prod.mk.inj he
        exact .failed hc
      · next he =>
        obtain ⟨rfl, -⟩ := Prod.mk.inj he
        exact minted hc

/-- What the native track behind a cached wrapper is. -/
theorem backing_eq_some {k : String} : s.backing k = some n ↔
    ∃ w t, s.registry.get k = some w ∧ s.tracks[w]? = some t ∧ t.native = n := by
  simp only [backing, Option.bind_eq_some_iff, Option.map_eq_some_iff]
  constructor
  · rintro ⟨w, hw, t, ht, hn⟩
    exact ⟨w, t, hw, ht, hn⟩
  · rintro ⟨w, t, hw, ht, hn⟩
    exact ⟨w, hw, t, ht, hn⟩

/-- A cached wrapper stands for a native track with the SID. -/
theorem Law.sid_of_backing (hl : Law sid kind s) {k : String} (hb : s.backing k = some n) :
    sid n = some k := by
  obtain ⟨w, t, hw, ht, rfl⟩ := backing_eq_some.mp hb
  obtain ⟨t', ht', hs, -⟩ := hl.cached k w hw
  cases ht.symm.trans ht'
  exact hs

/-- Nothing happened. -/
theorem Kept.refl (s : TrackRegistry) : Kept s s := ⟨fun _ t ht ↦ ⟨t, ht, .refl t⟩⟩

/-- One thing after the other. -/
theorem Kept.trans {s'' : TrackRegistry} (h : Kept s s') (h' : Kept s' s'') : Kept s s'' := by
  refine ⟨fun w t ht ↦ ?_⟩
  obtain ⟨t', ht', hs⟩ := h.same w t ht
  obtain ⟨t'', ht'', hs'⟩ := h'.same w t' ht'
  exact ⟨t'', ht'', hs'.native.trans hs.native, hs'.kind.trans hs.kind⟩

/-- Nothing was forgotten. -/
theorem Shrunk.refl (s : TrackRegistry) : Shrunk s s := ⟨.refl s, fun _ _ h ↦ h⟩

/-- Forgetting some, then some more. -/
theorem Shrunk.trans {s'' : TrackRegistry} (h : Shrunk s s') (h' : Shrunk s' s'') :
    Shrunk s s'' :=
  ⟨h.toKept.trans h'.toKept, fun k w hw ↦ h.sub k w (h'.sub k w hw)⟩

/-- What is left is cached as before. -/
theorem Shrunk.law (h : Shrunk s s') (hl : Law sid kind s) : Law sid kind s' := by
  refine ⟨fun k w hw ↦ ?_⟩
  obtain ⟨t, ht, hsid, hkind⟩ := hl.cached k w (h.sub k w hw)
  obtain ⟨t', ht', hs⟩ := h.same w t ht
  exact ⟨t', ht', by rw [hs.native, hsid], by rw [hs.kind, hs.native, hkind]⟩

/-- What is left has the same native tracks behind it. -/
theorem Shrunk.backing (h : Shrunk s s') (hl : Law sid kind s) {k : String}
    (hb : s'.backing k = some n) : s.backing k = some n := by
  obtain ⟨w, t', hw, ht', rfl⟩ := backing_eq_some.mp hb
  obtain ⟨t, ht, -, -⟩ := hl.cached k w (h.sub k w hw)
  obtain ⟨u, hu, hs⟩ := h.same w t ht
  cases ht'.symm.trans hu
  exact backing_eq_some.mpr ⟨w, t, h.sub k w hw, ht, hs.native.symm⟩

private theorem shrunk_delete (s : TrackRegistry) (k : Option String) : Shrunk s (s.delete k) := by
  cases k with
  | none => exact .refl s
  | some k =>
    refine ⟨⟨fun w t ht ↦ ⟨t, ht, .refl t⟩⟩, fun k' w hw ↦ ?_⟩
    rw [delete, JsMap.get_delete] at hw
    split at hw
    · cases hw
    · exact hw

private theorem shrunk_set {w : Nat} {t t' : RemoteTrack} (ht : s.tracks[w]? = some t)
    (hs : RemoteTrack.Same t t') : Shrunk s { s with tracks := s.tracks.set w t' } := by
  refine ⟨⟨fun v u hu ↦ ?_⟩, fun _ _ h ↦ h⟩
  rcases Parties.getElem?_after_set ht hu with ⟨rfl, rfl, hb⟩ | ⟨-, hb⟩
  · exact ⟨t', hb t', hs⟩
  · exact ⟨u, hb t', .refl u⟩

/-- Whatever a call does to one wrapper, all wrappers stay and stay cached. -/
theorem shrunk_modify (s : TrackRegistry) (w : Nat) {f : RemoteTrack → RemoteTrack}
    (hf : ∀ t, RemoteTrack.Same t (f t)) : Shrunk s (s.modify w f) := by
  cases ht : s.tracks[w]? with
  | none =>
    rw [modify, List.modify_eq_self (List.getElem?_eq_none_iff.mp ht)]
    exact .refl s
  | some t =>
    rw [modify, Parties.modify_eq_set_of ht]
    exact shrunk_set ht (hf t)

/-- Ending a wrapper forgets nothing. -/
theorem shrunk_endTrack (calls : Nat → EndCalls) (s : TrackRegistry) (w : Nat) :
    Shrunk s (s.endTrack calls w).1 := by
  unfold endTrack
  split
  · exact .refl s
  · next t ht => exact shrunk_set ht RemoteTrack.same_endTrack

/-- Releasing a SID forgets at most that. -/
theorem shrunk_releaseRemoteTrack (s : TrackRegistry) (k : Option String) :
    Shrunk s (s.releaseRemoteTrack calls k).1 := by
  unfold releaseRemoteTrack
  split
  · exact .refl s
  · exact (shrunk_delete s k).trans (shrunk_endTrack calls _ _)

/-- Releasing all forgets all, or nothing where a wrapper throws. -/
theorem shrunk_releaseAllRemoteTracks (s : TrackRegistry) :
    Shrunk s (s.releaseAllRemoteTracks calls).1 := by
  have hl : ∀ (ws : List Nat) (s : TrackRegistry), Shrunk s (s.endTracks calls ws).1 := by
    intro ws
    induction ws with
    | nil => exact fun s ↦ .refl s
    | cons w ws ih =>
      intro s
      unfold endTracks
      have hw := shrunk_endTrack calls s w
      split
      · next he => rwa [he] at hw
      · next s' he =>
        rw [he] at hw
        exact hw.trans (ih s')
  unfold releaseAllRemoteTracks
  have ha := hl (s.registry.entries.map Prod.snd) s
  split
  · next he => rwa [he] at ha
  · next he =>
    rw [he] at ha
    exact ⟨⟨ha.same⟩, fun k w hw ↦ by simp at hw⟩

/-- Ending a wrapper changes nothing that is cached. -/
theorem registry_endTrack (calls : Nat → EndCalls) (s : TrackRegistry) (w : Nat) :
    (s.endTrack calls w).1.registry = s.registry := by
  unfold endTrack
  split <;> rfl

/-- A release of one SID leaves what is cached under another. -/
theorem get_releaseRemoteTrack_of_ne (s : TrackRegistry) {k k' : String} (hne : k ≠ k') :
    (s.releaseRemoteTrack calls (some k')).1.registry.get k = s.registry.get k := by
  simp only [releaseRemoteTrack, Option.bind_some]
  split
  · rfl
  · rw [registry_endTrack, delete, JsMap.get_delete, if_neg hne]

/-- Nothing is cached under a SID that was released. -/
theorem get_releaseRemoteTrack (s : TrackRegistry) (k : String) :
    (s.releaseRemoteTrack calls (some k)).1.registry.get k = none := by
  simp only [releaseRemoteTrack, Option.bind_some]
  split
  · next hw => exact hw
  · next w hw =>
    -- Deleted, and ending the wrapper caches nothing.
    cases hg : ((s.delete (some k)).endTrack calls w).1.registry.get k with
    | none => rfl
    | some v =>
      have hv := (shrunk_endTrack calls (s.delete (some k)) w).sub k v hg
      simp [delete, JsMap.get_delete] at hv

/-- A SID that was released is not cached. -/
theorem backing_releaseRemoteTrack (s : TrackRegistry) (k : String) :
    (s.releaseRemoteTrack calls (some k)).1.backing k = none := by
  simp [TrackRegistry.backing, get_releaseRemoteTrack s k]

/-- Releasing a SID touches the wrapper that was cached under it only. -/
theorem steady_releaseRemoteTrack {k : Option String} {w : Nat} {t : RemoteTrack}
    (ht : s.tracks[w]? = some t)
    (hne : ∀ k', k = some k' → s.registry.get k' ≠ some w) :
    (s.releaseRemoteTrack calls k).1.tracks[w]? = some t := by
  unfold releaseRemoteTrack
  split
  · exact ht
  · next v hv =>
    obtain ⟨k', rfl, hv⟩ := Option.bind_eq_some_iff.mp hv
    have hwv : w ≠ v := by
      rintro rfl
      exact hne k' rfl hv
    unfold endTrack
    split
    · exact ht
    · next u hu =>
      simp only [delete]
      rw [List.getElem?_set_ne (Ne.symm hwv)]
      exact ht

/-- What a wrap clears, it forgets. -/
theorem shrunk_cleared {s₀ : TrackRegistry} (h : Cleared sid kind calls s n s₀) :
    Shrunk s s₀ := by
  cases h with
  | absent he => exact .refl s
  | @ended k w t hk hw ht hne =>
    exact (shrunk_set ht RemoteTrack.same_endTrack).trans (shrunk_delete _ (some k))

private theorem mints_of_cleared {s₀ : TrackRegistry} (h : Cleared sid kind calls s n s₀) :
    Mints sid kind s n := by
  intro w hw
  cases h with
  | absent he =>
    rw [he] at hw
    cases hw
  | @ended k v t hk hv ht hne =>
    rw [existing, hk, Option.bind_some, hv] at hw
    cases hw
    simpa [ht] using hne

/-- A new wrapper leaves the others where they are. -/
theorem get_concat {t : RemoteTrack} {w : Nat} {u : RemoteTrack}
    (h : s.tracks[w]? = some u) : (s.tracks ++ [t])[w]? = some u := by
  rw [List.getElem?_append_left (List.getElem?_eq_some_iff.mp h).1]
  exact h

/-- Wrapping a native track leaves the wrappers there are. -/
theorem Wrapped.kept {r : TrackRegistry × Except JsError Nat}
    (h : Wrapped sid kind calls s n r) : Kept s r.1 := by
  cases h with
  | found hk hw ht he => exact .refl s
  | made hc ht =>
    exact (shrunk_cleared hc).toKept.trans ⟨fun w u hu ↦ ⟨u, get_concat hu, .refl u⟩⟩
  | failed hc => exact (shrunk_cleared hc).toKept

private theorem law_made {s₀ : TrackRegistry} {t : RemoteTrack} (hl : Law sid kind s₀)
    (ht : RemoteTrack.create (kind n) n = .ok t) :
    Law sid kind ⟨s₀.tracks ++ [t], match sid n with
      | none => s₀.registry
      | some k => s₀.registry.set k s₀.tracks.length⟩ := by
  obtain ⟨hn, hkind⟩ := RemoteTrack.create_ok ht
  refine ⟨fun k w hw ↦ ?_⟩
  -- What was cached before is cached as it was.
  have hold : s₀.registry.get k = some w → ∃ u, (s₀.tracks ++ [t])[w]? = some u ∧
      sid u.native = some k ∧ u.kind = kind u.native := by
    intro hw
    obtain ⟨u, hu, hs, hk⟩ := hl.cached k w hw
    exact ⟨u, get_concat hu, hs, hk⟩
  cases hsid : sid n with
  | none =>
    rw [hsid] at hw
    exact hold hw
  | some k' =>
    simp only [hsid, JsMap.get_set] at hw
    split at hw
    · next he =>
      cases hw
      exact ⟨t, by simp, by rw [hn, hsid, he], by rw [hkind, hn]⟩
    · exact hold hw

/-- Wrapping a native track keeps the law. -/
theorem Wrapped.law {r : TrackRegistry × Except JsError Nat} (h : Wrapped sid kind calls s n r)
    (hl : Law sid kind s) : Law sid kind r.1 := by
  cases h with
  | found hk hw ht he => exact hl
  | made hc ht => exact law_made ((shrunk_cleared hc).law hl) ht
  | failed hc => exact (shrunk_cleared hc).law hl

/-- After a native track was wrapped, what is cached was cached before, or is its new wrapper. -/
theorem Wrapped.backing {r : TrackRegistry × Except JsError Nat}
    (h : Wrapped sid kind calls s n r) (hl : Law sid kind s) {k : String} {m : NativeTrack}
    (hb : r.1.backing k = some m) :
    s.backing k = some m ∨ (sid n = some k ∧ m = n ∧ Mints sid kind s n) := by
  cases h with
  | found hk hw ht he => exact .inl hb
  | @made s₀ t hc ht =>
    obtain ⟨w, u, hw, hu, rfl⟩ := backing_eq_some.mp hb
    have hl₀ := (shrunk_cleared hc).law hl
    have hold : s₀.registry.get k = some w → s.backing k = some u.native := by
      intro hw
      obtain ⟨v, hv, -, -⟩ := hl₀.cached k w hw
      cases hu.symm.trans (get_concat hv)
      exact (shrunk_cleared hc).backing hl (backing_eq_some.mpr ⟨w, u, hw, hv, rfl⟩)
    cases hsid : sid n with
    | none =>
      rw [hsid] at hw
      exact .inl (hold hw)
    | some k' =>
      simp only [hsid, JsMap.get_set] at hw
      split at hw
      · next he =>
        cases hw
        have hut : t = u := by simpa using hu
        exact .inr ⟨by rw [he], hut ▸ (RemoteTrack.create_ok ht).1, mints_of_cleared hc⟩
      · exact .inl (hold hw)
  | failed hc => exact .inl ((shrunk_cleared hc).backing hl hb)

/-- A native track whose SID is not cached for another one gets a wrapper of its own. -/
theorem Wrapped.native_of_ok {r : TrackRegistry × Except JsError Nat}
    (h : Wrapped sid kind calls s n r) {w : Nat} (hr : r.2 = .ok w)
    (hb : ∀ k m, sid n = some k → s.backing k = some m → m = n) :
    ∃ t, r.1.tracks[w]? = some t ∧ t.native = n := by
  cases h with
  | found hk hw ht he =>
    cases hr
    exact ⟨_, ht, hb _ _ hk (backing_eq_some.mpr ⟨_, _, hw, ht, rfl⟩)⟩
  | @made s₀ t hc ht =>
    cases hr
    exact ⟨t, by simp, (RemoteTrack.create_ok ht).1⟩
  | failed hc => cases hr

/-- Wrapping a native track whose SID is not cached for another one ends no wrapper. -/
theorem Wrapped.steady {r : TrackRegistry × Except JsError Nat}
    (h : Wrapped sid kind calls s n r) (hl : Law sid kind s)
    (hb : ∀ k m, sid n = some k → s.backing k = some m → m = n) {w : Nat} {t : RemoteTrack}
    (ht : s.tracks[w]? = some t) : r.1.tracks[w]? = some t := by
  have hcl : ∀ {s₀}, Cleared sid kind calls s n s₀ → s₀.tracks[w]? = some t := by
    intro s₀ hc
    cases hc with
    | absent he => exact ht
    | @ended k v u hk hv hu hne =>
      -- The cached wrapper is of the native track itself, so of its kind.
      obtain ⟨u', hu', -, hkind⟩ := hl.cached k v hv
      cases hu.symm.trans hu'
      have hn := hb k u.native hk (backing_eq_some.mpr ⟨v, u, hv, hu, rfl⟩)
      rw [hn] at hkind
      exact absurd hkind hne
  cases h with
  | found hk hw hu he => exact ht
  | made hc hu => exact get_concat (hcl hc)
  | failed hc => exact hcl hc

/-- Where wrapping fails, nothing is cached under the SID afterwards. -/
theorem Wrapped.get_of_error {r : TrackRegistry × Except JsError Nat}
    (h : Wrapped sid kind calls s n r) {error : JsError} (hr : r.2 = .error error) {k : String}
    (hk : sid n = some k) : r.1.registry.get k = none := by
  cases h with
  | found => cases hr
  | made => cases hr
  | failed hc =>
    cases hc with
    | absent he =>
      rw [existing, hk, Option.bind_some] at he
      exact he
    | @ended k' w t hk' hw ht hne =>
      cases hk.symm.trans hk'
      simp [JsMap.get_delete]

/-- Where wrapping fails, no native track is cached under the SID afterwards. -/
theorem Wrapped.backing_of_error {r : TrackRegistry × Except JsError Nat}
    (h : Wrapped sid kind calls s n r) {error : JsError} (hr : r.2 = .error error) {k : String}
    (hk : sid n = some k) : r.1.backing k = none := by
  simp [TrackRegistry.backing, h.get_of_error hr hk]

/-- The wrapper that is handed out is cached. -/
theorem Wrapped.get_of_ok {r : TrackRegistry × Except JsError Nat}
    (h : Wrapped sid kind calls s n r) {w : Nat} (hr : r.2 = .ok w) {k : String}
    (hk : sid n = some k) : r.1.registry.get k = some w := by
  cases h with
  | found hk' hw ht he =>
    cases hr
    cases hk.symm.trans hk'
    exact hw
  | made hc ht =>
    cases hr
    simp [hk, JsMap.get_set]
  | failed hc => cases hr

/-- What is cached stays cached through a wrap that does not take it away. -/
theorem Wrapped.get_of_cached {r : TrackRegistry × Except JsError Nat}
    (h : Wrapped sid kind calls s n r) {k : String} {w : Nat} (hg : s.registry.get k = some w)
    (hn : ¬ Replaces sid kind s k n) : r.1.registry.get k = some w := by
  have hcl : ∀ {s₀}, Cleared sid kind calls s n s₀ →
      s₀.registry.get k = some w ∧ sid n ≠ some k := by
    intro s₀ hc
    cases hc with
    | absent he =>
      refine ⟨hg, fun hk ↦ ?_⟩
      rw [existing, hk, Option.bind_some, hg] at he
      cases he
    | @ended k' v u hk hv hu hne =>
      have hkk : k ≠ k' := by
        rintro rfl
        exact hn ⟨hk, v, u, hv, hu, hne⟩
      refine ⟨?_, fun hs ↦ hkk ?_⟩
      · rw [JsMap.get_delete, if_neg hkk]
        exact hg
      · rw [hk] at hs
        exact (Option.some.inj hs).symm
  cases h with
  | found => exact hg
  | @made s₀ t hc ht =>
    obtain ⟨hg₀, hne⟩ := hcl hc
    cases hsid : sid n with
    | none => exact hg₀
    | some k' =>
      have hkk : k ≠ k' := by
        rintro rfl
        exact hne hsid
      simp only [JsMap.get_set, if_neg hkk]
      exact hg₀
  | failed hc => exact (hcl hc).1

end TrackRegistry

end VideoNode.Tracks
