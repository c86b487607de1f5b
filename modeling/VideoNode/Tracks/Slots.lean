import VideoNode.Tracks.Registry

/-!
# The receiver slot of a track

Which stream is in the slot of a media track, and what each operation of a track and of the
registry does to the slots, with every native call returning or throwing. The first call the end of
a stream makes is `_sinkStats`, before the slot is cleared.
-/

namespace VideoNode.Tracks

open VideoNode.Js VideoNode.Frames VideoNode.Lts

/-- How `end()` of a stream goes; `lib/frame_stream.ts:179–200` and
`lib/remote_track.ts:126–139`. -/
inductive MediaTrack.EndedStream (t : MediaTrack) (r : Nat) (calls : EndCalls) :
    MediaTrack × NativeCall → Prop where
  | idle (h : t.ended[r]? ≠ some false) : EndedStream t r calls (t, .ok ())
  | stuck {error : JsError} (h : t.ended[r]? = some false)
      (hs : calls.sinkStats = .error error) :
      EndedStream t r calls ({ t with ended := t.ended.set r true }, .error error)
  | freed {sink : Option Nat} (h : t.ended[r]? = some false) (hs : calls.sinkStats = .ok ()) :
      EndedStream t r calls
        ({ t with stream := none, ended := t.ended.set r true, sink := sink }, .ok ())

/-- How `frames()` goes; `lib/remote_track.ts:112–165`. -/
inductive MediaTrack.Opened (t : MediaTrack) : MediaTrack × Except JsError Nat → Prop where
  | refused {error : JsError} (h : t.stream.isSome = true) : Opened t (t, .error error)
  | rejected {error : JsError} (h : t.stream = none) : Opened t (t, .error error)
  | attached (h : t.stream = none) :
      Opened t ({ t with
        ended := t.ended ++ [false]
        stream := some t.ended.length
        sink := some t.ended.length }, .ok t.ended.length)
  | failed {error : JsError} (h : t.stream = none) :
      Opened t ({ t with ended := t.ended ++ [false] }, .error error)

namespace MediaTrack

variable {t : MediaTrack} {r : Nat} {calls : EndCalls}

/-- Inversion of `end()` of a stream. -/
theorem endedStream (t : MediaTrack) (r : Nat) (calls : EndCalls) :
    EndedStream t r calls (t.endStream r calls) := by
  unfold endStream
  split
  · next h =>
    unfold onEnd
    cases hs : calls.sinkStats with
    | error error => exact .stuck h hs
    | ok u =>
      simp only
      split
      · exact .freed h hs
      · exact .freed h hs
  · next h => exact .idle h

/-- Inversion of `frames()`. -/
theorem opened (kind : TrackKind) (sid : Option String) (t : MediaTrack) (options : JsValue)
    (attachFrameSink : NativeCall) : Opened t (t.frames kind sid options attachFrameSink) := by
  unfold frames
  split
  · next h => exact .refused h
  · next h =>
    have h : t.stream = none := by simpa using h
    split
    · exact .rejected h
    · split
      · exact .attached h
      · exact .failed h

/-- The current receiver has not ended. -/
def Free (t : MediaTrack) : Prop := ∀ r, t.stream = some r → t.ended[r]? = some false

/-- How the slot of a track and the iterators that were handed out belong together: the slot holds
one of them, and an iterator that has not ended is in the slot. -/
structure Held (given : Nat → Prop) (t : MediaTrack) : Prop where
  slot : ∀ r, t.stream = some r → given r
  made : ∀ r, given r → r < t.ended.length
  current : ∀ r, given r → t.ended[r]? = some false → t.stream = some r

variable {given : Nat → Prop}

private theorem of_set {rs : List Bool} {i : Nat} (h : (rs.set r true)[i]? = some false) :
    i ≠ r ∧ rs[i]? = some false := by
  by_cases hir : r = i
  · subst hir
    rw [List.getElem?_set] at h
    simp at h
  · rw [List.getElem?_set_ne hir] at h
    exact ⟨Ne.symm hir, h⟩

/-- Ending a stream that was handed out keeps slot and iterators together. -/
theorem Held.endStream {res : MediaTrack × NativeCall} (h : t.Held given) (hr : given r)
    (he : t.EndedStream r calls res) : res.1.Held given := by
  cases he with
  | idle hn => exact h
  | stuck hf hs =>
    refine ⟨h.slot, fun i hi ↦ ?_, fun i hi he ↦ ?_⟩
    · simpa using h.made i hi
    · exact h.current i hi (of_set he).2
  | freed hf hs =>
    refine ⟨nofun, fun i hi ↦ ?_, fun i hi he ↦ ?_⟩
    · simpa using h.made i hi
    · -- Only the stream that ended was in the slot.
      obtain ⟨hne, he⟩ := of_set he
      have hcur := h.current i hi he
      rw [h.current r hr hf] at hcur
      cases hcur
      exact absurd rfl hne

/-- Ending a stream leaves the slot free or held by a stream that has not ended, unless it was
the current one and `_sinkStats` threw. -/
theorem free_endStream {res : MediaTrack × NativeCall} (h : t.Held given) (hf : t.Free)
    (hr : given r) (he : t.EndedStream r calls res) :
    res.1.Free ↔ (t.stream = some r → calls.sinkStats = .ok ()) := by
  cases he with
  | idle hn =>
    refine ⟨fun _ hs ↦ absurd (hf r hs) hn, fun _ ↦ hf⟩
  | @stuck error hn hs =>
    have hcur := h.current r hr hn
    have hlt := h.made r hr
    constructor
    · intro hfree _
      have hset := hfree r hcur
      rw [List.getElem?_set_self hlt] at hset
      cases hset
    · intro hok
      rw [hok hcur] at hs
      cases hs
  | freed hn hs =>
    refine ⟨fun _ _ ↦ hs, fun _ i hi ↦ ?_⟩
    cases hi

/-- `frames()` keeps slot and iterators together, with the iterator it hands out. -/
theorem Held.frames {res : MediaTrack × Except JsError Nat} (h : t.Held given)
    (ho : t.Opened res) : res.1.Held fun r ↦ given r ∨ res.2.toOption = some r := by
  cases ho with
  | refused hs =>
    refine ⟨fun i hi ↦ .inl (h.slot i hi), fun i hi ↦ ?_, fun i hi ↦ ?_⟩
    · exact h.made i (hi.resolve_right nofun)
    · exact h.current i (hi.resolve_right nofun)
  | rejected hs =>
    refine ⟨fun i hi ↦ .inl (h.slot i hi), fun i hi ↦ ?_, fun i hi ↦ ?_⟩
    · exact h.made i (hi.resolve_right nofun)
    · exact h.current i (hi.resolve_right nofun)
  | attached hs =>
    refine ⟨fun i hi ↦ .inr hi, fun i hi ↦ ?_, fun i hi he ↦ ?_⟩
    · rw [List.length_append, List.length_singleton]
      rcases hi with hi | hi
      · exact Nat.lt_succ_of_lt (h.made i hi)
      · cases hi
        exact Nat.lt_succ_self _
    · rcases hi with hi | hi
      · -- Nothing that was handed out before is still going on.
        rw [List.getElem?_append_left (h.made i hi)] at he
        have hcur := h.current i hi he
        rw [hs] at hcur
        cases hcur
      · exact hi
  | failed hs =>
    refine ⟨fun i hi ↦ .inl (h.slot i hi), fun i hi ↦ ?_, fun i hi he ↦ ?_⟩
    · rw [List.length_append]
      exact Nat.lt_add_right _ (h.made i (hi.resolve_right nofun))
    · have hi := hi.resolve_right nofun
      rw [List.getElem?_append_left (h.made i hi)] at he
      exact h.current i hi he

/-- `frames()` leaves the slot free or held by a stream that has not ended. -/
theorem free_frames {res : MediaTrack × Except JsError Nat} (hf : t.Free) (ho : t.Opened res) :
    res.1.Free := by
  cases ho with
  | refused hs => exact hf
  | rejected hs => exact hf
  | attached hs =>
    intro i hi
    cases hi
    simp
  | failed hs =>
    intro i hi
    have hi : t.stream = some i := hi
    rw [hs] at hi
    cases hi

/-- `_end()` ends what is in the slot, if anything is. -/
theorem Held.endTrack (h : t.Held given) : (t.endTrack calls).1.Held given := by
  unfold MediaTrack.endTrack
  split
  · exact h
  · next r hr => exact h.endStream (h.slot r hr) (endedStream t r calls)

/-- `_end()` leaves the slot free or held by a stream that has not ended, unless it ended a stream
and `_sinkStats` threw. -/
theorem free_endTrack (h : t.Held given) (hf : t.Free) :
    (t.endTrack calls).1.Free ↔ (t.stream.isSome = true → calls.sinkStats = .ok ()) := by
  unfold MediaTrack.endTrack
  split
  · next hn => simp [hn, hf]
  · next r hr =>
    rw [free_endStream h hf (h.slot r hr) (endedStream t r calls), hr]
    simp

/-- Ending a stream puts nothing into the slot. -/
theorem stream_endStream {i : Nat} (h : (t.endStream r calls).1.stream = some i) :
    t.stream = some i := by
  have he := endedStream t r calls
  generalize t.endStream r calls = res at h he
  cases he with
  | idle hn => exact h
  | stuck hn hs => exact h
  | freed hn hs => cases h

/-- `_end()` puts nothing into the slot. -/
theorem stream_endTrack {i : Nat} (h : (t.endTrack calls).1.stream = some i) :
    t.stream = some i := by
  unfold MediaTrack.endTrack at h
  split at h
  · exact h
  · exact stream_endStream h

/-- `_end()` throws exactly where it ends a stream and `_sinkStats` throws, and frees the slot
where it does not. -/
theorem endTrack_ok_iff (hf : t.Free) : (t.endTrack calls).2 = .ok () ↔
    (t.stream.isSome = true → calls.sinkStats = .ok ()) := by
  unfold MediaTrack.endTrack
  split
  · next hn => simp [hn]
  · next r hr =>
    have he := endedStream t r calls
    generalize t.endStream r calls = res at he
    cases he with
    | idle hn => exact absurd (hf r hr) hn
    | stuck hn hs => simp [hr, hs]
    | freed hn hs => simp [hs]

/-- Where `_end()` does not throw, the slot is free. -/
theorem endTrack_frees (hf : t.Free) (he : (t.endTrack calls).2 = .ok ()) :
    (t.endTrack calls).1.stream = none := by
  unfold MediaTrack.endTrack at he ⊢
  split
  · next hn => exact hn
  · next r hr =>
    simp only [hr] at he
    have hst := endedStream t r calls
    generalize t.endStream r calls = res at he hst
    cases hst with
    | idle hn => exact absurd (hf r hr) hn
    | stuck hn hs => cases he
    | freed hn hs => rfl

end MediaTrack

namespace RemoteTrack

/-- The track as one with frames. -/
def media? : RemoteTrack → Option MediaTrack
  | .video t | .audio t => some t
  | .data _ => none

/-- The iterator `frames(options)` returns. -/
def iterator? (sid : Option String) (t : RemoteTrack) (options : JsValue)
    (attachFrameSink : NativeCall) : Option Nat :=
  match t with
  | .video t => (t.frames .video sid options attachFrameSink).2.toOption
  | .audio t => (t.frames .audio sid options attachFrameSink).2.toOption
  | .data _ => none

/-- What `_end()` does to a track with frames. -/
theorem media_endTrack (t : RemoteTrack) (calls : EndCalls) :
    (t.endTrack calls).1.media? = t.media?.map fun m ↦ (m.endTrack calls).1 := by
  cases t <;> rfl

/-- A track without frames ends without throwing. -/
theorem endTrack_result (t : RemoteTrack) (calls : EndCalls) :
    (t.endTrack calls).2 = ((t.media?.map fun m ↦ (m.endTrack calls).2).getD (.ok ())) := by
  cases t <;> rfl

/-- What `return()` of an iterator does to a track with frames. -/
theorem media_returnIterator (t : RemoteTrack) (r : Nat) (calls : EndCalls) :
    (t.returnIterator r calls).media? = t.media?.map fun m ↦ (m.endStream r calls).1 := by
  cases t <;> rfl

/-- Adding a `message` listener does nothing to a track with frames. -/
theorem media_listen (t : RemoteTrack) (onMessage : NativeCall) :
    (t.listen onMessage).media? = t.media? := by
  cases t <;> rfl

/-- What `frames()` does to a track with frames. -/
theorem media_frames (sid : Option String) (t : RemoteTrack) (options : JsValue)
    (attachFrameSink : NativeCall) {m : MediaTrack} (hm : t.media? = some m) :
    ∃ res, m.Opened res ∧ (t.frames sid options attachFrameSink).media? = some res.1 ∧
      t.iterator? sid options attachFrameSink = res.2.toOption := by
  cases t with
  | video t =>
    cases hm
    exact ⟨_, MediaTrack.opened .video sid m options attachFrameSink, rfl, rfl⟩
  | audio t =>
    cases hm
    exact ⟨_, MediaTrack.opened .audio sid m options attachFrameSink, rfl, rfl⟩
  | data t => cases hm

/-- A new track has nothing in its slot. -/
theorem media_create {kind : NativeKind} {n : NativeTrack} {t : RemoteTrack} {m : MediaTrack}
    (h : create kind n = .ok t) (hm : t.media? = some m) : m = .create n := by
  cases kind <;> cases h <;> cases hm <;> rfl

/-- A track that receives nothing still receives nothing after `_end()`. -/
theorem receiving_endTrack {t : RemoteTrack} {calls : EndCalls} (h : t.receiving = false) :
    (t.endTrack calls).1.receiving = false := by
  have hm : ∀ m : MediaTrack, m.stream.isSome = false →
      (m.endTrack calls).1.stream.isSome = false := by
    intro m hs
    have hs : m.stream = none := by simpa using hs
    unfold MediaTrack.endTrack
    rw [hs]
    simp [hs]
  cases t with
  | video t => exact hm t h
  | audio t => exact hm t h
  | data t =>
    have h : t.attached = false := h
    simp [endTrack, DataTrack.endTrack, receiving, h]

/-- Where `_end()` does not throw, it leaves a track that receives nothing. -/
theorem endTrack_stops {t : RemoteTrack} {calls : EndCalls}
    (hf : ∀ m, t.media? = some m → m.Free) (he : (t.endTrack calls).2 = .ok ()) :
    (t.endTrack calls).1.receiving = false := by
  cases t with
  | video t => simp [endTrack, receiving, MediaTrack.endTrack_frees (hf t rfl) he]
  | audio t => simp [endTrack, receiving, MediaTrack.endTrack_frees (hf t rfl) he]
  | data t =>
    simp only [endTrack, DataTrack.endTrack, receiving]
    split
    · next ha => simpa using ha
    · split <;> rfl

end RemoteTrack

namespace TrackRegistry

/-- The track with frames a wrapper is. -/
def media (s : TrackRegistry) (w : Nat) : Option MediaTrack :=
  s.tracks[w]?.bind RemoteTrack.media?

/-- Ending a wrapper does not throw out of the end of its receiver. -/
def Quiet (s : TrackRegistry) (w : Nat) (calls : EndCalls) : Prop :=
  ∀ m, s.media w = some m → m.stream.isSome = true → calls.sinkStats = .ok ()

/-- On every track, the slot and the iterators that were handed out belong together. -/
structure Belongs (its : List (Nat × Nat)) (s : TrackRegistry) : Prop where
  held : ∀ w m, s.media w = some m → m.Held fun r ↦ (w, r) ∈ its
  made : ∀ w r, (w, r) ∈ its → (s.media w).isSome = true

/-- No slot is held by a stream that has ended. -/
def Free (s : TrackRegistry) : Prop := ∀ w m, s.media w = some m → m.Free

variable {its its' : List (Nat × Nat)} {s : TrackRegistry} {w : Nat} {t t' : RemoteTrack}
  {r : JsMap String Nat}

private theorem media_at (ht : s.tracks[w]? = some t) : s.media w = t.media? := by
  rw [media, ht, Option.bind_some]

private theorem media_set (ht : s.tracks[w]? = some t) (v : Nat) :
    media ⟨s.tracks.set w t', r⟩ v = if v = w then t'.media? else s.media v := by
  by_cases hv : v = w
  · subst hv
    rw [if_pos rfl, media, Parties.getElem?_set_self ht, Option.bind_some]
  · rw [if_neg hv, media, List.getElem?_set_ne (Ne.symm hv), media]

/-- A call on one track keeps slots and iterators together if it does so on that track. -/
theorem belongs_set (h : Belongs its s) (ht : s.tracks[w]? = some t)
    (hits : ∀ v i, v ≠ w → ((v, i) ∈ its' ↔ (v, i) ∈ its))
    (hm : ∀ m, t'.media? = some m → m.Held fun i ↦ (w, i) ∈ its')
    (hmade : ∀ i, (w, i) ∈ its' → t'.media?.isSome = true) :
    Belongs its' ⟨s.tracks.set w t', r⟩ := by
  refine ⟨fun v m hv ↦ ?_, fun v i hi ↦ ?_⟩
  · rw [media_set ht] at hv
    split at hv
    · next he =>
      subst he
      exact hm m hv
    · next hne =>
      have hheld := h.held v m hv
      simp only [← hits v _ hne] at hheld
      exact hheld
  · rw [media_set ht]
    split
    · next he =>
      subst he
      exact hmade i hi
    · next hne => exact h.made v i ((hits v i hne).mp hi)

/-- The other tracks are as free as they were. -/
theorem free_set (hf : s.Free) (ht : s.tracks[w]? = some t) :
    Free ⟨s.tracks.set w t', r⟩ ↔ ∀ m, t'.media? = some m → m.Free := by
  constructor
  · intro h m hm
    exact h w m (by rw [media_set ht, if_pos rfl, hm])
  · intro h v m hv
    rw [media_set ht] at hv
    split at hv
    · exact h m hv
    · exact hf v m hv

variable {calls : Nat → EndCalls}

/-- Ending a wrapper keeps slots and iterators together, however its native calls end. -/
theorem belongs_endTrack (h : Belongs its s) (w : Nat) :
    Belongs its (s.endTrack calls w).1 := by
  unfold TrackRegistry.endTrack
  split
  · exact h
  · next t ht =>
    refine belongs_set h ht (fun _ _ _ ↦ Iff.rfl) (fun m hm ↦ ?_) (fun i hi ↦ ?_)
    · rw [RemoteTrack.media_endTrack] at hm
      obtain ⟨m, hm₀, rfl⟩ := Option.map_eq_some_iff.mp hm
      exact (h.held w m (by rw [media_at ht, hm₀])).endTrack
    · have hs := h.made w i hi
      rw [media_at ht] at hs
      rw [RemoteTrack.media_endTrack, Option.isSome_map, hs]

/-- Ending a wrapper frees its slot exactly if no `_sinkStats` call throws. -/
theorem free_endTrack (h : Belongs its s) (hf : s.Free) (w : Nat) :
    (s.endTrack calls w).1.Free ↔ s.Quiet w (calls w) := by
  unfold TrackRegistry.endTrack
  split
  · next hn =>
    refine ⟨fun _ m hm ↦ ?_, fun _ ↦ hf⟩
    rw [media, hn] at hm
    cases hm
  · next t ht =>
    rw [free_set hf ht, RemoteTrack.media_endTrack, Quiet, media_at ht]
    have hm : ∀ m, t.media? = some m → s.media w = some m := fun m hm ↦ by rw [media_at ht, hm]
    constructor
    · intro hfree m hmedia
      have hend := hfree (m.endTrack (calls w)).1 (by rw [hmedia, Option.map_some])
      exact (MediaTrack.free_endTrack (h.held w m (hm m hmedia)) (hf w m (hm m hmedia))).mp hend
    · intro hquiet m hmedia
      obtain ⟨m, ho, rfl⟩ := Option.map_eq_some_iff.mp hmedia
      exact (MediaTrack.free_endTrack (h.held w m (hm m ho)) (hf w m (hm m ho))).mpr (hquiet m ho)

/-- Ending a wrapper throws exactly if a `_sinkStats` call does. -/
theorem endTrack_ok_iff (hf : s.Free) (w : Nat) :
    (s.endTrack calls w).2 = .ok () ↔ s.Quiet w (calls w) := by
  unfold TrackRegistry.endTrack
  split
  · next hn =>
    refine ⟨fun _ m hm ↦ ?_, fun _ ↦ rfl⟩
    rw [media, hn] at hm
    cases hm
  · next t ht =>
    rw [RemoteTrack.endTrack_result, Quiet, media_at ht]
    cases hm : t.media? with
    | none => simp
    | some m =>
      have hmedia : s.media w = some m := by rw [media_at ht, hm]
      simp only [Option.map_some, Option.getD_some, Option.some.injEq, forall_eq']
      exact MediaTrack.endTrack_ok_iff (hf w m hmedia)

/-- A wrapper whose end does not throw receives nothing. -/
theorem endTrack_stops (hf : s.Free) (hq : s.Quiet w (calls w))
    (ht : (s.endTrack calls w).1.tracks[w]? = some t) : t.receiving = false := by
  have he := (endTrack_ok_iff hf w).mpr hq
  unfold TrackRegistry.endTrack at he ht
  split at ht
  · next hn =>
    rw [hn] at ht
    cases ht
  · next u hu =>
    simp only [hu] at he
    rw [Parties.getElem?_set_self hu] at ht
    cases ht
    exact RemoteTrack.endTrack_stops (fun m hm ↦ hf w m (by rw [media_at hu, hm])) he

private theorem media_endTrack_ne {v : Nat} (hv : v ≠ w) :
    (s.endTrack calls w).1.media v = s.media v := by
  unfold TrackRegistry.endTrack
  split
  · rfl
  · next t ht => rw [media_set ht, if_neg hv]

private theorem receiving_endTrack {v : Nat} (h : ∀ t, s.tracks[v]? = some t → t.receiving = false)
    (ht : (s.endTrack calls w).1.tracks[v]? = some t) : t.receiving = false := by
  unfold TrackRegistry.endTrack at ht
  split at ht
  · exact h t ht
  · next u hu =>
    rcases Parties.getElem?_set hu ht with ⟨rfl, rfl⟩ | ⟨-, ht⟩
    · exact RemoteTrack.receiving_endTrack (h u hu)
    · exact h t ht

/-- What `endTracks` leaves, however native calls end. -/
theorem belongs_endTracks (ws : List Nat) (h : Belongs its s) :
    Belongs its (s.endTracks calls ws).1 := by
  induction ws generalizing s with
  | nil => exact h
  | cons w ws ih =>
    have hw : Belongs its (s.endTrack calls w).1 := belongs_endTrack h w
    unfold endTracks
    split
    · next he => rwa [he] at hw
    · next he =>
      rw [he] at hw
      exact ih hw

private theorem quiet_endTrack (hf : s.Free) (hw : s.Quiet w (calls w)) (v : Nat) :
    (s.endTrack calls w).1.Quiet v (calls v) ↔ s.Quiet v (calls v) := by
  by_cases hv : v = w
  · -- The slot of a wrapper that was ended is free, so ending it again calls nothing.
    subst hv
    refine ⟨fun _ ↦ hw, fun _ m hm hs ↦ ?_⟩
    cases ht : (s.endTrack calls v).1.tracks[v]? with
    | none =>
      rw [media, ht] at hm
      cases hm
    | some t =>
      have hr := endTrack_stops hf hw ht
      rw [media_at ht] at hm
      cases t with
      | video t =>
        cases hm
        exact absurd hs (by simpa [RemoteTrack.receiving] using hr)
      | audio t =>
        cases hm
        exact absurd hs (by simpa [RemoteTrack.receiving] using hr)
      | data t => cases hm
  · rw [Quiet, media_endTrack_ne hv, Quiet]

/-- Ending some wrappers frees all slots exactly if no `_sinkStats` call throws, and then none of
the wrappers receives anything. -/
theorem free_endTracks (ws : List Nat) (h : Belongs its s) (hf : s.Free) :
    ((s.endTracks calls ws).1.Free ↔ ∀ w ∈ ws, s.Quiet w (calls w)) ∧
      ((∀ w ∈ ws, s.Quiet w (calls w)) → (s.endTracks calls ws).2 = .ok () ∧
        ∀ v t, (v ∈ ws ∨ ∀ t', s.tracks[v]? = some t' → t'.receiving = false) →
          (s.endTracks calls ws).1.tracks[v]? = some t → t.receiving = false) := by
  induction ws generalizing s with
  | nil =>
    refine ⟨by simp [endTracks, hf], fun _ ↦ ⟨rfl, fun v t hv ht ↦ ?_⟩⟩
    exact hv.resolve_left List.not_mem_nil t ht
  | cons w ws ih =>
    have hb : Belongs its (s.endTrack calls w).1 := belongs_endTrack h w
    have hfree : (s.endTrack calls w).1.Free ↔ _ := free_endTrack h hf w
    have hok : (s.endTrack calls w).2 = .ok () ↔ _ := endTrack_ok_iff hf w
    by_cases hq : s.Quiet w (calls w)
    · have hrest := ih hb (hfree.mpr hq)
      simp only [quiet_endTrack hf hq] at hrest
      have he : s.endTracks calls (w :: ws) = (s.endTrack calls w).1.endTracks calls ws := by
        rw [endTracks]
        have hr := hok.mpr hq
        generalize s.endTrack calls w = res at hr ⊢
        obtain ⟨s₁, result⟩ := res
        cases hr
        rfl
      rw [he]
      simp only [List.forall_mem_cons, hq, true_and]
      refine ⟨hrest.1, fun hall ↦ ⟨(hrest.2 hall).1, fun v t hv ht ↦ ?_⟩⟩
      apply (hrest.2 hall).2 v t ?_ ht
      rcases hv with hv | hv
      · rcases List.mem_cons.mp hv with rfl | hv
        · exact .inr fun t' ht' ↦ endTrack_stops hf hq ht'
        · exact .inl hv
      · exact .inr fun t' ht' ↦ receiving_endTrack hv ht'
    · -- The loop is left with the slot still held.
      have he : s.endTracks calls (w :: ws) = s.endTrack calls w := by
        rw [endTracks]
        have hr := fun hr ↦ hq (hok.mp hr)
        generalize s.endTrack calls w = res at hr ⊢
        obtain ⟨s₁, result⟩ := res
        cases result with
        | error error => rfl
        | ok u => exact absurd rfl hr
      rw [he, hfree]
      have hn : ¬ ∀ v ∈ w :: ws, s.Quiet v (calls v) := fun hall ↦ hq (hall w (by simp))
      exact ⟨⟨fun hw ↦ absurd hw hq, fun hall ↦ absurd hall hn⟩, fun hall ↦ absurd hall hn⟩

/-- What is in a slot was in it before. -/
def Settled (s s' : TrackRegistry) : Prop :=
  ∀ w m' r, s'.media w = some m' → m'.stream = some r →
    ∃ m, s.media w = some m ∧ m.stream = some r

/-- Nothing happened. -/
theorem settled_refl (s : TrackRegistry) : Settled s s := fun _ m' _ hm hr ↦ ⟨m', hm, hr⟩

private theorem Settled.trans {s₁ s₂ s₃ : TrackRegistry} (h : Settled s₁ s₂)
    (h' : Settled s₂ s₃) : Settled s₁ s₃ := by
  intro w m r hm hr
  obtain ⟨m', hm', hr'⟩ := h' w m r hm hr
  exact h w m' r hm' hr'

private theorem settled_of_tracks {s₁ s₂ : TrackRegistry} (he : s₂.tracks = s₁.tracks) :
    Settled s₁ s₂ := by
  intro w m r hm hr
  rw [media, he] at hm
  exact ⟨m, hm, hr⟩

/-- A call on one track settles what it settles on that track. -/
theorem settled_set (ht : s.tracks[w]? = some t)
    (h : ∀ m' i, t'.media? = some m' → m'.stream = some i →
      ∃ m, t.media? = some m ∧ m.stream = some i) : Settled s ⟨s.tracks.set w t', r⟩ := by
  intro v m' i hm hi
  rw [media_set ht] at hm
  split at hm
  · next he =>
    subst he
    rw [media_at ht]
    exact h m' i hm hi
  · exact ⟨m', hm, hi⟩

/-- Ending a wrapper puts nothing into a slot. -/
theorem settled_endTrack (calls : Nat → EndCalls) (s : TrackRegistry) (w : Nat) :
    Settled s (s.endTrack calls w).1 := by
  unfold TrackRegistry.endTrack
  split
  · exact settled_refl s
  · next t ht =>
    apply settled_set ht
    intro m' i hm hi
    rw [RemoteTrack.media_endTrack] at hm
    obtain ⟨m, ho, rfl⟩ := Option.map_eq_some_iff.mp hm
    exact ⟨m, ho, MediaTrack.stream_endTrack hi⟩

private theorem settled_endTracks (calls : Nat → EndCalls) (ws : List Nat) (s : TrackRegistry) :
    Settled s (s.endTracks calls ws).1 := by
  induction ws generalizing s with
  | nil => exact settled_refl s
  | cons w ws ih =>
    have hw := settled_endTrack calls s w
    unfold endTracks
    split
    · next he => rwa [he] at hw
    · next s₁ he =>
      rw [he] at hw
      exact hw.trans (ih s₁)

private theorem mem_values_of_get {k : String} (hw : s.registry.get k = some w) :
    w ∈ s.registry.entries.map Prod.snd :=
  List.mem_map.mpr ⟨(k, w), JsMap.mem_entries.mpr hw, rfl⟩

private theorem quiet_values :
    (∀ w ∈ s.registry.entries.map Prod.snd, s.Quiet w (calls w)) ↔
      ∀ k w, s.registry.get k = some w → s.Quiet w (calls w) := by
  constructor
  · intro h k w hw
    exact h w (mem_values_of_get hw)
  · intro h w hw
    obtain ⟨⟨k, v⟩, hk, rfl⟩ := List.mem_map.mp hw
    exact h k v (JsMap.mem_entries.mp hk)

-- The registry is cleared after the loop, which changes no track.
private theorem releaseAll_tracks : (s.releaseAllRemoteTracks calls).1.tracks =
    (s.endTracks calls (s.registry.entries.map Prod.snd)).1.tracks := by
  unfold releaseAllRemoteTracks
  split
  · next he => rw [he]
  · next he => rw [he]

private theorem media_of_tracks {s₁ s₂ : TrackRegistry} (h : s₁.tracks = s₂.tracks) (w : Nat) :
    s₁.media w = s₂.media w := by
  rw [media, h, media]

/-- Slots and iterators belong together whatever is cached. -/
theorem Belongs.of_tracks {s₁ s₂ : TrackRegistry} (h : Belongs its s₁)
    (he : s₂.tracks = s₁.tracks) : Belongs its s₂ := by
  refine ⟨fun w m hm ↦ ?_, fun w i hi ↦ ?_⟩
  · rw [media_of_tracks he] at hm
    exact h.held w m hm
  · rw [media_of_tracks he]
    exact h.made w i hi

private theorem free_of_tracks {s₁ s₂ : TrackRegistry} (he : s₂.tracks = s₁.tracks) :
    s₂.Free ↔ s₁.Free := by
  simp only [Free, media_of_tracks he]

/-- `releaseAllRemoteTracks()`, however its native calls end. -/
theorem belongs_releaseAll (h : Belongs its s) :
    Belongs its (s.releaseAllRemoteTracks calls).1 :=
  (belongs_endTracks _ h).of_tracks releaseAll_tracks

/-- `releaseAllRemoteTracks()` frees all slots exactly if no `_sinkStats` call throws. -/
theorem free_releaseAll (h : Belongs its s) (hf : s.Free) :
    (s.releaseAllRemoteTracks calls).1.Free ↔
      ∀ k w, s.registry.get k = some w → s.Quiet w (calls w) := by
  rw [free_of_tracks releaseAll_tracks, (free_endTracks _ h hf).1, quiet_values]

/-- `releaseAllRemoteTracks()` stops every cached wrapper if no `_sinkStats` call throws. -/
theorem releaseAll_stops {k : String} (h : Belongs its s) (hf : s.Free)
    (hq : ∀ k w, s.registry.get k = some w → s.Quiet w (calls w))
    (hw : s.registry.get k = some w)
    (ht : (s.releaseAllRemoteTracks calls).1.tracks[w]? = some t) : t.receiving = false := by
  rw [releaseAll_tracks] at ht
  exact ((free_endTracks _ h hf).2 (quiet_values.mpr hq)).2 w t (.inl (mem_values_of_get hw)) ht

private theorem tracks_delete (k : Option String) : (s.delete k).tracks = s.tracks := by
  cases k <;> rfl

/-- Releasing a SID, however its native calls end. -/
theorem belongs_release (h : Belongs its s) (k : Option String) :
    Belongs its (s.releaseRemoteTrack calls k).1 := by
  unfold releaseRemoteTrack
  split
  · exact h
  · exact belongs_endTrack (h.of_tracks (tracks_delete k)) _

/-- Releasing a SID frees its slot exactly if no `_sinkStats` call throws. -/
theorem free_release (h : Belongs its s) (hf : s.Free) (k : String) :
    (s.releaseRemoteTrack calls (some k)).1.Free ↔
      ∀ w, s.registry.get k = some w → s.Quiet w (calls w) := by
  simp only [releaseRemoteTrack, Option.bind_some]
  split
  · next hn => simp [hn, hf]
  · next w hw =>
    have hd := tracks_delete (s := s) (some k)
    rw [free_endTrack (h.of_tracks hd) ((free_of_tracks hd).mpr hf), hw]
    simp [Quiet, media_of_tracks hd]

/-- `releaseAllRemoteTracks()` puts nothing into a slot. -/
theorem settled_releaseAll (calls : Nat → EndCalls) (s : TrackRegistry) :
    Settled s (s.releaseAllRemoteTracks calls).1 :=
  (settled_endTracks calls _ s).trans (settled_of_tracks releaseAll_tracks)

/-- Releasing a SID puts nothing into a slot. -/
theorem settled_release (calls : Nat → EndCalls) (s : TrackRegistry) (k : Option String) :
    Settled s (s.releaseRemoteTrack calls k).1 := by
  unfold releaseRemoteTrack
  split
  · exact settled_refl s
  · exact (settled_of_tracks (tracks_delete k)).trans (settled_endTrack calls _ _)

variable {sid : NativeTrack → Option String} {kind : NativeTrack → NativeKind} {n : NativeTrack}

/-- Wrapping a native track puts nothing into a slot. -/
theorem settled_wrapped {res : TrackRegistry × Except JsError Nat}
    (hw : s.Wrapped sid kind calls n res) : Settled s res.1 := by
  have hc : ∀ {s₀}, s.Cleared sid kind calls n s₀ → Settled s s₀ := by
    intro s₀ hc
    cases hc with
    | absent he => exact settled_refl s
    | @ended k w t hk hw ht hne =>
      have he : (s.endTrack calls w).1.tracks = s.tracks.set w (t.endTrack (calls w)).1 := by
        simp [TrackRegistry.endTrack, ht]
      exact (settled_endTrack calls s w).trans (settled_of_tracks he.symm)
  cases hw with
  | found hk hw ht he => exact settled_refl s
  | @made s₀ t hcl ht =>
    apply (hc hcl).trans
    intro v m i hm hi
    obtain ⟨u, hu, hmu⟩ := Option.bind_eq_some_iff.mp hm
    rcases Parties.getElem?_concat hu with ⟨-, rfl⟩ | hu
    · rw [RemoteTrack.media_create ht hmu] at hi
      cases hi
    · exact ⟨m, by rw [media_at hu, hmu], hi⟩
  | failed hcl => exact hc hcl

/-- What a call on one wrapper leaves on each. -/
theorem media_modify {f : RemoteTrack → RemoteTrack} (ht : s.tracks[w]? = some t) (v : Nat) :
    (s.modify w f).media v = if v = w then (f t).media? else s.media v := by
  rw [modify, Parties.modify_eq_set_of ht, media_set ht]

/-- A call on one wrapper leaves the other ones as they are. -/
theorem media_modify_ne {f : RemoteTrack → RemoteTrack} {v : Nat} (hv : v ≠ w) :
    (s.modify w f).media v = s.media v := by
  simp only [modify, media, List.getElem?_modify, if_neg (Ne.symm hv), Option.map_eq_map,
    Option.map_id']

/-- A call that leaves its wrapper as it is leaves all of them. -/
theorem modify_eq_self {f : RemoteTrack → RemoteTrack}
    (h : ∀ t, s.tracks[w]? = some t → f t = t) : s.modify w f = s := by
  have he : s.tracks.modify w f = s.tracks := by
    apply List.ext_getElem?
    intro v
    rw [List.getElem?_modify]
    by_cases hv : w = v
    · subst hv
      cases ht : s.tracks[w]? with
      | none => rfl
      | some t => simp [h t ht]
    · simp only [if_neg hv, Option.map_eq_map, Option.map_id']
  rw [modify, he]

/-- A call on one wrapper puts nothing into a slot if it does not on that one. -/
theorem settled_modify {f : RemoteTrack → RemoteTrack} (s : TrackRegistry) (w : Nat)
    (hf : ∀ t m' i, s.tracks[w]? = some t → (f t).media? = some m' → m'.stream = some i →
      ∃ m, t.media? = some m ∧ m.stream = some i) : Settled s (s.modify w f) := by
  cases ht : s.tracks[w]? with
  | none =>
    rw [modify, List.modify_eq_self (List.getElem?_eq_none_iff.mp ht)]
    exact settled_refl s
  | some t =>
    rw [modify, Parties.modify_eq_set_of ht]
    exact settled_set ht fun m' i ↦ hf t m' i ht

private theorem cleared_frees {s₀ : TrackRegistry} (h : Belongs its s)
    (hc : s.Cleared sid kind calls n s₀) : Belongs its s₀ ∧ (s.Free → (s₀.Free ↔
      (s.Mints sid kind n → ∀ w, s.existing sid n = some w → s.Quiet w (calls w)))) := by
  cases hc with
  | absent he => exact ⟨h, fun hf ↦ by simp [he, hf]⟩
  | @ended k w t hk hw ht hne =>
    have hex : s.existing sid n = some w := by rw [existing, hk, Option.bind_some, hw]
    have hm : s.Mints sid kind n := by
      intro v hv
      rw [hex] at hv
      cases hv
      simpa [ht] using hne
    have he : (s.endTrack calls w).1.tracks = s.tracks.set w (t.endTrack (calls w)).1 := by
      simp [TrackRegistry.endTrack, ht]
    refine ⟨(belongs_endTrack h w).of_tracks he.symm, fun hf ↦ ?_⟩
    rw [free_of_tracks he.symm, free_endTrack h hf w]
    simp [hm, hex]

private theorem made_frees {s₀ : TrackRegistry} (h : Belongs its s₀)
    (ht : RemoteTrack.create (kind n) n = .ok t) :
    Belongs its ⟨s₀.tracks ++ [t], r⟩ ∧ (Free ⟨s₀.tracks ++ [t], r⟩ ↔ s₀.Free) := by
  have hold : ∀ v < s₀.tracks.length, media ⟨s₀.tracks ++ [t], r⟩ v = s₀.media v := by
    intro v hv
    rw [media, List.getElem?_append_left hv, media]
  have hnew : ∀ v m, media ⟨s₀.tracks ++ [t], r⟩ v = some m → ¬ v < s₀.tracks.length →
      m = .create n := by
    intro v m hm hv
    obtain ⟨u, hu, hmu⟩ := Option.bind_eq_some_iff.mp hm
    rcases Parties.getElem?_concat hu with ⟨-, rfl⟩ | hu
    · exact RemoteTrack.media_create ht hmu
    · exact absurd (List.getElem?_eq_some_iff.mp hu).1 hv
  have hlt : ∀ v, (s₀.media v).isSome = true → v < s₀.tracks.length := by
    intro v hv
    obtain ⟨m, hm⟩ := Option.isSome_iff_exists.mp hv
    obtain ⟨u, hu, -⟩ := Option.bind_eq_some_iff.mp hm
    exact (List.getElem?_eq_some_iff.mp hu).1
  refine ⟨⟨fun v m hm ↦ ?_, fun v i hi ↦ ?_⟩, ?_⟩
  · by_cases hv : v < s₀.tracks.length
    · rw [hold v hv] at hm
      exact h.held v m hm
    · have hno : ∀ i, (v, i) ∉ its := fun i hi ↦ hv (hlt v (h.made v i hi))
      rw [hnew v m hm hv]
      exact ⟨nofun, fun i hi ↦ absurd hi (hno i), fun i hi ↦ absurd hi (hno i)⟩
  · have hs := h.made v i hi
    rw [hold v (hlt v hs)]
    exact hs
  · constructor
    · intro hf v m hm
      apply hf v m
      rw [hold v (hlt v (by rw [hm]; rfl)), hm]
    · intro hf v m hm
      by_cases hv : v < s₀.tracks.length
      · rw [hold v hv] at hm
        exact hf v m hm
      · rw [hnew v m hm hv]
        nofun

/-- Wrapping a native track keeps slots and iterators together, and frees the slot of a wrapper it
replaces exactly if no `_sinkStats` call throws. -/
theorem wrapped_frees {res : TrackRegistry × Except JsError Nat} (h : Belongs its s)
    (hw : s.Wrapped sid kind calls n res) : Belongs its res.1 ∧ (s.Free → (res.1.Free ↔
      (s.Mints sid kind n → ∀ w, s.existing sid n = some w → s.Quiet w (calls w)))) := by
  cases hw with
  | @found k w t hk hw ht he =>
    refine ⟨h, fun hf ↦ ⟨fun _ hm ↦ ?_, fun _ ↦ hf⟩⟩
    have hex : s.existing sid n = some w := by rw [existing, hk, Option.bind_some, hw]
    exact absurd (by rw [ht, Option.map_some, he]) (hm w hex)
  | made hc ht =>
    obtain ⟨hb, hfree⟩ := cleared_frees h hc
    obtain ⟨hb', hfree'⟩ := made_frees hb ht
    exact ⟨hb', fun hf ↦ hfree'.trans (hfree hf)⟩
  | failed hc => exact cleared_frees h hc

/-- A call of the application on one wrapper, under which slots and iterators stay together on its
track and the slot is freed or not as `q` says. -/
theorem modify_frees {f : RemoteTrack → RemoteTrack} {q : Prop} (h : Belongs its s)
    (hits : ∀ v i, v ≠ w → ((v, i) ∈ its' ↔ (v, i) ∈ its))
    (hm : ∀ t, s.tracks[w]? = some t → (∀ m, (f t).media? = some m → m.Held fun i ↦ (w, i) ∈ its') ∧
      (∀ i, (w, i) ∈ its' → (f t).media?.isSome = true) ∧
      (s.Free → ((∀ m, (f t).media? = some m → m.Free) ↔ q)))
    (hn : s.tracks[w]? = none → its' = its ∧ q) :
    Belongs its' (s.modify w f) ∧ (s.Free → ((s.modify w f).Free ↔ q)) := by
  cases ht : s.tracks[w]? with
  | none =>
    obtain ⟨rfl, hq⟩ := hn ht
    rw [modify, List.modify_eq_self (List.getElem?_eq_none_iff.mp ht)]
    exact ⟨h, fun hf ↦ ⟨fun _ ↦ hq, fun _ ↦ hf⟩⟩
  | some t =>
    obtain ⟨hheld, hmade, hfree⟩ := hm t ht
    rw [modify, Parties.modify_eq_set_of ht]
    exact ⟨belongs_set h ht hits hheld hmade, fun hf ↦ (free_set hf ht).trans (hfree hf)⟩

end TrackRegistry

end VideoNode.Tracks
