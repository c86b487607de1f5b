import VideoNode.Lts.Machine
import VideoNode.Tracks.Slots

/-!
# Receivers where native calls throw

Any sequence of `frames()`, `return()` of its iterators, `_end()`, frame callbacks and releases on
the tracks of one registry, with every native call returning or throwing. A receiver is freed where
it ends unless `_sinkStats`, the first thing its end calls, throws.
-/

namespace VideoNode.Tracks

open VideoNode.Js VideoNode.Frames VideoNode.Lts

/-- The tracks of one Room, with the iterators `frames()` has handed out, each named by the wrapper
and its number there. -/
structure Receivers where
  registry : TrackRegistry
  iterators : List (Nat × Nat)

/-- What happens to the receivers of a Room; `calls` says how native calls end. `frame` is a call
of the callback `frames()` gave the native sink. -/
inductive TrackCall where
  | wrap (n : NativeTrack) (calls : Nat → EndCalls)
  | frames (w : Nat) (options : JsValue) (attachFrameSink : NativeCall)
  | frame (w : Nat)
  | returnIterator (w : Nat) (r : Nat) (calls : EndCalls)
  | endTrack (w : Nat) (calls : Nat → EndCalls)
  | listen (w : Nat) (onMessage : NativeCall)
  | release (k : String) (calls : Nat → EndCalls)
  | releaseAll (calls : Nat → EndCalls)

namespace Receivers

variable (sid : NativeTrack → Option String) (kind : NativeTrack → NativeKind)

/-- One call. The application has only the iterators it was given, and a frame is pushed where a
sink is attached, which changes no receiver: `push` neither ends a stream nor looks at the track. -/
def step (s : Receivers) : TrackCall → Option Receivers
  | .wrap n calls =>
    some { s with registry := (s.registry.wrapRemoteTrack sid kind calls n).1 }
  | .frames w options attachFrameSink =>
    s.registry.tracks[w]?.map fun t ↦
      { registry := s.registry.modify w fun t ↦ t.frames (sid t.native) options attachFrameSink
        iterators := s.iterators ++
          ((t.iterator? (sid t.native) options attachFrameSink).map (w, ·)).toList }
  | .frame w => if (s.registry.media w).any (·.sink.isSome) then some s else none
  | .returnIterator w r calls =>
    if (w, r) ∈ s.iterators then
      some { s with registry := s.registry.modify w (·.returnIterator r calls) }
    else none
  | .endTrack w calls => some { s with registry := (s.registry.endTrack calls w).1 }
  | .listen w onMessage => some { s with registry := s.registry.modify w (·.listen onMessage) }
  | .release k calls =>
    some { s with registry := (s.registry.releaseRemoteTrack calls (some k)).1 }
  | .releaseAll calls => some { s with registry := (s.registry.releaseAllRemoteTracks calls).1 }

/-- A Room without tracks. -/
def machine : Machine Receivers TrackCall where
  init := ⟨.empty, []⟩
  step := step sid kind

/-- A receiver is active: its iterator was handed out and has not ended. -/
def Active (s : Receivers) (w r : Nat) : Prop :=
  (w, r) ∈ s.iterators ∧ ∃ m, s.registry.media w = some m ∧ m.ended[r]? = some false

/-- `frames()` of the track finds its slot taken and throws that a receiver is already active. -/
def Refuses (s : Receivers) (w : Nat) : Prop :=
  ∃ m, s.registry.media w = some m ∧ m.stream.isSome = true

/-- A track has at most one receiver, and refuses another one only while it has one. -/
def Sound (s : Receivers) : Prop :=
  (∀ w r r', s.Active w r → s.Active w r' → r = r') ∧ ∀ w, s.Refuses w → ∃ r, s.Active w r

/-- What a call leaves: where a receiver has ended, and where a `frames()` that was not refused
threw, the track takes a new one; `return()` of an iterator that is not the current one does
nothing; and `releaseAllRemoteTracks()` leaves nothing received on any track that was cached. -/
def Frees (s : Receivers) (a : TrackCall) (s' : Receivers) : Prop :=
  (∀ w r, s.Active w r → ¬ s'.Active w r → ¬ s'.Refuses w) ∧
  match a with
  | .frames w _ _ => s'.iterators = s.iterators → ¬ s.Refuses w → ¬ s'.Refuses w
  | .returnIterator w r _ =>
    (∀ m, s.registry.media w = some m → m.stream ≠ some r) → s'.registry = s.registry
  | .releaseAll _ => ∀ k w t, s.registry.registry.get k = some w →
    s'.registry.tracks[w]? = some t → t.receiving = false
  | _ => True

/-- No end of a receiver throws at its `_sinkStats` call. -/
def SinkStatsReturn (s : Receivers) : TrackCall → Prop
  | .wrap n calls => s.registry.Mints sid kind n →
    ∀ w, s.registry.existing sid n = some w → s.registry.Quiet w (calls w)
  | .returnIterator w r calls => (w, r) ∈ s.iterators →
    ∀ m, s.registry.media w = some m → m.stream = some r → calls.sinkStats = .ok ()
  | .endTrack w calls => s.registry.Quiet w (calls w)
  | .release k calls => ∀ w, s.registry.registry.get k = some w → s.registry.Quiet w (calls w)
  | .releaseAll calls =>
    ∀ k w, s.registry.registry.get k = some w → s.registry.Quiet w (calls w)
  | .frames .. | .frame .. | .listen .. => True

/-- A call removes what is cached under a SID: a release of it or of all, or a wrap of a native
track with the SID and another kind. -/
def Removes (s : Receivers) (k : String) : TrackCall → Prop
  | .wrap n _ => s.registry.Replaces sid kind k n
  | .release k' _ => k' = k
  | .releaseAll _ => True
  | .frames .. | .frame .. | .returnIterator .. | .endTrack .. | .listen .. => False

open TrackRegistry

variable {sid : NativeTrack → Option String} {kind : NativeTrack → NativeKind} {s s' : Receivers}

/-- What holds however native calls end. -/
structure Held (sid : NativeTrack → Option String) (kind : NativeTrack → NativeKind)
    (s : Receivers) : Prop where
  law : s.registry.Law sid kind
  belongs : Belongs s.iterators s.registry

private theorem frames_frees (sid : NativeTrack → Option String) {w : Nat} (options : JsValue)
    (call : NativeCall) {t : RemoteTrack} (h : Belongs s.iterators s.registry)
    (ht : s.registry.tracks[w]? = some t) :
    Belongs (s.iterators ++ ((t.iterator? (sid t.native) options call).map (w, ·)).toList)
        (s.registry.modify w fun t ↦ t.frames (sid t.native) options call) ∧
      (s.registry.Free →
        ((s.registry.modify w fun t ↦ t.frames (sid t.native) options call).Free ↔ True)) := by
  apply modify_frees h
  · intro v i hv
    simp only [List.mem_append, Option.mem_toList, Option.map_eq_some_iff, Prod.mk.injEq]
    constructor
    · rintro (hi | ⟨r, -, rfl, -⟩)
      · exact hi
      · exact absurd rfl hv
    · exact .inl
  · intro u hu
    rw [ht] at hu
    cases hu
    cases hmedia : t.media? with
    | none =>
      have hd : (t.frames (sid t.native) options call).media? = none ∧
          t.iterator? (sid t.native) options call = none := by
        cases t with
        | video t => cases hmedia
        | audio t => cases hmedia
        | data t => exact ⟨rfl, rfl⟩
      rw [hd.1, hd.2]
      refine ⟨nofun, fun i hi ↦ ?_, fun _ ↦ ⟨fun _ ↦ trivial, fun _ ↦ nofun⟩⟩
      have hs := h.made w i (by simpa using hi)
      rw [media, ht, Option.bind_some, hmedia] at hs
      cases hs
    | some m =>
      have hm : s.registry.media w = some m := by rw [media, ht, Option.bind_some, hmedia]
      obtain ⟨res, ho, hf, hi⟩ := RemoteTrack.media_frames (sid t.native) t options call hmedia
      rw [hf, hi]
      refine ⟨fun m' hm' ↦ ?_, fun i _ ↦ rfl, fun hfree ↦ ⟨fun _ ↦ trivial, fun _ m' hm' ↦ ?_⟩⟩
      · cases hm'
        have hheld := (h.held w m hm).frames ho
        simpa [Option.map_eq_some_iff] using hheld
      · cases hm'
        exact MediaTrack.free_frames (hfree w m hm) ho
  · intro hn
    rw [ht] at hn
    cases hn

private theorem returnIterator_frees {w r : Nat} (calls : EndCalls)
    (h : Belongs s.iterators s.registry) (hr : (w, r) ∈ s.iterators) :
    Belongs s.iterators (s.registry.modify w (·.returnIterator r calls)) ∧
      (s.registry.Free → ((s.registry.modify w (·.returnIterator r calls)).Free ↔
        ∀ m, s.registry.media w = some m → m.stream = some r → calls.sinkStats = .ok ())) := by
  apply modify_frees h (fun _ _ _ ↦ Iff.rfl)
  · intro t ht
    have hm : ∀ m, t.media? = some m → s.registry.media w = some m :=
      fun m hm ↦ by rw [media, ht, Option.bind_some, hm]
    simp only [RemoteTrack.media_returnIterator, Option.map_eq_some_iff, Option.isSome_map]
    refine ⟨?_, fun i hi ↦ ?_, fun hf ↦ ⟨fun hfree m hmedia ↦ ?_, ?_⟩⟩
    · rintro _ ⟨m, hmedia, rfl⟩
      exact (h.held w m (hm m hmedia)).endStream hr (MediaTrack.endedStream m r calls)
    · have hs := h.made w i hi
      rwa [media, ht, Option.bind_some] at hs
    · have ht' : t.media? = some m := by rwa [media, ht, Option.bind_some] at hmedia
      have hend := hfree _ ⟨m, ht', rfl⟩
      exact (MediaTrack.free_endStream (h.held w m hmedia) (hf w m hmedia) hr
        (MediaTrack.endedStream m r calls)).mp hend
    · rintro hq _ ⟨m, hmedia, rfl⟩
      exact (MediaTrack.free_endStream (h.held w m (hm m hmedia)) (hf w m (hm m hmedia)) hr
        (MediaTrack.endedStream m r calls)).mpr (hq m (hm m hmedia))
  · intro hn
    refine ⟨rfl, fun m hm ↦ ?_⟩
    rw [media, hn] at hm
    cases hm

private theorem listen_frees {w : Nat} {onMessage : NativeCall}
    (h : Belongs s.iterators s.registry) :
    Belongs s.iterators (s.registry.modify w (·.listen onMessage)) ∧
      (s.registry.Free → ((s.registry.modify w (·.listen onMessage)).Free ↔ True)) := by
  apply modify_frees h (fun _ _ _ ↦ Iff.rfl)
  · intro t ht
    have hm : t.media? = s.registry.media w := by rw [media, ht, Option.bind_some]
    simp only [RemoteTrack.media_listen, hm]
    exact ⟨h.held w, h.made w, fun hf ↦ ⟨fun _ ↦ trivial, fun _ ↦ hf w⟩⟩
  · exact fun _ ↦ ⟨rfl, trivial⟩

/-- A frame changes no receiver. -/
theorem frame_some {w : Nat} (hs : s.step sid kind (.frame w) = some s') : s' = s := by
  simp only [step] at hs
  split at hs
  · exact (Option.some.inj hs).symm
  · cases hs

/-- The application has the iterator it returns. -/
theorem returnIterator_some {w r : Nat} {calls : EndCalls}
    (hs : s.step sid kind (.returnIterator w r calls) = some s') : (w, r) ∈ s.iterators ∧
      s' = { s with registry := s.registry.modify w (·.returnIterator r calls) } := by
  simp only [step] at hs
  split at hs
  · next hr =>
    cases hs
    exact ⟨hr, rfl⟩
  · cases hs

/-- Every call keeps slots and iterators together, and leaves all slots free, or held by a receiver
that has not ended, exactly if no `_sinkStats` call throws where a receiver ends. -/
theorem step_frees {a : TrackCall} (h : Held sid kind s) (hs : s.step sid kind a = some s') :
    Held sid kind s' ∧
      (s.registry.Free → (s'.registry.Free ↔ s.SinkStatsReturn sid kind a)) := by
  cases a with
  | wrap n calls =>
    cases hs
    have hw := wrapped calls h.law n
    obtain ⟨hb, hf⟩ := wrapped_frees h.belongs hw
    exact ⟨⟨hw.law h.law, hb⟩, hf⟩
  | frames w options call =>
    obtain ⟨t, ht, rfl⟩ := Option.map_eq_some_iff.mp hs
    obtain ⟨hb, hf⟩ := frames_frees sid options call h.belongs ht
    exact ⟨⟨(shrunk_modify _ w fun t ↦ RemoteTrack.same_frames).law h.law, hb⟩, hf⟩
  | frame w =>
    obtain rfl := frame_some hs
    exact ⟨h, fun hf ↦ ⟨fun _ ↦ trivial, fun _ ↦ hf⟩⟩
  | returnIterator w r calls =>
    obtain ⟨hr, rfl⟩ := returnIterator_some hs
    obtain ⟨hb, hf⟩ := returnIterator_frees calls h.belongs hr
    refine ⟨⟨(shrunk_modify _ w fun t ↦ RemoteTrack.same_returnIterator).law h.law, hb⟩, ?_⟩
    simpa only [SinkStatsReturn, hr, true_imp_iff] using hf
  | endTrack w calls =>
    cases hs
    exact ⟨⟨(shrunk_endTrack calls _ w).law h.law, belongs_endTrack h.belongs w⟩,
      fun hf ↦ free_endTrack h.belongs hf w⟩
  | listen w onMessage =>
    cases hs
    obtain ⟨hb, hf⟩ := listen_frees h.belongs
    exact ⟨⟨(shrunk_modify _ w fun t ↦ RemoteTrack.same_listen).law h.law, hb⟩, hf⟩
  | release k calls =>
    cases hs
    exact ⟨⟨(shrunk_releaseRemoteTrack _ (some k)).law h.law, belongs_release h.belongs (some k)⟩,
      fun hf ↦ free_release h.belongs hf k⟩
  | releaseAll calls =>
    cases hs
    exact ⟨⟨(shrunk_releaseAllRemoteTracks _).law h.law, belongs_releaseAll h.belongs⟩,
      fun hf ↦ free_releaseAll h.belongs hf⟩

/-- Every call leaves the wrappers there are. -/
theorem kept_step {a : TrackCall} (hl : s.registry.Law sid kind)
    (hs : s.step sid kind a = some s') : Kept s.registry s'.registry := by
  cases a with
  | wrap n calls =>
    cases hs
    exact (wrapped calls hl n).kept
  | frames w options call =>
    obtain ⟨t, -, rfl⟩ := Option.map_eq_some_iff.mp hs
    exact (shrunk_modify _ w fun t ↦ RemoteTrack.same_frames).toKept
  | frame w =>
    obtain rfl := frame_some hs
    exact .refl _
  | returnIterator w r calls =>
    obtain ⟨-, rfl⟩ := returnIterator_some hs
    exact (shrunk_modify _ w fun t ↦ RemoteTrack.same_returnIterator).toKept
  | endTrack w calls =>
    cases hs
    exact (shrunk_endTrack calls _ w).toKept
  | listen w onMessage =>
    cases hs
    exact (shrunk_modify _ w fun t ↦ RemoteTrack.same_listen).toKept
  | release k calls =>
    cases hs
    exact (shrunk_releaseRemoteTrack _ (some k)).toKept
  | releaseAll calls =>
    cases hs
    exact (shrunk_releaseAllRemoteTracks _).toKept

/-- What is cached stays cached through a call that does not remove it. -/
theorem entry_step {a : TrackCall} {k : String} {w : Nat} (hl : s.registry.Law sid kind)
    (hg : s.registry.registry.get k = some w) (hn : ¬ s.Removes sid kind k a)
    (hs : s.step sid kind a = some s') : s'.registry.registry.get k = some w := by
  cases a with
  | wrap n calls =>
    cases hs
    exact (wrapped calls hl n).get_of_cached hg hn
  | frames v options call =>
    obtain ⟨t, -, rfl⟩ := Option.map_eq_some_iff.mp hs
    exact hg
  | frame v =>
    obtain rfl := frame_some hs
    exact hg
  | returnIterator v r calls =>
    obtain ⟨-, rfl⟩ := returnIterator_some hs
    exact hg
  | endTrack v calls =>
    cases hs
    simp only [registry_endTrack]
    exact hg
  | listen v onMessage =>
    cases hs
    exact hg
  | release k' calls =>
    cases hs
    simp only [get_releaseRemoteTrack_of_ne _ (Ne.symm hn)]
    exact hg
  | releaseAll calls => exact absurd trivial hn

/-- A track refuses a receiver only while it has one exactly if no slot is held by a receiver that
has ended. -/
theorem sound_iff_free (h : Held sid kind s) : s.Sound ↔ s.registry.Free := by
  constructor
  · rintro ⟨-, hrefuses⟩ w m hm r hr
    obtain ⟨r', hin, m', hm', he⟩ := hrefuses w ⟨m, hm, by rw [hr]; rfl⟩
    rw [hm] at hm'
    cases hm'
    have hcur := (h.belongs.held w m hm).current r' hin he
    rw [hr] at hcur
    cases hcur
    exact he
  · intro hf
    refine ⟨?_, ?_⟩
    · rintro w r r' ⟨hin, m, hm, he⟩ ⟨hin', m', hm', he'⟩
      rw [hm] at hm'
      cases hm'
      have hcur := (h.belongs.held w m hm).current r hin he
      rw [(h.belongs.held w m hm).current r' hin' he'] at hcur
      exact (Option.some.inj hcur).symm
    · rintro w ⟨m, hm, hs⟩
      obtain ⟨r, hr⟩ := Option.isSome_iff_exists.mp hs
      exact ⟨r, (h.belongs.held w m hm).slot r hr, m, hm, hf w m hm r hr⟩

private theorem settled_frames {w v r : Nat} {options : JsValue} {call : NativeCall}
    {m m' : MediaTrack} (hm : s.registry.media v = some m) (hr : m.stream.isSome = true)
    (hm' : (s.registry.modify w fun t ↦ t.frames (sid t.native) options call).media v = some m')
    (hr' : m'.stream = some r) : m.stream = some r := by
  by_cases hvw : v = w
  · subst hvw
    obtain ⟨t, ht, hmedia⟩ := Option.bind_eq_some_iff.mp hm
    obtain ⟨res, ho, hf, -⟩ := RemoteTrack.media_frames (sid t.native) t options call hmedia
    rw [media_modify ht, if_pos rfl, hf] at hm'
    cases hm'
    cases ho with
    | refused hs => exact hr'
    | rejected hs => exact hr'
    | attached hs => simp [hs] at hr
    | failed hs => exact hr'
  · rw [media_modify_ne hvw, hm] at hm'
    cases hm'
    exact hr'

/-- A slot that is held stays with its receiver or becomes free. -/
theorem slot_step {a : TrackCall} (h : Held sid kind s) (hs : s.step sid kind a = some s')
    {w r : Nat} {m m' : MediaTrack} (hm : s.registry.media w = some m)
    (hr : m.stream.isSome = true) (hm' : s'.registry.media w = some m')
    (hr' : m'.stream = some r) : m.stream = some r := by
  have hsettled : Settled s.registry s'.registry → m.stream = some r := by
    intro hset
    obtain ⟨m₀, hm₀, hr₀⟩ := hset w m' r hm' hr'
    rw [hm] at hm₀
    cases hm₀
    exact hr₀
  cases a with
  | wrap n calls =>
    cases hs
    exact hsettled (settled_wrapped (wrapped calls h.law n))
  | frames v options call =>
    obtain ⟨t, -, rfl⟩ := Option.map_eq_some_iff.mp hs
    exact settled_frames hm hr hm' hr'
  | frame v =>
    obtain rfl := frame_some hs
    exact hsettled (settled_refl _)
  | returnIterator v i calls =>
    obtain ⟨-, rfl⟩ := returnIterator_some hs
    apply hsettled
    apply settled_modify
    intro t m' j ht hmedia hj
    rw [RemoteTrack.media_returnIterator] at hmedia
    obtain ⟨m, ho, rfl⟩ := Option.map_eq_some_iff.mp hmedia
    exact ⟨m, ho, MediaTrack.stream_endStream hj⟩
  | endTrack v calls =>
    cases hs
    exact hsettled (settled_endTrack calls _ v)
  | listen v onMessage =>
    cases hs
    apply hsettled
    apply settled_modify
    intro t m' j ht hmedia hj
    rw [RemoteTrack.media_listen] at hmedia
    exact ⟨m', hmedia, hj⟩
  | release k calls =>
    cases hs
    exact hsettled (settled_release calls _ (some k))
  | releaseAll calls =>
    cases hs
    exact hsettled (settled_releaseAll calls _)

private theorem refuses_of_frames {w : Nat} {options : JsValue} {call : NativeCall}
    (hs : s.step sid kind (.frames w options call) = some s') (hits : s'.iterators = s.iterators)
    (h : s'.Refuses w) : s.Refuses w := by
  obtain ⟨t, ht, rfl⟩ := Option.map_eq_some_iff.mp hs
  obtain ⟨m', hm', hs'⟩ := h
  cases hmedia : t.media? with
  | none =>
    rw [media_modify ht, if_pos rfl] at hm'
    cases t with
    | video t => cases hmedia
    | audio t => cases hmedia
    | data t => cases hm'
  | some m =>
    have hm : s.registry.media w = some m := by rw [media, ht, Option.bind_some, hmedia]
    obtain ⟨res, ho, hfm, hi⟩ := RemoteTrack.media_frames (sid t.native) t options call hmedia
    rw [media_modify ht, if_pos rfl, hfm] at hm'
    cases hm'
    cases ho with
    | refused hn => exact ⟨m, hm, hs'⟩
    | rejected hn => exact ⟨m, hm, hs'⟩
    | attached hn => simp [hi, Except.toOption] at hits
    | failed hn => exact ⟨m, hm, hs'⟩

-- The stream of an iterator that is not the current one has ended already, so its `end()` returns
-- at once.
private theorem returnIterator_of_other (h : Held sid kind s) {w r : Nat} {calls : EndCalls}
    (hother : ∀ m, s.registry.media w = some m → m.stream ≠ some r)
    (hs : s.step sid kind (.returnIterator w r calls) = some s') : s'.registry = s.registry := by
  obtain ⟨hin, rfl⟩ := returnIterator_some hs
  have hsame : ∀ t, s.registry.tracks[w]? = some t → t.returnIterator r calls = t := by
    intro t ht
    have hidle : ∀ m, t.media? = some m → (m.endStream r calls).1 = m := by
      intro m hmedia
      have hm : s.registry.media w = some m := by rw [media, ht, Option.bind_some, hmedia]
      have he := MediaTrack.endedStream m r calls
      generalize m.endStream r calls = res at he ⊢
      cases he with
      | idle hn => rfl
      | stuck hn hs => exact absurd ((h.belongs.held w m hm).current r hin hn) (hother m hm)
      | freed hn hs => exact absurd ((h.belongs.held w m hm).current r hin hn) (hother m hm)
    cases t with
    | video t => exact congrArg RemoteTrack.video (hidle t rfl)
    | audio t => exact congrArg RemoteTrack.audio (hidle t rfl)
    | data t => rfl
  exact modify_eq_self hsame

/-- Where no `_sinkStats` call throws, a call leaves what it should. -/
theorem frees_step {a : TrackCall} (h : Held sid kind s) (hf : s.registry.Free)
    (hc : s.SinkStatsReturn sid kind a) (hs : s.step sid kind a = some s') : s.Frees a s' := by
  obtain ⟨h', hfree⟩ := step_frees h hs
  have hsound := (sound_iff_free h').mpr ((hfree hf).mpr hc)
  refine ⟨?_, ?_⟩
  · rintro w r ⟨hin, m, hm, he⟩ hended hrefuses
    have hcur := (h.belongs.held w m hm).current r hin he
    obtain ⟨r', hact⟩ := hsound.2 w hrefuses
    obtain ⟨hin', m', hm', he'⟩ := hact
    have hcur' := (h'.belongs.held w m' hm').current r' hin' he'
    have hslot := slot_step h hs hm (by rw [hcur]; rfl) hm' hcur'
    rw [hcur] at hslot
    cases hslot
    exact hended ⟨hin', m', hm', he'⟩
  · cases a with
    | frames w options call =>
      intro hits hfree' hrefuses
      exact hfree' (refuses_of_frames hs hits hrefuses)
    | returnIterator w r calls =>
      intro hother
      exact returnIterator_of_other h hother hs
    | releaseAll calls =>
      cases hs
      intro k w t hw ht
      exact releaseAll_stops h.belongs hf hc hw ht
    | _ => trivial

/-- A Room without tracks has nothing in any slot. -/
theorem held_init : Held sid kind (machine sid kind).init := by
  refine ⟨⟨fun k w hw ↦ by simp [machine, TrackRegistry.empty] at hw⟩, ?_, ?_⟩
  · intro w m hm
    simp [machine, TrackRegistry.empty, media] at hm
  · intro w r hr
    simp [machine] at hr

/-- In every run, whatever the native calls do: every track has at most one receiver and refuses
another only while it has one, a track is free once its receiver has ended or a `frames()` that was
not refused has thrown, `return()` of an iterator that is not current changes nothing, and
`releaseAllRemoteTracks()` stops every cached track, if and only if no `_sinkStats` call that the
end of a receiver makes throws. -/
theorem receivers_freed_iff (sid : NativeTrack → Option String)
    (kind : NativeTrack → NativeKind) (run : List TrackCall) :
    ((machine sid kind).Always Sound (machine sid kind).init run ∧
      (machine sid kind).Along (fun s a ↦ ∀ s', (machine sid kind).step s a = some s' →
        s.Frees a s') (machine sid kind).init run) ↔
    (machine sid kind).Along (SinkStatsReturn sid kind) (machine sid kind).init run := by
  have hkeep : ∀ s a t, Held sid kind s → (machine sid kind).step s a = some t →
      Held sid kind t := fun s a t h hs ↦ (step_frees h hs).1
  have hinit : (machine sid kind).init.Sound := by
    rw [sound_iff_free held_init]
    intro w m hm
    simp [machine, TrackRegistry.empty, media] at hm
  have hiff : ∀ s a t, Held sid kind s → s.Sound → (machine sid kind).step s a = some t →
      (t.Sound ↔ s.SinkStatsReturn sid kind a) := by
    intro s a t h hsound hs
    obtain ⟨h', hfree⟩ := step_frees h hs
    rw [sound_iff_free h']
    exact hfree ((sound_iff_free h).mp hsound)
  have hnone : ∀ s a, Held sid kind s → (machine sid kind).step s a = none →
      s.SinkStatsReturn sid kind a := by
    intro s a _ hs
    cases a with
    | returnIterator w r calls =>
      intro hin
      simp [machine, step, hin] at hs
    | frames w options call => trivial
    | frame w => trivial
    | listen w onMessage => trivial
    | _ => simp [machine, step] at hs
  have halways := Machine.always_iff_along hkeep hiff hnone held_init hinit run
  constructor
  · exact fun h ↦ halways.mp h.1
  · intro hc
    refine ⟨halways.mpr hc, ?_⟩
    refine hc.mono (i := fun s ↦ Held sid kind s ∧ s.Sound) ?_ ?_ ⟨held_init, hinit⟩
    · rintro s a t ⟨h, hsound⟩ hq hs
      exact ⟨hkeep s a t h hs, (hiff s a t h hsound hs).mpr hq⟩
    · rintro s a ⟨h, hsound⟩ hq s' hs
      exact frees_step h ((sound_iff_free h).mp hsound) hq hs

private def statsThrow : EndCalls := ⟨.error ⟨.error, "", none⟩, .ok (), .ok ()⟩

/-- A video track whose receiver ends while `_sinkStats` throws refuses every later receiver. -/
theorem receivers_wedged : ¬ ∀ (sid : NativeTrack → Option String)
    (kind : NativeTrack → NativeKind) (run : List TrackCall),
    (machine sid kind).Always Sound (machine sid kind).init run ∧
      (machine sid kind).Along (fun s a ↦ ∀ s', (machine sid kind).step s a = some s' →
        s.Frees a s') (machine sid kind).init run := by
  intro h
  have hr : (machine (fun _ ↦ some "MT0") fun _ ↦ .video).exec
      (machine (fun _ ↦ some "MT0") fun _ ↦ .video).init
      [.wrap 0 fun _ ↦ .returning, .frames 0 .undefined (.ok ()),
        .returnIterator 0 0 statsThrow] = some _ := rfl
  have hsound := (h (fun _ ↦ some "MT0") (fun _ ↦ .video) _).1.last hr
  obtain ⟨r, hin, m, hm, he⟩ := hsound.2 0 ⟨_, rfl, rfl⟩
  cases hm
  have hin : (0, r) ∈ [(0, 0)] := hin
  obtain rfl : r = 0 := by simpa using hin
  cases he

end Receivers

end VideoNode.Tracks
