import VideoNode.Local.Failures
import VideoNode.Local.TrackOptions

/-!
# Names of local tracks

A track that is not given a name gets one from a counter that all kinds share
(`src/media/media_factory_wrap.cpp`). A `LocalParticipant` refuses a second track of a name, so the
counter has to keep the unnamed ones apart, whatever Rooms they are published in.
-/

namespace VideoNode.Local

open VideoNode.Js VideoNode.Lts VideoNode.Video

/-- `lib/index.ts:446–477`. -/
def validateAudioSource (source : NapiValue) : Except JsError Unit := do
  let shown (key : String) : Option JsValue := some (source.get key).described
  throwIf (source.isTypeofObject = false) ⟨.typeError, "source must be an object", none⟩
  throwIf ((source.get "type").string? ≠ some (.ofText "raw"))
    ⟨.typeError, "source.type must be 'raw'; got ", shown "type"⟩
  throwIf ((source.get "format").string? ≠ some (.ofText "PCM_S16LE"))
    ⟨.typeError, "source.format must be 'PCM_S16LE'; got ", shown "format"⟩
  throwIf ((source.get "sampleRate").integer? ≠ some 48000)
    ⟨.rangeError, "source.sampleRate must be 48000; got ", shown "sampleRate"⟩
  throwIf ((source.get "channels").integer? ≠ some 1)
    ⟨.rangeError, "source.channels must be 1; got ", shown "channels"⟩
  let maxQueue := source.get "maxQueue"
  throwIf (maxQueue.isUndefined = false ∧ maxQueue.integer?.filter (0 < ·) = none)
    ⟨.rangeError, "source.maxQueue must be a positive integer; got ", shown "maxQueue"⟩
  throwIf (maxQueue.isUndefined = false ∧ maxQueue.integer?.filter (· ≤ 1024) = none)
    ⟨.rangeError, "source.maxQueue must be at most 1024; got ", shown "maxQueue"⟩

/-- `CreateVideoTrack` and `CreateAudioTrack`, the name of the track;
`src/media/media_factory_wrap.cpp:58–82`. -/
def createMediaTrack (kind : String) (info : NapiValue) (counter : Nat) :
    Except JsError (String × Nat) := do
  let name ← if info.isObject then readOptionalString info "name" else pure none
  match name with
  | some name => pure (name, counter)
  | none => pure (nextDefaultName kind counter)

/-- The options of the native factory, of a name that is not empty; `lib/index.ts:413`. -/
def nameOptions : Option JsString → NapiValue
  | some name => .ofProps [("name", .string name)]
  | none => .ofProps []

/-- The check of the source, if there is one; `lib/index.ts:411–412`. -/
def checkSource (validateSource : NapiValue → Except JsError Unit) (options : NapiValue) :
    Except JsError Unit :=
  let source := sourceOption options
  if source.isUndefined then pure () else validateSource source

/-- What the two factories of media tracks have in common, up to the source of the track they
return. -/
def createLocalMediaTrack (method kind : String) (validateSource : NapiValue → Except JsError Unit)
    (options : NapiValue) (counter : Nat) : Except JsError (String × Nat) := do
  let name ← resolveName options method
  checkSource validateSource options
  createMediaTrack kind (nameOptions name) counter

namespace LocalKind

/-- The factory of each kind; `lib/index.ts:407–420`, `498–511` and `535–555`. -/
def createLocalTrack (kind : LocalKind) (options : NapiValue) (own : String → Bool)
    (counter : Nat) : Except JsError (String × Nat) :=
  match kind with
  | .video => createLocalMediaTrack "createLocalVideoTrack" "video"
      (fun source ↦ (validateVideoSource source).map fun _ ↦ ()) options counter
  | .audio => createLocalMediaTrack "createLocalAudioTrack" "audio" validateAudioSource options
      counter
  | .data => (createLocalDataTrack options own counter).map fun r ↦ (r.1.name, r.2)

end LocalKind

/-- A track that was made, of which options, and the counter before. -/
structure Made where
  track : LocalTrack
  options : NapiValue
  counter : Nat

/-- The counter, all tracks that were made, and the Rooms they are used in. -/
structure Studio where
  counter : Nat
  made : List Made
  sdk : Sdk

/-- A call of a factory, or a use of the tracks. -/
inductive StudioAct where
  | create (kind : LocalKind) (options : NapiValue) (own : String → Bool)
  | use (a : SdkAct)

/-- The tracks an application passes to a Room. -/
def SdkAct.passed : SdkAct → List LocalTrack
  | .construct seeded => seeded
  | .room _ (.publishTrack track _) => [track]
  | _ => []

namespace Studio

/-- A track that was made. -/
def Has (s : Studio) (track : LocalTrack) : Prop := ∃ a ∈ s.made, a.track = track

instance (s : Studio) (track : LocalTrack) : Decidable (s.Has track) :=
  inferInstanceAs (Decidable (∃ a ∈ s.made, a.track = track))

/-- A factory makes a track, or throws and makes none. -/
def create (s : Studio) (kind : LocalKind) (options : NapiValue) (own : String → Bool) : Studio :=
  match kind.createLocalTrack options own s.counter with
  | .error _ => s
  | .ok made =>
    { s with
      counter := made.2
      made := s.made ++ [⟨⟨s.made.length, kind, made.1⟩, options, s.counter⟩] }

/-- One step. Only tracks that were made can be passed to a Room. -/
def step (m : Nat) (s : Studio) : StudioAct → Option Studio
  | .create kind options own => some (s.create kind options own)
  | .use a =>
    if ∀ track ∈ a.passed, s.Has track then (s.sdk.step m a).map fun sdk ↦ { s with sdk := sdk }
    else none

/-- No track yet. -/
def machine (m : Nat) : Machine Studio StudioAct where
  init := ⟨0, [], (Sdk.machine m).init⟩
  step := step m

end Studio

/-- Different values of the counter, below its width, give different names, also across kinds. -/
theorem nextDefaultName_injective {kind kind' : LocalKind} {c c' : Nat} (hc : c < 2 ^ 64)
    (hc' : c' < 2 ^ 64)
    (h : (nextDefaultName kind.text c).1 = (nextDefaultName kind'.text c').1) : c = c' := by
  have hl := congrArg String.toList h
  simp only [nextDefaultName, Nat.mod_eq_of_lt hc, Nat.mod_eq_of_lt hc', String.toList_append] at hl
  -- the names of two kinds differ in their first character
  have hk : kind = kind' := by
    have hh := congrArg List.head? hl
    cases kind <;> cases kind' <;> simp [LocalKind.text] at hh ⊢
  rw [hk] at hl
  have hd : c.repr.toList = c'.repr.toList := List.append_cancel_left hl
  rw [Nat.toList_repr, Nat.toList_repr] at hd
  rw [← Nat.ofDigitChars_ten_toDigits (n := c), hd, Nat.ofDigitChars_ten_toDigits]

private theorem createLocalMediaTrack_ok {method kind : String}
    {validateSource : NapiValue → Except JsError Unit} {options : NapiValue} {c n : Nat}
    {name : String}
    (h : createLocalMediaTrack method kind validateSource options c = .ok (name, n)) :
    (Named options (some name) ∧ n = c) ∨
      (Named options none ∧ (name, n) = nextDefaultName kind c) := by
  simp only [createLocalMediaTrack, bind_eq_ok, resolveName_eq_ok] at h
  obtain ⟨given, hg, -, -, hm⟩ := h
  cases given with
  | some s =>
    have hs : createMediaTrack kind (nameOptions (some s)) c = .ok (s.utf8Value, c) := rfl
    rw [hs] at hm
    cases hm
    exact .inl ⟨⟨some s, hg, rfl⟩, rfl⟩
  | none =>
    have hs : createMediaTrack kind (nameOptions none) c = .ok (nextDefaultName kind c) := rfl
    rw [hs] at hm
    cases hm
    exact .inr ⟨⟨none, hg, rfl⟩, rfl⟩

/-- A track has the name it is given, or the next default one. -/
theorem createLocalTrack_ok {kind : LocalKind} {options : NapiValue} {own : String → Bool}
    {c n : Nat} {name : String} (h : kind.createLocalTrack options own c = .ok (name, n)) :
    (Named options (some name) ∧ n = c) ∨
      (Named options none ∧ (name, n) = nextDefaultName kind.text c) := by
  cases kind with
  | video =>
    simp only [LocalKind.createLocalTrack] at h
    exact createLocalMediaTrack_ok h
  | audio =>
    simp only [LocalKind.createLocalTrack] at h
    exact createLocalMediaTrack_ok h
  | data =>
    cases hr : createLocalDataTrack options own c with
    | error e =>
      simp only [LocalKind.createLocalTrack, hr] at h
      cases h
    | ok r =>
      simp only [LocalKind.createLocalTrack, hr] at h
      cases h
      obtain ⟨-, hn⟩ := name_of_created hr
      exact hn

namespace LocalParticipant

variable {p p' : LocalParticipant} {seeded : List LocalTrack}

/-- What is published after seeding was before, or is seeded. -/
theorem seed_published (h : p.seed seeded = .ok p') {n : String} {v : LocalTrack}
    (hv : p'.publishedTracks.get n = some v) : p.publishedTracks.get n = some v ∨ v ∈ seeded := by
  induction seeded generalizing p with
  | nil =>
    cases h
    exact .inl hv
  | cons track seeded ih =>
    cases hu : p.assertUniqueName track with
    | error error => simp [seed, hu, bind, Except.bind] at h
    | ok u =>
      simp only [seed, hu, bind, Except.bind] at h
      rcases ih h with hg | hm
      · rw [JsMap.get_set] at hg
        split at hg
        · cases hg
          exact .inr List.mem_cons_self
        · exact .inl hg
      · exact .inr (List.mem_cons_of_mem _ hm)

/-- A track is refused exactly for another one that is published under its name. -/
theorem assertUniqueName_eq_ok {track : LocalTrack} : p.assertUniqueName track = .ok () ↔
    ∀ v, p.publishedTracks.get track.name = some v → v = track := by
  constructor
  · exact assertUniqueName_ok
  · intro h
    unfold assertUniqueName
    split
    · next v hv => rw [if_pos (h v hv)]
    · rfl

/-- Tracks of different names are all seeded. -/
theorem seed_ok (h : ∀ t ∈ seeded, ∀ u, (u ∈ seeded ∨ p.publishedTracks.get u.name = some u) →
    t.name = u.name → t = u) (hp : ∀ n v, p.publishedTracks.get n = some v → v.name = n) :
    ∃ p', p.seed seeded = .ok p' := by
  induction seeded generalizing p with
  | nil => exact ⟨p, rfl⟩
  | cons track seeded ih =>
    have hu : p.assertUniqueName track = .ok () := by
      rw [assertUniqueName_eq_ok]
      intro v hv
      have hn := hp _ _ hv
      exact (h track List.mem_cons_self v (.inr (hn ▸ hv)) hn.symm).symm
    simp only [seed, hu, bind, Except.bind]
    apply ih
    · intro t ht u hu' hn
      apply h t (List.mem_cons_of_mem _ ht) u _ hn
      rcases hu' with hm | hg
      · exact .inl (List.mem_cons_of_mem _ hm)
      · rw [JsMap.get_set] at hg
        split at hg
        · cases hg
          exact .inl List.mem_cons_self
        · exact .inr hg
    · intro n v hv
      rw [JsMap.get_set] at hv
      split at hv
      · next he =>
        cases hv
        exact he.symm
      · exact hp n v hv

end LocalParticipant

/-- The tracks a Room has seeded or published are of a kind, and published under their names. -/
structure Room.Known (P : LocalTrack → Prop) (r : Room) : Prop where
  seeded : ∀ t ∈ r.seededTracks, P t
  published : ∀ p, r.participant = some p → ∀ n t, p.publishedTracks.get n = some t →
    t.name = n ∧ P t

namespace Room.Known

variable {P : LocalTrack → Prop} {r r' : Room} {ts ts' : Tracks}

/-- The participant has other tracks published, which are known too. -/
theorem withParticipant (h : r.Known P) {q : LocalParticipant}
    (hq : ∀ n t, q.publishedTracks.get n = some t → t.name = n ∧ P t)
    (hs : r'.seededTracks = r.seededTracks) (hp : r'.participant = some q) : r'.Known P := by
  constructor
  · rw [hs]
    exact h.seeded
  · intro p hp' n t ht
    rw [hp] at hp'
    cases hp'
    exact hq n t ht

/-- Tracks of one kind are of a wider one. -/
theorem mono {Q : LocalTrack → Prop} (h : r.Known P) (hq : ∀ t, P t → Q t) : r.Known Q := by
  refine ⟨fun t ht ↦ hq t (h.seeded t ht), fun p hp n t ht ↦ ?_⟩
  obtain ⟨hn, ht⟩ := h.published p hp n t ht
  exact ⟨hn, hq t ht⟩

/-- Nothing is left of a track that is deleted. -/
theorem delete (h : r.Known P) {p : LocalParticipant} (hp : r.participant = some p)
    (name n : String) (t : LocalTrack) (ht : (p.publishedTracks.delete name).get n = some t) :
    t.name = n ∧ P t := by
  rw [JsMap.get_delete] at ht
  split at ht
  · cases ht
  · exact h.published p hp n t ht

/-- A Room gets to know only the tracks it is passed. -/
theorem step (h : r.Known P) {a : RoomAct} (ha : ∀ track result, a = .publishTrack track result →
    P track) (hs : r.step ts a = some (r', ts')) : r'.Known P := by
  cases a with
  | localParticipant =>
    simp only [Room.step] at hs
    split at hs
    · next r'' hr =>
      cases hs
      simp only [Room.localParticipant] at hr
      split at hr
      · cases hr
        exact h
      · cases hp : LocalParticipant.seed ⟨.empty⟩ r.seededTracks with
        | error e => simp [hp, bind, Except.bind] at hr
        | ok p =>
          simp only [hp, bind, Except.bind] at hr
          split at hr
          · cases hr
          · cases hr
            refine h.withParticipant (q := p) (fun n t ht ↦ ?_) rfl rfl
            have hn := LocalParticipant.seed_named hp (by simp) n t ht
            rcases LocalParticipant.seed_published hp ht with he | hm
            · simp at he
            · exact ⟨hn, h.seeded t hm⟩
    · cases hs
      exact h
  | publishTrack track result =>
    simp only [Room.step] at hs
    split at hs
    · cases hs
    · next p hp =>
      split at hs
      · cases hs
      · split at hs
        · next v hv =>
          cases hs
          simp only [Room.publishTrack, bind_eq_ok] at hv
          obtain ⟨-, -, hv⟩ := hv
          split at hv
          · cases hv
            refine h.withParticipant (fun n t ht ↦ ?_) rfl rfl
            rw [JsMap.get_set] at ht
            split at ht
            · next hn =>
              cases ht
              exact ⟨hn.symm, ha _ _ rfl⟩
            · exact h.published p hp n t ht
          · cases hv
            exact h
        · cases hs
          exact h
  | unpublishTrack track result =>
    obtain ⟨p, hp, he⟩ := Option.map_eq_some_iff.mp hs
    cases he
    unfold Room.unpublishTrack
    split
    · exact h.withParticipant (h.delete hp _) rfl rfl
    · exact h
  | trackPublicationFailed trackName =>
    obtain ⟨p, hp, he⟩ := Option.map_eq_some_iff.mp hs
    cases he
    unfold Room.trackPublicationFailed
    split
    · exact h
    · next name _ =>
      have hd : Room.Known P { r with participant := some ⟨p.publishedTracks.delete name⟩ } :=
        h.withParticipant (h.delete hp name) rfl rfl
      dsimp only
      split
      · exact hd
      · split
        · exact ⟨hd.seeded, hd.published⟩
        · exact hd
  | dispose =>
    cases hs
    refine ⟨h.seeded, fun p hp n t ht ↦ ?_⟩
    obtain ⟨q, -, rfl⟩ := Option.map_eq_some_iff.mp hp
    simp at ht

end Room.Known

/-- Seeding a new Room makes its tracks known to it. -/
theorem Room.known_construct {P : LocalTrack → Prop} {seeded : List LocalTrack} {ts : Tracks}
    (h : ∀ t ∈ seeded, P t) : (Room.construct seeded ts).1.Known P :=
  ⟨h, fun _ hp ↦ by cases hp⟩

/-- The Rooms get to know only the tracks they are passed. -/
theorem Sdk.known_step {P : LocalTrack → Prop} {m : Nat} {s s' : Sdk} {a : SdkAct}
    (h : ∀ r ∈ s.rooms, r.Known P) (ha : ∀ t ∈ a.passed, P t) (hs : s.step m a = some s') :
    ∀ r ∈ s'.rooms, r.Known P := by
  cases a with
  | send | onSendProcessed | turn | destroy =>
    simp only [Sdk.step, Sdk.trackStep] at hs
    obtain ⟨t, -, rfl⟩ := Option.map_eq_some_iff.mp hs
    exact h
  | construct seeded =>
    cases hs
    intro r hr
    rcases List.mem_append.mp hr with hr | hr
    · exact h r hr
    · cases List.mem_singleton.mp hr
      exact Room.known_construct ha
  | room i b =>
    simp only [Sdk.step] at hs
    split at hs
    · cases hs
    · next r hr =>
      obtain ⟨x, hx, rfl⟩ := Option.map_eq_some_iff.mp hs
      intro r' hr'
      rcases List.mem_or_eq_of_mem_set hr' with hr' | rfl
      · exact h r' hr'
      · refine (h r (List.mem_of_getElem? hr)).step (fun track result hb ↦ ?_) hx
        subst hb
        exact ha track List.mem_cons_self

namespace Studio

/-- What every step keeps: tracks are told apart, each has the name it is given or the default one
of its counter, the counters of unnamed ones rise, and Rooms know only tracks that were made. -/
structure Inv (s : Studio) : Prop where
  ids : ∀ (i : Nat) (a : Made), s.made[i]? = some a → a.track.id = i
  below : ∀ a ∈ s.made, a.counter ≤ s.counter ∧ (Named a.options none → a.counter < s.counter)
  named : ∀ a ∈ s.made, Named a.options (some a.track.name) ∨
    Named a.options none ∧ a.track.name = (nextDefaultName a.track.kind.text a.counter).1
  rising : s.made.Pairwise fun a b ↦ Named a.options none → a.counter < b.counter
  rooms : ∀ r ∈ s.sdk.rooms, r.Known s.Has

/-- A factory keeps the invariant. -/
theorem inv_create {s : Studio} (h : Inv s) (kind : LocalKind) (options : NapiValue)
    (own : String → Bool) : Inv (s.create kind options own) := by
  unfold create
  split
  · exact h
  · next made hm =>
    obtain ⟨name, n⟩ := made
    have hc : s.counter ≤ n ∧ (Named options none → s.counter < n) := by
      rcases createLocalTrack_ok hm with ⟨hg, rfl⟩ | ⟨-, he⟩
      · exact ⟨le_rfl, fun hn ↦ absurd hn (hg.not_unnamed)⟩
      · have hn : n = s.counter + 1 := congrArg Prod.snd he
        omega
    refine ⟨fun i a ha ↦ ?_, ?_, ?_, ?_, fun r hr ↦ ?_⟩
    · rcases Parties.getElem?_concat ha with ⟨rfl, rfl⟩ | ha
      · rfl
      · exact h.ids i a ha
    · intro a ha
      rcases List.mem_append.mp ha with ha | ha
      · obtain ⟨hle, hlt⟩ := h.below a ha
        exact ⟨hle.trans hc.1, fun hn ↦ (hlt hn).trans_le hc.1⟩
      · cases List.mem_singleton.mp ha
        exact hc
    · intro a ha
      rcases List.mem_append.mp ha with ha | ha
      · exact h.named a ha
      · cases List.mem_singleton.mp ha
        rcases createLocalTrack_ok hm with ⟨hg, -⟩ | ⟨hn, he⟩
        · exact .inl hg
        · exact .inr ⟨hn, congrArg Prod.fst he⟩
    · rw [List.pairwise_append]
      refine ⟨h.rising, List.pairwise_singleton _ _, fun a ha b hb hn ↦ ?_⟩
      cases List.mem_singleton.mp hb
      exact (h.below a ha).2 hn
    · exact (h.rooms r hr).mono fun t ⟨a, ha, he⟩ ↦ ⟨a, List.mem_append_left _ ha, he⟩

/-- Every step keeps the invariant. -/
theorem inv_step (m : Nat) {s s' : Studio} {a : StudioAct} (h : Inv s)
    (hs : s.step m a = some s') : Inv s' := by
  cases a with
  | create kind options own =>
    cases hs
    exact inv_create h kind options own
  | use a =>
    simp only [step] at hs
    split at hs
    · next hp =>
      obtain ⟨sdk, hk, rfl⟩ := Option.map_eq_some_iff.mp hs
      exact ⟨h.ids, h.below, h.named, h.rising, Sdk.known_step h.rooms hp hk⟩
    · cases hs

/-- The invariant holds of every reachable state. -/
theorem inv_of_reachable {m : Nat} {s : Studio} (h : (machine m).Reachable s) : Inv s := by
  apply h.invariant
  · refine ⟨?_, ?_, ?_, .nil, ?_⟩ <;> simp [machine, Sdk.machine]
  · exact fun _ _ _ hi hs ↦ inv_step m hi hs

/-- Two unnamed tracks of one name are one, before the counter has gone round. -/
theorem Inv.distinct {s : Studio} (h : Inv s) (hc : s.counter ≤ 2 ^ 64) {a b : Made}
    (ha : a ∈ s.made) (hb : b ∈ s.made) (hua : Named a.options none) (hub : Named b.options none)
    (hn : a.track.name = b.track.name) : a = b := by
  have hcounter : a.counter = b.counter := by
    obtain hg | ⟨-, ha'⟩ := h.named a ha
    · exact absurd hua hg.not_unnamed
    obtain hg | ⟨-, hb'⟩ := h.named b hb
    · exact absurd hub hg.not_unnamed
    rw [ha', hb'] at hn
    exact nextDefaultName_injective (((h.below a ha).2 hua).trans_le hc)
      (((h.below b hb).2 hub).trans_le hc) hn
  obtain ⟨i, hi, rfl⟩ := List.getElem_of_mem ha
  obtain ⟨j, hj, rfl⟩ := List.getElem_of_mem hb
  have hr := List.pairwise_iff_getElem.mp h.rising
  -- the counter of the one made first would be the smaller
  have hij : i = j := by
    rcases Nat.lt_trichotomy i j with hlt | he | hlt
    · exact absurd hcounter (hr i j hi hj hlt hua).ne
    · exact he
    · exact absurd hcounter (hr j i hj hi hlt hub).ne'
  subst hij
  rfl

/-- In every run, until the counter has gone round: two tracks that were not given a name have
different names; a Room refuses an unnamed track only for another that was given just its name; and
Rooms can be seeded with any unnamed tracks. -/
theorem default_names_distinct (m : Nat) (s : Studio) (h : (machine m).Reachable s)
    (hc : s.counter ≤ 2 ^ 64) :
    (∀ (i j : Nat) (a b : Made), s.made[i]? = some a → s.made[j]? = some b → i ≠ j →
      a.track.name = b.track.name → ¬(Named a.options none ∧ Named b.options none)) ∧
    (∀ r ∈ s.sdk.rooms, ∀ p, r.participant = some p → ∀ a ∈ s.made, Named a.options none →
      p.assertUniqueName a.track = .ok () ∨ ∃ b ∈ s.made,
        p.publishedTracks.get a.track.name = some b.track ∧ Named b.options (some a.track.name)) ∧
    ∀ tracks : List LocalTrack,
      (∀ t ∈ tracks, ∃ a ∈ s.made, a.track = t ∧ Named a.options none) →
        ∃ p, LocalParticipant.seed ⟨.empty⟩ tracks = .ok p := by
  have hi := inv_of_reachable h
  refine ⟨?_, ?_, ?_⟩
  · rintro i j a b ha hb hij hn ⟨hua, hub⟩
    have hab := hi.distinct hc (List.mem_of_getElem? ha) (List.mem_of_getElem? hb) hua hub hn
    have hid := hi.ids i a ha
    rw [hab, hi.ids j b hb] at hid
    exact hij hid.symm
  · intro r hr p hp a ha hua
    rw [LocalParticipant.assertUniqueName_eq_ok]
    cases hg : p.publishedTracks.get a.track.name with
    | none =>
      left
      rintro v ⟨⟩
    | some v =>
      obtain ⟨hv, b, hb, rfl⟩ := (hi.rooms r hr).published p hp _ v hg
      rcases hi.named b hb with hnb | ⟨hub, -⟩
      · right
        rw [hv] at hnb
        exact ⟨b, hb, rfl, hnb⟩
      · left
        rintro v ⟨⟩
        rw [hi.distinct hc hb ha hub hua hv]
  · intro tracks ht
    apply LocalParticipant.seed_ok
    · intro t htm u hu hn
      rcases hu with hu | hu
      · obtain ⟨a, ha, rfl, hua⟩ := ht t htm
        obtain ⟨b, hb, rfl, hub⟩ := ht u hu
        rw [hi.distinct hc ha hb hua hub hn]
      · simp at hu
    · simp

/-- A video track, a data track and an audio track that is given the name the first one got. -/
def naming : List StudioAct :=
  [.create .video .undefined fun _ ↦ false, .create .data .undefined fun _ ↦ false,
    .create .audio (.string "video-0") fun _ ↦ false]

/-- The first two can be published together. -/
theorem default_names_distinct_naming : ∃ s, (machine 0).Reachable s ∧
    s.made.map (·.track) = [⟨0, .video, "video-0"⟩, ⟨1, .data, "data-1"⟩, ⟨2, .audio, "video-0"⟩] ∧
    ∃ p, LocalParticipant.seed ⟨.empty⟩ [⟨0, .video, "video-0"⟩, ⟨1, .data, "data-1"⟩] = .ok p := by
  have hr : (machine 0).Reachable _ := ⟨naming, rfl⟩
  refine ⟨_, hr, by decide, ?_⟩
  apply (default_names_distinct 0 _ hr (by decide)).2.2
  intro t ht
  rcases List.mem_pair.mp ht with rfl | rfl
  · exact ⟨_, List.mem_cons_self, rfl, none, .inl rfl, rfl⟩
  · exact ⟨_, List.mem_cons_of_mem _ List.mem_cons_self, rfl, none, .inl rfl, rfl⟩

end Studio

end VideoNode.Local
