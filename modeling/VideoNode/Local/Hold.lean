import VideoNode.Common.Delivery
import VideoNode.Local.Rooms

/-!
# What keeps the process alive

Every context of the module beside the Rooms and the data tracks: the two of each native Room,
those of a native `connect` that threw, and those of participants, messages and sinks. A Room
refs its two once its native `connect` has returned, a data track refs its own while a send is
pending, and nothing else refs any.
-/

namespace VideoNode.Local

open VideoNode.Common VideoNode.Lts

variable {F : Type}

namespace Room

/-- Publishing does not end a Room. -/
theorem publishTrack_disposed {r : Room} {p : LocalParticipant} {ts : Tracks} {track : LocalTrack}
    {result : Bool} {v : Room × Tracks × Bool} (h : r.publishTrack p ts track result = .ok v) :
    v.1.disposed = r.disposed := by
  simp only [publishTrack] at h
  cases hu : p.assertUniqueName track with
  | error e => simp [hu, bind, Except.bind] at h
  | ok _ =>
    simp only [hu, bind, Except.bind] at h
    split at h <;> cases h <;> rfl

/-- Unpublishing does not end a Room. -/
theorem unpublishTrack_disposed (r : Room) (p : LocalParticipant) (ts : Tracks)
    (track : LocalTrack) (result : Bool) :
    (r.unpublishTrack p ts track result).1.disposed = r.disposed := by
  unfold unpublishTrack
  split <;> rfl

/-- A failed publication does not end a Room. -/
theorem trackPublicationFailed_disposed (r : Room) (p : LocalParticipant) (ts : Tracks)
    (trackName : Option String) :
    (r.trackPublicationFailed p ts trackName).1.disposed = r.disposed := by
  unfold trackPublicationFailed
  split
  · rfl
  · next name _ =>
    cases hg : p.publishedTracks.get name with
    | none => rfl
    | some track =>
      simp only
      split <;> rfl

/-- `dispose()` ends a Room, and nothing else does. -/
theorem step_disposed {r r' : Room} {ts ts' : Tracks} {a : RoomAct}
    (h : r.step ts a = some (r', ts')) :
    r'.disposed = true ↔ a = .dispose ∨ r.disposed = true := by
  cases a with
  | localParticipant => simp [(localParticipant_step h).2.1]
  | publishTrack track result =>
    simp only [step] at h
    split at h
    · cases h
    · split at h
      · cases h
      · split at h
        · next v hv =>
          cases h
          simp [publishTrack_disposed hv]
        · cases h
          simp
  | unpublishTrack track result =>
    obtain ⟨p, -, hp⟩ := Option.map_eq_some_iff.mp h
    cases hp
    simp [unpublishTrack_disposed]
  | trackPublicationFailed trackName =>
    obtain ⟨p, -, hp⟩ := Option.map_eq_some_iff.mp h
    cases hp
    simp [trackPublicationFailed_disposed]
  | dispose =>
    cases h
    exact ⟨fun _ ↦ .inl rfl, fun _ ↦ rfl⟩

end Room

/-- A context, and the Room it belongs to if a Room closes it. -/
structure Owned (F : Type) where
  owner : Option Nat
  context : Traffic F

/-- The module in one process: Rooms, tracks, and every context but those of the tracks. -/
structure Process (F : Type) where
  sdk : Sdk
  contexts : List (Owned F)

/-- What happens in the process. -/
inductive ProcessAct (F : Type) where
  | sdk (a : SdkAct)
  /-- `RoomWrap::Connect` throws after it made its contexts. -/
  | connectThrows
  /-- A participant, a remote data track or a sink makes its context. -/
  | newContext (maxQueueDepth : Nat)
  | context (k : Nat) (a : TrafficAct F)

namespace Owned

/-- The contexts `RoomWrap::Connect` makes, the observer's and its own, and refs when the native
`connect` has returned a Room; `src/video/room_wrap.cpp:492–493,535–539`. -/
def connect (owner : Option Nat) : List (Owned F) :=
  let made : Loop F := .create 0
  let kept := if owner.isSome then { made with ctx := made.ctx.ref } else made
  List.replicate 2 ⟨owner, ⟨kept, [], []⟩⟩

-- `RoomObserverWrap::close` is `src/video/room_observer_wrap.cpp:23–53`.
/-- `RoomWrap::Dispose` on one context, when Room `i` has it;
`src/video/room_wrap.cpp:711–729`. -/
def dispose (i : Nat) (c : Owned F) : Owned F :=
  if c.owner = some i then
    { c with context := { c.context with
      loop := { c.context.loop with ctx := c.context.loop.ctx.close } } }
  else c

-- The callback an undisposed Room keeps refers to its wrapper, which is therefore not collected.
/-- A Room's contexts are closed by its `dispose()` and destroyed only after that. -/
def may (c : Owned F) : TrafficAct F → Bool
  | .dispatch _ | .turn _ => true
  | .close | .destroy => c.owner.isNone || c.context.loop.ctx.closed

end Owned

namespace Process

/-- What the native side of a Room step does to the contexts. -/
def contextsAfter (s : Process F) : SdkAct → List (Owned F)
  | .construct _ => s.contexts ++ Owned.connect (some s.sdk.rooms.length)
  | .room i .dispose => s.contexts.map (Owned.dispose i)
  | _ => s.contexts

/-- One step of the process. -/
def step (kMaxMessageSize : Nat) (s : Process F) : ProcessAct F → Option (Process F)
  | .sdk a => (s.sdk.step kMaxMessageSize a).map fun sdk ↦ ⟨sdk, s.contextsAfter a⟩
  | .connectThrows => some { s with contexts := s.contexts ++ Owned.connect none }
  | .newContext maxQueueDepth =>
    some { s with contexts := s.contexts ++ [⟨none, ⟨.create maxQueueDepth, [], []⟩⟩] }
  | .context k a =>
    match s.contexts[k]? with
    | none => none
    | some c =>
      if c.may a then
        (c.context.step a).map fun w ↦
          { s with contexts := s.contexts.set k { c with context := w } }
      else none

/-- Fresh tracks, no Room and no context yet, and everything that can happen. -/
def machine (F : Type) (kMaxMessageSize : Nat) : Machine (Process F) (ProcessAct F) where
  init := ⟨(Sdk.machine kMaxMessageSize).init, []⟩
  step := step kMaxMessageSize

/-- Some handle of the module keeps the event loop running. -/
def Held (s : Process F) : Prop :=
  (∃ c ∈ s.contexts, c.context.loop.ctx.holds = true) ∨
    ∃ t, (s.sdk.tracks t).wrap.loop.ctx.holds = true

/-- Whether the Room a context belongs to has not been disposed. -/
def owes (rooms : List Room) (owner : Option Nat) : Bool :=
  (owner.bind (rooms[·]?)).any fun r ↦ !r.disposed

end Process

/-- The members agree, and the handle holds the process or does not. -/
structure Keeps (w : Traffic F) (held : Bool) : Prop where
  wf : w.loop.ctx.WF
  holds : w.loop.ctx.holds = held

namespace Keeps

variable {w w' : Traffic F} {held : Bool}

/-- A new context does not hold the process. -/
theorem create (maxQueueDepth : Nat) : Keeps (F := F) ⟨.create maxQueueDepth, [], []⟩ false :=
  ⟨AsyncContext.wf_create maxQueueDepth, rfl⟩

/-- A closed context does not hold the process. -/
theorem close (h : Keeps w held) :
    Keeps { w with loop := { w.loop with ctx := w.loop.ctx.close } } false :=
  ⟨AsyncContext.wf_close h.wf, AsyncContext.holds_close h.wf⟩

/-- A context that holds the process is open. -/
theorem open_of_held (h : Keeps w true) : w.loop.ctx.closed = false := by
  cases hc : w.loop.ctx.closed with
  | false => rfl
  | true =>
    have hcl := AsyncContext.holds_close h.wf
    rw [AsyncContext.close_of_closed hc, h.holds] at hcl
    exact hcl

/-- No thread's use of a context changes the hold; closing it only ends one. -/
theorem step {a : TrafficAct F} (h : Keeps w held) (hs : w.step a = some w')
    (ha : a = .close ∨ a = .destroy → held = false) : Keeps w' held := by
  cases Traffic.stepped hs with
  | dispatch =>
    exact ⟨AsyncContext.wf_dispatch h.wf, (AsyncContext.holds_dispatch _ _).trans h.holds⟩
  | turn hl => exact ⟨Loop.wf_turn hl h.wf, (Loop.holds_turn hl).trans h.holds⟩
  | close =>
    rw [ha (.inl rfl)]
    exact h.close
  | destroy =>
    rw [ha (.inr rfl)]
    refine ⟨AsyncContext.wf_destroy h.wf, ?_⟩
    simp only [AsyncContext.destroy_eq]
    exact AsyncContext.holds_close h.wf

end Keeps

namespace Process

theorem owes_none (rooms : List Room) : owes rooms none = false := rfl

/-- A Room's contexts owe the hold until it is disposed. -/
theorem owes_some {rooms : List Room} {i : Nat} {r : Room} (h : rooms[i]? = some r) :
    owes rooms (some i) = !r.disposed := by
  simp [owes, h]

/-- A step of one Room is seen by its own contexts alone. -/
theorem owes_set {rooms : List Room} {i : Nat} {r : Room} (h : rooms[i]? = some r) (r' : Room)
    (owner : Option Nat) : owes (rooms.set i r') owner =
      if owner = some i then !r'.disposed else owes rooms owner := by
  cases owner with
  | none => rfl
  | some j =>
    by_cases hj : j = i
    · subst hj
      rw [owes_some (Parties.getElem?_set_self h), if_pos rfl]
    · rw [if_neg (by simpa using hj)]
      simp [owes, List.getElem?_set_ne (Ne.symm hj)]

/-- A new Room is not seen by the contexts there are. -/
theorem owes_concat {rooms : List Room} (r : Room) {owner : Option Nat}
    (h : ∀ i, owner = some i → i < rooms.length) :
    owes (rooms ++ [r]) owner = owes rooms owner := by
  cases owner with
  | none => rfl
  | some i => simp [owes, List.getElem?_append_left (h i rfl)]

/-- What every step keeps: each context holds the process as it owes it, a context's Room is
there, and every Room has a context. -/
structure Inv (m : Nat) (s : Process F) : Prop where
  sdk : s.sdk.Inv m
  keeps : ∀ c ∈ s.contexts, Keeps c.context (owes s.sdk.rooms c.owner)
  owner : ∀ c ∈ s.contexts, ∀ i, c.owner = some i → i < s.sdk.rooms.length
  owned : ∀ i, i < s.sdk.rooms.length → ∃ c ∈ s.contexts, c.owner = some i

variable {m : Nat} {s s' : Process F}

private theorem inv_append (h : Inv m s) {made : List (Owned F)}
    (hm : ∀ c ∈ made, c.owner = none ∧ Keeps c.context false) :
    Inv m { s with contexts := s.contexts ++ made } := by
  constructor
  · exact h.sdk
  · intro c hc
    rcases List.mem_append.mp hc with hc | hc
    · exact h.keeps c hc
    · obtain ⟨ho, hk⟩ := hm c hc
      rw [ho]
      exact hk
  · intro c hc i hi
    rcases List.mem_append.mp hc with hc | hc
    · exact h.owner c hc i hi
    · rw [(hm c hc).1] at hi
      cases hi
  · intro i hi
    obtain ⟨c, hc, ho⟩ := h.owned i hi
    exact ⟨c, List.mem_append_left _ hc, ho⟩

private theorem inv_context (h : Inv m s) {k : Nat} {c : Owned F} {a : TrafficAct F}
    {w : Traffic F} (hc : s.contexts[k]? = some c) (ha : c.may a = true)
    (hw : c.context.step a = some w) :
    Inv m { s with contexts := s.contexts.set k { c with context := w } } := by
  have hmem := List.mem_of_getElem? hc
  have hk := h.keeps c hmem
  -- What may be closed from here is nobody's, or closed already, and owes nothing.
  have howes : a = .close ∨ a = .destroy → owes s.sdk.rooms c.owner = false := by
    intro ht
    have hm : c.owner.isNone || c.context.loop.ctx.closed := by
      rcases ht with rfl | rfl <;> exact ha
    rcases Bool.or_eq_true_iff.mp hm with ho | hcl
    · rw [Option.isNone_iff_eq_none.mp ho]
      exact owes_none _
    · by_contra ho
      rw [Bool.not_eq_false] at ho
      rw [ho] at hk
      rw [hk.open_of_held] at hcl
      cases hcl
  constructor
  · exact h.sdk
  · intro d hd
    rcases Parties.mem_of_mem_set hd with rfl | hd
    · exact hk.step hw howes
    · exact h.keeps d hd
  · intro d hd
    rcases Parties.mem_of_mem_set hd with rfl | hd
    · exact h.owner c hmem
    · exact h.owner d hd
  · intro i hi
    obtain ⟨d, hd, ho⟩ := h.owned i hi
    rcases Parties.eq_or_mem_set (b := { c with context := w }) hc hd with rfl | hd
    · exact ⟨_, List.mem_of_getElem? (Parties.getElem?_set_self hc), ho⟩
    · exact ⟨d, hd, ho⟩

private theorem inv_rooms (h : Inv m s) {sdk : Sdk} (hi : sdk.Inv m)
    (hl : sdk.rooms.length = s.sdk.rooms.length)
    (ho : ∀ owner, owes sdk.rooms owner = owes s.sdk.rooms owner) :
    Inv m { s with sdk := sdk } := by
  constructor
  · exact hi
  · intro c hc
    rw [ho]
    exact h.keeps c hc
  · intro c hc i hci
    rw [hl]
    exact h.owner c hc i hci
  · intro i hlt
    exact h.owned i (hl ▸ hlt)

private theorem inv_construct (h : Inv m s) {sdk : Sdk} (hi : sdk.Inv m) {r : Room}
    (hr : sdk.rooms = s.sdk.rooms ++ [r]) (hd : r.disposed = false) :
    Inv m ⟨sdk, s.contexts ++ Owned.connect (some s.sdk.rooms.length)⟩ := by
  have hmade : ∀ c ∈ Owned.connect (F := F) (some s.sdk.rooms.length),
      c.owner = some s.sdk.rooms.length ∧ Keeps c.context true := by
    intro c hc
    rw [Owned.connect, List.mem_replicate] at hc
    obtain ⟨-, rfl⟩ := hc
    exact ⟨rfl, AsyncContext.wf_ref (AsyncContext.wf_create 0), AsyncContext.holds_ref _⟩
  constructor
  · exact hi
  · intro c hc
    rw [hr]
    rcases List.mem_append.mp hc with hc | hc
    · rw [owes_concat r (h.owner c hc)]
      exact h.keeps c hc
    · obtain ⟨ho, hk⟩ := hmade c hc
      rw [ho, owes_some (r := r) (by simp), hd]
      exact hk
  · intro c hc i hci
    rw [hr, List.length_append, List.length_singleton]
    rcases List.mem_append.mp hc with hc | hc
    · exact Nat.lt_succ_of_lt (h.owner c hc i hci)
    · rw [(hmade c hc).1] at hci
      cases hci
      exact Nat.lt_succ_self _
  · intro i hlt
    rw [hr, List.length_append, List.length_singleton] at hlt
    rcases Nat.lt_succ_iff_lt_or_eq.mp hlt with hlt | rfl
    · obtain ⟨c, hc, ho⟩ := h.owned i hlt
      exact ⟨c, List.mem_append_left _ hc, ho⟩
    · exact ⟨_, List.mem_append_right _ (List.mem_replicate.mpr ⟨by decide, rfl⟩), rfl⟩

private theorem inv_dispose (h : Inv m s) {sdk : Sdk} (hi : sdk.Inv m) {i : Nat} {r r' : Room}
    (hr : s.sdk.rooms[i]? = some r) (hs : sdk.rooms = s.sdk.rooms.set i r')
    (hd : r'.disposed = true) : Inv m ⟨sdk, s.contexts.map (Owned.dispose i)⟩ := by
  have howner : ∀ c : Owned F, (c.dispose i).owner = c.owner := by
    intro c
    unfold Owned.dispose
    split <;> rfl
  constructor
  · exact hi
  · intro c hc
    obtain ⟨d, hdm, rfl⟩ := List.mem_map.mp hc
    rw [howner, hs, owes_set hr, hd]
    unfold Owned.dispose
    split
    · exact (h.keeps d hdm).close
    · exact h.keeps d hdm
  · intro c hc j hj
    obtain ⟨d, hdm, rfl⟩ := List.mem_map.mp hc
    rw [howner] at hj
    rw [hs, List.length_set]
    exact h.owner d hdm j hj
  · intro j hj
    rw [hs, List.length_set] at hj
    obtain ⟨d, hdm, ho⟩ := h.owned j hj
    exact ⟨d.dispose i, List.mem_map_of_mem hdm, (howner d).trans ho⟩

private theorem inv_sdk (h : Inv m s) {a : SdkAct} {sdk : Sdk} (hs : s.sdk.step m a = some sdk) :
    Inv m ⟨sdk, s.contextsAfter a⟩ := by
  have hi := Sdk.inv_step h.sdk hs
  have htrack : ∀ track b, s.sdk.trackStep m track b = some sdk → Inv m { s with sdk := sdk } := by
    intro track b ht
    obtain ⟨t, -, rfl⟩ := Option.map_eq_some_iff.mp ht
    exact inv_rooms h hi rfl fun _ ↦ rfl
  cases a with
  | send track args id => exact htrack track _ hs
  | onSendProcessed track r => exact htrack track _ hs
  | turn track t => exact htrack track _ hs
  | destroy track => exact htrack track _ hs
  | construct seeded =>
    cases hs
    exact inv_construct h hi rfl rfl
  | room i b =>
    simp only [Sdk.step] at hs
    split at hs
    · cases hs
    · next r hr =>
      obtain ⟨⟨r', ts'⟩, hx, rfl⟩ := Option.map_eq_some_iff.mp hs
      have hd := Room.step_disposed hx
      by_cases hb : b = .dispose
      · subst hb
        exact inv_dispose h hi hr rfl (hd.mpr (.inl rfl))
      · have hsame : r'.disposed = r.disposed := by
          rw [Bool.eq_iff_iff, hd]
          exact or_iff_right hb
        have hkept : s.contextsAfter (.room i b) = s.contexts := by
          cases b with
          | dispose => exact absurd rfl hb
          | _ => rfl
        rw [hkept]
        apply inv_rooms h hi
        · simp [Sdk.putRoom]
        · intro owner
          simp only [Sdk.putRoom, owes_set hr, hsame]
          split
          · next ho => rw [ho, owes_some hr]
          · rfl

/-- Every step keeps the invariant. -/
theorem inv_step {a : ProcessAct F} (h : Inv m s) (hs : s.step m a = some s') : Inv m s' := by
  cases a with
  | sdk a =>
    obtain ⟨sdk, ha, rfl⟩ := Option.map_eq_some_iff.mp hs
    exact inv_sdk h ha
  | connectThrows =>
    cases hs
    apply inv_append h
    intro c hc
    rw [Owned.connect, List.mem_replicate] at hc
    obtain ⟨-, rfl⟩ := hc
    exact ⟨rfl, Keeps.create 0⟩
  | newContext maxQueueDepth =>
    cases hs
    apply inv_append h
    intro c hc
    rw [List.mem_singleton] at hc
    subst hc
    exact ⟨rfl, Keeps.create maxQueueDepth⟩
  | context k a =>
    simp only [step] at hs
    split at hs
    · cases hs
    · next c hc =>
      split at hs
      · next ha =>
        obtain ⟨w, hw, rfl⟩ := Option.map_eq_some_iff.mp hs
        exact inv_context h hc ha hw
      · cases hs

/-- The invariant holds in every interleaving. -/
theorem inv_of_reachable (h : (machine F m).Reachable s) : Inv m s := by
  apply h.invariant
  · constructor
    · exact Sdk.inv_of_reachable (Machine.reachable_init _)
    · intro c hc
      cases hc
    · intro c hc
      cases hc
    · intro i hi
      cases hi
  · exact fun _ _ _ hi hs ↦ inv_step hi hs

/-- A track that holds the process is in the map of a Room that was not disposed. -/
theorem Inv.room_of_track (h : Inv m s) {t : LocalTrack}
    (ht : (s.sdk.tracks t).wrap.loop.ctx.holds = true) :
    ∃ r ∈ s.sdk.rooms, r.disposed = false ∧ (r.dataTracks.get t).isSome := by
  have hi := TrackSends.inv_of_reachable (h.sdk.track t)
  have hp : (s.sdk.tracks t).wrap.pendingSends ≠ [] := by
    rw [hi.hold] at ht
    simpa using ht
  obtain ⟨r, hr, hrt⟩ := h.sdk.kept t hp
  refine ⟨r, hr, ?_, hrt⟩
  cases hd : r.disposed with
  | false => rfl
  | true =>
    rw [h.sdk.disposed r hr hd] at hrt
    cases hrt

/-- What keeps the process alive, over every interleaving of Rooms, tracks, reports and drains
of any contexts: the module does exactly while some Room whose native `connect` returned has not
been disposed. A `connect` that threw, a participant, a receiver or a sink never does, and a
pending send does so only beside a Room that has its track. -/
theorem held_iff (m : Nat) (s : Process F) (h : (machine F m).Reachable s) :
    (s.Held ↔ ∃ r ∈ s.sdk.rooms, r.disposed = false) ∧
      (∀ c ∈ s.contexts, c.owner = none → c.context.loop.ctx.holds = false) ∧
      ∀ t, (s.sdk.tracks t).wrap.loop.ctx.holds = true →
        ∃ r ∈ s.sdk.rooms, r.disposed = false ∧ (r.dataTracks.get t).isSome := by
  have hi := inv_of_reachable h
  refine ⟨⟨?_, ?_⟩, ?_, fun t ↦ hi.room_of_track⟩
  · rintro (⟨c, hc, hh⟩ | ⟨t, ht⟩)
    · rw [(hi.keeps c hc).holds] at hh
      cases ho : c.owner with
      | none =>
        rw [ho] at hh
        cases hh
      | some i =>
        have hr := List.getElem?_eq_getElem (hi.owner c hc i ho)
        rw [ho, owes_some hr] at hh
        exact ⟨_, List.getElem_mem _, by simpa using hh⟩
    · obtain ⟨r, hr, hd, -⟩ := hi.room_of_track ht
      exact ⟨r, hr, hd⟩
  · rintro ⟨r, hr, hd⟩
    obtain ⟨i, hi'⟩ := List.mem_iff_getElem?.mp hr
    obtain ⟨c, hc, ho⟩ := hi.owned i (List.getElem?_eq_some_iff.mp hi').1
    refine .inl ⟨c, hc, ?_⟩
    rw [(hi.keeps c hc).holds, ho, owes_some hi', hd]
    rfl
  · intro c hc ho
    rw [(hi.keeps c hc).holds, ho]
    rfl

private def heldTrack : LocalTrack := ⟨0, .data, "data"⟩

-- A `connect` that threw, a Room with a send pending, a sink with a frame waiting, and then the
-- Room's end.
private def heldRun : List (ProcessAct Nat) :=
  [.connectThrows, .sdk (.construct [heldTrack]), .sdk (.send heldTrack [.buffer [1]] 7),
    .newContext 5, .context 4 (.dispatch 1)]

/-- The Room holds the process until it is disposed, a waiting frame never. -/
theorem held_iff_disposed : ∃ s s' : Process Nat, (machine Nat 65536).Reachable s ∧ s.Held ∧
    step 65536 s (.sdk (.room 0 .dispose)) = some s' ∧ ¬ s'.Held ∧
    s'.contexts.map (fun c ↦ c.context.loop.ctx.queue) = [[], [], [], [], [1]] := by
  have hr : (machine Nat 65536).Reachable _ := ⟨heldRun, rfl⟩
  have hr' : (machine Nat 65536).Reachable _ := ⟨heldRun ++ [.sdk (.room 0 .dispose)], rfl⟩
  refine ⟨_, _, hr, (held_iff 65536 _ hr).1.mpr ⟨_, .head _, rfl⟩, rfl, ?_, rfl⟩
  rw [(held_iff 65536 _ hr').1]
  rintro ⟨r, hm, hd⟩
  cases hm with
  | head => cases hd
  | tail _ hm => cases hm

end Process

end VideoNode.Local
