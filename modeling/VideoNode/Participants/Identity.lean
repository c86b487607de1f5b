import VideoNode.Participants.Emits

/-!
# One wrapper for each participant

The wrappers in the cache are those that were not disposed, and each re-emits every track event
once. So as long as nobody comes back under the SID of a participant that has left, all mentions
of a SID are of one wrapper.
-/

namespace VideoNode.Participants

open VideoNode.Js VideoNode.Lts VideoNode.Tracks

namespace Entry

/-- The participant an event of the native layer is about. -/
def sid : Entry → Option String
  | .mention k _ | .raise k _ _ _ | .left k => some k
  | .emit _ _ => none

/-- What the Room owes for an emit on a participant. -/
def owed : Entry → Option (TrackEvent × List Arg)
  | .raise _ p (.track e) args => some (e, args ++ [.participant p])
  | .raise _ _ .networkQualityLevelChanged _ | .mention _ _ | .emit _ _ | .left _ => none

/-- The track events among the emits on the Room. -/
def bubbled : Entry → Option (TrackEvent × List Arg)
  | .emit (.track e) args => some (e, args)
  | .emit (.presence _) _ | .emit .disconnected _ | .emit (.plain _) _ | .mention _ _
  | .raise _ _ _ _ | .left _ => none

/-- Nobody who left is mentioned again. -/
def NoReturn (log : List Entry) : Prop :=
  ∀ l l' k, log = l ++ .left k :: l' → ∀ x ∈ l', x.sid ≠ some k

private theorem noReturn_cons {x : Entry} {l : List Entry} :
    NoReturn (x :: l) ↔ (∀ k, x = .left k → ∀ y ∈ l, y.sid ≠ some k) ∧ NoReturn l := by
  constructor
  · intro h
    refine ⟨fun k hk ↦ h [] l k (by rw [hk]; rfl), fun a a' k ha ↦ h (x :: a) a' k ?_⟩
    rw [ha, List.cons_append]
  · rintro ⟨hx, hl⟩ a a' k ha
    cases a with
    | nil =>
      obtain ⟨rfl, rfl⟩ := List.cons.inj ha
      exact hx k rfl
    | cons y a =>
      obtain ⟨-, rfl⟩ := List.cons.inj ha
      exact hl a a' k rfl

/-- Whether somebody came back can be read off the log. -/
instance decidableNoReturn : ∀ log : List Entry, Decidable (NoReturn log)
  | [] => isTrue fun l l' k h ↦ by cases l <;> cases h
  | .left k :: l =>
    have := decidableNoReturn l
    decidable_of_iff ((∀ y ∈ l, y.sid ≠ some k) ∧ NoReturn l) (by simp [noReturn_cons])
  | .mention k p :: l =>
    have := decidableNoReturn l
    decidable_of_iff (NoReturn l) (by simp [noReturn_cons])
  | .raise k p e args :: l =>
    have := decidableNoReturn l
    decidable_of_iff (NoReturn l) (by simp [noReturn_cons])
  | .emit e args :: l =>
    have := decidableNoReturn l
    decidable_of_iff (NoReturn l) (by simp [noReturn_cons])

private theorem noReturn_prefix {l m : List Entry} (hm : l <+: m) (h : NoReturn m) :
    NoReturn l := by
  obtain ⟨t, rfl⟩ := hm
  intro a a' k ha x hx
  apply h a (a' ++ t) k _ x (List.mem_append_left _ hx)
  rw [ha, List.append_assoc, List.cons_append]

private theorem not_left_of_noReturn {l l' : List Entry} {x : Entry} {k : String}
    (h : NoReturn (l ++ x :: l')) (hk : x.sid = some k) : .left k ∉ l := by
  intro hm
  obtain ⟨a, a', rfl⟩ := List.append_of_mem hm
  exact h a (a' ++ x :: l') k (by simp) x (by simp) hk

end Entry

/-- Every track event is re-emitted by one listener, and that was added with `on`. -/
def Bubbling (m : Emitter ParticipantEvent ParticipantListener) : Prop :=
  ∀ e : TrackEvent, (m.registrations.filter fun r ↦
    decide (r.event = .track e ∧ r.listener = .bubble)) = [⟨.track e, .bubble, none⟩]

namespace Bubbling

variable {m : Emitter ParticipantEvent ParticipantListener} {e : ParticipantEvent} {n : Nat}

/-- A new participant. -/
theorem new : Bubbling Room.bubbleTrackEvents := by
  intro e
  cases e <;> rfl

private theorem filter_eraseP {A : Type} {p q : A → Bool} (h : ∀ x, p x = true → q x = false)
    (l : List A) : (l.eraseP p).filter q = l.filter q := by
  induction l with
  | nil => rfl
  | cons x l ih =>
    by_cases hx : p x = true
    · rw [List.eraseP_cons_of_pos hx, List.filter_cons_of_neg (by simp [h x hx])]
    · rw [List.eraseP_cons_of_neg hx, List.filter_cons, List.filter_cons, ih]

/-- Listeners of the application are added. -/
theorem add (h : Bubbling m) (how : Adding) : Bubbling (how.add m e (.application n)) := by
  intro e'
  cases how with
  | on | once =>
    simp only [Adding.add, Emitter.registrations_on, Emitter.registrations_once,
      List.filter_append, h e']
    simp
  | prependListener =>
    simp only [Adding.add, Emitter.prependListener]
    rw [List.filter_cons_of_neg (by simp)]
    exact h e'
  | prependOnceListener =>
    simp only [Adding.add, Emitter.prependOnceListener]
    rw [List.filter_cons_of_neg (by simp)]
    exact h e'

/-- Listeners of the application are removed. -/
theorem remove (h : Bubbling m) : Bubbling (m.removeListener e (.application n)) := by
  intro e'
  simp only [Emitter.removeListener]
  rw [List.filter_reverse, filter_eraseP, List.filter_reverse, List.reverse_reverse]
  · exact h e'
  · intro r hr
    have hr : r.event = e ∧ r.listener = .application n := by simpa using hr
    simp [hr.2]

/-- Listeners of the application fire. -/
theorem fire (h : Bubbling m) (i : Nat) : Bubbling (m.fire i) := by
  intro e'
  simp only [Emitter.fire]
  rw [List.filter_filter]
  simp only [Bool.and_comm]
  rw [← List.filter_filter, h e']
  simp

private theorem flatMap_filter_and {A X : Type} {p q : A → Bool} {f : A → List X}
    (h : ∀ a, q a = false → f a = []) (l : List A) :
    (l.filter p).flatMap f = (l.filter fun a ↦ p a && q a).flatMap f := by
  induction l with
  | nil => rfl
  | cons a l ih =>
    cases hp : p a with
    | false => simp [hp, ih]
    | true =>
      cases hq : q a with
      | false => simp [hp, hq, ih, h a hq]
      | true => simp [hp, hq, ih]

/-- What only the Room's listener puts out is put out once. -/
theorem flatMap_listening (h : Bubbling m) (e : TrackEvent) {X : Type}
    {out : ParticipantListener → List X} (ho : ∀ n, out (.application n) = []) :
    (m.listening (.track e)).flatMap (fun r ↦ out r.listener) = out .bubble := by
  have hq : ∀ r : Registration ParticipantEvent ParticipantListener,
      decide (r.listener = .bubble) = false → out r.listener = [] := by
    intro r hr
    cases hl : r.listener with
    | bubble => simp [hl] at hr
    | application n => exact ho n
  have he := h e
  rw [Emitter.listening, flatMap_filter_and hq]
  simp only [Bool.decide_and] at he
  rw [he]
  simp

/-- The Room's listener was added with `on`. -/
theorem wrapper_eq_none (h : Bubbling m) {e : TrackEvent}
    {r : Registration ParticipantEvent ParticipantListener} (hr : r ∈ m.listening (.track e))
    (hl : r.listener = .bubble) : r.wrapper = none := by
  obtain ⟨hm, he⟩ := Emitter.mem_listening.mp hr
  have hf : r ∈ m.registrations.filter fun r ↦
      decide (r.event = .track e ∧ r.listener = .bubble) := by
    simp [hm, he, hl]
  rw [h e, List.mem_singleton] at hf
  rw [hf]

end Bubbling

namespace Room

variable {N : Natives} {b : Behavior} {s t : Room}

/-- The wrappers there are, and which of them the cache holds. -/
structure Sound (N : Natives) (s : Room) : Prop where
  /-- The cache holds the wrappers that were not disposed. -/
  cached : ∀ (k : String) (p : Nat), s.remoteParticipantCache.get k = some p ↔
    ∃ x, s.participants[p]? = some x ∧ N.sid x.native = k ∧ x.disposed = false
  bubbling : ∀ (p : Nat) (x : RemoteParticipant), s.participants[p]? = some x →
    x.disposed = false → Bubbling x.listeners
  gone : ∀ (p : Nat) (x : RemoteParticipant), s.participants[p]? = some x →
    x.disposed = true → .left (N.sid x.native) ∈ s.log
  known : ∀ (k : String) (p : Nat), .mention k p ∈ s.log →
    ∃ x, s.participants[p]? = some x ∧ N.sid x.native = k
  called : ∀ (n : NativeParticipant) (p : Nat), s.eventCallbacks.get n = some p →
    ∃ x, s.participants[p]? = some x

/-- What holds of a Room on which no listener has thrown. -/
structure Inv (N : Natives) (s : Room) : Prop extends Sound N s where
  once : Entry.NoReturn s.log → ∀ (k : String) (p p' : Nat), .mention k p ∈ s.log →
    .mention k p' ∈ s.log → p = p'
  dropped : Entry.NoReturn s.log → ∀ k : String, .left k ∈ s.log →
    s.remoteParticipantCache.get k = none

private theorem inv_create : Inv N create where
  cached k p := by simp [create]
  bubbling p x hx := by simp [create] at hx
  gone p x hx := by simp [create] at hx
  known k p hm := by simp [create] at hm
  called n p hp := by simp [create] at hp
  once _ k p p' hm := by simp [create] at hm
  dropped _ k hl := by simp [create] at hl

private theorem mention_once (h : Inv N s) {k : String} {p p' : Nat}
    (hn : Entry.NoReturn (s.log ++ [.mention k p']))
    (hm : .mention k p ∈ s.log) : s.remoteParticipantCache.get k = some p := by
  obtain ⟨x, hx, hk⟩ := h.known k p hm
  rw [h.cached]
  refine ⟨x, hx, hk, ?_⟩
  cases hd : x.disposed with
  | false => rfl
  | true =>
    have hl := h.gone p x hx hd
    rw [hk] at hl
    exact absurd hl (Entry.not_left_of_noReturn hn rfl)

private theorem inv_mention (h : Inv N s) {k : String} {p : Nat} (hlog : t.log = s.log)
    (ht : Sound N t) (hc : t.remoteParticipantCache.get k = some p)
    (hold : ∀ p', s.remoteParticipantCache.get k = some p' → p' = p)
    (hrest : ∀ k', k' ≠ k → t.remoteParticipantCache.get k' = s.remoteParticipantCache.get k') :
    Inv N (t.record (.mention k p)) where
  cached := ht.cached
  bubbling := ht.bubbling
  gone q x hx hd := List.mem_append_left _ (ht.gone q x hx hd)
  known k' q hm := by
    cases List.mem_append.mp hm with
    | inl hm => exact ht.known k' q hm
    | inr hm =>
      cases List.mem_singleton.mp hm
      obtain ⟨x, hx, hk, -⟩ := (ht.cached k p).mp hc
      exact ⟨x, hx, hk⟩
  called := ht.called
  once hn k' q q' hm hm' := by
    simp only [record, hlog] at hn hm hm'
    have hq : ∀ q, .mention k q ∈ s.log → q = p := fun q hq ↦ hold q (mention_once h hn hq)
    cases List.mem_append.mp hm with
    | inl hm =>
      cases List.mem_append.mp hm' with
      | inl hm' =>
        exact h.once (Entry.noReturn_prefix (List.prefix_append _ _) hn) k' q q' hm hm'
      | inr hm' =>
        cases List.mem_singleton.mp hm'
        exact hq q hm
    | inr hm =>
      cases List.mem_singleton.mp hm
      cases List.mem_append.mp hm' with
      | inl hm' => exact (hq q' hm').symm
      | inr hm' =>
        cases List.mem_singleton.mp hm'
        rfl
  dropped hn k' hl := by
    simp only [record, hlog] at hn hl
    have hl' : Entry.left k' ∈ s.log := by simpa using hl
    have hne : k' ≠ k := by
      rintro rfl
      exact Entry.not_left_of_noReturn hn rfl hl'
    have hd := h.dropped (Entry.noReturn_prefix (List.prefix_append _ _) hn) k' hl'
    exact (hrest k' hne).trans hd

private theorem cached_grown (h : Sound N s) {n : NativeParticipant}
    (hn : s.remoteParticipantCache.get (N.sid n) = none) (k : String) (p : Nat) :
    (grown N s n).remoteParticipantCache.get k = some p ↔
      ∃ x, (grown N s n).participants[p]? = some x ∧ N.sid x.native = k ∧
        x.disposed = false := by
  simp only [grown, JsMap.get_set]
  split
  · next hk =>
    subst hk
    constructor
    · intro he
      cases he
      exact ⟨newParticipant n, by simp, rfl, rfl⟩
    · rintro ⟨x, hx, hk, hd⟩
      rcases Parties.getElem?_concat hx with ⟨rfl, -⟩ | hx
      · rfl
      · have hp := (h.cached (N.sid n) p).mpr ⟨x, hx, hk, hd⟩
        rw [hn] at hp
        cases hp
  · next hk =>
    rw [h.cached]
    constructor
    · rintro ⟨x, hx, hxk, hd⟩
      exact ⟨x, kept_grown (N := N) (n := n) hx, hxk, hd⟩
    · rintro ⟨x, hx, hxk, hd⟩
      rcases Parties.getElem?_concat hx with ⟨-, rfl⟩ | hx
      · exact absurd hxk.symm hk
      · exact ⟨x, hx, hxk, hd⟩

private theorem sound_grown (h : Sound N s) {n : NativeParticipant}
    (hn : s.remoteParticipantCache.get (N.sid n) = none) : Sound N (grown N s n) where
  cached := cached_grown h hn
  bubbling p x hx hd := by
    rcases Parties.getElem?_concat hx with ⟨-, rfl⟩ | hx
    · exact Bubbling.new
    · exact h.bubbling p x hx hd
  gone p x hx hd := by
    rcases Parties.getElem?_concat hx with ⟨-, rfl⟩ | hx
    · cases hd
    · exact h.gone p x hx hd
  known k p hm := by
    obtain ⟨x, hx, hk⟩ := h.known k p hm
    exact ⟨x, kept_grown hx, hk⟩
  called m p hm := by
    simp only [grown, JsMap.get_set] at hm
    split at hm
    · cases hm
      exact ⟨newParticipant n, new_grown s n⟩
    · obtain ⟨x, hx⟩ := h.called m p hm
      exact ⟨x, kept_grown hx⟩

private theorem inv_wrap (h : Inv N s) (n : NativeParticipant) :
    Inv N (s.wrapRemoteParticipant N n).1 := by
  have hm := mentions N s n
  generalize s.wrapRemoteParticipant N n = r at hm ⊢
  cases hm with
  | @found p hp =>
    apply inv_mention h rfl h.toSound hp _ fun _ _ ↦ rfl
    intro p' hp'
    rw [hp] at hp'
    exact (Option.some.inj hp').symm
  | made hn =>
    apply inv_mention (t := grown N s n) h rfl (sound_grown h.toSound hn)
    · simp [grown, JsMap.get_set]
    · intro p' hp'
      rw [hn] at hp'
      cases hp'
    · intro k' hne
      simp only [grown, JsMap.get_set, if_neg hne]

private theorem inv_record (h : Inv N s) {entry : Entry} (hm : ∀ k p, entry ≠ .mention k p)
    (hl : ∀ k, entry ≠ .left k) : Inv N (s.record entry) := by
  have hold : ∀ x : Entry, x ≠ entry → x ∈ (s.record entry).log → x ∈ s.log := by
    intro x hne hx
    cases List.mem_append.mp hx with
    | inl hx => exact hx
    | inr hx => exact absurd (List.mem_singleton.mp hx) hne
  have hpre : Entry.NoReturn (s.record entry).log → Entry.NoReturn s.log :=
    Entry.noReturn_prefix (List.prefix_append _ _)
  constructor
  · exact ⟨h.cached, h.bubbling, fun p x hx hd ↦ List.mem_append_left _ (h.gone p x hx hd),
      fun k p hk ↦ h.known k p (hold _ (hm k p).symm hk), h.called⟩
  · exact fun hn k p p' hk hk' ↦
      h.once (hpre hn) k p p' (hold _ (hm k p).symm hk) (hold _ (hm k p').symm hk')
  · exact fun hn k hk ↦ h.dropped (hpre hn) k (hold _ (hl k).symm hk)

private theorem inv_onListeners (h : Inv N s) (p : Nat)
    {f : Emitter ParticipantEvent ParticipantListener →
      Emitter ParticipantEvent ParticipantListener}
    (hf : ∀ m, Bubbling m → Bubbling (f m)) : Inv N (s.onListeners p f) := by
  constructor
  · constructor
    · intro k q
      rw [onListeners, h.cached]
      constructor
      · rintro ⟨x, hx, hk, hd⟩
        obtain ⟨y, hy, he⟩ := heard_of hx
        exact ⟨y, hy, he.native ▸ hk, he.disposed ▸ hd⟩
      · rintro ⟨y, hy, hk, hd⟩
        obtain ⟨x, hx, he⟩ := of_heard hy
        exact ⟨x, hx, he.native ▸ hk, he.disposed ▸ hd⟩
    · intro q y hy hd
      obtain ⟨x, hx, he⟩ := of_heard hy
      have hb := h.bubbling q x hx (he.disposed ▸ hd)
      rw [he.listeners]
      split
      · exact hf _ hb
      · exact hb
    · intro q y hy hd
      obtain ⟨x, hx, he⟩ := of_heard hy
      rw [he.native]
      exact h.gone q x hx (he.disposed ▸ hd)
    · intro k q hm
      obtain ⟨x, hx, hk⟩ := h.known k q hm
      obtain ⟨y, hy, he⟩ := heard_of hx
      exact ⟨y, hy, he.native ▸ hk⟩
    · intro n q hq
      obtain ⟨x, hx⟩ := h.called n q hq
      obtain ⟨y, hy, -⟩ := heard_of hx
      exact ⟨y, hy⟩
  · exact h.once
  · exact h.dropped

private theorem inv_listeners (h : Inv N s) (m : Emitter RoomEvent Nat) :
    Inv N { s with listeners := m } :=
  ⟨⟨h.cached, h.bubbling, h.gone, h.known, h.called⟩, h.once, h.dropped⟩

private theorem inv_tracks (h : Inv N s) (r : TrackRegistry) : Inv N { s with tracks := r } :=
  ⟨⟨h.cached, h.bubbling, h.gone, h.known, h.called⟩, h.once, h.dropped⟩

private theorem stable_inv : Stable N (Inv N) where
  wrap _ n h := inv_wrap h n
  track s w f _ h := inv_tracks h (s.tracks.modify w f)

private theorem inv_emit (h : Inv N s) (e : RoomEvent) (args : List Arg) :
    Inv N (s.emit N b e args).1 := by
  apply stable_inv.emit fun s i h ↦ inv_listeners h (s.listeners.fire i)
  exact inv_record h (by simp) (by simp)

private theorem inv_emitParticipant (h : Inv N s) (p : Nat) (e : ParticipantEvent)
    (args : List Arg) : Inv N (s.emitParticipant N b p e args).1 := by
  apply stable_inv.emitParticipant
  · exact fun s i h ↦ inv_listeners h (s.listeners.fire i)
  · exact fun s p i h ↦ inv_onListeners h p fun m hm ↦ hm.fire i
  · exact fun s e args h ↦ inv_record h (by simp) (by simp)
  · exact inv_record h (by simp) (by simp)

section Output

/-- What the Room owes for the emits on its participants. -/
def owed (s : Room) : List (TrackEvent × List Arg) := s.log.filterMap Entry.owed

/-- The track events emitted on the Room. -/
def bubbled (s : Room) : List (TrackEvent × List Arg) := s.log.filterMap Entry.bubbled

private theorem owed_record (s : Room) (entry : Entry) :
    (s.record entry).owed = s.owed ++ entry.owed.toList := by
  simp only [owed, record, List.filterMap_append]
  cases h : entry.owed <;> simp [h]

private theorem bubbled_record (s : Room) (entry : Entry) :
    (s.record entry).bubbled = s.bubbled ++ entry.bubbled.toList := by
  simp only [bubbled, record, List.filterMap_append]
  cases h : entry.bubbled <;> simp [h]

private theorem stable_output (o u : List (TrackEvent × List Arg)) :
    Stable N fun s ↦ s.owed = o ∧ s.bubbled = u where
  wrap s n h := by
    have hm := mentions N s n
    generalize s.wrapRemoteParticipant N n = r at hm ⊢
    cases hm with
    | found hp =>
      rw [owed_record, bubbled_record]
      simpa [Entry.owed, Entry.bubbled] using h
    | made hn =>
      rw [owed_record, bubbled_record]
      simp only [Entry.owed, Entry.bubbled, Option.toList_none, List.append_nil]
      exact h
  track _ _ _ _ h := h

private theorem emit_output (hb : ∀ n, (b n).ends = .returned) (s : Room) (e : RoomEvent)
    (args : List Arg) :
    (s.emit N b e args).1.owed = s.owed ∧
      (s.emit N b e args).1.bubbled = s.bubbled ++ (Entry.emit e args).bubbled.toList ∧
      (s.emit N b e args).2 = .returned := by
  have hs : (s.record (.emit e args)).owed = s.owed := by
    rw [owed_record]
    simp [Entry.owed]
  have hf : ∀ (t : Room) (i : Nat), (slot.write t ((slot.read t).fire i)).bubbled = t.bubbled :=
    fun _ _ ↦ rfl
  have hr : ∀ r ∈ (s.record (.emit e args)).listeners.listening e, ∀ t : Room,
      t.owed = s.owed → (react N b r.listener t).1.owed = s.owed ∧
        (react N b r.listener t).1.bubbled = t.bubbled ++ [] ∧
        (react N b r.listener t).2 = .returned := by
    intro r _ t ht
    have hs := (stable_output (N := N) s.owed t.bubbled).react (b := b) ⟨ht, rfl⟩ r.listener
    exact ⟨hs.1, hs.2.trans (List.append_nil _).symm, hb r.listener⟩
  obtain ⟨ho, hu, hc⟩ := Emitter.calls_output bubbled (fun _ ↦ []) (fun t ↦ t.owed = s.owed)
    (fun _ _ h ↦ h) (fun t i _ ↦ hf t i) hr (fun _ _ ↦ .inr rfl) hs
  refine ⟨ho, ?_, hc⟩
  rw [bubbled_record, List.flatMap_eq_nil_iff.mpr fun _ _ ↦ rfl, List.append_nil] at hu
  exact hu

-- What a listener of a participant puts out on the Room.
private def puts (entry : Entry) : ParticipantListener → List (TrackEvent × List Arg)
  | .bubble => entry.owed.toList
  | .application _ => []

private theorem notify_output (hb : ∀ n, (b n).ends = .returned) (k : String) (p : Nat)
    (e : ParticipantEvent) (args : List Arg) (f : ParticipantListener) (t : Room) :
    (notify N b p e args f t).1.owed = t.owed ∧
      (notify N b p e args f t).1.bubbled = t.bubbled ++ puts (.raise k p e args) f ∧
      (notify N b p e args f t).2 = .returned := by
  cases f with
  | bubble =>
    cases e with
    | track e => exact emit_output hb t (.track e) (args ++ [.participant p])
    | networkQualityLevelChanged => exact ⟨rfl, (List.append_nil _).symm, rfl⟩
  | application n =>
    have hs := (stable_output (N := N) t.owed t.bubbled).react (b := b) ⟨rfl, rfl⟩ n
    exact ⟨hs.1, hs.2.trans (List.append_nil _).symm, hb n⟩

private theorem puts_listening {m : Emitter ParticipantEvent ParticipantListener}
    (hm : Bubbling m) (k : String) (p : Nat) (e : ParticipantEvent) (args : List Arg) :
    (m.listening e).flatMap (fun r ↦ puts (.raise k p e args) r.listener) =
      (Entry.raise k p e args).owed.toList := by
  cases e with
  | track e => exact hm.flatMap_listening e fun _ ↦ rfl
  | networkQualityLevelChanged =>
    rw [List.flatMap_eq_nil_iff.mpr]
    · rfl
    · intro r _
      cases r.listener <;> rfl

private theorem puts_wrapper {m : Emitter ParticipantEvent ParticipantListener}
    (hm : Bubbling m) (k : String) (p : Nat) {e : ParticipantEvent} (args : List Arg)
    {r : Registration ParticipantEvent ParticipantListener} (hr : r ∈ m.listening e) :
    r.wrapper = none ∨ puts (.raise k p e args) r.listener = [] := by
  cases hl : r.listener with
  | bubble =>
    cases e with
    | track e => exact .inl (hm.wrapper_eq_none hr hl)
    | networkQualityLevelChanged => exact .inr rfl
  | application n => exact .inr rfl

private theorem emitParticipant_output (hb : ∀ n, (b n).ends = .returned) {p : Nat}
    {x : RemoteParticipant} (hx : s.participants[p]? = some x) (hm : Bubbling x.listeners)
    (e : ParticipantEvent) (args : List Arg) :
    ∃ l, (s.emitParticipant N b p e args).1.owed = s.owed ++ l ∧
      (s.emitParticipant N b p e args).1.bubbled = s.bubbled ++ l := by
  have hf : ∀ (t : Room) (i : Nat), ((participantSlot p).write t
      (((participantSlot p).read t).fire i)).bubbled = t.bubbled := fun _ _ ↦ rfl
  have hr : ∀ r ∈ x.listeners.listening e, ∀ t : Room,
      t.owed = (s.record (.raise (N.sid x.native) p e args)).owed →
      (notify N b p e args r.listener t).1.owed =
          (s.record (.raise (N.sid x.native) p e args)).owed ∧
        (notify N b p e args r.listener t).1.bubbled =
          t.bubbled ++ puts (.raise (N.sid x.native) p e args) r.listener ∧
        (notify N b p e args r.listener t).2 = .returned := by
    intro r _ t ht
    obtain ⟨ho, hu⟩ := notify_output (N := N) hb (N.sid x.native) p e args r.listener t
    exact ⟨ho.trans ht, hu⟩
  obtain ⟨ho, hu, -⟩ := Emitter.calls_output bubbled (puts (.raise (N.sid x.native) p e args))
    (fun t ↦ t.owed = (s.record (.raise (N.sid x.native) p e args)).owed) (fun _ _ h ↦ h)
    (fun t i _ ↦ hf t i) hr (fun _ hr ↦ puts_wrapper hm _ p args hr) rfl
  have he : s.emitParticipant N b p e args = Emitter.calls (participantSlot p)
      (notify N b p e args) (x.listeners.listening e)
      (s.record (.raise (N.sid x.native) p e args)) := by
    simp only [emitParticipant, Emitter.emit, participantSlot, record, hx, Option.elim_some]
  rw [puts_listening hm, bubbled_record] at hu
  rw [owed_record] at ho
  rw [he, ho, hu]
  exact ⟨_, rfl, by simp [Entry.bubbled]⟩

end Output

section Good

private theorem stable_grows (l : List Entry) : Stable N fun s ↦ l <+: s.log :=
  .of_grown (fun _ _ h ↦ h.trans (List.prefix_append _ _)) (fun _ _ h ↦ h) fun _ _ _ _ h ↦ h

private theorem grows_emit (s : Room) (e : RoomEvent) (args : List Arg) :
    s.log <+: (s.emit N b e args).1.log :=
  (stable_grows s.log).emit (fun _ _ h ↦ h) (List.prefix_append _ _)

private theorem grows_emitParticipant (s : Room) (p : Nat) (e : ParticipantEvent)
    (args : List Arg) :
    s.log ++ [.raise ((s.participants[p]?).elim "" fun x ↦ N.sid x.native) p e args] <+:
      (s.emitParticipant N b p e args).1.log :=
  (stable_grows _).emitParticipant (fun _ _ h ↦ h) (fun _ _ _ h ↦ h)
    (fun _ _ _ h ↦ h.trans (List.prefix_append _ _)) (List.prefix_refl _)

/-- Between two events nothing is owed, as long as nobody comes back. -/
structure Good (N : Natives) (s : Room) : Prop extends Inv N s where
  paid : Entry.NoReturn s.log → s.owed = s.bubbled

private theorem good_same (h : Good N s) (hi : Inv N t) (hl : s.log <+: t.log)
    (ho : t.owed = s.owed) (hu : t.bubbled = s.bubbled) : Good N t := by
  refine ⟨hi, fun hn ↦ ?_⟩
  rw [ho, hu]
  exact h.paid (Entry.noReturn_prefix hl hn)

private theorem stable_good : Stable N (Good N) where
  wrap s n h := by
    obtain ⟨ho, hu⟩ := (stable_output (N := N) s.owed s.bubbled).wrap s n ⟨rfl, rfl⟩
    exact good_same h (inv_wrap h.toInv n)
      ((stable_grows s.log).wrap s n (List.prefix_refl _)) ho hu
  track s w f _ h := good_same h (inv_tracks h.toInv (s.tracks.modify w f)) (List.prefix_refl _)
    rfl rfl

private theorem good_tracks (h : Good N s) (r : TrackRegistry) : Good N { s with tracks := r } :=
  good_same h (inv_tracks h.toInv r) (List.prefix_refl _) rfl rfl

private theorem good_emit (hb : ∀ n, (b n).ends = .returned) (h : Good N s) {e : RoomEvent}
    {args : List Arg} (he : (Entry.emit e args).bubbled = none) :
    Good N (s.emit N b e args).1 := by
  obtain ⟨ho, hu, -⟩ := emit_output (N := N) hb s e args
  rw [he, Option.toList_none, List.append_nil] at hu
  exact good_same h (inv_emit h.toInv e args) (grows_emit s e args) ho hu

private theorem good_emitParticipant (hb : ∀ n, (b n).ends = .returned) (h : Good N s) {p : Nat}
    {x : RemoteParticipant} (hx : s.participants[p]? = some x) (e : ParticipantEvent)
    (args : List Arg) : Good N (s.emitParticipant N b p e args).1 := by
  refine ⟨inv_emitParticipant h.toInv p e args, fun hn ↦ ?_⟩
  have hgrow := grows_emitParticipant (N := N) (b := b) s p e args
  rw [hx] at hgrow
  -- Who was disposed has left, and is not mentioned again.
  have hd : x.disposed = false := by
    cases hd : x.disposed with
    | false => rfl
    | true =>
      exact absurd (h.gone p x hx hd)
        (Entry.not_left_of_noReturn (Entry.noReturn_prefix hgrow hn) rfl)
  obtain ⟨l, ho, hu⟩ := emitParticipant_output (N := N) hb hx (h.bubbling p x hx hd) e args
  have hpaid := h.paid (Entry.noReturn_prefix ((List.prefix_append _ _).trans hgrow) hn)
  rw [ho, hu, hpaid]

private theorem good_onParticipantEvent (hb : ∀ n, (b n).ends = .returned) (h : Good N s)
    {p : Nat} (hx : ∃ x, s.participants[p]? = some x) (wrapCalls releaseCalls : Nat → EndCalls)
    (ev : NativeParticipantEvent) :
    Good N (s.onParticipantEvent N b wrapCalls releaseCalls p ev).1 := by
  have hk : Good N (s.onParticipantEvent N b wrapCalls releaseCalls p ev).1 ∧
      ∃ x, (s.onParticipantEvent N b wrapCalls releaseCalls p ev).1.participants[p]? = some x := by
    apply onParticipantEvent_keeps (q := fun s ↦ Good N s ∧ ∃ x, s.participants[p]? = some x)
    · exact fun s n ⟨h, hx⟩ ↦ ⟨good_tracks h _, hx⟩
    · exact fun s w ⟨h, hx⟩ ↦ ⟨good_tracks h _, hx⟩
    · exact fun s e args ⟨h, x, hx⟩ ↦
        ⟨good_emitParticipant hb h hx e args, emitParticipant_stays ⟨x, hx⟩⟩
    · exact ⟨h, hx⟩
  exact hk.1

private theorem forget_cache {k : String} {p : Nat} {x : RemoteParticipant}
    (hx : s.participants[p]? = some x) (hk : N.sid x.native = k) :
    (s.forget N p).remoteParticipantCache = s.remoteParticipantCache.delete k := by
  simp only [forget, hx, Option.elim_some, hk, disposeParticipant]

private theorem forget_to {p q : Nat} {y : RemoteParticipant}
    (hy : s.participants[q]? = some y) :
    ∃ z, (s.forget N p).participants[q]? = some z ∧ z.native = y.native ∧
      z.disposed = if p = q then true else y.disposed := by
  refine ⟨_, Parties.getElem?_modify_of hy _, ?_⟩
  split <;> exact ⟨rfl, rfl⟩

private theorem forget_of {p q : Nat} {z : RemoteParticipant}
    (hz : (s.forget N p).participants[q]? = some z) :
    ∃ y, s.participants[q]? = some y ∧ z.native = y.native ∧
      (p = q ∧ z.disposed = true ∨ p ≠ q ∧ z = y) := by
  obtain ⟨y, hy, rfl⟩ := Parties.of_getElem?_modify hz
  refine ⟨y, hy, ?_⟩
  split
  · next hpq => exact ⟨rfl, .inl ⟨hpq, rfl⟩⟩
  · next hpq => exact ⟨rfl, .inr ⟨hpq, rfl⟩⟩

private theorem forget_live {p q : Nat} {z : RemoteParticipant}
    (hz : (s.forget N p).participants[q]? = some z) (hd : z.disposed = false) :
    p ≠ q ∧ s.participants[q]? = some z := by
  obtain ⟨y, hy, -, ⟨-, hd'⟩ | ⟨hne, rfl⟩⟩ := forget_of hz
  · rw [hd] at hd'
    cases hd'
  · exact ⟨hne, hy⟩

private theorem mem_log_left {k : String} {p : Nat} {e : Entry}
    (he : e ∈ ((s.forget N p).record (.left k)).log) : e = .left k ∨ e ∈ s.log := by
  rcases List.mem_append.mp he with he | he
  · exact .inr he
  · exact .inl (List.mem_singleton.mp he)

private theorem sound_left (h : Inv N s) {k : String} {p : Nat}
    (hc : s.remoteParticipantCache.get k = some p) :
    Sound N ((s.forget N p).record (.left k)) := by
  obtain ⟨x, hx, hk, hd⟩ := (h.cached k p).mp hc
  have hcache := forget_cache hx hk
  constructor
  · intro k' q
    simp only [record, hcache, JsMap.get_delete]
    split
    · next hk' =>
      subst hk'
      simp only [reduceCtorEq, false_iff]
      rintro ⟨z, hz, hzk, hzd⟩
      obtain ⟨hne, hy⟩ := forget_live hz hzd
      have hq := (h.cached k' q).mpr ⟨z, hy, hzk, hzd⟩
      rw [hc] at hq
      exact hne (Option.some.inj hq)
    · next hk' =>
      rw [h.cached]
      constructor
      · rintro ⟨y, hy, hyk, hyd⟩
        obtain ⟨z, hz, hn, hzd⟩ := forget_to (N := N) (p := p) hy
        refine ⟨z, hz, hn ▸ hyk, ?_⟩
        rw [hzd, if_neg]
        · exact hyd
        · rintro rfl
          rw [hx] at hy
          cases hy
          exact hk' (hyk.symm.trans hk)
      · rintro ⟨z, hz, hzk, hzd⟩
        exact ⟨z, (forget_live hz hzd).2, hzk, hzd⟩
  · intro q z (hz : (s.forget N p).participants[q]? = some z) hzd
    exact h.bubbling q z (forget_live hz hzd).2 hzd
  · intro q z (hz : (s.forget N p).participants[q]? = some z) hzd
    obtain ⟨y, hy, hn, hcase⟩ := forget_of hz
    rw [hn]
    rcases hcase with ⟨rfl, -⟩ | ⟨-, rfl⟩
    · rw [hx] at hy
      cases hy
      rw [hk]
      exact List.mem_append_right _ (List.mem_singleton.mpr rfl)
    · exact List.mem_append_left _ (h.gone q z hy hzd)
  · intro k' q hm
    have hm' : Entry.mention k' q ∈ s.log := (mem_log_left hm).resolve_left (by simp)
    obtain ⟨y, hy, hyk⟩ := h.known k' q hm'
    obtain ⟨z, hz, hn, -⟩ := forget_to (N := N) (p := p) hy
    exact ⟨z, hz, hn ▸ hyk⟩
  · intro n q hq
    obtain ⟨y, hy⟩ := h.called n q hq
    obtain ⟨z, hz, -⟩ := forget_to (N := N) (p := p) hy
    exact ⟨z, hz⟩

private theorem inv_left (h : Inv N s) {k : String} {p : Nat}
    (hc : s.remoteParticipantCache.get k = some p) :
    Inv N ((s.forget N p).record (.left k)) := by
  obtain ⟨x, hx, hk, -⟩ := (h.cached k p).mp hc
  refine ⟨sound_left h hc, fun hn k' q q' hm hm' ↦ ?_, fun hn k' hl ↦ ?_⟩
  · exact h.once (Entry.noReturn_prefix (List.prefix_append _ _) hn) k' q q'
      ((mem_log_left hm).resolve_left (by simp)) ((mem_log_left hm').resolve_left (by simp))
  · simp only [record, forget_cache hx hk, JsMap.get_delete]
    split
    · rfl
    · next hk' =>
      have hne : Entry.left k' ≠ .left k := by
        rintro ⟨⟩
        exact hk' rfl
      have hl' : Entry.left k' ∈ s.log := (mem_log_left hl).resolve_left hne
      exact h.dropped (Entry.noReturn_prefix (List.prefix_append _ _) hn) k' hl'

private theorem good_left (h : Good N s) {k : String} {p : Nat}
    (hc : s.remoteParticipantCache.get k = some p) :
    Good N ((s.forget N p).record (.left k)) := by
  apply good_same h (inv_left h.toInv hc) (List.prefix_append _ _)
  · exact (owed_record (s.forget N p) (.left k)).trans (List.append_nil _)
  · exact (bubbled_record (s.forget N p) (.left k)).trans (List.append_nil _)

private theorem good_presence (hb : ∀ n, (b n).ends = .returned) (h : Good N s)
    (e : PresenceEvent) (data : Option NativeParticipant) :
    Good N ((leaver (.presence e data)).elim (s.onPresenceEvent N b e data).1
      fun n ↦ (s.onPresenceEvent N b e data).1.record (.left (N.sid n))) := by
  cases data with
  | none =>
    have he : Good N (s.emit N b (.presence e) [.null]).1 := good_emit hb h rfl
    cases e <;> exact he
  | some n =>
    have hw := stable_good.wrap s n h
    have hc := cached_wrap (N := N) s n
    simp only [onPresenceEvent]
    generalize s.wrapRemoteParticipant N n = r at hw hc ⊢
    obtain ⟨s', p⟩ := r
    have he : Good N (s'.emit N b (.presence e) [.participant p]).1 := good_emit hb hw rfl
    have hc' : (s'.emit N b (.presence e) [.participant p]).1.remoteParticipantCache.get
        (N.sid n) = some p := (stable_cached (N.sid n) p).emit (fun _ _ h ↦ h) hc
    have hr := (emit_output (N := N) hb s' (.presence e) [.participant p]).2.2
    dsimp only
    generalize s'.emit N b (.presence e) [.participant p] = r at he hc' hr ⊢
    obtain ⟨t, c⟩ := r
    cases hr
    cases e with
    | participantDisconnected => exact good_left he hc'
    | participantConnected => exact he
    | participantReconnecting => exact he
    | participantReconnected => exact he
    | dominantSpeakerChanged => exact he

/-- No listener of the application throws. -/
def Act.Returns : Act → Prop
  | .room _ b _ | .participant _ _ b _ _ => ∀ n, (b n).ends = .returned
  | .use _ | .listen _ _ _ | .removeListener _ _ | .listenParticipant _ _ _ _
  | .removeParticipantListener _ _ _ => True

/-- Every step on which no listener throws. -/
theorem good_step {a : Act} (h : Good N s) (ha : Act.Returns a) (hs : s.step N a = some t) :
    Good N t := by
  cases a with
  | room ev b releaseCalls =>
    cases hs
    cases ev with
    | connected natives => exact stable_good.seed h natives
    | presence e data => exact good_presence ha h e data
    | disconnected error =>
      show Good N (s.onRoomEvent N b releaseCalls (.disconnected error)).1
      simp only [onRoomEvent]
      split
      · exact good_tracks h _
      · exact good_emit ha (good_tracks h _) rfl
    | plain e data => exact good_emit ha h rfl
  | participant n ev b wrapCalls releaseCalls =>
    obtain ⟨p, hp, rfl⟩ := Option.map_eq_some_iff.mp hs
    exact good_onParticipantEvent ha h (h.called n p hp) wrapCalls releaseCalls ev
  | use u =>
    cases hs
    exact stable_good.use h u
  | listen how e n | removeListener e n =>
    cases hs
    exact good_same h (inv_listeners h.toInv _) (List.prefix_refl _) rfl rfl
  | listenParticipant p how e n =>
    cases hs
    exact good_same h (inv_onListeners h.toInv p fun m hm ↦ hm.add how) (List.prefix_refl _)
      rfl rfl
  | removeParticipantListener p e n =>
    cases hs
    exact good_same h (inv_onListeners h.toInv p fun m hm ↦ hm.remove) (List.prefix_refl _)
      rfl rfl

/-- After events nobody threw on. -/
theorem good_of_run {run : List Act} (hs : (machine N).exec (machine N).init run = some s)
    (ha : ∀ a ∈ run, Act.Returns a) : Good N s := by
  have hstep : ∀ (run : List Act) (s t : Room), (∀ a ∈ run, Act.Returns a) → Good N s →
      (machine N).exec s run = some t → Good N t := by
    intro run
    induction run with
    | nil =>
      intro s t _ h hs
      cases hs
      exact h
    | cons a run ih =>
      intro s t ha h hs
      obtain ⟨r, hr, hs⟩ := Machine.exec_cons_some.mp hs
      exact ih r t (fun a' h' ↦ ha a' (List.mem_cons_of_mem a h'))
        (good_step h (ha a List.mem_cons_self) hr) hs
  exact hstep run create s ha ⟨inv_create, fun _ ↦ rfl⟩ hs

/-- As long as no listener throws and nobody who left is mentioned again: every mention of a SID
hands out one wrapper, no two wrappers of a SID are cached, the Room has emitted the track events
of its participants once each with the participant behind the arguments, and who has left is
disposed and not cached. -/
theorem one_wrapper_each {run : List Act} (hs : (machine N).exec (machine N).init run = some s)
    (ha : ∀ a ∈ run, Act.Returns a) (hn : Entry.NoReturn s.log) :
    (∀ (k : String) (p p' : Nat), .mention k p ∈ s.log → .mention k p' ∈ s.log → p = p') ∧
    (∀ (k k' : String) (p p' : Nat) (x x' : RemoteParticipant),
      s.remoteParticipantCache.get k = some p → s.remoteParticipantCache.get k' = some p' →
      s.participants[p]? = some x → s.participants[p']? = some x' →
      N.sid x.native = N.sid x'.native → k = k' ∧ p = p') ∧
    s.bubbled = s.owed ∧
    ∀ k : String, .left k ∈ s.log → s.remoteParticipantCache.get k = none ∧
      ∀ (p : Nat) (x : RemoteParticipant), s.participants[p]? = some x → N.sid x.native = k →
        x.disposed = true := by
  have h := good_of_run hs ha
  refine ⟨h.once hn, ?_, (h.paid hn).symm, fun k hl ↦ ?_⟩
  · intro k k' p p' x x' hk hk' hx hx' hsid
    obtain ⟨y, hy, hyk, -⟩ := (h.cached k p).mp hk
    obtain ⟨y', hy', hyk', -⟩ := (h.cached k' p').mp hk'
    rw [hx] at hy
    rw [hx'] at hy'
    cases hy
    cases hy'
    have hkk : k = k' := hyk.symm.trans (hsid.trans hyk')
    subst hkk
    rw [hk] at hk'
    exact ⟨rfl, Option.some.inj hk'⟩
  · have hc := h.dropped hn k hl
    refine ⟨hc, fun p x hx hk ↦ ?_⟩
    cases hd : x.disposed with
    | true => rfl
    | false =>
      have hp := (h.cached k p).mpr ⟨x, hx, hk, hd⟩
      rw [hc] at hp
      cases hp

-- Two participants, and a listener that asks for the dominant speaker.
private def pairNatives : Natives :=
  ⟨fun n ↦ if n = 0 then "PA0" else "PA1", fun _ ↦ "MT0", fun _ ↦ .video⟩

private def asking : Behavior := fun _ ↦ ⟨[.dominantSpeaker (some 1)], .returned⟩

private def departureRun : List Act :=
  [.room (.connected [0]) asking fun _ ↦ .returning,
    .listen .on (.track .trackPublished) 7,
    .participant 0 (.trackPublished (some 3)) asking (fun _ ↦ .returning) fun _ ↦ .returning,
    .use (.participants [0, 1]),
    .room (.presence .participantDisconnected (some 0)) asking fun _ ↦ .returning]

/-- `one_wrapper_each` where a listener reads the Room and a participant leaves. -/
theorem one_wrapper_each_departure : ∃ s : Room,
    (machine pairNatives).exec (machine pairNatives).init departureRun = some s ∧
      s.bubbled = s.owed ∧ s.log = [.mention "PA0" 0,
        .raise "PA0" 0 (.track .trackPublished) [.publication 3],
        .emit (.track .trackPublished) [.publication 3, .participant 0],
        .mention "PA1" 1, .mention "PA0" 0, .mention "PA1" 1, .mention "PA0" 0,
        .emit (.presence .participantDisconnected) [.participant 0], .left "PA0"] := by
  have hr : ((machine pairNatives).exec (machine pairNatives).init departureRun).map log =
      some [.mention "PA0" 0, .raise "PA0" 0 (.track .trackPublished) [.publication 3],
        .emit (.track .trackPublished) [.publication 3, .participant 0],
        .mention "PA1" 1, .mention "PA0" 0, .mention "PA1" 1, .mention "PA0" 0,
        .emit (.presence .participantDisconnected) [.participant 0], .left "PA0"] := by
    decide +kernel
  obtain ⟨s, hs, hl⟩ := Option.map_eq_some_iff.mp hr
  have ha : ∀ a ∈ departureRun, Act.Returns a := by
    simp [departureRun, Act.Returns, asking]
  have hn : Entry.NoReturn s.log := by
    rw [hl]
    decide +kernel
  exact ⟨s, hs, (one_wrapper_each hs ha hn).2.2.1, hl⟩

end Good

end Room

end VideoNode.Participants
