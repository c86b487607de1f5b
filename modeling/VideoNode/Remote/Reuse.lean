import VideoNode.Remote.Teardown

/-!
# A SID that is used again

Registry, wrap cache and `RemoteParticipant` cache are keyed by SID, and each forgets a native
participant at another point: the registry when its disconnect is raised, the caches when it is
emitted. A native participant that takes over a SID in between meets the `RemoteParticipant` of
the one before it, and a late callback about the older one takes the registration of the newer.
Whenever neither happens, the newer participant is live.
-/

namespace VideoNode.Remote

open VideoNode.Common VideoNode.Lts VideoNode.Js

namespace Room

variable {Sid : Type} [DecidableEq Sid] {sid : Handle → Sid}

instance (s : Room Sid) (p : Handle) : Decidable (Fresh sid s p) :=
  match h : s.remoteParticipantCache.get (sid p) with
  | none => isTrue fun q j hq ↦ by rw [h] at hq; cases hq
  | some (q, j) => decidable_of_iff (q = p)
    ⟨fun he q' j' hq ↦ by rw [h] at hq; cases hq; exact he, fun hf ↦ hf q j h⟩

local instance forallSome {α : Type} {c : α → Prop} [DecidablePred c] (o : Option α) :
    Decidable (∀ a, o = some a → c a) :=
  match o with
  | none => isTrue fun _ h ↦ by cases h
  | some a => decidable_of_iff (c a) ⟨fun h b hb ↦ by cases hb; exact h, fun h ↦ h a rfl⟩

instance (c : Room Sid → Handle → Prop) [∀ s q, Decidable (c s q)] (s : Room Sid) (a : RoomAct) :
    Decidable (Admits c sid s a) :=
  match a with
  | .turn t participants => inferInstanceAs (Decidable
      (∀ task, s.context.loop.started t = some task →
        (task.event = .connected → ∀ context, s.context.step (.turn t) = some context →
          (entries sid).Along c { s with context := context } participants) ∧
        ∀ q, task.event.participant = some q → c s q))
  | .participants participants => inferInstanceAs (Decidable ((entries sid).Along c s participants))
  | .dominantSpeaker (some q) => inferInstanceAs (Decidable (c s q))
  | .dominantSpeaker none | .onConnected _ | .onParticipantConnected _
  | .onParticipantDisconnected _ | .onParticipantReconnecting _ | .onParticipantReconnected _
  | .onDominantSpeakerChanged _
  | .onPlain _ | .onTrackEvent _ | .participantTurn _ _ _ | .collect _ _ => isTrue True.intro

/-- What meets a condition meets a weaker one. -/
theorem Admits.mono {c c' : Room Sid → Handle → Prop} (hc : ∀ s q, c s q → c' s q) {s : Room Sid}
    {a : RoomAct} (h : Admits c sid s a) : Admits c' sid s a := by
  have hall : ∀ (l : List Handle) (s : Room Sid), (entries sid).Along c s l →
      (entries sid).Along c' s l := by
    intro l
    induction l with
    | nil => exact fun _ _ ↦ True.intro
    | cons q l ih => exact fun s h ↦ ⟨hc s q h.1, fun t ht ↦ ih t (h.2 t ht)⟩
  cases a with
  | turn t participants =>
    intro task hst
    obtain ⟨hseed, hhand⟩ := h task hst
    exact ⟨fun he context hx ↦ hall _ _ (hseed he context hx), fun q hq ↦ hc s q (hhand q hq)⟩
  | participants participants => exact hall participants s h
  | dominantSpeaker q =>
    cases q with
    | none => exact True.intro
    | some q => exact hc s q h
  | _ => exact True.intro

/-- A participant is named in its turn: the one its SID was last named for has disconnected, if it
is another one. -/
def InTurn (sid : Handle → Sid) (s : Room Sid) (q : Handle) : Prop :=
  ∀ p, s.holder (sid q) = some p → p = q ∨ (s.participant p).gone = true

/-- What the participants that a step names have to meet at the time. -/
def Names (c : Room Sid → Handle → Prop) (sid : Handle → Sid) (s : Room Sid) : RoomAct → Prop
  | .onParticipantConnected q | .onParticipantDisconnected q | .onParticipantReconnecting q
  | .onParticipantReconnected q | .onDominantSpeakerChanged (some q) | .dominantSpeaker (some q) =>
    c s q
  | .participants participants => (entries sid).Along c s participants
  | .turn t participants =>
    ∀ task, s.context.loop.started t = some task → task.event = .connected →
      ∀ context, s.context.step (.turn t) = some context →
        (entries sid).Along c { s with context := context } participants
  | _ => True

instance (s : Room Sid) (q : Handle) : Decidable (InTurn sid s q) :=
  inferInstanceAs (Decidable (∀ p, _ → p = q ∨ (s.participant p).gone = true))

instance (c : Room Sid → Handle → Prop) [∀ s q, Decidable (c s q)] (s : Room Sid) (a : RoomAct) :
    Decidable (Names c sid s a) :=
  match a with
  | .onParticipantConnected q | .onParticipantDisconnected q | .onParticipantReconnecting q
  | .onParticipantReconnected q | .onDominantSpeakerChanged (some q) | .dominantSpeaker (some q) =>
    inferInstanceAs (Decidable (c s q))
  | .participants participants => inferInstanceAs (Decidable ((entries sid).Along c s participants))
  | .turn t participants => inferInstanceAs (Decidable
      (∀ task, s.context.loop.started t = some task → task.event = .connected →
        ∀ context, s.context.step (.turn t) = some context →
          (entries sid).Along c { s with context := context } participants))
  | .onDominantSpeakerChanged none | .dominantSpeaker none | .onConnected _ | .onPlain _
  | .onTrackEvent _ | .participantTurn _ _ _ | .collect _ _ => isTrue True.intro

/-- Whoever was superseded had disconnected. -/
def Orderly (s : Room Sid) : Prop :=
  ∀ p, (s.participant p).superseded = true → (s.participant p).gone = true

/-- Nobody is superseded, and nobody comes back. -/
def Stays (s s' : Room Sid) : Prop :=
  ∀ p, (s'.participant p).superseded = (s.participant p).superseded ∧
    ((s.participant p).gone = true → (s'.participant p).gone = true)

omit [DecidableEq Sid] in
private theorem Orderly.stay {s s' : Room Sid} (h : Orderly s) (hs : Stays s s') : Orderly s' :=
  fun p hp ↦ (hs p).2 (h p ((hs p).1.symm.trans hp))

omit [DecidableEq Sid] in
private theorem Stays.trans {s s' s'' : Room Sid} (h : Stays s s') (h' : Stays s' s'') :
    Stays s s'' :=
  fun p ↦ ⟨(h' p).1.trans (h p).1, fun hp ↦ (h' p).2 ((h p).2 hp)⟩

omit [DecidableEq Sid] in
private theorem stays_of_eq {s s' : Room Sid} (h : s'.participant = s.participant) : Stays s s' :=
  fun p ↦ by rw [h]; exact ⟨rfl, id⟩

omit [DecidableEq Sid] in
private theorem stays_modify {s : Room Sid} (p : Handle) {f : Participant → Participant}
    (hs : (f (s.participant p)).superseded = (s.participant p).superseded)
    (hg : (s.participant p).gone = true → (f (s.participant p)).gone = true) :
    Stays s (s.modify p f) := by
  intro q
  by_cases hq : q = p
  · subst hq
    rw [participant_modify_self]
    exact ⟨hs, hg⟩
  · rw [participant_modify_of_ne s f hq]
    exact ⟨rfl, id⟩

-- Only somebody who has disconnected is superseded by a participant that is named in its turn.
private theorem orderly_mention {s s' : Room Sid} {q : Handle} (h : Orderly s)
    (hn : InTurn sid s q) (hm : mention sid s q = some s') : Orderly s' := by
  obtain ⟨-, hm⟩ := mentioned hm
  cases hm with
  | again hh => exact h
  | first hh => exact h
  | @supersedes p hh hp =>
    have hgone : (s.participant p).gone = true := (hn p hh).resolve_left hp
    intro r hr
    by_cases hrp : r = p
    · subst hrp
      show ((s.modify r fun x ↦ { x with superseded := true }).participant r).gone = true
      rw [participant_modify_self]
      exact hgone
    · have he := participant_modify_of_ne s (fun x ↦ { x with superseded := true }) hrp
      show ((s.modify p fun x ↦ { x with superseded := true }).participant r).gone = true
      rw [he]
      exact h r (by rw [← he]; exact hr)

private theorem stays_observed {s : Room Sid} {p : Handle} {r : Room Sid × Nat}
    (h : Observed sid s p r) : Stays s r.1 := by
  cases h with
  | registered hr ho => exact stays_of_eq rfl
  | installed hr hm => exact stays_modify p rfl id

private theorem stays_wrapped {s s' : Room Sid} {native : Handle × Nat}
    (hw : Wrapped sid s native s') : Stays s s' := by
  cases hw with
  | found hr => exact stays_of_eq rfl
  | made hr => exact stays_modify native.1 (f := fun x ↦ x.setEventCallback native.2) rfl id

private theorem instanced_stays {x x' : Participant} {o : Nat} (h : x.Instanced o x') :
    x'.superseded = x.superseded ∧ (x.gone = true → x'.gone = true) := by
  cases h <;> exact ⟨rfl, id⟩

private theorem stays_hand (s : Room Sid) (p : Handle) (o : Nat) (m : JsMap Sid (Handle × Nat)) :
    Stays s (hand sid s p o m) := by
  have hi := instanced_stays (Participant.instanced (s.participant p) o)
  have hm : Stays s (s.modify p fun x ↦ x.newInstance o) := stays_modify p hi.1 hi.2
  have hw : Wrapped sid { (s.newInstance p o).1 with participantCache := m }
      (p, (s.participant p).wraps.length) (hand sid s p o m) := wrapped _ _
  have hs : Stays { (s.newInstance p o).1 with participantCache := m } (hand sid s p o m) :=
    stays_wrapped hw
  exact fun q ↦ hm.trans (fun q ↦ hs q) q

private theorem orderly_entries {s s' : Room Sid} {l : List Handle} (h : Orderly s)
    (hn : (entries sid).Along (InTurn sid) s l) (hx : (entries sid).exec s l = some s') :
    Orderly s' := by
  refine Machine.exec_invariant_along (m := entries sid) (c := InTurn sid) (p := Orderly) ?_ h hn hx
  intro s q s' h hn hs
  cases readParticipant_cases hs with
  | cached hm hc hw => exact (orderly_mention h hn hm).stay (stays_wrapped hw)
  | made hm hc hr =>
    exact (orderly_mention h hn hm).stay ((stays_observed hr).trans (stays_hand _ _ _ _))

private theorem orderly_reported {s s' : Room Sid} {p : Handle} {event : RoomEvent}
    (h : Orderly s) (hn : InTurn sid s p) (hm : mention sid s p = some s') :
    Orderly (dispatchParticipantEvent sid s' p event) :=
  (orderly_mention h hn hm).stay ((stays_observed (observed s' p)).trans (stays_of_eq rfl))

private theorem orderly_turn {s s' : Room Sid} {t : Turn} {l : List Handle} (h : Orderly s)
    (hn : Names (InTurn sid) sid s (.turn t l)) (hd : Drains sid s t l s') : Orderly s' := by
  cases hd with
  | @starts c task s' hc hst hd =>
    have hb : Orderly { s with context := c } := h.stay (stays_of_eq rfl)
    cases hd with
    | seeded he hx => exact orderly_entries hb (hn task hst he c hc) hx
    | handed hp ho hm => exact hb.stay (stays_hand _ _ _ _)
    | ignored hp => exact hb
  | ends hc hst hd =>
    unfold afterEmit
    split <;> exact h.stay (stays_of_eq rfl)
  | moves hc hst => exact h.stay (stays_of_eq rfl)

/-- A step that names participants in their turn supersedes nobody who is there. -/
theorem orderly_step {s s' : Room Sid} {a : RoomAct} (h : Orderly s) (ht : Typed sid s)
    (hn : Names (InTurn sid) sid s a) (hs : step sid s a = some s') : Orderly s' := by
  cases a with
  | onConnected existing =>
    cases hs
    have hrec : Stays s { s with
        participant := fun p ↦
          if p ∈ existing then
            { s.participant p with
              presentAt := (s.participant p).presentAt.or (some (s.participant p).raised) }
          else s.participant p } := by
      intro p
      simp only
      split <;> exact ⟨rfl, id⟩
    exact h.stay (hrec.trans (stays_of_eq rfl))
  | onParticipantConnected p =>
    obtain ⟨s₁, hm, rfl⟩ := Option.map_eq_some_iff.mp hs
    exact (orderly_reported h hn hm).stay (stays_modify p rfl id)
  | onParticipantDisconnected p =>
    obtain ⟨s₁, hm, rfl⟩ := Option.map_eq_some_iff.mp hs
    have hr : Observed sid s₁ p _ := observed s₁ p
    have ho := (orderly_mention h hn hm).stay (stays_observed hr)
    unfold onParticipantDisconnected
    generalize getOrCreateParticipantObserver sid s₁ p = r at ho
    have hleft : Stays (forgetParticipantObserver sid r.1 p)
        ((forgetParticipantObserver sid r.1 p).modify p fun x ↦
          { x.enqueue r.2 (.raw s₁.raised.length) with disconnectedAt := some x.raised }) :=
      stays_modify p (Participant.superseded_enqueue _ _ _) fun _ ↦ rfl
    exact (ho.stay (stays_of_eq rfl)).stay (hleft.trans (stays_of_eq rfl))
  | onParticipantReconnecting p =>
    obtain ⟨s₁, hm, rfl⟩ := Option.map_eq_some_iff.mp hs
    exact orderly_reported h hn hm
  | onParticipantReconnected p =>
    obtain ⟨s₁, hm, rfl⟩ := Option.map_eq_some_iff.mp hs
    exact orderly_reported h hn hm
  | onDominantSpeakerChanged p =>
    cases p with
    | none =>
      cases hs
      exact h.stay (stays_of_eq rfl)
    | some p =>
      obtain ⟨s₁, hm, rfl⟩ := Option.map_eq_some_iff.mp hs
      exact orderly_reported h hn hm
  | onPlain event =>
    cases hs
    exact h.stay (stays_of_eq rfl)
  | onTrackEvent p =>
    cases hs
    obtain ⟨-, hg⟩ := Participant.sane_raised (ht.sane p) (Participant.raised_cases (ht.sane p).law)
    refine h.stay (stays_modify p ?_ hg.gone)
    have hr := Participant.raised_cases (ht.sane p).law
    generalize (s.participant p).raise = x' at hr
    cases hr with
    | unheard ho => rfl
    | heard ho he => exact (Participant.appended he).record.2.2.1
  | turn t participants => exact orderly_turn h hn (drains hs)
  | participantTurn p j t =>
    cases participantDrains ht hs with
    | quiet hx => exact h.stay (stays_modify p (by cases hx <;> rfl) (by cases hx <;> exact id))
    | @hops x i o hx =>
      have hm : Stays s (s.modify p fun _ ↦ x) :=
        stays_modify p (by cases hx; rfl) (by cases hx; exact id)
      exact h.stay (hm.trans (stays_of_eq rfl))
  | participants participants => exact orderly_entries h hn hs
  | dominantSpeaker p =>
    cases p with
    | none =>
      cases hs
      exact h
    | some p =>
      obtain ⟨s₁, hm, rfl⟩ := Option.map_eq_some_iff.mp hs
      exact (orderly_mention h hn hm).stay
        ((stays_observed (observed s₁ p)).trans (stays_hand _ _ _ _))
  | collect p j =>
    simp only [step] at hs
    split at hs
    · cases hs
    · obtain ⟨x, hx, rfl⟩ := Option.map_eq_some_iff.mp hs
      have hd := Participant.destroyed (ht.sane p).law.binding hx
      exact h.stay (stays_modify p (by cases hd <;> rfl) (by cases hd <;> exact id))

/-- While JS handles the last event of a participant, it has that participant's
`RemoteParticipant` cached. -/
def Removing (sid : Handle → Sid) (s : Room Sid) : Prop :=
  ∀ task rest q, s.context.loop.drain = .calling task rest →
    task.event = .participantDisconnected q →
    ∃ j, s.remoteParticipantCache.get (sid q) = some (q, j)

/-- What JS has cached under a SID stays cached, and the `drain()` of Room events where it is. -/
structure Keeps (s s' : Room Sid) : Prop where
  cached : ∀ k native, s.remoteParticipantCache.get k = some native →
    s'.remoteParticipantCache.get k = some native
  drain : s'.context.loop.drain = s.context.loop.drain

private theorem Keeps.trans {s s' s'' : Room Sid} (h : Keeps s s') (h' : Keeps s' s'') :
    Keeps s s'' :=
  ⟨fun k v hk ↦ h'.cached k v (h.cached k v hk), h'.drain.trans h.drain⟩

private theorem Removing.keep {s s' : Room Sid} (h : Removing sid s) (hk : Keeps s s') :
    Removing sid s' := by
  intro task rest q hc he
  obtain ⟨j, hj⟩ := h task rest q (hk.drain ▸ hc) he
  exact ⟨j, hk.cached _ _ hj⟩

private theorem keeps_of_eq {s s' : Room Sid}
    (h : s'.remoteParticipantCache = s.remoteParticipantCache)
    (hd : s'.context.loop.drain = s.context.loop.drain) : Keeps s s' :=
  ⟨fun _ _ hk ↦ h ▸ hk, hd⟩

private theorem keeps_mention {s s' : Room Sid} {p : Handle} (h : mention sid s p = some s') :
    Keeps s s' := by
  obtain ⟨-, hc, hx, -⟩ := mention_frame h
  exact keeps_of_eq hc (by rw [hx])

private theorem keeps_observed {s : Room Sid} {p : Handle} {r : Room Sid × Nat}
    (h : Observed sid s p r) : Keeps s r.1 := by
  obtain ⟨-, hc, hx, -⟩ := observed_frame h
  exact keeps_of_eq hc (by rw [hx])

private theorem keeps_wrapped {s s' : Room Sid} {native : Handle × Nat}
    (hw : Wrapped sid s native s') : Keeps s s' := by
  cases hw with
  | found hr => exact keeps_of_eq rfl rfl
  | made hr =>
    refine ⟨fun k v hk ↦ ?_, rfl⟩
    rw [JsMap.get_set]
    split
    · next he =>
      rw [he, hr] at hk
      cases hk
    · exact hk

private theorem keeps_hand (s : Room Sid) (p : Handle) (o : Nat) (m : JsMap Sid (Handle × Nat)) :
    Keeps s (hand sid s p o m) := by
  have hm : Keeps s { (s.newInstance p o).1 with participantCache := m } := keeps_of_eq rfl rfl
  exact hm.trans (keeps_wrapped (wrapped _ _))

private theorem keeps_entries {s s' : Room Sid} {l : List Handle}
    (hx : (entries sid).exec s l = some s') : Keeps s s' := by
  refine Machine.exec_invariant (m := entries sid) (p := Keeps s) ?_ (keeps_of_eq rfl rfl) hx
  intro s₁ p s₂ hk hs
  refine hk.trans ?_
  cases readParticipant_cases hs with
  | cached hm hc hw => exact (keeps_mention hm).trans (keeps_wrapped hw)
  | made hm hc hr =>
    exact ((keeps_mention hm).trans (keeps_observed hr)).trans (keeps_hand _ _ _ _)

private theorem keeps_dispatchEvent {s : Room Sid} (event : RoomEvent) (o : Option Nat)
    (ht : Typed sid s) : Keeps s (s.dispatchEvent event o) := by
  obtain ⟨c, he, -, -, -, -, hd⟩ := dispatch_eq ht.context ht.isOpen ⟨s.raised.length, event, o⟩
  refine keeps_of_eq ?_ ?_ <;> simp only [dispatchEvent, he]
  exact hd

private theorem keeps_dispatchParticipantEvent {s s' : Room Sid} {p : Handle} (event : RoomEvent)
    (ht : Typed sid s) (hm : mention sid s p = some s') :
    Keeps s (dispatchParticipantEvent sid s' p event) := by
  obtain ⟨ht', -, hh⟩ := typed_mention ht hm
  have hr : Observed sid s' p _ := observed s' p
  exact ((keeps_mention hm).trans (keeps_observed hr)).trans
    (keeps_dispatchEvent _ _ (typed_observed ht' hh hr).1)

private theorem cached_of_hand {s : Room Sid} {p : Handle} {o : Nat} {m : JsMap Sid (Handle × Nat)}
    (hf : Fresh sid s p) :
    ∃ j, (hand sid s p o m).remoteParticipantCache.get (sid p) = some (p, j) := by
  have hw : Wrapped sid { (s.newInstance p o).1 with participantCache := m }
      (p, (s.participant p).wraps.length) (hand sid s p o m) := wrapped _ _
  generalize hand sid s p o m = s' at hw
  cases hw with
  | @found r hr =>
    obtain ⟨q, j⟩ := r
    have hr : s.remoteParticipantCache.get (sid p) = some (q, j) := hr
    obtain rfl := hf q j hr
    exact ⟨j, hr⟩
  | made hr => exact ⟨(s.participant p).wraps.length, by simp [JsMap.get_set]⟩

private theorem removing_turn {s s' : Room Sid} {t : Turn} {l : List Handle} (ht : Typed sid s)
    (hf : Admits (Fresh sid) sid s (.turn t l)) (hd : Drains sid s t l s') : Removing sid s' := by
  -- Only a step that starts a callback leads into one.
  have hno : ∀ {c : Traffic Task} {task : Task} {rest : List Task},
      s.context.step (.turn t) = some c → s.context.loop.started t = none →
      c.loop.drain ≠ .calling task rest := by
    intro c task rest hc hst hdr
    cases hst.symm.trans (Traffic.started_of_calling hc hdr)
  cases hd with
  | @starts c task s' hc hst hd =>
    intro task' rest q hdr he
    have key : Keeps { s with context := c } s' → task' = task := by
      intro hk
      have hdr : c.loop.drain = .calling task' rest := hk.drain ▸ hdr
      cases hst.symm.trans (Traffic.started_of_calling hc hdr)
      rfl
    cases hd with
    | seeded hcon hx =>
      obtain rfl := key (keeps_entries hx)
      cases hcon.symm.trans he
    | @handed p o m hp ho hm =>
      obtain rfl := key (keeps_hand _ _ _ _)
      rw [he] at hp
      cases hp
      have hfr : Fresh sid { s with context := c } q := (hf task' hst).2 q (by rw [he]; rfl)
      exact cached_of_hand hfr
    | ignored hp =>
      obtain rfl := key (keeps_of_eq rfl rfl)
      have hpart : task'.event.participant = some q := by
        rw [he]
        rfl
      obtain ⟨o, ho, -⟩ := ht.tasks task' (ht.accepted_of_started hc hst) q hpart
      exact absurd ho (hp q o hpart)
  | @ends c task rest hc hst hd =>
    intro task' rest' q hdr
    refine absurd ?_ (hno hc hst : c.loop.drain ≠ .calling task' rest')
    unfold afterEmit at hdr
    split at hdr <;> exact hdr
  | moves hc hst => exact fun task rest q hdr ↦ absurd hdr (hno hc hst)

private theorem removing_step {s s' : Room Sid} {a : RoomAct} (h : Removing sid s)
    (ht : Typed sid s) (hf : Admits (Fresh sid) sid s a) (hs : step sid s a = some s') :
    Removing sid s' := by
  cases a with
  | onConnected existing =>
    cases hs
    have hrec := typed_present existing ht
    have hk := keeps_dispatchEvent .connected none hrec
    exact h.keep ⟨hk.cached, hk.drain⟩
  | onParticipantConnected p =>
    obtain ⟨s₁, hm, rfl⟩ := Option.map_eq_some_iff.mp hs
    have hk := keeps_dispatchParticipantEvent (.participantConnected p) ht hm
    exact h.keep ⟨hk.cached, hk.drain⟩
  | onParticipantDisconnected p =>
    obtain ⟨s₁, hm, rfl⟩ := Option.map_eq_some_iff.mp hs
    have hr : Observed sid s₁ p _ := observed s₁ p
    have hk := (keeps_mention hm).trans (keeps_observed hr)
    exact h.keep ⟨hk.cached, hk.drain⟩
  | onParticipantReconnecting p =>
    obtain ⟨s₁, hm, rfl⟩ := Option.map_eq_some_iff.mp hs
    exact h.keep (keeps_dispatchParticipantEvent _ ht hm)
  | onParticipantReconnected p =>
    obtain ⟨s₁, hm, rfl⟩ := Option.map_eq_some_iff.mp hs
    exact h.keep (keeps_dispatchParticipantEvent _ ht hm)
  | onDominantSpeakerChanged p =>
    cases p with
    | none =>
      cases hs
      exact h.keep (keeps_dispatchEvent _ _ ht)
    | some p =>
      obtain ⟨s₁, hm, rfl⟩ := Option.map_eq_some_iff.mp hs
      exact h.keep (keeps_dispatchParticipantEvent _ ht hm)
  | onPlain event =>
    cases hs
    exact h.keep (keeps_dispatchEvent _ _ ht)
  | onTrackEvent p =>
    cases hs
    exact h.keep (keeps_of_eq rfl rfl)
  | turn t participants => exact removing_turn ht hf (drains hs)
  | participantTurn p j t =>
    cases participantDrains ht hs with
    | quiet hx => exact h.keep (keeps_of_eq rfl rfl)
    | @hops x i o hx =>
      obtain ⟨c, he, -, -, -, -, hd⟩ := dispatch_eq (typed_turned ht hx).context
        (typed_turned ht hx).isOpen ⟨i, .participantDisconnected p, some o⟩
      rw [he]
      exact h.keep (keeps_of_eq rfl hd)
  | participants participants => exact h.keep (keeps_entries hs)
  | dominantSpeaker p =>
    cases p with
    | none =>
      cases hs
      exact h
    | some p =>
      obtain ⟨s₁, hm, rfl⟩ := Option.map_eq_some_iff.mp hs
      have hr : Observed sid s₁ p _ := observed s₁ p
      exact h.keep (((keeps_mention hm).trans (keeps_observed hr)).trans (keeps_hand _ _ _ _))
  | collect p j =>
    simp only [step] at hs
    split at hs
    · cases hs
    · obtain ⟨x, hx, rfl⟩ := Option.map_eq_some_iff.mp hs
      exact h.keep (keeps_of_eq rfl rfl)

-- What holds along a run in which participants are named in their turn and JS is never given a
-- wrap while it has a stale `RemoteParticipant` under the SID.
private structure Live (sid : Handle → Sid) (s : Room Sid) : Prop where
  reachable : (machine sid).Reachable s
  orderly : Orderly s
  removing : Removing sid s
  attended : ∀ p, Attended sid s p
  flowing : ∀ p, Flowing sid s p

private theorem live_step {s s' : Room Sid} {a : RoomAct} (h : Live sid s)
    (hn : Names (InTurn sid) sid s a) (hf : Admits (Fresh sid) sid s a)
    (hs : step sid s a = some s') : Live sid s' := by
  have ht := typed_of_reachable h.reachable
  have hatt : ∀ p, Attended sid s' p := by
    intro p
    refine attended_step (h.attended p) ht (hf.mono fun _ _ hfr _ ↦ .inr hfr) ?_ hs
    intro task rest q j hd he hc
    obtain ⟨i, hi⟩ := h.removing task rest q hd he
    cases hi.symm.trans hc
    rfl
  refine ⟨h.reachable.step hs, orderly_step h.orderly ht hn hs, removing_step h.removing ht hf hs,
    hatt, fun p ↦ ?_⟩
  exact flowing_step (h.flowing p) ht (logged_of_reachable h.reachable p) (h.attended p)
    (effect_of_step ht hs) (recorded_of_reachable h.reachable) (hatt p)

/-- In every run in which every participant is named in its turn and JS is never given a wrap while
it has cached a `RemoteParticipant` of another native participant under the SID, in every state: a
participant whose `participantConnected` was emitted, and that has not disconnected, is the one JS
has cached under its SID, by the wrap that is bound to the observer registered for it; that one is
installed, and every event raised since the announcement was received or waits on the wrap. -/
theorem reused_sid_live (as : List RoomAct)
    (hf : (machine sid).Along
      (fun s a ↦ Names (InTurn sid) sid s a ∧ Admits (Fresh sid) sid s a) init as)
    (s : Room Sid) (hs : (machine sid).exec init as = some s) (n : Handle)
    (hcon : ∃ t ∈ s.context.started, t.event = .participantConnected n)
    (hlive : (s.participant n).disconnectedAt = none) :
    ∃ (j : Nat) (w : Wrap) (ob : Observer),
      s.remoteParticipantCache.get (sid n) = some (n, j) ∧
      s.participantObservers.get (sid n) = some (n, 0) ∧
      (s.participant n).observer = some 0 ∧ (s.participant n).observers[0]? = some ob ∧
      ob.wrap = some j ∧ (s.participant n).wraps[j]? = some w ∧ w.eventCallback = true ∧
      ∀ c k, (s.participant n).connectedAt = some c → c ≤ k → k < (s.participant n).raised →
        k ∈ w.received ∨ .event k ∈ w.context.loop.contents := by
  have hinit : Live sid (init : Room Sid) := by
    refine ⟨Machine.reachable_init _, ?_, ?_, ?_, flowing_init⟩
    · intro p hp
      cases hp
    · intro task rest q hd
      cases hd
    · rintro p ⟨hobs, -⟩
      exact absurd rfl hobs
  have hl : Live sid s := Machine.exec_invariant_along (m := machine sid)
    (c := fun s a ↦ Names (InTurn sid) sid s a ∧ Admits (Fresh sid) sid s a) (p := Live sid)
    (fun _ _ _ h hf hs ↦ live_step h hf.1 hf.2 hs) hinit hf hs
  have ht := typed_of_reachable hl.reachable
  obtain ⟨t, hts, hte⟩ := hcon
  have htn : t.event.participant = some n := by
    rw [hte]
    rfl
  obtain ⟨o, -, hlt⟩ := ht.tasks t (((Traffic.lawful ht.context).pre rfl).subset hts) n htn
  -- Who has not disconnected is not superseded either.
  have hgone : (s.participant n).gone = false := by simp [Participant.gone, hlive]
  have hsup : (s.participant n).superseded = false := by
    by_contra hne
    have hg := hl.orderly n (by simpa using hne)
    rw [hgone] at hg
    cases hg
  obtain ⟨ob, hco⟩ := hl.attended n ⟨fun hn ↦ by simp [hn] at hlt, hsup, .inl hgone⟩
  cases hw : ob.wrap with
  | none => exact absurd htn ((hco.unbound hw).2 t hts)
  | some j =>
    obtain ⟨hc, w, hwj, hcb⟩ := hco.bound j hw
    obtain ⟨w', hwj', hopen, ha⟩ := hco.owner ht hw
    cases hwj.symm.trans hwj'
    have hob : (s.participant n).observers[0]? = some ob := by
      rw [hco.observers]
      rfl
    refine ⟨j, w, ob, hc, hco.registered hgone, hco.observer, hob, hw, hwj, hcb, ?_⟩
    intro c k hck hle hlt
    -- The event was heard and accepted: it has started, or it waits.
    have hh := (hl.flowing n).announced c hck k hle hlt ⟨hsup, .inl hgone⟩
    obtain ⟨ob', hob', hk⟩ := (hl.flowing n).kept k hh ⟨hsup, .inl hgone⟩
    cases hob.symm.trans hob'
    have hex := (Traffic.lawful ((ht.sane n).law.sound j w hwj)).exact rfl
      (by simpa [Traffic.channel, Wrap.isOpen] using hopen)
    have hcl : w.context.loop.ctx.closed = false := by simpa [Wrap.isOpen] using hopen
    simp only [Traffic.channel, hcl, Bool.false_eq_true, if_false] at hex
    rw [← ha, ← hex] at hk
    rcases List.mem_append.mp hk with hk | hk
    · exact .inl ((hl.flowing n).delivered j w k hwj hk ⟨hsup, .inl hgone⟩)
    · exact .inr hk

-- A participant leaves, JS gets to know, and another one with its SID comes.
private def rejoining : List RoomAct :=
  [.onParticipantConnected 1] ++ drainRun 1 [] ++ [.onParticipantDisconnected 1] ++
    participantDrainRun 1 0 1 ++ drainRun 1 [] ++ [.onParticipantConnected 2, .onTrackEvent 2] ++
    drainRun 1 [2] ++ [.participants [2]]

/-- The newer of two participants with one SID, once JS has forgotten the older one. -/
theorem reused_sid_live_rejoining : ∃ s : Room Unit, (machine fun _ ↦ ()).Reachable s ∧
    emitted s = [0, 1, 2] ∧ ∃ j, s.remoteParticipantCache.get () = some (2, j) := by
  have hf : (machine fun _ ↦ ()).Along (fun s a ↦ Names (InTurn fun _ ↦ ()) (fun _ ↦ ()) s a ∧
      Admits (Fresh fun _ ↦ ()) (fun _ ↦ ()) s a) init rejoining := by
    decide +kernel
  have hrun : ((machine fun _ ↦ ()).exec init rejoining).map (fun s : Room Unit ↦
      (s.context.started.map Task.event, emitted s, (s.participant 2).disconnectedAt)) =
      some ([.participantConnected 1, .participantDisconnected 1, .participantConnected 2],
        [0, 1, 2], none) := by decide +kernel
  obtain ⟨s, hs, hr⟩ := Option.map_eq_some_iff.mp hrun
  simp only [Prod.mk.injEq] at hr
  obtain ⟨hev, hem, hg⟩ := hr
  have hmem : RoomEvent.participantConnected 2 ∈ s.context.started.map Task.event := by simp [hev]
  obtain ⟨j, -, -, hc, -⟩ := reused_sid_live rejoining hf s hs 2 (List.mem_map.mp hmem) hg
  exact ⟨s, ⟨rejoining, hs⟩, hem, j, hc⟩

-- The newer participant comes while the last hop of the older one waits on its own queue.
private def takingOver : List RoomAct :=
  [.onParticipantConnected 1] ++ drainRun 1 [] ++
    [.onParticipantDisconnected 1, .onParticipantConnected 2] ++ drainRun 1 []

/-- A newer participant can be announced while JS still has the `RemoteParticipant` of the older
one, and is then never given one of its own. -/
theorem reused_sid_stale : ¬ ∀ (s : Room Unit), (machine fun _ ↦ ()).Reachable s → ∀ n,
    (∃ t ∈ s.context.started, t.event = .participantConnected n) →
    (s.participant n).disconnectedAt = none →
      ∃ j, s.remoteParticipantCache.get () = some (n, j) := by
  intro h
  have hrun : ((machine fun _ ↦ ()).exec init takingOver).map (fun s : Room Unit ↦
      (s.context.started.map Task.event, (s.participant 2).disconnectedAt,
        s.remoteParticipantCache.get ())) =
      some ([.participantConnected 1, .participantConnected 2], none, some (1, 0)) := by
    decide +kernel
  obtain ⟨s, hs, hr⟩ := Option.map_eq_some_iff.mp hrun
  simp only [Prod.mk.injEq] at hr
  obtain ⟨hev, hg, hc⟩ := hr
  have hmem : RoomEvent.participantConnected 2 ∈ s.context.started.map Task.event := by simp [hev]
  obtain ⟨j, hj⟩ := h s ⟨takingOver, hs⟩ 2 (List.mem_map.mp hmem) hg
  rw [hc] at hj
  cases hj

-- The older participant is there when the Room connects, is never read, and leaves late.
private def overlapping : List RoomAct :=
  [.onConnected [1], .onParticipantConnected 2] ++ drainRun 2 [2] ++ [.onParticipantDisconnected 1]

/-- Nothing stale is met here, but the late callback about 1 takes the registration of 2. -/
example : (machine fun _ ↦ ()).Along (Admits (Fresh fun _ ↦ ()) fun _ ↦ ()) init overlapping ∧
    ((machine fun _ ↦ ()).exec init overlapping).map (fun s : Room Unit ↦
      ((s.participant 2).disconnectedAt, s.participantObservers.get ())) = some (none, none) := by
  decide +kernel

end Room

end VideoNode.Remote
