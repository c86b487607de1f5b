import VideoNode.Frames.Sinks

/-!
# Sinks that are never freed

`detachSink` frees a sink where it can unregister it and only closes it where it cannot. What a run
leaves unfreed is exactly what it let go of while the track was unavailable.
-/

namespace VideoNode.Frames.FrameSinks

open VideoNode.Common VideoNode.Lts

variable {F : Type}

/-- A sink that is closed and will not be freed any more. -/
def Leaked (s : FrameSinks F) (i : Nat) : Prop :=
  ∃ k : FrameSink F, s.sinks[i]? = some k ∧ k.closed = true ∧ k.freed = false

/-- The sink wrap `j` has while its track is unavailable. -/
def unregisterable (s : FrameSinks F) (j : Nat) : List Nat :=
  (s.wraps[j]?.bind fun w ↦ if s.available w.track then none else w.frameSink).toList

/-- The sink a step lets go of without freeing it. -/
def leaks (s : FrameSinks F) : FrameSinksAct F → List Nat
  | .attachFrameSink j _ | .detachFrameSink j | .destroyWrap j => s.unregisterable j
  | _ => []

private theorem leaked_detachSink {s r : FrameSinks F} (h : s.Safe) {j : Nat} {w : MediaTrackWrap}
    (hw : s.wraps[j]? = some w) (hd : s.detachSink j w = some r) (i : Nat) :
    r.Leaked i ↔ s.Leaked i ∨ i ∈ s.unregisterable j := by
  rcases detachSink_cases h hw hd with ⟨hn, rfl⟩ | ⟨m, k, context, hm, hk, ho, -, rfl⟩
  · simp [unregisterable, hw, hn]
  · by_cases him : i = m
    · subst him
      have hl : ¬s.Leaked i := by
        rintro ⟨c, hc, hcl, -⟩
        rw [hk] at hc
        cases hc
        rw [ho] at hcl
        cases hcl
      have hi : (s.detached j w i k context).sinks[i]? = some _ := Parties.getElem?_set_self hk
      cases ha : s.available w.track <;>
        simp [Leaked, hi, unregisterable, hw, hm, ha, hk, ho]
    · have hi : (s.detached j w m k context).sinks[i]? = s.sinks[i]? :=
        List.getElem?_set_ne fun he ↦ him he.symm
      have hu : i ∉ s.unregisterable j := by
        simp only [unregisterable, hw, hm, Option.bind_some]
        split
        · simp
        · simpa using him
      simp [Leaked, hi, hu]

private theorem leaked_set {s : FrameSinks F} {m : Nat} {k k' : FrameSink F}
    (hk : s.sinks[m]? = some k) (hc : k'.closed = k.closed) (hf : k'.freed = k.freed)
    (fault : Bool) (i : Nat) :
    Leaked { s with sinks := s.sinks.set m k', fault := fault } i ↔ s.Leaked i := by
  by_cases him : i = m
  · subst him
    simp [Leaked, Parties.getElem?_set_self hk, hk, hc, hf]
  · have hi : (s.sinks.set m k')[i]? = s.sinks[i]? :=
      List.getElem?_set_ne fun he ↦ him he.symm
    simp [Leaked, hi]

/-- What a step leaks. -/
theorem leaked_step {s s' : FrameSinks F} {a : FrameSinksAct F} (h : s.Safe)
    (hs : s.step a = some s') (i : Nat) : s'.Leaked i ↔ s.Leaked i ∨ i ∈ s.leaks a := by
  cases stepped hs with
  | subscribe | setAvailable | newInstance => simp [Leaked, leaks]
  | attachFrameSink hw _ hd =>
    rw [leaks, ← leaked_detachSink h hw hd]
    simp only [Leaked, (makeSink_frame _ _ _ _).2.1]
    constructor
    · rintro ⟨k, hk, hc, hf⟩
      rcases Parties.getElem?_concat hk with ⟨-, rfl⟩ | hk
      · cases hc
      · exact ⟨k, hk, hc, hf⟩
    · rintro ⟨k, hk, hc, hf⟩
      refine ⟨k, ?_, hc, hf⟩
      exact (List.getElem?_append_left (List.getElem?_eq_some_iff.mp hk).1).trans hk
  | detachFrameSink hw _ hd => exact leaked_detachSink h hw hd i
  | destroyWrap hw _ hd => exact leaked_detachSink h hw hd i
  | @onFrame n m frame t r ht hm hd =>
    obtain ⟨k, hk, -⟩ := h.listed n t m ht hm
    obtain ⟨-, hc, hf⟩ := (h.sound m k hk).deliverFrame frame
    simp only [deref, hk, Option.map_some, Option.some.injEq] at hd
    subst hd
    rw [leaked_set hk hc hf]
    simp [leaks]
  | @turn m t k context hk hct =>
    obtain ⟨-, hc, hf, -⟩ := (h.sound m k hk).turned hct
    rw [leaked_set hk hc hf]
    simp [leaks]

/-- What a run leaks. -/
theorem leaked_exec {s s' : FrameSinks F} {as : List (FrameSinksAct F)} (h : s.Safe)
    (hr : (machine F).exec s as = some s') (i : Nat) :
    s'.Leaked i ↔ s.Leaked i ∨ i ∈ (machine F).collect leaks s as := by
  induction as generalizing s with
  | nil =>
    cases hr
    simp [Machine.collect]
  | cons a as ih =>
    obtain ⟨u, ha, hu⟩ := Machine.exec_cons_some.mp hr
    have ha : s.step a = some u := ha
    rw [ih (h.step ha) hu, leaked_step h ha]
    have hm : (machine F).step s a = some u := ha
    simp [Machine.collect, hm, or_assoc]

/-- In every run a sink that is closed was freed, unless it is one of those the run let go of while
their track was unavailable. Once no wrap has a sink, all other sinks are freed, and what WebRTC
still has are sinks that will never be freed. -/
theorem sinks_leaked_iff (as : List (FrameSinksAct F)) (s : FrameSinks F)
    (h : (machine F).exec (machine F).init as = some s) :
    (∀ (i : Nat) (k : FrameSink F), s.sinks[i]? = some k → k.closed = true →
      (k.freed = false ↔ i ∈ (machine F).collect leaks (machine F).init as)) ∧
    ((∀ w ∈ s.wraps, w.frameSink = none) →
      (∀ (i : Nat) (k : FrameSink F), s.sinks[i]? = some k → k.freed = true ∨
        i ∈ (machine F).collect leaks (machine F).init as) ∧
      ∀ t ∈ s.tracks, ∀ i ∈ t.sinks, i ∈ (machine F).collect leaks (machine F).init as) := by
  have hi := safe_of_reachable ⟨as, h⟩
  have hinit : ∀ i, ¬(machine F).init.Leaked i := by simp [Leaked, machine]
  have hl : ∀ (i : Nat) (k : FrameSink F), s.sinks[i]? = some k → k.closed = true →
      (k.freed = false ↔ i ∈ (machine F).collect leaks (machine F).init as) := by
    intro i k hk hc
    have he := leaked_exec (safe_of_reachable (machine F).reachable_init) h i
    rw [or_iff_right (hinit i)] at he
    rw [← he]
    constructor
    · intro hf
      exact ⟨k, hk, hc, hf⟩
    · rintro ⟨c, hck, -, hf⟩
      cases hk.symm.trans hck
      exact hf
  refine ⟨hl, fun hn ↦ ?_⟩
  have hclosed : ∀ (i : Nat) (k : FrameSink F), s.sinks[i]? = some k → k.closed = true := by
    intro i k hk
    cases hc : k.closed with
    | true => rfl
    | false =>
      obtain ⟨j, w, hj, hw⟩ := hi.owned i k hk hc
      rw [hn w (List.mem_of_getElem? hj)] at hw
      cases hw
  constructor
  · intro i k hk
    cases hf : k.freed with
    | true => exact .inl rfl
    | false => exact .inr ((hl i k hk (hclosed i k hk)).mp hf)
  · intro t ht i hm
    obtain ⟨n, hn⟩ := List.mem_iff_getElem?.mp ht
    obtain ⟨k, hk, hf⟩ := hi.listed n t i hn hm
    exact (hl i k hk (hclosed i k hk)).mp hf

-- Two wraps of one track, one let go of before and one after the Room ended remotely.
private def lateRelease : List (FrameSinksAct Nat) :=
  [.subscribe, .newInstance 0, .newInstance 0, .attachFrameSink 0 5, .attachFrameSink 1 1,
    .onFrame 0 1 1, .detachFrameSink 0, .setAvailable 0 false, .destroyWrap 1, .destroyWrap 0]

/-- Of the two sinks of the run only the one let go of after the end is leaked. -/
theorem sinks_leaked_iff_lateRelease :
    (machine Nat).collect leaks (machine Nat).init lateRelease = [1] ∧
    ∃ s, (machine Nat).exec (machine Nat).init lateRelease = some s ∧
      ∀ t ∈ s.tracks, ∀ i ∈ t.sinks, i ∈ [1] := by
  have hrun : ((machine Nat).exec (machine Nat).init lateRelease).map (fun s ↦
      s.wraps.map MediaTrackWrap.frameSink) = some [none, none] := by decide +kernel
  have hc : (machine Nat).collect leaks (machine Nat).init lateRelease = [1] := by
    decide +kernel
  obtain ⟨s, hs, hr⟩ := Option.map_eq_some_iff.mp hrun
  refine ⟨hc, s, hs, ?_⟩
  rw [← hc]
  refine ((sinks_leaked_iff lateRelease s hs).2 fun w hw ↦ ?_).2
  have hm := List.mem_map_of_mem (f := MediaTrackWrap.frameSink) hw
  rw [hr] at hm
  simpa using hm

end VideoNode.Frames.FrameSinks
