import VideoNode.Frames.Consumption

/-!
# The newest frame

What `mode: 'latest'` promises (`lib/types.ts:130–149`, `FRAME_CONTRACT.md:75–77`) against what the
stream does: the mode only chooses the bound of the queue, and `drop` decides what a full queue
keeps.
-/

namespace VideoNode.Frames

open VideoNode.Js VideoNode.Lts

/-- Unless the caller named `'newest'`, the accepted policy sheds the oldest. -/
theorem checkDrop_oldest_iff {kind : TrackKind} {v : JsValue} {drop : DropPolicy}
    (h : checkDrop (v.orElse (DEFAULTS kind).drop.literal) = .ok drop) :
    drop = .oldest ↔ v ≠ .string "newest" := by
  have hd : (DEFAULTS kind).drop.literal = .string "oldest" := by cases kind <;> rfl
  rw [hd] at h
  constructor
  · rintro hv rfl
    cases h
    cases hv
  · intro hv
    unfold checkDrop at h
    split at h
    · cases h
      rfl
    · next hn =>
      cases v with
      | undefined | null => simp [JsValue.orElse] at hn
      | string s =>
        cases hn
        exact absurd rfl hv
      | _ => cases hn
    · cases h

/-- Accepted options in mode `latest` without a bound of their own: the bound is one and the
policy is the caller's. -/
theorem resolveOptions_latest {kind : TrackKind} {options : JsValue} {r : ResolvedOptions}
    (hr : resolveOptions kind options = .ok r) (hm : r.mode = .latest)
    (hq : (options.get "maxQueue").isUndefined = true) :
    r.maxQueue = 1 ∧ (r.drop = .oldest ↔ options.get "drop" ≠ .string "newest") := by
  have hg : ∀ key : String,
      (if options.isUndefined then .object [] else options : JsValue).get key =
        options.get key := by
    intro key
    cases options <;> rfl
  simp only [resolveOptions] at hr
  generalize (if options.isUndefined then .object [] else options : JsValue) = o at hg hr
  by_cases ho : o.isObject = true
  · simp only [ho, hg, hq, Bool.not_true, Bool.false_eq_true, if_false, if_true] at hr
    cases hmode : checkMode ((options.get "mode").orElse (DEFAULTS kind).mode.literal) with
    | error e =>
      rw [hmode] at hr
      cases hr
    | ok mode =>
      cases hdrop : checkDrop ((options.get "drop").orElse (DEFAULTS kind).drop.literal) with
      | error e =>
        rw [hmode, hdrop] at hr
        cases hr
      | ok drop =>
        rw [hmode, hdrop] at hr
        cases mode with
        | latest =>
          cases hr
          exact ⟨rfl, checkDrop_oldest_iff hdrop⟩
        | queue =>
          cases hr
          cases hm
  · simp only [ho, Bool.not_false, if_true] at hr
    cases hr

namespace Consumption

variable {T : Type} {timestamp : T → JsNumber} {opts : ResolvedOptions}
  {hasOnDropped hasOnEnd : Bool}

/-- Should `next()` be called now and take a frame, it is the most recently pushed one. -/
def TakesNewest (timestamp : T → JsNumber) (w : Consumption T) : Prop :=
  ∀ frame, (w.stream.next timestamp w.calls).2 = [.settle w.calls (.value frame)] →
    w.pushed.getLast? = some frame

/-- A push that finds the queue full makes room for its frame. -/
def MakesRoom (w : Consumption T) : ConsumptionAct T → Prop
  | .push _ => w.stream.opts.maxQueue ≤ w.stream.queue.length → w.stream.opts.drop = .oldest
  | .next | .end_ | .return_ | .timer _ => True

private theorem takesNewest_iff {w : Consumption T} : w.TakesNewest timestamp ↔
    ∀ frame rest, w.stream.queue = frame :: rest → w.pushed.getLast? = some frame := by
  constructor
  · intro h frame rest hq
    apply h
    simp [FrameStream.next, hq]
  · intro h frame hn
    have ht := w.stream.nexted timestamp w.calls
    rw [hn] at ht
    generalize (w.stream.next timestamp w.calls).1 = s' at ht
    cases ht with
    | taken hq => exact h _ _ hq

private theorem takesNewest_of_nil {w : Consumption T} (hq : w.stream.queue = []) :
    w.TakesNewest timestamp := by
  rw [takesNewest_iff]
  intro frame rest hc
  rw [hq] at hc
  cases hc

private theorem push_of_room {s : FrameStream T} {frame : T} (he : s.ended = false)
    (hx : s.waiters = []) (hone : s.opts.maxQueue = 1) (hb : s.queue.length ≤ 1)
    (hm : s.opts.maxQueue ≤ s.queue.length → s.opts.drop = .oldest) :
    (s.push timestamp frame).1.queue = [frame] := by
  simp only [FrameStream.push, he, hx, Bool.false_eq_true, if_false]
  split
  · next hf =>
    rw [hm hf]
    have hk : s.queue.length + 1 - s.opts.maxQueue = s.queue.length := by omega
    simp [FrameStream.makeRoom_eq, hk]
  · next hf =>
    have hq : s.queue = [] := by
      apply List.eq_nil_of_length_eq_zero
      omega
    simp [hq]

private theorem push_of_full {s : FrameStream T} {frame : T} (he : s.ended = false)
    (hx : s.waiters = []) (hf : s.opts.maxQueue ≤ s.queue.length) (hd : s.opts.drop ≠ .oldest) :
    s.push timestamp frame = (s.countDrop, []) := by
  cases hn : s.opts.drop with
  | oldest => exact absurd hn hd
  | newest => simp [FrameStream.push, he, hx, hf, hn]

private theorem takesNewest_push {w w' : Consumption T} {frame : T}
    (hi : Inv opts hasOnEnd w) (hone : opts.maxQueue = 1) (hw : w.TakesNewest timestamp)
    (hs : w.step timestamp (.push frame) = some w') :
    (w.MakesRoom (.push frame) → w'.TakesNewest timestamp) ∧
      (w'.pushed.Nodup → w'.TakesNewest timestamp → w.MakesRoom (.push frame)) := by
  have hone : w.stream.opts.maxQueue = 1 := by rw [hi.sameOpts, hone]
  have hb : w.stream.queue.length ≤ 1 := by
    rw [← hone, hi.sameOpts]
    exact hi.bound
  cases hs
  by_cases hq : w.stream.queue = []
  · -- Nothing is queued, so nothing can be shed.
    have hm : w.MakesRoom (.push frame) := by
      intro hf
      rw [hq, List.length_nil] at hf
      omega
    refine ⟨fun _ ↦ ?_, fun _ _ ↦ hm⟩
    cases he : w.stream.ended with
    | true =>
      apply takesNewest_of_nil
      simpa [FrameStream.push, he] using hq
    | false =>
      cases hx : w.stream.waiters with
      | cons waiter waiters =>
        apply takesNewest_of_nil
        simpa [FrameStream.push, he, hx] using hq
      | nil =>
        rw [takesNewest_iff]
        intro f rest hc
        rw [push_of_room he hx hone hb hm] at hc
        cases hc
        simp
  · have he : w.stream.ended = false := by
      cases he : w.stream.ended with
      | true => exact absurd (hi.ended he).1 hq
      | false => rfl
    have hx : w.stream.waiters = [] := hi.exclusive.resolve_right hq
    constructor
    · intro hm
      rw [takesNewest_iff]
      intro f rest hc
      rw [push_of_room he hx hone hb hm] at hc
      cases hc
      simp [he]
    · intro hn ht hf
      by_contra hd
      -- The frame kept was the last one pushed before this one.
      obtain ⟨old, rest, hold⟩ := List.exists_cons_of_ne_nil hq
      have hlast : w.pushed.getLast? = some old := (takesNewest_iff.mp hw) old rest hold
      simp only [push_of_full he hx hf hd, he, Bool.false_eq_true, if_false] at hn ht
      have hnew := (takesNewest_iff.mp ht) old rest hold
      simp only [List.getLast?_append, List.getLast?_singleton, Option.some_or,
        Option.some.injEq] at hnew
      have hmem : old ∈ w.pushed := List.mem_of_getLast? hlast
      exact (List.nodup_append.mp hn).2.2 old hmem frame (by simp) hnew.symm

-- The only step that can break the promise is a push that sheds its own frame.
private theorem takesNewest_step {w w' : Consumption T} {a : ConsumptionAct T}
    (hi : Inv opts hasOnEnd w) (hone : opts.maxQueue = 1) (hw : w.TakesNewest timestamp)
    (hs : w.step timestamp a = some w') :
    (w.MakesRoom a → w'.TakesNewest timestamp) ∧
      (w'.pushed.Nodup → w'.TakesNewest timestamp → w.MakesRoom a) := by
  cases stepped hs with
  | push => exact takesNewest_push hi hone hw hs
  | next hp =>
    refine ⟨fun _ ↦ ?_, fun _ _ ↦ True.intro⟩
    have hb := hi.bound
    apply takesNewest_of_nil
    cases hp with
    | @taken frame queue hq =>
      rw [hq, List.length_cons] at hb
      apply List.eq_nil_of_length_eq_zero
      show queue.length = 0
      omega
    | ended hq | parked hq => exact hq
  | end_ | return_ =>
    refine ⟨fun _ ↦ ?_, fun _ _ ↦ True.intro⟩
    apply takesNewest_of_nil
    unfold FrameStream.endStream
    split
    · next he => exact (hi.ended he).1
    · rfl
  | timer =>
    refine ⟨fun _ ↦ ?_, fun _ _ ↦ True.intro⟩
    have hw := takesNewest_iff.mp hw
    exact takesNewest_iff.mpr hw

private theorem pushed_grows {w w' : Consumption T} {run : List (ConsumptionAct T)}
    (hr : (machine timestamp opts hasOnDropped hasOnEnd).exec w run = some w') :
    w.pushed <+: w'.pushed := by
  refine Machine.exec_invariant (p := fun v : Consumption T ↦ w.pushed <+: v.pushed) ?_
    (List.prefix_refl _) hr
  intro v a t hv hs
  refine hv.trans ?_
  have hs : v.step timestamp a = some t := hs
  cases a with
  | push frame =>
    cases hs
    dsimp only
    split
    · exact List.prefix_refl _
    · exact List.prefix_append _ _
  | next | end_ | return_ =>
    cases hs
    exact List.prefix_refl _
  | timer nowUs =>
    simp only [step] at hs
    split at hs
    · cases hs
      exact List.prefix_refl _
    · cases hs

/-- A stream with a bound of one hands its consumer the newest frame for as long as every push
makes room for its own; when no frame is pushed twice, only for as long. -/
theorem along_makesRoom {w w' : Consumption T} {run : List (ConsumptionAct T)}
    (h : (machine timestamp opts hasOnDropped hasOnEnd).Reachable w) (hone : opts.maxQueue = 1)
    (hw : w.TakesNewest timestamp)
    (hr : (machine timestamp opts hasOnDropped hasOnEnd).exec w run = some w') :
    ((machine timestamp opts hasOnDropped hasOnEnd).Along MakesRoom w run →
      (machine timestamp opts hasOnDropped hasOnEnd).Always (TakesNewest timestamp) w run) ∧
    (w'.pushed.Nodup →
      (machine timestamp opts hasOnDropped hasOnEnd).Always (TakesNewest timestamp) w run →
      (machine timestamp opts hasOnDropped hasOnEnd).Along MakesRoom w run) := by
  induction run generalizing w with
  | nil => exact ⟨fun _ ↦ hw, fun _ _ ↦ True.intro⟩
  | cons a run ih =>
    obtain ⟨v, ha, hr⟩ := Machine.exec_cons_some.mp hr
    obtain ⟨hkeep, hbreak⟩ := takesNewest_step (inv_of_reachable h) hone hw ha
    simp only [Machine.Always, Machine.Along, ha, Option.some.injEq, forall_eq']
    constructor
    · rintro ⟨hm, hrest⟩
      exact ⟨hw, (ih (h.step ha) (hkeep hm) hr).1 hrest⟩
    · rintro hn ⟨-, hrest⟩
      have hv : v.pushed.Nodup := hn.sublist (pushed_grows hr).sublist
      have ht := hrest.head
      exact ⟨hbreak hv ht, (ih (h.step ha) ht hr).2 hn hrest⟩

private def clock (n : Nat) : JsNumber := .finite n

-- Two frames pushed while nobody waits.
private def behindRun : List (ConsumptionAct Nat) := [.push 1, .push 2]

-- The second push of the run is the one that finds a queue of one full.
private theorem drop_of_takesNewest (hone : opts.maxQueue = 1)
    (h : ∀ w : Consumption Nat, (machine clock opts true true).Reachable w →
      w.TakesNewest clock) : opts.drop = .oldest := by
  let fresh : FrameStream Nat := .create opts true true
  let full : Consumption Nat := ⟨{ fresh with queue := [1] }, [1], 0, []⟩
  have hfirst : (machine clock opts true true).exec (machine clock opts true true).init
      [.push 1] = some full := by
    simp [machine, Machine.exec, step, FrameStream.push, FrameStream.create, hone, full, fresh]
  have hr : (machine clock opts true true).Reachable full := ⟨[.push 1], hfirst⟩
  have hs : full.step clock (.push 2) = some _ := rfl
  have hn : [1, 2].Nodup := by decide
  have hm := (takesNewest_push (inv_of_reachable hr) hone (h full hr) hs).2 hn
    (h _ (hr.step (a := .push 2) hs))
  apply hm
  show opts.maxQueue ≤ 1
  omega

/-- Mode `latest` without a bound of its own hands over the newest frame, whatever is done to the
stream, exactly if the caller did not ask to drop the newest. On a single run it does so up to
the end exactly if every push that finds the queue full sheds the frame it holds. -/
theorem latest_takes_newest_iff (kind : TrackKind) (options : JsValue) (r : ResolvedOptions)
    (hr : resolveOptions kind options = .ok r) (hm : r.mode = .latest)
    (hq : (options.get "maxQueue").isUndefined = true) :
    ((∀ (T : Type) (timestamp : T → JsNumber) (hasOnDropped hasOnEnd : Bool) (w : Consumption T),
        (machine timestamp r hasOnDropped hasOnEnd).Reachable w → w.TakesNewest timestamp) ↔
      options.get "drop" ≠ .string "newest") ∧
    ∀ (T : Type) (timestamp : T → JsNumber) (hasOnDropped hasOnEnd : Bool)
      (run : List (ConsumptionAct T)) (w : Consumption T),
      (machine timestamp r hasOnDropped hasOnEnd).exec
        (machine timestamp r hasOnDropped hasOnEnd).init run = some w → w.pushed.Nodup →
      ((machine timestamp r hasOnDropped hasOnEnd).Always (TakesNewest timestamp)
          (machine timestamp r hasOnDropped hasOnEnd).init run ↔
        (machine timestamp r hasOnDropped hasOnEnd).Along MakesRoom
          (machine timestamp r hasOnDropped hasOnEnd).init run) := by
  obtain ⟨hone, hdrop⟩ := resolveOptions_latest hr hm hq
  refine ⟨?_, ?_⟩
  · rw [← hdrop]
    constructor
    · intro h
      exact drop_of_takesNewest hone (h Nat clock true true)
    · intro hd T timestamp hasOnDropped hasOnEnd w hw
      refine hw.invariant_of_reachable (takesNewest_of_nil rfl) ?_
      intro v a v' hv ht hs
      apply (takesNewest_step (inv_of_reachable hv) hone ht hs).1
      cases a with
      | push frame =>
        intro _
        rw [(inv_of_reachable hv).sameOpts]
        exact hd
      | next | end_ | return_ | timer nowUs => exact True.intro
  · intro T timestamp hasOnDropped hasOnEnd run w hw hn
    have h := along_makesRoom (Machine.reachable_init _) hone (takesNewest_of_nil rfl) hw
    exact ⟨h.2 hn, h.1⟩

/-- Asking for the latest frame by name, on an audio track. -/
theorem latest_takes_newest_iff_audio :
    ∃ r, resolveOptions .audio (.object [("mode", .string "latest")]) = .ok r ∧
      ∀ w : Consumption Nat, (machine clock r true true).Reachable w → w.TakesNewest clock := by
  refine ⟨⟨.latest, 1, .oldest, by decide, by decide⟩, rfl, ?_⟩
  apply ((latest_takes_newest_iff .audio (.object [("mode", .string "latest")]) _ rfl rfl
    rfl).1.mpr ?_)
  simp [JsValue.get, List.lookup_cons]

/-- With `drop: 'newest'` a consumer that falls behind is given the older of two frames. -/
theorem latest_takes_older : ¬ ∀ (kind : TrackKind) (options : JsValue) (r : ResolvedOptions),
    resolveOptions kind options = .ok r → r.mode = .latest →
    (options.get "maxQueue").isUndefined = true →
    ∀ (T : Type) (timestamp : T → JsNumber) (hasOnDropped hasOnEnd : Bool) (w : Consumption T),
      (machine timestamp r hasOnDropped hasOnEnd).Reachable w → w.TakesNewest timestamp := by
  intro h
  have hr : (machine clock ⟨.latest, 1, .newest, by decide, by decide⟩ true true).Reachable _ :=
    ⟨behindRun, rfl⟩
  have ht := h .video (.object [("drop", .string "newest")]) _ rfl rfl rfl Nat clock true true _
    hr 1 rfl
  exact absurd ht (by decide)

end Consumption

end VideoNode.Frames
