import VideoNode.Frames.MediaTrack

/-!
# The statistics of a media track

`getStats()` of `RemoteMediaTrack` (`lib/remote_track.ts:167–175`) over all the receivers of the
track: while one is active it reads both queues, and the report of the last one that ended stays.
That report is taken in `onEnd`, once the JS queue is cleared and before the sink is detached.
-/

namespace VideoNode.Frames

open VideoNode.Js VideoNode.Common VideoNode.Lts

namespace Consumption

variable {T : Type} {timestamp : T → JsNumber} {opts : ResolvedOptions}
  {hasOnDropped hasOnEnd : Bool}

private theorem lastTimestamp_step {w w' : Consumption T} {a : ConsumptionAct T}
    (h : w.stream.lastTimestamp = w.handed.getLast?.map timestamp)
    (hs : w.step timestamp a = some w') :
    w'.stream.lastTimestamp = w'.handed.getLast?.map timestamp := by
  cases stepped hs with
  | push hp =>
    cases hp with
    | ended he => simpa [handed] using h
    | handed he hw => simp [handed]
    | shedNewest he hw hf => simpa [handed, FrameStream.countDrop] using h
    | queued he hw => simpa [handed] using h
  | next hp =>
    cases hp with
    | taken hq => simp [handed]
    | ended hq he => simpa [handed] using h
    | parked hq he => simpa [handed] using h
  | end_ | return_ =>
    have hs : w.step timestamp .end_ =
      some ⟨w.stream.endStream.1, w.pushed, w.calls, w.log ++ w.stream.endStream.2⟩ := rfl
    have hh := handed_end hs
    have hl : w.stream.endStream.1.lastTimestamp = w.stream.lastTimestamp := by
      unfold FrameStream.endStream
      split <;> rfl
    rw [hh]
    exact hl.trans h
  | timer ht =>
    rw [handed_timer hs]
    exact h

/-- `lastTimestamp` is that of the frame handed over last. -/
theorem lastTimestamp_eq {w : Consumption T}
    (h : (machine timestamp opts hasOnDropped hasOnEnd).Reachable w) :
    w.stream.lastTimestamp = w.handed.getLast?.map timestamp :=
  h.invariant (p := fun w : Consumption T ↦
    w.stream.lastTimestamp = w.handed.getLast?.map timestamp) rfl
    fun _ _ _ hw hs ↦ lastTimestamp_step hw hs

end Consumption

namespace Receiver

variable {T : Type} {timestamp : T → JsNumber}

/-- Frames the JS thread has taken from the native queue and not pushed yet. -/
def inHand (w : Receiver T) : Nat := w.native.loop.drain.batch.length

/-- A step takes no more in hand than the native queue holds. -/
theorem inHand_step {r : ResolvedOptions} {w w' : Receiver T} {a : ReceiverAct T}
    (h : Inv timestamp r w) (hb : w.inHand ≤ r.maxQueue) (hs : w.step timestamp a = some w') :
    w'.inHand ≤ r.maxQueue := by
  cases a with
  | onFrame frame =>
    cases frame with
    | none =>
      cases hs
      exact hb
    | some frame =>
      obtain ⟨n, hn, rfl⟩ := Option.map_eq_some_iff.mp hs
      cases Traffic.stepped hn
      exact hb
  | turn t =>
    obtain ⟨-, n, hn, hw'⟩ := turned hs
    obtain ⟨l, hl, rfl⟩ := Option.map_eq_some_iff.mp hn
    have hle : l.drain.batch.length ≤ r.maxQueue := by
      have hq := h.bound
      simp only [inHand] at hb
      generalize w.native.loop = l₀ at hl hb hq
      cases Loop.turned hl with
      | swap => exact hq
      | next | nextClosed =>
        simp only [Drain.batch, List.length_cons, List.length_nil] at hb ⊢
        omega
      | returned | threw => exact hb
      | onAsync | swapClosed | finished | returnedDead | threwDead | requeue | reported =>
        exact Nat.zero_le _
    rcases hw' with ⟨-, rfl⟩ | ⟨frame, j, -, -, rfl⟩ <;> exact hle
  | next | timer nowUs =>
    simp only [step, Option.map_eq_some_iff] at hs
    obtain ⟨j, hj, rfl⟩ := hs
    exact hb

end Receiver

/-- `RemoteMediaTrack` with `lastStats`; `lib/remote_track.ts:70–71`. -/
structure RemoteMediaTrack (P : Type) where
  track : MediaTrack P
  lastStats : Option DeliveryStats

namespace RemoteMediaTrack

variable {P : Type} {kind : TrackKind} {timestamp : FrameData P → JsNumber}

/-- `getStats()`; `lib/remote_track.ts:171–175`. -/
def getStats (s : RemoteMediaTrack P) : DeliveryStats :=
  match s.track.stream with
  | some r => r.receiver.getStats
  | none => s.lastStats.getD ⟨0, 0, 0, 0, none⟩

/-- What `onEnd` keeps, with the sink still attached; `lib/remote_track.ts:125–130`. -/
def finalStats (w : Receiver (FrameData P)) : DeliveryStats :=
  w.js.stream.endStream.1.getStats (some w.sinkStats)

/-- One step of the track. Only the end of an active receiver writes `lastStats`. -/
def step (kind : TrackKind) (timestamp : FrameData P → JsNumber) (s : RemoteMediaTrack P)
    (a : MediaTrackAct P) : Option (RemoteMediaTrack P) :=
  (s.track.step kind timestamp a).map fun track ↦
    ⟨track,
      match a, s.track.stream with
      | .end_, some r => some (finalStats r.receiver)
      | _, _ => s.lastStats⟩

/-- A wrapper nobody has asked for frames yet, and everything that can happen to its track. -/
def machine (kind : TrackKind) (timestamp : FrameData P → JsNumber) :
    Machine (RemoteMediaTrack P) (MediaTrackAct P) where
  init := ⟨⟨none, [], []⟩, none⟩
  step := step kind timestamp

/-- The active receiver keeps what a receiver keeps, and takes no more in hand than fits. -/
def Active (timestamp : FrameData P → JsNumber) (s : RemoteMediaTrack P) : Prop :=
  ∀ r, s.track.stream = some r → ∃ opts, Receiver.Inv timestamp opts r.receiver ∧
    r.receiver.inHand ≤ opts.maxQueue

private theorem active_onFrame {r r' : Reception P} {opts : ResolvedOptions}
    {decoded : Decoded P} (h : Receiver.Inv timestamp opts r.receiver)
    (hb : r.receiver.inHand ≤ opts.maxQueue) (hs : r.onFrame decoded = some r') :
    Receiver.Inv timestamp opts r'.receiver ∧ r'.receiver.inHand ≤ opts.maxQueue := by
  have hf : ∃ frame, r.receiver.onFrame frame = some r'.receiver := by
    cases decoded with
    | noBuffer | copyThrew =>
      simp only [Reception.onFrame, Option.map_eq_some_iff] at hs
      obtain ⟨receiver, hr, rfl⟩ := hs
      exact ⟨none, hr⟩
    | copied payload =>
      simp only [Reception.onFrame, Option.map_eq_some_iff] at hs
      obtain ⟨receiver, hr, rfl⟩ := hs
      exact ⟨_, hr⟩
  obtain ⟨frame, hf⟩ := hf
  exact ⟨Receiver.inv_step (a := .onFrame frame) h hf,
    Receiver.inHand_step (a := .onFrame frame) h hb hf⟩

private theorem active_step {s s' : RemoteMediaTrack P} {a : MediaTrackAct P}
    (h : Active timestamp s) (hs : s.step kind timestamp a = some s') : Active timestamp s' := by
  obtain ⟨track, ht, rfl⟩ := Option.map_eq_some_iff.mp hs
  intro r hr
  have hr : track.stream = some r := hr
  cases a with
  | frames options =>
    cases ht
    unfold MediaTrack.frames at hr
    split at hr
    · next receiver hn hf =>
      obtain ⟨opts, -, rfl⟩ := Receiver.frames_ok hf
      cases hr
      exact ⟨opts, Receiver.inv_attached opts, Nat.zero_le _⟩
    · exact h r hr
  | onFrame decoded =>
    simp only [MediaTrack.step] at ht
    split at ht
    · cases ht
      exact h r hr
    · next r₀ h₀ =>
      obtain ⟨r', hd, rfl⟩ := Option.map_eq_some_iff.mp ht
      cases hr
      obtain ⟨opts, hi, hb⟩ := h r₀ h₀
      exact ⟨opts, active_onFrame hi hb hd⟩
  | receiver a =>
    simp only [MediaTrack.step, Option.bind_eq_some_iff, Option.map_eq_some_iff] at ht
    obtain ⟨r₀, h₀, receiver, hv, rfl⟩ := ht
    cases hr
    obtain ⟨opts, hi, hb⟩ := h r₀ h₀
    have hv := MediaTrack.step_of_serve hv
    exact ⟨opts, Receiver.inv_step hi hv, Receiver.inHand_step hi hb hv⟩
  | end_ =>
    simp only [MediaTrack.step] at ht
    split at ht
    · cases ht
      exact h r hr
    · obtain ⟨receiver, hv, rfl⟩ := Option.map_eq_some_iff.mp ht
      cases hr
  | past i a =>
    simp only [MediaTrack.step, Option.bind_eq_some_iff, Option.map_eq_some_iff] at ht
    obtain ⟨old, ho, receiver, hv, rfl⟩ := ht
    exact h r hr

private theorem active_of_reachable {s : RemoteMediaTrack P}
    (h : (machine kind timestamp).Reachable s) : Active timestamp s := by
  refine h.invariant ?_ fun _ _ _ hi hs ↦ active_step hi hs
  intro r hr
  cases hr

private theorem account {w : Receiver (FrameData P)} {opts : ResolvedOptions}
    (h : Receiver.Inv timestamp opts w) (st : DeliveryStats)
    (hst : st = w.getStats ∨ st = finalStats w) :
    st.framesDelivered = w.js.handed.length ∧
      st.lastTimestamp = w.js.handed.getLast?.map timestamp ∧ st.maxQueue = opts.maxQueue ∧
      w.converted.length =
        st.framesDelivered + st.framesDropped + st.queueDepth + w.inHand := by
  have hi := Consumption.inv_of_reachable h.js
  have hn := Receiver.native_count h
  have hj := Receiver.js_count h
  have hl := Consumption.lastTimestamp_eq h.js
  rcases hst with rfl | rfl
  · refine ⟨hi.delivered, hl, by rw [← hi.sameOpts]; rfl, ?_⟩
    simp only [Receiver.getStats, FrameStream.getStats, Receiver.sinkStats, Option.getD_some,
      Receiver.inHand]
    omega
  · simp only [finalStats, FrameStream.endStream, h.live, Bool.false_eq_true, if_false,
      FrameStream.getStats, Receiver.sinkStats, Option.getD_some, Receiver.inHand, List.length_nil]
    refine ⟨hi.delivered, hl, by rw [hi.sameOpts], ?_⟩
    omega

private theorem getStats_step {s s' : RemoteMediaTrack P} {a : MediaTrackAct P}
    (hn : s.track.stream = none)
    (ha : ∀ options, a = .frames options → (resolveOptions kind options).toBool = false)
    (hs : s.step kind timestamp a = some s') :
    s'.track.stream = none ∧ s'.lastStats = s.lastStats := by
  obtain ⟨track, ht, rfl⟩ := Option.map_eq_some_iff.mp hs
  cases a with
  | frames options =>
    cases ht
    refine ⟨?_, rfl⟩
    unfold MediaTrack.frames
    split
    · next receiver _ hf =>
      obtain ⟨opts, hr, -⟩ := Receiver.frames_ok hf
      have he := ha options rfl
      rw [hr] at he
      cases he
    · exact hn
  | onFrame decoded | end_ =>
    simp only [MediaTrack.step, hn, Option.some.injEq] at ht
    subst ht
    simp [hn]
  | receiver a => simp [MediaTrack.step, hn] at ht
  | past i a =>
    simp only [MediaTrack.step, Option.bind_eq_some_iff, Option.map_eq_some_iff] at ht
    obtain ⟨old, ho, receiver, hv, rfl⟩ := ht
    exact ⟨hn, rfl⟩

/-- The report of a track in every run. While a receiver is active, and in the report it leaves when
it ends, every frame its sink had a buffer for is delivered, dropped or queued, but for those the JS
thread has in hand; what is held in the two queues and in hand is within the bound for each. The
report left is not changed by anything but a new receiver. Before the first one it reads zero. -/
theorem getStats_accounts (kind : TrackKind) (timestamp : FrameData P → JsNumber)
    (s : RemoteMediaTrack P) (h : (machine kind timestamp).Reachable s) :
    (∀ r, s.track.stream = some r → ∃ opts : ResolvedOptions,
      (∀ st : DeliveryStats, st = s.getStats ∨
          (∃ t, s.step kind timestamp .end_ = some t ∧ st = t.getStats) →
        st.framesDelivered = r.receiver.js.handed.length ∧
        st.lastTimestamp = r.receiver.js.handed.getLast?.map timestamp ∧
        st.maxQueue = opts.maxQueue ∧
        r.receiver.converted.length =
          st.framesDelivered + st.framesDropped + st.queueDepth + r.receiver.inHand) ∧
      s.getStats.queueDepth ≤ 2 * opts.maxQueue ∧ r.receiver.inHand ≤ opts.maxQueue) ∧
    (s.track.stream = none → ∀ (as : List (MediaTrackAct P)) (t : RemoteMediaTrack P),
      (∀ options, .frames options ∈ as → (resolveOptions kind options).toBool = false) →
      (machine kind timestamp).exec s as = some t → t.getStats = s.getStats) ∧
    (s.track.stream = none → s.track.past = [] → s.getStats = ⟨0, 0, 0, 0, none⟩) := by
  refine ⟨?_, ?_, ?_⟩
  · intro r hr
    obtain ⟨opts, hi, hb⟩ := active_of_reachable h r hr
    have hg : s.getStats = r.receiver.getStats := by simp only [getStats, hr]
    refine ⟨opts, ?_, ?_, hb⟩
    · intro st hst
      apply account hi
      rcases hst with rfl | ⟨t, ht, rfl⟩
      · exact .inl hg
      · obtain ⟨track, hv, rfl⟩ := Option.map_eq_some_iff.mp ht
        simp only [MediaTrack.step, hr, Option.map_eq_some_iff] at hv
        obtain ⟨receiver, hv, rfl⟩ := hv
        right
        simp [getStats, hr]
    · have hq := (Consumption.inv_of_reachable hi.js).bound
      have hn := hi.bound
      rw [hg]
      simp only [Receiver.getStats, FrameStream.getStats, Receiver.sinkStats, Option.getD_some,
        AsyncContext.queueDepth]
      omega
  · intro hn as t has hr
    have hp : t.track.stream = none ∧ t.lastStats = s.lastStats := by
      clear h
      induction as generalizing s with
      | nil =>
        cases hr
        exact ⟨hn, rfl⟩
      | cons a as ih =>
        obtain ⟨u, ha, hu⟩ := Machine.exec_cons_some.mp hr
        obtain ⟨hnu, hlu⟩ := getStats_step hn
          (fun options he ↦ has options (he ▸ List.mem_cons_self ..)) ha
        obtain ⟨hnt, hlt⟩ := ih u hnu (fun o ho ↦ has o (List.mem_cons_of_mem a ho)) hu
        exact ⟨hnt, hlt.trans hlu⟩
    simp only [getStats, hp.1, hp.2, hn]
  · intro hn hp
    have hl : s.track.past = [] → s.lastStats = none := by
      refine h.invariant (p := fun s : RemoteMediaTrack P ↦
        s.track.past = [] → s.lastStats = none) (fun _ ↦ rfl) ?_
      intro u a u' hu hs hpast
      obtain ⟨track, ht, rfl⟩ := Option.map_eq_some_iff.mp hs
      cases a with
      | frames options =>
        cases ht
        refine hu ?_
        unfold MediaTrack.frames at hpast
        split at hpast <;> exact hpast
      | onFrame decoded =>
        simp only [MediaTrack.step] at ht
        split at ht
        · cases ht
          exact hu hpast
        · obtain ⟨r', -, rfl⟩ := Option.map_eq_some_iff.mp ht
          exact hu hpast
      | receiver a =>
        simp only [MediaTrack.step, Option.bind_eq_some_iff, Option.map_eq_some_iff] at ht
        obtain ⟨r₀, -, receiver, -, rfl⟩ := ht
        exact hu hpast
      | end_ =>
        simp only [MediaTrack.step] at ht
        split at ht
        · next hnone =>
          cases ht
          rw [hnone]
          exact hu hpast
        · obtain ⟨receiver, -, rfl⟩ := Option.map_eq_some_iff.mp ht
          simp at hpast
      | past i a =>
        simp only [MediaTrack.step, Option.bind_eq_some_iff, Option.map_eq_some_iff] at ht
        obtain ⟨old, ho, receiver, -, rfl⟩ := ht
        refine hu ?_
        simpa using hpast
    simp only [getStats, hn, hl hp, Option.getD_none]

private def stampOf (frame : FrameData Nat) : JsNumber := .finite frame.payload

-- One frame in hand and one behind it in the native queue.
private def oneInHand : List (MediaTrackAct Nat) :=
  [.frames .undefined, .onFrame (.copied 7), .receiver (.turn .onAsync), .receiver (.turn .swap),
    .onFrame (.copied 8)]

/-- A frame in hand is in no number of the report. -/
theorem getStats_accounts_inHand : ∃ s r, (machine .video stampOf).Reachable s ∧
    s.track.stream = some r ∧ s.getStats = ⟨0, 0, 1, 1, none⟩ ∧ r.receiver.converted.length = 2 ∧
    r.receiver.converted.length = s.getStats.framesDelivered + s.getStats.framesDropped +
      s.getStats.queueDepth + r.receiver.inHand := by
  have hr : (machine .video stampOf).exec (machine .video stampOf).init oneInHand = some _ := rfl
  obtain ⟨opts, hst, -⟩ := (getStats_accounts .video stampOf _ ⟨oneInHand, hr⟩).1 _ rfl
  exact ⟨_, _, ⟨oneInHand, hr⟩, rfl, rfl, rfl, (hst _ (.inl rfl)).2.2.2⟩

end RemoteMediaTrack

end VideoNode.Frames
