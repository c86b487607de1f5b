import VideoNode.Data.Messages
import VideoNode.Js.Utf16
import VideoNode.Local.DataTrack

/-!
# What a data message carries

The two ends of a data track. `Send` reads a JavaScript string as UTF-8 and a `Buffer` as it is,
and refuses what exceeds the maximum; a wrap of the remote track writes the text back as a
JavaScript string. rtc-cpp transports what it is given unchanged, and may lose messages of a track
that is not reliable.
-/

namespace VideoNode.Data

open VideoNode.Js VideoNode.Common VideoNode.Lts

/-- A JavaScript value as `Send` tells values apart; a string is its code units. -/
inductive JsMessage where
  | string (units : List UInt16)
  | buffer (bytes : List UInt8)
  | other
  deriving DecidableEq, Repr

/-- The refusal of a message of the given size. -/
def tooLarge (kMaxMessageSize size : Nat) : JsError :=
  ⟨.rangeError, "Data track message is " ++ toString size ++ " bytes, which exceeds the " ++
    toString kMaxMessageSize ++ "-byte maximum", none⟩

/-- What `Send` hands to rtc-cpp; `src/media/local_data_track_wrap.cpp:187–219`. -/
def readMessage (kMaxMessageSize : Nat) : List JsMessage → Except JsError Message
  | [] => .error ⟨.typeError, "Expected 1 argument", none⟩
  | .string units :: _ =>
    let message := Utf16.utf8Value units
    if kMaxMessageSize < message.utf8ByteSize then
      .error (tooLarge kMaxMessageSize message.utf8ByteSize)
    else .ok (.text message)
  | .buffer bytes :: _ =>
    if kMaxMessageSize < bytes.length then .error (tooLarge kMaxMessageSize bytes.length)
    else .ok (.binary bytes)
  | .other :: _ => .error ⟨.typeError, "Argument must be string or Buffer", none⟩

/-- What a message callback is called with: `onMessage` and `onBufferMessage`;
`src/media/remote_data_track_wrap.cpp:236–249`. -/
def Message.value : Message → JsMessage
  | .text message => .string (Utf16.encode message.toList)
  | .binary data => .buffer data

namespace JsMessage

/-- The value with every surrogate of a string that stands alone replaced by U+FFFD. -/
def toWellFormed : JsMessage → JsMessage
  | .string units => .string (Utf16.toWellFormed units)
  | v => v

/-- No surrogate of a string stands alone. -/
def isWellFormed : JsMessage → Bool
  | .string units => Utf16.isWellFormed units
  | _ => true

/-- The bytes a value takes on the wire. -/
def size : JsMessage → Option Nat
  | .string units => some (Utf16.utf8Value units).utf8ByteSize
  | .buffer bytes => some bytes.length
  | .other => none

/-- It is text or bytes within the maximum. -/
def fits (kMaxMessageSize : Nat) (v : JsMessage) : Bool := v.size.any (· ≤ kMaxMessageSize)

/-- A value is its own well-formed version exactly if it is well formed. -/
theorem toWellFormed_eq_self_iff (v : JsMessage) :
    v.toWellFormed = v ↔ v.isWellFormed = true := by
  cases v with
  | string units => simp [toWellFormed, isWellFormed, Utf16.toWellFormed_eq_self_iff]
  | buffer bytes => simp [toWellFormed, isWellFormed]
  | other => simp [toWellFormed, isWellFormed]

end JsMessage

/-- What is read of a value and written back is its well-formed version. -/
theorem value_of_read {m : Nat} {v : JsMessage} {vs : List JsMessage} {message : Message}
    (h : readMessage m (v :: vs) = .ok message) : message.value = v.toWellFormed := by
  cases v with
  | string units =>
    simp only [readMessage] at h
    split at h
    · cases h
    cases h
    rw [Message.value, Utf16.utf8Value, String.toList_ofList, Utf16.encode_decode]
    rfl
  | buffer bytes =>
    simp only [readMessage] at h
    split at h
    · cases h
    cases h
    rfl
  | other => cases h

/-- What is written back is well formed. -/
theorem isWellFormed_value (message : Message) : message.value.isWellFormed = true := by
  cases message with
  | text message =>
    have hw := Utf16.isWellFormed_toWellFormed (Utf16.encode message.toList)
    rwa [← Utf16.encode_decode, Utf16.decode_encode] at hw
  | binary data => rfl

/-- A value is read exactly if it is text or bytes within the maximum. -/
theorem read_iff (m : Nat) (v : JsMessage) (vs : List JsMessage) :
    (∃ message, readMessage m (v :: vs) = .ok message) ↔ v.fits m = true := by
  cases v with
  | string units =>
    simp only [readMessage, JsMessage.fits, JsMessage.size, Option.any_some, decide_eq_true_eq]
    split
    · next h => exact iff_of_false (by simp) (by omega)
    · next h => exact iff_of_true ⟨_, rfl⟩ (by omega)
  | buffer bytes =>
    simp only [readMessage, JsMessage.fits, JsMessage.size, Option.any_some, decide_eq_true_eq]
    split
    · next h => exact iff_of_false (by simp) (by omega)
    · next h => exact iff_of_true ⟨_, rfl⟩ (by omega)
  | other => exact iff_of_false (by simp [readMessage]) (by simp [JsMessage.fits, JsMessage.size])

/-- A string fits that has at most a third of the maximum in code units, and none does that has
more code units than the maximum. -/
theorem fits_of_length (m : Nat) (units : List UInt16) :
    (3 * units.length ≤ m → (JsMessage.string units).fits m = true) ∧
      (m < units.length → (JsMessage.string units).fits m = false) := by
  obtain ⟨hl, hu⟩ := Utf16.utf8ByteSize_decode units
  simp only [JsMessage.fits, JsMessage.size, Option.any_some, decide_eq_true_eq,
    decide_eq_false_iff_not, Utf16.utf8Value]
  omega

/-- The messages rtc-cpp is given for the values `send()` was called with, refused ones left out. -/
def accepted (kMaxMessageSize : Nat) (sent : List JsMessage) : List Message :=
  sent.filterMap fun v ↦ (readMessage kMaxMessageSize [v]).toOption

/-- The values of the messages rtc-cpp is given are those that fit, well formed. -/
theorem values_of_accepted (m : Nat) (sent : List JsMessage) :
    (accepted m sent).map Message.value =
      (sent.filter (JsMessage.fits m)).map JsMessage.toWellFormed := by
  induction sent with
  | nil => rfl
  | cons v sent ih =>
    have ih : (sent.filterMap fun v ↦ (readMessage m [v]).toOption).map Message.value = _ := ih
    rw [accepted]
    cases hf : v.fits m with
    | true =>
      obtain ⟨message, hr⟩ := (read_iff m v []).mpr hf
      have ho : (readMessage m [v]).toOption = some message := by rw [hr]; rfl
      rw [List.filterMap_cons_some (f := fun v ↦ (readMessage m [v]).toOption) ho,
        List.filter_cons_of_pos hf, List.map_cons, List.map_cons, ih, value_of_read hr]
    | false =>
      have ho : (readMessage m [v]).toOption = none := by
        cases hr : readMessage m [v] with
        | error e => rfl
        | ok message =>
          rw [(read_iff m v []).mp ⟨message, hr⟩] at hf
          cases hf
      rw [List.filterMap_cons_none (f := fun v ↦ (readMessage m [v]).toOption) ho,
        List.filter_cons_of_neg (by simp [hf]), ih]

/-- What a wrap that is not destroyed was told is a prefix of what was raised for it. -/
theorem DataTracks.told_prefix {s : DataTracks} (h : machine.Reachable s) {w : Wrap}
    (hw : w ∈ s.wraps) (ha : w.alive = true) : w.turns.map Prod.fst <+: s.raisedFor w := by
  have hl := (inv_of_reachable h).lawful w hw
  have hfst : w.traffic.accepted.map Prod.fst = s.raisedFor w := by
    rw [hl.accepted ha, List.map_map]
    exact List.map_id _
  rw [← hfst]
  exact hl.handed.trans ((Traffic.started_prefix hl.queue).map _)

/-- Messages arrive as they were sent. In every run of the receiving side in which the engine
raises, in order, no messages but those the publisher's `send()` let through, a wrap is told, in
order, values that were sent and fit, each with the surrogates that stand alone replaced by U+FFFD;
so it is told well-formed values, and just what was sent if that was well formed. What fits is
counted in UTF-8 bytes: between one and three a code unit. -/
theorem messages_intact (m : Nat) (sent : List JsMessage) {s : DataTracks}
    (h : DataTracks.machine.Reachable s) {w : Wrap} (hw : w ∈ s.wraps) (ha : w.alive = true)
    (hr : (s.raisedFor w).Sublist (accepted m sent)) :
    let values := w.turns.map fun t ↦ t.1.value
    values.Sublist ((sent.filter (JsMessage.fits m)).map JsMessage.toWellFormed) ∧
      (∀ v ∈ values, v.isWellFormed = true) ∧
      ((∀ v ∈ sent, v.isWellFormed = true) → values.Sublist sent) ∧
      ∀ units, (3 * units.length ≤ m → (JsMessage.string units).fits m = true) ∧
        (m < units.length → (JsMessage.string units).fits m = false) := by
  have htold : (w.turns.map fun t ↦ t.1.value).Sublist
      ((sent.filter (JsMessage.fits m)).map JsMessage.toWellFormed) := by
    have hsub := ((DataTracks.told_prefix h hw ha).sublist.trans hr).map Message.value
    rwa [List.map_map, values_of_accepted] at hsub
  refine ⟨htold, ?_, fun hwf ↦ ?_, fits_of_length m⟩
  · intro v hv
    obtain ⟨t, -, rfl⟩ := List.mem_map.mp hv
    exact isWellFormed_value t.1
  · have hid : (sent.filter (JsMessage.fits m)).map JsMessage.toWellFormed =
        sent.filter (JsMessage.fits m) := by
      conv_rhs => rw [← List.map_id (sent.filter (JsMessage.fits m))]
      refine List.map_congr_left fun v hv ↦ ?_
      exact (JsMessage.toWellFormed_eq_self_iff v).mpr (hwf v (List.mem_filter.mp hv).1)
    rw [hid] at htold
    exact htold.trans List.filter_sublist

-- Two texts, the second with a surrogate that stands alone, and bytes; one text is too large.
private def sentValues : List JsMessage :=
  [.string [0x68, 0xD83D, 0xDE00], .string [0x61, 0x61, 0x61, 0x61, 0x61, 0x61, 0x61],
    .string [0x61, 0xD800], .buffer [1]]

-- A subscriber that is told of what arrives.
private def subscriberRun : List DataAct :=
  [.subscribe 5, .newInstance 0, .installCallback 0 7, .onMessage 0 (.text "h😀"),
    .onMessage 0 (.text "a\uFFFD"), .turn 0 .onAsync, .turn 0 .swap, .turn 0 .next,
    .turn 0 .returned, .turn 0 .next, .turn 0 .returned]

/-- A subscriber is told both texts that fit, the second with U+FFFD. -/
theorem messages_intact_surrogate : ∃ s w, DataTracks.machine.Reachable s ∧ w ∈ s.wraps ∧
    w.turns.map (fun t ↦ t.1.value) =
      [.string [0x68, 0xD83D, 0xDE00], .string [0x61, 0xFFFD]] ∧
    (w.turns.map fun t ↦ t.1.value).Sublist
      ((sentValues.filter (JsMessage.fits 6)).map JsMessage.toWellFormed) := by
  have hrun : (DataTracks.machine.exec DataTracks.init subscriberRun).bind (fun s ↦
      s.wraps[0]?.map fun w ↦ (w.alive, w.turns.map fun t ↦ t.1.value, s.raisedFor w)) =
      some (true, [.string [0x68, 0xD83D, 0xDE00], .string [0x61, 0xFFFD]],
        [.text "h😀", .text "a\uFFFD"]) := by decide +kernel
  obtain ⟨s, hs, hr⟩ := Option.bind_eq_some_iff.mp hrun
  obtain ⟨w, hw, hr⟩ := Option.map_eq_some_iff.mp hr
  simp only [Prod.mk.injEq] at hr
  obtain ⟨ha, ht, hraised⟩ := hr
  have hmem := List.mem_of_getElem? hw
  have hsub : (s.raisedFor w).Sublist (accepted 6 sentValues) := by
    rw [hraised]
    decide +kernel
  exact ⟨s, w, ⟨subscriberRun, hs⟩, hmem, ht,
    (messages_intact 6 sentValues ⟨subscriberRun, hs⟩ hmem ha hsub).1⟩

end VideoNode.Data
