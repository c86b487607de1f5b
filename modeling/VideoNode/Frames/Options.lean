import VideoNode.Js.Value

/-!
# Frame delivery options

`resolveOptions` of `lib/frame_stream.ts`: what `frames()` accepts, and what it throws.
-/

namespace VideoNode.Frames

open VideoNode.Js

/-- `lib/frame_stream.ts:13`. -/
def MAX_QUEUE_CEILING : Nat := 1024

/-- The two kinds of media track. -/
inductive TrackKind where
  | video
  | audio
  deriving DecidableEq, Repr

/-- `BackpressureMode`; `lib/types.ts`. -/
inductive BackpressureMode where
  | latest
  | queue
  deriving DecidableEq, Repr

/-- Which frame a full queue sheds. -/
inductive DropPolicy where
  | oldest
  | newest
  deriving DecidableEq, Repr

/-- What `resolveOptions` returns; the fields carry the range it has checked. -/
structure ResolvedOptions where
  mode : BackpressureMode
  maxQueue : Nat
  drop : DropPolicy
  pos : 0 < maxQueue
  ceiling : maxQueue ≤ MAX_QUEUE_CEILING
  deriving DecidableEq

/-- `lib/frame_stream.ts:16–22`. -/
def DEFAULTS : TrackKind → ResolvedOptions
  | .video => ⟨.latest, 1, .oldest, by decide, by decide⟩
  | .audio => ⟨.queue, 10, .oldest, by decide, by decide⟩

/-- `lib/frame_stream.ts:27–29`; the type guard gives the number it narrows to. -/
def isPositiveInt : JsValue → Option { n : Nat // 0 < n }
  | .number v =>
    match v.isInteger with
    | some (.ofNat n) => if h : 0 < n then some ⟨n, h⟩ else none
    | _ => none
  | _ => none

/-- The mode the caller named, or the error that lists the ones there are. -/
def checkMode : JsValue → Except JsError BackpressureMode
  | .string "latest" => .ok .latest
  | .string "queue" => .ok .queue
  | mode => .error ⟨.typeError, "mode must be 'latest' or 'queue'; got ", some mode⟩

/-- The policy the caller named, or the error that lists the ones there are. -/
def checkDrop : JsValue → Except JsError DropPolicy
  | .string "oldest" => .ok .oldest
  | .string "newest" => .ok .newest
  | drop => .error ⟨.typeError, "drop must be 'oldest' or 'newest'; got ", some drop⟩

/-- The bound the caller gave, within the ceiling. -/
def checkMaxQueue (v : JsValue) :
    Except JsError { n : Nat // 0 < n ∧ n ≤ MAX_QUEUE_CEILING } :=
  match isPositiveInt v with
  | none => .error ⟨.rangeError, "maxQueue must be a positive integer; got ", some v⟩
  | some n =>
    if h : n.val ≤ MAX_QUEUE_CEILING then .ok ⟨n, n.property, h⟩
    else .error ⟨.rangeError, "maxQueue must be at most 1024; got ", some v⟩

/-- The literal that stands for a default in `options.mode ?? d.mode`. -/
def BackpressureMode.literal : BackpressureMode → JsValue
  | .latest => .string "latest"
  | .queue => .string "queue"

/-- The literal that stands for a default in `options.drop ?? d.drop`. -/
def DropPolicy.literal : DropPolicy → JsValue
  | .oldest => .string "oldest"
  | .newest => .string "newest"

/-- `lib/frame_stream.ts:39–74`; an absent argument is the empty object. -/
def resolveOptions (kind : TrackKind) (options : JsValue) : Except JsError ResolvedOptions :=
  let options := if options.isUndefined then .object [] else options
  if !options.isObject then
    .error ⟨.typeError, "frames() options must be an object", none⟩
  else do
    let d := DEFAULTS kind
    let mode ← checkMode ((options.get "mode").orElse d.mode.literal)
    let drop ← checkDrop ((options.get "drop").orElse d.drop.literal)
    if (options.get "maxQueue").isUndefined then
      match mode with
      | .latest => pure ⟨mode, 1, drop, by decide, by decide⟩
      | .queue => pure ⟨mode, d.maxQueue, drop, d.pos, d.ceiling⟩
    else
      let n ← checkMaxQueue (options.get "maxQueue")
      pure ⟨mode, n, drop, n.property.1, n.property.2⟩

end VideoNode.Frames
