import VideoNode.Js.Decode
import VideoNode.Video.PinnedSource

/-!
# Delivery options of a data track

`createLocalDataTrack` (`lib/index.ts`) checks the options and hands its own copy of them to
`MediaFactoryWrap::CreateDataTrack` (`src/media/media_factory_wrap.cpp`), which reads them once
more through `src/common/napi_options.cpp`. The limits can be read back from the track, and by a
subscriber from its side of it.
-/

namespace VideoNode.Local

open VideoNode.Js VideoNode.Video

/-- `src/common/napi_options.cpp:6–10`. -/
def fieldType (field expected : String) : JsError :=
  ⟨.typeError, field ++ " must be a " ++ expected, none⟩

/-- `src/common/napi_options.cpp:14–21`. -/
def readOptionalString (options : NapiValue) (field : String) : Except JsError (Option String) :=
  let value := options.get field
  if value.isUndefined then pure none
  else do
    let s ← orThrow value.text? (fieldType field "string")
    pure (some s)

/-- `src/common/napi_options.cpp:23–30`. -/
def readOptionalInt32 (options : NapiValue) (field : String) : Except JsError (Option Int) :=
  let value := options.get field
  if value.isNullish then pure none
  else do
    let n ← orThrow value.number? (fieldType field "number")
    pure (some n.int32Value)

/-- `src/common/napi_options.cpp:32–39`. -/
def readOptionalBool (options : NapiValue) (field : String) : Except JsError (Option Bool) :=
  let value := options.get field
  if value.isUndefined then pure none
  else do
    let b ← orThrow value.boolean? (fieldType field "boolean")
    pure (some b)

/-- `src/media/media_factory_wrap.cpp:15–18`; the counter is one of 64 bits for all kinds. -/
def nextDefaultName (kind : String) (counter : Nat) : String × Nat :=
  (kind ++ "-" ++ toString (counter % 2 ^ 64), counter + 1)

/-- What the setters of `twilio::media::DataTrackOptions::Builder` have been called with. -/
structure DataTrackOptionsBuilder where
  maxPacketLifeTime : Option Int
  maxRetransmits : Option Int
  ordered : Option Bool
  name : String
  deriving DecidableEq, Repr

/-- `twilio::media::DataTrackOptions`. -/
structure DataTrackOptions where
  maxPacketLifeTime : Int
  maxRetransmits : Int
  ordered : Bool
  name : String
  deriving DecidableEq, Repr

/-- The setters that are called; `src/media/media_factory_wrap.cpp:93–105`. -/
def DataTrackOptionsBuilder.read (options : NapiValue) :
    Except JsError (Option String × (String → DataTrackOptionsBuilder)) := do
  let name ← readOptionalString options "name"
  let maxPacketLifeTime ← readOptionalInt32 options "maxPacketLifeTime"
  let maxRetransmits ← readOptionalInt32 options "maxRetransmits"
  let ordered ← readOptionalBool options "ordered"
  pure (name, .mk maxPacketLifeTime maxRetransmits ordered)

/-- `CreateDataTrack`, up to the builder it hands on; `src/media/media_factory_wrap.cpp:84–111`. -/
def createDataTrack (info : NapiValue) (counter : Nat) :
    Except JsError (DataTrackOptionsBuilder × Nat) := do
  let given ← if info.isObject then DataTrackOptionsBuilder.read info
    else pure (none, .mk none none none)
  match given.1 with
  | some name => pure (given.2 name, counter)
  | none =>
    let default := nextDefaultName "data" counter
    pure (given.2 default.1, default.2)

/-- `lib/index.ts:178`. -/
def maxDataTrackLimit : Int := 65535

/-- One turn of the loop over the limits; `lib/index.ts:544–552`. -/
def checkLimit (opts : NapiValue) (key : String) : Except JsError Unit :=
  let value := opts.get key
  throwIf (value.isNullish = false ∧
      value.integer?.filter (fun i ↦ 0 ≤ i ∧ i ≤ maxDataTrackLimit) = none)
    (.interpolating .rangeError (key ++ " must be an integer between 0 and " ++
      toString maxDataTrackLimit ++ "; got ") value)

/-- `{ ...opts, name }`: a copy of the properties that `own` tells are the object's own. -/
def spread (opts : NapiValue) (own : String → Bool) (name : Option JsString) : NapiValue :=
  .object .plain (fun key ↦ key = "name" || own key)
    (fun key ↦
      if key = "name" then name.elim .undefined .string
      else if own key then opts.get key
      else .undefined) []

/-- The options of the factory; `lib/index.ts:535–537`. -/
def dataTrackOpts (options : NapiValue) : NapiValue :=
  match options with
  | .undefined | .string _ => .ofProps []
  | options => options

/-- `lib/index.ts:535–555`. -/
def createLocalDataTrack (options : NapiValue) (own : String → Bool) (counter : Nat) :
    Except JsError (DataTrackOptionsBuilder × Nat) := do
  let name ← resolveName options "createLocalDataTrack"
  let opts := dataTrackOpts options
  let ordered := opts.get "ordered"
  throwIf (ordered.isUndefined = false ∧ ordered.boolean? = none)
    ⟨.typeError, "ordered must be a boolean", none⟩
  throwIf ((opts.get "maxRetransmits").isNullish = false ∧
      (opts.get "maxPacketLifeTime").isNullish = false)
    ⟨.error, "maxRetransmits and maxPacketLifeTime are mutually exclusive", none⟩
  checkLimit opts "maxRetransmits"
  checkLimit opts "maxPacketLifeTime"
  createDataTrack (spread opts own name) counter

/-- `src/media/local_data_track_wrap.cpp:8–13`. -/
def requestedOptionOrNull (value : Int) : NapiValue :=
  if value < 0 then .null else .ofInt value

/-- `src/media/remote_data_track_wrap.cpp:16–21`, of an unsigned 16-bit value. -/
def subscribedOptionOrNull (value : Nat) : NapiValue :=
  if value = 65535 then .null else .ofInt value

/-- rtc-cpp: the options that are built, and what a subscriber is told of a limit they have. -/
structure Engine where
  build : DataTrackOptionsBuilder → DataTrackOptions
  reported : Int → Nat

/-- What `src/` says of rtc-cpp: an unset limit is -1, and one that is requested is preserved
exactly, 65535 included (`src/media/local_data_track_wrap.cpp:6–7`); delivery is ordered unless it
is set (`lib/types.ts:499`); and a subscriber is told an unset limit as `UINT16_MAX`, and a set one
as it is (`src/media/remote_data_track_wrap.cpp:14–15`). -/
structure Engine.Documented (e : Engine) : Prop where
  maxPacketLifeTime : ∀ b, (∀ i, b.maxPacketLifeTime = some i → 0 ≤ i ∧ i ≤ 65535) →
    (e.build b).maxPacketLifeTime = b.maxPacketLifeTime.getD (-1)
  maxRetransmits : ∀ b, (∀ i, b.maxRetransmits = some i → 0 ≤ i ∧ i ≤ 65535) →
    (e.build b).maxRetransmits = b.maxRetransmits.getD (-1)
  ordered : ∀ b, (e.build b).ordered = b.ordered.getD true
  name : ∀ b, (e.build b).name = b.name
  unset : e.reported (-1) = 65535
  set : ∀ n : Nat, n ≤ 65535 → e.reported n = n

/-- What can be read of the track again; `src/media/local_data_track_wrap.cpp:151–177`. -/
def DataTrackOptions.readBack (t : DataTrackOptions) : NapiValue :=
  .ofProps [("name", .string t.name),
    ("maxPacketLifeTime", requestedOptionOrNull t.maxPacketLifeTime),
    ("maxRetransmits", requestedOptionOrNull t.maxRetransmits), ("ordered", .boolean t.ordered)]

/-- The name the caller gives, if any. -/
def Given (options : NapiValue) : Option JsString → Prop
  | none => options = .undefined ∨ options.isTypeofObject = true ∧ options.get "name" = .undefined
  | some s => s ≠ "" ∧
    (options = .string s ∨ options.isTypeofObject = true ∧ options.get "name" = .string s)

/-- What native code reads of the name the caller gives, if any. -/
def Named (options : NapiValue) (name : Option String) : Prop :=
  ∃ s, Given options s ∧ s.map JsString.utf8Value = name

/-- Options that give a name do not leave it out. -/
theorem Named.not_unnamed {options : NapiValue} {name : String} (h : Named options (some name)) :
    ¬ Named options none := by
  obtain ⟨s, h, hs⟩ := h
  obtain ⟨s, rfl, -⟩ := Option.map_eq_some_iff.mp hs
  rintro ⟨s', hn, hs'⟩
  obtain rfl := Option.map_eq_none_iff.mp hs'
  rcases hn with rfl | ⟨ho, hn⟩
  · rcases h.2 with h | h
    · cases h
    · cases h.1
  · rcases h.2 with hs | ⟨-, hs⟩
    · rw [hs] at ho
      cases ho
    · rw [hn] at hs
      cases hs

/-- The limit a property stands for, if any. -/
def IsLimit (v : NapiValue) : Option Int → Prop
  | none => v.isNullish = true
  | some i => v.integer? = some i ∧ 0 ≤ i ∧ i ≤ maxDataTrackLimit

/-- The order a property asks for, if any. -/
def IsOrdered (v : NapiValue) : Option Bool → Prop
  | none => v.isUndefined = true
  | some b => v = .boolean b

/-- What the options say. -/
structure Declared where
  name : Option String
  maxPacketLifeTime : Option Int
  maxRetransmits : Option Int
  ordered : Option Bool

/-- The options are as `LocalDataTrackOptions` has them (`lib/types.ts`), and this is what they
say. -/
structure Declares (options : NapiValue) (d : Declared) : Prop where
  name : Named options d.name
  maxPacketLifeTime : IsLimit ((dataTrackOpts options).get "maxPacketLifeTime") d.maxPacketLifeTime
  maxRetransmits : IsLimit ((dataTrackOpts options).get "maxRetransmits") d.maxRetransmits
  ordered : IsOrdered ((dataTrackOpts options).get "ordered") d.ordered
  exclusive : d.maxRetransmits = none ∨ d.maxPacketLifeTime = none

private theorem resolveName_object {kind : ObjectKind} {has : String → Bool}
    {get : String → NapiValue} {items : List NapiValue} {method : String} {name : Option JsString} :
    resolveName (.object kind has get items) method = .ok name ↔
      (NapiValue.object kind has get items).isTypeofObject = true ∧
        (name = none ∧ get "name" = .undefined ∨
          ∃ s, name = some s ∧ s ≠ "" ∧ get "name" = .string s) := by
  simp only [resolveName, bind_eq_ok, throwIf_eq_ok, Bool.not_eq_false, NapiValue.get]
  constructor
  · rintro ⟨-, ho, hn⟩
    refine ⟨ho, ?_⟩
    cases hg : get "name" with
    | undefined =>
      rw [hg] at hn
      exact .inl ⟨(pure_eq_ok.mp hn).symm, rfl⟩
    | string s =>
      rw [hg] at hn
      simp only [bind_eq_ok, throwIf_eq_ok, pure_eq_ok, JsString.length_eq_zero_iff] at hn
      obtain ⟨-, hs, rfl⟩ := hn
      exact .inr ⟨s, rfl, hs, rfl⟩
    | _ =>
      rw [hg] at hn
      cases hn
  · rintro ⟨ho, ⟨rfl, hg⟩ | ⟨s, rfl, hs, hg⟩⟩
    · exact ⟨(), ho, by rw [hg]; rfl⟩
    · refine ⟨(), ho, ?_⟩
      rw [hg]
      simp only [bind_eq_ok, throwIf_eq_ok, pure_eq_ok, JsString.length_eq_zero_iff]
      exact ⟨(), hs, trivial⟩

/-- A name is resolved to the one that is given. -/
theorem resolveName_eq_ok {options : NapiValue} {method : String} {name : Option JsString} :
    resolveName options method = .ok name ↔ Given options name := by
  cases options with
  | undefined => cases name <;> simp [resolveName, Given, pure_eq_ok, NapiValue.isTypeofObject]
  | string s =>
    simp only [resolveName, bind_eq_ok, throwIf_eq_ok, pure_eq_ok, JsString.length_eq_zero_iff]
    cases name with
    | none => simp [Given, NapiValue.isTypeofObject]
    | some t =>
      simp only [Given, NapiValue.isTypeofObject, NapiValue.string.injEq]
      grind
  | object kind has get items =>
    rw [resolveName_object]
    cases name with
    | none => simp [Given, NapiValue.get]
    | some s =>
      simp only [Given, NapiValue.get]
      grind
  | _ =>
    -- any other value is no options object
    cases name <;>
      simp [resolveName, Given, NapiValue.isTypeofObject, throwIf, bind, Except.bind]

/-- A limit is let through exactly if the property stands for one, or for none. -/
theorem checkLimit_eq_ok {opts : NapiValue} {key : String} {u : Unit} :
    checkLimit opts key = .ok u ↔ ∃ limit, IsLimit (opts.get key) limit := by
  have hl : (∃ limit, IsLimit (opts.get key) limit) ↔ (opts.get key).isNullish = true ∨
      ∃ i, (opts.get key).integer? = some i ∧ 0 ≤ i ∧ i ≤ maxDataTrackLimit := by
    constructor
    · rintro ⟨limit, h⟩
      cases limit with
      | none => exact .inl h
      | some i => exact .inr ⟨i, h⟩
    · rintro (h | ⟨i, h⟩)
      · exact ⟨none, h⟩
      · exact ⟨some i, h⟩
  rw [hl, checkLimit]
  cases hv : (opts.get key).isNullish with
  | true => simp [throwIf_eq_ok]
  | false => simp [throwIf_eq_ok, Option.filter_eq_none_iff]

/-- A limit that was let through is read natively as it is. -/
theorem readOptionalInt32_of_limit {options : NapiValue} {field : String} {limit : Option Int}
    (h : IsLimit (options.get field) limit) : readOptionalInt32 options field = .ok limit := by
  cases limit with
  | none => 
    have h : (options.get field).isNullish = true := h
    rw [readOptionalInt32, if_pos h]
    rfl
  | some i =>
    obtain ⟨hi, h0, hm⟩ := h
    obtain ⟨n, hn, hi⟩ := Option.bind_eq_some_iff.mp hi
    have hv : (options.get field).isNullish = false := by
      cases hg : options.get field with
      | undefined | null => rw [hg] at hn; cases hn
      | _ => rfl
    rw [readOptionalInt32, if_neg (by simp [hv]), hn, 
      ← JsNumber.int32Value_of_isInteger hi (by omega) (by unfold maxDataTrackLimit at hm; omega)]
    rfl

/-- A string is read as its text, and none where there is none. -/
theorem readOptionalString_of_name {options : NapiValue} {field : String} {name : Option JsString}
    (h : options.get field = name.elim .undefined .string) :
    readOptionalString options field = .ok (name.map JsString.utf8Value) := by
  rw [readOptionalString, h]
  cases name <;> rfl

/-- A boolean is read as it is, and none where there is none. -/
theorem readOptionalBool_of_order {options : NapiValue} {field : String} {ordered : Option Bool}
    (h : IsOrdered (options.get field) ordered) :
    readOptionalBool options field = .ok ordered := by
  cases ordered with
  | none =>
    have h : (options.get field).isUndefined = true := h
    rw [readOptionalBool, if_pos h]
    rfl
  | some b =>
    have h : options.get field = .boolean b := h
    rw [readOptionalBool, h]
    rfl

/-- What is said of the properties that are the object's own. -/
def Declared.owned (d : Declared) (own : String → Bool) : Declared where
  name := d.name
  maxPacketLifeTime := if own "maxPacketLifeTime" then d.maxPacketLifeTime else none
  maxRetransmits := if own "maxRetransmits" then d.maxRetransmits else none
  ordered := if own "ordered" then d.ordered else none

/-- The setters that are called for it, with a name. -/
def Declared.builder (d : Declared) (name : String) : DataTrackOptionsBuilder where
  maxPacketLifeTime := d.maxPacketLifeTime
  maxRetransmits := d.maxRetransmits
  ordered := d.ordered
  name := name

/-- A property other than the name is copied if it is the object's own. -/
theorem get_spread (opts : NapiValue) (own : String → Bool) (name : Option JsString) {key : String}
    (hk : key ≠ "name") :
    (spread opts own name).get key = if own key then opts.get key else .undefined :=
  if_neg hk

private theorem limit_spread {opts : NapiValue} {own : String → Bool} {name : Option JsString}
    {key : String} (hk : key ≠ "name") {limit : Option Int} (h : IsLimit (opts.get key) limit) :
    IsLimit ((spread opts own name).get key) (if own key then limit else none) := by
  rw [get_spread _ _ _ hk]
  split
  · exact h
  · rfl

private theorem order_spread {opts : NapiValue} {own : String → Bool} {name : Option JsString}
    {key : String} (hk : key ≠ "name") {o : Option Bool} (h : IsOrdered (opts.get key) o) :
    IsOrdered ((spread opts own name).get key) (if own key then o else none) := by
  rw [get_spread _ _ _ hk]
  split
  · exact h
  · rfl

/-- The factory reads the copy without throwing. -/
theorem read_spread {options : NapiValue} {d : Declared} (h : Declares options d)
    (own : String → Bool) {name : Option JsString} (hn : name.map JsString.utf8Value = d.name) :
    DataTrackOptionsBuilder.read (spread (dataTrackOpts options) own name) =
      .ok (d.name, (d.owned own).builder) := by
  simp only [DataTrackOptionsBuilder.read, bind_eq_ok, pure_eq_ok]
  refine ⟨_, readOptionalString_of_name rfl, _,
    readOptionalInt32_of_limit (limit_spread (by decide) h.maxPacketLifeTime), _,
    readOptionalInt32_of_limit (limit_spread (by decide) h.maxRetransmits), _,
    readOptionalBool_of_order (order_spread (by decide) h.ordered), ?_⟩
  rw [hn]
  rfl

/-- The track that is made of it, with the counter of names. -/
def Declared.created (d : Declared) (own : String → Bool) (counter : Nat) :
    DataTrackOptionsBuilder × Nat :=
  match d.name with
  | some name => ((d.owned own).builder name, counter)
  | none => ((d.owned own).builder (nextDefaultName "data" counter).1, counter + 1)

/-- A property stands for no limit exactly if it is null or undefined. -/
theorem isNullish_of_none {v : NapiValue} {limit : Option Int} (h : IsLimit v limit) :
    v.isNullish = true ↔ limit = none := by
  cases limit with
  | none => exact iff_of_true h rfl
  | some i =>
    refine iff_of_false ?_ (by simp)
    obtain ⟨n, hn, -⟩ := Option.bind_eq_some_iff.mp h.1
    cases v with
    | undefined | null => cases hn
    | _ => exact Bool.false_ne_true

/-- A track is made exactly of options that are as declared, natively too, and of the properties
that are the object's own. -/
theorem createLocalDataTrack_eq_ok {options : NapiValue} {own : String → Bool} {counter : Nat}
    {r : DataTrackOptionsBuilder × Nat} : createLocalDataTrack options own counter = .ok r ↔
      ∃ d, Declares options d ∧ r = d.created own counter := by
  have hcreate (d : Declared) (h : Declares options d) (name : Option JsString)
      (hn : name.map JsString.utf8Value = d.name) :
      createDataTrack (spread (dataTrackOpts options) own name) counter =
        .ok (d.created own counter) := by
    have hi : (spread (dataTrackOpts options) own name).isObject = true := rfl
    simp only [createDataTrack, hi, if_true, read_spread h own hn, bind_eq_ok]
    refine ⟨_, rfl, ?_⟩
    unfold Declared.created
    cases d.name <;> rfl
  have horder (v : NapiValue) :
      ¬(v.isUndefined = false ∧ v.boolean? = none) ↔ ∃ o, IsOrdered v o := by
    constructor
    · intro h
      cases v with
      | undefined => exact ⟨none, rfl⟩
      | boolean b => exact ⟨some b, rfl⟩
      | _ => exact absurd ⟨rfl, rfl⟩ h
    · rintro ⟨o, h⟩
      cases o with
      | none => simp [show v.isUndefined = true from h]
      | some b => simp [show v = .boolean b from h, NapiValue.boolean?]
  simp only [createLocalDataTrack, bind_eq_ok, throwIf_eq_ok, resolveName_eq_ok, checkLimit_eq_ok,
    horder]
  constructor
  · rintro ⟨name, hn, -, ⟨ordered, ho⟩, -, hx, -, ⟨retransmits, hr⟩, -, ⟨lifeTime, hl⟩, hc⟩
    have h : Declares options ⟨name.map JsString.utf8Value, lifeTime, retransmits, ordered⟩ := by
      refine ⟨⟨name, hn, rfl⟩, hl, hr, ho, ?_⟩
      rw [← isNullish_of_none hr, ← isNullish_of_none hl]
      simpa [or_iff_not_imp_left] using hx
    rw [hcreate _ h name rfl] at hc
    exact ⟨_, h, (Except.ok.inj hc).symm⟩
  · rintro ⟨d, h, rfl⟩
    obtain ⟨name, hg, hn⟩ := h.name
    refine ⟨name, hg, (), ⟨_, h.ordered⟩, (), ?_, (), ⟨_, h.maxRetransmits⟩, (),
      ⟨_, h.maxPacketLifeTime⟩, hcreate d h name hn⟩
    rcases h.exclusive with hx | hx
    · simp [(isNullish_of_none h.maxRetransmits).mpr hx]
    · simp [(isNullish_of_none h.maxPacketLifeTime).mpr hx]

/-- A limit is read back as it was given, and null where there was none. -/
theorem requestedOptionOrNull_limit {v : NapiValue} {limit : Option Int} (h : IsLimit v limit) :
    requestedOptionOrNull (limit.getD (-1)) = limit.elim .null .ofInt := by
  cases limit with
  | none => rfl
  | some i =>
    have hi : ¬ i < 0 := Int.not_lt.mpr h.2.1
    exact if_neg hi

/-- A subscriber reads the limit the track has, 65535 excepted. -/
theorem subscribedOptionOrNull_reported {e : Engine} (he : e.Documented) {value : Int}
    (hl : -1 ≤ value) (hu : value ≤ maxDataTrackLimit) :
    subscribedOptionOrNull (e.reported value) =
      if value = 65535 then .null else requestedOptionOrNull value := by
  unfold maxDataTrackLimit at hu
  unfold subscribedOptionOrNull requestedOptionOrNull
  by_cases hv : value = -1
  · subst hv
    rw [he.unset]
    rfl
  · have hn : (value.toNat : Int) = value := Int.toNat_of_nonneg (by omega)
    have hr : e.reported value = value.toNat := by
      have hs := he.set value.toNat (by omega)
      rwa [hn] at hs
    rw [hr]
    by_cases hm : value = 65535
    · simp [hm]
    · have hne : value.toNat ≠ 65535 := by omega
      have hneg : ¬ value < 0 := by omega
      simp [hm, hne, hneg, hn]

private theorem limit_owned {v : NapiValue} {limit : Option Int} (h : IsLimit v limit)
    (own : Bool) : ∃ v, IsLimit v (if own then limit else none) := by
  cases own with
  | true => exact ⟨v, h⟩
  | false => exact ⟨.null, rfl⟩

private theorem limit_range {v : NapiValue} {limit : Option Int} (h : IsLimit v limit) :
    (∀ i, limit = some i → 0 ≤ i ∧ i ≤ 65535) ∧ -1 ≤ limit.getD (-1) ∧
      limit.getD (-1) ≤ maxDataTrackLimit := by
  unfold maxDataTrackLimit
  cases limit with
  | none => exact ⟨nofun, by decide, by decide⟩
  | some i =>
    obtain ⟨-, h0, hm⟩ := h
    unfold maxDataTrackLimit at hm
    refine ⟨?_, ?_, hm⟩
    · rintro _ ⟨⟩
      exact ⟨h0, hm⟩
    · simp only [Option.getD_some]
      omega

/-- A default name is no empty one. -/
theorem nextDefaultName_ne (kind : String) (counter : Nat) :
    (nextDefaultName kind counter).1 ≠ "" := by
  intro h
  have hl := congrArg String.length h
  simp [nextDefaultName] at hl

/-- A track has the name it is given, or the next default one. -/
theorem name_of_created {options : NapiValue} {own : String → Bool} {counter n : Nat}
    {t : DataTrackOptionsBuilder} (h : createLocalDataTrack options own counter = .ok (t, n)) :
    t.name ≠ "" ∧ ((Named options (some t.name) ∧ n = counter) ∨
      (Named options none ∧ (t.name, n) = nextDefaultName "data" counter)) := by
  obtain ⟨d, hd, ht⟩ := createLocalDataTrack_eq_ok.mp h
  have hn := hd.name
  unfold Declared.created at ht
  cases hg : d.name with
  | none =>
    rw [hg] at ht hn
    cases ht
    exact ⟨nextDefaultName_ne _ _, .inr ⟨hn, rfl⟩⟩
  | some name =>
    rw [hg] at ht hn
    cases ht
    refine ⟨?_, .inl ⟨hn, rfl⟩⟩
    obtain ⟨s, hs, he⟩ := hn
    obtain ⟨s, rfl, rfl⟩ := Option.map_eq_some_iff.mp he
    exact fun he ↦ hs.1 (JsString.utf8Value_eq_empty.mp he)

/-- The setters that were called for a track are those of the caller's own properties. -/
theorem Declared.created_fst (d : Declared) (own : String → Bool) (counter : Nat) :
    (d.created own counter).1 = (d.owned own).builder (d.created own counter).1.name := by
  unfold created
  cases d.name <;> rfl

/-- The options that are built of what was declared. -/
theorem build_declared {e : Engine} (he : e.Documented) {options : NapiValue} {d : Declared}
    (h : Declares options d) (own : String → Bool) (name : String) :
    e.build ((d.owned own).builder name) = ⟨(d.owned own).maxPacketLifeTime.getD (-1),
      (d.owned own).maxRetransmits.getD (-1), (d.owned own).ordered.getD true, name⟩ := by
  obtain ⟨v, hv⟩ := limit_owned h.maxPacketLifeTime (own "maxPacketLifeTime")
  obtain ⟨w, hw⟩ := limit_owned h.maxRetransmits (own "maxRetransmits")
  have hl := he.maxPacketLifeTime ((d.owned own).builder name) (limit_range hv).1
  have hr := he.maxRetransmits ((d.owned own).builder name) (limit_range hw).1
  have ho := he.ordered ((d.owned own).builder name)
  have hn := he.name ((d.owned own).builder name)
  generalize e.build ((d.owned own).builder name) = t at hl hr ho hn
  obtain ⟨maxPacketLifeTime, maxRetransmits, ordered, name'⟩ := t
  rw [DataTrackOptions.mk.injEq]
  exact ⟨hl, hr, ho, hn⟩

/-- What is read back of a track that was made declares the options it has. -/
theorem declares_readBack {e : Engine} (he : e.Documented) {options : NapiValue} {d : Declared}
    (h : Declares options d) (own : String → Bool) {name : String} (hn : name ≠ "") :
    Declares (e.build ((d.owned own).builder name)).readBack
      { d.owned own with
        name := some name, ordered := some ((d.owned own).ordered.getD true) } := by
  have hlimit {v : NapiValue} {limit : Option Int} (hl : IsLimit v limit) :
      IsLimit (requestedOptionOrNull (limit.getD (-1))) limit := by
    rw [requestedOptionOrNull_limit hl]
    cases limit with
    | none => rfl
    | some i => exact ⟨NapiValue.integer?_ofInt i, hl.2⟩
  obtain ⟨v, hv⟩ := limit_owned h.maxPacketLifeTime (own "maxPacketLifeTime")
  obtain ⟨w, hw⟩ := limit_owned h.maxRetransmits (own "maxRetransmits")
  rw [build_declared he h own name]
  have hs : Named (DataTrackOptions.readBack ⟨(d.owned own).maxPacketLifeTime.getD (-1),
      (d.owned own).maxRetransmits.getD (-1), (d.owned own).ordered.getD true, name⟩)
      (some name) :=
    ⟨some name, ⟨fun he ↦ hn (JsString.ofText_inj.mp he), .inr ⟨rfl, rfl⟩⟩,
      congrArg some (JsString.utf8Value_ofText name)⟩
  refine ⟨hs, hlimit hv, hlimit hw, rfl, ?_⟩
  rcases h.exclusive with hx | hx
  · left
    simp [Declared.owned, hx]
  · right
    simp [Declared.owned, hx]

/-- A data track is made exactly of options that are as declared. Its limits are read back as the
caller's own properties give them, never both; what is read back makes the same track again; and a
subscriber reads the same limits, except that 65535 reads as none. -/
theorem data_track_options_kept (e : Engine) (he : e.Documented) (options : NapiValue)
    (own : String → Bool) (counter : Nat) :
    ((∃ r, createLocalDataTrack options own counter = .ok r) ↔ ∃ d, Declares options d) ∧
    ∀ (t : DataTrackOptionsBuilder) (n : Nat),
      createLocalDataTrack options own counter = .ok (t, n) →
      (∀ key ∈ ["maxPacketLifeTime", "maxRetransmits"], ∃ limit,
        IsLimit ((dataTrackOpts options).get key) limit ∧
        (e.build t).readBack.get key = (if own key then limit else none).elim .null .ofInt) ∧
      (∃ o, IsOrdered ((dataTrackOpts options).get "ordered") o ∧
        (e.build t).ordered = (if own "ordered" then o else none).getD true) ∧
      ((e.build t).readBack.get "maxPacketLifeTime" = .null ∨
        (e.build t).readBack.get "maxRetransmits" = .null) ∧
      ((Named options (some (e.build t).name) ∧ n = counter) ∨
        (Named options none ∧ ((e.build t).name, n) = nextDefaultName "data" counter)) ∧
      (∀ m, ∃ t', createLocalDataTrack (e.build t).readBack (fun _ ↦ true) m = .ok (t', m) ∧
        e.build t' = e.build t) ∧
      ∀ value ∈ [(e.build t).maxPacketLifeTime, (e.build t).maxRetransmits],
        subscribedOptionOrNull (e.reported value) =
          if value = 65535 then .null else requestedOptionOrNull value := by
  constructor
  · constructor
    · rintro ⟨r, hr⟩
      obtain ⟨d, h, -⟩ := createLocalDataTrack_eq_ok.mp hr
      exact ⟨d, h⟩
    · rintro ⟨d, h⟩
      exact ⟨_, createLocalDataTrack_eq_ok.mpr ⟨d, h, rfl⟩⟩
  · intro t n hr
    obtain ⟨d, h, ht⟩ := createLocalDataTrack_eq_ok.mp hr
    obtain ⟨hne, hnamed⟩ := name_of_created hr
    have ho : t = (d.owned own).builder t.name := by
      have hc := d.created_fst own counter
      rw [← ht] at hc
      exact hc
    have hb := build_declared he h own t.name
    rw [← ho] at hb
    have hback := declares_readBack he h own hne
    rw [← ho] at hback
    obtain ⟨v, hv⟩ := limit_owned h.maxPacketLifeTime (own "maxPacketLifeTime")
    obtain ⟨w, hw⟩ := limit_owned h.maxRetransmits (own "maxRetransmits")
    rw [he.name]
    refine ⟨?_, ⟨_, h.ordered, by rw [hb]; rfl⟩, ?_, hnamed, ?_, ?_⟩
    · intro key hk
      rw [hb]
      rcases List.mem_pair.mp hk with rfl | rfl
      · exact ⟨_, h.maxPacketLifeTime, requestedOptionOrNull_limit hv⟩
      · exact ⟨_, h.maxRetransmits, requestedOptionOrNull_limit hw⟩
    · rw [hb]
      rcases h.exclusive with hx | hx
      · right
        exact (requestedOptionOrNull_limit hw).trans (by simp [hx])
      · left
        exact (requestedOptionOrNull_limit hv).trans (by simp [hx])
    · intro m
      refine ⟨_, createLocalDataTrack_eq_ok.mpr ⟨_, hback, rfl⟩, ?_⟩
      -- the one difference is that an order is set now, to what it was unset
      exact (build_declared he hback (fun _ ↦ true) t.name).trans hb.symm
    · intro value hval
      rw [hb] at hval
      rcases List.mem_pair.mp hval with rfl | rfl
      · exact subscribedOptionOrNull_reported he (limit_range hv).2.1 (limit_range hv).2.2
      · exact subscribedOptionOrNull_reported he (limit_range hw).2.1 (limit_range hw).2.2

/-- An engine that does what is said of rtc-cpp. -/
def storing : Engine where
  build b :=
    ⟨b.maxPacketLifeTime.getD (-1), b.maxRetransmits.getD (-1), b.ordered.getD true, b.name⟩
  reported value := if value < 0 then 65535 else value.toNat

/-- It is as documented. -/
theorem documented_storing : storing.Documented := by
  refine ⟨fun _ _ ↦ rfl, fun _ _ ↦ rfl, fun _ ↦ rfl, fun _ ↦ rfl, rfl, fun n _ ↦ ?_⟩
  have hn : ¬ (n : Int) < 0 := by omega
  simp [storing, hn]

/-- The track of a limit of 65535, which a subscriber does not see. -/
theorem data_track_options_kept_largest : ∃ t t' n,
    createLocalDataTrack (.ofProps [("maxRetransmits", .ofInt 65535)]) (fun _ ↦ true) 4 =
      .ok (t, n) ∧
    storing.build t = ⟨-1, 65535, true, "data-4"⟩ ∧ n = 5 ∧
    createLocalDataTrack (storing.build t).readBack (fun _ ↦ true) 0 = .ok (t', 0) ∧
    storing.build t' = storing.build t ∧
    requestedOptionOrNull (storing.build t).maxRetransmits = .ofInt 65535 ∧
    subscribedOptionOrNull (storing.reported (storing.build t).maxRetransmits) = .null := by
  have hd : Declares (.ofProps [("maxRetransmits", .ofInt 65535)]) ⟨none, none, some 65535, none⟩ :=
    ⟨⟨none, .inr ⟨rfl, rfl⟩, rfl⟩, rfl, ⟨NapiValue.integer?_ofInt _, by decide, by decide⟩, rfl,
      .inr rfl⟩
  have hr : createLocalDataTrack (.ofProps [("maxRetransmits", .ofInt 65535)]) (fun _ ↦ true) 4 =
      .ok (Declared.created ⟨none, none, some 65535, none⟩ (fun _ ↦ true) 4) :=
    createLocalDataTrack_eq_ok.mpr ⟨_, hd, rfl⟩
  obtain ⟨-, -, -, -, hback, hsub⟩ :=
    (data_track_options_kept storing documented_storing _ _ _).2 _ _ hr
  obtain ⟨t', ht', hsame⟩ := hback 0
  exact ⟨_, t', _, hr, by decide, rfl, ht', hsame, rfl, hsub _ (by simp)⟩

end VideoNode.Local
