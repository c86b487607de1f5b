import VideoNode.Room.DeclaredOptions
import VideoNode.Room.Timeout

/-!
# Connecting through the public entry

`connect` of `lib/index.ts` up to the native `connect`. It checks some options, works others out and
adds its own; what the native parser makes of the result is what it makes of the caller's options,
but for the fields that are not the caller's to set.
-/

namespace VideoNode.Room

open VideoNode.Js

/-- What the entry knows of the process it runs in. -/
structure Host where
  sdkVersion : String
  version : String
  arch : String
  factory : Nat

/-- `process.version.replace(/^v/, '')`. -/
def Host.platformVersion (host : Host) : String :=
  match host.version.toList with
  | 'v' :: rest => String.ofList rest
  | _ => host.version

/-- `lib/index.ts:246–251`. -/
def Host.platformInfo (host : Host) : NapiValue :=
  .ofProps [("sdkVersion", .string host.sdkVersion), ("platformName", .string "nodejs"),
    ("platformVersion", .string host.platformVersion), ("deviceArchitecture", .string host.arch)]

/-- The default `MediaFactory`; `lib/index.ts:182–188`. -/
def Host.mediaFactory (host : Host) : NapiValue :=
  .object (.wrap .mediaFactory (some host.factory)) (fun _ ↦ false) (fun _ ↦ .undefined) []

/-- `lib/index.ts:369–386`. -/
def normalizeNetworkQualityConfig (config : NapiValue) : Except JsError NapiValue := do
  let near := (config.get "local").orElse (.ofInt 1)
  let remote := (config.get "remote").orElse (.ofInt 0)
  throwIf (near.number? ≠ some (.finite 1)) (.interpolating .rangeError
    ("networkQuality.local must be 1; to disable network-quality reporting, " ++
      "pass `networkQuality: false`. Got ") near)
  throwIf (remote.integer?.filter (fun i ↦ 0 ≤ i ∧ i ≤ 1) = none) (.interpolating .rangeError
    "networkQuality.remote must be 0 (disabled) or 1 (enabled); got " remote)
  pure (.ofProps [("local", near), ("remote", remote)])

/-- The native fields of `networkQuality`; `lib/index.ts:230–244`. -/
def withNetworkQuality (networkQuality internalOpts : NapiValue) : Except JsError NapiValue :=
  let enabled := internalOpts.assign "enableNetworkQuality" (.boolean true)
  if networkQuality.boolean? = some true then
    pure (enabled.assign "networkQualityConfiguration"
      (.ofProps [("local", .ofInt 1), ("remote", .ofInt 0)]))
  else if networkQuality.isTypeofObject then do
    let normalized ← normalizeNetworkQualityConfig networkQuality
    pure (enabled.assign "networkQualityConfiguration" normalized)
  else pure (internalOpts.assign "enableNetworkQuality" (.boolean false))

namespace Index

/-- `lib/index.ts:207–258`, with the connection timeout, the token and what the native parser
makes of the options; `own` tells which properties of the options are their own. -/
def connect (host : Host) (token options : NapiValue) (own : String → Bool) :
    Except JsError (ℚ × String × Builder) := do
  let options := givenOptions options
  throwIf (token.string?.filter (fun s : JsString ↦ s ≠ "") = none)
    (typeError "token must be a non-empty string")
  throwIf (options.isTypeofObject = false) (typeError "options must be an object")
  let timeoutMs ← checkTimeout (options.get "connectionTimeout").described
  let rest := options.rest own ["networkQuality", "connectionTimeout"]
  let internalOpts := (rest.delete "enableNetworkQuality").delete "networkQualityConfiguration"
  let internalOpts ← withNetworkQuality (options.get "networkQuality") internalOpts
  let internalOpts := internalOpts.assign "platformInfo" host.platformInfo
  let internalOpts := internalOpts.assign "mediaFactory" host.mediaFactory
  let called ← Room.connect token internalOpts
  pure (timeoutMs, called)

/-- The fields that are not the caller's to set. -/
def reserved : List String :=
  ["networkQuality", "connectionTimeout", "enableNetworkQuality", "networkQualityConfiguration",
    "platformInfo", "mediaFactory"]

/-- What the network quality option asks for: nothing, or reports with a verbosity for the remote
participants. -/
def IsQuality (v : NapiValue) : Option NetworkQualityVerbosity → Prop
  | none => v.boolean? ≠ some true ∧ v.isTypeofObject = false
  | some remote => v.boolean? = some true ∧ remote = .kNone ∨ v.isTypeofObject = true ∧
    ((v.get "local").isNullish = true ∨ (v.get "local").number? = some (.finite 1)) ∧
    ((v.get "remote").isNullish = true ∧ remote = .kNone ∨ IsVerbosity (v.get "remote") remote)

/-- What the builder receives besides the caller's own options. -/
def fill (host : Host) (quality : Option NetworkQualityVerbosity) (b : Builder) : Builder :=
  { b with
    mediaFactory := some (some host.factory)
    networkQuality := some quality.isSome
    networkQualityConfiguration := quality.map fun remote ↦ ⟨some .kMinimal, some remote⟩
    platformInfo :=
      some ⟨some host.sdkVersion, some "nodejs", some host.platformVersion, some host.arch⟩ }

/-- The native fields of a quality. -/
def Filled (quality : Option NetworkQualityVerbosity) (opts filled : NapiValue) : Prop :=
  match quality with
  | none => filled = opts.assign "enableNetworkQuality" (.boolean false)
  | some remote => ∃ config,
    readNetworkQuality config = .ok ⟨some .kMinimal, some remote⟩ ∧
    filled = (opts.assign "enableNetworkQuality" (.boolean true)).assign
      "networkQualityConfiguration" config

/-- The verbosities are the integers 0 and 1. -/
theorem verbosity_iff {v : NapiValue} : (∃ level, IsVerbosity v level) ↔
    v.integer?.filter (fun i ↦ 0 ≤ i ∧ i ≤ 1) ≠ none := by
  rw [Option.ne_none_iff_exists']
  simp only [Option.filter_eq_some_iff, decide_eq_true_eq]
  constructor
  · rintro ⟨level, h⟩
    cases level with
    | kNone =>
      have hn : v.number? = some (.finite 0) := h
      exact ⟨0, by rw [NapiValue.integer?, hn]; rfl, by decide⟩
    | kMinimal =>
      have hn : v.number? = some (.finite 1) := h
      exact ⟨1, by rw [NapiValue.integer?, hn]; rfl, by decide⟩
  · rintro ⟨i, hi, h0, h1⟩
    obtain ⟨n, hn, hi⟩ := Option.bind_eq_some_iff.mp hi
    have hcases : i = 0 ∨ i = 1 := by omega
    rcases hcases with rfl | rfl
    · exact ⟨.kNone, hn.trans (congrArg some (JsNumber.eq_of_isInteger (k := 0) hi))⟩
    · exact ⟨.kMinimal, hn.trans (congrArg some (JsNumber.eq_of_isInteger (k := 1) hi))⟩

private theorem orElse_ofInt {v : NapiValue} {i : Int} {p : JsNumber} :
    (v.orElse (.ofInt i)).number? = some p ↔
      v.isNullish = true ∧ JsNumber.finite i = p ∨ v.number? = some p := by
  unfold NapiValue.orElse
  cases v with
  | undefined | null => simp [NapiValue.isNullish, NapiValue.number?, NapiValue.ofInt]
  | _ => simp [NapiValue.isNullish]

/-- A configuration is normalized to one the native parser reads. -/
theorem normalizeNetworkQualityConfig_ok {v : NapiValue} {remote : NetworkQualityVerbosity} :
    (∃ config, normalizeNetworkQualityConfig v = .ok config ∧
      readNetworkQuality config = .ok ⟨some .kMinimal, some remote⟩) ↔
    ((v.get "local").isNullish = true ∨ (v.get "local").number? = some (.finite 1)) ∧
      ((v.get "remote").isNullish = true ∧ remote = .kNone ∨
        IsVerbosity (v.get "remote") remote) := by
  have hnear : ((v.get "local").orElse (.ofInt 1)).number? = some (.finite 1) ↔
      (v.get "local").isNullish = true ∨ (v.get "local").number? = some (.finite 1) := by
    simp [orElse_ofInt]
  have hremote : IsVerbosity ((v.get "remote").orElse (.ofInt 0)) remote ↔
      (v.get "remote").isNullish = true ∧ remote = .kNone ∨
        IsVerbosity (v.get "remote") remote := by
    unfold IsVerbosity
    rw [orElse_ofInt]
    cases remote <;> simp
  rw [← hnear, ← hremote]
  simp only [normalizeNetworkQualityConfig, bind_eq_ok, throwIf_eq_ok, pure_eq_ok, not_not,
    decodes_networkQuality.ok]
  constructor
  · rintro ⟨config, ⟨-, hn, -, -, rfl⟩, hc⟩
    exact ⟨hn, hc.remote.2⟩
  · rintro ⟨hn, hr⟩
    exact ⟨_, ⟨(), hn, (), verbosity_iff.mp ⟨_, hr⟩, rfl⟩, rfl, ⟨rfl, hn⟩, ⟨rfl, hr⟩⟩

/-- Whatever is normalized is read natively, with reports for the local participant. -/
theorem readNetworkQuality_of_normalized {v config : NapiValue}
    (h : normalizeNetworkQualityConfig v = .ok config) :
    ∃ remote, readNetworkQuality config = .ok ⟨some .kMinimal, some remote⟩ := by
  simp only [normalizeNetworkQualityConfig, bind_eq_ok, throwIf_eq_ok, pure_eq_ok, not_not] at h
  obtain ⟨-, hn, -, hr, rfl⟩ := h
  obtain ⟨remote, hr⟩ := verbosity_iff.mpr hr
  exact ⟨remote, decodes_networkQuality.ok _ _ |>.mpr ⟨rfl, ⟨rfl, hn⟩, ⟨rfl, hr⟩⟩⟩

/-- The native fields that are filled in are those of the quality the option asks for. -/
theorem withNetworkQuality_ok {v opts filled : NapiValue}
    (h : withNetworkQuality v opts = .ok filled) :
    ∃ quality, IsQuality v quality ∧ Filled quality opts filled := by
  unfold withNetworkQuality at h
  split at h
  · next hb =>
    cases h
    exact ⟨some .kNone, .inl ⟨hb, rfl⟩, _, rfl, rfl⟩
  · next hb =>
    split at h
    · next ho =>
      simp only [bind_eq_ok, pure_eq_ok] at h
      obtain ⟨config, hc, rfl⟩ := h
      obtain ⟨remote, hr⟩ := readNetworkQuality_of_normalized hc
      exact ⟨some remote, .inr ⟨ho, normalizeNetworkQualityConfig_ok.mp ⟨config, hc, hr⟩⟩,
        config, hr, rfl⟩
    · next ho =>
      cases h
      exact ⟨none, ⟨hb, Bool.eq_false_iff.mpr ho⟩, rfl⟩

/-- Every quality an option asks for is filled in. -/
theorem withNetworkQuality_of_quality {v : NapiValue} {quality : Option NetworkQualityVerbosity}
    (h : IsQuality v quality) (opts : NapiValue) :
    ∃ filled, withNetworkQuality v opts = .ok filled ∧ Filled quality opts filled := by
  unfold withNetworkQuality
  cases quality with
  | none =>
    rw [if_neg h.1, if_neg (by simp [h.2])]
    exact ⟨_, rfl, rfl⟩
  | some remote =>
    rcases h with ⟨hb, rfl⟩ | ⟨ho, hc⟩
    · rw [if_pos hb]
      exact ⟨_, rfl, _, rfl, rfl⟩
    · obtain ⟨config, hn, hr⟩ := normalizeNetworkQualityConfig_ok.mpr hc
      have hb : v.boolean? ≠ some true := by
        intro hb
        cases v with
        | boolean b => cases ho
        | _ => cases hb
      rw [if_neg hb, if_pos ho, hn]
      exact ⟨_, rfl, config, hr, rfl⟩

section

variable {host : Host} {options filled : NapiValue} {own : String → Bool}
  {quality : Option NetworkQualityVerbosity}

-- The options native code is called with.
private def sent (host : Host) (filled : NapiValue) : NapiValue :=
  (filled.assign "platformInfo" host.platformInfo).assign "mediaFactory" host.mediaFactory

-- The options once the fields of the network quality are cleared.
private def cleared (options : NapiValue) (own : String → Bool) : NapiValue :=
  ((options.rest own ["networkQuality", "connectionTimeout"]).delete "enableNetworkQuality").delete
    "networkQualityConfiguration"

private theorem isObject_cleared : (cleared options own).isObject = true := rfl

private theorem filled_frame (h : Filled quality (cleared options own) filled) :
    filled.isObject = true ∧ ∀ {α : Type} {key : String} (read : NapiValue → Except JsError α),
      key ≠ "enableNetworkQuality" → key ≠ "networkQualityConfiguration" →
        optional filled key read = optional (cleared options own) key read := by
  cases quality with
  | none =>
    cases h
    exact ⟨rfl, fun read he _ ↦ optional_assign_of_ne read he⟩
  | some remote =>
    obtain ⟨config, -, rfl⟩ := h
    exact ⟨rfl, fun read he hc ↦
      (optional_assign_of_ne read hc).trans (optional_assign_of_ne read he)⟩

private theorem optional_sent {α : Type} (h : Filled quality (cleared options own) filled)
    {key : String} (hk : key ∉ reserved) (read : NapiValue → Except JsError α) :
    optional (sent host filled) key read = optional (options.rest own reserved) key read := by
  have hr : reserved.contains key = false := by simpa using hk
  simp only [reserved, List.mem_cons, List.not_mem_nil, or_false, not_or] at hk
  obtain ⟨hq, ht, he, hc, hp, hf⟩ := hk
  have hn : ["networkQuality", "connectionTimeout"].contains key = false := by simp [hq, ht]
  rw [sent, optional_assign_of_ne read hf, optional_assign_of_ne read hp,
    (filled_frame h).2 read he hc, cleared, optional_delete_of_ne read hc,
    optional_delete_of_ne read he, optional_rest, optional_rest, hr, hn]

private theorem optional_reserved {α : Type} {key : String} (hk : key ∈ reserved)
    (read : NapiValue → Except JsError α) :
    optional (options.rest own reserved) key read = pure none := by
  have hr : reserved.contains key = true := by simpa using hk
  rw [optional_rest, hr, Bool.not_true, Bool.and_false, if_neg Bool.false_ne_true]
  rfl

private theorem readPlatformInfo_host : readPlatformInfo host.platformInfo =
    .ok ⟨some host.sdkVersion, some "nodejs", some host.platformVersion, some host.arch⟩ := by
  rw [decodes_platformInfo.ok]
  exact ⟨rfl, ⟨rfl, isText_string _⟩, ⟨rfl, isText_string _⟩, ⟨rfl, isText_string _⟩,
    ⟨rfl, isText_string _⟩⟩

private theorem quality_sent (host : Host) (h : Filled quality (cleared options own) filled) :
    optional (sent host filled) "enableNetworkQuality" (readBool "enableNetworkQuality") =
        pure (some quality.isSome) ∧
      optional (sent host filled) "networkQualityConfiguration" readNetworkQuality =
        pure (quality.map fun remote ↦ ⟨some .kMinimal, some remote⟩) := by
  rw [sent, optional_assign_of_ne _ (by decide), optional_assign_of_ne _ (by decide),
    optional_assign_of_ne _ (by decide), optional_assign_of_ne _ (by decide)]
  cases quality with
  | none =>
    cases h
    rw [optional_assign_self _ isObject_cleared, optional_assign_of_ne _ (by decide), cleared,
      optional_delete_self]
    exact ⟨rfl, rfl⟩
  | some remote =>
    obtain ⟨config, hc, rfl⟩ := h
    rw [optional_assign_of_ne _ (by decide), optional_assign_self _ isObject_cleared,
      optional_assign_self _ rfl, hc]
    exact ⟨rfl, rfl⟩

private theorem parse_sent (h : Filled quality (cleared options own) filled) :
    parseConnectOptions (sent host filled) =
      (parseConnectOptions (options.rest own reserved)).map (fill host quality) := by
  have hobj : (filled.assign "platformInfo" host.platformInfo).isObject = true := by
    have ho := (filled_frame h).1
    cases filled with
    | object => rfl
    | _ => cases ho
  have hfactory (message : String) : optional (sent host filled) "mediaFactory"
      (readInstance .mediaFactory message) = pure (some (some host.factory)) := by
    rw [sent, optional_assign_self _ hobj]
    rfl
  have hplatform : optional (sent host filled) "platformInfo" readPlatformInfo =
      pure (some ⟨some host.sdkVersion, some "nodejs", some host.platformVersion,
        some host.arch⟩) := by
    rw [sent, optional_assign_of_ne _ (by decide), optional_assign_self _ (filled_frame h).1,
      readPlatformInfo_host]
    rfl
  obtain ⟨henable, hconfig⟩ := quality_sent host h
  have hsent : ∀ key, key ∉ reserved → ∀ {α : Type} (read : NapiValue → Except JsError α),
      optional (sent host filled) key read = optional (options.rest own reserved) key read :=
    fun _ hk _ read ↦ optional_sent h hk read
  have hnone : ∀ key, key ∈ reserved → ∀ {α : Type} (read : NapiValue → Except JsError α),
      optional (options.rest own reserved) key read = pure none :=
    fun _ hk _ read ↦ optional_reserved hk read
  simp only [parseConnectOptions, hsent "name" (by decide), hsent "enableInsights" (by decide),
    hsent "enableAutomaticSubscription" (by decide), hsent "enableDominantSpeaker" (by decide),
    hsent "receiveTranscriptions" (by decide), hsent "region" (by decide),
    hsent "preferredAudioCodecs" (by decide), hsent "preferredVideoCodecs" (by decide),
    hsent "videoEncodingMode" (by decide), hsent "bandwidthProfile" (by decide),
    hsent "encodingParameters" (by decide), hsent "iceOptions" (by decide),
    hsent "videoTracks" (by decide), hsent "audioTracks" (by decide),
    hsent "dataTracks" (by decide), hfactory, hplatform, henable, hconfig,
    hnone "mediaFactory" (by decide), hnone "enableNetworkQuality" (by decide),
    hnone "networkQualityConfiguration" (by decide), hnone "platformInfo" (by decide), pure_bind,
    map_bind_eq]
  unfold fill
  rfl

end

private theorem badArgument_interpolating (text : String) (v : NapiValue) :
    (JsError.interpolating .rangeError text v).BadArgument := by
  unfold JsError.interpolating
  split
  · exact .inl rfl
  · exact .inr rfl

private theorem refuses_checkTimeout (v : JsValue) : Refuses (checkTimeout v) := by
  unfold checkTimeout
  split
  · exact Refuses.pure _
  · split
    · split
      · rintro e ⟨⟩
        exact .inr rfl
      · exact Refuses.pure _
    · rintro e ⟨⟩
      exact .inr rfl

private theorem refuses_withNetworkQuality (v opts : NapiValue) :
    Refuses (withNetworkQuality v opts) := by
  unfold withNetworkQuality
  split
  · exact Refuses.pure _
  · split
    · apply Refuses.bind
      · apply (Refuses.throwIf (badArgument_interpolating _ _)).bind
        intro _
        apply (Refuses.throwIf (badArgument_interpolating _ _)).bind
        intro _
        exact Refuses.pure _
      · exact fun _ ↦ Refuses.pure _
    · exact Refuses.pure _

private theorem connect_sent {host : Host} {options filled : NapiValue} {own : String → Bool}
    {quality : Option NetworkQualityVerbosity} (h : Filled quality (cleared options own) filled)
    {s : JsString} {t : String} {b : Builder} :
    Room.connect (.string s) (sent host filled) = .ok (t, b) ↔ t = s.utf8Value ∧ ∃ b₀,
      parseConnectOptions (options.rest own reserved) = .ok b₀ ∧ b = fill host quality b₀ := by
  have hobj : givenOptions (sent host filled) = sent host filled ∧
      (sent host filled).isObject = true := by
    have ho := (filled_frame h).1
    cases filled with
    | object => exact ⟨rfl, rfl⟩
    | _ => cases ho
  have hs : readString "Token must be a string" (.string s) = .ok s.utf8Value := rfl
  simp only [Room.connect, hs, hobj.1, hobj.2, parse_sent h]
  cases parseConnectOptions (options.rest own reserved) with
  | error e => simp [throwIf, Except.map, bind, Except.bind]
  | ok b₀ =>
    simp [throwIf, Except.map, bind, Except.bind, pure, Except.pure, eq_comm]

/-- One part of `seededTracks`, of an option that is an array or left out;
`lib/index.ts:262–266`. -/
def seededTracks (options : NapiValue) (key : String) : Option (List NapiValue) :=
  ((options.get key).orElse (.ofItems [])).items?

private theorem seeded_of_field {options : NapiValue} {own : String → Bool} (key : String)
    (hk : key ∉ reserved) {cls : NativeClass} {pointers : Option (List (Option Nat))}
    (h : Field (options.rest own reserved) key (Elements (IsInstance cls)) pointers)
    (ho : own key = true ∨ (options.get key).isNullish = true) :
    ∃ items, seededTracks options key = some items ∧
      items.map (NapiValue.instance? cls) = (pointers.getD []).map some := by
  have hr : reserved.contains key = false := by simpa using hk
  have hhas : (options.rest own reserved).has key = own key := by
    simp [NapiValue.rest, NapiValue.has, hk]
  unfold seededTracks
  cases hown : own key with
  | false =>
    rw [hown] at hhas ho
    have hn : (options.get key).isNullish = true := by simpa using ho
    cases pointers with
    | none => exact ⟨[], by rw [NapiValue.orElse, if_pos hn]; rfl, rfl⟩
    | some ps => exact absurd (hhas.symm.trans h.1) Bool.false_ne_true
  | true =>
    rw [hown] at hhas
    obtain ⟨ps, rfl, items, hi, hall⟩ := h.of_has hhas
    have hget : (options.rest own reserved).get key = options.get key := by
      simp [NapiValue.rest, NapiValue.get, hk, hown]
    rw [hget] at hi
    have hn : (options.get key).isNullish = false := by
      cases hv : options.get key with
      | undefined | null => rw [hv] at hi; cases hi
      | _ => rfl
    refine ⟨items, by rw [NapiValue.orElse, if_neg (by simp [hn])]; exact hi, ?_⟩
    rw [Option.getD_some]
    clear hi h
    induction hall with
    | nil => rfl
    | cons hp _ ih => rw [List.map_cons, List.map_cons, ih, show _ = _ from hp]

/-- The public `connect` goes on exactly with a token that is no empty string, options that are an
object, a timeout and a network quality that are in range, and what the native parser accepts of the
caller's own options. The builder receives these, and for every field that is not the caller's to
set what the entry fills in. Otherwise the caller is told that an argument is wrong. -/
theorem connect_fills (host : Host) (token options : NapiValue) (own : String → Bool) :
    Refuses (connect host token options own) ∧
    ∀ (timeoutMs : ℚ) (t : String) (b : Builder),
      (connect host token options own = .ok (timeoutMs, t, b) ↔
        IsText token t ∧ t ≠ "" ∧ (givenOptions options).isTypeofObject = true ∧
        checkTimeout ((givenOptions options).get "connectionTimeout").described = .ok timeoutMs ∧
        ∃ quality b₀, IsQuality ((givenOptions options).get "networkQuality") quality ∧
          parseConnectOptions ((givenOptions options).rest own reserved) = .ok b₀ ∧
          b = fill host quality b₀) ∧
      (connect host token options own = .ok (timeoutMs, t, b) →
        ∀ track ∈ [("videoTracks", NativeClass.localVideoTrack, b.videoTracks),
            ("audioTracks", .localAudioTrack, b.audioTracks),
            ("dataTracks", .localDataTrack, b.dataTracks)],
          own track.1 = true ∨ ((givenOptions options).get track.1).isNullish = true →
          ∃ items, seededTracks (givenOptions options) track.1 = some items ∧
            items.map (NapiValue.instance? track.2.1) = (track.2.2.getD []).map some) := by
  have hiff (timeoutMs : ℚ) (t : String) (b : Builder) :
      connect host token options own = .ok (timeoutMs, t, b) ↔
        IsText token t ∧ t ≠ "" ∧ (givenOptions options).isTypeofObject = true ∧
        checkTimeout ((givenOptions options).get "connectionTimeout").described = .ok timeoutMs ∧
        ∃ quality b₀, IsQuality ((givenOptions options).get "networkQuality") quality ∧
          parseConnectOptions ((givenOptions options).rest own reserved) = .ok b₀ ∧
          b = fill host quality b₀ := by
    constructor
    · intro h
      simp only [connect, bind_eq_ok, throwIf_eq_ok, Bool.not_eq_false, pure_eq_ok,
        Prod.mk.injEq] at h
      obtain ⟨-, htoken, -, ho, ms, hms, filled, hq, ⟨t', b'⟩, hc, rfl, rfl, rfl⟩ := h
      obtain ⟨s, hs⟩ := Option.ne_none_iff_exists'.mp htoken
      obtain ⟨hs, hne⟩ := Option.filter_eq_some_iff.mp hs
      obtain rfl := NapiValue.string?_eq_some.mp hs
      have hne : s ≠ "" := by simpa using hne
      obtain ⟨quality, hquality, hfilled⟩ := withNetworkQuality_ok hq
      obtain ⟨rfl, b₀, hb, rfl⟩ := (connect_sent hfilled).mp hc
      exact ⟨rfl, fun he ↦ hne (JsString.utf8Value_eq_empty.mp he), ho, hms, quality, b₀, hquality,
        hb, rfl⟩
    · rintro ⟨htoken, hne, ho, hms, quality, b₀, hquality, hb, rfl⟩
      obtain ⟨s, hs, rfl⟩ := Option.map_eq_some_iff.mp htoken
      have hne : s ≠ "" := fun he ↦ hne (JsString.utf8Value_eq_empty.mpr he)
      obtain rfl := NapiValue.string?_eq_some.mp hs
      obtain ⟨filled, hq, hfilled⟩ :=
        withNetworkQuality_of_quality hquality (cleared (givenOptions options) own)
      simp only [connect, bind_eq_ok, throwIf_eq_ok, Bool.not_eq_false, pure_eq_ok]
      refine ⟨(), by simp [NapiValue.string?, hne], (), ho, timeoutMs, hms, filled, hq, (_, _),
        (connect_sent hfilled).mpr ⟨rfl, b₀, hb, rfl⟩, rfl⟩
  refine ⟨?_, fun timeoutMs t b ↦ ⟨hiff timeoutMs t b, fun h track htrack ho ↦ ?_⟩⟩
  · apply (Refuses.throwIf (badArgument_typeError _)).bind
    intro _
    apply (Refuses.throwIf (badArgument_typeError _)).bind
    intro _
    apply (refuses_checkTimeout _).bind
    intro _
    apply (refuses_withNetworkQuality _ _).bind
    intro _
    apply (connect_refuses _ _).bind
    intro _
    exact Refuses.pure _
  · obtain ⟨-, -, -, -, quality, b₀, -, hb, rfl⟩ := (hiff timeoutMs t b).mp h
    have hr := parseConnectOptions_eq_ok.mp hb
    simp only [List.mem_cons, List.not_mem_nil, or_false] at htrack
    rcases htrack with rfl | rfl | rfl
    · exact seeded_of_field "videoTracks" (by decide) hr.videoTracks ho
    · exact seeded_of_field "audioTracks" (by decide) hr.audioTracks ho
    · exact seeded_of_field "dataTracks" (by decide) hr.dataTracks ho

/-- A local track of a native class, as its constructor made it. -/
def localTrack (cls : NativeClass) (pointer : Nat) : NapiValue :=
  .object (.wrap cls (some pointer)) (fun _ ↦ false) (fun _ ↦ .undefined) []

/-- Options that ask for reports on everybody, try to turn them off natively and seed tracks. -/
def qualityOptions : NapiValue :=
  .ofProps [("name", .string "room"), ("enableNetworkQuality", .boolean false),
    ("networkQuality", .ofProps [("remote", .ofInt 1)]),
    ("videoTracks", .ofItems [localTrack .localVideoTrack 3, localTrack .localVideoTrack 4]),
    ("dataTracks", .ofItems [localTrack .localDataTrack 5])]

/-- They are turned on, and the Room is seeded with the tracks the builder has received. -/
theorem connect_fills_quality : ∃ b : Builder,
    connect ⟨"1.0.0", "v22.1.0", "x64", 0⟩ (.string "token") qualityOptions qualityOptions.has =
      .ok (30000, "token", b) ∧
    b.roomName = some "room" ∧ b.networkQuality = some true ∧
    b.networkQualityConfiguration = some ⟨some .kMinimal, some .kMinimal⟩ ∧
    b.platformInfo = some ⟨some "1.0.0", some "nodejs", some "22.1.0", some "x64"⟩ ∧
    b.videoTracks = some [some 3, some 4] ∧ b.dataTracks = some [some 5] ∧
    (∃ items, seededTracks qualityOptions "videoTracks" = some items ∧
      items.map (NapiValue.instance? .localVideoTrack) = [some (some 3), some (some 4)]) ∧
    (∃ items, seededTracks qualityOptions "dataTracks" = some items ∧
      items.map (NapiValue.instance? .localDataTrack) = [some (some 5)]) ∧
    ∃ items, seededTracks qualityOptions "audioTracks" = some items ∧
      items.map (NapiValue.instance? .localAudioTrack) = [] := by
  have h := (connect_fills ⟨"1.0.0", "v22.1.0", "x64", 0⟩ (.string "token") qualityOptions
    qualityOptions.has).2 30000 "token"
  have hb : parseConnectOptions (qualityOptions.rest qualityOptions.has reserved) = .ok _ := rfl
  have hok := (h _).1.mpr ⟨isText_string _, by decide, rfl,
    checkTimeout_eq_ok.mpr (.inl ⟨rfl, rfl⟩), some .kMinimal, _,
    .inr ⟨rfl, .inl rfl, .inr rfl⟩, hb, rfl⟩
  have hseeded := (h _).2 hok
  refine ⟨_, hok, rfl, rfl, rfl, by decide, rfl, rfl, ?_, ?_, ?_⟩
  · exact hseeded ("videoTracks", .localVideoTrack, some [some 3, some 4]) (by simp; rfl) (.inl rfl)
  · exact hseeded ("dataTracks", .localDataTrack, some [some 5]) (by simp; rfl) (.inl rfl)
  · exact hseeded ("audioTracks", .localAudioTrack, none) (by simp; rfl) (.inr rfl)

end Index

end VideoNode.Room
