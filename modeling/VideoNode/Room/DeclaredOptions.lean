import VideoNode.Room.ConnectOptions

/-!
# What the connect options declare

The type and range of each option as a relation between the value and what the builder receives for
it, and each reader of the parser against its relation. They part in two places: a server whose
`urls` are no array, and a string that is not well formed.
-/

namespace VideoNode.Room

open VideoNode.Js

/-- The string of a text. -/
def IsString (v : NapiValue) (s : String) : Prop := v = .string s

/-- A string, with what is read of it. -/
def IsText (v : NapiValue) (s : String) : Prop := v.text? = some s

/-- A boolean. -/
def IsBoolean (v : NapiValue) (b : Bool) : Prop := v.boolean? = some b

/-- One of the strings of a table, with what it stands for. -/
def OneOf {α : Type} (names : List (String × α)) (v : NapiValue) (a : α) : Prop :=
  ∃ s, IsString v s ∧ names.lookup s = some a

/-- An instance of a native class, with the pointer it wraps. -/
def IsInstance (cls : NativeClass) (v : NapiValue) (pointer : Option Nat) : Prop :=
  v.instance? cls = some pointer

/-- A non-negative safe integer. -/
def IsBitrate (v : NapiValue) (n : Nat) : Prop :=
  v.integer? = some (n : Int) ∧ n ≤ 9007199254740991

/-- The number of a verbosity. -/
def IsVerbosity (v : NapiValue) (level : NetworkQualityVerbosity) : Prop :=
  v.number? = some (.finite (match level with
    | .kNone => 0
    | .kMinimal => 1))

/-- A network quality configuration. -/
structure IsNetworkQuality (v : NapiValue) (c : NetworkQualityConfiguration) : Prop where
  object : v.isObject = true
  near : Field v "local" IsVerbosity c.localVerbosityLevel
  remote : Field v "remote" IsVerbosity c.remoteVerbosityLevel

/-- The video options of a bandwidth profile. -/
structure IsVideoProfile (v : NapiValue) (p : VideoBandwidthProfileOptions) : Prop where
  object : v.isObject = true
  mode : Field v "mode" (OneOf BandwidthProfileMode.names) p.mode
  maxSubscriptionBitrate : Field v "maxSubscriptionBitrate" IsBitrate p.maxSubscriptionBitrate
  trackSwitchOffMode :
    Field v "trackSwitchOffMode" (OneOf TrackSwitchOffMode.names) p.trackSwitchOffMode
  clientTrackSwitchOffControl : Field v "clientTrackSwitchOffControl" (OneOf AutoManual.names)
    p.clientTrackSwitchOffControl
  contentPreferencesMode :
    Field v "contentPreferencesMode" (OneOf AutoManual.names) p.contentPreferencesMode

/-- A bandwidth profile. -/
def IsBandwidthProfile (v : NapiValue) (p : Option VideoBandwidthProfileOptions) : Prop :=
  v.isObject = true ∧ Field v "video" IsVideoProfile p

/-- Encoding parameters. -/
structure IsEncodingParameters (v : NapiValue) (p : EncodingParameters) : Prop where
  object : v.isObject = true
  maxAudioBitrate : Field v "maxAudioBitrate" IsBitrate p.maxAudioBitrate
  maxVideoBitrate : Field v "maxVideoBitrate" IsBitrate p.maxVideoBitrate

/-- The urls of a server as they are declared: an array of strings. -/
def DeclaredUrls (server : NapiValue) (urls : Option (List String)) : Prop :=
  Field server "urls" (Elements IsString) urls

/-- The urls of a server as they are parsed: what is no array counts as absent. -/
def ParsedUrls (server : NapiValue) (urls : Option (List String)) : Prop :=
  match (server.present? "urls").bind NapiValue.items? with
  | none => urls = none
  | some items => ∃ us, urls = some us ∧ List.Forall₂ IsText items us

section

variable (Text : NapiValue → String → Prop) (Urls : NapiValue → Option (List String) → Prop)

/-- A server whose strings and urls are read in some way. -/
structure IsIceServer (v : NapiValue) (s : IceServer) : Prop where
  object : v.isObject = true
  urls : Urls v s.urls
  username : Field v "username" Text s.username
  password : Field v "credential" Text s.password

/-- ICE options. -/
structure IsIceOptions (v : NapiValue) (o : IceOptions) : Prop where
  object : v.isObject = true
  iceTransportPolicy :
    Field v "transportPolicy" (OneOf IceTransportPolicy.names) o.iceTransportPolicy
  iceServers : Field v "iceServers" (Elements (IsIceServer Text Urls)) o.iceServers

/-- Platform info. -/
structure IsPlatformInfo (v : NapiValue) (p : PlatformInfo) : Prop where
  object : v.isObject = true
  sdkVersion : Field v "sdkVersion" Text p.sdkVersion
  platformName : Field v "platformName" Text p.platformName
  platformVersion : Field v "platformVersion" Text p.platformVersion
  hwDeviceArch : Field v "deviceArchitecture" Text p.hwDeviceArch

/-- Every option that is present has its type and range and the builder has received its value, and
the builder has received nothing for an option that is absent. -/
structure Receives (opts : NapiValue) (b : Builder) : Prop where
  roomName : Field opts "name" Text b.roomName
  mediaFactory : Field opts "mediaFactory" (IsInstance .mediaFactory) b.mediaFactory
  insights : Field opts "enableInsights" IsBoolean b.insights
  automaticSubscription :
    Field opts "enableAutomaticSubscription" IsBoolean b.automaticSubscription
  dominantSpeaker : Field opts "enableDominantSpeaker" IsBoolean b.dominantSpeaker
  networkQuality : Field opts "enableNetworkQuality" IsBoolean b.networkQuality
  transcriptions : Field opts "receiveTranscriptions" IsBoolean b.transcriptions
  region : Field opts "region" Text b.region
  networkQualityConfiguration :
    Field opts "networkQualityConfiguration" IsNetworkQuality b.networkQualityConfiguration
  preferredAudioCodecs :
    Field opts "preferredAudioCodecs" (Elements (OneOf AudioCodec.names)) b.preferredAudioCodecs
  preferredVideoCodecs :
    Field opts "preferredVideoCodecs" (Elements (OneOf VideoCodec.names)) b.preferredVideoCodecs
  videoEncodingMode :
    Field opts "videoEncodingMode" (OneOf VideoEncodingMode.names) b.videoEncodingMode
  bandwidthProfile : Field opts "bandwidthProfile" IsBandwidthProfile b.bandwidthProfile
  encodingParameters : Field opts "encodingParameters" IsEncodingParameters b.encodingParameters
  iceOptions : Field opts "iceOptions" (IsIceOptions Text Urls) b.iceOptions
  platformInfo : Field opts "platformInfo" (IsPlatformInfo Text) b.platformInfo
  videoTracks : Field opts "videoTracks" (Elements (IsInstance .localVideoTrack)) b.videoTracks
  audioTracks : Field opts "audioTracks" (Elements (IsInstance .localAudioTrack)) b.audioTracks
  dataTracks : Field opts "dataTracks" (Elements (IsInstance .localDataTrack)) b.dataTracks

end

/-- A `TypeError` tells the caller that an argument is wrong. -/
theorem badArgument_typeError (message : String) : (typeError message).BadArgument := .inl rfl

/-- A string is read as its text. -/
theorem decodes_string (message : String) : Decodes (readString message) IsText :=
  .orThrow fun _ ↦ badArgument_typeError message

/-- A boolean is read as itself. -/
theorem decodes_bool (field : String) : Decodes (readBool field) IsBoolean :=
  .orThrow fun _ ↦ badArgument_typeError _

/-- An instance is read as the pointer it wraps. -/
theorem decodes_instance (cls : NativeClass) (message : String) :
    Decodes (readInstance cls message) (IsInstance cls) :=
  .orThrow fun _ ↦ badArgument_typeError message

/-- A string, if it is one, has no surrogate that stands alone. -/
def Whole (v : NapiValue) : Prop := v.isWellFormed = true

/-- A string that is well formed is the one of its text. -/
theorem isString_iff (v : NapiValue) (s : String) : IsString v s ↔ IsText v s ∧ Whole v := by
  unfold IsString IsText Whole
  cases v with
  | string u =>
    rw [NapiValue.string.injEq, JsString.eq_ofText_iff, and_comm]
    simp [NapiValue.text?, NapiValue.string?, NapiValue.isWellFormed]
  | _ => simp [NapiValue.text?, NapiValue.string?]

/-- The text of the string of a text. -/
theorem isText_string (s : String) : IsText (.string s) s :=
  congrArg some (JsString.utf8Value_ofText s)

/-- A table none of whose strings has U+FFFD, which a string that is not well formed is read
with. -/
def Legible {α : Type} (names : List (String × α)) : Prop :=
  ∀ p ∈ names, Utf16.replacement ∉ p.1.toList

instance {α : Type} (names : List (String × α)) : Decidable (Legible names) :=
  inferInstanceAs (Decidable (∀ p ∈ names, _))

/-- A string of the table is read as what it stands for. -/
theorem decodes_enum {α : Type} (message unknown : String) {names : List (String × α)}
    (hl : Legible names) : Decodes (readEnum message unknown names) (OneOf names) where
  ok v a := by
    have hs : ∀ s, names.lookup s = some a → (IsText v s ↔ IsString v s) := by
      intro s hn
      obtain ⟨l₁, l₂, rfl, -⟩ := List.lookup_eq_some_iff.mp hn
      have hs := hl (s, a) (by simp)
      cases v with
      | string u => simp [IsText, IsString, NapiValue.text?, NapiValue.string?,
          JsString.utf8Value_eq_iff hs]
      | _ => simp [IsText, IsString, NapiValue.text?, NapiValue.string?]
    simp only [readEnum, bind_eq_ok, (decodes_string message).ok, orThrow_eq_ok]
    exact exists_congr fun s ↦ and_congr_left (hs s)
  error v := by
    apply ((decodes_string message).error v).bind
    intro s
    exact Refuses.orThrow (badArgument_typeError _)

/-- The numbers a bitrate is taken from. -/
theorem safeInteger_eq_some {n : JsNumber} {k : Nat} :
    safeInteger n = some k ↔ n.isInteger = some (k : Int) ∧ k ≤ 9007199254740991 := by
  unfold safeInteger
  cases n.isInteger with
  | none => simp
  | some i =>
    simp only [Option.bind_some]
    split
    · simp only [Option.some.injEq]
      omega
    · simp only [reduceCtorEq, Option.some.injEq, false_iff]
      omega

/-- A bitrate is read as its number. -/
theorem decodes_bitrate (field : String) : Decodes (readBitrate field) IsBitrate where
  ok v k := by
    simp only [readBitrate, bind_eq_ok, orThrow_eq_ok, safeInteger_eq_some, IsBitrate,
      NapiValue.integer?, Option.bind_eq_some_iff]
    constructor
    · rintro ⟨n, hn, hi, hk⟩
      exact ⟨⟨n, hn, hi⟩, hk⟩
    · rintro ⟨⟨n, hn, hi⟩, hk⟩
      exact ⟨n, hn, hi, hk⟩
  error v := by
    apply (Refuses.orThrow (badArgument_typeError _)).bind
    intro n
    exact Refuses.orThrow (.inr rfl)

/-- The numbers a verbosity is taken from. -/
theorem verbosity_eq_some {n : JsNumber} {level : NetworkQualityVerbosity} :
    verbosity n = some level ↔ n = .finite (match level with
      | .kNone => 0
      | .kMinimal => 1) := by
  unfold verbosity
  split
  · next h =>
    subst h
    cases level <;> simp
  · next h0 =>
    split
    · next h =>
      subst h
      cases level <;> simp
    · next h1 => cases level <;> simp [h0, h1]

/-- A verbosity is read off its number. -/
theorem decodes_verbosity (field : String) : Decodes (readVerbosity field) IsVerbosity where
  ok v level := by
    simp only [readVerbosity, bind_eq_ok, orThrow_eq_ok, verbosity_eq_some, IsVerbosity]
    exact exists_eq_right
  error v := by
    apply (Refuses.orThrow (badArgument_typeError _)).bind
    intro n
    exact Refuses.orThrow (.inr rfl)

private theorem refuses_object (v : NapiValue) (message : String) :
    Refuses (throwIf (v.isObject = false) (typeError message)) :=
  .throwIf (badArgument_typeError message)

/-- A network quality configuration is read field by field. -/
theorem decodes_networkQuality : Decodes readNetworkQuality IsNetworkQuality where
  ok v c := by
    simp only [readNetworkQuality, bind_eq_ok, throwIf_eq_ok, Bool.not_eq_false, pure_eq_ok,
      (decodes_verbosity _).optional_eq_ok]
    constructor
    · rintro ⟨-, ho, near, hn, remote, hr, rfl⟩
      exact ⟨ho, hn, hr⟩
    · rintro ⟨ho, hn, hr⟩
      exact ⟨(), ho, _, hn, _, hr, rfl⟩
  error v := by
    apply (refuses_object v _).bind
    intro _
    apply (decodes_verbosity _).refuses_bind
    intro _
    apply (decodes_verbosity _).refuses_bind
    intro _
    exact Refuses.pure _

/-- The video options of a bandwidth profile are read field by field. -/
theorem decodes_videoProfile : Decodes readVideoProfile IsVideoProfile where
  ok v p := by
    have hmode : Legible BandwidthProfileMode.names := by decide
    have hoff : Legible TrackSwitchOffMode.names := by decide
    have hauto : Legible AutoManual.names := by decide
    simp only [readVideoProfile, bind_eq_ok, throwIf_eq_ok, Bool.not_eq_false, pure_eq_ok,
      (decodes_enum _ _ hmode).optional_eq_ok, (decodes_enum _ _ hoff).optional_eq_ok,
      (decodes_enum _ _ hauto).optional_eq_ok, (decodes_bitrate _).optional_eq_ok]
    constructor
    · rintro ⟨-, ho, mode, hm, rate, hr, off, hs, control, hc, content, hp, rfl⟩
      exact ⟨ho, hm, hr, hs, hc, hp⟩
    · rintro ⟨ho, hm, hr, hs, hc, hp⟩
      exact ⟨(), ho, _, hm, _, hr, _, hs, _, hc, _, hp, rfl⟩
  error v := by
    apply (refuses_object v _).bind
    intro _
    apply (decodes_enum _ _ (by decide)).refuses_bind
    intro _
    apply (decodes_bitrate _).refuses_bind
    intro _
    apply (decodes_enum _ _ (by decide)).refuses_bind
    intro _
    apply (decodes_enum _ _ (by decide)).refuses_bind
    intro _
    apply (decodes_enum _ _ (by decide)).refuses_bind
    intro _
    exact Refuses.pure _

/-- A bandwidth profile is read as its video options. -/
theorem decodes_bandwidthProfile : Decodes readBandwidthProfile IsBandwidthProfile where
  ok v p := by
    simp only [readBandwidthProfile, bind_eq_ok, throwIf_eq_ok, Bool.not_eq_false,
      decodes_videoProfile.optional_eq_ok]
    constructor
    · rintro ⟨-, ho, hp⟩
      exact ⟨ho, hp⟩
    · rintro ⟨ho, hp⟩
      exact ⟨(), ho, hp⟩
  error v := by
    apply (refuses_object v _).bind
    intro _
    exact decodes_videoProfile.refuses v _

/-- Encoding parameters are read field by field. -/
theorem decodes_encodingParameters : Decodes readEncodingParameters IsEncodingParameters where
  ok v p := by
    simp only [readEncodingParameters, bind_eq_ok, throwIf_eq_ok, Bool.not_eq_false, pure_eq_ok,
      (decodes_bitrate _).optional_eq_ok]
    constructor
    · rintro ⟨-, ho, audio, ha, video, hv, rfl⟩
      exact ⟨ho, ha, hv⟩
    · rintro ⟨ho, ha, hv⟩
      exact ⟨(), ho, _, ha, _, hv, rfl⟩
  error v := by
    apply (refuses_object v _).bind
    intro _
    apply (decodes_bitrate _).refuses_bind
    intro _
    apply (decodes_bitrate _).refuses_bind
    intro _
    exact Refuses.pure _

/-- The urls of a server are read where they are an array. -/
theorem decodes_urls : Decodes readUrls ParsedUrls where
  ok v o := by
    unfold readUrls ParsedUrls
    cases (v.present? "urls").bind NapiValue.items? with
    | none => rw [pure_eq_ok, eq_comm]
    | some items =>
      simp only [bind_eq_ok, pure_eq_ok, mapM_eq_ok, (decodes_string _).ok]
      constructor
      · rintro ⟨us, hu, rfl⟩
        exact ⟨us, rfl, hu⟩
      · rintro ⟨us, rfl, hu⟩
        exact ⟨us, hu, rfl⟩
  error v := by
    unfold readUrls
    split
    · exact Refuses.pure _
    · apply (Refuses.mapM (decodes_string _).error _).bind
      intro _
      exact Refuses.pure _

/-- A server is read field by field, its urls as they are parsed. -/
theorem decodes_iceServer : Decodes readIceServer (IsIceServer IsText ParsedUrls) where
  ok v s := by
    simp only [readIceServer, bind_eq_ok, throwIf_eq_ok, Bool.not_eq_false, pure_eq_ok,
      decodes_urls.ok, (decodes_string _).optional_eq_ok]
    constructor
    · rintro ⟨-, ho, urls, hu, username, hn, password, hp, rfl⟩
      exact ⟨ho, hu, hn, hp⟩
    · rintro ⟨ho, hu, hn, hp⟩
      exact ⟨(), ho, _, hu, _, hn, _, hp, rfl⟩
  error v := by
    apply (refuses_object v _).bind
    intro _
    apply (decodes_urls.error v).bind
    intro _
    apply (decodes_string _).refuses_bind
    intro _
    apply (decodes_string _).refuses_bind
    intro _
    exact Refuses.pure _

/-- ICE options are read field by field, and their servers one by one. -/
theorem decodes_iceOptions : Decodes readIceOptions (IsIceOptions IsText ParsedUrls) where
  ok v o := by
    have hs := decodes_iceServer.elements
      (badArgument_typeError "iceOptions.iceServers must be an array")
    have hpolicy : Legible IceTransportPolicy.names := by decide
    simp only [readIceOptions, bind_eq_ok, throwIf_eq_ok, Bool.not_eq_false, pure_eq_ok,
      (decodes_enum _ _ hpolicy).optional_eq_ok, hs.optional_eq_ok]
    constructor
    · rintro ⟨-, ho, policy, hp, servers, hv, rfl⟩
      exact ⟨ho, hp, hv⟩
    · rintro ⟨ho, hp, hv⟩
      exact ⟨(), ho, _, hp, _, hv, rfl⟩
  error v := by
    apply (refuses_object v _).bind
    intro _
    apply (decodes_enum _ _ (by decide)).refuses_bind
    intro _
    apply (decodes_iceServer.elements (badArgument_typeError _)).refuses_bind
    intro _
    exact Refuses.pure _

/-- Platform info is read field by field. -/
theorem decodes_platformInfo : Decodes readPlatformInfo (IsPlatformInfo IsText) where
  ok v p := by
    simp only [readPlatformInfo, bind_eq_ok, throwIf_eq_ok, Bool.not_eq_false, pure_eq_ok,
      (decodes_string _).optional_eq_ok]
    constructor
    · rintro ⟨-, ho, sdk, hs, name, hn, version, hv, arch, ha, rfl⟩
      exact ⟨ho, hs, hn, hv, ha⟩
    · rintro ⟨ho, hs, hn, hv, ha⟩
      exact ⟨(), ho, _, hs, _, hn, _, hv, _, ha, rfl⟩
  error v := by
    apply (refuses_object v _).bind
    intro _
    apply (decodes_string _).refuses_bind
    intro _
    apply (decodes_string _).refuses_bind
    intro _
    apply (decodes_string _).refuses_bind
    intro _
    apply (decodes_string _).refuses_bind
    intro _
    exact Refuses.pure _

/-- A list of codecs is read element for element. -/
theorem decodes_audioCodecs : Decodes readAudioCodecs (Elements (OneOf AudioCodec.names)) :=
  (decodes_enum _ _ (by decide)).elements (badArgument_typeError _)

/-- A list of codecs is read element for element. -/
theorem decodes_videoCodecs : Decodes readVideoCodecs (Elements (OneOf VideoCodec.names)) :=
  (decodes_enum _ _ (by decide)).elements (badArgument_typeError _)

/-- The encoding mode is read off its name. -/
theorem decodes_videoEncodingMode :
    Decodes readVideoEncodingMode (OneOf VideoEncodingMode.names) :=
  decodes_enum _ _ (by decide)

/-- A list of tracks is read element for element. -/
theorem decodes_tracks (field name : String) (cls : NativeClass) :
    Decodes (readTracks field name cls) (Elements (IsInstance cls)) :=
  (decodes_instance cls _).elements (badArgument_typeError _)

/-- The builder receives the options that are parsed, their urls as they are parsed. -/
theorem parseConnectOptions_eq_ok {opts : NapiValue} {b : Builder} :
    parseConnectOptions opts = .ok b ↔ Receives IsText ParsedUrls opts b := by
  simp only [parseConnectOptions, bind_eq_ok, pure_eq_ok, (decodes_string _).optional_eq_ok,
    (decodes_bool _).optional_eq_ok, (decodes_instance _ _).optional_eq_ok,
    decodes_networkQuality.optional_eq_ok, decodes_audioCodecs.optional_eq_ok,
    decodes_videoCodecs.optional_eq_ok, decodes_videoEncodingMode.optional_eq_ok,
    decodes_bandwidthProfile.optional_eq_ok, decodes_encodingParameters.optional_eq_ok,
    decodes_iceOptions.optional_eq_ok, decodes_platformInfo.optional_eq_ok,
    (decodes_tracks _ _ _).optional_eq_ok]
  constructor
  · rintro ⟨_, name, _, factory, _, insights, _, auto, _, speaker, _, quality, _, transcriptions, _,
      region, _, config, _, audio, _, video, _, mode, _, profile, _, encoding, _, ice, _, platform,
      _, videoTracks, _, audioTracks, _, dataTracks, rfl⟩
    exact ⟨name, factory, insights, auto, speaker, quality, transcriptions, region, config, audio,
      video, mode, profile, encoding, ice, platform, videoTracks, audioTracks, dataTracks⟩
  · rintro ⟨name, factory, insights, auto, speaker, quality, transcriptions, region, config, audio,
      video, mode, profile, encoding, ice, platform, videoTracks, audioTracks, dataTracks⟩
    exact ⟨_, name, _, factory, _, insights, _, auto, _, speaker, _, quality, _, transcriptions, _,
      region, _, config, _, audio, _, video, _, mode, _, profile, _, encoding, _, ice, _, platform,
      _, videoTracks, _, audioTracks, _, dataTracks, rfl⟩

/-- Options that are not parsed are thrown for with a `TypeError` or a `RangeError`. -/
theorem parseConnectOptions_refuses (opts : NapiValue) : Refuses (parseConnectOptions opts) := by
  unfold parseConnectOptions
  apply (decodes_string _).refuses_bind
  intro _
  apply (decodes_instance _ _).refuses_bind
  intro _
  apply (decodes_bool _).refuses_bind
  intro _
  apply (decodes_bool _).refuses_bind
  intro _
  apply (decodes_bool _).refuses_bind
  intro _
  apply (decodes_bool _).refuses_bind
  intro _
  apply (decodes_bool _).refuses_bind
  intro _
  apply (decodes_string _).refuses_bind
  intro _
  apply decodes_networkQuality.refuses_bind
  intro _
  apply decodes_audioCodecs.refuses_bind
  intro _
  apply decodes_videoCodecs.refuses_bind
  intro _
  apply decodes_videoEncodingMode.refuses_bind
  intro _
  apply decodes_bandwidthProfile.refuses_bind
  intro _
  apply decodes_encodingParameters.refuses_bind
  intro _
  apply decodes_iceOptions.refuses_bind
  intro _
  apply decodes_platformInfo.refuses_bind
  intro _
  apply (decodes_tracks _ _ _).refuses_bind
  intro _
  apply (decodes_tracks _ _ _).refuses_bind
  intro _
  apply (decodes_tracks _ _ _).refuses_bind
  intro _
  exact Refuses.pure _

/-- A call goes on to the native `connect` with its token and what the builder receives of an
options object. -/
theorem connect_eq_ok {token : JsString} {t : String} {options : NapiValue} {b : Builder} :
    connect (.string token) options = .ok (t, b) ↔ t = token.utf8Value ∧
      (givenOptions options).isObject = true ∧
      Receives IsText ParsedUrls (givenOptions options) b := by
  simp only [connect, bind_eq_ok, pure_eq_ok, throwIf_eq_ok, Bool.not_eq_false,
    parseConnectOptions_eq_ok, Prod.mk.injEq]
  constructor
  · rintro ⟨s, hs, -, ho, b', hb, rfl, rfl⟩
    cases hs
    exact ⟨rfl, ho, hb⟩
  · rintro ⟨rfl, ho, hb⟩
    exact ⟨_, rfl, (), ho, b, hb, rfl, rfl⟩

/-- A call that does not go on tells the caller that an argument is wrong. -/
theorem connect_refuses (token options : NapiValue) : Refuses (connect token options) := by
  apply ((decodes_string _).error _).bind
  intro _
  apply (refuses_object _ _).bind
  intro _
  apply (parseConnectOptions_refuses _).bind
  intro _
  exact Refuses.pure _

/-- What is good in each server of the ICE options. -/
def Servers (P : NapiValue → Prop) (opts : NapiValue) : Prop :=
  At opts "iceOptions" fun ice ↦ At ice "iceServers" (Each P)

/-- No server of the ICE options has `urls` that are something else than an array. -/
def UrlsAreArrays (opts : NapiValue) : Prop :=
  Servers (fun server ↦ At server "urls" fun urls ↦ urls.items?.isSome = true) opts

/-- The strings of a server have no surrogate that stands alone. -/
structure IsWholeServer (server : NapiValue) : Prop where
  urls : At server "urls" (Each Whole)
  username : At server "username" Whole
  credential : At server "credential" Whole

/-- The strings of platform info have no surrogate that stands alone. -/
structure IsWholePlatform (info : NapiValue) : Prop where
  sdkVersion : At info "sdkVersion" Whole
  platformName : At info "platformName" Whole
  platformVersion : At info "platformVersion" Whole
  deviceArchitecture : At info "deviceArchitecture" Whole

/-- The strings that the builder is given have no surrogate that stands alone. -/
structure StringsWellFormed (opts : NapiValue) : Prop where
  name : At opts "name" Whole
  region : At opts "region" Whole
  iceServers : Servers IsWholeServer opts
  platformInfo : At opts "platformInfo" IsWholePlatform

/-- The call tells the caller that an argument is wrong, or every option that is present is honoured
and every absent one is left alone. -/
def Honoured (token : JsString) (options : NapiValue) : Prop :=
  (∃ e, connect (.string token) options = .error e ∧ e.BadArgument) ∨
    ∃ b, connect (.string token) options = .ok (token.utf8Value, b) ∧
      Receives IsString DeclaredUrls (givenOptions options) b

private theorem field_string {obj : NapiValue} {key : String} {o : Option String} :
    Field obj key IsString o ↔ Field obj key IsText o ∧ At obj key Whole :=
  Field.and_iff isString_iff

private theorem declaredUrls_iff {server : NapiValue} {o : Option (List String)} :
    DeclaredUrls server o ↔ ParsedUrls server o ∧
      At server "urls" (fun urls ↦ urls.items?.isSome = true) ∧
      At server "urls" (Each Whole) := by
  have hstrings : DeclaredUrls server o ↔
      Field server "urls" (Elements IsText) o ∧ At server "urls" (Each Whole) :=
    Field.and_iff (Elements.and_iff isString_iff)
  have harrays : Field server "urls" (Elements IsText) o ↔ ParsedUrls server o ∧
      At server "urls" (fun urls ↦ urls.items?.isSome = true) := by
    unfold ParsedUrls At
    cases hp : server.present? "urls" with
    | none =>
      have hk := NapiValue.present?_eq_none.mp hp
      cases o <;> simp [Js.Field, hk]
    | some urls =>
      obtain ⟨hk, rfl⟩ := NapiValue.present?_eq_some.mp hp
      simp only [Option.bind_some, Option.some.injEq, forall_eq']
      cases hi : (server.get "urls").items? with
      | none => cases o <;> simp [Js.Field, Elements, hk, hi]
      | some items => cases o <;> simp [Js.Field, Elements, hk, hi]
  rw [hstrings, harrays, and_assoc]

private theorem isIceServer_iff (v : NapiValue) (s : IceServer) :
    IsIceServer IsString DeclaredUrls v s ↔ IsIceServer IsText ParsedUrls v s ∧
      At v "urls" (fun urls ↦ urls.items?.isSome = true) ∧ IsWholeServer v := by
  constructor
  · rintro ⟨ho, hu, hn, hp⟩
    obtain ⟨hu, ha, huw⟩ := declaredUrls_iff.mp hu
    obtain ⟨hn, hnw⟩ := field_string.mp hn
    obtain ⟨hp, hpw⟩ := field_string.mp hp
    exact ⟨⟨ho, hu, hn, hp⟩, ha, huw, hnw, hpw⟩
  · rintro ⟨⟨ho, hu, hn, hp⟩, ha, huw, hnw, hpw⟩
    exact ⟨ho, declaredUrls_iff.mpr ⟨hu, ha, huw⟩, field_string.mpr ⟨hn, hnw⟩,
      field_string.mpr ⟨hp, hpw⟩⟩

private theorem isIceOptions_iff (v : NapiValue) (o : IceOptions) :
    IsIceOptions IsString DeclaredUrls v o ↔ IsIceOptions IsText ParsedUrls v o ∧
      At v "iceServers" (Each fun server ↦
        At server "urls" fun urls ↦ urls.items?.isSome = true) ∧
      At v "iceServers" (Each IsWholeServer) := by
  have hs : Field v "iceServers" (Elements (IsIceServer IsString DeclaredUrls)) o.iceServers ↔
      Field v "iceServers" (Elements (IsIceServer IsText ParsedUrls)) o.iceServers ∧
        At v "iceServers" (Each fun server ↦
          At server "urls" (fun urls ↦ urls.items?.isSome = true) ∧ IsWholeServer server) :=
    Field.and_iff (Elements.and_iff isIceServer_iff)
  have heach : At v "iceServers" (Each fun server ↦
      At server "urls" (fun urls ↦ urls.items?.isSome = true) ∧ IsWholeServer server) ↔
      At v "iceServers" (Each fun server ↦ At server "urls" fun urls ↦
        urls.items?.isSome = true) ∧ At v "iceServers" (Each IsWholeServer) := by
    rw [← At.and_iff]
    exact forall₂_congr fun _ _ ↦ Each.and_iff
  constructor
  · rintro ⟨ho, hp, hv⟩
    obtain ⟨hv, hw⟩ := hs.mp hv
    exact ⟨⟨ho, hp, hv⟩, heach.mp hw⟩
  · rintro ⟨⟨ho, hp, hv⟩, hw⟩
    exact ⟨ho, hp, hs.mpr ⟨hv, heach.mpr hw⟩⟩

private theorem isPlatformInfo_iff (v : NapiValue) (p : PlatformInfo) :
    IsPlatformInfo IsString v p ↔ IsPlatformInfo IsText v p ∧ IsWholePlatform v := by
  constructor
  · rintro ⟨ho, hs, hn, hv, ha⟩
    obtain ⟨hs, hsw⟩ := field_string.mp hs
    obtain ⟨hn, hnw⟩ := field_string.mp hn
    obtain ⟨hv, hvw⟩ := field_string.mp hv
    obtain ⟨ha, haw⟩ := field_string.mp ha
    exact ⟨⟨ho, hs, hn, hv, ha⟩, hsw, hnw, hvw, haw⟩
  · rintro ⟨⟨ho, hs, hn, hv, ha⟩, hsw, hnw, hvw, haw⟩
    exact ⟨ho, field_string.mpr ⟨hs, hsw⟩, field_string.mpr ⟨hn, hnw⟩,
      field_string.mpr ⟨hv, hvw⟩, field_string.mpr ⟨ha, haw⟩⟩

/-- Options are received as declared exactly if they are parsed, their urls are arrays and their
strings well formed. -/
theorem receives_iff {opts : NapiValue} {b : Builder} : Receives IsString DeclaredUrls opts b ↔
    Receives IsText ParsedUrls opts b ∧ UrlsAreArrays opts ∧ StringsWellFormed opts := by
  have hice : Field opts "iceOptions" (IsIceOptions IsString DeclaredUrls) b.iceOptions ↔
      Field opts "iceOptions" (IsIceOptions IsText ParsedUrls) b.iceOptions ∧
        UrlsAreArrays opts ∧ Servers IsWholeServer opts := by
    rw [Field.and_iff isIceOptions_iff, At.and_iff]
    rfl
  constructor
  · intro h
    obtain ⟨hn, hnw⟩ := field_string.mp h.roomName
    obtain ⟨hr, hrw⟩ := field_string.mp h.region
    obtain ⟨hi, ha, hiw⟩ := hice.mp h.iceOptions
    obtain ⟨hp, hpw⟩ := (Field.and_iff isPlatformInfo_iff).mp h.platformInfo
    exact ⟨{ h with roomName := hn, region := hr, iceOptions := hi, platformInfo := hp }, ha,
      hnw, hrw, hiw, hpw⟩
  · rintro ⟨h, ha, hnw, hrw, hiw, hpw⟩
    exact { h with
      roomName := field_string.mpr ⟨h.roomName, hnw⟩
      region := field_string.mpr ⟨h.region, hrw⟩
      iceOptions := hice.mpr ⟨h.iceOptions, ha, hiw⟩
      platformInfo := (Field.and_iff isPlatformInfo_iff).mpr ⟨h.platformInfo, hpw⟩ }

/-- A call of `connect` honours its options, or tells the caller what is wrong with them, exactly if
the urls of every server are an array where they are present and no string it hands on has a
surrogate that stands alone, or the options are wrong elsewhere. -/
theorem connect_honours_iff (token : JsString) (options : NapiValue) :
    Honoured token options ↔
      UrlsAreArrays (givenOptions options) ∧ StringsWellFormed (givenOptions options) ∨
      ¬ ((givenOptions options).isObject = true ∧
        ∃ b, Receives IsText ParsedUrls (givenOptions options) b) := by
  unfold Honoured
  constructor
  · rintro (⟨e, he, -⟩ | ⟨b, -, hb⟩)
    · right
      rintro ⟨ho, b, hb⟩
      -- options that are parsed are not thrown for
      rw [connect_eq_ok.mpr ⟨rfl, ho, hb⟩] at he
      cases he
    · exact .inl (receives_iff.mp hb).2
  · intro h
    cases hc : connect (.string token) options with
    | error e => exact .inl ⟨e, rfl, connect_refuses _ _ e hc⟩
    | ok c =>
      right
      obtain ⟨t, b⟩ := c
      obtain ⟨rfl, ho, hb⟩ := connect_eq_ok.mp hc
      refine ⟨b, rfl, receives_iff.mpr ⟨hb, ?_⟩⟩
      cases h with
      | inl h => exact h
      | inr h => exact absurd ⟨ho, b, hb⟩ h

/-- Options with one server, whose urls are a string. -/
def stringUrls : NapiValue :=
  .ofProps [("iceOptions", .ofProps [("iceServers",
    .ofItems [.ofProps [("urls", .string "turn:global.turn.twilio.com:3478")]])])]

/-- A string for the urls of a server is taken for no urls at all. -/
theorem string_urls_ignored :
    (∃ b o, connect (.string "token") stringUrls = .ok ("token", b) ∧ b.iceOptions = some o ∧
      o.iceServers = some [⟨none, none, none⟩]) ∧ ¬ Honoured "token" stringUrls := by
  refine ⟨⟨_, _, rfl, rfl, rfl⟩, ?_⟩
  rintro (⟨e, he, -⟩ | ⟨b, -, hb⟩)
  · cases he
  · have ha := (receives_iff.mp hb).2.1
    cases ha _ rfl _ rfl _ rfl _ (List.mem_singleton_self _) _ rfl

-- a name that is a surrogate alone is handed on as another one
example : (connect (.string "token") (.ofProps [("name", .string ⟨[0xD800]⟩)])).toOption.map
    (fun called ↦ called.2.roomName) = some (some "\uFFFD") := rfl

end VideoNode.Room
