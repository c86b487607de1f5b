import VideoNode.Js.Decode

/-!
# Connect options

`parseConnectOptions` and `RoomWrap::Connect` (`src/video/room_wrap.cpp`): every option the parser
knows, in the order it reads them, what it throws for and what the builder of
`twilio::video::ConnectOptions` is given.
-/

namespace VideoNode.Room

open VideoNode.Js

/-- `twilio::video::NetworkQualityVerbosity`. -/
inductive NetworkQualityVerbosity where
  | kNone
  | kMinimal
  deriving DecidableEq, Repr

/-- What the builder of a `NetworkQualityConfiguration` has been given. -/
structure NetworkQualityConfiguration where
  localVerbosityLevel : Option NetworkQualityVerbosity
  remoteVerbosityLevel : Option NetworkQualityVerbosity
  deriving DecidableEq, Repr

/-- The audio codecs. -/
inductive AudioCodec where
  | opus
  | pcmu
  deriving DecidableEq, Repr

/-- `src/video/room_wrap.cpp:175–176`. -/
def AudioCodec.names : List (String × AudioCodec) := [("opus", .opus), ("PCMU", .pcmu)]

/-- The video codecs. -/
inductive VideoCodec where
  | vp8
  deriving DecidableEq, Repr

/-- `src/video/room_wrap.cpp:198`. -/
def VideoCodec.names : List (String × VideoCodec) := [("VP8", .vp8)]

/-- `twilio::media::VideoEncodingMode`. -/
inductive VideoEncodingMode where
  | kAuto
  deriving DecidableEq, Repr

/-- `src/video/room_wrap.cpp:215`. -/
def VideoEncodingMode.names : List (String × VideoEncodingMode) := [("auto", .kAuto)]

/-- `twilio::video::BandwidthProfileMode`. -/
inductive BandwidthProfileMode where
  | kCollaboration
  | kGrid
  | kPresentation
  deriving DecidableEq, Repr

/-- `src/video/room_wrap.cpp:252–254`. -/
def BandwidthProfileMode.names : List (String × BandwidthProfileMode) :=
  [("collaboration", .kCollaboration), ("grid", .kGrid), ("presentation", .kPresentation)]

/-- `twilio::video::TrackSwitchOffMode`. -/
inductive TrackSwitchOffMode where
  | kDetected
  | kPredicted
  | kDisabled
  deriving DecidableEq, Repr

/-- `src/video/room_wrap.cpp:277–279`. -/
def TrackSwitchOffMode.names : List (String × TrackSwitchOffMode) :=
  [("detected", .kDetected), ("predicted", .kPredicted), ("disabled", .kDisabled)]

/-- `twilio::video::ClientTrackSwitchOffControl` and `VideoContentPreferencesMode`. -/
inductive AutoManual where
  | kAuto
  | kManual
  deriving DecidableEq, Repr

/-- `src/video/room_wrap.cpp:288–289` and `298–299`. -/
def AutoManual.names : List (String × AutoManual) := [("auto", .kAuto), ("manual", .kManual)]

/-- What the builder of `VideoBandwidthProfileOptions` has been given. -/
structure VideoBandwidthProfileOptions where
  mode : Option BandwidthProfileMode
  maxSubscriptionBitrate : Option Nat
  trackSwitchOffMode : Option TrackSwitchOffMode
  clientTrackSwitchOffControl : Option AutoManual
  contentPreferencesMode : Option AutoManual
  deriving DecidableEq, Repr

/-- The members of `twilio::media::EncodingParameters` that have been set. -/
structure EncodingParameters where
  maxAudioBitrate : Option Nat
  maxVideoBitrate : Option Nat
  deriving DecidableEq, Repr

/-- `twilio::media::IceTransportPolicy`. -/
inductive IceTransportPolicy where
  | relay
  | all
  deriving DecidableEq, Repr

/-- `src/video/room_wrap.cpp:347–350`. -/
def IceTransportPolicy.names : List (String × IceTransportPolicy) :=
  [("relay", .relay), ("all", .all)]

/-- The members of a `twilio::media::IceServer` that have been set. -/
structure IceServer where
  urls : Option (List String)
  username : Option String
  password : Option String
  deriving DecidableEq, Repr

/-- The members of `twilio::media::IceOptions` that have been set. -/
structure IceOptions where
  iceTransportPolicy : Option IceTransportPolicy
  iceServers : Option (List IceServer)
  deriving DecidableEq, Repr

/-- The members of `twilio::PlatformInfo` that have been set. -/
structure PlatformInfo where
  sdkVersion : Option String
  platformName : Option String
  platformVersion : Option String
  hwDeviceArch : Option String
  deriving DecidableEq, Repr

/-- What the setters of `twilio::video::ConnectOptions::Builder` have been called with. A bandwidth
profile without a `video` option calls none. -/
structure Builder where
  roomName : Option String
  mediaFactory : Option (Option Nat)
  insights : Option Bool
  automaticSubscription : Option Bool
  dominantSpeaker : Option Bool
  networkQuality : Option Bool
  transcriptions : Option Bool
  region : Option String
  networkQualityConfiguration : Option NetworkQualityConfiguration
  preferredAudioCodecs : Option (List AudioCodec)
  preferredVideoCodecs : Option (List VideoCodec)
  videoEncodingMode : Option VideoEncodingMode
  bandwidthProfile : Option (Option VideoBandwidthProfileOptions)
  encodingParameters : Option EncodingParameters
  iceOptions : Option IceOptions
  platformInfo : Option PlatformInfo
  videoTracks : Option (List (Option Nat))
  audioTracks : Option (List (Option Nat))
  dataTracks : Option (List (Option Nat))
  deriving DecidableEq, Repr

/-- A `TypeError`. -/
def typeError (message : String) : JsError := ⟨.typeError, message, none⟩

/-- A string; `src/video/room_wrap.cpp:59–68`, and the same at each other place that reads one. -/
def readString (message : String) (v : NapiValue) : Except JsError String :=
  orThrow v.text? (typeError message)

/-- A boolean; `src/video/room_wrap.cpp:69–78`. -/
def readBool (field : String) (v : NapiValue) : Except JsError Bool :=
  orThrow v.boolean? (typeError (field ++ " must be a boolean"))

/-- One of the strings of a table, with the enumerator it names. -/
def readEnum {α : Type} (message unknown : String) (table : List (String × α)) (v : NapiValue) :
    Except JsError α := do
  let s ← readString message v
  orThrow (table.lookup s) (typeError (unknown ++ s))

/-- An instance of a native class, with the pointer it wraps. -/
def readInstance (cls : NativeClass) (message : String) (v : NapiValue) :
    Except JsError (Option Nat) :=
  orThrow (v.instance? cls) (typeError message)

/-- A non-negative integer up to `Number.MAX_SAFE_INTEGER`. -/
def safeInteger (n : JsNumber) : Option Nat :=
  n.isInteger.bind fun i ↦ if 0 ≤ i ∧ i ≤ 9007199254740991 then some i.toNat else none

/-- A bitrate; `src/video/room_wrap.cpp:260–273` and `316–330`. -/
def readBitrate (field : String) (v : NapiValue) : Except JsError Nat := do
  let n ← orThrow v.number? (typeError (field ++ " must be a number"))
  orThrow (safeInteger n) ⟨.rangeError,
    field ++ " must be a non-negative integer <= Number.MAX_SAFE_INTEGER", none⟩

/-- `src/video/room_wrap.cpp:138–145`. -/
def verbosity (n : JsNumber) : Option NetworkQualityVerbosity :=
  if n = .finite 0 then some .kNone else if n = .finite 1 then some .kMinimal else none

/-- `src/video/room_wrap.cpp:131–147`. -/
def readVerbosity (field : String) (v : NapiValue) : Except JsError NetworkQualityVerbosity := do
  let n ← orThrow v.number? (typeError ("networkQualityConfiguration." ++ field ++
    " must be a number"))
  orThrow (verbosity n)
    ⟨.rangeError, "networkQualityConfiguration." ++ field ++ " must be 0 or 1", none⟩

/-- `src/video/room_wrap.cpp:124–160`. -/
def readNetworkQuality (v : NapiValue) : Except JsError NetworkQualityConfiguration := do
  throwIf (v.isObject = false) (typeError "networkQualityConfiguration must be an object")
  let near ← optional v "local" (readVerbosity "local")
  let remote ← optional v "remote" (readVerbosity "remote")
  pure ⟨near, remote⟩

/-- `src/video/room_wrap.cpp:163–183`. -/
def readAudioCodecs (v : NapiValue) : Except JsError (List AudioCodec) :=
  elements (typeError "preferredAudioCodecs must be an array")
    (readEnum "preferredAudioCodecs entries must be strings" "Unknown audio codec: "
      AudioCodec.names) v

/-- `src/video/room_wrap.cpp:186–205`. -/
def readVideoCodecs (v : NapiValue) : Except JsError (List VideoCodec) :=
  elements (typeError "preferredVideoCodecs must be an array")
    (readEnum "preferredVideoCodecs entries must be strings" "Unknown video codec: "
      VideoCodec.names) v

/-- `src/video/room_wrap.cpp:208–221`. -/
def readVideoEncodingMode (v : NapiValue) : Except JsError VideoEncodingMode :=
  readEnum "videoEncodingMode must be a string" "Unknown videoEncodingMode: "
    VideoEncodingMode.names v

/-- `src/video/room_wrap.cpp:231–305`. -/
def readVideoProfile (v : NapiValue) : Except JsError VideoBandwidthProfileOptions := do
  throwIf (v.isObject = false) (typeError "bandwidthProfile.video must be an object")
  let mode ← optional v "mode" (readEnum "bandwidthProfile.video.mode must be a string"
    "Unknown bandwidthProfile.video.mode: " BandwidthProfileMode.names)
  let maxSubscriptionBitrate ← optional v "maxSubscriptionBitrate"
    (readBitrate "bandwidthProfile.video.maxSubscriptionBitrate")
  let trackSwitchOffMode ← optional v "trackSwitchOffMode"
    (readEnum "bandwidthProfile.video.trackSwitchOffMode must be a string"
      "Unknown trackSwitchOffMode: " TrackSwitchOffMode.names)
  let clientTrackSwitchOffControl ← optional v "clientTrackSwitchOffControl"
    (readEnum "bandwidthProfile.video.clientTrackSwitchOffControl must be a string"
      "Unknown clientTrackSwitchOffControl: " AutoManual.names)
  let contentPreferencesMode ← optional v "contentPreferencesMode"
    (readEnum "bandwidthProfile.video.contentPreferencesMode must be a string"
      "Unknown contentPreferencesMode: " AutoManual.names)
  pure ⟨mode, maxSubscriptionBitrate, trackSwitchOffMode, clientTrackSwitchOffControl,
    contentPreferencesMode⟩

/-- `src/video/room_wrap.cpp:224–307`. -/
def readBandwidthProfile (v : NapiValue) :
    Except JsError (Option VideoBandwidthProfileOptions) := do
  throwIf (v.isObject = false) (typeError "bandwidthProfile must be an object")
  optional v "video" readVideoProfile

/-- `src/video/room_wrap.cpp:310–334`. -/
def readEncodingParameters (v : NapiValue) : Except JsError EncodingParameters := do
  throwIf (v.isObject = false) (typeError "encodingParameters must be an object")
  let maxAudioBitrate ← optional v "maxAudioBitrate"
    (readBitrate "encodingParameters.maxAudioBitrate")
  let maxVideoBitrate ← optional v "maxVideoBitrate"
    (readBitrate "encodingParameters.maxVideoBitrate")
  pure ⟨maxAudioBitrate, maxVideoBitrate⟩

/-- The urls of a server, which are skipped unless they are an array;
`src/video/room_wrap.cpp:369–379`. -/
def readUrls (server : NapiValue) : Except JsError (Option (List String)) :=
  match (server.present? "urls").bind NapiValue.items? with
  | none => pure none
  | some urls => do
    let urls ← urls.mapM (readString "iceServers[].urls entries must be strings")
    pure (some urls)

/-- `src/video/room_wrap.cpp:363–396`. -/
def readIceServer (v : NapiValue) : Except JsError IceServer := do
  throwIf (v.isObject = false) (typeError "iceServers entries must be objects")
  let urls ← readUrls v
  let username ← optional v "username" (readString "iceServers[].username must be a string")
  let password ← optional v "credential" (readString "iceServers[].credential must be a string")
  pure ⟨urls, username, password⟩

/-- `src/video/room_wrap.cpp:337–401`. -/
def readIceOptions (v : NapiValue) : Except JsError IceOptions := do
  throwIf (v.isObject = false) (typeError "iceOptions must be an object")
  let policy ← optional v "transportPolicy"
    (readEnum "iceOptions.transportPolicy must be a string" "Unknown iceOptions.transportPolicy: "
      IceTransportPolicy.names)
  let servers ← optional v "iceServers"
    (elements (typeError "iceOptions.iceServers must be an array") readIceServer)
  pure ⟨policy, servers⟩

/-- `src/video/room_wrap.cpp:404–425`. -/
def readPlatformInfo (v : NapiValue) : Except JsError PlatformInfo := do
  throwIf (v.isObject = false) (typeError "platformInfo must be an object")
  let sdkVersion ← optional v "sdkVersion" (readString "platformInfo.sdkVersion must be a string")
  let platformName ← optional v "platformName"
    (readString "platformInfo.platformName must be a string")
  let platformVersion ← optional v "platformVersion"
    (readString "platformInfo.platformVersion must be a string")
  let hwDeviceArch ← optional v "deviceArchitecture"
    (readString "platformInfo.deviceArchitecture must be a string")
  pure ⟨sdkVersion, platformName, platformVersion, hwDeviceArch⟩

/-- A list of tracks; `src/video/room_wrap.cpp:428–443`, `444–459` and `460–475`. -/
def readTracks (field name : String) (cls : NativeClass) (v : NapiValue) :
    Except JsError (List (Option Nat)) :=
  elements (typeError (field ++ " must be an array"))
    (readInstance cls (field ++ " entries must be " ++ name ++ " instances")) v

/-- `src/video/room_wrap.cpp:55–478`. -/
def parseConnectOptions (opts : NapiValue) : Except JsError Builder := do
  let roomName ← optional opts "name" (readString "name must be a string")
  let mediaFactory ← optional opts "mediaFactory"
    (readInstance .mediaFactory "mediaFactory must be a MediaFactory instance")
  let insights ← optional opts "enableInsights" (readBool "enableInsights")
  let automaticSubscription ← optional opts "enableAutomaticSubscription"
    (readBool "enableAutomaticSubscription")
  let dominantSpeaker ← optional opts "enableDominantSpeaker" (readBool "enableDominantSpeaker")
  let networkQuality ← optional opts "enableNetworkQuality" (readBool "enableNetworkQuality")
  let transcriptions ← optional opts "receiveTranscriptions" (readBool "receiveTranscriptions")
  let region ← optional opts "region" (readString "region must be a string")
  let networkQualityConfiguration ← optional opts "networkQualityConfiguration" readNetworkQuality
  let preferredAudioCodecs ← optional opts "preferredAudioCodecs" readAudioCodecs
  let preferredVideoCodecs ← optional opts "preferredVideoCodecs" readVideoCodecs
  let videoEncodingMode ← optional opts "videoEncodingMode" readVideoEncodingMode
  let bandwidthProfile ← optional opts "bandwidthProfile" readBandwidthProfile
  let encodingParameters ← optional opts "encodingParameters" readEncodingParameters
  let iceOptions ← optional opts "iceOptions" readIceOptions
  let platformInfo ← optional opts "platformInfo" readPlatformInfo
  let videoTracks ← optional opts "videoTracks"
    (readTracks "videoTracks" "LocalVideoTrack" .localVideoTrack)
  let audioTracks ← optional opts "audioTracks"
    (readTracks "audioTracks" "LocalAudioTrack" .localAudioTrack)
  let dataTracks ← optional opts "dataTracks"
    (readTracks "dataTracks" "LocalDataTrack" .localDataTrack)
  pure ⟨roomName, mediaFactory, insights, automaticSubscription, dominantSpeaker, networkQuality,
    transcriptions, region, networkQualityConfiguration, preferredAudioCodecs,
    preferredVideoCodecs, videoEncodingMode, bandwidthProfile, encodingParameters, iceOptions,
    platformInfo, videoTracks, audioTracks, dataTracks⟩

/-- The options of a call: absent ones are an empty object; `src/video/room_wrap.cpp:501–506`. -/
def givenOptions (options : NapiValue) : NapiValue :=
  if options.isUndefined then .ofProps [] else options

/-- What `RoomWrap::Connect` throws, or the token and the options `twilio::video::connect` is called
with; `src/video/room_wrap.cpp:480–517`. -/
def connect (token options : NapiValue) : Except JsError (String × Builder) := do
  let token ← readString "Token must be a string" token
  throwIf ((givenOptions options).isObject = false) (typeError "options must be an object")
  let builder ← parseConnectOptions (givenOptions options)
  pure (token, builder)

end VideoNode.Room
