import VideoNode.Room.Encoding

/-!
# The limits over a call history

The native participant's two bitrate limits after a connect and any sequence of
`setEncodingParameters` calls, beside the values most recently set for them. Each call hands over a
struct that has been constructed anew, and the native side replaces both limits with it.
-/

namespace VideoNode.Room

open VideoNode.Js Lts

/-- Two bitrates. -/
structure Bitrates where
  audio : Nat
  video : Nat
  deriving DecidableEq, Repr

/-- The members of the struct: those that have not been set have what it is constructed with. -/
def EncodingParameters.resolve (p : EncodingParameters) (defaults : Bitrates) : Bitrates where
  audio := p.maxAudioBitrate.getD defaults.audio
  video := p.maxVideoBitrate.getD defaults.video

/-- The native limits, and for each the value most recently set. -/
structure Limits where
  native : Bitrates
  lastAudio : JsNumber
  lastVideo : JsNumber
  deriving DecidableEq

/-- The number that is given for a limit. -/
def givenLimit (params : NapiValue) (key : String) : Option JsNumber :=
  (params.present? key).bind NapiValue.number?

/-- Both native limits are replaced, and the limits that are given are the most recent. -/
def Limits.replace (s : Limits) (defaults : Bitrates) (params : NapiValue)
    (p : EncodingParameters) : Limits where
  native := p.resolve defaults
  lastAudio := (givenLimit params "maxAudioBitrate").getD s.lastAudio
  lastVideo := (givenLimit params "maxVideoBitrate").getD s.lastVideo

/-- The limits after a connect with encoding parameters. -/
def afterConnect (defaults : Bitrates) (params : NapiValue) : Except JsError Limits := do
  let p ← readEncodingParameters params
  pure (Limits.replace ⟨defaults, .finite defaults.audio, .finite defaults.video⟩ defaults params p)

/-- Calls of `setEncodingParameters`; one that throws sets nothing. -/
def limits (defaults : Bitrates) (s : Limits) : Machine Limits NapiValue where
  init := s
  step s params :=
    match setEncodingParameters params with
    | .ok p => some (s.replace defaults params p)
    | .error _ => some s

/-- Each native limit is the value most recently set for it. -/
def Kept (s : Limits) : Prop :=
  .finite (s.native.audio : ℚ) = s.lastAudio ∧ .finite (s.native.video : ℚ) = s.lastVideo

/-- A limit that is given is a whole number below 2³²; one that is not is at its default. -/
def KeepsLimit (params : NapiValue) (key : String) (current default : Nat) : Prop :=
  if params.has key = true then IsWhole32 (params.get key) else current = default

/-- The call throws, or it keeps both limits. -/
def Keeps (defaults : Bitrates) (s : Limits) (params : NapiValue) : Prop :=
  (∃ key ∈ limitKeys, Mistyped params key) ∨
    KeepsLimit params "maxAudioBitrate" s.native.audio defaults.audio ∧
    KeepsLimit params "maxVideoBitrate" s.native.video defaults.video

section

variable {params : NapiValue} {key : String} {o : Option Nat} {current default : Nat}
  {last : JsNumber}

private theorem finite_natCast_inj {a b : Nat} :
    JsNumber.finite (a : ℚ) = .finite (b : ℚ) ↔ a = b := by
  constructor
  · intro h
    have hn := congrArg Rat.num (JsNumber.finite.inj h)
    rw [Rat.num_natCast, Rat.num_natCast] at hn
    omega
  · rintro rfl
    rfl

private theorem kept_of_bitrate (h : Field params key IsBitrate o)
    (hl : .finite (default : ℚ) = last) :
    .finite (o.getD default : ℚ) = (givenLimit params key).getD last := by
  cases o with
  | none =>
    rw [givenLimit, NapiValue.present?_eq_none.mpr h]
    exact hl
  | some k =>
    obtain ⟨hk, hi, -⟩ := h
    obtain ⟨n, hn, hni⟩ := Option.bind_eq_some_iff.mp hi
    rw [givenLimit, NapiValue.present?_eq_some.mpr ⟨hk, rfl⟩, Option.bind_some, hn]
    exact (JsNumber.eq_of_isInteger hni).symm

private theorem kept_iff_of_uint32 (h : Field params key IsUint32 o)
    (hl : .finite (current : ℚ) = last) :
    .finite (o.getD default : ℚ) = (givenLimit params key).getD last ↔
      KeepsLimit params key current default := by
  subst hl
  cases o with
  | none =>
    have hk : params.has key = false := h
    rw [givenLimit, NapiValue.present?_eq_none.mpr hk, KeepsLimit, hk]
    show JsNumber.finite (default : ℚ) = .finite (current : ℚ) ↔ current = default
    rw [finite_natCast_inj, eq_comm]
  | some k =>
    obtain ⟨hk, n, hn, rfl⟩ := h
    have hp : params.present? key = some (params.get key) :=
      NapiValue.present?_eq_some.mpr ⟨hk, rfl⟩
    have hw : IsWhole32 (params.get key) ↔ ∃ i, n.isInteger = some i ∧ 0 ≤ i ∧ i < 2 ^ 32 := by
      rw [IsWhole32, NapiValue.integer?, hn]
      rfl
    rw [givenLimit, hp, Option.bind_some, hn, KeepsLimit, if_pos hk, hw]
    exact finite_uint32Value_iff

end

/-- A connect leaves each limit at the value it has set. -/
theorem kept_afterConnect {defaults : Bitrates} {params : NapiValue} {s : Limits}
    (h : afterConnect defaults params = .ok s) : Kept s := by
  simp only [afterConnect, bind_eq_ok, pure_eq_ok] at h
  obtain ⟨p, hp, rfl⟩ := h
  have hd := (decodes_encodingParameters.ok params p).mp hp
  exact ⟨kept_of_bitrate hd.maxAudioBitrate rfl, kept_of_bitrate hd.maxVideoBitrate rfl⟩

/-- A call after which the limits are kept is one that keeps them. -/
theorem kept_step_iff {defaults : Bitrates} {s t u : Limits} {params : NapiValue} (hk : Kept s)
    (hs : (limits defaults u).step s params = some t) : Kept t ↔ Keeps defaults s params := by
  unfold limits at hs
  cases hp : setEncodingParameters params with
  | error e =>
    simp only [hp, Option.some.injEq] at hs
    subst hs
    exact ⟨fun _ ↦ .inl (setEncodingParameters_throws_iff.mp ⟨e, hp⟩), fun _ ↦ hk⟩
  | ok p =>
    simp only [hp, Option.some.injEq] at hs
    subst hs
    obtain ⟨ha, hv⟩ := setEncodingParameters_eq_ok.mp hp
    have hn : ¬ ∃ key ∈ limitKeys, Mistyped params key := by
      intro hm
      obtain ⟨e, he⟩ := setEncodingParameters_throws_iff.mpr hm
      rw [hp] at he
      cases he
    rw [Keeps, or_iff_right hn]
    exact and_congr (kept_iff_of_uint32 ha hk.1) (kept_iff_of_uint32 hv hk.2)

/-- After a connect with any encoding parameters and any calls, each native limit is the value most
recently set for it exactly if each call that does not throw leaves out only limits that are at
their default, and gives only whole numbers below 2³². -/
theorem limits_kept_iff {defaults : Bitrates} {params : NapiValue} {s : Limits}
    (h : afterConnect defaults params = .ok s) (run : List NapiValue) :
    (limits defaults s).Always Kept s run ↔ (limits defaults s).Along (Keeps defaults) s run := by
  refine Machine.always_iff_along (i := fun _ ↦ True) (fun _ _ _ _ _ ↦ True.intro) ?_ ?_
    True.intro (kept_afterConnect h) run
  · intro s a t _ hk hs
    exact kept_step_iff hk hs
  · intro s a _ hs
    unfold limits at hs
    cases hp : setEncodingParameters a <;> simp [hp] at hs

/-- Parameters with both limits. -/
def bothLimits (audio video : Int) : NapiValue :=
  .ofProps [("maxAudioBitrate", .ofInt audio), ("maxVideoBitrate", .ofInt video)]

/-- Limits of zero by default, and the audio limit set by `connect()`. -/
def audioSet : Limits := ⟨⟨16000, 0⟩, .finite 16000, .finite 0⟩

/-- Limits of zero by default, and both set by `connect()`. -/
def bothSet : Limits := ⟨⟨16000, 500000⟩, .finite 16000, .finite 500000⟩

/-- A call that leaves out the video limit, which is at its default, and one that sets both. -/
theorem limits_kept_both : (limits ⟨0, 0⟩ audioSet).Always Kept audioSet
    [audioLimit 32000, bothLimits 8000 300000] := by
  refine (limits_kept_iff
    (show afterConnect ⟨0, 0⟩ (audioLimit 16000) = .ok audioSet from rfl) _).mpr ?_
  have hgiven : ∀ n : Int, 0 ≤ n → n < 2 ^ 32 → IsWhole32 (.ofInt n) := fun n hn hlt ↦
    ⟨n, NapiValue.integer?_ofInt n, hn, hlt⟩
  refine ⟨.inr ⟨hgiven 32000 (by decide) (by decide), rfl⟩, ?_⟩
  rintro _ ⟨⟩
  refine ⟨.inr ⟨hgiven 8000 (by decide) (by decide), hgiven 300000 (by decide) (by decide)⟩, ?_⟩
  rintro _ ⟨⟩
  trivial

/-- A call that sets the audio limit alone takes the video limit back to its default. -/
theorem omitted_limit_reset : ∃ t, afterConnect ⟨0, 0⟩ (bothLimits 16000 500000) = .ok bothSet ∧
    (limits ⟨0, 0⟩ bothSet).step bothSet (audioLimit 32000) = some t ∧
    t.native = ⟨32000, 0⟩ ∧ t.lastVideo = .finite 500000 ∧ ¬ Kept t := by
  refine ⟨_, rfl, rfl, rfl, rfl, ?_⟩
  rintro ⟨-, hv⟩
  have hn := congrArg Rat.num (JsNumber.finite.inj hv)
  cases hn

end VideoNode.Room
