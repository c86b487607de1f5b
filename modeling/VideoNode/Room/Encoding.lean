import VideoNode.Lts.Machine
import VideoNode.Room.DeclaredOptions

/-!
# Encoding limits

The bitrate limits can be given to `connect()` and, once connected, to
`LocalParticipant.setEncodingParameters()` (`src/video/local_participant_wrap.cpp`), which reads
them in another way and replaces both limits at once.
-/

namespace VideoNode.Room

open VideoNode.Js Lts

/-- `As<Napi::Number>().Uint32Value()`, which throws for what is no number. -/
def readUint32 (v : NapiValue) : Except JsError Nat := do
  let n ← orThrow v.number? (typeError "A number was expected")
  pure n.uint32Value

/-- The parameters the native participant is given; `src/video/local_participant_wrap.cpp:376–394`,
of a participant that is there. -/
def setEncodingParameters (params : NapiValue) : Except JsError EncodingParameters :=
  if params.isObject then do
    let maxAudioBitrate ← optional params "maxAudioBitrate" readUint32
    let maxVideoBitrate ← optional params "maxVideoBitrate" readUint32
    pure ⟨maxAudioBitrate, maxVideoBitrate⟩
  else pure ⟨none, none⟩

/-- A number, as it is read modulo 2³². -/
def IsUint32 (v : NapiValue) (k : Nat) : Prop := ∃ n, v.number? = some n ∧ n.uint32Value = k

/-- A number is read modulo 2³². -/
theorem decodes_uint32 : Decodes readUint32 IsUint32 where
  ok v k := by
    simp only [readUint32, bind_eq_ok, orThrow_eq_ok, pure_eq_ok]
    rfl
  error v := by
    apply (Refuses.orThrow (badArgument_typeError _)).bind
    intro _
    exact Refuses.pure _

/-- The parameters of an object are those of its two fields. -/
theorem setEncodingParameters_eq_ok {params : NapiValue} {p : EncodingParameters} :
    setEncodingParameters params = .ok p ↔
      Field params "maxAudioBitrate" IsUint32 p.maxAudioBitrate ∧
        Field params "maxVideoBitrate" IsUint32 p.maxVideoBitrate := by
  cases hp : params with
  | object =>
    simp only [setEncodingParameters, NapiValue.isObject, if_true, bind_eq_ok, pure_eq_ok,
      decodes_uint32.optional_eq_ok]
    constructor
    · rintro ⟨audio, ha, video, hv, rfl⟩
      exact ⟨ha, hv⟩
    · rintro ⟨ha, hv⟩
      exact ⟨_, ha, _, hv, rfl⟩
  | _ =>
    -- a value that is no object has neither field
    obtain ⟨audio, video⟩ := p
    simp only [setEncodingParameters, NapiValue.isObject, Bool.false_eq_true, if_false, pure_eq_ok,
      EncodingParameters.mk.injEq]
    cases audio <;> cases video <;> simp [Js.Field, NapiValue.has]

/-- A whole number that an unsigned 32-bit integer holds. -/
def IsWhole32 (v : NapiValue) : Prop := ∃ i, v.integer? = some i ∧ 0 ≤ i ∧ i < 2 ^ 32

/-- A limit the parameters give, of another type than a number. -/
def Mistyped (params : NapiValue) (key : String) : Prop :=
  params.has key = true ∧ (params.get key).number? = none

/-- `connect()` with `encodingParameters` for its only option. -/
def withEncodingParameters (params : NapiValue) : NapiValue :=
  .ofProps [("encodingParameters", params)]

/-- Both ways of setting the parameters throw, or both hand on the same ones. -/
def Agree (token : JsString) (params : NapiValue) : Prop :=
  (∃ e e', connect (.string token) (withEncodingParameters params) = .error e ∧
    setEncodingParameters params = .error e') ∨
  ∃ b p, connect (.string token) (withEncodingParameters params) = .ok (token.utf8Value, b) ∧
    b.encodingParameters = some p ∧ setEncodingParameters params = .ok p

/-- A number is the one an unsigned 32-bit integer holds of it exactly if it is whole and in
range. -/
theorem finite_uint32Value_iff {n : JsNumber} :
    .finite (n.uint32Value : ℚ) = n ↔ ∃ i, n.isInteger = some i ∧ 0 ≤ i ∧ i < 2 ^ 32 := by
  constructor
  · intro h
    have hlt := n.uint32Value_lt
    have hi : n.isInteger = some (n.uint32Value : Int) := by
      conv_lhs => rw [← h]
      exact JsNumber.isInteger_natCast _
    exact ⟨_, hi, by omega, by omega⟩
  · rintro ⟨i, hi, h0, h1⟩
    have hu := JsNumber.uint32Value_of_isInteger hi
    rw [Int.emod_eq_of_lt h0 h1] at hu
    rw [← hu] at hi
    exact (JsNumber.eq_of_isInteger hi).symm

/-- A builder that has been given encoding parameters only. -/
def encodingBuilder (p : EncodingParameters) : Builder :=
  ⟨none, none, none, none, none, none, none, none, none, none, none, none, none, some p, none, none,
    none, none, none⟩

/-- `connect()` that goes on has read the encoding parameters and passes them on. -/
theorem encodingParameters_of_connect {token : JsString} {t : String} {params : NapiValue}
    {b : Builder}
    (h : connect (.string token) (withEncodingParameters params) = .ok (t, b)) :
    ∃ p, IsEncodingParameters params p ∧ b.encodingParameters = some p := by
  obtain ⟨-, -, hr⟩ := connect_eq_ok.mp h
  obtain ⟨p, hb, hp⟩ := hr.encodingParameters.of_has rfl
  exact ⟨p, hp, hb⟩

/-- `connect()` goes on with encoding parameters that are as declared. -/
theorem connect_of_encodingParameters {params : NapiValue} {p : EncodingParameters}
    (h : IsEncodingParameters params p) (token : JsString) :
    connect (.string token) (withEncodingParameters params) =
      .ok (token.utf8Value, encodingBuilder p) := by
  refine connect_eq_ok.mpr ⟨rfl, rfl, ?_⟩
  constructor <;> first | rfl | exact ⟨rfl, h⟩

section

variable {params : NapiValue} {key : String}

private theorem field_of_whole32 (h : params.has key = true → IsWhole32 (params.get key)) :
    ∃ o, Field params key IsBitrate o ∧ Field params key IsUint32 o := by
  by_cases hk : params.has key = true
  · obtain ⟨i, hi, h0, h1⟩ := h hk
    obtain ⟨n, hn, hni⟩ := Option.bind_eq_some_iff.mp hi
    have hu := JsNumber.uint32Value_of_isInteger hni
    rw [Int.emod_eq_of_lt h0 h1] at hu
    refine ⟨some n.uint32Value, ⟨hk, ?_, by omega⟩, hk, n, hn, rfl⟩
    rw [hu]
    exact hi
  · exact ⟨none, eq_false_of_ne_true hk, eq_false_of_ne_true hk⟩

private theorem whole32_of_field {o : Option Nat} (hb : Field params key IsBitrate o)
    (hu : Field params key IsUint32 o) (hk : params.has key = true) :
    IsWhole32 (params.get key) := by
  obtain ⟨_, rfl, n, hn, rfl⟩ := hu.of_has hk
  have hlt := n.uint32Value_lt
  exact ⟨_, hb.2.1, by omega, by omega⟩

private theorem bitrate_not_mistyped {o : Option Nat} (h : Field params key IsBitrate o) :
    ¬ Mistyped params key := by
  rintro ⟨hk, hn⟩
  obtain ⟨k, -, hi, -⟩ := h.of_has hk
  rw [NapiValue.integer?, hn] at hi
  cases hi

private theorem uint32_iff_not_mistyped :
    (∃ o, Field params key IsUint32 o) ↔ ¬ Mistyped params key := by
  by_cases hk : params.has key = true
  · cases hn : (params.get key).number? with
    | none =>
      constructor
      · rintro ⟨o, hf⟩
        obtain ⟨k, -, n, hn', -⟩ := hf.of_has hk
        rw [hn] at hn'
        cases hn'
      · exact fun h ↦ absurd ⟨hk, hn⟩ h
    | some n =>
      constructor
      · rintro - ⟨-, hn'⟩
        rw [hn] at hn'
        cases hn'
      · exact fun _ ↦ ⟨some n.uint32Value, hk, n, hn, rfl⟩
  · constructor
    · exact fun _ h ↦ hk h.1
    · exact fun _ ↦ ⟨none, eq_false_of_ne_true hk⟩

end

/-- The two limits. -/
def limitKeys : List String := ["maxAudioBitrate", "maxVideoBitrate"]

/-- `setEncodingParameters` throws exactly if a limit is of another type than a number. -/
theorem setEncodingParameters_throws_iff {params : NapiValue} :
    (∃ e, setEncodingParameters params = .error e) ↔ ∃ key ∈ limitKeys, Mistyped params key := by
  have hok : (∃ p, setEncodingParameters params = .ok p) ↔
      ¬ Mistyped params "maxAudioBitrate" ∧ ¬ Mistyped params "maxVideoBitrate" := by
    rw [← uint32_iff_not_mistyped, ← uint32_iff_not_mistyped]
    simp only [setEncodingParameters_eq_ok]
    constructor
    · rintro ⟨p, ha, hv⟩
      exact ⟨⟨_, ha⟩, _, hv⟩
    · rintro ⟨⟨a, ha⟩, v, hv⟩
      exact ⟨⟨a, v⟩, ha, hv⟩
  simp only [limitKeys, List.exists_mem_cons_iff, List.not_mem_nil, false_and, exists_false,
    or_false]
  cases hs : setEncodingParameters params with
  | error e =>
    simp only [Except.error.injEq, exists_eq', true_iff]
    by_contra hn
    rw [not_or] at hn
    obtain ⟨p, hp⟩ := hok.mpr hn
    rw [hs] at hp
    cases hp
  | ok p =>
    simp only [reduceCtorEq, exists_false, false_iff, not_or]
    exact hok.mp ⟨p, hs⟩

/-- The two ways of setting the parameters of an object agree exactly if one of its limits is no
number, or each that it has is a whole number below 2³². -/
theorem encodings_agree_iff (token : JsString) (params : NapiValue) :
    Agree token params ↔ params.isObject = true ∧ ((∃ key ∈ limitKeys, Mistyped params key) ∨
      ∀ key ∈ limitKeys, params.has key = true → IsWhole32 (params.get key)) := by
  constructor
  · rintro (⟨e, e', -, hs⟩ | ⟨b, p, hc, hb, hs⟩)
    · have hm := setEncodingParameters_throws_iff.mp ⟨e', hs⟩
      obtain ⟨key, -, hk, -⟩ := hm
      refine ⟨?_, .inl (setEncodingParameters_throws_iff.mp ⟨e', hs⟩)⟩
      cases params with
      | object => rfl
      | _ => cases hk
    · obtain ⟨p', hp, hb'⟩ := encodingParameters_of_connect hc
      rw [hb] at hb'
      cases hb'
      obtain ⟨ha, hv⟩ := setEncodingParameters_eq_ok.mp hs
      refine ⟨hp.object, .inr ?_⟩
      simp only [limitKeys, List.forall_mem_cons, List.not_mem_nil, false_implies, implies_true,
        and_true]
      exact ⟨whole32_of_field hp.maxAudioBitrate ha, whole32_of_field hp.maxVideoBitrate hv⟩
  · rintro ⟨ho, hm | hw⟩
    · left
      obtain ⟨e', hs⟩ := setEncodingParameters_throws_iff.mpr hm
      cases hc : connect (.string token) (withEncodingParameters params) with
      | error e => exact ⟨e, e', rfl, hs⟩
      | ok c =>
        -- a limit of another type is not as declared
        obtain ⟨t, b⟩ := c
        obtain ⟨p, hp, -⟩ := encodingParameters_of_connect hc
        simp only [limitKeys, List.exists_mem_cons_iff, List.not_mem_nil, false_and, exists_false,
          or_false] at hm
        cases hm with
        | inl hm => exact absurd hm (bitrate_not_mistyped hp.maxAudioBitrate)
        | inr hm => exact absurd hm (bitrate_not_mistyped hp.maxVideoBitrate)
    · right
      obtain ⟨a, hab, hau⟩ := field_of_whole32 (hw "maxAudioBitrate" (by simp [limitKeys]))
      obtain ⟨v, hvb, hvu⟩ := field_of_whole32 (hw "maxVideoBitrate" (by simp [limitKeys]))
      have hp : IsEncodingParameters params ⟨a, v⟩ := ⟨ho, hab, hvb⟩
      exact ⟨_, ⟨a, v⟩, connect_of_encodingParameters hp token, rfl,
        setEncodingParameters_eq_ok.mpr ⟨hau, hvu⟩⟩

/-- Parameters with one limit. -/
def audioLimit (limit : Int) : NapiValue := .ofProps [("maxAudioBitrate", .ofInt limit)]

/-- A limit of 2³² is passed on by `connect()` and read as zero by `setEncodingParameters`. -/
theorem encodings_disagree : (∃ b, connect (.string "token")
    (withEncodingParameters (audioLimit 4294967296)) = .ok ("token", b) ∧
      b.encodingParameters = some ⟨some 4294967296, none⟩) ∧
    setEncodingParameters (audioLimit 4294967296) = .ok ⟨some 0, none⟩ ∧
    ¬ Agree "token" (audioLimit 4294967296) := by
  have hc : connect (.string "token") (withEncodingParameters (audioLimit 4294967296)) =
      .ok ("token", encodingBuilder ⟨some 4294967296, none⟩) := rfl
  have hs : setEncodingParameters (audioLimit 4294967296) = .ok ⟨some 0, none⟩ := rfl
  refine ⟨⟨_, hc, rfl⟩, hs, ?_⟩
  rintro (⟨e, e', he, -⟩ | ⟨b, p, hb, hp, hq⟩)
  · rw [hc] at he
    cases he
  · rw [hc] at hb
    rw [hs] at hq
    cases hb
    cases hq
    cases hp

end VideoNode.Room
