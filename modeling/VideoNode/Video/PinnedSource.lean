import VideoNode.Lts.Machine
import VideoNode.Video.Republish

/-!
# Tracks with a source size

`createLocalVideoTrack` (`lib/index.ts`) checks the size a source declares and
`LocalVideoTrackWrap::ConfigureSource` keeps it for `write()` to compare with, through a conversion
of its own.
-/

namespace VideoNode.Video

open VideoNode.Js Lts

/-- `lib/index.ts:350–367`. -/
def resolveName (options : NapiValue) (methodName : String) : Except JsError (Option JsString) :=
  match options with
  | .undefined => pure none
  | .string s => do
    throwIf (s.length = 0) notEmpty
    pure (some s)
  | options => do
    throwIf (options.isTypeofObject = false)
      ⟨.typeError, methodName ++ " expects a string or options object", none⟩
    match options.get "name" with
    | .undefined => pure none
    | .string s => do
      throwIf (s.length = 0) notEmpty
      pure (some s)
    | _ => .error notEmpty
where
  notEmpty : JsError := ⟨.typeError, "name must be a non-empty string", none⟩

/-- One turn of the loop over the dimensions; `lib/index.ts:432–440`. -/
def checkDimension (source : NapiValue) (key : String) : Except JsError Int := do
  let v := source.get key
  let i ← orThrow (v.integer?.filter (0 < ·))
    ⟨.rangeError, "source." ++ key ++ " must be a positive integer; got ", some v.described⟩
  throwIf (i % 2 ≠ 0) ⟨.rangeError, "source." ++ key ++ " must be even; got ", some v.described⟩
  pure i

/-- `lib/index.ts:422–444`; the size it has checked. -/
def validateVideoSource (source : NapiValue) : Except JsError (Int × Int) := do
  throwIf (source.isTypeofObject = false) ⟨.typeError, "source must be an object", none⟩
  throwIf ((source.get "type").string? ≠ some (.ofText "raw"))
    ⟨.typeError, "source.type must be 'raw'; got ", some (source.get "type").described⟩
  throwIf ((source.get "format").string? ≠ some (.ofText "I420"))
    ⟨.typeError, "source.format must be 'I420'; got ", some (source.get "format").described⟩
  let width ← checkDimension source "width"
  let height ← checkDimension source "height"
  let fps := source.get "fps"
  throwIf (fps.isUndefined = false ∧ fps.integer?.filter (0 < ·) = none)
    ⟨.rangeError, "source.fps must be a positive integer; got ", some fps.described⟩
  pure (width, height)

/-- `src/media/local_video_track_wrap.cpp:292–302`. -/
def LocalVideoTrack.configureSource (t : LocalVideoTrack) (opts : NapiValue) : LocalVideoTrack :=
  if opts.isObject then
    let w := ((opts.present? "width").bind toFiniteInt32).getD 0
    let h := ((opts.present? "height").bind toFiniteInt32).getD 0
    { t with
      expectedWidth := if 0 < w then w else 0
      expectedHeight := if 0 < h then h else 0 }
  else t

/-- The source option, of options that are an object; `lib/index.ts:411`. -/
def sourceOption (options : NapiValue) : NapiValue :=
  if options.isTypeofObject then options.get "source" else .undefined

/-- `lib/index.ts:407–420`; the name is the native track's only, and a source that has been
validated is truthy. -/
def createLocalVideoTrack (options : NapiValue) : Except JsError LocalVideoTrack := do
  let _name ← resolveName options "createLocalVideoTrack"
  let source := sourceOption options
  if source.isUndefined then pure (LocalVideoTrack.create true)
  else
    let _size ← validateVideoSource source
    pure ((LocalVideoTrack.create true).configureSource source)

/-- A call of `write()`, with the present time and whether the adapter delivers the frame. -/
structure WriteCall where
  nowUs : Int
  delivered : Bool
  info : Option Reads

/-- A track that is written to. -/
def writes (t : LocalVideoTrack) : Machine LocalVideoTrack WriteCall where
  init := t
  step t c := (t.write c.nowUs c.delivered c.info).map Prod.snd

/-- The call either throws and leaves the source as it was, or pushes one frame of the size. -/
def Enforces (width height : Int) (t : LocalVideoTrack) (c : WriteCall) : Prop :=
  ∃ result u, t.write c.nowUs c.delivered c.info = some (result, u) ∧
    match result with
    | .error _ => u.videoSource = t.videoSource
    | .ok _ => ∃ f, u.videoSource = t.videoSource.map (· ++ [f]) ∧ f.buffer.width = width ∧
      f.buffer.height = height

/-- The source has both dimensions, and each fits the native integer. -/
def Pins (source : NapiValue) (width height : Int) : Prop :=
  source.has "width" = true ∧ source.has "height" = true ∧ width < 2 ^ 31 ∧ height < 2 ^ 31

/-- A checked dimension is the integer that is there, positive and even. -/
theorem checkDimension_eq_ok {source : NapiValue} {key : String} {i : Int} :
    checkDimension source key = .ok i ↔
      (source.get key).integer? = some i ∧ 0 < i ∧ i % 2 = 0 := by
  simp only [checkDimension, bind_eq_ok, orThrow_eq_ok, throwIf_eq_ok, pure_eq_ok,
    Option.filter_eq_some_iff, decide_eq_true_eq, not_not]
  constructor
  · rintro ⟨j, ⟨hj, hp⟩, -, he, rfl⟩
    exact ⟨hj, hp, he⟩
  · rintro ⟨hj, hp, he⟩
    exact ⟨i, ⟨hj, hp⟩, (), he, rfl⟩

/-- A validated source is an object with the two dimensions. -/
theorem validateVideoSource_eq_ok {source : NapiValue} {w h : Int}
    (hv : validateVideoSource source = .ok (w, h)) : source.isTypeofObject = true ∧
      checkDimension source "width" = .ok w ∧ checkDimension source "height" = .ok h := by
  simp only [validateVideoSource, bind_eq_ok, throwIf_eq_ok, pure_eq_ok, Prod.mk.injEq] at hv
  obtain ⟨-, ho, -, -, -, -, width, hw, height, hh, -, -, rfl, rfl⟩ := hv
  exact ⟨by simpa using ho, hw, hh⟩

private theorem getD_toFiniteInt32 {source : NapiValue} {key : String} {i : Int}
    (hi : (source.get key).integer? = some i) (hp : 0 < i) :
    ((source.present? key).bind toFiniteInt32).getD 0 =
      if source.has key = true ∧ i < 2 ^ 31 then i else 0 := by
  unfold NapiValue.present?
  by_cases hk : source.has key = true
  · rw [if_pos hk, Option.bind_some]
    by_cases hb : i < 2 ^ 31
    · rw [toFiniteInt32_eq_some.mpr ⟨hi, by omega, hb⟩, if_pos ⟨hk, hb⟩]
      rfl
    · rw [if_neg (fun h ↦ hb h.2)]
      cases ht : toFiniteInt32 (source.get key) with
      | none => rfl
      | some j =>
        -- an integer out of range cannot have been read
        obtain ⟨hj, -, hjb⟩ := toFiniteInt32_eq_some.mp ht
        rw [hi] at hj
        cases hj
        exact absurd hjb hb
  · rw [if_neg hk, if_neg (fun h ↦ hk h.1)]
    rfl

/-- A track created with a source has validated the source and been configured with it. -/
theorem createLocalVideoTrack_eq_ok {options : NapiValue} {t : LocalVideoTrack}
    (ht : createLocalVideoTrack options = .ok t)
    (hs : (sourceOption options).isUndefined = false) :
    ∃ w h, validateVideoSource (sourceOption options) = .ok (w, h) ∧
      t = (LocalVideoTrack.create true).configureSource (sourceOption options) := by
  simp only [createLocalVideoTrack, hs, Bool.false_eq_true, if_false, bind_eq_ok, pure_eq_ok] at ht
  obtain ⟨-, -, ⟨w, h⟩, hv, rfl⟩ := ht
  exact ⟨w, h, hv, rfl⟩

private theorem isUndefined_of_integer? {v : NapiValue} {key : String} {i : Int}
    (h : (v.get key).integer? = some i) : v.isUndefined = false := by
  cases v with
  | undefined => cases h
  | _ => rfl

private theorem ite_pos_self {x : Int} (h : 0 ≤ x) : (if 0 < x then x else 0) = x := by
  split <;> omega

/-- A track created with a source expects each dimension that is there and fits, and has a source to
push to. -/
theorem createLocalVideoTrack_config {options : NapiValue} {t : LocalVideoTrack} {w h : Int}
    (ht : createLocalVideoTrack options = .ok t)
    (hw : ((sourceOption options).get "width").integer? = some w)
    (hh : ((sourceOption options).get "height").integer? = some h) :
    (0 < w ∧ w % 2 = 0) ∧ (0 < h ∧ h % 2 = 0) ∧ t.videoSource = some [] ∧
      t.expectedWidth = (if (sourceOption options).has "width" = true ∧ w < 2 ^ 31 then w else 0) ∧
      t.expectedHeight =
        if (sourceOption options).has "height" = true ∧ h < 2 ^ 31 then h else 0 := by
  obtain ⟨w', h', hv, rfl⟩ := createLocalVideoTrack_eq_ok ht (isUndefined_of_integer? hw)
  obtain ⟨ho, hcw, hch⟩ := validateVideoSource_eq_ok hv
  obtain ⟨hw', hwp, hwe⟩ := checkDimension_eq_ok.mp hcw
  obtain ⟨hh', hhp, hhe⟩ := checkDimension_eq_ok.mp hch
  rw [hw] at hw'
  rw [hh] at hh'
  cases hw'
  cases hh'
  have hobj : (sourceOption options).isObject = true := by
    cases hso : sourceOption options with
    | object => rfl
    | _ => rw [hso] at ho; cases ho
  simp only [LocalVideoTrack.configureSource, hobj, if_true, getD_toFiniteInt32 hw hwp,
    getD_toFiniteInt32 hh hhp]
  refine ⟨⟨hwp, hwe⟩, ⟨hhp, hhe⟩, rfl, ?_, ?_⟩
  · apply ite_pos_self
    split <;> omega
  · apply ite_pos_self
    split <;> omega

/-- A write leaves the expected size, and a source where there is one. -/
theorem writes_step_config {t s u : LocalVideoTrack} {c : WriteCall}
    (hs : (writes t).step s c = some u) : u.expectedWidth = s.expectedWidth ∧
      u.expectedHeight = s.expectedHeight := by
  obtain ⟨⟨r, v⟩, hw, rfl⟩ := Option.map_eq_some_iff.mp hs
  obtain ⟨e, he⟩ | ⟨frame, i, buffer, -, -, -, he⟩ := s.write_cases c.nowUs c.delivered c.info
  · rw [he] at hw
    cases hw
    exact ⟨rfl, rfl⟩
  · rw [he] at hw
    cases hw
    exact ⟨by simp [LocalVideoTrack.pushFrame], by simp [LocalVideoTrack.pushFrame]⟩

/-- A track that expects a size enforces it in every write. -/
theorem enforces_of_expected {t : LocalVideoTrack} (hw : t.expectedWidth ≠ 0)
    (hh : t.expectedHeight ≠ 0) (c : WriteCall) :
    Enforces t.expectedWidth t.expectedHeight t c := by
  obtain ⟨e, he⟩ | ⟨frame, i, buffer, -, ha, hb, he⟩ := t.write_cases c.nowUs c.delivered c.info
  · exact ⟨_, _, he, rfl⟩
  · have hd := ha.geometry.agrees
    simp only [LocalVideoTrack.Disagrees, not_or, not_and, not_not] at hd
    obtain ⟨hbw, hbh, -, -, -⟩ := I420Buffer.copy_eq_some.mp hb
    refine ⟨_, _, he, ⟨buffer, i.timestampUs, i.rotation⟩, ?_, ?_, ?_⟩
    · simp [LocalVideoTrack.pushFrame]
    · rw [← hd.1 hw]
      exact hbw
    · rw [← hd.2 hh]
      exact hbh

/-- A frame of zeros. -/
def blank (w h : Int) : NapiValue :=
  .ofProps [("width", .ofInt w), ("height", .ofInt h),
    ("y", planeObject (List.replicate (w * h).toNat 0) w w h),
    ("u", planeObject (List.replicate (chroma w * chroma h) 0) (chroma w) (chroma w) (chroma h)),
    ("v", planeObject (List.replicate (chroma w * chroma h) 0) (chroma w) (chroma w) (chroma h))]

/-- A track accepts a frame of zeros of any even size it does not disagree with. -/
theorem accepts_blank {t : LocalVideoTrack} {w h : Int} (hw : 0 < w ∧ w % 2 = 0 ∧ w < 2 ^ 31)
    (hh : 0 < h ∧ h % 2 = 0 ∧ h < 2 ^ 31) (ha : ¬ t.Disagrees w h) (hs : t.videoSource ≠ none)
    (nowUs : Int) :
    t.Accepts nowUs (blank w h).reads ⟨w, h, ⟨List.replicate (w * h).toNat 0, w⟩,
      ⟨List.replicate (chroma w * chroma h) 0, chroma w⟩,
      ⟨List.replicate (chroma w * chroma h) 0, chroma w⟩, nowUs, .rotation0⟩ := by
  have hcw : ((chroma w : Nat) : Int) < 2 ^ 31 := by
    rw [chroma]
    omega
  have hwb : -2 ^ 31 ≤ w ∧ w < 2 ^ 31 := ⟨by omega, hw.2.2⟩
  have hhb : -2 ^ 31 ≤ h ∧ h < 2 ^ 31 := ⟨by omega, hh.2.2⟩
  have hlen : w * h ≤ (List.replicate (w * h).toNat (0 : UInt8)).length := by
    rw [List.length_replicate]
    omega
  have hclen : (chroma w : Int) * chroma h ≤
      (List.replicate (chroma w * chroma h) (0 : UInt8)).length := by
    rw [List.length_replicate]
    omega
  constructor
  · rfl
  · exact checkSize_ofInt rfl rfl hwb hhb
  · exact readPlane_planeObject rfl rfl hwb
  · exact readPlane_planeObject rfl rfl ⟨by omega, hcw⟩
  · exact readPlane_planeObject rfl rfl ⟨by omega, hcw⟩
  · exact LocalVideoTrack.geometry_of_planes hw hh ha ⟨Int.le_refl w, hw.2.2⟩
      ⟨Int.le_refl _, hcw⟩ ⟨Int.le_refl _, hcw⟩ hlen hclen hclen
  · exact ⟨none, rfl, rfl⟩
  · exact ⟨none, rfl, rfl⟩
  · exact hs

/-- A size that is accepted where only one size is enforced is that size. -/
theorem size_of_enforces {t : LocalVideoTrack} {w h w' h' : Int}
    (he : ∀ c, Enforces w h t c) (hw : 0 < w' ∧ w' % 2 = 0 ∧ w' < 2 ^ 31)
    (hh : 0 < h' ∧ h' % 2 = 0 ∧ h' < 2 ^ 31) (ha : ¬ t.Disagrees w' h')
    (hs : t.videoSource = some []) : w' = w ∧ h' = h := by
  have hacc := accepts_blank hw hh ha (hs ▸ nofun) 0
  obtain ⟨buffer, hb, hwr⟩ := LocalVideoTrack.write_of_accepts hacc true
  obtain ⟨r, u, hr, hsize⟩ := he ⟨0, true, some (blank w' h').reads⟩
  rw [hwr] at hr
  cases hr
  obtain ⟨f, hf, hfw, hfh⟩ := hsize
  obtain ⟨hbw, hbh, -, -, -⟩ := I420Buffer.copy_eq_some.mp hb
  simp only [LocalVideoTrack.count_videoSource, LocalVideoTrack.pushFrame, hs, Option.map_some,
    List.nil_append, Option.some.injEq, List.cons.injEq, and_true] at hf
  subst hf
  exact ⟨hbw.symm.trans hfw, hbh.symm.trans hfh⟩

-- a size to write where so much is expected: that, or any other than the one to avoid
private theorem exists_agreeing {c : Prop} [Decidable c] {n a : Int} (hp : 0 < n ∧ n % 2 = 0)
    (hc : c → n < 2 ^ 31) : ∃ m : Int, (0 < m ∧ m % 2 = 0 ∧ m < 2 ^ 31) ∧
      ((if c then n else 0) ≠ 0 → m = if c then n else 0) ∧ (¬ c → m ≠ a) := by
  by_cases h : c
  · exact ⟨n, ⟨hp.1, hp.2, hc h⟩, by simp [h], fun hn ↦ absurd h hn⟩
  · by_cases ha : a = 2
    · exact ⟨4, by omega, by simp [h], by omega⟩
    · exact ⟨2, by omega, by simp [h], by omega⟩

/-- A track created with a source rejects every frame of another size, whatever is written to it,
exactly if both dimensions of the source are there and fit the native integer. -/
theorem pinned_size_enforced_iff {options : NapiValue} {t : LocalVideoTrack} {w h : Int}
    (ht : createLocalVideoTrack options = .ok t)
    (hw : ((sourceOption options).get "width").integer? = some w)
    (hh : ((sourceOption options).get "height").integer? = some h) :
    (∀ run, (writes t).Along (Enforces w h) t run) ↔ Pins (sourceOption options) w h := by
  obtain ⟨⟨hwp, hwe⟩, ⟨hhp, hhe⟩, hsrc, hew, heh⟩ := createLocalVideoTrack_config ht hw hh
  constructor
  · intro hall
    have he : ∀ c, Enforces w h t c := fun c ↦ (hall [c]).1
    -- a frame of the sizes that are expected, and of another size where none is
    obtain ⟨w', hwv, hwa, hwn⟩ := exists_agreeing (a := w)
      (c := (sourceOption options).has "width" = true ∧ w < 2 ^ 31) ⟨hwp, hwe⟩ fun hc ↦ hc.2
    obtain ⟨h', hhv, hha, hhn⟩ := exists_agreeing (a := h)
      (c := (sourceOption options).has "height" = true ∧ h < 2 ^ 31) ⟨hhp, hhe⟩ fun hc ↦ hc.2
    rw [← hew] at hwa
    rw [← heh] at hha
    have ha : ¬ t.Disagrees w' h' := by
      rintro (⟨hn, hd⟩ | ⟨hn, hd⟩)
      · exact hd (hwa hn)
      · exact hd (hha hn)
    obtain ⟨rfl, rfl⟩ := size_of_enforces he hwv hhv ha hsrc
    have hpw := Classical.not_not.mp fun hn ↦ hwn hn rfl
    have hph := Classical.not_not.mp fun hn ↦ hhn hn rfl
    exact ⟨hpw.1, hph.1, hpw.2, hph.2⟩
  · rintro ⟨hkw, hkh, hbw, hbh⟩ run
    rw [if_pos ⟨hkw, hbw⟩] at hew
    rw [if_pos ⟨hkh, hbh⟩] at heh
    refine Machine.along_of_invariant
      (i := fun s ↦ s.expectedWidth = w ∧ s.expectedHeight = h) ?_ ?_ ⟨hew, heh⟩ run
    · rintro s c u ⟨hsw, hsh⟩ hs
      obtain ⟨huw, huh⟩ := writes_step_config hs
      exact ⟨huw.trans hsw, huh.trans hsh⟩
    · rintro s c ⟨rfl, rfl⟩
      exact enforces_of_expected (by omega) (by omega) c

/-- Options that declare a source of a size. -/
def rawSource (width height : Int) : NapiValue :=
  .ofProps [("source", .ofProps [("type", .string "raw"), ("format", .string "I420"),
    ("width", .ofInt width), ("height", .ofInt height)])]

/-- A track pinned to the smallest size. -/
def pinned : LocalVideoTrack :=
  { LocalVideoTrack.create true with expectedWidth := 2, expectedHeight := 2 }

-- a frame of the smallest size, and one that is wider
private def twoWrites : List WriteCall :=
  [⟨0, true, some (blank 2 2).reads⟩, ⟨1, true, some (blank 4 2).reads⟩]

/-- The smallest size is enforced: one of two frames is pushed. -/
theorem pinned_size_enforced_two : (writes pinned).Along (Enforces 2 2) pinned twoWrites ∧
    ((writes pinned).exec pinned twoWrites).map (fun t ↦ t.videoSource.map List.length) =
      some (some 1) :=
  ⟨(pinned_size_enforced_iff (show createLocalVideoTrack (rawSource 2 2) = .ok pinned from rfl) rfl
    rfl).mpr ⟨rfl, rfl, by decide, by decide⟩ twoWrites, rfl⟩

/-- A width of 2³¹ is accepted and then forgotten: a frame two samples wide reaches the source. -/
theorem pinned_size_forgotten : ∃ t u f,
    createLocalVideoTrack (rawSource 2147483648 2) = .ok t ∧
    t.write 0 true (some (blank 2 2).reads) = some (.ok true, u) ∧
    u.videoSource = some [f] ∧ f.buffer.width = 2 :=
  ⟨{ LocalVideoTrack.create true with expectedHeight := 2 }, _, _, rfl, rfl, rfl, rfl⟩

end VideoNode.Video
