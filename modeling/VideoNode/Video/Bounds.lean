import VideoNode.Video.LocalVideoTrack

/-!
# The copy of a written frame stays inside its buffers

What the checks of `write()` add up to: the sizes they let through are computed without overflow,
so the lengths they require cover every sample the copy reads.
-/

namespace VideoNode.Video

open VideoNode.Js

/-- The integers on the way to the copy are in the range of their type, and the sums and products
among them are exact. -/
structure VideoFrameInput.NoOverflow (i : VideoFrameInput) : Prop where
  width : -2 ^ 31 ≤ i.width ∧ i.width < 2 ^ 31
  height : -2 ^ 31 ≤ i.height ∧ i.height < 2 ^ 31
  y_stride : -2 ^ 31 ≤ i.y.stride ∧ i.y.stride < 2 ^ 31
  u_stride : -2 ^ 31 ≤ i.u.stride ∧ i.u.stride < 2 ^ 31
  v_stride : -2 ^ 31 ≤ i.v.stride ∧ i.v.stride < 2 ^ 31
  uv_width : add32 i.width 1 = i.width + 1
  uv_height : add32 i.height 1 = i.height + 1
  y_required : mulSize i.y.stride i.height = i.y.stride * i.height
  u_required : mulSize i.u.stride ((i.height + 1).tdiv 2) = i.u.stride * (i.height + 1).tdiv 2
  v_required : mulSize i.v.stride ((i.height + 1).tdiv 2) = i.v.stride * (i.height + 1).tdiv 2

/-- An even 32-bit dimension leaves room for the rounding of its chroma size. -/
theorem add32_even {n : Int} (hp : 0 < n) (he : n % 2 = 0) (hn : n < 2 ^ 31) :
    add32 n 1 = n + 1 := by
  apply add32_eq
  omega

/-- The chroma size of a positive dimension is the quotient the code computes. -/
theorem chroma_eq {n : Int} (hp : 0 < n) : ((chroma n : Nat) : Int) = (n + 1).tdiv 2 := by
  rw [chroma, Int.tdiv_eq_ediv_of_nonneg (by omega)]
  omega

namespace LocalVideoTrack

variable {t : LocalVideoTrack} {nowUs : Int} {frame : Reads} {i : VideoFrameInput}

/-- A frame of even 32-bit size passes the geometry checks if its planes have room for their rows
and are as long as their strides and rows say. -/
theorem geometry_of_planes {width height : Int} {y u v : Plane}
    (hw : 0 < width ∧ width % 2 = 0 ∧ width < 2 ^ 31)
    (hh : 0 < height ∧ height % 2 = 0 ∧ height < 2 ^ 31) (ha : ¬ t.Disagrees width height)
    (hy : width ≤ y.stride ∧ y.stride < 2 ^ 31) (hu : chroma width ≤ u.stride ∧ u.stride < 2 ^ 31)
    (hv : chroma width ≤ v.stride ∧ v.stride < 2 ^ 31) (hyl : y.stride * height ≤ y.data.length)
    (hul : u.stride * chroma height ≤ u.data.length)
    (hvl : v.stride * chroma height ≤ v.data.length) : t.Geometry width height y u v := by
  have hcb : ((chroma height : Nat) : Int) < 2 ^ 31 := by
    rw [chroma]
    omega
  have huw : (add32 width 1).tdiv 2 = chroma width := by
    rw [add32_even hw.1 hw.2.1 hw.2.2, chroma_eq hw.1]
  have huh : (add32 height 1).tdiv 2 = chroma height := by
    rw [add32_even hh.1 hh.2.1 hh.2.2, chroma_eq hh.1]
  constructor
  · exact hw.1
  · exact hh.1
  · exact hw.2.1
  · exact hh.2.1
  · exact ha
  · exact hy.1
  · rw [huw]
    exact hu.1
  · rw [huw]
    exact hv.1
  · rw [mulSize_eq ⟨by omega, hy.2⟩ ⟨by omega, hh.2.2⟩]
    exact hyl
  · rw [huh, mulSize_eq ⟨by omega, hu.2⟩ ⟨by omega, hcb⟩]
    exact hul
  · rw [huh, mulSize_eq ⟨by omega, hv.2⟩ ⟨by omega, hcb⟩]
    exact hvl

/-- What passes the checks is computed without overflow. -/
theorem Accepts.noOverflow (h : t.Accepts nowUs frame i) : i.NoOverflow := by
  have hw := (checkSize_bounds h.size).1
  have hh := (checkSize_bounds h.size).2
  have hy := readPlane_stride h.y
  have hu := readPlane_stride h.u
  have hv := readPlane_stride h.v
  have g := h.geometry
  have hwp := g.width_pos
  have hhp := g.height_pos
  have huw := add32_even hwp g.width_even hw.2
  have huh := add32_even hhp g.height_even hh.2
  have hus := g.u_stride
  have hvs := g.v_stride
  rw [huw, ← chroma_eq hwp] at hus hvs
  have hc := chroma_eq hhp
  have hyp : 0 ≤ i.y.stride := by
    have := g.y_stride
    omega
  have hcb : (i.height + 1).tdiv 2 < 2 ^ 31 := by
    rw [← hc, chroma]
    omega
  constructor
  · exact hw
  · exact hh
  · exact hy
  · exact hu
  · exact hv
  · exact huw
  · exact huh
  · exact mulSize_eq ⟨hyp, hy.2⟩ ⟨by omega, hh.2⟩
  · exact mulSize_eq ⟨by omega, hu.2⟩ ⟨by omega, hcb⟩
  · exact mulSize_eq ⟨by omega, hv.2⟩ ⟨by omega, hcb⟩

/-- What passes the checks has planes that cover the frame. -/
theorem Accepts.covered (h : t.Accepts nowUs frame i) :
    Covered i.width i.height i.y i.u i.v := by
  have n := h.noOverflow
  have g := h.geometry
  have hw := chroma_eq g.width_pos
  have hh := chroma_eq g.height_pos
  have hus := g.u_stride
  have hvs := g.v_stride
  have hyl := g.y_length
  have hul := g.u_length
  have hvl := g.v_length
  rw [n.uv_width, ← hw] at hus hvs
  rw [n.y_required] at hyl
  rw [n.uv_height, n.u_required, ← hh] at hul
  rw [n.uv_height, n.v_required, ← hh] at hvl
  have hyh : ((i.height.toNat : Nat) : Int) = i.height :=
    Int.toNat_of_nonneg (Int.le_of_lt g.height_pos)
  have hyw : ((i.width.toNat : Nat) : Int) = i.width :=
    Int.toNat_of_nonneg (Int.le_of_lt g.width_pos)
  constructor
  · apply Plane.covers_of_length
    · rw [hyw]
      exact g.y_stride
    · rw [hyh]
      exact hyl
  · exact ⟨Plane.covers_of_length hus hul, Plane.covers_of_length hvs hvl⟩

/-- A write whose checks pass copies the frame, pushes the copy and counts it. -/
theorem write_of_accepts (h : t.Accepts nowUs frame i) (delivered : Bool) :
    ∃ buffer, I420Buffer.copy i.width i.height i.y i.u i.v = some buffer ∧
      t.write nowUs delivered (some frame) = some (.ok delivered,
        (t.pushFrame ⟨buffer, i.timestampUs, i.rotation⟩).count delivered i.timestampUs) := by
  have hc := (I420Buffer.isSome_copy ..).mpr h.covered
  obtain ⟨buffer, hb⟩ := Option.isSome_iff_exists.mp hc
  refine ⟨buffer, hb, ?_⟩
  rw [write, checkInput_eq_ok.mpr ⟨frame, rfl, h⟩]
  simp only [hb, Option.map_some]

/-- Every write either throws and leaves the track, or pushes a copy of what it was given. -/
theorem write_cases (t : LocalVideoTrack) (nowUs : Int) (delivered : Bool) (info : Option Reads) :
    (∃ e, t.write nowUs delivered info = some (.error e, t)) ∨
    ∃ frame i buffer, info = some frame ∧ t.Accepts nowUs frame i ∧
      I420Buffer.copy i.width i.height i.y i.u i.v = some buffer ∧
      t.write nowUs delivered info = some (.ok delivered,
        (t.pushFrame ⟨buffer, i.timestampUs, i.rotation⟩).count delivered i.timestampUs) := by
  cases hi : t.checkInput nowUs info with
  | error e =>
    left
    exact ⟨e, by rw [write, hi]⟩
  | ok i =>
    right
    obtain ⟨frame, rfl, ha⟩ := checkInput_eq_ok.mp hi
    obtain ⟨buffer, hb, hw⟩ := write_of_accepts ha delivered
    exact ⟨frame, i, buffer, rfl, ha, hb, hw⟩

/-- Every argument of `write()` either passes all checks, and then the copy reads inside the
caller's buffers at offsets computed without overflow, or is thrown for with the track and its
source as they were. -/
theorem write_in_bounds (t : LocalVideoTrack) (nowUs : Int) (delivered : Bool)
    (info : Option Reads) :
    (∃ i, t.checkInput nowUs info = .ok i ∧ Covered i.width i.height i.y i.u i.v ∧
      i.NoOverflow) ∨ ∃ e, t.write nowUs delivered info = some (.error e, t) := by
  cases hi : t.checkInput nowUs info with
  | error e =>
    right
    exact ⟨e, by rw [write, hi]⟩
  | ok i =>
    left
    obtain ⟨frame, -, ha⟩ := checkInput_eq_ok.mp hi
    exact ⟨i, rfl, ha.covered, ha.noOverflow⟩

end LocalVideoTrack

end VideoNode.Video
