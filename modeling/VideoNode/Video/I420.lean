import Mathlib.Data.List.Basic

/-!
# Planar frames

An I420 frame is a full luma plane and two chroma planes subsampled twofold in each dimension. A
`Plane` is the bytes a row-major plane is read from and the distance between its rows, an
`I420Buffer` the samples that are visible in it; `copy` reads the one out of the other.
-/

namespace VideoNode.Video

section Option

variable {α β : Type}

/-- A traversal succeeds exactly if each of its elements does. -/
theorem isSome_mapM {f : α → Option β} {as : List α} :
    (as.mapM f).isSome ↔ ∀ a ∈ as, (f a).isSome := by
  induction as with
  | nil => simp
  | cons a as ih => cases h : f a <;> cases hs : as.mapM f <;> simp_all

end Option

/-- `webrtc::VideoRotation`. -/
inductive VideoRotation where
  | rotation0
  | rotation90
  | rotation180
  | rotation270
  deriving DecidableEq, Repr

/-- The bytes of a plane and the distance from one row to the next. -/
structure Plane where
  data : List UInt8
  stride : Int
  deriving DecidableEq, Repr

namespace Plane

/-- The byte at an offset; none outside the buffer. -/
def byteAt (p : Plane) (i : Int) : Option UInt8 :=
  if 0 ≤ i then p.data[i.toNat]? else none

/-- The samples of one row. -/
def row (p : Plane) (cols r : Nat) : Option (List UInt8) :=
  (List.range cols).mapM fun c : Nat ↦ p.byteAt (r * p.stride + c)

/-- The rows of the plane; none if a sample lies outside its buffer. -/
def rows (p : Plane) (rows cols : Nat) : Option (List (List UInt8)) :=
  (List.range rows).mapM (p.row cols)

/-- Every sample of so many rows and columns lies inside the buffer. -/
def Covers (p : Plane) (rows cols : Nat) : Prop :=
  ∀ r c : Nat, r < rows → c < cols →
    0 ≤ r * p.stride + c ∧ r * p.stride + c < p.data.length

/-- An offset has a byte exactly inside the buffer. -/
theorem isSome_byteAt (p : Plane) (i : Int) :
    (p.byteAt i).isSome ↔ 0 ≤ i ∧ i < p.data.length := by
  unfold byteAt
  split
  · next h =>
    simp only [isSome_getElem?]
    omega
  · next h => simp [h]

/-- The rows can be read exactly if the plane covers them. -/
theorem isSome_rows (p : Plane) (rows cols : Nat) :
    (p.rows rows cols).isSome ↔ p.Covers rows cols := by
  unfold Plane.rows row Covers
  simp only [isSome_mapM, List.mem_range, isSome_byteAt]
  constructor
  · intro h r c hr hc
    exact h r hr c hc
  · intro h r hr c hc
    exact h r c hr hc

/-- A buffer of a full stride for each row covers rows no longer than the stride. -/
theorem covers_of_length {p : Plane} {rows cols : Nat} (hc : cols ≤ p.stride)
    (hl : p.stride * rows ≤ p.data.length) : p.Covers rows cols := by
  intro r c hr hcc
  have hs : 0 ≤ p.stride := by omega
  have h0 : 0 ≤ r * p.stride := Int.mul_nonneg (Int.natCast_nonneg r) hs
  have hrow : (r + 1 : Int) * p.stride ≤ rows * p.stride := by
    apply Int.mul_le_mul_of_nonneg_right _ hs
    omega
  rw [Int.add_mul, Int.one_mul] at hrow
  rw [Int.mul_comm] at hl
  omega

end Plane

/-- The visible samples of a frame, row by row. -/
structure I420Buffer where
  width : Int
  height : Int
  y : List (List UInt8)
  u : List (List UInt8)
  v : List (List UInt8)
  deriving DecidableEq, Repr

/-- The chroma samples for a row or column of so many luma samples. -/
def chroma (n : Int) : Nat := ((n + 1) / 2).toNat

/-- `webrtc::I420Buffer::Copy`: each visible sample is read from its plane; none if it reads outside
a plane's buffer, which is undefined behaviour. -/
def I420Buffer.copy (width height : Int) (y u v : Plane) : Option I420Buffer := do
  let ys ← y.rows height.toNat width.toNat
  let us ← u.rows (chroma height) (chroma width)
  let vs ← v.rows (chroma height) (chroma width)
  pure ⟨width, height, ys, us, vs⟩

/-- The planes cover the samples a frame of this size has. -/
def Covered (width height : Int) (y u v : Plane) : Prop :=
  y.Covers height.toNat width.toNat ∧ u.Covers (chroma height) (chroma width) ∧
    v.Covers (chroma height) (chroma width)

/-- The copy stays inside the buffers exactly if the planes cover the frame. -/
theorem I420Buffer.isSome_copy (width height : Int) (y u v : Plane) :
    (I420Buffer.copy width height y u v).isSome ↔ Covered width height y u v := by
  unfold Covered
  rw [← Plane.isSome_rows, ← Plane.isSome_rows, ← Plane.isSome_rows, I420Buffer.copy]
  cases y.rows height.toNat width.toNat <;> cases u.rows (chroma height) (chroma width) <;>
    cases v.rows (chroma height) (chroma width) <;> simp

/-- A copy has the size it was asked for and the rows of the planes. -/
theorem I420Buffer.copy_eq_some {width height : Int} {y u v : Plane} {b : I420Buffer} :
    I420Buffer.copy width height y u v = some b ↔ b.width = width ∧ b.height = height ∧
      y.rows height.toNat width.toNat = some b.y ∧
      u.rows (chroma height) (chroma width) = some b.u ∧
      v.rows (chroma height) (chroma width) = some b.v := by
  unfold I420Buffer.copy
  simp only [bind, Option.bind_eq_some_iff, pure, Option.some.injEq]
  constructor
  · rintro ⟨ys, hy, us, hu, vs, hv, rfl⟩
    exact ⟨rfl, rfl, hy, hu, hv⟩
  · rintro ⟨rfl, rfl, hy, hu, hv⟩
    exact ⟨b.y, hy, b.u, hu, b.v, hv, rfl⟩

end VideoNode.Video
