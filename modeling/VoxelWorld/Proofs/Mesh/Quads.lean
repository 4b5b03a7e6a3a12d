import Mathlib.Data.List.Forall2
import VoxelWorld.Mesh.Mesher
import VoxelWorld.Proofs.Single

/-!
# Proofs.Mesh.Quads — vertex streams as lists of quads

`MeshBuild.ofQuads` lays a list of quads out as vertex streams, and `addQuad` is one more quad at
the end of that list (`addQuad_ofQuads`). A block adds `Part`s: one side with one quad, or a plant
with four. `MeshGeometry.ofParts` puts each part into its pass.

`Quad.Covers` says what a quad has to be to cover a side of a cell: it goes once round the four
corners of the side. It is stated on the cube, not on the table of corners. `Quad.IsSide` says the
same of the cell itself, whose corners are whole numbers, and follows wherever single precision
has all of them (`Quad.Covers.isSide`).
-/

namespace VoxelWorld

/-- A quad as it is stored. -/
structure Quad where
  corners : List Corner
  normal : Vec3
  color : Rgba
  four : corners.length = 4

/-- Pieces of one length. -/
theorem length_flatMap_of_length {α β : Type} {l : List α} {f : α → List β} {w : Nat}
    (hf : ∀ a, (f a).length = w) : (l.flatMap f).length = w * l.length := by
  rw [List.length_flatMap, List.map_congr_left fun a _ => hf a, List.map_const',
    List.sum_replicate_nat, Nat.mul_comm]

/-- A stream has its share for each of the four corners. -/
theorem Quad.length_flatMap (q : Quad) {α : Type} {f : Corner → List α} {w : Nat}
    (hf : ∀ p, (f p).length = w) : (q.corners.flatMap f).length = w * 4 := by
  rw [length_flatMap_of_length hf, q.four]

namespace MeshBuild

variable {m : MeshBuild} {qs : List Quad} {a b c d n : Vec3} {color : Rgba}

/-! ## Quads -/

def coordinates (p : Vec3) : List Float32 := [p.x, p.y, p.z]

/-- The two triangles over four vertices. -/
def triangles (base : Nat) : List UInt32 :=
  let v := UInt32.ofNat base
  [v, v + 1, v + 2, v, v + 2, v + 3]

/-- The streams of a list of quads. -/
def ofQuads (qs : List Quad) : MeshBuild where
  positions := (qs.flatMap fun q => q.corners.flatMap fun p => coordinates p.point).toArray
  normals := (qs.flatMap fun q => q.corners.flatMap fun _ => coordinates q.normal).toArray
  texture := (qs.flatMap fun q => q.corners.flatMap fun p => [p.u, p.v]).toArray
  indices := ((List.range qs.length).flatMap fun k => triangles (4 * k)).toArray
  colors := (qs.flatMap fun q => q.corners.flatMap fun _ => q.color.toList).toArray

/-- Vertices go to the ends of the four streams, one after the other. -/
theorem foldl_addVertex (corners : List Corner) (m : MeshBuild) :
    corners.foldl (addVertex n color) m =
      { m with
        positions := m.positions ++ (corners.flatMap fun p => coordinates p.point).toArray
        normals := m.normals ++ (corners.flatMap fun _ => coordinates n).toArray
        texture := m.texture ++ (corners.flatMap fun p => [p.u, p.v]).toArray
        colors := m.colors ++ (corners.flatMap fun _ => color.toList).toArray } := by
  induction corners generalizing m with
  | nil => simp
  | cons p rest ih =>
    rw [List.foldl_cons, ih]
    simp [addVertex, coordinates, Rgba.toList]

/-- Three numbers for each of four corners. -/
theorem size_positions_ofQuads : (ofQuads qs).positions.size = 12 * qs.length := by
  show (List.toArray _).size = _
  rw [List.size_toArray]
  exact length_flatMap_of_length fun q => q.length_flatMap (w := 3) fun _ => rfl

/-- Four vertices for each quad. -/
theorem vertexCount_ofQuads : (ofQuads qs).vertexCount = 4 * qs.length := by
  unfold vertexCount
  rw [size_positions_ofQuads]
  omega

/-- The quad `a, b, c, d`, wound toward `n`. -/
def wound (a b c d n : Vec3) (color : Rgba) : Quad where
  corners := wind a b c d n
  normal := n
  color
  four := by
    unfold wind
    split <;> rfl

/-- The quads of a mesh under construction are those that were added. -/
theorem addQuad_ofQuads :
    (ofQuads qs).addQuad a b c d n color = ofQuads (qs ++ [wound a b c d n color]) := by
  unfold addQuad
  rw [foldl_addVertex, vertexCount_ofQuads]
  unfold addTriangles ofQuads
  simp [List.range_succ, triangles, wound]

end MeshBuild

/-! ## Sides of a cell -/

/-- A corner of the unit cube: along which axes it is at the far end. -/
structure CubeCorner where
  x : Bool
  y : Bool
  z : Bool
deriving DecidableEq

namespace CubeCorner

/-- The corner of the unit cell at `c`, in single precision. -/
def place (v : CubeCorner) (c : Vec3) : Vec3 :=
  ⟨if v.x then c.x + 1 else c.x, if v.y then c.y + 1 else c.y, if v.z then c.z + 1 else c.z⟩

/-- Two corners at the ends of one edge. -/
def Joined (v w : CubeCorner) : Prop :=
  (v.x ^^ w.x).toNat + (v.y ^^ w.y).toNat + (v.z ^^ w.z).toNat = 1

instance (v w : CubeCorner) : Decidable (v.Joined w) := inferInstanceAs (Decidable (_ = _))

/-- A corner that belongs to a side. -/
def On (v : CubeCorner) : Face → Prop
  | .posY => v.y = true
  | .negY => v.y = false
  | .posX => v.x = true
  | .negX => v.x = false
  | .posZ => v.z = true
  | .negZ => v.z = false

instance (v : CubeCorner) (f : Face) : Decidable (v.On f) := by
  cases f <;> exact inferInstanceAs (Decidable (_ = _))

end CubeCorner

/-- Four different corners of one side, each joined to the next. -/
structure Around (f : Face) (a b c d : CubeCorner) : Prop where
  on : a.On f ∧ b.On f ∧ c.On f ∧ d.On f
  different : [a, b, c, d].Nodup
  joined : a.Joined b ∧ b.Joined c ∧ c.Joined d ∧ d.Joined a

/-- The way round a side can be gone backwards. -/
theorem Around.reverse {f : Face} {a b c d : CubeCorner} (h : Around f a b c d) :
    Around f a d c b := by
  obtain ⟨⟨ha, hb, hc, hd⟩, hdiff, hab, hbc, hcd, hda⟩ := h
  -- being joined goes both ways
  have hswap : ∀ {v w : CubeCorner}, v.Joined w → w.Joined v := by
    intro v w h
    unfold CubeCorner.Joined at h ⊢
    rw [Bool.xor_comm w.x, Bool.xor_comm w.y, Bool.xor_comm w.z]
    exact h
  refine ⟨⟨ha, hd, hc, hb⟩, ?_, hswap hda, hswap hcd, hswap hbc, hswap hab⟩
  simp only [List.nodup_cons, List.mem_cons, List.not_mem_nil, not_or, or_false] at hdiff ⊢
  grind

/-- The quad goes once around the side of the unit cell at `cell`. -/
def Quad.Covers (q : Quad) (f : Face) (cell : Vec3) : Prop :=
  ∃ a b c d, Around f a b c d ∧
    q.corners.map Corner.point = [a.place cell, b.place cell, c.place cell, d.place cell]

/-! ## Sides on the grid -/

/-- The corner of the cell at `p`. -/
def CubeCorner.ofCell (v : CubeCorner) (p : Pos) : Pos :=
  ⟨p.x + v.x.toNat, p.y + v.y.toNat, p.z + v.z.toNat⟩

/-- The point has exactly the coordinates of `p`. -/
structure Vec3.IsAt (v : Vec3) (p : Pos) : Prop where
  x : Single.value? v.x = some (p.x : ℚ)
  y : Single.value? v.y = some (p.y : ℚ)
  z : Single.value? v.z = some (p.z : ℚ)

/-- The quad goes once around the side `f` of the cell at `p`, from one corner of the cell to the
next. -/
def Quad.IsSide (q : Quad) (f : Face) (p : Pos) : Prop :=
  ∃ a b c d, Around f a b c d ∧ List.Forall₂ Vec3.IsAt (q.corners.map Corner.point)
    [a.ofCell p, b.ofCell p, c.ofCell p, d.ofCell p]

/-- A cell whose corners all have single-precision coordinates. -/
structure Pos.Exact (p : Pos) : Prop where
  x : -16777216 ≤ p.x ∧ p.x < 16777216
  y : -16777216 ≤ p.y ∧ p.y < 16777216
  z : -16777216 ≤ p.z ∧ p.z < 16777216

/-- Both ends of an edge are exact. -/
theorem value_end {n : Int} (h : -16777216 ≤ n ∧ n < 16777216) (far : Bool) :
    Single.value? (if far then coordToFloat n + 1 else coordToFloat n) =
      some ((n + far.toNat : Int) : ℚ) := by
  cases far with
  | false =>
    show Single.value? (coordToFloat n) = some ((n + 0 : Int) : ℚ)
    rw [Int.add_zero]
    exact Single.value_coordToFloat h.1 h.2.le
  | true => exact Single.value_coordToFloat_add_one h.1 h.2

/-- The corners of an exact cell are placed where they belong. -/
theorem CubeCorner.place_isAt (v : CubeCorner) {p : Pos} (h : p.Exact) :
    (v.place (Mesher.cellCorner p)).IsAt (v.ofCell p) :=
  ⟨value_end h.x v.x, value_end h.y v.y, value_end h.z v.z⟩

/-- A quad around a side in single precision is around it in whole numbers, for an exact cell. -/
theorem Quad.Covers.isSide {q : Quad} {f : Face} {p : Pos}
    (hq : q.Covers f (Mesher.cellCorner p)) (hp : p.Exact) : q.IsSide f p := by
  obtain ⟨a, b, c, d, hround, hpoints⟩ := hq
  refine ⟨a, b, c, d, hround, ?_⟩
  rw [hpoints]
  exact .cons (a.place_isAt hp) (.cons (b.place_isAt hp) (.cons (c.place_isAt hp)
    (.cons (d.place_isAt hp) .nil)))

/-- All corners of a quad to the east lie where the coordinate plus 1 is rounded to. -/
theorem Quad.Covers.posX_x {q : Quad} {cell : Vec3} (hq : q.Covers .posX cell) :
    ∀ v ∈ q.corners, v.point.x = cell.x + 1 := by
  obtain ⟨a, b, c, d, ⟨⟨ha, hb, hc, hd⟩, -, -⟩, hpoints⟩ := hq
  have hplace : ∀ {v : CubeCorner}, v.On .posX → (v.place cell).x = cell.x + 1 := fun h => if_pos h
  intro v hv
  have hv := hpoints ▸ List.mem_map_of_mem (f := Corner.point) hv
  simp only [List.mem_cons, List.not_mem_nil, or_false] at hv
  rcases hv with h | h | h | h <;> rw [h]
  exacts [hplace ha, hplace hb, hplace hc, hplace hd]

/-- A quad that is the side to the east has a corner one past the cell. -/
theorem Quad.IsSide.exists_posX {q : Quad} {p : Pos} (hq : q.IsSide .posX p) :
    ∃ v ∈ q.corners, Single.value? v.point.x = some ((p.x + 1 : Int) : ℚ) := by
  obtain ⟨a, b, c, d, ⟨⟨ha, -⟩, -, -⟩, hpoints⟩ := hq
  obtain ⟨point, _, hat, -, hcons⟩ := List.forall₂_cons_right_iff.1 hpoints
  obtain ⟨v, hv, rfl⟩ := List.mem_map.1 (hcons ▸ List.mem_cons_self)
  have hx : (a.ofCell p).x = p.x + 1 := by
    show p.x + a.x.toNat = p.x + 1
    rw [show a.x = true from ha]
    rfl
  exact ⟨v, hv, hx ▸ hat.x⟩

/-! ## The table of corners -/

/-- The table of corners goes once round each side. -/
theorem corners_around (f : Face) : ∃ a b c d, Around f a b c d ∧
    ∀ cell, f.corners cell = (a.place cell, b.place cell, c.place cell, d.place cell) := by
  -- each side is gone round in the order of the table
  cases f with
  | posY => exact ⟨⟨false, true, false⟩, ⟨true, true, false⟩, ⟨true, true, true⟩,
      ⟨false, true, true⟩, ⟨by decide, by decide, by decide⟩, fun _ => rfl⟩
  | negY => exact ⟨⟨false, false, true⟩, ⟨true, false, true⟩, ⟨true, false, false⟩,
      ⟨false, false, false⟩, ⟨by decide, by decide, by decide⟩, fun _ => rfl⟩
  | posX => exact ⟨⟨true, true, true⟩, ⟨true, true, false⟩, ⟨true, false, false⟩,
      ⟨true, false, true⟩, ⟨by decide, by decide, by decide⟩, fun _ => rfl⟩
  | negX => exact ⟨⟨false, true, false⟩, ⟨false, true, true⟩, ⟨false, false, true⟩,
      ⟨false, false, false⟩, ⟨by decide, by decide, by decide⟩, fun _ => rfl⟩
  | posZ => exact ⟨⟨true, true, true⟩, ⟨false, true, true⟩, ⟨false, false, true⟩,
      ⟨true, false, true⟩, ⟨by decide, by decide, by decide⟩, fun _ => rfl⟩
  | negZ => exact ⟨⟨false, true, false⟩, ⟨true, true, false⟩, ⟨true, false, false⟩,
      ⟨false, false, false⟩, ⟨by decide, by decide, by decide⟩, fun _ => rfl⟩

namespace Face

/-- The quad of one side of a cell. -/
def quad (f : Face) (cell : Vec3) (color : Rgba) : Quad :=
  let (a, b, c, d) := f.corners cell
  MeshBuild.wound a b c d f.normal color

/-- The quad of a side goes round it, whichever way it is wound. -/
theorem quad_covers (f : Face) (cell : Vec3) (color : Rgba) :
    (f.quad cell color).Covers f cell := by
  obtain ⟨a, b, c, d, hround, hcorners⟩ := corners_around f
  have hquad : (f.quad cell color).corners =
      MeshBuild.wind (a.place cell) (b.place cell) (c.place cell) (d.place cell) f.normal := by
    show (let (a, b, c, d) := f.corners cell; MeshBuild.wound a b c d f.normal color).corners = _
    rw [hcorners]
    rfl
  unfold Quad.Covers
  rw [hquad]
  unfold MeshBuild.wind
  simp only []
  -- winding it the other way swaps the second corner and the last
  split
  · exact ⟨a, b, c, d, hround, rfl⟩
  · exact ⟨a, d, c, b, hround.reverse, rfl⟩

end Face

/-- A side adds its quad. -/
theorem MeshBuild.addFace_ofQuads {qs : List Quad} {f : Face} {cell : Vec3} {color : Rgba} :
    (ofQuads qs).addFace f cell color = ofQuads (qs ++ [f.quad cell color]) := by
  unfold addFace Face.quad
  rcases f.corners cell with ⟨a, b, c, d⟩
  exact addQuad_ofQuads

/-! ## Plants -/

/-- The two quads of an upright plane. -/
def planeQuads (y : Float32) (color : Rgba) (ends : Vec3 × Vec3) : List Quad :=
  let (p, q) := ends
  let a : Vec3 := ⟨p.x, y + 1, p.z⟩
  let b : Vec3 := ⟨q.x, y + 1, q.z⟩
  let n := Vec3.shrink ⟨q.z - p.z, 0, p.x - q.x⟩ MeshBuild.sqrtTwo
  [MeshBuild.wound a b q p n color, MeshBuild.wound a b q p (n.scale (-1)) color]

/-- The four quads of a plant. -/
def plantQuads (cell : Vec3) (color : Rgba) : List Quad :=
  let ⟨x, y, z⟩ := cell
  planeQuads y color (⟨x, y, z⟩, ⟨x + 1, y, z + 1⟩) ++
    planeQuads y color (⟨x + 1, y, z⟩, ⟨x, y, z + 1⟩)

/-- A plane adds one quad for either face. -/
theorem MeshBuild.addPlane_ofQuads {qs : List Quad} {y : Float32} {color : Rgba}
    {ends : Vec3 × Vec3} :
    (ofQuads qs).addPlane y color ends = ofQuads (qs ++ planeQuads y color ends) := by
  unfold addPlane planeQuads
  simp only [addQuad_ofQuads, List.append_assoc, List.singleton_append]

/-- A plant adds those of its two planes. -/
theorem MeshBuild.addBillboard_ofQuads {qs : List Quad} {cell : Vec3} {color : Rgba} :
    (ofQuads qs).addBillboard cell color = ofQuads (qs ++ plantQuads cell color) := by
  unfold addBillboard plantQuads
  simp only [List.foldl_cons, List.foldl_nil, addPlane_ofQuads, List.append_assoc]

/-! ## Parts -/

/-- What a block adds to a mesh at once. -/
inductive Part
  | side (cell : Pos) (face : Face) (pass : Pass) (color : Rgba)
  | plant (cell : Pos) (color : Rgba)

namespace Part

variable {P : Part → Bool} {parts : List Part} {part : Part}

def cell : Part → Pos
  | side p _ _ _ => p
  | plant p _ => p

def pass : Part → Pass
  | side _ _ pass _ => pass
  | plant _ _ => .translucent

def quads : Part → List Quad
  | side p f _ color => [f.quad (Mesher.cellCorner p) color]
  | plant p color => plantQuads (Mesher.cellCorner p) color

/-- The quads of some of the parts. -/
def quadsWhere (P : Part → Bool) (parts : List Part) : List Quad :=
  (parts.filter P).flatMap quads

/-- One more part adds its quads, if it is one of those that are looked for. -/
theorem quadsWhere_snoc : quadsWhere P (parts ++ [part]) =
    quadsWhere P parts ++ if P part then part.quads else [] := by
  unfold quadsWhere
  rw [List.filter_append, List.flatMap_append, List.filter_cons]
  by_cases h : P part
  · rw [if_pos h, if_pos h]
    exact congrArg _ (List.append_nil _)
  · rw [if_neg h, if_neg h]
    rfl

end Part

namespace MeshGeometry

variable {parts : List Part} {p : Pos} {f : Face} {color : Rgba}

/-- The streams of parts, each in its pass. -/
def ofParts (parts : List Part) : MeshGeometry where
  solid := .ofQuads (Part.quadsWhere (·.pass = .solid) parts)
  translucent := .ofQuads (Part.quadsWhere (·.pass = .translucent) parts)

/-- A side goes to the streams of its pass, and leaves the other ones. -/
theorem addFace_ofParts (translucent : Bool) :
    Mesher.addFace translucent f (Mesher.cellCorner p) color (ofParts parts) =
      ofParts (parts ++ [.side p f (if translucent then .translucent else .solid) color]) := by
  unfold ofParts Mesher.addFace
  cases translucent <;>
    simp [MeshBuild.addFace_ofQuads, Part.quadsWhere_snoc, Part.pass, Part.quads]

/-- Plants go to the translucent pass. -/
theorem addBillboard_ofParts :
    (⟨(ofParts parts).solid, (ofParts parts).translucent.addBillboard (Mesher.cellCorner p) color⟩ :
      MeshGeometry) = ofParts (parts ++ [.plant p color]) := by
  unfold ofParts
  simp [MeshBuild.addBillboard_ofQuads, Part.quadsWhere_snoc, Part.pass, Part.quads]

end MeshGeometry

end VoxelWorld
