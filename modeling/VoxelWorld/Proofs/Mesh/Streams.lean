import Mathlib.Data.List.DropRight
import Mathlib.Data.List.Induction
import Mathlib.Data.List.Infix
import Mathlib.Data.List.Rotate
import VoxelWorld.Proofs.Ensures
import VoxelWorld.Proofs.Mesh.Quads

/-!
# Proofs.Mesh.Streams — the streams of a mesh keep step

Five streams of different strides grow by nested calls.

1. `Holds` says of a mesh, stream by stream, that it is made of some given quads and of nothing
   else; it knows nothing of calls. The mesh that is laid out for given quads holds them
   (`holds_laidOut`), whichever way round the corners of each are stored (`goesRound_quad`).
2. `given` are the quads that a list of calls gives after the last one that clears the streams. A
   call takes what is laid out to what is laid out (`call_eq_ok`), so a run of calls gives what is
   laid out for `given`, unless there is no room (`run_eq_ok`).
3. `streams_in_step` puts both together: when a run of calls gives a mesh, what the mesh holds, and
   that nothing in it moves or changes until it is cleared.
-/

namespace VoxelWorld

/-! ## Quads as they are given -/

/-- Four corners going round, the direction that they should wind toward, and a colour. -/
structure Outline where
  a : Vec3
  b : Vec3
  c : Vec3
  d : Vec3
  normal : Vec3
  color : Rgba

namespace Outline

/-- The corners as they are given, each with its own place on the texture. -/
def corners (o : Outline) : List Corner :=
  [⟨o.a, 0, 0⟩, ⟨o.b, 1, 0⟩, ⟨o.c, 1, 1⟩, ⟨o.d, 0, 1⟩]

/-- The same corners in the same cyclic order, from any of them on and in either direction. -/
def GoesRound (o : Outline) (corners : List Corner) : Prop :=
  o.corners.IsRotated corners ∨ o.corners.reverse.IsRotated corners

/-- The quad as it is stored. -/
def quad (o : Outline) : Quad := MeshBuild.wound o.a o.b o.c o.d o.normal o.color

/-- A quad is stored with its corners in the order in which they were given, or backwards. -/
theorem goesRound_quad (o : Outline) : o.GoesRound o.quad.corners := by
  show o.GoesRound (MeshBuild.wind o.a o.b o.c o.d o.normal)
  -- which way round depends on the sign of a float, and a NaN has none
  unfold MeshBuild.wind
  dsimp only
  split
  · exact .inl (List.IsRotated.refl _)
  · exact .inr ⟨3, rfl⟩

/-- The two quads, one for each side, of the upright plane over a diagonal of a cell. The diagonal
starts at the near or the far end of the first axis. -/
def diagonal (cell : Vec3) (color : Rgba) (far : Bool) : List Outline :=
  let place (x y z : Bool) : Vec3 := CubeCorner.place ⟨x, y, z⟩ cell
  let start := place far false false
  let stop := place (!far) false true
  let n := Vec3.shrink ⟨stop.z - start.z, 0, start.x - stop.x⟩ MeshBuild.sqrtTwo
  [⟨place far true false, place (!far) true true, stop, start, n, color⟩,
    ⟨place far true false, place (!far) true true, stop, start, n.scale (-1), color⟩]

end Outline

/-- What is the same for all corners is stored four times. -/
theorem Quad.flatMap_const (q : Quad) {α : Type} (piece : List α) :
    (q.corners.flatMap fun _ => piece) = (List.replicate 4 piece).flatten := by
  rw [List.flatMap_def, List.map_const', q.four]

namespace MeshBuild

/-! ## What a mesh holds -/

/-- The `k`-th group of `w` entries of a stream. -/
def group {α : Type} (w k : Nat) (stream : Array α) : List α :=
  (stream.toList.drop (w * k)).take w

/-- The streams are made of the given quads, one after the other, and of nothing else. -/
structure Holds (m : MeshBuild) (os : List Outline) : Prop where
  positions : m.positions.size = 12 * os.length
  normals : m.normals.size = 12 * os.length
  texture : m.texture.size = 8 * os.length
  colors : m.colors.size = 16 * os.length
  indices : m.indices.size = 6 * os.length
  /-- The numbers of the vertices of `2 ^ 30` quads fit in 32 bits. -/
  triangles : ∀ k < os.length, k < 1073741824 → (group 6 k m.indices).map UInt32.toNat =
    [4 * k, 4 * k + 1, 4 * k + 2, 4 * k, 4 * k + 2, 4 * k + 3]
  /-- The corners of a quad, each still with its own place on the texture. -/
  corners : ∀ k (hk : k < os.length), ∃ corners, os[k].GoesRound corners ∧
    group 12 k m.positions = corners.flatMap (fun p => coordinates p.point) ∧
    group 8 k m.texture = corners.flatMap fun p => [p.u, p.v]
  /-- All four vertices of a quad have its direction and its colour. -/
  vertices : ∀ k (hk : k < os.length),
    group 12 k m.normals = (List.replicate 4 (coordinates os[k].normal)).flatten ∧
    group 16 k m.colors = (List.replicate 4 os[k].color.toList).flatten

/-- All that is in one mesh is in another too, and in the same place. -/
structure Begins (m m' : MeshBuild) : Prop where
  positions : m.positions.toList <+: m'.positions.toList
  normals : m.normals.toList <+: m'.normals.toList
  texture : m.texture.toList <+: m'.texture.toList
  indices : m.indices.toList <+: m'.indices.toList
  colors : m.colors.toList <+: m'.colors.toList

/-! ## A mesh that is laid out -/

variable {m : MeshBuild} {os : List Outline}

/-- The streams of given quads. -/
def laidOut (os : List Outline) : MeshBuild := ofQuads (os.map Outline.quad)

/-- The five streams, one by one. -/
theorem laidOut_eq (os : List Outline) : laidOut os = {
    positions :=
      (os.flatMap fun o => o.quad.corners.flatMap fun p => coordinates p.point).toArray
    normals := (os.flatMap fun o => o.quad.corners.flatMap fun _ => coordinates o.normal).toArray
    texture := (os.flatMap fun o => o.quad.corners.flatMap fun p => [p.u, p.v]).toArray
    indices := ((List.range os.length).flatMap fun k => triangles (4 * k)).toArray
    colors := (os.flatMap fun o => o.quad.corners.flatMap fun _ => o.color.toList).toArray } := by
  unfold laidOut ofQuads
  simp only [List.flatMap_map, List.length_map]
  rfl

/-- A stream of pieces of one length is cut into them again. -/
theorem group_flatMap {α β : Type} {l : List α} {f : α → List β} {w k : Nat}
    (hf : ∀ a, (f a).length = w) (hk : k < l.length) :
    group w k (l.flatMap f).toArray = f l[k] := by
  unfold group
  induction l generalizing k with
  | nil => cases hk
  | cons a rest ih =>
    rw [List.flatMap_cons]
    cases k with
    | zero => exact List.take_left' (hf a)
    | succ k =>
      have hdrop : w * (k + 1) = (f a).length + w * k := by
        rw [hf a, Nat.mul_succ, Nat.add_comm]
      show ((f a ++ rest.flatMap f).drop (w * (k + 1))).take w = _
      rw [hdrop, List.drop_length_add_append, List.getElem_cons_succ]
      exact ih (Nat.lt_of_succ_lt_succ hk)

/-- The six numbers of a quad, as long as they fit in 32 bits. -/
theorem map_toNat_triangles {k : Nat} (hk : k < 1073741824) :
    (triangles (4 * k)).map UInt32.toNat =
      [4 * k, 4 * k + 1, 4 * k + 2, 4 * k, 4 * k + 2, 4 * k + 3] := by
  have hbase : (UInt32.ofNat (4 * k)).toNat = 4 * k := by
    apply UInt32.toNat_ofNat_of_lt'
    show 4 * k < 4294967296
    omega
  have hnext : ∀ i : UInt32, i.toNat < 4 →
      (UInt32.ofNat (4 * k) + i).toNat = 4 * k + i.toNat := by
    intro i hi
    rw [UInt32.toNat_add, hbase]
    exact Nat.mod_eq_of_lt (by omega)
  simp only [triangles, List.map_cons, List.map_nil, hbase]
  rw [hnext 1 (by decide), hnext 2 (by decide), hnext 3 (by decide)]
  rfl

/-- Streams that are laid out from quads are made of them. -/
theorem holds_laidOut (os : List Outline) : Holds (laidOut os) os := by
  have hpoint (o : Outline) : (o.quad.corners.flatMap fun p => coordinates p.point).length = 12 :=
    o.quad.length_flatMap (w := 3) fun _ => rfl
  have hnormal (o : Outline) :
      (o.quad.corners.flatMap fun _ => coordinates o.normal).length = 12 :=
    o.quad.length_flatMap (w := 3) fun _ => rfl
  have htexture (o : Outline) : (o.quad.corners.flatMap fun p => [p.u, p.v]).length = 8 :=
    o.quad.length_flatMap (w := 2) fun _ => rfl
  have hcolor (o : Outline) : (o.quad.corners.flatMap fun _ => o.color.toList).length = 16 :=
    o.quad.length_flatMap (w := 4) fun _ => rfl
  have htriangles (k : Nat) : (triangles (4 * k)).length = 6 := rfl
  -- every stream has a fixed number of entries for a quad, so the groups lie at multiples of it
  rw [laidOut_eq]
  refine ⟨length_flatMap_of_length hpoint, length_flatMap_of_length hnormal,
    length_flatMap_of_length htexture, length_flatMap_of_length hcolor,
    (length_flatMap_of_length htriangles).trans (by rw [List.length_range]), ?_, ?_, ?_⟩
  · intro k hk hsmall
    rw [group_flatMap htriangles (hk.trans_eq List.length_range.symm), List.getElem_range]
    exact map_toNat_triangles hsmall
  · intro k hk
    exact ⟨os[k].quad.corners, os[k].goesRound_quad, group_flatMap hpoint hk,
      group_flatMap htexture hk⟩
  · intro k hk
    rw [group_flatMap hnormal hk, group_flatMap hcolor hk]
    exact ⟨os[k].quad.flatMap_const _, os[k].quad.flatMap_const _⟩

/-- More quads leave those that are there in their places. -/
theorem begins_laidOut (os more : List Outline) : Begins (laidOut os) (laidOut (os ++ more)) := by
  have hos : os <+: os ++ more := List.prefix_append os more
  -- the vertices are numbered on, so the triangles that are there keep their numbers
  have hrange : List.range os.length <+: List.range (os ++ more).length := by
    rw [List.length_append, List.range_add]
    exact List.prefix_append _ _
  rw [laidOut_eq, laidOut_eq]
  exact ⟨hos.flatMap _, hos.flatMap _, hos.flatMap _, hrange.flatMap _, hos.flatMap _⟩

/-! ## Calls -/

/-- A call on the streams. -/
inductive Call
  | quad (o : Outline)
  | face (f : Face) (cell : Vec3) (color : Rgba)
  | billboard (cell : Vec3) (color : Rgba)
  | reserve (quads : Nat)
  | clear

def call (m : MeshBuild) : Call → Checked MeshBuild
  | .quad o => return m.addQuad o.a o.b o.c o.d o.normal o.color
  | .face f cell color => return m.addFace f cell color
  | .billboard cell color => return m.addBillboard cell color
  | .reserve quads => m.reserve quads
  | .clear => return m.clear

def run (m : MeshBuild) (calls : List Call) : Checked MeshBuild := calls.foldlM call m

namespace Call

def isClear : Call → Bool
  | clear => true
  | _ => false

/-- The quads that a call adds: one for a side, four for a plant. -/
def outlines : Call → List Outline
  | quad o => [o]
  | face f cell color =>
    let (a, b, c, d) := f.corners cell
    [⟨a, b, c, d, f.normal, color⟩]
  | billboard cell color =>
    Outline.diagonal cell color false ++ Outline.diagonal cell color true
  | reserve _ => []
  | clear => []

/-- Whether there can be the room that a call asks for beside `q` quads. A quad takes 48 bytes in
the positions, and no more in any other stream. -/
def HasRoom (q : Nat) : Call → Prop
  | reserve quads => 48 * (q + quads) ≤ arrayLimit
  | _ => True

end Call

variable {calls : List Call} {c : Call}

/-- The quads given since the last call that cleared the streams, or since the start. -/
def given (calls : List Call) : List Outline :=
  (calls.rtakeWhile fun c => !c.isClear).flatMap Call.outlines

/-- No call asks for more room than there can be. -/
def Roomy (calls : List Call) : Prop :=
  ∀ earlier c, earlier ++ [c] <+: calls → c.HasRoom (given earlier).length

/-- A call adds its quads, or clears all of them. -/
theorem given_snoc (calls : List Call) (c : Call) :
    given (calls ++ [c]) = if c.isClear then [] else given calls ++ c.outlines := by
  unfold given
  rw [List.rtakeWhile_concat]
  cases c <;> simp [Call.isClear]

/-- What later calls give comes after what is given already, unless that is cleared away. -/
theorem given_append {later : List Call} (hlater : Call.clear ∉ later) :
    given (calls ++ later) = given calls ++ later.flatMap Call.outlines := by
  induction later using List.reverseRecOn with
  | nil => simp
  | append_singleton later c ih =>
    obtain ⟨hrest, hlast⟩ : Call.clear ∉ later ∧ Call.clear ≠ c := by simpa using hlater
    have hkept : c.isClear = false := by
      cases c with
      | clear => exact absurd rfl hlast
      | _ => rfl
    rw [← List.append_assoc, given_snoc, hkept, ih hrest]
    simp

/-- There is room for one more call if there was for those before and there is for it. -/
theorem roomy_snoc : Roomy (calls ++ [c]) ↔ Roomy calls ∧ c.HasRoom (given calls).length := by
  unfold Roomy
  constructor
  · intro h
    exact ⟨fun earlier c' hc => h earlier c' (hc.trans (List.prefix_append _ _)),
      h calls c List.prefix_rfl⟩
  · rintro ⟨h, hlast⟩ earlier c' hc
    rcases List.prefix_concat_iff.1 hc with heq | hc
    · obtain ⟨rfl, hsame⟩ := List.append_inj' heq rfl
      obtain rfl : c' = c := List.singleton_inj.1 hsame
      exact hlast
    · exact h earlier c' hc

/-! ## Runs -/

/-- Adding a quad lays out one more. -/
theorem addQuad_laidOut (o : Outline) :
    (laidOut os).addQuad o.a o.b o.c o.d o.normal o.color = laidOut (os ++ [o]) := by
  unfold laidOut
  rw [addQuad_ofQuads, List.map_append]
  rfl

/-- A side lays out its quad. -/
theorem addFace_laidOut (f : Face) (cell : Vec3) (color : Rgba) :
    (laidOut os).addFace f cell color = laidOut (os ++ (Call.face f cell color).outlines) := by
  unfold laidOut
  rw [addFace_ofQuads, List.map_append]
  rfl

/-- A plant lays out its four. -/
theorem addBillboard_laidOut (cell : Vec3) (color : Rgba) :
    (laidOut os).addBillboard cell color =
      laidOut (os ++ (Call.billboard cell color).outlines) := by
  unfold laidOut
  rw [addBillboard_ofQuads, List.map_append]
  rfl

/-- Reserving room changes nothing, if there can be that much. -/
theorem reserve_laidOut {quads : Nat} : (laidOut os).reserve quads = .ok m ↔
    48 * (os.length + quads) ≤ arrayLimit ∧ m = laidOut os := by
  unfold reserve
  rw [Checked.bind_eq_ok, (holds_laidOut os).positions]
  simp only [checkSize_eq_ok]
  unfold arrayLimit
  constructor
  · -- the size of the positions is what the bound is about
    rintro ⟨_, ⟨-, rfl⟩, h⟩
    split at h
    · exact ⟨by omega, (Checked.pure_eq_ok.1 h).symm⟩
    · cases h
  · rintro ⟨hroom, rfl⟩
    refine ⟨quads * 12, ⟨by omega, rfl⟩, ?_⟩
    rw [if_pos (by omega)]
    rfl

/-- A call on a mesh that is laid out leaves one that is laid out, if there is room. -/
theorem call_eq_ok : (laidOut os).call c = .ok m ↔
    c.HasRoom os.length ∧ m = laidOut (if c.isClear then [] else os ++ c.outlines) := by
  have htotal (m' : MeshBuild) : (Pure.pure m' : Checked MeshBuild) = .ok m ↔ True ∧ m = m' := by
    rw [Checked.pure_eq_ok, true_and, eq_comm]
  cases c with
  | quad o => exact addQuad_laidOut o ▸ htotal _
  | face f cell color => exact addFace_laidOut f cell color ▸ htotal _
  | billboard cell color => exact addBillboard_laidOut cell color ▸ htotal _
  | reserve quads =>
    show (laidOut os).reserve quads = .ok m ↔ _ ∧ m = laidOut (os ++ [])
    rw [List.append_nil]
    exact reserve_laidOut
  | clear => exact htotal _

/-- A run from the empty streams gives what is laid out for `given`. -/
theorem run_eq_ok : run .empty calls = .ok m ↔ Roomy calls ∧ m = laidOut (given calls) := by
  -- by the last call: the room is counted from the last clear on
  induction calls using List.reverseRecOn generalizing m with
  | nil =>
    have hroomy : Roomy [] := fun _ _ h => absurd (List.prefix_nil.1 h) (List.concat_ne_nil _ _)
    refine Checked.pure_eq_ok.trans ⟨?_, ?_⟩
    · rintro rfl
      exact ⟨hroomy, rfl⟩
    · rintro ⟨-, rfl⟩
      rfl
  | append_singleton calls c ih =>
    show (calls ++ [c]).foldlM call .empty = .ok m ↔ _
    rw [foldlM_snoc_eq_ok, roomy_snoc, given_snoc]
    constructor
    · rintro ⟨m₀, hm₀, hcall⟩
      obtain ⟨hroomy, rfl⟩ := ih.1 hm₀
      obtain ⟨hroom, rfl⟩ := call_eq_ok.1 hcall
      exact ⟨⟨hroomy, hroom⟩, rfl⟩
    · rintro ⟨⟨hroomy, hroom⟩, rfl⟩
      exact ⟨_, ih.2 ⟨hroomy, rfl⟩, call_eq_ok.2 ⟨hroom, rfl⟩⟩

/-- The five streams of a mesh grow in step. A run of calls gives a mesh unless it asks for more
room than there can be. The mesh holds the quads given since the last call that cleared it, and
any more calls leave these where they are until the next one that clears it. -/
theorem streams_in_step (calls : List Call) :
    ((∃ m, run .empty calls = .ok m) ↔ Roomy calls) ∧
    ∀ m, run .empty calls = .ok m →
      Holds m (given calls) ∧
      ∀ earlier later, calls = earlier ++ later → Call.clear ∉ later →
        ∃ m₀, run .empty earlier = .ok m₀ ∧ Begins m₀ m := by
  refine ⟨⟨?_, ?_⟩, ?_⟩
  · -- a run that comes to its end had the room
    rintro ⟨m, hm⟩
    exact (run_eq_ok.1 hm).1
  · intro hroomy
    exact ⟨laidOut (given calls), run_eq_ok.2 ⟨hroomy, rfl⟩⟩
  · -- its streams are laid out from what was given, and so were those of each earlier run
    intro m hm
    obtain ⟨hroomy, rfl⟩ := run_eq_ok.1 hm
    refine ⟨holds_laidOut (given calls), ?_⟩
    rintro earlier later rfl hlater
    have hearlier : Roomy earlier := fun before c hc =>
      hroomy before c (hc.trans (List.prefix_append earlier later))
    refine ⟨laidOut (given earlier), run_eq_ok.2 ⟨hearlier, rfl⟩, ?_⟩
    rw [given_append hlater]
    exact begins_laidOut _ _

/-- Room for ten quads, a side that is cleared away, a quad with a corner that is no number, and a
plant. Five quads are left, and the one before the plant is where it was. -/
theorem streams_in_step_plant :
    let cell : Vec3 := ⟨3, 5, 7⟩
    let odd : Outline :=
      ⟨⟨0 / 0, 0, 0⟩, ⟨1, 0, 0⟩, ⟨1, 1, 0⟩, ⟨0, 1, 0⟩, ⟨0, 0, 1⟩, ⟨9, 8, 7, 6⟩⟩
    let quads : List Call := [.reserve 10, .face .posX cell (.grey 1), .clear, .quad odd]
    let calls := quads ++ [.billboard cell (.grey 2)]
    ∃ m, run .empty calls = .ok m ∧ m.positions.size = 60 ∧ m.texture.size = 40 ∧
      (group 6 4 m.indices).map UInt32.toNat = [16, 17, 18, 16, 18, 19] ∧
      (∃ corners, odd.GoesRound corners ∧
        group 12 0 m.positions = corners.flatMap (fun p => coordinates p.point) ∧
        group 8 0 m.texture = corners.flatMap fun p => [p.u, p.v]) ∧
      group 16 0 m.colors = [9, 8, 7, 6, 9, 8, 7, 6, 9, 8, 7, 6, 9, 8, 7, 6] ∧
      ∃ m₀, run .empty quads = .ok m₀ ∧ Begins m₀ m := by
  intro cell odd quads calls
  obtain ⟨m, hm⟩ : ∃ m, run .empty calls = .ok m := ⟨_, rfl⟩
  obtain ⟨hholds, hbegins⟩ := (streams_in_step calls).2 m hm
  have hgiven : (given calls).length = 5 := rfl
  have hfirst : 0 < (given calls).length := by omega
  refine ⟨m, hm, ?_, ?_, ?_, ?_, ?_, ?_⟩
  · rw [hholds.positions, hgiven]
  · rw [hholds.texture, hgiven]
  · exact hholds.triangles 4 (by omega) (by omega)
  · exact hholds.corners 0 hfirst
  · exact (hholds.vertices 0 hfirst).2
  · exact hbegins quads [.billboard cell (.grey 2)] rfl (by simp)

end MeshBuild

end VoxelWorld
