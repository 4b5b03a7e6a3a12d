import VoxelWorld.Proofs.Numbering
import VoxelWorld.Proofs.World.Bounds
import VoxelWorld.Proofs.World.Steps

/-!
# Proofs.World.Inland — edits away from where coordinates end, and edits there

A flood computes the coordinates of the cells around each cell of a wave, whether or not there are
such cells. So an edit needs room around its column, as many steps as light that is taken back and
what is spread after that can go.

* `Leeway d n p` says that there are `n` steps of room around a position of the world.
* `rangedVolume` makes of this the reach of the floods of a world, and `setBlock_inland` says that
  an edit with `floodReach` steps of room does not stop. It asks nothing of other chunks, which may
  lie where coordinates end.
* `edits_inland` is the statement for all states of a world with the usual chunks and the usual
  ground.
* `setBlock_stops` is what happens where there is no step of room: a bright block is written, and
  its light does not get around.
-/

namespace VoxelWorld

open Light (directions floodReach)

variable {d : Dims} {p : Pos} {m n : Nat} {a b : Int}

/-! ## Room -/

/-- `n` steps from a number lead to coordinates. -/
def FitsAround (a : Int) (n : Nat) : Prop := FitsCoord (a - n) ∧ FitsCoord (a + n)

/-- What is left of the room after some steps. -/
theorem FitsAround.within (h : FitsAround a n) (hlo : a + m ≤ b + n) (hhi : b + m ≤ a + n) :
    FitsAround b m := by
  rcases h with ⟨⟨hlo', -⟩, ⟨-, hhi'⟩⟩
  exact ⟨⟨by omega, by omega⟩, ⟨by omega, by omega⟩⟩

/-- All numbers in between fit. -/
theorem FitsAround.fits (h : FitsAround a n) (hlo : a ≤ b + n) (hhi : b ≤ a + n) : FitsCoord b := by
  rcases h with ⟨⟨hlo', -⟩, ⟨-, hhi'⟩⟩
  exact ⟨by omega, by omega⟩

/-- The position lies in the height of the world, and `n` steps along the ground lead to
coordinates. -/
structure Leeway (d : Dims) (n : Nat) (p : Pos) : Prop where
  x : FitsAround p.x n
  y : 0 ≤ p.y ∧ p.y < d.y
  z : FitsAround p.z n

namespace Leeway

theorem fewer (hmn : m ≤ n) (h : Leeway d n p) : Leeway d m p :=
  ⟨h.x.within (by omega) (by omega), h.y, h.z.within (by omega) (by omega)⟩

theorem fits (h : Leeway d n p) : FitsCoord p.x ∧ FitsCoord p.z :=
  ⟨h.x.fits (by omega) (by omega), h.z.fits (by omega) (by omega)⟩

/-- The chunk of a position is no larger than the room around it. -/
theorem roomy (hd : d.Valid) (h : Leeway d n p) (hx : d.x ≤ n) (hz : d.z ≤ n) :
    Roomy d (p.home d) := by
  rcases (Pos.home_eq_iff hd).1 (rfl : p.home d = p.home d) with ⟨hpx, hpz⟩
  constructor
  · rw [hd.width]
    exact h.x.fits (by omega) (by omega)
  · rw [hd.width]
    exact h.x.fits (by omega) (by omega)
  · rw [hd.depth]
    exact h.z.fits (by omega) (by omega)
  · rw [hd.depth]
    exact h.z.fits (by omega) (by omega)

end Leeway

namespace Light

/-- A step goes one along an axis at most. -/
theorem directions_le {o : Int × Int × Int} (ho : o ∈ directions) :
    (-1 ≤ o.1 ∧ o.1 ≤ 1) ∧ (-1 ≤ o.2.1 ∧ o.2.1 ≤ 1) ∧ (-1 ≤ o.2.2 ∧ o.2.2 ≤ 1) := by
  have hall : ∀ o ∈ directions,
      (-1 ≤ o.1 ∧ o.1 ≤ 1) ∧ (-1 ≤ o.2.1 ∧ o.2.1 ≤ 1) ∧ (-1 ≤ o.2.2 ∧ o.2.2 ≤ 1) := by decide
  exact hall o ho

/-- Light of more than one level does not get around a position without a step in some direction. -/
theorem spread_stops {V : Type} [LightVolume V] {vol : V} {reg : Registry} {k : LightKind} {v : Nat}
    (hv : 2 ≤ v) (hwritten : ∀ vol', LightVolume.setLight vol p k (min v maxLight) = .ok vol' →
      LightVolume.light vol' p k = .ok (min (min v maxLight) maxLight))
    {o : Int × Int × Int} (ho : o ∈ directions) {e : Fault} (hstep : step p o = .error e)
    (vol' : V) : spread reg vol p k v ≠ .ok vol' := by
  intro h
  have hlevel : 2 ≤ min v maxLight := by
    unfold maxLight
    omega
  rw [Nat.min_assoc, Nat.min_self] at hwritten
  unfold spread at h
  split at h
  · rename_i hzero
    omega
  · rename_i t ht
    rw [ht] at hlevel hwritten
    obtain ⟨vol₁, hset, hwaves⟩ := Checked.bind_eq_ok.1 h
    obtain ⟨t, rfl⟩ : ∃ t', t = t' + 1 := ⟨t - 1, by omega⟩
    -- the first wave is the origin, and all its neighbours have their turn
    unfold spreadWaves at hwaves
    obtain ⟨s, hs, -⟩ := Checked.bind_eq_ok.1 hwaves
    rw [List.foldlM_cons] at hs
    obtain ⟨s₁, hround, -⟩ := Checked.bind_eq_ok.1 hs
    unfold raiseAround at hround
    obtain ⟨level, hread, hround⟩ := Checked.bind_eq_ok.1 hround
    cases (hwritten vol₁ hset).symm.trans hread
    rw [if_pos rfl] at hround
    obtain ⟨s₂, s₃, hraise⟩ := Checked.exists_of_mem_foldlM hround ho
    obtain ⟨q, hq, -⟩ := Checked.bind_eq_ok.1 hraise
    cases hstep.symm.trans hq

end Light

/-- The coordinates of chunks end far from where those of blocks do, if chunks are wider than a
block. -/
theorem offset_home_ensures {faulty : Prop} (hwide : 2 ≤ d.x ∧ 2 ≤ d.z)
    (hx : FitsCoord p.x) (hz : FitsCoord p.z) {o : Int × Int} (ho : o ∈ neighborOffsets) :
    Ensures faulty ((p.home d).offset o.1 o.2) (· = (p.home d).beside o) := by
  -- chunks are at least two cells wide, so their coordinates use half the range
  have hhalf : ∀ (a : Int) (n : Nat), 2 ≤ n → FitsCoord a →
      -1073741824 ≤ a / n ∧ a / n ≤ 1073741823 := by
    rintro a n hn ⟨hlo, hhi⟩
    have hpos : (0 : Int) < n := by omega
    constructor
    · rw [Int.le_ediv_iff_mul_le hpos]
      omega
    · have hlt : a / n < 1073741824 := (Int.ediv_lt_iff_lt_mul hpos).2 (by omega)
      omega
  rcases neighborOffsets_le ho with ⟨hox, hoz⟩
  have hcx : -1073741824 ≤ (p.home d).x ∧ (p.home d).x ≤ 1073741823 := hhalf p.x d.x hwide.1 hx
  have hcz : -1073741824 ≤ (p.home d).z ∧ (p.home d).z ≤ 1073741823 := hhalf p.z d.z hwide.2 hz
  unfold ChunkCoord.offset
  apply (checkCoord_ensures _ fun hn => absurd ⟨by omega, by omega⟩ hn).bind_eq
  apply (checkCoord_ensures _ fun hn => absurd ⟨by omega, by omega⟩ hn).bind_eq
  exact Ensures.pure rfl

namespace World

variable {w w₀ : World} {cell : Cell} {chunk : Chunk} {k : LightKind} {v : Nat} {id old : BlockId}
  {faulty : Prop}

/-! ## Floods within reach -/

/-- A write changes cells and dirty flags only, wherever it goes. -/
theorem writeLight_framed (h : w.Sound) (hnew : ∀ c e, Chunk.new c w.dims = .error e → faulty)
    (hsplit : ∀ e, p.split w.dims = .error e → faulty)
    (hoff : ∀ o ∈ neighborOffsets, Ensures faulty ((p.home w.dims).offset o.1 o.2)
      (· = (p.home w.dims).beside o)) :
    Ensures faulty (w.writeLight p k v) fun r => Framed w r.2 := by
  unfold writeLight
  cases hs : p.split w.dims with
  | error e => exact hsplit e hs
  | ok o =>
    cases o with
    | none => exact Ensures.pure (Framed.refl h)
    | some cell =>
      refine Ensures.bind_eq (a := some cell) (Ensures.ok rfl) ?_
      simp only
      -- a level that is there already is not written, and then no neighbour is marked
      cases htarget : w.lightTarget? cell k v with
      | none => exact Ensures.pure (Framed.refl h)
      | some id =>
        rcases of_lightTarget? htarget with ⟨hid, chunk, hget, hfresh⟩
        have hc : w.chunkAt? cell.chunk = some chunk := chunkAt?_eq_some.2 ⟨id, hid, hget⟩
        have hframed : Framed w (w.modify id (repaint cell k v)) := by
          rw [modify_eq_modifyAt hid]
          refine framed_modifyAt h coord_repaint hc kept_repaint fun hf => ?_
          rw [hfresh] at hf
          cases hf
        obtain ⟨hx, hz⟩ := h.cell_lt hs
        rcases (Pos.split_eq_some h.valid).1 hs with ⟨rfl, -⟩
        have hmark : Ensures faulty ((w.modify id (repaint (p.cell w.dims) k v)).markNeighborsDirty
            (p.home w.dims) (p.cell w.dims).x (p.cell w.dims).z) fun w' =>
              Framed (w.modify id (repaint (p.cell w.dims) k v)) w' :=
          (markNeighborsDirty_of_offset hframed.sound hnew hoff hx hz).mono fun _ hw' => hw'.1
        apply hmark.bind
        intro w' hw'
        exact Ensures.pure (hframed.trans hw')

/-- The floods of a sound world go where there is room for them. -/
theorem rangedVolume (hd : w₀.dims.Valid) (hwide : 2 ≤ w₀.dims.x ∧ 2 ≤ w₀.dims.z)
    (hnew : ∀ c e, Chunk.new c w₀.dims = .error e → faulty) (k : LightKind) :
    RangedVolume World faulty (Leeway w₀.dims) (fun p => FitsCoord p.x ∧ FitsCoord p.z)
      (fun p => 0 ≤ p.y ∧ p.y < w₀.dims.y) k (fun _ _ => True) (Framed w₀) where
  allowance := ⟨fun _ => trivial, fun _ _ => trivial, fun _ _ => trivial⟩
  fewer := Leeway.fewer
  -- a step goes one column further at most, so it costs one column of leeway
  walked {n p q} hp hadj hy := by
    rcases hadj with ⟨o, ho, rfl⟩
    rcases Light.directions_le ho with ⟨hox, -, hoz⟩
    exact ⟨hp.x.within (by simp only [Light.shift]; omega) (by simp only [Light.shift]; omega), hy,
      hp.z.within (by simp only [Light.shift]; omega) (by simp only [Light.shift]; omega)⟩
  here := Leeway.fits
  beside {p q} hp hadj := by
    rcases hadj with ⟨o, ho, rfl⟩
    rcases Light.directions_le ho with ⟨hox, -, hoz⟩
    exact ⟨hp.x.fits (by simp only [Light.shift]; omega) (by simp only [Light.shift]; omega),
      hp.z.fits (by simp only [Light.shift]; omega) (by simp only [Light.shift]; omega)⟩
  step {p o} hp ho := by
    rcases Light.directions_le ho with ⟨hox, hoy, hoz⟩
    have hy := hp.y
    have hle := hd.y_le
    unfold Light.step Pos.offset
    apply (checkCoord_ensures _ fun hn => absurd (hp.x.fits (by omega) (by omega)) hn).bind_eq
    apply (checkCoord_ensures _ fun hn => absurd ⟨by omega, by omega⟩ hn).bind_eq
    apply (checkCoord_ensures _ fun hn => absurd (hp.z.fits (by omega) (by omega)) hn).bind_eq
    exact Ensures.pure rfl
  light {w p} hw hp := by
    refine Ensures.intro (fun _ _ _ => trivial) fun e he => ?_
    exact absurd he (lightAt_ne_error hp.1 hp.2 hw.sound.valid e)
  block {w p} hw hp := by
    refine Ensures.intro (fun _ _ => trivial) fun e he => ?_
    exact absurd he (blockAt_ne_error hp.1 hp.2 hw.sound.valid e)
  -- where light is accepted there is a cell, so the height of the position is known
  accepts {w p} hw hp := by
    refine Ensures.intro (fun b hb hyes => ?_) fun e he => ?_
    · subst hyes
      have hacc : w.field.accepts p = true := by
        show (w.acceptsLight p).toOption.getD false = true
        rw [show w.acceptsLight p = .ok true from hb]
        rfl
      rw [← hw.dims]
      exact ((inChunks_iff hw.sound.valid).1 ((hw.sound.accepts_iff p).1 hacc)).2.1
    · exact absurd he (acceptsLight_ne_error hp.1 hp.2 hw.sound.valid e)
  setLight {w p v} hw hp _ := by
    rcases hp.fits with ⟨hx, hz⟩
    show Ensures faulty (do
      let r ← w.writeLight p k v
      return r.2) _
    have hwrite : Ensures faulty (w.writeLight p k v) fun r => Framed w r.2 := by
      rw [← hw.dims] at hnew hwide
      refine writeLight_framed hw.sound hnew (fun e he => ?_) fun o ho => ?_
      · exact absurd he (Pos.split_ne_error hw.sound.valid hx hz e)
      · exact offset_home_ensures hwide hx hz ho
    apply hwrite.bind
    intro r hr
    exact Ensures.pure (hw.trans hr)

/-! ## Edits -/

/-- Placing a block in a generated chunk is within a frame. -/
theorem framed_rebuild (h : w.Sound) (hc : w.chunkAt? cell.chunk = some chunk)
    (hfresh : chunk.isFresh = false) : Framed w (w.modifyAt cell.chunk (rebuild cell id)) := by
  refine framed_modifyAt h (fun _ => rfl) hc kept_rebuild fun hf => ?_
  rw [hfresh] at hf
  cases hf

/-- Light follows an edit as far as there is room. -/
theorem afterEdit_inland (h : w.Sound) (hwide : 2 ≤ w.dims.x ∧ 2 ≤ w.dims.z)
    (hnew : ∀ c e, Chunk.new c w.dims = .error e → faulty)
    (hs : p.split w.dims = .ok (some cell)) (hc : w.chunkAt? cell.chunk = some chunk)
    (hfresh : chunk.isFresh = false) (hp : Leeway w.dims floodReach p) :
    Ensures faulty ((w.modifyAt cell.chunk (rebuild cell id)).afterEdit p cell old id)
      (Framed w) := by
  have hframed : Framed w (w.modifyAt cell.chunk (rebuild cell id)) := framed_rebuild h hc hfresh
  obtain ⟨hx, hz⟩ := h.cell_lt hs
  rcases (Pos.split_eq_some h.valid).1 hs with ⟨rfl, -⟩
  have hoff : ∀ o ∈ neighborOffsets, Ensures faulty ((p.home w.dims).offset o.1 o.2)
      (· = (p.home w.dims).beside o) :=
    fun o ho => offset_home_ensures hwide hp.fits.1 hp.fits.2 ho
  refine afterEdit_ranged (rangedVolume h.valid hwide hnew) hp ?_
  apply (markNeighborsDirty_of_offset hframed.sound hnew hoff hx hz).mono
  rintro w₁ ⟨h₁, -⟩
  have hto : Framed w w₁ := hframed.trans h₁
  refine ⟨hto, fun y hy => ⟨hp.x, ?_, hp.z⟩⟩
  have hheight := h.valid.height
  rw [hto.dims] at hy
  exact ⟨by simp only; omega, by simp only; omega⟩

/-- An edit with room around its column does not stop, whatever the other chunks are. -/
theorem setBlock_inland (h : w.Sound) (hwide : 2 ≤ w.dims.x ∧ 2 ≤ w.dims.z)
    (hnew : ∀ c e, Chunk.new c w.dims = .error e → faulty) (hx : FitsCoord p.x)
    (hz : FitsCoord p.z) (hp : 0 ≤ p.y ∧ p.y < w.dims.y → Leeway w.dims floodReach p)
    (hroom : 0 ≤ p.y ∧ p.y < w.dims.y → ¬ Roomy w.dims (p.home w.dims) → faulty)
    (hgen : 0 ≤ p.y ∧ p.y < w.dims.y → ∀ blocks e,
      w.generators.runAll (p.home w.dims) w.dims blocks = .error e → faulty) :
    Ensures faulty (w.setBlock p id) fun r => r.2.Sound := by
  refine setBlock_ensures (P := fun w₁ => w₁.Sound ∧ w₁.dims = w.dims) ?_ ?_ ?_ ?_ ?_
  · intro e he
    exact absurd he (Pos.split_ne_error h.valid hx hz e)
  · -- above and below the world there is no cell, and nothing happens
    intro _
    exact h
  · intro cell hs
    rcases (Pos.split_eq_some h.valid).1 hs with ⟨rfl, hy, -⟩
    apply (generate_ensures h (hnew _) (hroom hy) (hgen hy)).mono
    rintro r (⟨hgenerated, heq⟩ | hfilled)
    · rw [heq]
      exact ⟨⟨h, rfl⟩, hgenerated⟩
    · exact ⟨⟨hfilled.sound, hfilled.dims⟩, hfilled.generated.2 (.inl rfl)⟩
  · intro cell w₁ chunk _ hw₁ _ _ _
    exact hw₁.1
  · rintro cell w₁ chunk hs ⟨h₁, hdims⟩ hc hfresh _
    have hroom := hp ((Pos.split_eq_some h.valid).1 hs).2.1
    rw [← hdims] at hnew hwide hroom hs
    exact (afterEdit_inland h₁ hwide hnew hs hc hfresh hroom).mono fun _ hw' => hw'.sound

/-! ## Reached worlds -/

/-- Whatever calls led to it, no edit stops in a world from here on that has room around its column.
Above and below the world none is needed. -/
def EditsInland (w₀ : World) : Prop :=
  ∀ calls w, (∀ call ∈ calls, call.Streams) → w₀.performAll calls = .ok w →
    ∀ (p : Pos) (id : BlockId), FitsCoord p.x → FitsCoord p.z →
      (0 ≤ p.y ∧ p.y < w₀.dims.y → Leeway w₀.dims floodReach p) →
      ∃ r, w.setBlock p id = .ok r

variable {config : WorldConfig} {reg : Registry} {rise : Int → Int → Checked Int}

/-- A new world that saves no chunks is pristine. -/
theorem pristine_newOver (h : config.validate = .ok ()) (hsave : config.saveDir = none) :
    (newOver config reg rise).Pristine where
  valid := h
  files := by
    show config.saveDir.map ChunkFiles.mk = none
    rw [hsave]
    rfl
  store := rfl

/-- Chunks no wider than the room that floods need, and ground that can be filled everywhere. -/
theorem editsInland_of_passable (h : config.validate = .ok ()) (hsave : config.saveDir = none)
    (hx : 2 ≤ config.chunk.x ∧ config.chunk.x ≤ floodReach)
    (hz : 2 ≤ config.chunk.z ∧ config.chunk.z ≤ floodReach)
    (hcells : config.chunk.cells ≤ arrayLimit)
    (hpass : ∀ c, Charted config.chunk c → Passable config.terrain rise config.chunk c) :
    (newOver config reg rise).EditsInland := by
  intro calls w hcalls hrun p id hpx hpz hp
  have hd : config.chunk.Valid := Dims.Valid.of_validate h
  have hstart : (newOver config reg rise).Pristine := pristine_newOver h hsave
  have hall : Ensures True ((newOver config reg rise).performAll calls) fun w' =>
      Ample True (fun _ => True) w' ∧ SameRules (newOver config reg rise) w' ∧ True :=
    performAll_induct (Ample.of_pristine hstart) (fun call hcall => (hcalls call hcall).around)
      (fun _ _ _ _ => trivial) (fun _ _ _ _ _ => trivial) trivial
  -- no call changed the dimensions or the passes
  obtain ⟨-, hrules, -⟩ := hall.of_eq_ok hrun
  have hdims : w.dims = config.chunk := hrules.dims
  have hgens : w.generators = .standardOver config.seed config.terrain reg rise := hrules.generators
  have hroom : 0 ≤ p.y ∧ p.y < config.chunk.y → Roomy config.chunk (p.home config.chunk) :=
    fun hy => (hp hy).roomy hd hx.2 hz.2
  -- no place of the world stops an edit this far inland
  have hedit : Ensures False (w.setBlock p id) fun r => r.2.Sound := by
    apply setBlock_inland hrules.sound
    · rw [hdims]
      exact ⟨hx.1, hz.1⟩
    · intro c e he
      rw [hdims] at he
      exact Checked.ne_error ((Chunk.new_isOk_iff hd.z_pos).2 hcells) e he
    · exact hpx
    · exact hpz
    · rw [hdims]
      exact hp
    · rw [hdims]
      exact fun hy hno => hno (hroom hy)
    · rw [hdims, hgens]
      intro hy blocks e he
      exact Checked.ne_error ((GeneratorSet.runAll_isOk_iff hd ((hroom hy).charted hd) blocks).2
        (hpass _ ((hroom hy).charted hd))) e he
  obtain ⟨r, hr, -⟩ := hedit.exists_ok not_false
  exact ⟨r, hr⟩

/-- With chunks and ground as they are by default and no save directory, no edit stops that has
room around its column, as long as the ground rises and falls by no more than the amplitude. -/
theorem edits_inland (config : WorldConfig) (reg : Registry) (hchunk : config.chunk = .standard)
    (hterrain : config.terrain = {}) (hsave : config.saveDir = none) :
    (RisesWithin (Terrain.new config.seed config.terrain reg).rise 18 →
      (World.new config reg).EditsInland) ∧
    ∀ rise, RisesWithin rise 18 → (newOver config reg rise).EditsInland := by
  -- the standard numbers leave room for rises of eighteen
  have hover : ∀ rise, RisesWithin rise 18 → (newOver config reg rise).EditsInland := by
    intro rise hrise
    have hvalid : config.validate = .ok () := by
      unfold WorldConfig.validate
      rw [hchunk]
      rfl
    refine editsInland_of_passable hvalid hsave ?_ ?_ ?_ fun c hc => ?_
    · rw [hchunk]
      decide
    · rw [hchunk]
      decide
    · rw [hchunk]
      decide
    · refine passable_of_reach (Dims.Valid.of_validate hvalid) hc hrise ?_ ?_ ?_ ?_ ?_
      all_goals
        rw [hterrain]
        decide
  refine ⟨fun hrise => ?_, hover⟩
  rw [new_eq_newOver]
  exact hover _ hrise

/-- The hollow of one chunk, row by row: where it begins and where it ends. -/
def hollow : List (Int × Int) :=
  [(1, 11), (1, 9), (1, 8), (1, 7), (1, 6), (2, 5), (2, 5), (2, 4), (2, 4), (2, 5), (2, 5), (2, 6),
    (1, 7), (1, 9), (1, 11), (1, 13)]

/-- The ground that seed 3 gives to the chunk `(-84, -28)`, and flat ground around it. -/
def hollowRise (x z : Int) : Checked Int :=
  if (-1344 ≤ x ∧ x < -1328) ∧ -448 ≤ z ∧ z < -432 then
    let (start, stop) := hollow.getD (z + 448).toNat (1, 0)
    .ok (if start ≤ x + 1344 ∧ x + 1344 ≤ stop then -16 else -15)
  else .ok 0

/-- The ground of the hollow is within the limit. -/
theorem hollowRise_within : RisesWithin hollowRise 18 := by
  intro x z _ _
  have hlow : ∀ c : Prop, [Decidable c] →
      -18 ≤ (if c then (-16 : Int) else -15) ∧ (if c then (-16 : Int) else -15) ≤ 18 := by
    intro c _
    split <;> decide
  unfold hollowRise
  split
  · exact ⟨_, rfl, hlow _⟩
  · exact ⟨0, rfl, by decide⟩

/-- A torch above the hollow. -/
theorem edits_inland_hollow :
    let config : WorldConfig := { seed := 3 }
    RisesWithin hollowRise 18 ∧
      ∃ r, (newOver config .builtin hollowRise).setBlock ⟨-1340, 64, -440⟩ 10 = .ok r := by
  intro config
  refine ⟨hollowRise_within, ?_⟩
  refine (edits_inland config .builtin rfl rfl rfl).2 hollowRise hollowRise_within [] _ nofun rfl
    ⟨-1340, 64, -440⟩ 10 (by decide) (by decide) fun _ => ?_
  exact ⟨⟨by decide, by decide⟩, by decide, ⟨by decide, by decide⟩⟩

/-! ## Where coordinates end -/

/-- An edit leaves its block, in a generated chunk. -/
theorem setBlock_leaves (h : w.Sound) (hs : p.split w.dims = .ok (some cell)) :
    Ensures True (w.setBlock p id) fun r => r.2.Sound ∧ r.2.registry = w.registry ∧
      InChunks r.2.dims r.2.Generated p ∧ r.2.field.block p = id := by
  refine setBlock_ensures (P := fun w₁ => w₁.Sound ∧ w₁.dims = w.dims ∧ w₁.registry = w.registry)
    (fun _ _ => trivial) ?_ ?_ ?_ ?_
  · intro hnone
    rw [hs] at hnone
    cases hnone
  · intro cell' _
    refine (generate_ensures h (fun _ _ => trivial) (fun _ => trivial) fun _ _ _ => trivial).mono ?_
    -- the chunk of the position was there, or it is now
    rintro r (⟨hgen, heq⟩ | hfilled)
    · rw [heq]
      exact ⟨⟨h, rfl, rfl⟩, hgen⟩
    · exact ⟨⟨hfilled.sound, hfilled.dims, hfilled.registry⟩, hfilled.generated.2 (.inl rfl)⟩
  · rintro cell' w₁ chunk hs' ⟨h₁, hdims, hreg⟩ hc hfresh hsame
    rw [← hdims] at hs'
    exact ⟨h₁, hreg, ⟨cell', hs', chunk, hc, hfresh⟩, block_of_same h₁ hs' hc hsame⟩
  · rintro cell' w₁ chunk hs' ⟨h₁, hdims, hreg⟩ hc hfresh _
    rw [← hdims] at hs'
    have hspace : Spacious True w₁.dims w₁.Generated := ⟨fun _ _ _ => trivial, fun _ _ _ => trivial⟩
    apply (afterEdit_ensures h₁ hspace hs' hc hfresh).mono
    intro w' hedited
    have hto : Framed w₁ w' := hedited.tracked.toFramed
    refine ⟨hto.sound, hto.registry.trans hreg, ?_, hedited.block_self⟩
    rw [hto.dims, hto.generated_eq]
    exact ⟨cell', hs', chunk, hc, hfresh⟩

/-- What is written into a generated chunk is read there. -/
theorem lightAt_setLight (h : w.Sound) (hp : InChunks w.dims w.Generated p) :
    Ensures True (LightVolume.setLight w p k v) fun w' =>
      w'.lightAt p k = .ok (min v maxLight) := by
  show Ensures True (do
    let r ← w.writeLight p k v
    return r.2) _
  have hspace : Spacious True w.dims w.Generated := ⟨fun _ _ _ => trivial, fun _ _ _ => trivial⟩
  apply (writeLight_ensures h hspace (fun _ hc => hc) hp).bind
  rintro r ⟨htracked, hfield⟩
  apply Ensures.pure
  have hto : Framed w r.2 := htracked.toFramed
  rw [← hto.dims, ← hto.generated_eq] at hp
  rw [lightAt_of_inChunks hto.sound.valid hp, hfield, LightField.level_put_self]

/-- The light of a bright block does not get around where coordinates end beside it. -/
theorem afterEdit_stops (h : w.Sound) (hs : p.split w.dims = .ok (some cell))
    (hc : w.chunkAt? cell.chunk = some chunk) (hfresh : chunk.isFresh = false)
    (hbright : 2 ≤ w.registry.luminance id) {o : Int × Int × Int} (ho : o ∈ directions) {e : Fault}
    (hstep : Light.step p o = .error e) :
    Ensures True ((w.modifyAt cell.chunk (rebuild cell id)).afterEdit p cell old id)
      fun _ => False := by
  have hin : InChunks w.dims w.Generated p := ⟨cell, hs, chunk, hc, hfresh⟩
  have hframed : Framed w (w.modifyAt cell.chunk (rebuild cell id)) := framed_rebuild h hc hfresh
  obtain ⟨hx, hz⟩ := h.cell_lt hs
  have hspace : Spacious True w.dims fun _ => True := ⟨fun _ _ _ => trivial, fun _ _ _ => trivial⟩
  -- whatever is written before the new light is spread, the world keeps its frame
  have hsafe : SafeVolume World True (fun _ => True) (Framed w) := by
    refine SafeVolume.anywhere trivial fun {w₁} h₁ p k v => ?_
    show Ensures True (do
      let r ← w₁.writeLight p k v
      return r.2) _
    refine (writeLight_framed h₁.sound (fun _ _ _ => trivial) (fun _ _ => trivial) fun o ho =>
      offset_ensures h₁.sound.valid (fun _ => trivial) ho).bind fun r hr => ?_
    exact Ensures.pure (h₁.trans hr)
  unfold afterEdit
  apply (markNeighborsDirty_ensures hframed.sound hspace trivial hx hz).bind
  rintro w₁ ⟨h₁, -⟩
  refine (Light.refreshColumn_safe hsafe (hframed.trans h₁) fun _ _ => trivial).bind fun w₂ h₂ => ?_
  unfold refreshBlockLight
  refine (retractOld_ranged (Light.ranged_of_safe hsafe) h₂ trivial).bind fun w₃ h₃ => ?_
  -- the levels that were there do not matter: the new block is brighter than none
  rw [← h₃.registry] at hbright
  rw [← h₃.dims, ← h₃.generated_eq] at hin
  unfold spreadNew
  refine Ensures.ite (fun _ => ?_) fun hdark => absurd hbright (by omega)
  refine Ensures.intro (fun w' hw' => ?_) fun _ _ => trivial
  exact Light.spread_stops hbright (fun w' hset => (lightAt_setLight h₃.sound hin).of_eq_ok hset) ho
    hstep w' hw'

/-- No bright block can be put in the place of another one where coordinates end beside it. -/
theorem setBlock_stops (h : w.Sound) (hp : InChunks w.dims w.Generated p)
    (hne : w.field.block p ≠ id) (hbright : 2 ≤ w.registry.luminance id) {o : Int × Int × Int}
    (ho : o ∈ directions) {e : Fault} (hstep : Light.step p o = .error e) (r : Bool × World) :
    w.setBlock p id ≠ .ok r := by
  rcases hp with ⟨cell, hs, chunk, hc, hfresh⟩
  -- the chunk is there and the block differs, so the edit goes through to the light
  have hstop : Ensures True (w.setBlock p id) fun _ => False := by
    refine setBlock_ensures (P := (· = w)) (fun _ _ => trivial) ?_ ?_ ?_ ?_
    · intro hnone
      rw [hs] at hnone
      cases hnone
    · intro cell' hs'
      cases hs.symm.trans hs'
      rw [generate_of_generated ⟨chunk, hc, hfresh⟩]
      exact Ensures.ok ⟨rfl, chunk, hc, hfresh⟩
    · rintro cell' w₁ chunk' hs' rfl hc' - hsame
      cases hs.symm.trans hs'
      cases hc.symm.trans hc'
      exact hne (block_of_same h hs hc hsame)
    · rintro cell' w₁ chunk' hs' rfl hc' hfresh' -
      exact afterEdit_stops h hs' hc' hfresh' hbright ho hstep
  intro hr
  exact hstop.of_eq_ok hr

/-- Stone and then a torch beside the end of the coordinates: one of the two edits stops, although
all of them are to work after every run that did. -/
theorem torch_stops_at_end :
    let w₀ := World.new {} .builtin
    let p : Pos := ⟨2147483647, 64, 0⟩
    ¬ ∀ calls, calls = [] ∨ calls = [Call.edit p 1] → ∀ w, w₀.performAll calls = .ok w →
      ∀ id, ∃ r, w.setBlock p id = .ok r := by
  intro w₀ p hall
  have hstart : w₀.Pristine := ⟨rfl, rfl, rfl⟩
  obtain ⟨r, hr⟩ := hall [] (.inl rfl) w₀ rfl 1
  have hnone : w₀.performAll [] = .ok w₀ := rfl
  have hrun : w₀.performAll [.edit p 1] = .ok r.2 := performAll_snoc hnone (perform_edit hr)
  have hs : p.split w₀.dims = .ok (some (p.cell .standard)) :=
    (Pos.split_eq_some hstart.sound.valid).2 ⟨rfl, by decide, by decide, by decide⟩
  obtain ⟨hsound, hreg, hin, hblock⟩ := (setBlock_leaves hstart.sound hs).of_eq_ok hr
  obtain ⟨r', hr'⟩ := hall [.edit p 1] (.inr rfl) r.2 hrun 10
  -- east of the last column there is no coordinate, and the torch shines there
  have hstep : Light.step p (1, 0, 0) = .error .overflow := rfl
  have hbright : 2 ≤ r.2.registry.luminance 10 := by
    rw [hreg]
    show 2 ≤ (Registry.builtin.get 10).luminance
    rw [Registry.get_builtin]
    unfold Registry.described Registry.lastWith
    rw [Registry.numbered_builtin]
    decide
  refine setBlock_stops hsound hin ?_ hbright (by decide) hstep r' hr'
  rw [hblock]
  decide

end World

end VoxelWorld
