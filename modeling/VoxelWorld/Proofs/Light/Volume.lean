import VoxelWorld.Proofs.Ensures
import VoxelWorld.Proofs.Light.Levels

/-!
# Proofs.Light.Volume — what a volume shows, and its laws

A volume hides how blocks and light are kept. All that the light algorithms can see of it
is its `LightField`: which positions accept light, the blocks, and the levels of both channels.

* `LightVolume.field` reads the field off a volume.
* `VolumeLaws` says when a volume behaves: inside a region of positions nothing stops
  unless `faulty` holds, and writing a level changes this one level of the field.
* `Shows` says that a volume shows a given field but for the levels of one channel; it is
  what the loops of the floods keep.
-/

namespace VoxelWorld

/-- What can be read off a volume. -/
structure LightField where
  accepts : Pos → Bool
  block : Pos → BlockId
  level : LightKind → Light.Levels

namespace LightField

/-- The field with other levels in one channel. -/
def withLevels (f : LightField) (k : LightKind) (L : Light.Levels) : LightField :=
  { f with level := Function.update f.level k L }

/-- The field with one level written, at most as bright as `maxLight`. -/
def put (f : LightField) (k : LightKind) (p : Pos) (v : Nat) : LightField :=
  f.withLevels k (Function.update (f.level k) p (min v maxLight))

/-- The field with another block at a position. -/
def withBlock (f : LightField) (p : Pos) (id : BlockId) : LightField :=
  { f with block := Function.update f.block p id }

/-- The cells that light enters. -/
def Conducts (reg : Registry) (f : LightField) (p : Pos) : Prop :=
  f.accepts p = true ∧ reg.isTranslucent (f.block p) = true

/-- Which cells let light in depends on blocks and accepted positions alone. -/
theorem conducts_congr {reg : Registry} {f g : LightField} (hacc : g.accepts = f.accepts)
    (hblock : g.block = f.block) : g.Conducts reg = f.Conducts reg := by
  unfold Conducts
  rw [hacc, hblock]

/-- An edit decides for its own cell only whether light enters. -/
theorem conducts_iff_of_edit {reg : Registry} {f g : LightField} {p q : Pos}
    (hacc : g.accepts = f.accepts) (hsame : ∀ q, q ≠ p → g.block q = f.block q) (hq : q ≠ p) :
    g.Conducts reg q ↔ f.Conducts reg q := by
  unfold Conducts
  rw [hacc, hsame q hq]

theorem block_withBlock_self {f : LightField} {p : Pos} {id : BlockId} :
    (f.withBlock p id).block p = id := Function.update_self _ _ _

theorem block_withBlock_of_ne {f : LightField} {p q : Pos} {id : BlockId} (hq : q ≠ p) :
    (f.withBlock p id).block q = f.block q := Function.update_of_ne hq _ _

/-- A block that is put elsewhere does not change whether light enters a cell. -/
theorem conducts_withBlock_of_ne {reg : Registry} {f : LightField} {p q : Pos} {id : BlockId}
    (hq : q ≠ p) : (f.withBlock p id).Conducts reg q ↔ f.Conducts reg q := by
  have hsame : ∀ q, q ≠ p → (f.withBlock p id).block q = f.block q :=
    fun _ => block_withBlock_of_ne
  exact conducts_iff_of_edit rfl hsame hq

@[simp] theorem accepts_withLevels (f : LightField) (k : LightKind) (L : Light.Levels) :
    (f.withLevels k L).accepts = f.accepts := rfl

@[simp] theorem block_withLevels (f : LightField) (k : LightKind) (L : Light.Levels) :
    (f.withLevels k L).block = f.block := rfl

@[simp] theorem conducts_withLevels (reg : Registry) (f : LightField) (k : LightKind)
    (L : Light.Levels) : (f.withLevels k L).Conducts reg = f.Conducts reg := rfl

@[simp] theorem level_withLevels (f : LightField) (k : LightKind) (L : Light.Levels) :
    (f.withLevels k L).level k = L := by
  simp [withLevels]

theorem level_withLevels_of_ne (f : LightField) {k j : LightKind} (L : Light.Levels) (h : j ≠ k) :
    (f.withLevels k L).level j = f.level j := by
  simp [withLevels, h]

@[simp] theorem withLevels_withLevels (f : LightField) (k : LightKind) (L M : Light.Levels) :
    (f.withLevels k L).withLevels k M = f.withLevels k M := by
  simp [withLevels]

@[simp] theorem withLevels_level (f : LightField) (k : LightKind) :
    f.withLevels k (f.level k) = f := by
  simp [withLevels]

/-- A level put over other levels is one more of them, if it is no brighter than light can be. -/
theorem put_withLevels (f : LightField) (k : LightKind) (L : Light.Levels) (p : Pos) {v : Nat}
    (hv : v ≤ maxLight) :
    (f.withLevels k L).put k p v = f.withLevels k (Function.update L p v) := by
  rw [put, level_withLevels, withLevels_withLevels, Nat.min_eq_left hv]

end LightField

/-! ## Comparing fields -/

/-- Two fields show the same at a position. -/
structure LightField.SameAt (f g : LightField) (p : Pos) : Prop where
  accepts : f.accepts p = g.accepts p
  block : f.block p = g.block p
  level : ∀ k, f.level k p = g.level k p

namespace LightField.SameAt

variable {f g h : LightField} {p : Pos}

theorem refl : f.SameAt f p := ⟨rfl, rfl, fun _ => rfl⟩

theorem symm (h : f.SameAt g p) : g.SameAt f p :=
  ⟨h.accepts.symm, h.block.symm, fun k => (h.level k).symm⟩

theorem trans (hfg : f.SameAt g p) (hgh : g.SameAt h p) : f.SameAt h p where
  accepts := hfg.accepts.trans hgh.accepts
  block := hfg.block.trans hgh.block
  level k := (hfg.level k).trans (hgh.level k)

/-- Where the same shows, light enters one if it enters the other. -/
theorem conducts (hfg : f.SameAt g p) (reg : Registry) : f.Conducts reg p ↔ g.Conducts reg p := by
  unfold Conducts
  rw [hfg.accepts, hfg.block]

end LightField.SameAt

/-- Fields that show the same everywhere are equal. -/
theorem LightField.ext_of_sameAt {f g : LightField} (h : ∀ p, f.SameAt g p) : f = g := by
  rcases f with ⟨fa, fb, fl⟩
  rcases g with ⟨ga, gb, gl⟩
  have ha : fa = ga := funext fun p => (h p).accepts
  have hb : fb = gb := funext fun p => (h p).block
  have hl : fl = gl := funext fun k => funext fun p => (h p).level k
  rw [ha, hb, hl]

namespace LightField

variable {f : LightField} {p q : Pos} {k j : LightKind} {v : Nat}

/-- A level is put at one position, and all others show what they did. -/
theorem put_sameAt (hq : q ≠ p) : (f.put k p v).SameAt f q where
  accepts := rfl
  block := rfl
  level j := by
    by_cases hj : j = k
    · subst hj
      unfold put
      rw [level_withLevels, Function.update_of_ne hq]
    · unfold put
      rw [level_withLevels_of_ne _ _ hj]

/-- At the position itself the level is capped. -/
theorem level_put_self : (f.put k p v).level k p = min v maxLight := by
  unfold put
  rw [level_withLevels, Function.update_self]

theorem level_put_of_ne (hj : j ≠ k) : (f.put k p v).level j = f.level j :=
  level_withLevels_of_ne _ _ hj

/-- Writing the level that is there. -/
theorem put_eq_self (h : f.level k p = min v maxLight) : f.put k p v = f := by
  unfold put
  rw [← h, Function.update_eq_self, withLevels_level]

end LightField

/-! ## Reading a volume -/

namespace LightVolume

variable {V : Type} [LightVolume V]

/-- The field of a volume. Where reading stops there is nothing: air without light, and
none accepted. -/
def field (vol : V) : LightField where
  accepts p := (LightVolume.acceptsLight vol p).toOption.getD false
  block p := (LightVolume.block vol p).toOption.getD air
  level k p := (LightVolume.light vol p k).toOption.getD 0

end LightVolume

/-- A reading that only stops under `faulty` gives what the field shows. -/
theorem Ensures.toOption {α : Type} {faulty : Prop} {m : Checked α} {a : α}
    (h : ∀ e, m = .error e → faulty) : Ensures faulty m (· = m.toOption.getD a) := by
  cases m with
  | ok b => exact rfl
  | error e => exact h e rfl

/-! ## Laws -/

/-- The positions of a region and those beside them. -/
def Near (A : Pos → Prop) (p : Pos) : Prop := A p ∨ ∃ q, A q ∧ Light.Adjacent q p

theorem Near.inside {A : Pos → Prop} {p : Pos} (h : A p) : Near A p := .inl h

theorem Near.beside {A : Pos → Prop} {p q : Pos} (h : A p) (hadj : Light.Adjacent p q) :
    Near A q := .inr ⟨p, h, hadj⟩

/-- How a good volume behaves that accepts light in the region `A`. -/
structure VolumeLaws (V : Type) [LightVolume V] (faulty : Prop) (A : Pos → Prop)
    (Good : V → Prop) : Prop where
  accepts_iff : ∀ {vol}, Good vol → ∀ p, (LightVolume.field vol).accepts p = true ↔ A p
  level_le : ∀ {vol}, Good vol → ∀ k p, (LightVolume.field vol).level k p ≤ maxLight
  step : ∀ {p d}, A p → d ∈ Light.directions →
    Ensures faulty (Light.step p d) (· = Light.shift p d)
  light : ∀ {vol p}, Good vol → Near A p → ∀ k,
    Ensures faulty (LightVolume.light vol p k) (· = (LightVolume.field vol).level k p)
  block : ∀ {vol p}, Good vol → Near A p →
    Ensures faulty (LightVolume.block vol p) (· = (LightVolume.field vol).block p)
  acceptsLight : ∀ {vol p}, Good vol → Near A p →
    Ensures faulty (LightVolume.acceptsLight vol p) (· = (LightVolume.field vol).accepts p)
  setLight : ∀ {vol p}, Good vol → A p → ∀ k v,
    Ensures faulty (LightVolume.setLight vol p k v) fun vol' =>
      Good vol' ∧ LightVolume.field vol' = (LightVolume.field vol).put k p v

/-- A good volume shows the field `f` but for the levels `L` of one channel. -/
structure Shows {V : Type} [LightVolume V] (Good : V → Prop) (f : LightField) (k : LightKind)
    (vol : V) (L : Light.Levels) : Prop where
  good : Good vol
  field_eq : LightVolume.field vol = f.withLevels k L

namespace Shows

variable {V : Type} [LightVolume V] {faulty : Prop} {A : Pos → Prop} {Good : V → Prop}
  {f : LightField} {k : LightKind} {vol : V} {L : Light.Levels} {p : Pos} {reg : Registry}

theorem refl (h : Good vol) :
    Shows Good (LightVolume.field vol) k vol ((LightVolume.field vol).level k) :=
  ⟨h, ((LightVolume.field vol).withLevels_level k).symm⟩

/-- A good volume shows its own field. -/
theorem of_field_eq (h : Good vol) (hfield : LightVolume.field vol = f) :
    Shows Good f k vol (f.level k) := by
  subst hfield
  exact refl h

/-- The other channel, once one has been seen to. -/
theorem other {j : LightKind} (h : Shows Good f k vol L) (hj : j ≠ k) :
    Shows Good (f.withLevels k L) j vol (f.level j) := by
  have hshow := of_field_eq (k := j) h.good h.field_eq
  rwa [LightField.level_withLevels_of_ne _ _ hj] at hshow

theorem levels (h : Shows Good f k vol L) : (LightVolume.field vol).level k = L := by
  rw [h.field_eq, f.level_withLevels]

/-- Only levels are set apart, so light enters where it does in the field. -/
theorem conducts (h : Shows Good f k vol L) (reg : Registry) :
    (LightVolume.field vol).Conducts reg = f.Conducts reg := by
  rw [h.field_eq, f.conducts_withLevels]

/-- The field accepts light in the region of the laws. -/
theorem accepts_iff (h : Shows Good f k vol L) (laws : VolumeLaws V faulty A Good) (p : Pos) :
    f.accepts p = true ↔ A p := by
  rw [← laws.accepts_iff h.good p, h.field_eq, f.accepts_withLevels]

theorem level_le (h : Shows Good f k vol L) (laws : VolumeLaws V faulty A Good) (p : Pos) :
    L p ≤ maxLight := by
  have := laws.level_le h.good k p
  rwa [h.levels] at this

/-- What light enters is in the region. -/
theorem inside (h : Shows Good f k vol L) (laws : VolumeLaws V faulty A Good)
    (hp : f.Conducts reg p) : A p :=
  (h.accepts_iff laws p).1 hp.1

/-- Near the region a reading gives the level named. -/
theorem light (h : Shows Good f k vol L) (laws : VolumeLaws V faulty A Good) (hp : Near A p) :
    Ensures faulty (LightVolume.light vol p k) (· = L p) := by
  have := laws.light h.good hp k
  rwa [h.levels] at this

/-- It gives the block of the field too. -/
theorem block (h : Shows Good f k vol L) (laws : VolumeLaws V faulty A Good) (hp : Near A p) :
    Ensures faulty (LightVolume.block vol p) (· = f.block p) := by
  have := laws.block h.good hp
  rwa [h.field_eq] at this

theorem acceptsLight (h : Shows Good f k vol L) (laws : VolumeLaws V faulty A Good)
    (hp : Near A p) : Ensures faulty (LightVolume.acceptsLight vol p) (· = f.accepts p) := by
  have := laws.acceptsLight h.good hp
  rwa [h.field_eq] at this

/-- Writing a level changes it and nothing else. -/
theorem setLight (h : Shows Good f k vol L) (laws : VolumeLaws V faulty A Good) (hp : A p)
    {v : Nat} (hv : v ≤ maxLight) :
    Ensures faulty (LightVolume.setLight vol p k v) fun vol' =>
      Shows Good f k vol' (Function.update L p v) := by
  apply (laws.setLight h.good hp k v).mono
  intro vol' hvol'
  rcases hvol' with ⟨hgood, hfield⟩
  refine ⟨hgood, ?_⟩
  rw [hfield, h.field_eq, f.put_withLevels k L p hv]

end Shows

end VoxelWorld
