import VoxelWorld.Proofs.World.Calls

/-!
# Proofs.World.Relighting — relighting all chunks, in any order

Relighting goes through the cells of a chunk one by one, and each flood stops where it meets
light that is as bright. What is left in the end does not depend on the order all the same.

* `carried` is the light that a cell holds or gets from the cells that let it out, whatever the
  blocks and the light of the chunks are to begin with.
* `relightAll_ensures` says that a round over all generated chunks leaves just that.
* `relighting_exact` draws the conclusions: all orders give the same light, and a further round
  changes none.
-/

namespace VoxelWorld.World

open Light (Relit Calm brightest)

variable {w w' : World} {c : ChunkCoord} {p : Pos} {k : LightKind} {order : List ChunkCoord}

/-- Light flows out of translucent cells, and block light also out of those that give it off. -/
def LetsOut (w : World) (k : LightKind) (p : Pos) : Prop :=
  w.registry.isTranslucent (w.field.block p) = true ∨
    k = .block ∧ 0 < w.registry.luminance (w.field.block p)

open Classical in
/-- The light that a cell holds, or the most that a cell of the chunks which lets it out leaves
over, with one level lost on each step through translucent cells. -/
noncomputable def carried (w : World) (R : ChunkCoord → Prop) (k : LightKind) (p : Pos) : Nat :=
  max (w.field.level k p) (brightest (w.TranslucentIn R)
    (fun q => if InChunks w.dims R q ∧ w.LetsOut k q then w.field.level k q else 0) p)

open Classical in
/-- In these words it is the light that all cells shed. -/
theorem carried_eq (h : w.Sound) : w.carried w.Generated k p = max (w.field.level k p)
    (brightest (w.field.Conducts w.registry) (Light.shed w.registry w.field k) p) := by
  have hshed : Light.shed w.registry w.field k = fun q =>
      if InChunks w.dims w.Generated q ∧ w.LetsOut k q then w.field.level k q else 0 := by
    funext q
    exact if_congr (and_congr_left' (h.accepts_iff q)) rfl rfl
  rw [hshed, h.conducts_eq]
  rfl

/-! ## One round -/

/-- Chunks that were relit, and the others that are still to come. -/
structure Rounds (w₁ : World) (rest : List Call) (w : World) : Prop where
  relit : Relit w₁.registry (InChunks w₁.dims w₁.Generated) w₁.field w.field
  calm : ∀ c, w₁.Generated c → Call.relight c ∈ rest ∨
    ∀ p, InChunks w₁.dims (· = c) p → Calm w₁.registry w.field p

namespace Rounds

variable {w₁ : World} {rest : List Call}

theorem start (hall : ∀ c, w₁.Generated c → Call.relight c ∈ rest) : Rounds w₁ rest w₁ where
  relit := Relit.refl
  calm c hc := .inl (hall c hc)

/-- The call for a chunk that is not generated is no loss. -/
theorem idle {call : Call} (h : Rounds w₁ (call :: rest) w)
    (hcall : ∀ c, call = .relight c → ¬ w₁.Generated c) : Rounds w₁ rest w where
  relit := h.relit
  calm c hc := by
    rcases h.calm c hc with hmem | hcalm
    · rcases List.mem_cons.1 hmem with heq | hmem
      · exact absurd hc (hcall c heq.symm)
      · exact .inl hmem
    · exact .inr hcalm

/-- One more chunk is calm, and those that were calm stay so. -/
theorem lit (h : Rounds w₁ (.relight c :: rest) w) (hground : SameGround w₁ w)
    (hl : Lit w w' c) : Rounds w₁ rest w' := by
  have hrelit := hl.relit.toRelit
  have hcalm := hl.calm
  rw [hground.registry, hground.dims, hground.generated] at hrelit
  rw [hground.registry, hground.dims] at hcalm
  constructor
  · exact h.relit.trans hrelit
  · intro c' hc'
    rcases h.calm c' hc' with hmem | hold
    · rcases List.mem_cons.1 hmem with heq | hmem
      · cases heq
        exact .inr hcalm
      · exact .inl hmem
    · exact .inr fun p hp => (hold p hp).of_relit hrelit

/-- After a whole round no light would flow anywhere. -/
theorem calm_all (h : Rounds w₁ [] w) (hs : w₁.Sound) (q : Pos) :
    Calm w₁.registry w.field q := by
  intro k hk
  have hacc := hk.1
  rw [h.relit.accepts] at hacc
  rcases (hs.accepts_iff q).1 hacc with ⟨cell, hsplit, hgen⟩
  rcases h.calm cell.chunk hgen with hmem | hcalm
  · exact absurd hmem List.not_mem_nil
  · exact hcalm q ⟨cell, hsplit, rfl⟩ k hk

end Rounds

/-- A round over all generated chunks leaves the light that is carried to each cell. -/
theorem relightAll_ensures (h : w.Sound) (hroom : ∀ c, w.Generated c → Roomy w.dims c)
    (hall : ∀ c, w.Generated c → c ∈ order) :
    ∃ w', w.performAll (order.map .relight) = .ok w' ∧ SameGround w w' ∧
      ∀ k p, InChunks w.dims w.Generated p →
        w'.field.level k p = w.carried w.Generated k p := by
  have hrun : ∃ w', w.performAll (order.map .relight) = .ok w' ∧ SameGround w w' ∧
      Rounds w [] w' := by
    refine performAll_ensures h hroom ?_ (I := Rounds w) ?_ ?_ ?_ ?_
    · intro call hcall
      rcases List.mem_map.1 hcall with ⟨c, -, rfl⟩
      trivial
    · exact Rounds.start fun c hc => List.mem_map.2 ⟨c, hall c hc, rfl⟩
    · intro call rest w' hground hidle hI
      refine hI.idle fun c hc hgen => hidle c hc ?_
      rwa [hground.generated]
    · intro c rest w' w'' hground hl hI
      exact hI.lit hground hl
    · -- the round edits nothing
      intro pre p id rest w' w'' hcalls
      have hmem : Call.edit p id ∈ order.map .relight := by
        rw [hcalls]
        exact List.mem_append_right _ List.mem_cons_self
      rcases List.mem_map.1 hmem with ⟨c, -, hc⟩
      cases hc
  rcases hrun with ⟨w', hok, hground, hI⟩
  refine ⟨w', hok, hground, fun k p hp => ?_⟩
  rw [carried_eq h]
  exact hI.relit.eq_carried (h.level_le k) (hI.calm_all h) p

/-! ## All orders -/

/-- Two rounds over all generated chunks leave the same light everywhere. -/
theorem lightAt_eq_of_rounds {w₁ w₂ : World} (h₁ : SameGround w w₁)
    (h₂ : SameGround w w₂) (hlevel : ∀ p, InChunks w.dims w.Generated p →
      w₂.field.level k p = w₁.field.level k p) (p : Pos) : w₂.lightAt p k = w₁.lightAt p k := by
  have hdims : w₂.dims = w₁.dims := h₂.dims.trans h₁.dims.symm
  apply lightAt_congr h₁.sound.valid hdims
  by_cases hp : InChunks w.dims w.Generated p
  · exact hlevel p hp
  · -- outside the chunks both are dark
    rw [h₂.sound.dark, h₁.sound.dark, hdims]
    · rwa [h₁.dims, h₁.generated]
    · rwa [h₂.dims, h₂.generated]

/-- Relighting each chunk once leaves the carried light, whatever blocks and light there were;
so it does in any order, and once more changes nothing. -/
theorem relighting_exact (h : w.Sound) (hroom : ∀ c, w.Generated c → Roomy w.dims c)
    (hall : ∀ c, w.Generated c → c ∈ order) :
    ∃ w', w.performAll (order.map .relight) = .ok w' ∧
      (∀ k p, InChunks w.dims w.Generated p →
        w'.lightAt p k = .ok (w.carried w.Generated k p)) ∧
      ∀ other : List ChunkCoord, (∀ c, w.Generated c → c ∈ other) →
        (∃ w₂, w.performAll (other.map .relight) = .ok w₂ ∧
          ∀ k p, w₂.lightAt p k = w'.lightAt p k) ∧
        ∃ w₂, w'.performAll (other.map .relight) = .ok w₂ ∧
          ∀ k p, w₂.lightAt p k = w'.lightAt p k := by
  rcases relightAll_ensures h hroom hall with ⟨w', hok, hground, hlevel⟩
  refine ⟨w', hok, fun k p hp => ?_, fun other hother => ⟨?_, ?_⟩⟩
  · rw [← hlevel k p hp]
    rw [← hground.dims] at hp
    exact lightAt_of_inChunks hground.sound.valid hp
  · rcases relightAll_ensures h hroom hother with ⟨w₂, hok₂, hground₂, hlevel₂⟩
    refine ⟨w₂, hok₂, fun k p => lightAt_eq_of_rounds hground hground₂ (fun p hp => ?_) p⟩
    rw [hlevel₂ k p hp, hlevel k p hp]
  · -- two rounds are one round in which each chunk has its turn twice
    have hboth : ∀ c, w.Generated c → c ∈ order ++ other :=
      fun c hc => List.mem_append_left _ (hall c hc)
    rcases relightAll_ensures h hroom hboth with ⟨w₂, hok₂, hground₂, hlevel₂⟩
    rw [List.map_append] at hok₂
    unfold performAll at hok hok₂ ⊢
    rw [List.foldlM_append, hok] at hok₂
    refine ⟨w₂, hok₂, fun k p => lightAt_eq_of_rounds hground hground₂ (fun p hp => ?_) p⟩
    rw [hlevel₂ k p hp, hlevel k p hp]

/-- Two chunks of torches and air with a torch in one of them, relit from east to west. -/
theorem relighting_exact_smallest :
    ∃ w₁, smallest.generateAll [⟨0, 0⟩, ⟨1, 0⟩] = .ok w₁ ∧
      ∃ w, w₁.performAll [.edit ⟨0, 0, 0⟩ 1] = .ok w ∧
        ∃ w', w.performAll [.relight ⟨1, 0⟩, .relight ⟨0, 0⟩] = .ok w' ∧
          ∀ k p, InChunks w.dims w.Generated p →
            w'.lightAt p k = .ok (w.carried w.Generated k p) := by
  have hroom : ∀ c ∈ [(⟨0, 0⟩ : ChunkCoord), ⟨1, 0⟩], Roomy smallest.dims c := by
    intro c hc
    rcases List.mem_pair.1 hc with rfl | rfl
    · exact smallest.roomy (by decide) (by decide)
    · exact smallest.roomy (by decide) (by decide)
  rcases smallest.exists_generateAll hroom with ⟨w₁, hgen, -⟩
  rcases laid_of_generateAll smallest.pristine hgen with ⟨⟨huntouched, hdims, -, -, -⟩, hgenerated⟩
  rw [← hdims] at hroom
  have hroom₁ : ∀ c, w₁.Generated c → Roomy w₁.dims c := by
    intro c hc
    rw [hgenerated] at hc
    exact hroom c hc
  have hin : InChunks w₁.dims w₁.Generated ⟨0, 0, 0⟩ := by
    rw [hdims, hgenerated]
    exact ⟨_, rfl, by decide⟩
  have hcalls : ∀ call ∈ [Call.edit ⟨0, 0, 0⟩ 1], call.Within w₁.dims w₁.Generated := by
    intro call hcall
    rwa [List.mem_singleton.1 hcall]
  rcases performAll_ensures huntouched.sound hroom₁ hcalls (I := fun _ _ => True) trivial
    (fun _ _ _ _ _ _ => trivial) (fun _ _ _ _ _ _ _ => trivial)
    (fun _ _ _ _ _ _ _ _ _ _ _ _ _ => trivial) with ⟨w, hok, hground, -⟩
  refine ⟨w₁, hgen, w, hok, ?_⟩
  -- the chunks are relit in another order than they were generated in
  have hall : ∀ c, w.Generated c → c ∈ [(⟨1, 0⟩ : ChunkCoord), ⟨0, 0⟩] := by
    intro c hc
    rw [hground.generated, hgenerated] at hc
    rcases List.mem_pair.1 hc with rfl | rfl
    · decide
    · decide
  rcases relighting_exact hground.sound (hground.roomy hroom₁) hall with ⟨w', hok', hlight, -⟩
  exact ⟨w', hok', hlight⟩

end VoxelWorld.World
