import VoxelWorld.Proofs.Light.Volume

/-!
# Proofs.Light.Spread — what spreading does to a channel

Spreading goes in waves, and the level to which a wave raises falls by one each time.

* `Spreading` is what holds between two writes: cells that got brighter hold at least the
  level of the wave, each got its light from the origin or from another one that got brighter,
  and each either still waits in a wave or sheds no more light.
* `Spreading.raise` is the one step that changes a level.
* `spread_ensures` sums it up: the levels afterwards are `SpreadFrom` those before.
-/

namespace VoxelWorld.Light

/-! ## Between two writes -/

/-- The levels `L` while light spreads from `origin` over the levels `L₀`. The wave raises
cells to `t`, and the cells `todo` have yet to shed their light. -/
structure Spreading (A C : Pos → Prop) (origin : Pos) (L₀ : Levels) (t : Nat)
    (todo : Pos → Prop) (L : Levels) : Prop where
  origin_eq : L origin = L₀ origin
  mono : ∀ q, L₀ q ≤ L q
  floor : ∀ q, q = origin ∨ L₀ q < L q → t ≤ L q
  done : ∀ q, q = origin ∨ L₀ q < L q → todo q ∨ Even C L q
  fed : ∀ q, L₀ q < L q → C q ∧ ∃ n, Adjacent q n ∧ A n ∧ L q < L n
  inside : ∀ q, todo q → A q
  reached : ∀ q, todo q → q = origin ∨ L₀ q < L q
  led : ∀ q, L₀ q < L q → ∃ n, (n = origin ∨ L₀ n < L n) ∧ Adjacent n q ∧ L q < L n

namespace Spreading

variable {A C todo todo' : Pos → Prop} {origin p n : Pos} {L₀ L : Levels} {t t' : Nat}

/-- A cell that sheds no more light need not wait, and a darker wave asks for less. -/
theorem weaken (h : Spreading A C origin L₀ t todo L) (ht : t' ≤ t)
    (htodo : ∀ q, todo q → todo' q ∨ Even C L q) (hsub : ∀ q, todo' q → todo q) :
    Spreading A C origin L₀ t' todo' L where
  origin_eq := h.origin_eq
  mono := h.mono
  floor q hq := ht.trans (h.floor q hq)
  done q hq := (h.done q hq).elim (htodo q) .inr
  fed := h.fed
  inside q hq := h.inside q (hsub q hq)
  reached q hq := h.reached q (hsub q hq)
  led := h.led

/-- Raising a darker cell beside one that holds the level above. -/
theorem raise (h : Spreading A C origin L₀ t todo L) (hp : todo p) (hlevel : L p = t + 1)
    (hadj : Adjacent p n) (hn : C n) (hAn : A n) (hlt : L n < t) :
    Spreading A C origin L₀ t (fun q => todo q ∨ q = n) (Function.update L n t) := by
  have horigin : origin ≠ n := by
    rintro rfl
    have := h.floor origin (.inl rfl)
    omega
  have hgrow : ∀ q, L q ≤ Function.update L n t q := by
    intro q
    by_cases hq : q = n
    · subst hq
      rw [Function.update_self]
      omega
    · rw [Function.update_of_ne hq]
  -- for any other cell, to have got brighter means to have got brighter before
  have hold : ∀ q, q ≠ n → q = origin ∨ L₀ q < Function.update L n t q →
      q = origin ∨ L₀ q < L q := by
    intro q hq hold
    rwa [Function.update_of_ne hq] at hold
  -- each field is checked at the raised cell and at the others
  refine ⟨?_, fun q => (h.mono q).trans (hgrow q), ?_, ?_, ?_, ?_, ?_, ?_⟩
  · rw [Function.update_of_ne horigin, h.origin_eq]
  · intro q hq
    by_cases hqn : q = n
    · subst hqn
      rw [Function.update_self]
    · exact (h.floor q (hold q hqn hq)).trans (hgrow q)
  · intro q hq
    by_cases hqn : q = n
    · exact .inl (.inr hqn)
    · rcases h.done q (hold q hqn hq) with htodo | heven
      · exact .inl (.inl htodo)
      · -- around an even cell levels only grow
        right
        intro r hr
        rcases hr with ⟨hadj', hr, hsteep⟩
        rw [Function.update_of_ne hqn] at hsteep
        have hle := heven.le hadj' hr
        have := hgrow r
        omega
  · intro q hq
    by_cases hqn : q = n
    · subst hqn
      refine ⟨hn, p, hadj.symm, h.inside p hp, ?_⟩
      rw [Function.update_self, Function.update_of_ne hadj.ne]
      omega
    · have hq' := hq
      rw [Function.update_of_ne hqn] at hq'
      rcases h.fed q hq' with ⟨hC, r, hadj', hAr, hr⟩
      refine ⟨hC, r, hadj', hAr, ?_⟩
      rw [Function.update_of_ne hqn]
      exact hr.trans_le (hgrow r)
  · rintro q (hq | rfl)
    · exact h.inside q hq
    · exact hAn
  · rintro q (hq | rfl)
    · exact (h.reached q hq).imp_right fun hlt => hlt.trans_le (hgrow q)
    · right
      rw [Function.update_self]
      exact (h.mono q).trans_lt hlt
  · intro q hq
    by_cases hqn : q = n
    · -- the light comes from the cell whose turn it is
      subst hqn
      refine ⟨p, (h.reached p hp).imp_right fun hlt => hlt.trans_le (hgrow p), hadj, ?_⟩
      rw [Function.update_self, Function.update_of_ne hadj.ne]
      omega
    · have hq' := hq
      rw [Function.update_of_ne hqn] at hq'
      rcases h.led q hq' with ⟨r, hr, hadj', hlt'⟩
      refine ⟨r, hr.imp_right fun hlt => hlt.trans_le (hgrow r), hadj', ?_⟩
      rw [Function.update_of_ne hqn]
      exact hlt'.trans_le (hgrow r)

end Spreading

/-! ## The waves -/

variable {V : Type} [LightVolume V] {faulty : Prop} {A : Pos → Prop} {Good : V → Prop}
  (laws : VolumeLaws V faulty A Good) {reg : Registry} {f : LightField} {k : LightKind}

/-- A step from the region stays near it. -/
theorem Near.shift {p : Pos} (hp : A p) {d : Int × Int × Int} (hd : d ∈ directions) :
    Near A (Light.shift p d) :=
  Near.beside hp ⟨d, hd, rfl⟩

include laws in
/-- The volume says of a position near the region whether light enters it. -/
theorem conducts_ensures {vol : V} {L : Levels} {p : Pos} (h : Shows Good f k vol L)
    (hp : Near A p) :
    Ensures faulty (conducts reg vol p) fun b => b = true ↔ f.Conducts reg p := by
  unfold conducts
  apply (h.acceptsLight laws hp).bind_eq
  refine Ensures.ite (fun hacc => ?_) fun hacc => ?_
  · apply (h.block laws hp).bind_eq
    exact Ensures.pure ⟨fun ht => ⟨hacc, ht⟩, fun hC => hC.2⟩
  · exact Ensures.pure ⟨fun hb => absurd hb Bool.false_ne_true, fun hC => absurd hC.1 hacc⟩

include laws in
/-- One neighbour is raised, or it is bright enough, or light cannot enter it. -/
theorem raise_ensures {s : Wave V} {L : Levels} {p : Pos} {d : Int × Int × Int} {t : Nat}
    (h : Shows Good f k s.vol L) (hp : A p) (hd : d ∈ directions) (ht : t ≤ maxLight) :
    Ensures faulty (raise reg k t p s d) fun s' =>
      s'.cells = s.cells ∧ Shows Good f k s'.vol L ∧
          (f.Conducts reg (shift p d) → t ≤ L (shift p d)) ∨
        s'.cells = shift p d :: s.cells ∧
          Shows Good f k s'.vol (Function.update L (shift p d) t) ∧
          f.Conducts reg (shift p d) ∧ L (shift p d) < t := by
  unfold raise
  apply (laws.step hp hd).bind_eq
  have hnear : Near A (shift p d) := Near.shift hp hd
  apply (h.light laws hnear).bind_eq
  refine Ensures.ite (fun hlt => ?_) fun hge => ?_
  · apply (conducts_ensures laws h hnear).bind
    intro b hb
    refine Ensures.ite (fun htrue => ?_) fun hfalse => ?_
    · have hC := hb.1 htrue
      apply (h.setLight laws (h.inside laws hC) ht).bind
      intro vol' hvol'
      exact Ensures.pure (.inr ⟨rfl, hvol', hC, hlt⟩)
    · exact Ensures.pure (.inl ⟨rfl, h, fun hC => absurd (hb.2 hC) hfalse⟩)
  · exact Ensures.pure (.inl ⟨rfl, h, fun _ => Nat.le_of_not_lt hge⟩)

/-- A wave under way: the cells `rest` still hold the level above and wait for their turn,
and the cells raised so far are those of the next wave. -/
def WaveRuns (A : Pos → Prop) (Good : V → Prop) (reg : Registry) (f : LightField)
    (k : LightKind) (origin : Pos) (L₀ : Levels) (t : Nat) (rest : List Pos) (s : Wave V) :
    Prop :=
  ∃ L, Shows Good f k s.vol L ∧
    Spreading A (f.Conducts reg) origin L₀ t (fun q => q ∈ rest ∨ q ∈ s.cells) L ∧
    (∀ q ∈ rest, L q = t + 1) ∧ ∀ q ∈ s.cells, L q = t

/-- The turn of a cell of the wave: of the cells around it, those in the directions `ds` have
yet to be raised. -/
def TurnRuns (A : Pos → Prop) (Good : V → Prop) (reg : Registry) (f : LightField)
    (k : LightKind) (origin : Pos) (L₀ : Levels) (t : Nat) (p : Pos) (rest : List Pos)
    (ds : List (Int × Int × Int)) (s : Wave V) : Prop :=
  ∃ L, Shows Good f k s.vol L ∧
    Spreading A (f.Conducts reg) origin L₀ t (fun q => q ∈ p :: rest ∨ q ∈ s.cells) L ∧
    (∀ q ∈ p :: rest, L q = t + 1) ∧ (∀ q ∈ s.cells, L q = t) ∧
    ∀ d ∈ directions, d ∈ ds ∨ (f.Conducts reg (shift p d) → t ≤ L (shift p d))

include laws in
/-- One direction of the turn. -/
theorem raiseTurn_ensures {s : Wave V} {origin p : Pos} {L₀ : Levels} {t : Nat}
    {rest : List Pos} {d : Int × Int × Int} {ds : List (Int × Int × Int)} (ht : t ≤ maxLight)
    (hd : d ∈ directions) (h : TurnRuns A Good reg f k origin L₀ t p rest (d :: ds) s) :
    Ensures faulty (raise reg k t p s d) (TurnRuns A Good reg f k origin L₀ t p rest ds) := by
  rcases h with ⟨L, hshow, hspread, hrest, hcells, hdone⟩
  have hp : A p := hspread.inside p (.inl List.mem_cons_self)
  have hlevel := hrest p List.mem_cons_self
  apply (raise_ensures laws hshow hp hd ht).mono
  intro s' hs'
  rcases hs' with ⟨hs', hshow', hok⟩ | ⟨hs', hshow', hC, hlt⟩
  · -- nothing was written, and the direction is done
    refine ⟨L, hshow', ?_, hrest, ?_, ?_⟩
    · rw [hs']
      exact hspread
    · rw [hs']
      exact hcells
    · intro e he
      rcases hdone e he with hmem | hbright
      · rcases List.mem_cons.1 hmem with rfl | hmem
        · exact .inr hok
        · exact .inl hmem
      · exact .inr hbright
  · -- the cell was raised and joins the next wave
    have hAn := hshow'.inside laws hC
    refine ⟨_, hshow', ?_, ?_, ?_, ?_⟩
    · refine (hspread.raise (.inl List.mem_cons_self) hlevel ⟨d, hd, rfl⟩ hC hAn hlt).weaken
        le_rfl ?_ ?_
      · rintro q ((hq | hq) | rfl)
        · exact .inl (.inl hq)
        · refine .inl (.inr ?_)
          rw [hs']
          exact List.mem_cons_of_mem _ hq
        · refine .inl (.inr ?_)
          rw [hs']
          exact List.mem_cons_self
      · rw [hs']
        rintro q (hq | hq)
        · exact .inl (.inl hq)
        · exact (List.mem_cons.1 hq).symm.imp_left .inr
    · -- cells of this wave are brighter than the raised one, so they are others
      intro q hq
      have hlevel' := hrest q hq
      rw [Function.update_of_ne, hlevel']
      rintro rfl
      omega
    · rw [hs']
      intro q hq
      by_cases hqn : q = shift p d
      · rw [hqn, Function.update_self]
      · rw [Function.update_of_ne hqn]
        exact hcells q ((List.mem_cons.1 hq).resolve_left hqn)
    · intro e he
      by_cases hqn : shift p e = shift p d
      · refine .inr fun _ => ?_
        rw [hqn, Function.update_self]
      · rw [Function.update_of_ne hqn]
        rcases hdone e he with hmem | hbright
        · rcases List.mem_cons.1 hmem with rfl | hmem
          · exact absurd rfl hqn
          · exact .inl hmem
        · exact .inr hbright

/-- After the turn no light would flow out of the cell. -/
theorem TurnRuns.finish {s : Wave V} {origin p : Pos} {L₀ : Levels} {t : Nat} {rest : List Pos}
    (h : TurnRuns A Good reg f k origin L₀ t p rest [] s) :
    WaveRuns A Good reg f k origin L₀ t rest s := by
  rcases h with ⟨L, hshow, hspread, hrest, hcells, hdone⟩
  refine ⟨L, hshow, hspread.weaken le_rfl ?_ ?_,
    fun q hq => hrest q (List.mem_cons_of_mem p hq), hcells⟩
  · rintro q (hq | hq)
    · rcases List.mem_cons.1 hq with rfl | hq
      · -- all around `q` is bright enough now
        right
        rintro n ⟨⟨d, hd, rfl⟩, hC, hlt⟩
        have hlevel := hrest q List.mem_cons_self
        rcases hdone d hd with hnil | hbright
        · exact absurd hnil List.not_mem_nil
        · have := hbright hC
          omega
      · exact .inl (.inl hq)
    · exact .inl (.inr hq)
  · rintro q (hq | hq)
    · exact .inl (List.mem_cons_of_mem p hq)
    · exact .inr hq

include laws in
/-- A cell of the wave has its turn: all around it that light enters has the level of the next wave.
-/
theorem raiseAround_ensures {s : Wave V} {origin p : Pos} {L₀ : Levels} {t : Nat}
    {rest : List Pos} (ht : t ≤ maxLight)
    (h : WaveRuns A Good reg f k origin L₀ t (p :: rest) s) :
    Ensures faulty (raiseAround reg k t s p) (WaveRuns A Good reg f k origin L₀ t rest) := by
  rcases h with ⟨L, hshow, hspread, hrest, hcells⟩
  have hp : A p := hspread.inside p (.inl List.mem_cons_self)
  unfold raiseAround
  apply (hshow.light laws (Near.inside hp)).bind_eq
  -- a cell that waits still holds its level, so it is never passed over
  refine Ensures.ite (fun _ => ?_) fun hne => absurd (hrest p List.mem_cons_self) hne
  have hstart : TurnRuns A Good reg f k origin L₀ t p rest directions s :=
    ⟨L, hshow, hspread, hrest, hcells, fun d hd => .inl hd⟩
  apply (Ensures.foldlM (I := TurnRuns A Good reg f k origin L₀ t p rest)
    (fun d ds s hd hs => raiseTurn_ensures laws ht hd hs) hstart).mono
  intro s' hs'
  exact hs'.finish

include laws in
/-- From wave to wave until the levels are used up. -/
theorem spreadWaves_ensures {origin : Pos} {L₀ : Levels} {t : Nat} (ht : t ≤ maxLight)
    {wave : List Pos} {vol : V} {L : Levels} (hshow : Shows Good f k vol L)
    (hspread : Spreading A (f.Conducts reg) origin L₀ t (· ∈ wave) L)
    (hwave : ∀ q ∈ wave, L q = t + 1) :
    Ensures faulty (spreadWaves reg k t wave vol) fun vol' => ∃ L',
      Shows Good f k vol' L' ∧
      Spreading A (f.Conducts reg) origin L₀ 0 (fun _ => False) L' := by
  induction t generalizing wave vol L with
  | zero =>
    -- cells of level one have nothing to give
    refine Ensures.pure ⟨L, hshow, hspread.weaken le_rfl (fun q hq => .inr ?_) nofun⟩
    intro n hn
    rcases hn with ⟨_, _, hlt⟩
    have := hwave q hq
    omega
  | succ t ih =>
    unfold spreadWaves
    -- the cells raised in this wave are the next one
    have hstart : WaveRuns A Good reg f k origin L₀ (t + 1) wave ⟨vol, []⟩ := by
      refine ⟨L, hshow, hspread.weaken le_rfl (fun q hq => .inl (.inl hq)) ?_, hwave, nofun⟩
      rintro q (hq | hq)
      · exact hq
      · cases hq
    refine (Ensures.foldlM (I := WaveRuns A Good reg f k origin L₀ (t + 1))
      (fun p rest s _ hs => raiseAround_ensures laws ht hs) hstart).bind ?_
    intro s hs
    rcases hs with ⟨L', hshow', hspread', -, hcells⟩
    refine ih (by omega) hshow' (hspread'.weaken (Nat.le_succ t) ?_ ?_) ?_
    · rintro q (hq | hq)
      · cases hq
      · exact .inl (List.mem_reverse.2 hq)
    · intro q hq
      exact .inr (List.mem_reverse.1 hq)
    · intro q hq
      exact hcells q (List.mem_reverse.1 hq)

include laws in
/-- Spreading from a cell of the region. -/
theorem spread_ensures {vol : V} {L : Levels} {p : Pos} {v : Nat}
    (hshow : Shows Good f k vol L) (hp : A p) (hpos : 0 < v) (hv : v ≤ maxLight) :
    Ensures faulty (spread reg vol p k v) fun vol' => ∃ L',
      Shows Good f k vol' L' ∧ SpreadFrom A (f.Conducts reg) L p v L' := by
  -- the first wave is the cell itself, and the cells around it get one level less
  obtain ⟨t, rfl⟩ : ∃ t, v = t + 1 := ⟨v - 1, by omega⟩
  unfold spread
  rw [Nat.min_eq_left hv]
  apply (hshow.setLight laws hp hv).bind
  intro vol' hshow'
  -- only the origin has been raised, and it has yet to shed its light
  have hstart : Spreading A (f.Conducts reg) p (Function.update L p (t + 1)) t (· ∈ [p])
      (Function.update L p (t + 1)) := by
    refine ⟨rfl, fun _ => le_rfl, ?_, ?_, fun q hq => absurd hq (lt_irrefl _), ?_, ?_,
      fun q hq => absurd hq (lt_irrefl _)⟩
    · rintro q (rfl | hq)
      · rw [Function.update_self]
        omega
      · exact absurd hq (lt_irrefl _)
    · rintro q (rfl | hq)
      · exact .inl List.mem_cons_self
      · exact absurd hq (lt_irrefl _)
    · intro q hq
      rw [List.mem_singleton.1 hq]
      exact hp
    · intro q hq
      exact .inl (List.mem_singleton.1 hq)
  have hwave : ∀ q ∈ [p], Function.update L p (t + 1) q = t + 1 := by
    intro q hq
    rw [List.mem_singleton.1 hq, Function.update_self]
  apply (spreadWaves_ensures laws (by omega) hshow' hstart hwave).mono
  intro vol'' hvol''
  rcases hvol'' with ⟨L', hshow'', hdone⟩
  refine ⟨L', hshow'', ?_, ?_, ⟨hdone.mono, ?_, hdone.fed⟩, hdone.led⟩
  · rw [hdone.origin_eq, Function.update_self]
  · exact (hdone.done p (.inl rfl)).resolve_left id
  · intro q hq
    exact (hdone.done q (.inr hq)).resolve_left id

/-- Spreading nothing leaves the volume as it is. -/
theorem spread_zero {vol : V} {p : Pos} : spread reg vol p k 0 = .ok vol := rfl

end VoxelWorld.Light
