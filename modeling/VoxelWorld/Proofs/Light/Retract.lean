import VoxelWorld.Proofs.Light.Spread

/-!
# Proofs.Light.Retract — what retracting does to a channel

Retracting darkens in waves and then spreads the bright cells on the border again.

* `Retracting` is what holds between two writes of the first part: darkened cells were
  no brighter than what arrives from the source, bright cells are at least as bright as the
  wave, and each darkened cell either still waits in a wave or is fenced in.
* `Retracting.darken` and `Retracting.note` are the two steps.
* `retract_ensures` sums it up: the levels afterwards are those before, `Retracted`.
-/

namespace VoxelWorld.Light

/-! ## Between two writes -/

/-- The levels `D` while the light of a source of level `v` at `p` is taken out of the levels
`L`. The wave has come down to `t`, and the cells `todo` wait in it. -/
structure Retracting (A C : Pos → Prop) (L : Levels) (p : Pos) (v t : Nat)
    (todo bright : Pos → Prop) (D : Levels) : Prop where
  origin : D p = 0
  kept : ∀ q, q ≠ p → D q = L q ∨ D q = 0 ∧ C q ∧ L q < v
  traced : ∀ q, q ≠ p → D q ≠ L q → Arrives C p v q (L q)
  lit : ∀ q, bright q → A q ∧ 0 < D q ∧ t ≤ D q
  border : ∀ q, q = p ∨ D q ≠ L q → todo q ∨ Fenced A C L p v D bright q
  inside : ∀ q, todo q → A q

namespace Retracting

variable {A C todo todo' bright bright' : Pos → Prop} {p n : Pos} {L D : Levels} {v t t' : Nat}

/-- A cell that is fenced in need not wait, and a darker wave asks for less. -/
theorem weaken (h : Retracting A C L p v t todo bright D) (ht : t' ≤ t)
    (htodo : ∀ q, todo q → todo' q ∨ Fenced A C L p v D bright q) (hin : ∀ q, todo' q → A q) :
    Retracting A C L p v t' todo' bright D where
  origin := h.origin
  kept := h.kept
  traced := h.traced
  lit q hq := ⟨(h.lit q hq).1, (h.lit q hq).2.1, ht.trans (h.lit q hq).2.2⟩
  border q hq := (h.border q hq).elim (htodo q) .inr
  inside := hin

/-- Noting one more bright cell. -/
theorem note (h : Retracting A C L p v t todo bright D) (hsub : ∀ q, bright q → bright' q)
    (hnew : ∀ q, bright' q → bright q ∨ A q ∧ 0 < D q ∧ t ≤ D q) :
    Retracting A C L p v t todo bright' D where
  origin := h.origin
  kept := h.kept
  traced := h.traced
  lit q hq := (hnew q hq).elim (h.lit q) id
  border q hq := by
    rcases h.border q hq with htodo | hfence
    · exact .inl htodo
    · refine .inr fun m hadj hm => ?_
      rcases hfence m hadj hm with h0 | ⟨hb, hrank⟩ | hopaque
      · exact .inl h0
      · exact .inr (.inl ⟨hsub m hb, hrank⟩)
      · exact .inr (.inr hopaque)
  inside := h.inside

/-- Darkening a cell that is darker than the wave, where the wave arrives. -/
theorem darken (h : Retracting A C L p v t todo bright D) (ht : t ≤ v) (hn : C n) (hAn : A n)
    (hpos : 0 < D n) (hlt : D n < t) (harr : Arrives C p v n (D n)) :
    Retracting A C L p v t (fun q => todo q ∨ q = n) bright (Function.update D n 0) := by
  have hnp : p ≠ n := by
    rintro rfl
    rw [h.origin] at hpos
    omega
  -- bright cells hold at least the level of the wave
  have hbright : ∀ q, bright q → q ≠ n := by
    rintro q hq rfl
    have := (h.lit q hq).2.2
    omega
  have hold : D n = L n := by
    rcases h.kept n hnp.symm with hkept | ⟨h0, _, _⟩
    · exact hkept
    · omega
  refine ⟨?_, ?_, ?_, ?_, ?_, ?_⟩
  · rw [Function.update_of_ne hnp, h.origin]
  · intro q hq
    by_cases hqn : q = n
    · subst hqn
      rw [Function.update_self]
      exact .inr ⟨rfl, hn, by omega⟩
    · rw [Function.update_of_ne hqn]
      exact h.kept q hq
  · intro q hq hne
    by_cases hqn : q = n
    · subst hqn
      rwa [← hold]
    · rw [Function.update_of_ne hqn] at hne
      exact h.traced q hq hne
  · intro q hq
    rw [Function.update_of_ne (hbright q hq)]
    exact h.lit q hq
  · intro q hq
    by_cases hqn : q = n
    · exact .inl (.inr hqn)
    · rw [Function.update_of_ne hqn] at hq
      rcases h.border q hq with htodo | hfence
      · exact .inl (.inl htodo)
      · -- a fence still stands where a neighbour went dark
        refine .inr fun m hadj hm => ?_
        by_cases hmn : m = n
        · exact .inl (by rw [hmn, Function.update_self])
        · rw [Function.update_of_ne hmn]
          exact hfence m hadj hm
  · rintro q (hq | rfl)
    · exact h.inside q hq
    · exact hAn

end Retracting

/-! ## The waves -/

variable {V : Type} [LightVolume V] {faulty : Prop} {A : Pos → Prop} {Good : V → Prop}
  (laws : VolumeLaws V faulty A Good) {reg : Registry} {f : LightField} {k : LightKind}

/-- A neighbour of a cell of the wave needs nothing more: it is dark, noted as bright, or lets
no light in. -/
def Passed (A C : Pos → Prop) (t : Nat) (bright : List Pos) (D : Levels) (n : Pos) : Prop :=
  A n → D n = 0 ∨ n ∈ bright ∧ t ≤ D n ∨ ¬ C n ∧ D n < t

include laws in
/-- One neighbour is passed, or it goes dark and joins the next wave. -/
theorem darken_ensures {s : Retraction V} {D : Levels} {p : Pos} {d : Int × Int × Int} {t : Nat}
    (h : Shows Good f k s.vol D) (hp : A p) (hd : d ∈ directions) :
    Ensures faulty (darken reg k t p s d) fun s' =>
      s'.cells = s.cells ∧ Shows Good f k s'.vol D ∧ (∀ q ∈ s.bright, q ∈ s'.bright) ∧
          (∀ q ∈ s'.bright, q ∈ s.bright ∨ A q ∧ t ≤ D q) ∧
          Passed A (f.Conducts reg) t s'.bright D (shift p d) ∨
        s'.cells = shift p d :: s.cells ∧ s'.bright = s.bright ∧
          Shows Good f k s'.vol (Function.update D (shift p d) 0) ∧
          f.Conducts reg (shift p d) ∧ 0 < D (shift p d) ∧ D (shift p d) < t := by
  unfold darken
  apply (laws.step hp hd).bind_eq
  have hnear : Near A (shift p d) := Near.shift hp hd
  have hiff := h.accepts_iff laws (shift p d)
  apply (h.acceptsLight laws hnear).bind_eq
  refine Ensures.ite (fun hacc => ?_) fun hacc => ?_
  · have hA := hiff.1 hacc
    apply (h.light laws hnear).bind_eq
    -- a cell that is bright enough is noted once; one that is darker than the wave goes dark
    refine Ensures.ite (fun hge => ?_) fun hlt => ?_
    · refine Ensures.ite (fun hmem => ?_) fun _ => ?_
      · have hmem := List.contains_iff_mem.1 hmem
        exact Ensures.pure (.inl ⟨rfl, h, fun _ => id, fun _ => .inl,
          fun _ => .inr (.inl ⟨hmem, hge⟩)⟩)
      · refine Ensures.pure (.inl ⟨rfl, h, fun q => List.mem_cons_of_mem _, ?_, ?_⟩)
        · intro q hq
          rcases List.mem_cons.1 hq with rfl | hq
          · exact .inr ⟨hA, hge⟩
          · exact .inl hq
        · exact fun _ => .inr (.inl ⟨List.mem_cons_self, hge⟩)
    · refine Ensures.ite (fun h0 => ?_) fun h0 => ?_
      · exact Ensures.pure (.inl ⟨rfl, h, fun _ => id, fun _ => .inl, fun _ => .inl h0⟩)
      · apply (h.block laws hnear).bind_eq
        refine Ensures.ite (fun htr => ?_) fun htr => ?_
        · apply (h.setLight laws hA (Nat.zero_le _)).bind
          intro vol' hvol'
          exact Ensures.pure (.inr ⟨rfl, rfl, hvol', ⟨hacc, htr⟩, by omega, by omega⟩)
        · exact Ensures.pure (.inl ⟨rfl, h, fun _ => id, fun _ => .inl,
            fun _ => .inr (.inr ⟨fun hC => htr hC.2, by omega⟩)⟩)
  · exact Ensures.pure (.inl ⟨rfl, h, fun _ => id, fun _ => .inl,
      fun hA => absurd (hiff.2 hA) hacc⟩)

/-- A cell of the wave at `t`: it held at most that level, and that much arrives there. -/
structure InWave (C : Pos → Prop) (L : Levels) (p : Pos) (v t : Nat) (q : Pos) : Prop where
  origin : q = p → v ≤ t
  other : q ≠ p → L q ≤ t
  arrives : Arrives C p v q t

/-- A wave under way: the cells `rest` wait for their turn, and the cells darkened so far are
those of the next wave. -/
def RetractRuns (A : Pos → Prop) (Good : V → Prop) (reg : Registry) (f : LightField)
    (k : LightKind) (L : Levels) (p : Pos) (v t : Nat) (rest : List Pos) (s : Retraction V) :
    Prop :=
  ∃ D, Shows Good f k s.vol D ∧
    Retracting A (f.Conducts reg) L p v t (fun q => q ∈ rest ∨ q ∈ s.cells) (· ∈ s.bright) D ∧
    (∀ q ∈ rest, InWave (f.Conducts reg) L p v t q) ∧
    ∀ q ∈ s.cells, InWave (f.Conducts reg) L p v (t - 1) q

/-- The turn of a cell of the wave: of the cells around it, those in the directions `ds` have
yet to be passed. -/
def TurnDarkens (A : Pos → Prop) (Good : V → Prop) (reg : Registry) (f : LightField)
    (k : LightKind) (L : Levels) (p : Pos) (v t : Nat) (c : Pos) (rest : List Pos)
    (ds : List (Int × Int × Int)) (s : Retraction V) : Prop :=
  ∃ D, Shows Good f k s.vol D ∧
    Retracting A (f.Conducts reg) L p v t (fun q => q ∈ c :: rest ∨ q ∈ s.cells)
      (· ∈ s.bright) D ∧
    (∀ q ∈ s.cells, InWave (f.Conducts reg) L p v (t - 1) q) ∧
    ∀ d ∈ directions, d ∈ ds ∨ Passed A (f.Conducts reg) t s.bright D (shift c d)

include laws in
/-- One direction of the turn. -/
theorem darkenTurn_ensures {s : Retraction V} {L : Levels} {p c : Pos} {v t : Nat}
    {rest : List Pos} {d : Int × Int × Int} {ds : List (Int × Int × Int)} (hpos : 0 < t)
    (ht : t ≤ v) (hd : d ∈ directions) (harr : Arrives (f.Conducts reg) p v c t)
    (h : TurnDarkens A Good reg f k L p v t c rest (d :: ds) s) :
    Ensures faulty (darken reg k t c s d) (TurnDarkens A Good reg f k L p v t c rest ds) := by
  rcases h with ⟨D, hshow, hretract, hcells, hdone⟩
  have hc : A c := hretract.inside c (.inl List.mem_cons_self)
  apply (darken_ensures laws hshow hc hd).mono
  intro s' hs'
  rcases hs' with ⟨hs', hshow', hsub, hnew, hpass⟩ | ⟨hs', hbright, hshow', hC, hlit, hlt⟩
  · -- nothing was written; a bright cell may have been noted
    refine ⟨D, hshow', ?_, ?_, ?_⟩
    · rw [hs']
      refine hretract.note hsub fun q hq => ?_
      rcases hnew q hq with hold | ⟨hA, hge⟩
      · exact .inl hold
      · exact .inr ⟨hA, hpos.trans_le hge, hge⟩
    · rw [hs']
      exact hcells
    · intro e he
      rcases hdone e he with hmem | hpassed
      · rcases List.mem_cons.1 hmem with rfl | hmem
        · exact .inr hpass
        · exact .inl hmem
      · refine .inr fun hA => ?_
        rcases hpassed hA with h0 | ⟨hb, hge⟩ | hopaque
        · exact .inl h0
        · exact .inr (.inl ⟨hsub _ hb, hge⟩)
        · exact .inr (.inr hopaque)
  · -- the cell went dark and joins the next wave
    have hAn := hshow'.inside laws hC
    have hnext : Arrives (f.Conducts reg) p v (shift c d) (t - 1) :=
      harr.step hpos ⟨d, hd, rfl⟩ hC
    refine ⟨_, hshow', ?_, ?_, ?_⟩
    · rw [hbright]
      refine (hretract.darken ht hC hAn hlit hlt (hnext.mono (by omega))).weaken le_rfl ?_ ?_
      · rintro q ((hq | hq) | rfl)
        · exact .inl (.inl hq)
        · refine .inl (.inr ?_)
          rw [hs']
          exact List.mem_cons_of_mem _ hq
        · refine .inl (.inr ?_)
          rw [hs']
          exact List.mem_cons_self
      · rw [hs']
        rintro q (hq | hq)
        · exact hretract.inside q (.inl hq)
        · rcases List.mem_cons.1 hq with rfl | hq
          · exact hAn
          · exact hretract.inside q (.inr hq)
    · rw [hs']
      intro q hq
      rcases List.mem_cons.1 hq with rfl | hq
      · -- the source is dark already, so the lit cell is another one and held its old level
        have hqp : shift c d ≠ p := by
          intro hqp
          rw [hqp, hretract.origin] at hlit
          omega
        rcases hretract.kept _ hqp with hkept | ⟨h0, _, _⟩
        · exact ⟨fun heq => absurd heq hqp, fun _ => by omega, hnext⟩
        · omega
      · exact hcells q hq
    · intro e he
      by_cases hqn : shift c e = shift c d
      · refine .inr fun _ => .inl ?_
        rw [hqn, Function.update_self]
      · rcases hdone e he with hmem | hpassed
        · rcases List.mem_cons.1 hmem with rfl | hmem
          · exact absurd rfl hqn
          · exact .inl hmem
        · right
          rw [hbright]
          unfold Passed
          rwa [Function.update_of_ne hqn]

/-- After the turn the cell is fenced in. -/
theorem TurnDarkens.finish {s : Retraction V} {L : Levels} {p c : Pos} {v t : Nat}
    {rest : List Pos} (ht : t ≤ v)
    (hrest : ∀ q ∈ c :: rest, InWave (f.Conducts reg) L p v t q)
    (h : TurnDarkens A Good reg f k L p v t c rest [] s) :
    RetractRuns A Good reg f k L p v t rest s := by
  rcases h with ⟨D, hshow, hretract, hcells, hdone⟩
  refine ⟨D, hshow, hretract.weaken le_rfl ?_ ?_,
    fun q hq => hrest q (List.mem_cons_of_mem c hq), hcells⟩
  · rintro q (hq | hq)
    · rcases List.mem_cons.1 hq with rfl | hq
      · -- all neighbours of `q` are passed
        right
        rintro n ⟨d, hd, rfl⟩ hA
        rcases hrest q List.mem_cons_self with ⟨horigin, hother, -⟩
        rcases hdone d hd with hnil | hpassed
        · exact absurd hnil List.not_mem_nil
        · rcases hpassed hA with h0 | ⟨hb, hge⟩ | ⟨hC, hlow⟩
          · exact .inl h0
          · exact .inr (.inl ⟨hb, fun hqp => (horigin hqp).trans hge,
              fun hqp => (hother hqp).trans hge⟩)
          · exact .inr (.inr ⟨hC, hlow.trans_le ht⟩)
      · exact .inl (.inl hq)
    · exact .inl (.inr hq)
  · rintro q (hq | hq)
    · exact hretract.inside q (.inl (List.mem_cons_of_mem c hq))
    · exact hretract.inside q (.inr hq)

include laws in
/-- A cell of the wave has its turn, and needs nothing more after it. -/
theorem darkenAround_ensures {s : Retraction V} {L : Levels} {p c : Pos} {v t : Nat}
    {rest : List Pos} (hpos : 0 < t) (ht : t ≤ v)
    (h : RetractRuns A Good reg f k L p v t (c :: rest) s) :
    Ensures faulty (darkenAround reg k t s c) (RetractRuns A Good reg f k L p v t rest) := by
  rcases h with ⟨D, hshow, hretract, hrest, hcells⟩
  have hstart : TurnDarkens A Good reg f k L p v t c rest directions s :=
    ⟨D, hshow, hretract, hcells, fun d hd => .inl hd⟩
  unfold darkenAround
  apply (Ensures.foldlM (I := TurnDarkens A Good reg f k L p v t c rest)
    (fun d ds s hd hs => darkenTurn_ensures laws hpos ht hd
      (hrest c List.mem_cons_self).arrives hs) hstart).mono
  intro s' hs'
  exact hs'.finish ht hrest

include laws in
/-- From wave to wave until the levels are used up: the darkened region is fenced in. -/
theorem retractWaves_ensures {L : Levels} {p : Pos} {v t : Nat} (hv : 0 < v) (ht : t ≤ v)
    {wave bright : List Pos} {vol : V} {D : Levels} (hshow : Shows Good f k vol D)
    (hretract : Retracting A (f.Conducts reg) L p v t (· ∈ wave) (· ∈ bright) D)
    (hwave : ∀ q ∈ wave, InWave (f.Conducts reg) L p v t q) :
    Ensures faulty (retractWaves reg k t wave bright vol) fun r => ∃ D',
      Shows Good f k r.1 D' ∧ Darkened A (f.Conducts reg) L p v D' (· ∈ r.2) := by
  induction t generalizing wave bright vol D with
  | zero =>
    refine Ensures.pure ⟨D, hshow, hretract.origin, hretract.kept, hretract.traced, ?_, ?_⟩
    · intro q hq
      exact ⟨(hretract.lit q hq).1, (hretract.lit q hq).2.1⟩
    · intro q hq
      refine (hretract.border q hq).resolve_left fun hmem => ?_
      -- nothing that held level zero was darkened
      rcases hwave q hmem with ⟨horigin, hother, -⟩
      by_cases hqp : q = p
      · have := horigin hqp
        omega
      · have := hother hqp
        rcases hq with hqp' | hne
        · exact hqp hqp'
        · rcases hretract.kept q hqp with hkept | ⟨h0, _, _⟩
          · exact hne hkept
          · omega
  | succ t ih =>
    unfold retractWaves
    have hstart : RetractRuns A Good reg f k L p v (t + 1) wave ⟨vol, [], bright⟩ := by
      refine ⟨D, hshow, hretract.weaken le_rfl (fun q hq => .inl (.inl hq)) ?_, hwave, nofun⟩
      rintro q (hq | hq)
      · exact hretract.inside q hq
      · cases hq
    -- the cells darkened in this wave are the next one
    refine (Ensures.foldlM (I := RetractRuns A Good reg f k L p v (t + 1))
      (fun c rest s _ hs => darkenAround_ensures laws (Nat.succ_pos t) ht hs) hstart).bind ?_
    intro s hs
    rcases hs with ⟨D', hshow', hretract', -, hcells⟩
    refine ih (by omega) hshow' (hretract'.weaken (Nat.le_succ t) ?_ ?_) ?_
    · rintro q (hq | hq)
      · exact absurd hq List.not_mem_nil
      · exact .inl (List.mem_reverse.2 hq)
    · intro q hq
      exact hretract'.inside q (.inr (List.mem_reverse.1 hq))
    · intro q hq
      exact hcells q (List.mem_reverse.1 hq)

/-! ## Spreading the border again -/

include laws in
/-- A bright cell is spread with the level that it holds. -/
theorem respread_ensures {vol : V} {L : Levels} {p : Pos} (hshow : Shows Good f k vol L)
    (hp : A p) (hpos : 0 < L p) :
    Ensures faulty (respread reg k vol p) fun vol' => ∃ L',
      Shows Good f k vol' L' ∧ SpreadFrom A (f.Conducts reg) L p (L p) L' := by
  unfold respread
  apply (hshow.light laws (Near.inside hp)).bind_eq
  exact spread_ensures laws hshow hp hpos (hshow.level_le laws p)

/-- Spreading a cell at its own level only makes cells brighter. -/
theorem SpreadFrom.grown_of_own {A C : Pos → Prop} {L L' : Levels} {p : Pos}
    (h : SpreadFrom A C L p (L p) L') : Grown A C L L' := by
  have := h.grown
  rwa [Function.update_eq_self] at this

include laws in
/-- Retracting a source of the region. -/
theorem retract_ensures {vol : V} {L : Levels} {p : Pos} {v : Nat}
    (hshow : Shows Good f k vol L) (hp : A p) (hpos : 0 < v) (hv : v ≤ maxLight) :
    Ensures faulty (retract reg vol p k v) fun vol' => ∃ L',
      Shows Good f k vol' L' ∧ Retracted A (f.Conducts reg) L p v L' := by
  unfold retract
  rw [Nat.min_eq_left hv]
  apply (hshow.setLight laws hp (Nat.zero_le _)).bind
  intro vol₁ hshow₁
  -- only the origin is dark, and it alone waits
  have hstart : Retracting A (f.Conducts reg) L p v v (· ∈ [p]) (· ∈ [])
      (Function.update L p 0) := by
    refine ⟨Function.update_self .., ?_, ?_, nofun, ?_, ?_⟩
    · intro q hq
      rw [Function.update_of_ne hq]
      exact .inl rfl
    · intro q hq hne
      rw [Function.update_of_ne hq] at hne
      exact absurd rfl hne
    · intro q hq
      refine .inl (List.mem_singleton.2 ?_)
      by_contra hqp
      rw [Function.update_of_ne hqp] at hq
      exact hq.elim hqp fun hne => hne rfl
    · intro q hq
      rw [List.mem_singleton.1 hq]
      exact hp
  have hwave : ∀ q ∈ [p], InWave (f.Conducts reg) L p v v q := by
    intro q hq
    rw [List.mem_singleton.1 hq]
    exact ⟨fun _ => le_rfl, fun hne => absurd rfl hne, .start⟩
  apply (retractWaves_ensures laws hpos le_rfl hshow₁ hstart hwave).bind
  rintro ⟨vol₂, bright⟩ ⟨D, hshow₂, hdark⟩
  -- each bright cell is spread, and what was spread before stays spread
  refine (Ensures.foldlM (I := fun rest vol => ∃ L', Shows Good f k vol L' ∧
      Grown A (f.Conducts reg) D L' ∧ ∀ q ∈ bright, q ∈ rest ∨ Even (f.Conducts reg) L' q)
    ?_ ⟨D, hshow₂, Grown.refl, fun q hq => .inl (List.mem_reverse.2 hq)⟩).mono ?_
  · rintro c rest vol₃ hc ⟨L', hshow₃, hgrown, heven⟩
    rcases hdark.lit c (List.mem_reverse.1 hc) with ⟨hA, hlit⟩
    apply (respread_ensures laws hshow₃ hA (hlit.trans_le (hgrown.mono c))).mono
    intro vol₄ hvol₄
    rcases hvol₄ with ⟨L'', hshow₄, hspread⟩
    refine ⟨L'', hshow₄, hgrown.trans hspread.grown_of_own, fun q hq => ?_⟩
    rcases heven q hq with hmem | he
    · rcases List.mem_cons.1 hmem with rfl | hmem
      · exact .inr hspread.even
      · exact .inl hmem
    · exact .inr (hspread.grown_of_own.even_of_even he)
  · intro vol₃ hvol₃
    rcases hvol₃ with ⟨L', hshow₃, hgrown, heven⟩
    exact ⟨L', hshow₃, D, (· ∈ bright), hdark, hgrown,
      fun q hq => (heven q hq).resolve_left List.not_mem_nil⟩

end VoxelWorld.Light
