import VoxelWorld.Proofs.Light.Volume

/-!
# Proofs.Light.Worklist — the floods by a queue

A flood takes its cells from a queue: the cell at the front has its turn, and the cells that it
brings in go to the end, one level darker. Its waves are the stretches of the queue with one level.

* `Worklist` keeps the entries that had their turn beside those that wait; `turns` is so many turns.
* `waves` takes the same cells wave by wave, and `waves_eq_turns` says that both come to the same.
* `spreadQueue` and `retractQueue` are the two floods after so many turns. They end with what
  `spread` and `retract` give (`spread_eq_queue`, `retract_eq_queue`).
-/

namespace VoxelWorld

/-- A map between states that commutes with the rounds of two loops commutes with the loops. -/
theorem Checked.foldlM_hom {α σ τ : Type} {f : σ → α → Checked σ} {g : τ → α → Checked τ}
    {φ : σ → τ} {l : List α} (h : ∀ s a, g (φ s) a = φ <$> f s a) (s : σ) :
    l.foldlM g (φ s) = φ <$> l.foldlM f s := by
  induction l generalizing s with
  | nil => rfl
  | cons a rest ih =>
    rw [List.foldlM_cons, List.foldlM_cons, h, map_bind, bind_map_left]
    exact bind_congr ih

namespace Light

/-! ## Queues -/

/-- The state of a flood, the entries of the queue that had their turn, and those that wait. An
entry is a cell with its level. -/
structure Worklist (σ : Type) where
  state : σ
  past : List (Pos × Nat)
  queue : List (Pos × Nat)

namespace Worklist

variable {σ : Type}

/-- All that was ever put on the queue, in order. -/
def entries (s : Worklist σ) : List (Pos × Nat) := s.past ++ s.queue

/-- The cell at the front has its turn. `around` does what there is to do at a cell with a level,
and gives the cells that it brings in. -/
def turn (around : Nat → Pos → σ → Checked (σ × List Pos)) (s : Worklist σ) :
    Checked (Worklist σ) :=
  match s.queue with
  | [] => return s
  | (p, lv) :: rest => do
    let (state, cells) ← around lv p s.state
    return ⟨state, s.past ++ [(p, lv)], rest ++ cells.map (·, lv - 1)⟩

/-- Takes a number of turns, and none once the queue is empty. -/
def turns (around : Nat → Pos → σ → Checked (σ × List Pos)) :
    Nat → Worklist σ → Checked (Worklist σ)
  | 0, s => return s
  | n + 1, s => do turns around n (← s.turn around)

end Worklist

open Worklist (turns)

section Waves

variable {σ : Type} (around : Nat → Pos → σ → Checked (σ × List Pos))

/-- The turn of a cell of a wave, with the cells of the next wave so far. -/
def waveTurn (lv : Nat) (s : σ × List Pos) (p : Pos) : Checked (σ × List Pos) := do
  let (state, cells) ← around lv p s.1
  return (state, s.2 ++ cells)

/-- The same flood, wave by wave. -/
def waves : Nat → List Pos → σ → Checked σ
  | 0, _, s => return s
  | lv + 1, wave, s => do
    let (s, next) ← wave.foldlM (waveTurn around (lv + 1)) (s, [])
    waves lv next s

/-- Turns may be taken in two parts. -/
theorem turns_add (m n : Nat) (s : Worklist σ) :
    turns around (m + n) s = turns around m s >>= turns around n := by
  induction m generalizing s with
  | zero => rw [Nat.zero_add, turns, pure_bind]
  | succ m ih =>
    rw [Nat.succ_add, turns, turns, bind_assoc]
    exact bind_congr ih

/-- A wave at the front of the queue has its turns, and the next wave is behind it. -/
theorem turns_wave (lv : Nat) (wave next : List Pos) (s : σ) (past : List (Pos × Nat)) :
    turns around wave.length ⟨s, past, wave.map (·, lv) ++ next.map (·, lv - 1)⟩ =
      (fun r => ⟨r.1, past ++ wave.map (·, lv), r.2.map (·, lv - 1)⟩) <$>
        wave.foldlM (waveTurn around lv) (s, next) := by
  induction wave generalizing next s past with
  | nil =>
    rw [List.foldlM_nil, map_pure, List.map_nil, List.append_nil]
    rfl
  | cons p rest ih =>
    rw [List.foldlM_cons, map_bind, waveTurn, bind_assoc, List.length_cons, turns, Worklist.turn,
      List.map_cons, List.cons_append]
    simp only [bind_assoc, pure_bind]
    refine bind_congr fun r => ?_
    have hqueue : rest.map (·, lv) ++ next.map (·, lv - 1) ++ r.2.map (·, lv - 1) =
        rest.map (·, lv) ++ (next ++ r.2).map (·, lv - 1) := by
      rw [List.append_assoc, ← List.map_append]
    have hpast : past ++ (p, lv) :: rest.map (·, lv) = past ++ [(p, lv)] ++ rest.map (·, lv) := by
      rw [List.append_assoc, List.singleton_append]
    rw [hqueue, ih, hpast]

variable {around}

/-- The queue comes to an end, and to what the waves come to. -/
theorem waves_eq_turns (hlast : ∀ p s r, around 1 p s = .ok r → r.2 = []) (lv : Nat)
    (wave : List Pos) (hwave : lv = 0 → wave = []) (s : σ) (past : List (Pos × Nat)) :
    ∃ n, waves around lv wave s =
        Worklist.state <$> turns around n ⟨s, past, wave.map (·, lv)⟩ ∧
      ∀ s', turns around n ⟨s, past, wave.map (·, lv)⟩ = .ok s' → s'.queue = [] := by
  induction lv generalizing wave s past with
  | zero =>
    refine ⟨0, rfl, fun s' hs' => ?_⟩
    rw [hwave rfl] at hs'
    cases hs'
    rfl
  | succ lv ih =>
    have hturns := turns_wave around (lv + 1) wave [] s past
    rw [List.map_nil, List.append_nil] at hturns
    rw [waves]
    cases hfold : wave.foldlM (waveTurn around (lv + 1)) (s, []) with
    | error e =>
      -- the turn that stops the wave also stops the queue
      refine ⟨wave.length, ?_, ?_⟩
      · rw [hturns, hfold]
        rfl
      · rw [hturns, hfold]
        nofun
    | ok r =>
      -- a wave at level one brings in nothing, so no entry is left at level zero
      have hnext : lv = 0 → r.2 = [] := by
        rintro rfl
        have hnone : Ensures True (wave.foldlM (waveTurn around 1) (s, []))
            fun r : σ × List Pos => r.2 = [] := by
          refine Ensures.foldlM_inv (fun p t _ ht => ?_) rfl
          refine Ensures.intro (fun u hu => ?_) fun _ _ => trivial
          obtain ⟨v, hv, hu⟩ := Checked.bind_eq_ok.1 hu
          cases hu
          rw [ht, hlast p t.1 v hv]
          rfl
        exact hnone.of_eq_ok hfold
      obtain ⟨n, hstate, hempty⟩ := ih r.2 hnext r.1 (past ++ wave.map (·, lv + 1))
      have hsplit : turns around (wave.length + n) ⟨s, past, wave.map (·, lv + 1)⟩ =
          turns around n ⟨r.1, past ++ wave.map (·, lv + 1), r.2.map (·, lv)⟩ := by
        rw [turns_add, hturns, hfold]
        rfl
      refine ⟨wave.length + n, ?_, ?_⟩
      · rw [hsplit]
        exact hstate
      · rw [hsplit]
        exact hempty

end Waves

/-! ## Rounds -/

variable {V : Type} [LightVolume V] {reg : Registry} {k : LightKind}

/-- A step that does not stop leads to the shifted position. -/
theorem step_partial {p : Pos} {d : Int × Int × Int} :
    Ensures True (step p d) (· = shift p d) := by
  unfold step Pos.offset
  apply (checkCoord_ensures _ fun _ => trivial).bind_eq
  apply (checkCoord_ensures _ fun _ => trivial).bind_eq
  apply (checkCoord_ensures _ fun _ => trivial).bind_eq
  exact Ensures.pure rfl

/-- Reading light gives what the field shows, or stops. -/
theorem light_partial {vol : V} {p : Pos} :
    Ensures True (LightVolume.light vol p k) (· = (LightVolume.field vol).level k p) :=
  Ensures.toOption fun _ _ => trivial

/-- Where it is said whether light is accepted, the field says the same. -/
theorem acceptsLight_partial {vol : V} {p : Pos} :
    Ensures True (LightVolume.acceptsLight vol p) (· = (LightVolume.field vol).accepts p) :=
  Ensures.toOption fun _ _ => trivial

/-- What a round of spreading comes to, if it comes to anything: nothing, or a cell that is raised
and joins the next wave. -/
theorem raise_partial {t : Nat} {p : Pos} {s : Wave V} {d : Int × Int × Int} :
    Ensures True (raise reg k t p s d) fun s' => s' = s ∨
      s'.cells = shift p d :: s.cells ∧
        LightVolume.setLight s.vol (shift p d) k t = .ok s'.vol ∧
        (LightVolume.field s.vol).accepts (shift p d) = true ∧
        (LightVolume.field s.vol).level k (shift p d) < t := by
  unfold raise conducts
  apply step_partial.bind_eq
  apply light_partial.bind_eq
  refine Ensures.ite (fun hlt => ?_) fun _ => Ensures.pure (.inl rfl)
  -- a cell that lets light in was accepted; its block is of no interest here
  refine Ensures.bind (P := fun b => b = true →
    (LightVolume.field s.vol).accepts (shift p d) = true) ?_ ?_
  · apply acceptsLight_partial.bind_eq
    refine Ensures.ite (fun hacc => ?_) fun _ => Ensures.pure nofun
    apply (Ensures.anyhow trivial).bind
    intro id _
    exact Ensures.pure fun _ => hacc
  · intro b hb
    refine Ensures.ite (fun htrue => ?_) fun _ => Ensures.pure (.inl rfl)
    apply ((Ensures.anyhow trivial).and_eq_ok).bind
    rintro vol' ⟨-, hset⟩
    exact Ensures.pure (.inr ⟨rfl, hset, hb htrue, hlt⟩)

/-! ## Spreading -/

/-- The turn of a cell that was raised to a level. A cell at level one or below sheds no light. -/
def spreadAround (reg : Registry) (k : LightKind) (lv : Nat) (p : Pos) (vol : V) :
    Checked (V × List Pos) :=
  if lv < 2 then return (vol, [])
  else do
    let s ← raiseAround reg k (lv - 1) ⟨vol, []⟩ p
    return (s.vol, s.cells.reverse)

/-- Spreading after so many turns. -/
def spreadQueue (reg : Registry) (vol : V) (origin : Pos) (k : LightKind) (value n : Nat) :
    Checked (Worklist V) := do
  match min value maxLight with
  | 0 => return ⟨vol, [], []⟩
  | lv + 1 =>
    let vol ← LightVolume.setLight vol origin k (lv + 1)
    turns (spreadAround reg k) n ⟨vol, [], [(origin, lv + 1)]⟩

/-- A round of spreading does not look at the cells raised so far. -/
theorem raise_append (reg : Registry) (k : LightKind) (t : Nat) (p : Pos) (cells : List Pos)
    (s : Wave V) (d : Int × Int × Int) :
    raise reg k t p ⟨s.vol, s.cells ++ cells⟩ d =
      (fun w => ⟨w.vol, w.cells ++ cells⟩) <$> raise reg k t p s d := by
  unfold raise
  simp only [map_bind, apply_ite, map_pure, List.cons_append]

/-- Cells that are in the wave already stay at its end. -/
theorem raiseAround_append (t : Nat) (vol : V) (cells : List Pos) (p : Pos) :
    raiseAround reg k t ⟨vol, cells⟩ p =
      (fun w => ⟨w.vol, w.cells ++ cells⟩) <$> raiseAround reg k t ⟨vol, []⟩ p := by
  have hfold := Checked.foldlM_hom (l := directions) (raise_append reg k t p cells)
    (⟨vol, []⟩ : Wave V)
  rw [List.nil_append] at hfold
  unfold raiseAround
  simp only [map_bind, apply_ite, map_pure, hfold, List.nil_append]

/-- Spreading is the flood of its turns, wave by wave. -/
theorem spreadWaves_eq_waves (t : Nat) (wave : List Pos) (vol : V) :
    spreadWaves reg k t wave vol = waves (spreadAround reg k) (t + 1) wave vol := by
  induction t generalizing wave vol with
  | zero =>
    -- no light is shed at level one
    have hfold : wave.foldlM (waveTurn (spreadAround reg k) 1) (vol, []) = .ok (vol, []) := by
      refine Checked.foldlM_fixed fun p _ => ?_
      rfl
    rw [waves, hfold]
    rfl
  | succ t ih =>
    have hturn : ∀ (s : Wave V) (p : Pos),
        waveTurn (spreadAround reg k) (t + 2) (s.vol, s.cells.reverse) p =
          (fun w => (w.vol, w.cells.reverse)) <$> raiseAround reg k (t + 1) s p := by
      rintro ⟨vol, cells⟩ p
      rw [raiseAround_append, waveTurn, spreadAround, if_neg (by omega)]
      simp only [bind_assoc, pure_bind, List.reverse_append, map_eq_pure_bind]
      rfl
    have hfold := Checked.foldlM_hom (l := wave) hturn ⟨vol, []⟩
    rw [List.reverse_nil] at hfold
    rw [spreadWaves, waves, hfold, bind_map_left]
    exact bind_congr fun s => ih s.cells.reverse s.vol

/-- Spreading comes to the end of its queue, and gives the volume there. -/
theorem spread_eq_queue (reg : Registry) (vol : V) (o : Pos) (k : LightKind) (v : Nat) :
    ∃ n, spread reg vol o k v = Worklist.state <$> spreadQueue reg vol o k v n ∧
      ∀ s, spreadQueue reg vol o k v n = .ok s → s.queue = [] := by
  unfold spread spreadQueue
  cases min v maxLight with
  | zero =>
    refine ⟨0, rfl, fun s hs => ?_⟩
    cases hs
    rfl
  | succ lv =>
    simp only
    cases LightVolume.setLight vol o k (lv + 1) with
    | error e => exact ⟨0, rfl, nofun⟩
    | ok vol' =>
      -- a cell at level one sheds no light, so the last wave is empty
      have hlast : ∀ (p : Pos) (s : V) r, spreadAround reg k 1 p s = .ok r → r.2 = [] := by
        intro p s r hr
        cases hr
        rfl
      obtain ⟨n, hstate, hempty⟩ :=
        waves_eq_turns hlast (lv + 1) [o] nofun vol' []
      refine ⟨n, ?_, hempty⟩
      show spreadWaves reg k lv [o] vol' = _
      rw [spreadWaves_eq_waves]
      exact hstate

/-! ## Retracting -/

/-- The turn of a cell that held at most a level, with the bright cells found so far. -/
def retractAround (reg : Registry) (k : LightKind) (lv : Nat) (p : Pos) (s : V × List Pos) :
    Checked ((V × List Pos) × List Pos) := do
  let r ← darkenAround reg k lv ⟨s.1, [], s.2⟩ p
  return ((r.vol, r.bright), r.cells.reverse)

/-- The loop that takes light back after so many turns. -/
def retractQueue (reg : Registry) (vol : V) (origin : Pos) (k : LightKind) (value n : Nat) :
    Checked (Worklist (V × List Pos)) := do
  let vol ← LightVolume.setLight vol origin k 0
  match min value maxLight with
  | 0 => return ⟨(vol, []), [], []⟩
  | lv + 1 => turns (retractAround reg k) n ⟨(vol, []), [], [(origin, lv + 1)]⟩

/-- What a round of taking back comes to, if it comes to anything: nothing, a bright cell more,
or a cell that goes dark and joins the next wave. -/
theorem darken_partial {t : Nat} {p : Pos} {s : Retraction V} {d : Int × Int × Int} :
    Ensures True (darken reg k t p s d) fun s' => s' = s ∨
      s' = { s with bright := shift p d :: s.bright } ∧
          (LightVolume.field s.vol).accepts (shift p d) = true ∧
          t ≤ (LightVolume.field s.vol).level k (shift p d) ∨
        s'.cells = shift p d :: s.cells ∧ s'.bright = s.bright ∧
          LightVolume.setLight s.vol (shift p d) k 0 = .ok s'.vol ∧
          (LightVolume.field s.vol).accepts (shift p d) = true ∧
          0 < (LightVolume.field s.vol).level k (shift p d) ∧
          (LightVolume.field s.vol).level k (shift p d) < t := by
  unfold darken
  apply step_partial.bind_eq
  apply acceptsLight_partial.bind_eq
  refine Ensures.ite (fun hacc => ?_) fun _ => Ensures.pure (.inl rfl)
  apply light_partial.bind_eq
  -- the branches of the loop: noted as bright, or written dark
  refine Ensures.ite (fun hge => ?_) fun hlt => ?_
  · refine Ensures.ite (fun _ => Ensures.pure (.inl rfl)) fun _ => ?_
    exact Ensures.pure (.inr (.inl ⟨rfl, hacc, hge⟩))
  · refine Ensures.ite (fun _ => Ensures.pure (.inl rfl)) fun hlit => ?_
    apply (Ensures.anyhow trivial).bind
    intro id _
    refine Ensures.ite (fun _ => ?_) fun _ => Ensures.pure (.inl rfl)
    apply ((Ensures.anyhow trivial).and_eq_ok).bind
    rintro vol' ⟨-, hset⟩
    exact Ensures.pure (.inr (.inr ⟨rfl, rfl, hset, hacc, by omega, by omega⟩))

/-- A round of retracting does not look at the cells darkened so far. -/
theorem darken_append (reg : Registry) (k : LightKind) (t : Nat) (p : Pos) (cells : List Pos)
    (s : Retraction V) (d : Int × Int × Int) :
    darken reg k t p ⟨s.vol, s.cells ++ cells, s.bright⟩ d =
      (fun r => ⟨r.vol, r.cells ++ cells, r.bright⟩) <$> darken reg k t p s d := by
  unfold darken
  rw [map_bind]
  refine bind_congr fun n => ?_
  rw [map_bind]
  refine bind_congr fun accepted => ?_
  cases accepted with
  | false => rfl
  | true =>
    -- each way through the loop leaves the cells of the wave alone, or adds one in front
    simp only [if_true, map_bind]
    refine bind_congr fun v => ?_
    split
    · split <;> rfl
    · split
      · rfl
      · rw [map_bind]
        refine bind_congr fun id => ?_
        split
        · rw [map_bind]
          rfl
        · rfl

/-- Taking back keeps what is in the wave already, as spreading does. -/
theorem darkenAround_append (t : Nat) (vol : V) (cells bright : List Pos) (p : Pos) :
    darkenAround reg k t ⟨vol, cells, bright⟩ p =
      (fun r => ⟨r.vol, r.cells ++ cells, r.bright⟩) <$>
        darkenAround reg k t ⟨vol, [], bright⟩ p := by
  have hfold := Checked.foldlM_hom (l := directions)
    (darken_append reg k t p cells) (⟨vol, [], bright⟩ : Retraction V)
  rwa [List.nil_append] at hfold

/-- Nothing is darker than level one but still lit. -/
theorem retractAround_last (p : Pos) (s : V × List Pos) (r : (V × List Pos) × List Pos)
    (h : retractAround reg k 1 p s = .ok r) : r.2 = [] := by
  obtain ⟨t, ht, h⟩ := Checked.bind_eq_ok.1 h
  cases h
  have hnone : Ensures True (darkenAround reg k 1 ⟨s.1, [], s.2⟩ p)
      fun t : Retraction V => t.cells = [] := by
    refine Ensures.foldlM_inv (fun d u _ hu => ?_) rfl
    apply darken_partial.mono
    rintro u' (rfl | ⟨rfl, -, -⟩ | ⟨-, -, -, -, hlit, hdark⟩)
    · exact hu
    · exact hu
    · omega
  show t.cells.reverse = []
  rw [hnone.of_eq_ok ht, List.reverse_nil]

/-- Taking back is the flood of its turns too. -/
theorem retractWaves_eq_waves (t : Nat) (wave bright : List Pos) (vol : V) :
    retractWaves reg k t wave bright vol = waves (retractAround reg k) t wave (vol, bright) := by
  induction t generalizing wave bright vol with
  | zero => rfl
  | succ t ih =>
    -- the wave is kept in reverse while it grows
    have hturn : ∀ (s : Retraction V) (p : Pos),
        waveTurn (retractAround reg k) (t + 1) ((s.vol, s.bright), s.cells.reverse) p =
          (fun r => ((r.vol, r.bright), r.cells.reverse)) <$> darkenAround reg k (t + 1) s p := by
      rintro ⟨vol, cells, bright⟩ p
      rw [darkenAround_append, waveTurn, retractAround]
      simp only [bind_assoc, pure_bind, List.reverse_append, map_eq_pure_bind]
    have hfold := Checked.foldlM_hom (l := wave) hturn ⟨vol, [], bright⟩
    rw [List.reverse_nil] at hfold
    rw [retractWaves, waves, hfold, bind_map_left]
    exact bind_congr fun s => ih s.cells.reverse s.bright s.vol

/-- The loop comes to the end of its queue, and what is left is to spread the bright cells. -/
theorem retract_eq_queue (reg : Registry) (vol : V) (o : Pos) (k : LightKind) (v : Nat) :
    ∃ n, retract reg vol o k v = (do
        let s ← retractQueue reg vol o k v n
        s.state.2.reverse.foldlM (respread reg k) s.state.1) ∧
      ∀ s, retractQueue reg vol o k v n = .ok s → s.queue = [] := by
  unfold retract retractQueue
  cases LightVolume.setLight vol o k 0 with
  | error e => exact ⟨0, rfl, nofun⟩
  | ok vol' =>
    cases min v maxLight with
    | zero =>
      -- nothing waits when no light was given
      refine ⟨0, rfl, fun s hs => ?_⟩
      cases hs
      rfl
    | succ lv =>
      obtain ⟨n, hstate, hempty⟩ :=
        waves_eq_turns retractAround_last (lv + 1) [o] nofun (vol', []) []
      refine ⟨n, ?_, hempty⟩
      show (retractWaves reg k (lv + 1) [o] [] vol' >>= fun r =>
        r.2.reverse.foldlM (respread reg k) r.1) = _
      rw [retractWaves_eq_waves, hstate, bind_map_left]
      rfl

end Light

end VoxelWorld
