import VoxelWorld.Proofs.Light.Reach
import VoxelWorld.Proofs.Light.Worklist

/-!
# Proofs.Light.Once — no cell waits twice

What a flood puts on its queue, and that it comes to an end, does not depend on the light that it
finds: levels may be inconsistent, and the origin may be outside the volume, where writes are
dropped.

* `Orderly` is said of a queue: each cell once, levels that do not increase, and no cell as many
  steps from the origin as the level there.
* A cell on the queue is marked by its light: spreading has raised it, taking back has made it dark.
  `TurnFrom` is what a turn may do, and `Tallied` what the queue keeps if all turns are such
  (`Tallied.turn`, `Tallied.turns`).
* `spread_fair` and `retract_fair` are the two floods.
* `floods_queue_once` sums it up for a chunk on its own.
-/

namespace VoxelWorld.Light

open Worklist (turns)

/-! ## Queues that keep order -/

section Queue

variable {σ : Type}

/-- All that was put on the queue: different cells, with levels that do not increase from front to
end, each fewer steps from the origin than the level there. -/
structure Orderly (o : Pos) (v : Nat) (s : Worklist σ) : Prop where
  once : (s.entries.map Prod.fst).Nodup
  falling : s.entries.Pairwise fun a b => b.2 ≤ a.2
  within : ∀ a ∈ s.entries, taxicab a.1 o < v

/-- What to look at in the states of a flood: which ones are good for a turn at a level, which
entries leave a mark, and what stays as it is from one state to a later one. -/
structure Tally (σ : Type) where
  Good : Nat → σ → Prop
  Marked : σ → Pos → Nat → Prop
  Kept : σ → σ → Prop

/-- What the turn of a cell may do. The cells that it brings in are different cells beside it. They
had no mark that an entry of their level or above would have left, and have it now. -/
structure TurnFrom (T : Tally σ) (lv : Nat) (p : Pos) (s s' : σ) (new : List Pos) : Prop where
  good : T.Good lv s'
  kept : T.Kept s s'
  marks : ∀ q l, T.Marked s q l → T.Marked s' q l
  once : new.Nodup
  beside : ∀ q ∈ new, Adjacent p q
  shed : ∀ q ∈ new, 2 ≤ lv
  fresh : ∀ q ∈ new, ∀ l, lv - 1 ≤ l → ¬ T.Marked s q l
  marked : ∀ q ∈ new, T.Marked s' q (lv - 1)

/-- A flood all of whose turns are such, up to a level. -/
structure Fair (around : Nat → Pos → σ → Checked (σ × List Pos)) (m : Nat) (T : Tally σ) :
    Prop where
  fewer : ∀ {l l' s}, l ≤ l' → T.Good l' s → T.Good l s
  refl : ∀ s, T.Kept s s
  trans : ∀ {s t u}, T.Kept s t → T.Kept t u → T.Kept s u
  turn : ∀ {lv p s r}, lv ≤ m → T.Good lv s → around lv p s = .ok r →
    TurnFrom T lv p s r.1 r.2

/-- A queue in order whose entries have left their marks. At each time there are at most two levels
on the queue. -/
structure Tallied (T : Tally σ) (o : Pos) (v : Nat) (s : Worklist σ) : Prop where
  once : (s.entries.map Prod.fst).Nodup
  falling : s.entries.Pairwise fun a b => b.2 ≤ a.2
  span : ∀ a ∈ s.queue, ∀ b ∈ s.queue, a.2 ≤ b.2 + 1
  near : ∀ a ∈ s.entries, 0 < a.2 ∧ taxicab a.1 o + a.2 ≤ v
  marked : ∀ a ∈ s.entries, T.Marked s.state a.1 a.2
  good : ∀ l, (∀ a ∈ s.past, l ≤ a.2) → T.Good l s.state

variable {T : Tally σ} {around : Nat → Pos → σ → Checked (σ × List Pos)} {o p : Pos} {v lv : Nat}

namespace TurnFrom

/-- A turn that does nothing. -/
theorem none {s : σ} (hgood : T.Good lv s) (hkept : T.Kept s s) : TurnFrom T lv p s s [] where
  good := hgood
  kept := hkept
  marks _ _ := id
  once := List.nodup_nil
  beside := nofun
  shed := nofun
  fresh := nofun
  marked := nofun

/-- A turn that brings in one cell. -/
theorem single {s s' : σ} {n : Pos} (hgood : T.Good lv s') (hkept : T.Kept s s')
    (hmarks : ∀ q l, T.Marked s q l → T.Marked s' q l) (hadj : Adjacent p n) (hlv : 2 ≤ lv)
    (hfresh : ∀ l, lv - 1 ≤ l → ¬ T.Marked s n l) (hmarked : T.Marked s' n (lv - 1)) :
    TurnFrom T lv p s s' [n] where
  good := hgood
  kept := hkept
  marks := hmarks
  once := List.nodup_singleton n
  beside := List.forall_mem_singleton.2 hadj
  shed := List.forall_mem_singleton.2 hlv
  fresh := List.forall_mem_singleton.2 hfresh
  marked := List.forall_mem_singleton.2 hmarked

/-- One part of a turn after the other. -/
theorem append {s t u : σ} {new new' : List Pos}
    (htrans : T.Kept s t → T.Kept t u → T.Kept s u) (h : TurnFrom T lv p s t new)
    (h' : TurnFrom T lv p t u new') : TurnFrom T lv p s u (new ++ new') where
  good := h'.good
  kept := htrans h.kept h'.kept
  marks q l hq := h'.marks q l (h.marks q l hq)
  once := by
    -- what the first part brought in has its mark, so the second does not bring it in again
    refine List.nodup_append.2 ⟨h.once, h'.once, ?_⟩
    rintro q hq q' hq' rfl
    exact h'.fresh q hq' (lv - 1) le_rfl (h.marked q hq)
  beside q hq := (List.mem_append.1 hq).elim (h.beside q) (h'.beside q)
  shed q hq := (List.mem_append.1 hq).elim (h.shed q) (h'.shed q)
  fresh q hq l hl hmark := by
    rcases List.mem_append.1 hq with hq | hq
    · exact h.fresh q hq l hl hmark
    · exact h'.fresh q hq l hl (h.marks q l hmark)
  marked q hq := by
    rcases List.mem_append.1 hq with hq | hq
    · exact h'.marks q _ (h.marked q hq)
    · exact h'.marked q hq

end TurnFrom

namespace Tallied

variable {s s' : Worklist σ}

/-- A queue that is tallied is in order. -/
theorem orderly (h : Tallied T o v s) : Orderly o v s where
  once := h.once
  falling := h.falling
  within a ha := by
    have := h.near a ha
    omega

/-- A flood that starts with one entry. -/
theorem start {state : σ} (hv : 0 < v) (hmark : T.Marked state o v)
    (hgood : ∀ l, T.Good l state) : Tallied T o v ⟨state, [], [(o, v)]⟩ := by
  have hone : ∀ a ∈ [(o, v)], a = (o, v) := fun a => List.mem_singleton.1
  constructor
  · exact List.nodup_singleton o
  · exact List.pairwise_singleton _ _
  · intro a ha b hb
    rw [hone a ha, hone b hb]
    exact Nat.le_succ v
  · intro a ha
    rw [hone a ha, taxicab_self, Nat.zero_add]
    exact ⟨hv, le_rfl⟩
  · intro a ha
    rw [hone a ha]
    exact hmark
  · exact fun l _ => hgood l

/-- A flood that has nothing to do. -/
theorem empty {state : σ} (hgood : ∀ l, T.Good l state) :
    Tallied T o v ⟨state, [], []⟩ := by
  constructor
  · exact List.nodup_nil
  · exact List.Pairwise.nil
  · exact nofun
  · exact nofun
  · exact nofun
  · exact fun l _ => hgood l

section Front

variable {state state' : σ} {past rest : List (Pos × Nat)} {new : List Pos}

/-- The entries up to the front are at its level or above, and all are at most one level below. -/
theorem floor (h : Tallied T o v ⟨state, past, (p, lv) :: rest⟩) :
    (∀ a ∈ past, lv ≤ a.2) ∧ ∀ a ∈ past ++ (p, lv) :: rest, lv - 1 ≤ a.2 := by
  have hpast : ∀ a ∈ past, lv ≤ a.2 := fun a ha =>
    (List.pairwise_append.1 h.falling).2.2 a ha (p, lv) List.mem_cons_self
  refine ⟨hpast, fun a ha => ?_⟩
  rcases List.mem_append.1 ha with ha | ha
  · have := hpast a ha
    omega
  · have := h.span (p, lv) List.mem_cons_self a ha
    omega

/-- The cell at the front has had its turn. The entries from before have marks at the level of the
new ones, so the new ones are other cells. -/
theorem next (fair : Fair around v T) (h : Tallied T o v ⟨state, past, (p, lv) :: rest⟩)
    (hturn : TurnFrom T lv p state state' new) :
    Tallied T o v ⟨state', past ++ [(p, lv)], rest ++ new.map (·, lv - 1)⟩ := by
  have hentries : Worklist.entries ⟨state', past ++ [(p, lv)], rest ++ new.map (·, lv - 1)⟩ =
      past ++ (p, lv) :: rest ++ new.map (·, lv - 1) := by
    simp only [Worklist.entries, List.append_assoc, List.cons_append, List.nil_append]
  have hmem : ∀ {P : Pos × Nat → Prop}, (∀ a ∈ past ++ (p, lv) :: rest, P a) →
      (∀ q ∈ new, P (q, lv - 1)) → ∀ a ∈ past ++ (p, lv) :: rest ++ new.map (·, lv - 1), P a := by
    intro P hold hnew a ha
    rcases List.mem_append.1 ha with ha | ha
    · exact hold a ha
    · obtain ⟨q, hq, rfl⟩ := List.mem_map.1 ha
      exact hnew q hq
  have hp := h.near (p, lv) (List.mem_append_right past List.mem_cons_self)
  constructor
  · have hcells : new.map (Prod.fst ∘ (·, lv - 1)) = new := List.map_id new
    rw [hentries, List.map_append, List.map_map, hcells, List.nodup_append]
    refine ⟨h.once, hturn.once, ?_⟩
    rintro q hq q' hq' rfl
    obtain ⟨a, ha, rfl⟩ := List.mem_map.1 hq
    exact hturn.fresh a.1 hq' a.2 (h.floor.2 a ha) (h.marked a ha)
  · rw [hentries, List.pairwise_append, List.pairwise_map]
    refine ⟨h.falling, List.pairwise_of_forall fun _ _ => le_rfl, fun a ha b hb => ?_⟩
    obtain ⟨q, -, rfl⟩ := List.mem_map.1 hb
    exact h.floor.2 a ha
  · -- what waits is at most as bright as the cell that had its turn, and at most one level below
    have hbetween : ∀ a ∈ rest ++ new.map (·, lv - 1), a.2 ≤ lv ∧ lv ≤ a.2 + 1 := by
      intro a ha
      rcases List.mem_append.1 ha with ha | ha
      · have hfront := List.pairwise_cons.1 (List.pairwise_append.1 h.falling).2.1
        have hspan := h.span (p, lv) List.mem_cons_self a (List.mem_cons_of_mem _ ha)
        exact ⟨hfront.1 a ha, hspan⟩
      · obtain ⟨q, -, rfl⟩ := List.mem_map.1 ha
        exact ⟨Nat.sub_le lv 1, Nat.le_add_of_sub_le le_rfl⟩
    intro a ha b hb
    exact (hbetween a ha).1.trans (hbetween b hb).2
  · rw [hentries]
    refine hmem h.near fun q hq => ?_
    -- one step further from the origin, and one level below
    have hshed := hturn.shed q hq
    have hstep := taxicab_le_of_adjacent (o := o) (hturn.beside q hq)
    have hlevel := hp.2
    simp only at hlevel ⊢
    omega
  · rw [hentries]
    exact hmem (fun a ha => hturn.marks a.1 a.2 (h.marked a ha)) hturn.marked
  · intro l hl
    have hle := hl (p, lv) (List.mem_append_right past (List.mem_singleton_self _))
    exact fair.fewer hle hturn.good

end Front

/-- One turn. -/
theorem turn (fair : Fair around v T) (h : Tallied T o v s) (hs : s.turn around = .ok s') :
    Tallied T o v s' ∧ T.Kept s.state s'.state := by
  rcases s with ⟨state, past, queue⟩
  cases queue with
  | nil =>
    cases hs
    exact ⟨h, fair.refl state⟩
  | cons a rest =>
    rcases a with ⟨p, lv⟩
    obtain ⟨r, haround, hs⟩ := Checked.bind_eq_ok.1 hs
    cases hs
    have hp := h.near (p, lv) (List.mem_append_right past List.mem_cons_self)
    have hlv : lv ≤ v := (Nat.le_add_left lv _).trans hp.2
    have hturn := fair.turn hlv (h.good lv h.floor.1) haround
    exact ⟨h.next fair hturn, hturn.kept⟩

/-- Any number of turns keeps the tally. -/
theorem turns (fair : Fair around v T) {n : Nat} (h : Tallied T o v s)
    (hs : Worklist.turns around n s = .ok s') : Tallied T o v s' ∧ T.Kept s.state s'.state := by
  induction n generalizing s with
  | zero =>
    cases hs
    exact ⟨h, fair.refl _⟩
  | succ n ih =>
    obtain ⟨t, ht, hs⟩ := Checked.bind_eq_ok.1 hs
    have hturn := h.turn fair ht
    have hrest := ih hturn.1 hs
    exact ⟨hrest.1, fair.trans hturn.2 hrest.2⟩

end Tallied

end Queue

/-! ## The floods -/

section Floods

variable {V : Type} [LightVolume V] {A : Pos → Prop} {Good : V → Prop}
  (laws : VolumeLaws V True A Good) {reg : Registry} {k : LightKind} {p : Pos} {lv m : Nat}

include laws in
/-- Where light is accepted a write changes this one level. -/
theorem level_of_setLight {vol vol' : V} {n : Nat} (h : Good vol)
    (hacc : (LightVolume.field vol).accepts p = true)
    (hset : LightVolume.setLight vol p k n = .ok vol') :
    A p ∧ Good vol' ∧ (LightVolume.field vol').level k p = min n maxLight ∧
      ∀ q, q ≠ p → (LightVolume.field vol').level k q = (LightVolume.field vol).level k q := by
  have hA : A p := (laws.accepts_iff h p).1 hacc
  obtain ⟨hgood, hfield⟩ := (laws.setLight h hA k n).of_eq_ok hset
  refine ⟨hA, hgood, ?_, fun q hq => ?_⟩
  · rw [hfield, LightField.level_put_self]
  · rw [hfield, (LightField.put_sameAt hq).level]

/-- Spreading marks a cell by its light: it has the level of its entry at least. -/
def spreadTally (A : Pos → Prop) (Good : V → Prop) (k : LightKind) : Tally V where
  Good _ vol := Good vol
  Marked vol q l := A q → l ≤ (LightVolume.field vol).level k q
  Kept _ _ := True

include laws in
/-- Raising one neighbour continues the turn of a cell. -/
theorem raise_turnFrom {vol : V} {s : Wave V} {d : Int × Int × Int} (hd : d ∈ directions)
    (hlv : 2 ≤ lv) (hmax : lv ≤ maxLight)
    (h : TurnFrom (spreadTally A Good k) lv p vol s.vol s.cells.reverse) :
    Ensures True (raise reg k (lv - 1) p s d) fun s' =>
      TurnFrom (spreadTally A Good k) lv p vol s'.vol s'.cells.reverse := by
  apply raise_partial.mono
  rintro s' (rfl | ⟨hcells, hset, hacc, hlt⟩)
  · exact h
  · obtain ⟨hA, hgood, hself, hother⟩ := level_of_setLight laws h.good hacc hset
    rw [Nat.min_eq_left (by omega)] at hself
    rw [hcells, List.reverse_cons]
    refine h.append (fun _ _ => trivial)
      (.single hgood trivial ?marks ⟨d, hd, rfl⟩ hlv ?fresh fun _ => hself.ge)
    case marks =>
      intro q l hmark hq
      by_cases hqn : q = shift p d
      · have hle := hmark hq
        rw [hqn] at hle ⊢
        rw [hself]
        exact hle.trans hlt.le
      · rw [hother q hqn]
        exact hmark hq
    case fresh =>
      -- the cell was darker than its entry, and darker than all entries from before
      intro l hl hmark
      exact absurd (hl.trans (hmark hA)) (Nat.not_le.2 hlt)

include laws in
/-- Spreading is a fair flood up to the brightest level. -/
theorem spread_fair (hm : m ≤ maxLight) :
    Fair (spreadAround (V := V) reg k) m (spreadTally A Good k) where
  fewer _ := id
  refl _ := trivial
  trans _ _ := trivial
  turn := by
    intro lv p vol r hle hgood hr
    have hmax := hle.trans hm
    unfold spreadAround at hr
    split at hr
    · -- a cell of level one or less passes nothing on
      cases hr
      exact .none hgood trivial
    · rename_i hlv
      obtain ⟨s, hs, hr⟩ := Checked.bind_eq_ok.1 hr
      cases hr
      have hstart : TurnFrom (spreadTally A Good k) lv p vol vol [] := .none hgood trivial
      have hturn : Ensures True (raiseAround reg k (lv - 1) ⟨vol, []⟩ p) fun s =>
          TurnFrom (spreadTally A Good k) lv p vol s.vol s.cells.reverse := by
        unfold raiseAround
        apply (Ensures.anyhow trivial).bind
        intro n _
        refine Ensures.ite (fun _ => ?_) fun _ => Ensures.pure hstart
        exact Ensures.foldlM_inv (fun d s hd hs =>
          raise_turnFrom laws hd (Nat.le_of_not_lt hlv) hmax hs) hstart
      exact hturn.of_eq_ok hs

/-- Taking back marks a cell by making it dark. The bright cells have the level of the turn at
least, and keep it. -/
def retractTally (A : Pos → Prop) (Good : V → Prop) (k : LightKind) : Tally (V × List Pos) where
  Good l s := Good s.1 ∧ ∀ q ∈ s.2, A q ∧ l ≤ (LightVolume.field s.1).level k q
  Marked s q _ := A q → (LightVolume.field s.1).level k q = 0
  Kept s s' := ∀ q ∈ s.2, q ∈ s'.2 ∧
    (LightVolume.field s'.1).level k q = (LightVolume.field s.1).level k q

theorem retractTally_refl (s : V × List Pos) : (retractTally A Good k).Kept s s :=
  fun _ hq => ⟨hq, rfl⟩

theorem retractTally_trans {s t u : V × List Pos} (h : (retractTally A Good k).Kept s t)
    (h' : (retractTally A Good k).Kept t u) : (retractTally A Good k).Kept s u := by
  intro q hq
  obtain ⟨hmem, heq⟩ := h q hq
  obtain ⟨hmem', heq'⟩ := h' q hmem
  exact ⟨hmem', heq'.trans heq⟩

include laws in
/-- Darkening one neighbour continues the turn of a cell. -/
theorem darken_turnFrom {v : V × List Pos} {s : Retraction V} {d : Int × Int × Int}
    (hd : d ∈ directions)
    (h : TurnFrom (retractTally A Good k) lv p v (s.vol, s.bright) s.cells.reverse) :
    Ensures True (darken reg k lv p s d) fun s' =>
      TurnFrom (retractTally A Good k) lv p v (s'.vol, s'.bright) s'.cells.reverse := by
  apply darken_partial.mono
  rintro s' (rfl | ⟨rfl, hacc, hge⟩ | ⟨hcells, hbright, hset, hacc, hlit, hlt⟩)
  · exact h
  · -- a bright cell more, and no light was written
    have hA : A (shift p d) := (laws.accepts_iff h.good.1 _).1 hacc
    have hnote : TurnFrom (retractTally A Good k) lv p (s.vol, s.bright)
        (s.vol, shift p d :: s.bright) [] := by
      refine { TurnFrom.none h.good (retractTally_refl _) with good := ?_, kept := ?_, marks := ?_ }
      · refine ⟨h.good.1, fun q hq => ?_⟩
        rcases List.mem_cons.1 hq with rfl | hq
        · exact ⟨hA, hge⟩
        · exact h.good.2 q hq
      · exact fun q hq => ⟨List.mem_cons_of_mem _ hq, rfl⟩
      · exact fun _ _ => id
    have hturn := h.append retractTally_trans hnote
    rwa [List.append_nil] at hturn
  · obtain ⟨hA, hgood, hself, hother⟩ := level_of_setLight laws h.good.1 hacc hset
    rw [Nat.zero_min] at hself
    rw [hcells, hbright, List.reverse_cons]
    -- the bright cells are too bright to be the one that goes dark
    have hbrighter : ∀ q ∈ s.bright, q ≠ shift p d := by
      rintro q hq rfl
      exact absurd hlt (Nat.not_lt.2 (h.good.2 _ hq).2)
    refine h.append retractTally_trans (.single ?good
      (fun q hq => ⟨hq, hother q (hbrighter q hq)⟩) ?marks ⟨d, hd, rfl⟩ (by omega)
      (fun _ _ hmark => absurd (hmark hA) (Nat.ne_of_gt hlit)) fun _ => hself)
    case good =>
      refine ⟨hgood, fun q hq => ?_⟩
      rw [hother q (hbrighter q hq)]
      exact h.good.2 q hq
    case marks =>
      intro q l hmark hq
      by_cases hqn : q = shift p d
      · rw [hqn]
        exact hself
      · exact (hother q hqn).trans (hmark hq)

include laws in
/-- Taking back is a fair flood up to any level. -/
theorem retract_fair : Fair (retractAround (V := V) reg k) m (retractTally A Good k) where
  fewer hle h := ⟨h.1, fun q hq => ⟨(h.2 q hq).1, hle.trans (h.2 q hq).2⟩⟩
  refl := retractTally_refl
  trans := retractTally_trans
  turn := by
    intro lv p v r _ hgood hr
    obtain ⟨s, hs, hr⟩ := Checked.bind_eq_ok.1 hr
    cases hr
    have hstart : TurnFrom (retractTally A Good k) lv p v v [] :=
      .none hgood (retractTally_refl v)
    have hturn : Ensures True (darkenAround reg k lv ⟨v.1, [], v.2⟩ p) fun s =>
        TurnFrom (retractTally A Good k) lv p v (s.vol, s.bright) s.cells.reverse :=
      Ensures.foldlM_inv (fun d s hd hs => darken_turnFrom laws hd hs) hstart
    exact hturn.of_eq_ok hs

end Floods

/-! ## A chunk on its own -/

section OneChunk

open ChunkVolume (Repainted)

variable {reg : Registry} {vol vol' : ChunkVolume} {k : LightKind} {o : Pos} {v n : Nat}

/-- A chunk on its own is a volume, which may stop anywhere. -/
theorem chunk_laws : VolumeLaws ChunkVolume True vol.Inside (Repainted vol) :=
  ChunkVolume.lawsOf (fun _ => Iff.rfl) (fun _ _ => step_partial) fun _ _ _ => trivial

/-- The origin has the level written, or is outside the chunk and the write is dropped. -/
theorem origin_of_setLight (h : LightVolume.setLight vol o k n = .ok vol') :
    Repainted vol vol' ∧
      (vol.Inside o → (LightVolume.field vol').level k o = min n maxLight) := by
  have hset : vol.setLight o k n = .ok vol' := h
  by_cases hfits : vol.LocalFits o
  · rw [ChunkVolume.setLight_of_fits hfits] at hset
    cases hset
    refine ⟨ChunkVolume.repainted_written, fun ho => ?_⟩
    rw [ChunkVolume.level_written ho.1 hfits, if_pos ⟨rfl, rfl⟩]
  · rcases ChunkVolume.toLocal_of_not_fits hfits with ⟨e, he⟩
    unfold ChunkVolume.setLight at hset
    rw [he] at hset
    cases hset

/-- However many turns were taken, the queue of spreading is tallied. -/
theorem spreadQueue_tallied {s : Worklist ChunkVolume}
    (h : spreadQueue reg vol o k v n = .ok s) :
    Tallied (spreadTally vol.Inside (Repainted vol) k) o (min v maxLight) s := by
  have hmax : min v maxLight ≤ maxLight := Nat.min_le_right v maxLight
  unfold spreadQueue at h
  generalize min v maxLight = level at h hmax
  cases level with
  | zero =>
    cases h
    exact .empty fun _ => Repainted.refl
  | succ lv =>
    obtain ⟨vol', hset, hturns⟩ := Checked.bind_eq_ok.1 h
    obtain ⟨hrep, horigin⟩ := origin_of_setLight hset
    have hmark : (spreadTally vol.Inside (Repainted vol) k).Marked vol' o (lv + 1) := by
      intro ho
      rw [horigin ho, Nat.min_eq_left hmax]
    have hstart := Tallied.start (Nat.succ_pos lv) hmark fun _ => hrep
    exact (hstart.turns (spread_fair chunk_laws hmax) hturns).1

/-- The tally of taking back begins with a dark origin. -/
theorem retractQueue_tallied {s : Worklist (ChunkVolume × List Pos)}
    (h : retractQueue reg vol o k v n = .ok s) :
    Tallied (retractTally vol.Inside (Repainted vol) k) o (min v maxLight) s := by
  obtain ⟨vol', hset, h⟩ := Checked.bind_eq_ok.1 h
  obtain ⟨hrep, horigin⟩ := origin_of_setLight hset
  have hgood : ∀ l, (retractTally vol.Inside (Repainted vol) k).Good l (vol', []) :=
    fun _ => ⟨hrep, nofun⟩
  generalize min v maxLight = level at h ⊢
  cases level with
  | zero =>
    cases h
    exact .empty hgood
  | succ lv =>
    have hmark : (retractTally vol.Inside (Repainted vol) k).Marked (vol', []) o (lv + 1) := by
      intro ho
      exact (horigin ho).trans (Nat.zero_min maxLight)
    have hstart := Tallied.start (Nat.succ_pos lv) hmark hgood
    exact (hstart.turns (retract_fair chunk_laws) h).1

/-- A bright cell is lit at all times, and it is none of the cells on the queue: those are dark, or
outside the chunk. -/
theorem bright_of_tallied {m : Nat} {s : Worklist (ChunkVolume × List Pos)} {q : Pos}
    (h : Tallied (retractTally vol.Inside (Repainted vol) k) o m s) (hq : q ∈ s.state.2) :
    0 < (LightVolume.field s.state.1).level k q ∧ q ∉ s.entries.map Prod.fst := by
  have hgood := h.good 1 fun a ha => (h.near a (List.mem_append_left s.queue ha)).1
  obtain ⟨hinside, hlit⟩ := hgood.2 q hq
  refine ⟨hlit, fun hmem => ?_⟩
  obtain ⟨a, ha, rfl⟩ := List.mem_map.1 hmem
  have hdark := h.marked a ha hinside
  omega

/-- Any level is within the brightest one, so a flood that starts clear of the edge of the
coordinates comes to its end. -/
theorem exists_run {c : Flood} (hb : vol.Bordered) (hc : vol.Clear c.origin) :
    ∃ vol', c.run reg k vol = .ok vol' := by
  have hstart : ChunkVolume.Within k (fun _ => maxLight) vol vol :=
    ⟨Repainted.refl, fun q _ => chunk_laws.level_le Repainted.refl k q⟩
  have hrun : Ensures (¬ (vol.Bordered ∧ vol.Clear c.origin)) (c.run reg k vol) _ :=
    Flood.run_ensures (fun _ _ _ => Nat.le_succ maxLight) hstart id
  exact hrun.total.1 ⟨hb, hc⟩

/-- Whatever light a chunk holds, wherever the origin is and whatever the value, both floods come to
the end of their queue, in as many turns as it takes; they stop before that only if a coordinate
overflows. No cell is put on a queue twice, levels do not increase along a queue, and its cells are
fewer steps from the origin than the level there. The bright cells found on taking back keep their
light for as long as the loop runs, and none of them is ever on the queue. -/
theorem floods_queue_once (reg : Registry) (vol : ChunkVolume) (k : LightKind) (o : Pos)
    (v : Nat) :
    (∃ n, spread reg vol o k v = Worklist.state <$> spreadQueue reg vol o k v n ∧
      ∀ s, spreadQueue reg vol o k v n = .ok s → s.queue = []) ∧
    (∀ n s, spreadQueue reg vol o k v n = .ok s → Orderly o (min v maxLight) s) ∧
    (∃ n, retract reg vol o k v = (do
        let s ← retractQueue reg vol o k v n
        s.state.2.reverse.foldlM (respread reg k) s.state.1) ∧
      ∀ s, retractQueue reg vol o k v n = .ok s → s.queue = []) ∧
    (∀ n s, retractQueue reg vol o k v n = .ok s → Orderly o (min v maxLight) s ∧
      ∀ q ∈ s.state.2, 0 < (LightVolume.field s.state.1).level k q ∧
        q ∉ s.entries.map Prod.fst) ∧
    (∀ m n s s', retractQueue reg vol o k v m = .ok s →
      turns (retractAround reg k) n s = .ok s' → ∀ q ∈ s.state.2, q ∈ s'.state.2 ∧
        (LightVolume.field s'.state.1).level k q = (LightVolume.field s.state.1).level k q) ∧
    (vol.Bordered ∧ vol.Clear o →
      (∃ vol', spread reg vol o k v = .ok vol') ∧ ∃ vol', retract reg vol o k v = .ok vol') := by
  refine ⟨spread_eq_queue reg vol o k v, ?_, retract_eq_queue reg vol o k v, ?_, ?_, ?_⟩
  · intro n s hs
    exact (spreadQueue_tallied hs).orderly
  · intro n s hs
    have htallied := retractQueue_tallied hs
    exact ⟨htallied.orderly, fun q hq => bright_of_tallied htallied hq⟩
  · intro m n s s' hs hturns
    exact ((retractQueue_tallied hs).turns (retract_fair chunk_laws) hturns).2
  · rintro ⟨hb, ho⟩
    constructor
    · exact exists_run (c := .spread o v) hb ho
    · exact exists_run (c := .retract o v) hb ho

/-- More is taken back beside two dark cells than there is, and the queue holds what was put on it
at first. -/
theorem floods_queue_once_beside : ∃ (vol : ChunkVolume) (n : Nat)
    (s : Worklist (ChunkVolume × List Pos)),
    retractQueue .empty vol ⟨-1, 0, 0⟩ .block 200 n = .ok s ∧ s.queue = [] ∧
      Orderly ⟨-1, 0, 0⟩ 15 s := by
  rcases ChunkVolume.exists_pair with ⟨vol, hbordered, -, -, hfits⟩
  have houtside : vol.Clear ⟨-1, 0, 0⟩ := by
    refine ⟨hfits _ (by decide), by decide, fun d hd => hfits _ ?_⟩
    revert d
    decide
  obtain ⟨-, -, ⟨n, hloop, hempty⟩, horder, -, hend⟩ :=
    floods_queue_once .empty vol .block ⟨-1, 0, 0⟩ 200
  obtain ⟨-, vol', hretract⟩ := hend ⟨hbordered, houtside⟩
  -- what the flood gives, it gives by way of its queue
  rw [hloop] at hretract
  obtain ⟨s, hs, -⟩ := Checked.bind_eq_ok.1 hretract
  exact ⟨vol, n, s, hs, hempty s hs, (horder n s hs).1⟩

end OneChunk

end VoxelWorld.Light
