import Mathlib.Data.Finset.Lattice.Fold
import VoxelWorld.Proofs.Light.Decay
import VoxelWorld.Proofs.Light.Retract

/-!
# Proofs.Light.Removal — taking back one source of several

Retracting follows one level that counts down and never asks which source a cell has its light
from. It takes back the right light all the same.

* `lightOf` is the light of finitely many sources: at each cell what the brightest of them has
  left after a shortest walk. No light would flow from one cell of it into another
  (`brightest_even`), and it is supported by the sources (`brightest_supported`).
* `Retracted.eq_lightOf` compares levels: the cells that went dark are owed to the source, because
  more arrived from it than they kept, and what spreads from their border is the light of the
  others.
* `retract_removes_source` says so of a chunk on its own.
-/

namespace VoxelWorld.Light

variable {A C : Pos → Prop} {L L' given : Levels} {o p q s : Pos} {S : Finset Pos} {m : Nat}

/-! ## The light of several sources -/

open scoped Classical in
/-- What the brightest of the sources `S` has left at a cell after a shortest walk. -/
noncomputable def lightOf (C : Pos → Prop) (S : Finset Pos) (given : Levels) (p : Pos) : Nat :=
  S.sup fun s => if Reaches C s p then given s - distance C s p else 0

/-- The sources shine by themselves, the other cells do not. -/
def shining (S : Finset Pos) (given : Levels) : Levels := fun s => if s ∈ S then given s else 0

theorem shining_of_mem (hs : s ∈ S) : shining S given s = given s := if_pos hs

/-- Only sources shine. -/
theorem mem_of_shining (hs : 0 < shining S given s) : s ∈ S := by
  by_contra hno
  rw [show shining S given s = 0 from if_neg hno] at hs
  exact lt_irrefl 0 hs

/-- Their levels bound what shines anywhere. -/
theorem shining_le (hg : ∀ s ∈ S, given s ≤ m) (s : Pos) : shining S given s ≤ m := by
  unfold shining
  split
  · rename_i hs
    exact hg s hs
  · exact Nat.zero_le m

/-- The light of some sources is the light from scratch. -/
theorem lightOf_eq_brightest (hg : ∀ s ∈ S, given s ≤ m) :
    lightOf C S given p = brightest C (shining S given) p := by
  apply Nat.le_antisymm
  · refine Finset.sup_le fun s hs => ?_
    split
    · rename_i hreach
      have hle := le_brightest (shining_le hg) hreach.walk
      rwa [shining_of_mem hs] at hle
    · exact Nat.zero_le _
  · rcases exists_brightest (C := C) (p := p) (shining_le hg) with ⟨s, n, hwalk, heq⟩
    rw [heq]
    -- the walk that brings the most may start at no source; then nothing is to be shown
    rcases Nat.eq_zero_or_pos (shining S given s) with h0 | hpos
    · omega
    · have hs := mem_of_shining hpos
      have hshort := hwalk.distance_le
      classical
      have hle := Finset.le_sup
        (f := fun s => if Reaches C s p then given s - distance C s p else 0) hs
      rw [if_pos ⟨n, hwalk⟩] at hle
      rw [shining_of_mem hs]
      exact le_trans (by omega) hle

/-- What arrives is no brighter than the sources. -/
theorem lightOf_le (hg : ∀ s ∈ S, given s ≤ m) : lightOf C S given p ≤ m := by
  refine Finset.sup_le fun s hs => ?_
  have hle := hg s hs
  split <;> omega

/-- At its own cell a source has lost nothing. -/
theorem le_lightOf (given : Levels) (hg : ∀ s ∈ S, given s ≤ m) (hs : s ∈ S) :
    given s ≤ lightOf C S given s := by
  have hown : shining S given s = given s := shining_of_mem hs
  rw [lightOf_eq_brightest hg, ← hown]
  exact le_brightest (shining_le hg) (.nil s)

/-- The last step of a longer walk would bring one level less. -/
theorem brightest_even (hg : ∀ s, given s ≤ m) : Even C (brightest C given) p := by
  rintro q ⟨hadj, hq, hlt⟩
  rcases exists_brightest (C := C) (p := p) hg with ⟨s, n, hwalk, heq⟩
  have hnext := le_brightest hg (hwalk.snoc hadj hq)
  omega

/-- A lit cell shines itself, or the walk to it comes through a brighter one. -/
theorem brightest_supported (hg : ∀ s, given s ≤ m) (hA : ∀ s, 0 < given s → A s)
    (hC : ∀ q, C q → A q) :
    Supported A C (fun q => brightest C given q = given q ∧ 0 < given q) (brightest C given) := by
  intro q _ hpos
  rcases exists_brightest (C := C) (p := q) hg with ⟨s, n, hwalk, heq⟩
  cases hwalk with
  | nil => exact .inl ⟨by omega, by omega⟩
  | @snoc n _ r _ hwalk hadj hq =>
    have hr : A r := by
      cases hwalk with
      | nil => exact hA s (by omega)
      | snoc _ _ hr => exact hC r hr
    have hle := le_brightest hg hwalk
    exact .inr ⟨hq, r, hadj.symm, hr, by omega⟩

/-! ## Taking back one of them -/

/-- The source `o` gives its own cell its level, and no other source is so weak that `o` outshines
it there. -/
structure Removable (A C : Pos → Prop) (S : Finset Pos) (given : Levels) (o : Pos) : Prop where
  inside : ∀ s ∈ S, A s
  given_pos : ∀ s ∈ S, 1 ≤ given s
  given_le : ∀ s ∈ S, given s ≤ maxLight
  mem : o ∈ S
  level : lightOf C S given o = given o
  conducts : ∀ s ∈ S, s ≠ o → C s
  apart : ∀ s ∈ S, s ≠ o → Reaches C o s → given o < given s + distance C o s

namespace Removable

/-- Less arrives from `o` at another source than that source gives off. -/
theorem not_arrives (h : Removable A C S given o) (hs : s ∈ S) (hne : s ≠ o)
    (hle : given s ≤ m) : ¬ Arrives C o (given o) s m := by
  rintro ⟨n, hwalk, hn⟩
  have hapart := h.apart s hs hne ⟨n, hwalk⟩
  have hshort := hwalk.distance_le
  omega

end Removable

/-- Retracting a source out of the light of several leaves the light of the others. -/
theorem Retracted.eq_lightOf (h : Retracted A C L o (given o) L') (hL' : ∀ q, L' q ≤ maxLight)
    (hC : ∀ q, C q → A q) (hS : Removable A C S given o)
    (hL : ∀ q, A q → L q = lightOf C S given q) (hp : A p) :
    L' p = lightOf C (S.erase o) given p := by
  have hg : ∀ s ∈ S, given s ≤ maxLight := hS.given_le
  have hg' : ∀ s ∈ S.erase o, given s ≤ maxLight := fun s hs => hg s (Finset.mem_of_mem_erase hs)
  have hbright : ∀ q, A q → L q = brightest C (shining S given) q := by
    intro q hq
    rw [hL q hq, lightOf_eq_brightest hg]
  rw [lightOf_eq_brightest hg']
  refine eq_brightest (A := A)
    (S := fun q => (L q = shining S given q ∧ q ∈ S ∧ q ≠ o) ∧ L' q = L q) ?_ hL' ?_ ?_ ?_ hp
  · -- the other sources stay lit
    intro s
    by_cases hs : s ∈ S.erase o
    · rcases Finset.mem_erase.1 hs with ⟨hne, hmem⟩
      have hlit : given s ≤ L s := by
        rw [hL s (hS.inside s hmem)]
        exact le_lightOf given hg hmem
      rw [shining_of_mem hs]
      exact hlit.trans (h.le_of_not_arrives hne (hS.not_arrives hmem hne hlit))
    · rw [show shining (S.erase o) given s = 0 from if_neg hs]
      exact Nat.zero_le _
  · rintro s ⟨⟨heq, hmem, hne⟩, hkept⟩
    rw [hkept, heq, shining_of_mem hmem, shining_of_mem (Finset.mem_erase.2 ⟨hne, hmem⟩)]
  · -- what is left is supported by them
    have hsupp := brightest_supported (shining_le hg) (fun s hs => hS.inside s (mem_of_shining hs))
      hC
    have hlevel : L o ≤ given o := by
      rw [hL o (hS.inside o hS.mem), hS.level]
    refine (h.supported_kept hlevel
      (S := fun q => L q = shining S given q ∧ q ∈ S) ?_).mono ?_
    · intro q _ hq hpos
      rw [hbright q hq] at hpos
      rcases hsupp q hq hpos with ⟨hs, hlit⟩ | ⟨hCq, n, hadj, hn, hlt⟩
      · exact .inl ⟨by rw [hbright q hq, hs], mem_of_shining hlit⟩
      · exact .inr ⟨hCq, n, hadj, hn, by rwa [hbright q hq, hbright n hn]⟩
    · rintro q ⟨⟨⟨heq, hmem⟩, hne⟩, hkept⟩
      exact ⟨⟨heq, hmem, hne⟩, hkept⟩
  · -- and no light would flow
    have heven : ∀ q, C q → Even C L' q := by
      rintro q hq r hs
      rcases (h.steep (hC q hq) (.inl hq) hs).1 with ⟨hadj, hr, hlt⟩
      have hle := (brightest_even (C := C) (p := q) (shining_le hg)).le hadj hr
      rw [hbright q (hC q hq), hbright r (hC r hr)] at hlt
      omega
    rintro q (hpos | hq)
    · have hmem := mem_of_shining hpos
      exact heven q (hS.conducts q (Finset.mem_of_mem_erase hmem) (Finset.ne_of_mem_erase hmem))
    · exact heven q hq

/-! ## A lone source -/

/-- The light of a lone source falls off with the distance from it. -/
theorem lightOf_singleton :
    lightOf C {o} given p = open scoped Classical in
      if Reaches C o p then given o - distance C o p else 0 :=
  Finset.sup_singleton

/-- A lone source can always be taken back. -/
theorem removable_singleton (ho : A o) (hpos : 1 ≤ given o) (hle : given o ≤ maxLight) :
    Removable A C {o} given o where
  inside s hs := Finset.mem_singleton.1 hs ▸ ho
  given_pos s hs := Finset.mem_singleton.1 hs ▸ hpos
  given_le s hs := Finset.mem_singleton.1 hs ▸ hle
  mem := Finset.mem_singleton_self o
  level := by
    rw [lightOf_singleton, if_pos ⟨0, .nil o⟩, distance_self]
    rfl
  conducts s hs hne := absurd (Finset.mem_singleton.1 hs) hne
  apart s hs hne := absurd (Finset.mem_singleton.1 hs) hne

/-- Of two equal sources side by side neither outshines the other. -/
theorem removable_pair (hadj : Adjacent o s) (ho : A o) (hs : A s) (hC : C s) (hpos : 1 ≤ m)
    (hle : m ≤ maxLight) : Removable A C {o, s} (fun _ => m) o := by
  have hmem : ∀ q ∈ ({o, s} : Finset Pos), q = o ∨ q = s := fun q hq => by simpa using hq
  refine ⟨fun q hq => ?_, fun _ _ => hpos, fun _ _ => hle, Finset.mem_insert_self o _, ?_, ?_, ?_⟩
  · rcases hmem q hq with rfl | rfl
    · exact ho
    · exact hs
  · exact Nat.le_antisymm (lightOf_le fun _ _ => le_rfl)
      (le_lightOf (fun _ => m) (fun _ _ => le_rfl) (Finset.mem_insert_self o _))
  · intro q hq hne
    rcases hmem q hq with rfl | rfl
    · exact absurd rfl hne
    · exact hC
  · intro q hq hne _
    rcases hmem q hq with rfl | rfl
    · exact absurd rfl hne
    · rw [distance_eq_one hadj hC]
      omega

/-- What spreading in the dark leads to. -/
theorem SpreadFrom.eq_lightOf (h : SpreadFrom A C L o (given o) L') (hL' : ∀ q, L' q ≤ maxLight)
    (ho : A o) (hC : ∀ q, C q → A q) (hdark : ∀ q, A q → L q = 0) (hp : A p) :
    L' p = lightOf C {o} given p := by
  have hlevel : L o ≤ given o := by
    rw [hdark o ho]
    exact Nat.zero_le _
  have hclosed : Closed C L := by
    intro a b ha _ _
    rw [hdark a (hC a ha)]
    exact Nat.zero_le _
  rw [lightOf_singleton]
  split
  · rename_i hreach
    rw [h.eq_max hL' hlevel hclosed hreach, hdark p hp, Nat.zero_max]
  · rename_i hno
    rw [h.eq_self hL' hlevel hno, hdark p hp]

/-! ## A chunk on its own -/

variable {reg : Registry} {k : LightKind} {vol vol' : ChunkVolume}

/-- The light of one channel of a chunk is that of the sources. -/
def LitBy (reg : Registry) (k : LightKind) (S : Finset Pos) (given : Levels) (vol : ChunkVolume) :
    Prop :=
  ∀ p, vol.Inside p →
    (LightVolume.field vol).level k p = lightOf ((LightVolume.field vol).Conducts reg) S given p

/-- At most the levels of one channel were written. -/
structure OneChannel (k : LightKind) (vol vol' : ChunkVolume) : Prop where
  other : ∀ j, j ≠ k → (LightVolume.field vol').level j = (LightVolume.field vol).level j
  block : (LightVolume.field vol').block = (LightVolume.field vol).block
  repainted : ChunkVolume.Repainted vol vol'

/-- Light enters the same cells. -/
theorem OneChannel.conducts (h : OneChannel k vol vol') :
    (LightVolume.field vol').Conducts reg = (LightVolume.field vol).Conducts reg := by
  funext p
  rw [eq_iff_iff, ChunkVolume.conducts_iff, ChunkVolume.conducts_iff, h.repainted.inside, h.block]

/-- Where other levels of one channel show, only these were written. -/
theorem oneChannel_of_shows
    (h : Shows (ChunkVolume.Repainted vol) (LightVolume.field vol) k vol' L') :
    OneChannel k vol vol' where
  other j hj := by rw [h.field_eq, LightField.level_withLevels_of_ne _ _ hj]
  block := by rw [h.field_eq, LightField.block_withLevels]
  repainted := h.good

/-- Retracting in a volume that shows the light of the sources. -/
theorem retract_removes {v : Nat}
    (hS : Removable vol.Inside ((LightVolume.field vol).Conducts reg) S given o)
    (hL : ∀ q, vol.Inside q → L q = lightOf ((LightVolume.field vol).Conducts reg) S given q)
    (hshow : Shows (ChunkVolume.Repainted vol) (LightVolume.field vol) k vol' L)
    (hv : v = given o) :
    Ensures (¬ vol.Bordered) (retract reg vol' o k v) fun vol'' =>
      LitBy reg k (S.erase o) given vol'' ∧ OneChannel k vol vol'' := by
  subst hv
  apply (retract_ensures ChunkVolume.bordered_laws hshow (hS.inside o hS.mem)
    (hS.given_pos o hS.mem) (hS.given_le o hS.mem)).mono
  rintro vol'' ⟨L', hshow', hret⟩
  refine ⟨fun p hp => ?_, oneChannel_of_shows hshow'⟩
  rw [hshow'.levels, hshow'.conducts]
  exact hret.eq_lightOf (hshow'.level_le ChunkVolume.bordered_laws)
    (fun q hq => ChunkVolume.inside_of_conducts hq) hS hL (hshow'.good.inside.1 hp)

/-- Taking back a source that outshines no other one leaves the light of the others, and
blocks and the other channel as they are. In particular all is dark again after a lone source. -/
theorem retract_removes_source (reg : Registry) (vol : ChunkVolume) (k : LightKind) (o : Pos) :
    (∀ S given, Removable vol.Inside ((LightVolume.field vol).Conducts reg) S given o →
      LitBy reg k S given vol →
      (vol.Bordered → ∃ vol', retract reg vol o k (given o) = .ok vol') ∧
        ∀ vol', retract reg vol o k (given o) = .ok vol' →
          LitBy reg k (S.erase o) given vol' ∧ OneChannel k vol vol') ∧
      ∀ v, 1 ≤ v → v ≤ maxLight → vol.Inside o →
        (∀ p, vol.Inside p → (LightVolume.field vol).level k p = 0) →
        (vol.Bordered → ∃ vol', (do retract reg (← spread reg vol o k v) o k v) = .ok vol') ∧
          ∀ vol', (do retract reg (← spread reg vol o k v) o k v) = .ok vol' →
            (∀ p, vol'.Inside p → (LightVolume.field vol').level k p = 0) ∧
              OneChannel k vol vol' := by
  constructor
  · intro S given hS hlit
    exact (retract_removes hS hlit (Shows.refl ChunkVolume.Repainted.refl) rfl).total
  · intro v hpos hv ho hdark
    refine Ensures.total ?_
    apply (spread_ensures ChunkVolume.bordered_laws (Shows.refl ChunkVolume.Repainted.refl)
      ho hpos hv).bind
    rintro lit ⟨L, hshow, hspread⟩
    -- spreading over darkness leaves the light of the lone source, which is then taken back
    have hL : ∀ q, vol.Inside q →
        L q = lightOf ((LightVolume.field vol).Conducts reg) {o} (fun _ => v) q := by
      intro q hq
      exact hspread.eq_lightOf (hshow.level_le ChunkVolume.bordered_laws) ho
        (fun q hq => ChunkVolume.inside_of_conducts hq) hdark hq
    apply (retract_removes (removable_singleton ho hpos hv) hL hshow rfl).mono
    rintro vol' ⟨hlit, hchannel⟩
    refine ⟨fun p hp => ?_, hchannel⟩
    rw [hlit p hp, Finset.erase_singleton]
    rfl

/-- Of two lamps of level five side by side one is taken back, and so is a lone one. -/
theorem retract_removes_source_beside : ∃ vol vol' blank blank' : ChunkVolume,
    retract .empty vol ⟨0, 0, 0⟩ .block 5 = .ok vol' ∧
      (LightVolume.field vol').level .block ⟨0, 0, 0⟩ = 4 ∧
      (LightVolume.field vol').level .block ⟨1, 0, 0⟩ = 5 ∧
      (do retract .empty (← spread .empty blank ⟨0, 0, 0⟩ .block 5) ⟨0, 0, 0⟩ .block 5) =
        .ok blank' ∧
      (LightVolume.field blank').level .block ⟨0, 0, 0⟩ = 0 := by
  rcases ChunkVolume.exists_pair with ⟨blank, hbordered, hblank, hcells, -⟩
  have ho : blank.Inside ⟨0, 0, 0⟩ := (hcells _).2 (.inl rfl)
  have hs : blank.Inside ⟨1, 0, 0⟩ := (hcells _).2 (.inr rfl)
  have hadj : Adjacent ⟨0, 0, 0⟩ ⟨1, 0, 0⟩ := ⟨(1, 0, 0), List.mem_cons_self, rfl⟩
  -- both lamps are written into the blank chunk
  have hfirst : ChunkVolume.Repainted blank (blank.written ⟨0, 0, 0⟩ .block 5) :=
    ChunkVolume.repainted_written
  let vol := (blank.written ⟨0, 0, 0⟩ .block 5).written ⟨1, 0, 0⟩ .block 5
  have hrep : ChunkVolume.Repainted blank vol := hfirst.trans ChunkVolume.repainted_written
  have hfield : LightVolume.field vol =
      ((LightVolume.field blank).put .block ⟨0, 0, 0⟩ 5).put .block ⟨1, 0, 0⟩ 5 := by
    rw [ChunkVolume.field_written (hfirst.inside.2 hs).1 (hfirst.inside.2 hs).2,
      ChunkVolume.field_written ho.1 ho.2]
  have hair : ∀ p, vol.Inside p → (LightVolume.field vol).Conducts .empty p := by
    intro p hp
    rw [hfield]
    exact ChunkVolume.conducts_of_blank hblank (hrep.inside.1 hp)
  have hlit : LitBy .empty .block {⟨0, 0, 0⟩, ⟨1, 0, 0⟩} (fun _ => 5) vol := by
    intro p hp
    have hmem : p ∈ ({⟨0, 0, 0⟩, ⟨1, 0, 0⟩} : Finset Pos) := by
      rcases (hcells p).1 (hrep.inside.1 hp) with rfl | rfl <;> decide
    have hfive : (LightVolume.field vol).level .block p = 5 := by
      rw [hfield]
      rcases (hcells p).1 (hrep.inside.1 hp) with rfl | rfl
      · rw [(LightField.put_sameAt hadj.ne).level, LightField.level_put_self]
        rfl
      · rw [LightField.level_put_self]
        rfl
    rw [hfive]
    exact Nat.le_antisymm (le_lightOf (fun _ => 5) (fun _ _ => le_rfl) hmem)
      (lightOf_le fun _ _ => le_rfl)
  -- two lamps of one level: neither reaches the other with more than its own light
  have hsources := removable_pair (m := 5) hadj (hrep.inside.2 ho) (hrep.inside.2 hs)
    (hair _ (hrep.inside.2 hs)) (by decide) (by decide)
  have hpair := (retract_removes_source .empty vol .block ⟨0, 0, 0⟩).1 _ _ hsources hlit
  rcases hpair.1 (hrep.bordered hbordered) with ⟨vol', heq⟩
  rcases hpair.2 vol' heq with ⟨hleft, hchannel⟩
  have hin : ∀ p, blank.Inside p → vol'.Inside p := fun p hp =>
    (hrep.trans hchannel.repainted).inside.2 hp
  have herase : ({⟨0, 0, 0⟩, ⟨1, 0, 0⟩} : Finset Pos).erase ⟨0, 0, 0⟩ = {⟨1, 0, 0⟩} := by decide
  have hback := hair _ (hrep.inside.2 ho)
  -- the lone source, in the blank chunk
  have hlone := (retract_removes_source .empty blank .block ⟨0, 0, 0⟩).2 5 (by decide) (by decide)
    ho fun p hp => ChunkVolume.level_of_blank hblank hp _
  rcases hlone.1 hbordered with ⟨blank', heq'⟩
  rcases hlone.2 blank' heq' with ⟨hdark, hchannel'⟩
  refine ⟨vol, vol', blank, blank', heq, ?_, ?_, heq',
    hdark _ (hchannel'.repainted.inside.2 ho)⟩
  · rw [hleft _ (hin _ ho), hchannel.conducts, herase, lightOf_singleton,
      if_pos ⟨1, (Walk.nil _).snoc hadj.symm hback⟩, distance_eq_one hadj.symm hback]
  · rw [hleft _ (hin _ hs), herase, lightOf_singleton, if_pos ⟨0, .nil _⟩, distance_self]

end VoxelWorld.Light
