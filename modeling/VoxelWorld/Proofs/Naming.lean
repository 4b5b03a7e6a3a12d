import Mathlib.Data.List.Nodup
import VoxelWorld.Proofs.Numbering

/-!
# Proofs.Naming — when the names and the ids of a block list agree

A name never has two ids, and the list is refused that gives it a second one. The other way round
nothing is looked at: a number may be asked for under two names. Its entry then has the last name,
the earlier one still leads to it (`earlier_name_leads_elsewhere`), and the block under the earlier
name is gone.

* `Unambiguous` says that the names of a registry have ids of their own. It is the same as each name
  leading to an entry of that name (`Drafted.entries_named_iff`) and as each id being listed once
  (`Distinct.defined_strict_iff`).
* `OneNamed` says of a list that it gives no number to two names, `air` being zero already.
  `names_and_ids_agree_iff` is for every list that is taken.
-/

namespace VoxelWorld.Registry

variable {r : Registry} {t : BlockType} {s s' : Draft} {d : BlockDef} {defs : List BlockDef}
  {e : BlockDef × Nat} {id : BlockId} {name : String}

/-! ## The names of a registry -/

/-- No name is kept twice. -/
def Distinct (r : Registry) : Prop := (r.names.map Prod.fst).Nodup

/-- A name is listed only if it is not there yet. -/
theorem Distinct.put (h : r.Distinct) (t : BlockType) : (r.put t).Distinct := by
  show ((if r.names.lookup t.name = none then (t.name, t.id) :: r.names
    else r.names).map Prod.fst).Nodup
  split
  · rename_i hnew
    rw [List.map_cons, List.nodup_cons]
    refine ⟨fun hmem => ?_, h⟩
    obtain ⟨e, he, hname⟩ := List.mem_map.1 hmem
    have hne := List.lookup_eq_none_iff.1 hnew e he
    exact absurd hname.symm (bne_iff_ne.1 hne)
  · exact h

/-- No run of definitions lists a name twice. -/
theorem distinct_of_run (hs : defs.foldlM define ⟨empty, 1⟩ = .ok s) : s.registry.Distinct := by
  induction defs using List.reverseRecOn generalizing s with
  | nil =>
    rw [← Except.ok.inj hs]
    exact List.nodup_singleton "air"
  | append_singleton defs d ih =>
    obtain ⟨m, hm, hd⟩ := foldlM_snoc_eq_ok.1 hs
    obtain ⟨id, -, -, -, rfl⟩ := define_eq_ok.1 hd
    exact (ih hm).put _

/-- With every name there once, finding a name and looking it up is the same. -/
theorem Distinct.mem_names_iff (h : r.Distinct) :
    (name, id) ∈ r.names ↔ r.idOf? name = some id := by
  unfold idOf?
  rw [List.lookup_eq_some_iff]
  constructor
  · -- a listed name is found unless it comes earlier too
    intro hmem
    obtain ⟨before, after, hsplit⟩ := List.append_of_mem hmem
    refine ⟨before, after, hsplit, fun e he => bne_iff_ne.2 fun hsame => ?_⟩
    have hnodup : (before.map Prod.fst ++ name :: after.map Prod.fst).Nodup := by
      have hnames : (r.names.map Prod.fst).Nodup := h
      rwa [hsplit, List.map_append, List.map_cons] at hnames
    refine (List.nodup_append.1 hnodup).2.2 e.1 (List.mem_map_of_mem he) name List.mem_cons_self ?_
    exact hsame.symm
  · rintro ⟨before, after, hsplit, -⟩
    rw [hsplit]
    exact List.mem_append_right _ List.mem_cons_self

/-- Names have ids of their own. -/
def Unambiguous (r : Registry) : Prop :=
  ∀ a b id, r.idOf? a = some id → r.idOf? b = some id → a = b

/-- Names have ids of their own just if no id is listed twice. -/
theorem Distinct.unambiguous_iff (h : r.Distinct) :
    r.Unambiguous ↔ (r.names.map Prod.snd).Nodup := by
  constructor
  · intro hown
    refine List.Nodup.map_on ?_ h.of_map
    rintro ⟨a, id⟩ ha ⟨b, id'⟩ hb (rfl : id = id')
    rw [hown a b id (h.mem_names_iff.1 ha) (h.mem_names_iff.1 hb)]
  · intro hids a b id ha hb
    have := List.inj_on_of_nodup_map hids (h.mem_names_iff.2 ha) (h.mem_names_iff.2 hb) rfl
    exact congrArg Prod.fst this

/-! ## The listed types -/

/-- The types of all listed names, in some order. -/
theorem defined_perm (r : Registry) : r.defined.Perm (r.names.map fun e => r.get e.2) := by
  have hsorted : r.defined.Perm ((r.names.map Prod.snd).map r.get) :=
    (List.mergeSort_perm _ _).map _
  rwa [List.map_map] at hsorted

/-- Only types that some name leads to are listed. -/
theorem mem_defined_iff (h : r.Distinct) :
    t ∈ r.defined ↔ ∃ name id, r.idOf? name = some id ∧ r.get id = t := by
  rw [r.defined_perm.mem_iff, List.mem_map]
  constructor
  · rintro ⟨⟨name, id⟩, he, rfl⟩
    exact ⟨name, id, h.mem_names_iff.1 he, rfl⟩
  · rintro ⟨name, id, hid, rfl⟩
    exact ⟨(name, id), h.mem_names_iff.2 hid, rfl⟩

/-- The ids of the listed types, if each entry knows its own, are those of the names in order. -/
theorem defined_ids (hself : ∀ id, (r.get id).id = id) :
    r.defined.map (·.id) = (r.names.map Prod.snd).mergeSort (· ≤ ·) := by
  unfold defined
  rw [List.map_map]
  exact (List.map_congr_left fun id _ => hself id).trans (List.map_id _)

/-- The listing goes by ids. -/
theorem defined_sorted (hself : ∀ id, (r.get id).id = id) :
    r.defined.Pairwise fun a b => a.id ≤ b.id := by
  have hids : (r.defined.map (·.id)).Pairwise (· ≤ ·) := by
    rw [defined_ids hself]
    refine (List.pairwise_mergeSort (fun a b c hab hbc => ?_) (fun a b => ?_) _).imp
      of_decide_eq_true
    · exact decide_eq_true (UInt8.le_trans (of_decide_eq_true hab) (of_decide_eq_true hbc))
    · rw [Bool.or_eq_true, decide_eq_true_iff, decide_eq_true_iff]
      exact UInt8.le_total a b
  exact List.pairwise_map.1 hids

/-- No block is listed twice if and only if the names have ids of their own. -/
theorem Distinct.defined_strict_iff (h : r.Distinct) (hself : ∀ id, (r.get id).id = id) :
    (r.defined.Pairwise fun a b => a.id < b.id) ↔ r.Unambiguous := by
  have hnodup : (r.defined.map (·.id)).Nodup ↔ (r.names.map Prod.snd).Nodup := by
    rw [defined_ids hself]
    exact (List.mergeSort_perm _ _).nodup_iff
  rw [h.unambiguous_iff, ← hnodup, List.Nodup, List.pairwise_map]
  constructor
  · intro hlt
    exact hlt.imp UInt8.ne_of_lt
  · intro hne
    exact (hne.and (defined_sorted hself)).imp fun hab => UInt8.lt_of_le_of_ne hab.2 hab.1

/-! ## The names of a list -/

/-- The last definition of an id is among those of the list. -/
theorem lastWith_eq_some (h : lastWith defs id = some d) : (d, id.toNat) ∈ numbered defs := by
  obtain ⟨⟨d', number⟩, hfind, rfl⟩ := Option.map_eq_some_iff.1 h
  have hnumber : (number == id.toNat) = true :=
    List.find?_some (p := fun e : BlockDef × Nat => e.2 == id.toNat) hfind
  rw [← beq_iff_eq.1 hnumber]
  exact List.mem_reverse.1 (List.mem_of_find?_eq_some hfind)

/-- An id without a last definition has none at all. -/
theorem lastWith_eq_none (h : lastWith defs id = none) (he : e ∈ numbered defs) :
    e.2 ≠ id.toNat := by
  have hnone := List.find?_eq_none.1 (Option.map_eq_none_iff.1 h) e (List.mem_reverse.2 he)
  exact fun heq => hnone (beq_iff_eq.2 heq)

/-- No number goes to two names, zero being that of `air`. -/
structure OneNamed (defs : List BlockDef) : Prop where
  numbers : ∀ a ∈ numbered defs, ∀ b ∈ numbered defs, a.2 = b.2 → a.1.name = b.1.name
  zero : ∀ e ∈ numbered defs, e.2 = 0 → e.1.name = "air"

/-- A list calls no id by two names if and only if it is `OneNamed`. -/
theorem Drafted.unambiguous_iff (h : Drafted defs s) :
    s.registry.Unambiguous ↔ OneNamed defs := by
  have hknown : ∀ {e : BlockDef × Nat} {id : BlockId}, e ∈ numbered defs → id.toNat = e.2 →
      s.registry.idOf? e.1.name = some id :=
    fun he hid => (h.names _ _).2 (.inr ⟨_, he, rfl, hid.symm⟩)
  constructor
  · intro hown
    constructor
    · intro a ha b hb hnumber
      obtain ⟨id, hid⟩ := h.ids a ha
      exact hown _ _ id (hknown ha hid) (hknown hb (hid.trans hnumber))
    · intro e he hzero
      exact hown _ _ VoxelWorld.air (hknown he hzero.symm) ((h.names _ _).2 (.inl ⟨rfl, rfl⟩))
  · -- air has its name from the start, so it is compared with listed names as well
    intro hone a b id ha hb
    rcases (h.names _ _).1 ha with ⟨rfl, rfl⟩ | ⟨e, he, rfl, hnumber⟩
    · rcases (h.names _ _).1 hb with ⟨rfl, -⟩ | ⟨e', he', rfl, hnumber'⟩
      · rfl
      · exact (hone.zero e' he' hnumber').symm
    · rcases (h.names _ _).1 hb with ⟨rfl, rfl⟩ | ⟨e', he', rfl, hnumber'⟩
      · exact hone.zero e he hnumber
      · exact hone.numbers e he e' he' (hnumber.trans hnumber'.symm)

/-- The name of an entry that has a name leads back to the entry. -/
theorem Drafted.entry_known (h : Drafted defs s) (hid : s.registry.idOf? name = some id) :
    s.registry.idOf? (s.registry.get id).name = some id := by
  rw [h.names, h.types]
  unfold described
  cases hlast : lastWith defs id with
  | some d => exact .inr ⟨_, lastWith_eq_some hlast, rfl, rfl⟩
  | none =>
    rcases (h.names _ _).1 hid with ⟨-, rfl⟩ | ⟨e, he, -, hnumber⟩
    · exact .inl ⟨rfl, rfl⟩
    · exact absurd hnumber (lastWith_eq_none hlast he)

/-- Each name leads to an entry of that name if and only if the names have ids of their own. -/
theorem Drafted.entries_named_iff (h : Drafted defs s) :
    (∀ name id, s.registry.idOf? name = some id → (s.registry.get id).name = name) ↔
      s.registry.Unambiguous := by
  constructor
  · intro hnamed a b id ha hb
    rw [← hnamed a id ha, hnamed b id hb]
  · intro hown name id hid
    exact hown _ _ id (h.entry_known hid) hid

/-- Listed are air and the ids that got a number. -/
theorem Drafted.mem_defined_iff (h : Drafted defs s) (hd : s.registry.Distinct) :
    s.registry.get id ∈ s.registry.defined ↔
      id = VoxelWorld.air ∨ ∃ e ∈ numbered defs, e.2 = id.toNat := by
  have hself : ∀ id, (s.registry.get id).id = id := fun id => by
    rw [h.types, described_id]
  rw [Registry.mem_defined_iff hd]
  constructor
  · rintro ⟨name, id', hid', hget⟩
    obtain rfl : id' = id := by rw [← hself id', hget, hself]
    rcases (h.names _ _).1 hid' with ⟨-, hair⟩ | ⟨e, he, -, hnumber⟩
    · exact .inl hair
    · exact .inr ⟨e, he, hnumber⟩
  · rintro (rfl | ⟨e, he, hnumber⟩)
    · exact ⟨"air", _, (h.names _ _).2 (.inl ⟨rfl, rfl⟩), rfl⟩
    · exact ⟨_, _, (h.names _ _).2 (.inr ⟨e, he, rfl, hnumber⟩), rfl⟩

/-- In the registry of a list an entry has the name of its last definition, and the listed types
are those of the names in the order of their ids. The names lead to entries of that name, no two of
them share an id, and no block is listed twice, each of the three if and only if the list gives no
number to two names. -/
theorem names_and_ids_agree_iff (defs : List BlockDef) (r : Registry) (hr : ofDefs defs = .ok r) :
    (∀ id d, lastWith defs id = some d → (r.get id).name = d.name) ∧
    (∃ names : List String, names.Nodup ∧
      (∀ name, name ∈ names ↔ ∃ id, r.idOf? name = some id) ∧
      r.defined.Perm (names.map fun name => r.get (r.idOrAir name))) ∧
    (r.defined.Pairwise fun a b => a.id ≤ b.id) ∧
    (∀ id, r.get id ∈ r.defined ↔
      id = VoxelWorld.air ∨ ∃ e ∈ numbered defs, e.2 = id.toNat) ∧
    ((∀ name id, r.idOf? name = some id → (r.get id).name = name) ↔ OneNamed defs) ∧
    ((∀ a b id, r.idOf? a = some id → r.idOf? b = some id → a = b) ↔ OneNamed defs) ∧
    ((r.defined.Pairwise fun a b => a.id < b.id) ↔ OneNamed defs) := by
  obtain ⟨s, hs, rfl⟩ := ofDefs_eq_ok.1 hr
  have h := drafted_of_run hs
  have hd := distinct_of_run hs
  have hself : ∀ id, (s.registry.get id).id = id := fun id => by
    rw [h.types, described_id]
  refine ⟨fun id d hlast => ?_, ⟨s.registry.names.map Prod.fst, hd, fun name => ?_, ?_⟩,
    defined_sorted hself, fun id => h.mem_defined_iff hd,
    h.entries_named_iff.trans h.unambiguous_iff, h.unambiguous_iff,
    (hd.defined_strict_iff hself).trans h.unambiguous_iff⟩
  · -- the last definition of an id names it
    rw [h.types]
    unfold described
    rw [hlast]
    rfl
  · constructor
    · intro hmem
      obtain ⟨⟨name, id⟩, he, rfl⟩ := List.mem_map.1 hmem
      exact ⟨id, hd.mem_names_iff.1 he⟩
    · rintro ⟨id, hid⟩
      exact List.mem_map.2 ⟨_, hd.mem_names_iff.2 hid, rfl⟩
  · -- each listed name stands for one type of the listing
    rw [List.map_map]
    refine s.registry.defined_perm.trans (List.Perm.of_eq (List.map_congr_left ?_))
    rintro ⟨name, id⟩ he
    show s.registry.get id = s.registry.get ((s.registry.idOf? name).getD VoxelWorld.air)
    rw [hd.mem_names_iff.1 he]
    rfl

/-- Stone comes twice under one number and one name, and the lamp gets the next number. -/
theorem names_and_ids_agree_iff_stone :
    let stone : BlockDef := { name := "stone", id := some 7 }
    let lamp : BlockDef := { name := "lamp", luminance := some 15 }
    let ice : BlockDef := { stone with translucent := some true }
    ∃ r, ofDefs [stone, lamp, ice] = .ok r ∧ OneNamed [stone, lamp, ice] ∧
      (r.defined.Pairwise fun a b => a.id < b.id) ∧ r.get 8 ∈ r.defined ∧
      (r.get 8).name = "lamp" := by
  intro stone lamp ice
  have hnumbered : numbered [stone, lamp, ice] = [(stone, 7), (lamp, 8), (ice, 7)] := by decide
  have hone : OneNamed [stone, lamp, ice] := by
    constructor <;> rw [hnumbered] <;> decide
  have hlast : lastWith [stone, lamp, ice] 8 = some lamp := by
    unfold lastWith
    rw [hnumbered]
    decide
  obtain ⟨r, hr⟩ : ∃ r, ofDefs [stone, lamp, ice] = .ok r := ⟨_, rfl⟩
  obtain ⟨hname, -, -, hmem, -, -, hstrict⟩ := names_and_ids_agree_iff _ r hr
  refine ⟨r, hr, hone, hstrict.2 hone, (hmem 8).2 (.inr ⟨(lamp, 8), ?_, rfl⟩), hname 8 lamp hlast⟩
  rw [hnumbered]
  exact .tail _ (.head _)

/-- Stone and dirt ask for one number and both get it: stone is the name of the dirt block, which
is listed twice, and no listed block is called stone. -/
theorem earlier_name_leads_elsewhere :
    let stone : BlockDef := { name := "stone", id := some 1 }
    let dirt : BlockDef := { name := "dirt", id := some 1 }
    ∃ r, ofDefs [stone, dirt] = .ok r ∧ r.idOf? "stone" = some 1 ∧ (r.get 1).name = "dirt" ∧
      r.idOf? "dirt" = some 1 ∧ (r.defined.map (·.name)).Perm ["dirt", "dirt", "air"] := by
  intro stone dirt
  let r := (empty.put (stone.toType 1)).put (dirt.toType 1)
  have hdirt : r.get 1 = dirt.toType 1 := get_put _ _ _
  have hair : r.get VoxelWorld.air = .ofAir := by
    rw [get_put, get_put, get_empty]
    rfl
  refine ⟨r, rfl, by decide, congrArg BlockType.name hdirt, by decide, ?_⟩
  refine ((defined_perm r).map _).trans (List.Perm.of_eq ?_)
  show [(r.get 1).name, (r.get 1).name, (r.get VoxelWorld.air).name] = _
  rw [hdirt, hair]
  rfl

end VoxelWorld.Registry
