import Mathlib.Data.List.Induction
import VoxelWorld.Block.Builtin
import VoxelWorld.Proofs.Ensures
import VoxelWorld.Proofs.Registry

/-!
# Proofs.Numbering — which block lists are accepted, and what they become

* `Registry.numbered` gives each definition of a list its number. It looks at the whole list before
  the definition, not at a running maximum.
* `Acceptable` says on this list what makes a block list right; `Admissible` says it of one more
  definition.
* `Drafted` is the state of the registry under construction after some definitions
  (`Drafted.define`). By induction along the list, exactly the acceptable lists become registries
  (`runs_iff_acceptable`), and each id has its last definition (`block_list_numbered`). The built-in
  list is one of them (`get_builtin`).
-/

namespace VoxelWorld.Registry

variable {r : Registry} {t : BlockType} {s s' : Draft} {d : BlockDef} {defs : List BlockDef}
  {earlier : List (BlockDef × Nat)} {e : BlockDef × Nat} {id : BlockId} {name : String}

/-! ## Numbers -/

/-- One above the largest number that was given, or else one. -/
def nextNumber (earlier : List (BlockDef × Nat)) : Nat :=
  match (earlier.map Prod.snd).max? with
  | none => 1
  | some n => n + 1

/-- The number of a definition behind others. -/
def numberAfter (earlier : List (BlockDef × Nat)) (d : BlockDef) : Nat :=
  (d.id.map UInt8.toNat).getD (nextNumber earlier)

/-- The definitions of a list with their numbers. -/
def numbered (defs : List BlockDef) : List (BlockDef × Nat) :=
  defs.foldl (fun earlier d => earlier ++ [(d, numberAfter earlier d)]) []

/-- One more definition leaves the earlier numbers as they are. -/
theorem numbered_snoc (defs : List BlockDef) (d : BlockDef) :
    numbered (defs ++ [d]) = numbered defs ++ [(d, numberAfter (numbered defs) d)] :=
  List.foldl_append

/-- The number to give next lies above the one that was given, and does not fall. -/
theorem nextNumber_snoc : nextNumber (earlier ++ [e]) = max (nextNumber earlier) (e.2 + 1) := by
  cases earlier with
  | nil =>
    show e.2 + 1 = max 1 (e.2 + 1)
    omega
  | cons first rest =>
    unfold nextNumber
    rw [List.map_append, List.map_cons, List.cons_append, List.max?_cons', List.max?_cons',
      List.foldl_append]
    show max ((rest.map Prod.snd).foldl max first.2) e.2 + 1 =
      max ((rest.map Prod.snd).foldl max first.2 + 1) (e.2 + 1)
    omega

/-- All numbers so far lie below the one to give next. -/
theorem lt_nextNumber (h : e ∈ earlier) : e.2 < nextNumber earlier := by
  induction earlier using List.reverseRecOn with
  | nil => cases h
  | append_singleton earlier e' ih =>
    rw [nextNumber_snoc]
    rcases List.mem_append.1 h with h | h
    · have := ih h
      omega
    · rw [List.mem_singleton.1 h]
      omega

/-- A number that is not asked for is a new one. -/
theorem numbered_fresh (defs : List BlockDef) :
    (numbered defs).Pairwise fun a b => b.1.id = none → a.2 ≠ b.2 := by
  induction defs using List.reverseRecOn with
  | nil => exact List.Pairwise.nil
  | append_singleton defs d ih =>
    rw [numbered_snoc, List.pairwise_append]
    refine ⟨ih, List.pairwise_singleton _ _, fun a ha b hb hnone => ?_⟩
    rw [List.mem_singleton.1 hb] at hnone ⊢
    have hnumber : numberAfter (numbered defs) d = nextNumber (numbered defs) := by
      unfold numberAfter
      rw [show d.id = none from hnone]
      rfl
    have := lt_nextNumber ha
    show a.2 ≠ numberAfter (numbered defs) d
    omega

/-! ## Right lists -/

/-- A list in which automatic numbers fit a byte, no name has two numbers, `air` being zero
already, and no block is too bright. -/
structure Acceptable (defs : List BlockDef) : Prop where
  room : ∀ e ∈ numbered defs, e.1.id = none → e.2 ≤ 255
  names : (numbered defs).Pairwise fun a b => a.1.name = b.1.name → a.2 = b.2
  air : ∀ e ∈ numbered defs, e.1.name = "air" → e.2 = 0
  luminance : ∀ e ∈ numbered defs, e.1.luminance.getD 0 ≤ 15

/-- What a list of definitions asks of one more behind it. -/
structure Admissible (defs : List BlockDef) (d : BlockDef) : Prop where
  room : d.id = none → numberAfter (numbered defs) d ≤ 255
  names : ∀ e ∈ numbered defs, e.1.name = d.name → e.2 = numberAfter (numbered defs) d
  air : d.name = "air" → numberAfter (numbered defs) d = 0
  luminance : d.luminance.getD 0 ≤ 15

/-- The number of a definition that is let through is an id. -/
theorem Admissible.exists_id (h : Admissible defs d) :
    ∃ id : BlockId, id.toNat = numberAfter (numbered defs) d := by
  cases hid : d.id with
  | some id =>
    -- an explicit number is a byte from the start
    refine ⟨id, ?_⟩
    unfold numberAfter
    rw [hid]
    rfl
  | none =>
    have := h.room hid
    exact ⟨_, UInt8.toNat_ofNat_of_lt (show numberAfter (numbered defs) d < 256 by omega)⟩

theorem acceptable_nil : Acceptable [] := ⟨nofun, List.Pairwise.nil, nofun, nofun⟩

/-- A list is right if it is right without its last definition and that may come behind it. -/
theorem acceptable_snoc : Acceptable (defs ++ [d]) ↔ Acceptable defs ∧ Admissible defs d := by
  constructor
  · rintro ⟨hroom, hnames, hair, hlum⟩
    rw [numbered_snoc] at hroom hnames hair hlum
    rw [List.pairwise_append] at hnames
    have hlast : (d, numberAfter (numbered defs) d) ∈
        numbered defs ++ [(d, numberAfter (numbered defs) d)] :=
      List.mem_append_right _ List.mem_cons_self
    exact ⟨⟨fun e he => hroom e (List.mem_append_left _ he), hnames.1,
        fun e he => hair e (List.mem_append_left _ he),
        fun e he => hlum e (List.mem_append_left _ he)⟩,
      ⟨hroom _ hlast, fun e he => hnames.2.2 e he _ List.mem_cons_self, hair _ hlast,
        hlum _ hlast⟩⟩
  · -- each condition is asked of the earlier entries and of the last one
    rintro ⟨h, hd⟩
    have hboth : ∀ {P : BlockDef × Nat → Prop}, (∀ e ∈ numbered defs, P e) →
        P (d, numberAfter (numbered defs) d) → ∀ e ∈ numbered (defs ++ [d]), P e := by
      intro P hall hlast e he
      rw [numbered_snoc] at he
      rcases List.mem_append.1 he with he | he
      · exact hall e he
      · rw [List.mem_singleton.1 he]
        exact hlast
    refine ⟨hboth h.room hd.room, ?_, hboth h.air hd.air, hboth h.luminance hd.luminance⟩
    rw [numbered_snoc, List.pairwise_append]
    refine ⟨h.names, List.pairwise_singleton _ _, fun a ha b hb hname => ?_⟩
    rw [List.mem_singleton.1 hb] at hname ⊢
    exact hd.names a ha hname

/-! ## What ids and names stand for -/

/-- The last definition of an id. -/
def lastWith (defs : List BlockDef) (id : BlockId) : Option BlockDef :=
  ((numbered defs).reverse.find? fun e => e.2 == id.toNat).map Prod.fst

/-- A later definition of an id hides the earlier ones. -/
theorem lastWith_snoc : lastWith (defs ++ [d]) id =
    if numberAfter (numbered defs) d = id.toNat then some d else lastWith defs id := by
  unfold lastWith
  rw [numbered_snoc, List.reverse_append, List.reverse_singleton, List.singleton_append,
    List.find?_cons]
  by_cases h : numberAfter (numbered defs) d = id.toNat
  · rw [if_pos h]
    simp only [h, beq_self_eq_true, Option.map_some]
  · rw [if_neg h]
    simp only [beq_eq_false_iff_ne.2 h]

/-- What a list says of an id: its last definition, or what is known without one. -/
def described (defs : List BlockDef) (id : BlockId) : BlockType :=
  match lastWith defs id with
  | some d => d.toType id
  | none => if id = VoxelWorld.air then .ofAir else .unknown id

/-- The list calls an id by a name, which `air` is called anyway. -/
def Named (defs : List BlockDef) (name : String) (id : BlockId) : Prop :=
  name = "air" ∧ id = VoxelWorld.air ∨ ∃ e ∈ numbered defs, e.1.name = name ∧ e.2 = id.toNat

/-! ## One definition -/

/-- A name that had no id gets the id of the new type. One that had it already keeps it. -/
theorem idOf?_put (h : ∀ id, r.idOf? t.name = some id → id = t.id) :
    (r.put t).idOf? name = if name = t.name then some t.id else r.idOf? name := by
  have hput : (r.put t).idOf? name =
      (if r.names.lookup t.name = none then (t.name, t.id) :: r.names else r.names).lookup name :=
    rfl
  rw [hput]
  -- only a new name is listed
  cases hold : r.names.lookup t.name with
  | none =>
    rw [if_pos rfl, List.lookup_cons]
    by_cases hname : name = t.name
    · rw [if_pos hname, beq_iff_eq.2 hname]
    · rw [if_neg hname, beq_eq_false_iff_ne.2 hname]
      rfl
  | some id =>
    rw [if_neg (Option.some_ne_none id)]
    by_cases hname : name = t.name
    · rw [if_pos hname, hname, hold, h id hold]
    · rw [if_neg hname]
      rfl

/-- With a number that is an id, a definition is looked at for its name and its luminance. -/
theorem define_of_id (h : id.toNat = (d.id.map UInt8.toNat).getD s.next) :
    define s d =
      if (s.registry.idOf? d.name).any (· ≠ id) then .error (.duplicateName d.name)
      else if 15 < d.luminance.getD 0 then .error (.tooBright d.name (d.luminance.getD 0))
      else .ok ⟨s.registry.put (d.toType id), max s.next (id.toNat + 1)⟩ := by
  unfold define
  cases hid : d.id with
  | some asked =>
    rw [hid] at h
    obtain rfl : id = asked := UInt8.toNat_inj.1 h
    rfl
  | none =>
    rw [hid] at h
    have hnext : s.next = id.toNat := h.symm
    have hbyte : id.toNat < 256 := id.toNat_lt
    simp only []
    rw [if_pos (by omega), hnext, UInt8.ofNat_toNat]
    rfl

/-- A number that is no id is one too many. -/
theorem define_of_no_id (h : ∀ id : BlockId, id.toNat ≠ (d.id.map UInt8.toNat).getD s.next) :
    define s d = .error (.tooManyTypes d.name) := by
  unfold define
  cases hid : d.id with
  | some asked => exact absurd (by rw [hid]; rfl) (h asked)
  | none =>
    have hnext : ¬ s.next ≤ 255 := by
      intro hle
      refine h (UInt8.ofNat s.next) ?_
      rw [hid]
      exact UInt8.toNat_ofNat_of_lt (show s.next < 256 by omega)
    simp only []
    rw [if_neg hnext]
    rfl

/-- What is asked of a definition, and what comes of it. -/
theorem define_eq_ok : define s d = .ok s' ↔ ∃ id : BlockId,
    id.toNat = (d.id.map UInt8.toNat).getD s.next ∧
    (∀ old, s.registry.idOf? d.name = some old → old = id) ∧ d.luminance.getD 0 ≤ 15 ∧
    s' = ⟨s.registry.put (d.toType id), max s.next (id.toNat + 1)⟩ := by
  constructor
  · intro h
    -- an automatic number may not fit a byte any more
    by_cases hid : ∃ id : BlockId, id.toNat = (d.id.map UInt8.toNat).getD s.next
    · obtain ⟨id, hid⟩ := hid
      rw [define_of_id hid] at h
      split at h
      · cases h
      · rename_i hname
        split at h
        · cases h
        · refine ⟨id, hid, fun old hold => ?_, by omega, (Except.ok.inj h).symm⟩
          rw [hold] at hname
          simpa using hname
    · rw [define_of_no_id (not_exists.1 hid)] at h
      cases h
  · rintro ⟨id, hid, hname, hlum, rfl⟩
    rw [define_of_id hid, if_neg, if_neg (by omega)]
    cases hold : s.registry.idOf? d.name with
    | none => exact Bool.false_ne_true
    | some old => simp [hname old hold]

/-! ## The registry under construction -/

/-- What has come of definitions. -/
structure Drafted (defs : List BlockDef) (s : Draft) : Prop where
  next : s.next = nextNumber (numbered defs)
  ids : ∀ e ∈ numbered defs, ∃ id : BlockId, id.toNat = e.2
  types : ∀ id, s.registry.get id = described defs id
  names : ∀ name id, s.registry.idOf? name = some id ↔ Named defs name id

/-- Before the first definition there is air alone. -/
theorem drafted_nil : Drafted [] ⟨empty, 1⟩ where
  next := rfl
  ids := nofun
  types := get_empty
  names name id := by
    -- air has its name from the start
    have hempty : empty.idOf? name = if name = "air" then some VoxelWorld.air else none := by
      show List.lookup name [("air", VoxelWorld.air)] = _
      rw [List.lookup_cons]
      by_cases h : name = "air"
      · rw [if_pos h, beq_iff_eq.2 h]
      · rw [if_neg h, beq_eq_false_iff_ne.2 h]
        rfl
    show empty.idOf? name = some id ↔
      name = "air" ∧ id = VoxelWorld.air ∨ ∃ e ∈ ([] : List (BlockDef × Nat)), _
    rw [hempty]
    by_cases h : name = "air"
    · simp [h, eq_comm]
    · simp [h]

/-- A definition adds its name to its id, and takes no name away. -/
theorem named_snoc : Named (defs ++ [d]) name id ↔
    Named defs name id ∨ d.name = name ∧ numberAfter (numbered defs) d = id.toNat := by
  unfold Named
  rw [numbered_snoc]
  simp only [List.mem_append, List.mem_singleton, or_and_right, exists_or, exists_eq_left,
    or_assoc]

/-- A definition may follow if and only if it is taken. -/
theorem Drafted.defines_iff (h : Drafted defs s) :
    (∃ s', define s d = .ok s') ↔ Admissible defs d := by
  simp only [define_eq_ok]
  rw [h.next]
  constructor
  · -- what passes the checks of the registry is admissible, since its names are those of the list
    rintro ⟨_, id, hid, hname, hlum, -⟩
    have hnumber : numberAfter (numbered defs) d = id.toNat := hid.symm
    have hbyte : id.toNat < 256 := id.toNat_lt
    refine ⟨fun _ => by omega, fun e he hsame => ?_, fun hair => ?_, hlum⟩
    · obtain ⟨old, hold⟩ := h.ids e he
      rw [hnumber, ← hname old ((h.names _ _).2 (.inr ⟨e, he, hsame, hold.symm⟩)), hold]
    · rw [hnumber, ← hname _ ((h.names _ _).2 (.inl ⟨hair, rfl⟩))]
      rfl
  · intro hd
    obtain ⟨id, hid⟩ := hd.exists_id
    refine ⟨_, id, hid, fun old hold => UInt8.toNat_inj.1 ?_, hd.luminance, rfl⟩
    rcases (h.names _ _).1 hold with ⟨hair, rfl⟩ | ⟨e, he, hsame, hnumber⟩
    · rw [hid, hd.air hair]
      rfl
    · rw [hid, ← hnumber, hd.names e he hsame]

/-- One definition after others: step of the induction along a list. -/
theorem Drafted.define (h : Drafted defs s) (hs : Registry.define s d = .ok s') :
    Drafted (defs ++ [d]) s' := by
  obtain ⟨id, hid, hname, -, rfl⟩ := define_eq_ok.1 hs
  rw [h.next] at hid
  have hnumber : numberAfter (numbered defs) d = id.toNat := hid.symm
  -- the next number, the ids, the types and the names, each with the new definition behind the
  -- others
  constructor
  · rw [numbered_snoc, nextNumber_snoc, h.next, hnumber]
  · intro e he
    rw [numbered_snoc] at he
    rcases List.mem_append.1 he with he | he
    · exact h.ids e he
    · rw [List.mem_singleton.1 he]
      exact ⟨id, hid⟩
  · intro other
    show (s.registry.put (d.toType id)).get other = _
    rw [get_put]
    unfold described
    rw [lastWith_snoc, hnumber]
    by_cases hother : other = id
    · subst hother
      rw [if_pos rfl]
      exact if_pos rfl
    · refine (if_neg hother).trans ?_
      rw [if_neg fun h => hother (UInt8.toNat_inj.1 h.symm)]
      exact h.types other
  · intro name other
    show (s.registry.put (d.toType id)).idOf? name = some other ↔ _
    rw [idOf?_put hname, named_snoc, hnumber, ← h.names]
    show (if name = d.name then some id else _) = some other ↔ _
    by_cases hsame : name = d.name
    · rw [if_pos hsame, Option.some_inj, hsame]
      constructor
      · rintro rfl
        exact .inr ⟨rfl, rfl⟩
      · rintro (hold | ⟨-, hold⟩)
        · exact (hname other hold).symm
        · exact UInt8.toNat_inj.1 hold
    · rw [if_neg hsame]
      constructor
      · exact .inl
      · rintro (hold | ⟨hold, -⟩)
        · exact hold
        · exact absurd hold.symm hsame

/-! ## A whole list -/

/-- What a run of definitions leads to. -/
theorem drafted_of_run (hs : defs.foldlM define ⟨empty, 1⟩ = .ok s) : Drafted defs s := by
  induction defs using List.reverseRecOn generalizing s with
  | nil => exact Except.ok.inj hs ▸ drafted_nil
  | append_singleton defs d ih =>
    obtain ⟨m, hm, hd⟩ := foldlM_snoc_eq_ok.1 hs
    exact (ih hm).define hd

/-- Exactly the acceptable lists run through. -/
theorem runs_iff_acceptable :
    (∃ s, defs.foldlM define ⟨empty, 1⟩ = .ok s) ↔ Acceptable defs := by
  induction defs using List.reverseRecOn with
  | nil => exact ⟨fun _ => acceptable_nil, fun _ => ⟨_, rfl⟩⟩
  | append_singleton defs d ih =>
    rw [acceptable_snoc, ← ih]
    constructor
    · rintro ⟨s', hs⟩
      obtain ⟨m, hm, hd⟩ := foldlM_snoc_eq_ok.1 hs
      exact ⟨⟨m, hm⟩, (drafted_of_run hm).defines_iff.1 ⟨s', hd⟩⟩
    · rintro ⟨⟨m, hm⟩, hd⟩
      obtain ⟨s', hs⟩ := (drafted_of_run hm).defines_iff.2 hd
      exact ⟨s', foldlM_snoc_eq_ok.2 ⟨m, hm, hs⟩⟩

/-- The registry of a list is what its definitions make of the empty one, one after the other. -/
theorem ofDefs_eq_ok :
    ofDefs defs = .ok r ↔ ∃ s, defs.foldlM define ⟨empty, 1⟩ = .ok s ∧ s.registry = r := by
  unfold ofDefs
  cases defs.foldlM define ⟨empty, 1⟩ with
  | error e => exact ⟨nofun, nofun⟩
  | ok s => exact ⟨fun h => ⟨s, rfl, Except.ok.inj h⟩, fun ⟨_, hs, h⟩ => Except.ok.inj hs ▸ h ▸ rfl⟩

/-- Whatever the list says of an id, it says under that id. -/
theorem described_id (defs : List BlockDef) (id : BlockId) : (described defs id).id = id := by
  unfold described
  cases lastWith defs id with
  | some d => rfl
  | none =>
    by_cases h : id = VoxelWorld.air
    · rw [h]
      rfl
    · simp only [if_neg h]
      rfl

/-! ## The built-in list -/

theorem numbered_builtin : numbered builtinDefs = builtinDefs.zipIdx := by decide

theorem acceptable_builtin : Acceptable builtinDefs := by
  constructor <;> rw [numbered_builtin] <;> decide

/-- The built-in list is accepted, and its registry says of each id what the list does. -/
theorem get_builtin (id : BlockId) : builtin.get id = described builtinDefs id := by
  obtain ⟨s, hs⟩ := runs_iff_acceptable.2 acceptable_builtin
  have hr : ofDefs builtinDefs = .ok s.registry := ofDefs_eq_ok.2 ⟨s, hs, rfl⟩
  unfold builtin
  rw [hr]
  exact (drafted_of_run hs).types id

/-! ## Any list -/

/-- A block list becomes a registry if and only if it is acceptable. The registry has each id as
its last definition has it, under the number of that definition, and knows each name. -/
theorem block_list_numbered (defs : List BlockDef) :
    ((∃ r, ofDefs defs = .ok r) ↔ Acceptable defs) ∧
    ∀ r, ofDefs defs = .ok r →
      (∀ id, r.get id = match lastWith defs id with
        | some d =>
          { id, name := d.name, translucent := d.translucent.getD (d.invisible.getD false),
            invisible := d.invisible.getD false, form := d.form.getD .cube,
            luminance := d.luminance.getD 0 }
        | none => if id = VoxelWorld.air then .ofAir else .unknown id) ∧
      (∀ id, (r.get id).id = id) ∧
      (∀ name id, r.idOf? name = some id ↔ Named defs name id) ∧
      (numbered defs).Pairwise fun a b => b.1.id = none → a.2 ≠ b.2 := by
  refine ⟨?_, fun r hr => ?_⟩
  · -- the list is taken just if all its definitions run through
    rw [← runs_iff_acceptable]
    constructor
    · rintro ⟨r, hr⟩
      obtain ⟨s, hs, -⟩ := ofDefs_eq_ok.1 hr
      exact ⟨s, hs⟩
    · rintro ⟨s, hs⟩
      exact ⟨s.registry, ofDefs_eq_ok.2 ⟨s, hs, rfl⟩⟩
  · obtain ⟨s, hs, rfl⟩ := ofDefs_eq_ok.1 hr
    have h := drafted_of_run hs
    exact ⟨h.types, fun id => h.types id ▸ described_id defs id, h.names, numbered_fresh defs⟩

/-- Stone is asked for as seven, a lamp gets the next number, and stone comes once more. -/
theorem block_list_numbered_stone :
    let stone : BlockDef := { name := "stone", id := some 7 }
    let lamp : BlockDef := { name := "lamp", luminance := some 15 }
    let ice : BlockDef := { stone with translucent := some true }
    Acceptable [stone, lamp, ice] ∧
      ∃ r, ofDefs [stone, lamp, ice] = .ok r ∧ (r.get 7).translucent = true ∧
        (r.get 8).luminance = 15 ∧ r.idOf? "lamp" = some 8 := by
  intro stone lamp ice
  have hnumbered : numbered [stone, lamp, ice] = [(stone, 7), (lamp, 8), (ice, 7)] := by decide
  have hacceptable : Acceptable [stone, lamp, ice] := by
    constructor <;> rw [hnumbered] <;> decide
  have hlist := block_list_numbered [stone, lamp, ice]
  obtain ⟨r, hr⟩ := hlist.1.2 hacceptable
  obtain ⟨htypes, -, hnames, -⟩ := hlist.2 r hr
  have hlast7 : lastWith [stone, lamp, ice] 7 = some ice := by
    unfold lastWith
    rw [hnumbered]
    decide
  have hlast8 : lastWith [stone, lamp, ice] 8 = some lamp := by
    unfold lastWith
    rw [hnumbered]
    decide
  refine ⟨hacceptable, r, hr, ?_, ?_, (hnames _ _).2 (.inr ⟨(lamp, 8), ?_, rfl, rfl⟩)⟩
  · rw [htypes, hlast7]
    rfl
  · rw [htypes, hlast8]
    rfl
  · rw [hnumbered]
    exact .tail _ (.head _)

end VoxelWorld.Registry
