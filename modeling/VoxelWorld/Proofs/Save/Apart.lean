import Mathlib.Logic.Function.Basic
import VoxelWorld.Proofs.Save.Path

/-!
# Proofs.Save.Apart — names of chunks do not collide

* `Base36.decode?` reads a number in base 36. What is written is read back
  (`Base36.decode?_encode`), and only zero begins with a zero (`Base36.not_leadsWithZero`).
* The shortest form of a path goes name by name (`Path.direct_join`), so that the shortest form of
  the file of a chunk is its file below the shortest form of the root (`Path.direct_fileFor`).
* `Path.passes_fileFor` lists the directories on the way from the root to the file of a chunk.
* `Path.chunk_paths_apart` puts these together: no chunk has the file of another one, or stands
  where another one needs a directory, however the paths are spelled.
-/

namespace VoxelWorld

/-! ## Reading numbers -/

namespace Base36

variable {n : Nat} {v w : Int} {ch : Char}

/-- The value of a digit. -/
def digitValue? (ch : Char) : Option Nat :=
  if '0' ≤ ch ∧ ch ≤ '9' then some (ch.toNat - 48)
  else if 'a' ≤ ch ∧ ch ≤ 'z' then some (ch.toNat - 87)
  else none

/-- One more digit behind a number. -/
def appendDigit? (n : Nat) (ch : Char) : Option Nat := (digitValue? ch).map (36 * n + ·)

/-- The number that some digits stand for; none if there are no digits. -/
def magnitude? (l : List Char) : Option Nat := if l = [] then none else l.foldlM appendDigit? 0

/-- The number that is written with a sign or without one. -/
def number? : List Char → Option Int
  | '-' :: l => (magnitude? l).map fun n : Nat => -(n : Int)
  | l => (magnitude? l).map fun n : Nat => (n : Int)

def decode? (s : String) : Option Int := number? s.toList

theorem digitValue?_digit : ∀ a < 36, digitValue? (digit a) = some a := by decide

/-- Digits are read back from the greatest on. -/
theorem foldlM_digitsReversed (n : Nat) :
    (digitsReversed n).reverse.foldlM appendDigit? 0 = some n := by
  induction n using Nat.strongRecOn with
  | _ n ih =>
    by_cases hn : n = 0
    · rw [hn, digitsReversed_zero]
      rfl
    · have hlast : appendDigit? (n / 36) (digit (n % 36)) = some n := by
        unfold appendDigit?
        rw [digitValue?_digit _ (Nat.mod_lt n (by omega)), Option.map_some, Nat.div_add_mod]
      rw [digitsReversed_pos hn, List.reverse_cons, List.foldlM_append, ih (n / 36) (by omega)]
      show (List.foldlM appendDigit? (n / 36) [digit (n % 36)]) = some n
      rw [List.foldlM_cons, hlast]
      rfl

/-- What a size is written as is read back. -/
theorem magnitude?_magnitude (n : Nat) : magnitude? (magnitude n) = some n := by
  unfold magnitude?
  rw [if_neg magnitude_ne_nil]
  unfold magnitude
  split
  · rename_i hn
    rw [hn]
    rfl
  · exact foldlM_digitsReversed n

/-- A size without a sign is a number of its own. -/
theorem number?_magnitude (n : Nat) : number? (magnitude n) = some (n : Int) := by
  unfold number?
  split
  · rename_i l heq
    exact absurd (heq ▸ List.mem_cons_self) (minus_not_mem (n := n))
  · rw [magnitude?_magnitude]
    rfl

/-- What is written is read back. -/
theorem decode?_encode (v : Int) : decode? (encode v) = some v := by
  unfold decode? encode chars
  rw [String.toList_ofList]
  split
  · show (magnitude? (magnitude v.natAbs)).map (fun n : Nat => -(n : Int)) = _
    rw [magnitude?_magnitude, Option.map_some]
    congr 1
    omega
  · rw [number?_magnitude]
    congr 1
    omega

/-! ## How numbers look -/

/-- The first digit is a zero, whatever the sign. -/
def LeadsWithZero (s : String) : Prop := ['0'] <+: s.toList ∨ ['-', '0'] <+: s.toList

/-- The foremost digit of a number is not zero. -/
theorem exists_foremost (hn : n ≠ 0) :
    ∃ a l, 0 < a ∧ a < 36 ∧ digitsReversed n = l ++ [digit a] := by
  induction n using Nat.strongRecOn with
  | _ n ih =>
    rw [digitsReversed_pos hn]
    by_cases hsmall : n / 36 = 0
    · refine ⟨n, [], by omega, by omega, ?_⟩
      rw [hsmall, digitsReversed_zero, Nat.mod_eq_of_lt (by omega)]
      rfl
    · rcases ih (n / 36) (by omega) hsmall with ⟨a, l, hpos, hlt, heq⟩
      exact ⟨a, digit (n % 36) :: l, hpos, hlt, by rw [heq]; rfl⟩

/-- The first digit of a number is not zero, unless the number is. -/
theorem magnitude_foremost (hn : n ≠ 0) : ∃ a l, 0 < a ∧ a < 36 ∧ magnitude n = digit a :: l := by
  rcases exists_foremost hn with ⟨a, l, hpos, hlt, heq⟩
  refine ⟨a, l.reverse, hpos, hlt, ?_⟩
  unfold magnitude
  rw [if_neg hn, heq, List.reverse_append]
  rfl

/-- There is no zero in front, behind a sign or without one. -/
theorem not_leadsWithZero (hv : v ≠ 0) : ¬ LeadsWithZero (encode v) := by
  rcases magnitude_foremost (n := v.natAbs) (by omega) with ⟨a, l, hpos, hlt, heq⟩
  have hzero : digit a ≠ '0' := fun h => by
    have := digit_inj a hlt 0 (by omega) h
    omega
  have hminus : digit a ≠ '-' := (digit_plain a hlt).2.1
  unfold LeadsWithZero encode chars
  rw [String.toList_ofList, heq]
  split
  · rintro (h | h)
    · cases (List.cons_prefix_cons.1 h).1
    · exact hzero (List.cons_prefix_cons.1 (List.cons_prefix_cons.1 h).2).1.symm
  · rintro (h | h)
    · exact hzero (List.cons_prefix_cons.1 h).1.symm
    · exact hminus (List.cons_prefix_cons.1 h).1.symm

/-- Digits are no dots and no separators of the other kind. -/
theorem digit_ne_mark : ∀ a < 36, digit a ≠ '.' ∧ digit a ≠ '\\' := by decide

/-- No character of a number has a meaning in paths. -/
theorem mem_encode (h : ch ∈ (encode v).toList) : ch ≠ '.' ∧ ch ≠ '/' ∧ ch ≠ '\\' := by
  unfold encode at h
  rw [String.toList_ofList] at h
  have hslash := (mem_chars h).1
  have hdigit : ∀ {k}, ch ∈ magnitude k → ch ≠ '.' ∧ ch ≠ '/' ∧ ch ≠ '\\' := by
    intro k hk
    rcases mem_magnitude hk with ⟨a, ha, rfl⟩
    exact ⟨(digit_ne_mark a ha).1, hslash, (digit_ne_mark a ha).2⟩
  unfold chars at h
  split at h
  · rcases List.mem_cons.1 h with rfl | h
    · decide
    · exact hdigit h
  · exact hdigit h

end Base36

open Base36 (chars)

namespace Path

variable {root dir name path : String} {c c' : ChunkCoord} {passed : List String}

/-! ## The shortest form, name by name -/

/-- A name that leads one step down. -/
structure Plain (name : String) : Prop where
  nonempty : name ≠ ""
  slash : '/' ∉ name.toList
  here : name ≠ "."
  up : name ≠ ".."

/-- A name with a character that no dots are. -/
theorem plain_of_mem {ch : Char} (hslash : '/' ∉ name.toList) (h : ch ∈ name.toList)
    (hdot : ch ≠ '.') : Plain name where
  nonempty := by
    rintro rfl
    cases h
  slash := hslash
  here := by
    rintro rfl
    exact hdot (List.mem_singleton.1 h)
  up := by
    rintro rfl
    have h : ch ∈ ['.', '.'] := h
    simp only [List.mem_cons, List.not_mem_nil, or_false, or_self] at h
    exact hdot h

/-- A number is the name of a step down. -/
theorem plain_encode (v : Int) : Plain (Base36.encode v) := by
  have hchars : (Base36.encode v).toList = Base36.chars v := toList_encode v
  rcases List.exists_mem_of_ne_nil _ (Base36.chars_ne_nil (v := v)) with ⟨ch, hch⟩
  rw [← hchars] at hch
  exact plain_of_mem (fun h => (Base36.mem_encode h).2.1 rfl) hch (Base36.mem_encode hch).1

/-- The name of a file, character by character. -/
theorem toList_fileName : (fileName c).toList =
    ['b', 'c', '_'] ++ (chars c.x ++ '.' :: chars c.z) := by
  unfold fileName fileStem
  simp [toList_encode]

/-- It is the name of a step down as well. -/
theorem plain_fileName (c : ChunkCoord) : Plain (fileName c) := by
  have hb : 'b' ∈ (fileName c).toList := by
    rw [toList_fileName]
    exact List.mem_cons_self
  refine plain_of_mem ?_ hb (by decide)
  rw [toList_fileName]
  simp [Base36.slash_not_mem]

/-- The names that are left of a path once its detours are cut off, the last one first. -/
def steps (path : String) : List String := (names path).foldl descend []

/-- Such a name leads down and nowhere else. -/
theorem descend_plain (h : Plain name) (passed : List String) :
    descend passed name = name :: passed := by
  unfold descend
  split
  · exact absurd rfl h.nonempty
  · exact absurd rfl h.here
  · exact absurd rfl h.up
  · rfl

/-- Without a slash there is one name. -/
theorem namesFrom_of_not_mem {acc l : List Char} (h : '/' ∉ l) :
    namesFrom acc l = [String.ofList (acc.reverse ++ l)] := by
  induction l generalizing acc with
  | nil => rw [namesFrom, List.append_nil]
  | cons ch l ih =>
    rw [namesFrom_cons (fun heq => h (heq ▸ List.mem_cons_self)),
      ih fun hm => h (List.mem_cons_of_mem _ hm), List.reverse_cons, List.append_assoc]
    rfl

/-- Names on both sides of a slash are read apart. -/
theorem namesFrom_append_slash {acc l r : List Char} :
    namesFrom acc (l ++ '/' :: r) = namesFrom acc l ++ namesFrom [] r := by
  induction l generalizing acc with
  | nil =>
    rw [List.nil_append, namesFrom_slash, namesFrom]
    rfl
  | cons ch l ih =>
    by_cases hch : ch = '/'
    · subst hch
      rw [List.cons_append, namesFrom_slash, namesFrom_slash, ih]
      rfl
    · rw [List.cons_append, namesFrom_cons hch, namesFrom_cons hch, ih]

/-- Below a directory stands one more name. -/
theorem steps_join (h : Plain name) : steps (join dir name) = name :: steps dir := by
  have hname : namesFrom [] name.toList = [name] := by
    rw [namesFrom_of_not_mem h.slash, List.reverse_nil, List.nil_append, String.ofList_toList]
  have hlast : ∀ l, (l ++ [name]).foldl descend [] = name :: l.foldl descend [] := by
    intro l
    rw [List.foldl_append]
    exact descend_plain h _
  unfold steps names
  rw [toList_join]
  unfold base
  split
  · rename_i hor
    rcases Bool.or_eq_true_iff.1 hor with hempty | hends
    · rw [String.isEmpty_iff] at hempty
      rw [hempty, String.toList_empty, List.nil_append, hname]
      exact descend_plain h _
    · -- what follows the last slash is an empty name, which is no step
      rcases endsWith_slash.1 hends with ⟨l, hl⟩
      rw [← hl, List.append_assoc, List.singleton_append, namesFrom_append_slash, hname, hlast,
        namesFrom_append_slash, List.foldl_append]
      rfl
  · rw [List.append_assoc, List.singleton_append, namesFrom_append_slash, hname, hlast]

/-- Read as a list of characters. -/
theorem startsWith_slash : path.startsWith "/" = true ↔ ['/'] <+: path.toList :=
  String.startsWith_string_iff

/-- A name behind a directory does not change where the path begins. -/
theorem startsWith_join (h : Plain name) :
    (join dir name).startsWith "/" = dir.startsWith "/" := by
  have hname : ¬ ['/'] <+: name.toList := fun hp => h.slash (hp.subset List.mem_cons_self)
  rw [Bool.eq_iff_iff, startsWith_slash, startsWith_slash, toList_join]
  unfold base
  cases hdir : dir.toList with
  | nil =>
    rw [String.toList_eq_nil_iff] at hdir
    rw [if_pos (by rw [hdir]; rfl), List.nil_append]
    exact iff_of_false hname (by simp)
  | cons ch l =>
    split <;> simp

/-- All names that are passed have a character, and no slash. -/
theorem steps_named (path : String) : ∀ n ∈ steps path, n ≠ "" ∧ '/' ∉ n.toList := by
  -- empty names are passed over
  have hnonempty : ∀ l passed : List String, (∀ n ∈ passed, n ≠ "") →
      ∀ n ∈ l.foldl descend passed, n ≠ "" := by
    intro l
    induction l with
    | nil => exact fun _ h => h
    | cons name l ih =>
      refine fun passed h => ih _ fun n hn => ?_
      by_cases hname : name = ""
      · subst hname
        exact h n hn
      · rcases (descend_spec name passed).2 n hn with rfl | hmem
        · exact hname
        · exact h n hmem
  intro n hn
  refine ⟨hnonempty _ [] (fun m hm => absurd hm List.not_mem_nil) n hn, ?_⟩
  rcases (foldl_descend_spec _ _).2 n hn with hmem | hnil
  · exact slash_not_mem_namesFrom List.not_mem_nil hmem
  · cases hnil

/-- Joined names end in the last one. -/
theorem intercalate_append_singleton {l : List String} (h : l ≠ []) :
    "/".intercalate (l ++ [name]) = "/".intercalate l ++ "/" ++ name := by
  induction l with
  | nil => exact absurd rfl h
  | cons a l ih =>
    cases l with
    | nil =>
      show "/".intercalate [a, name] = _
      rw [String.intercalate_cons_cons, String.intercalate_singleton, String.intercalate_singleton]
    | cons b l =>
      show "/".intercalate (a :: b :: (l ++ [name])) = _
      rw [String.intercalate_cons_cons, String.intercalate_cons_cons]
      show a ++ "/" ++ "/".intercalate (b :: l ++ [name]) = _
      rw [ih (List.cons_ne_nil b l)]
      simp only [String.append_assoc]

/-- The first name stands behind the beginning. -/
theorem spell_singleton {absolute : Bool} :
    spell absolute [name] = spell absolute [] ++ name := by
  unfold spell
  rw [List.reverse_singleton, String.intercalate_singleton, List.reverse_nil,
    String.intercalate_nil, String.append_empty]

/-- Every further one stands behind a slash. -/
theorem spell_cons_cons {absolute : Bool} {top : String} :
    spell absolute (name :: top :: passed) = spell absolute (top :: passed) ++ "/" ++ name := by
  unfold spell
  rw [List.reverse_cons, intercalate_append_singleton (by simp)]
  simp only [String.append_assoc]

/-- A path that is spelled out ends in its last name. -/
theorem exists_spell_cons (absolute : Bool) (top : String) (passed : List String) :
    ∃ front, spell absolute (top :: passed) = front ++ top := by
  cases passed with
  | nil => exact ⟨_, spell_singleton⟩
  | cons _ _ => exact ⟨_, spell_cons_cons⟩

/-- Spelling one more name is going one step down. -/
theorem spell_cons {absolute : Bool} (h : ∀ n ∈ passed, n ≠ "" ∧ '/' ∉ n.toList) :
    spell absolute (name :: passed) = join (spell absolute passed) name := by
  cases passed with
  | nil =>
    rw [spell_singleton]
    unfold join
    rw [if_pos]
    cases absolute with
    | false => rfl
    | true => exact Bool.or_eq_true_iff.2 (.inr (endsWith_slash.2 ⟨[], rfl⟩))
  | cons top below =>
    -- the path ends in a name, so a slash comes before the next one
    rcases h top List.mem_cons_self with ⟨hne, hslash⟩
    rcases exists_spell_cons absolute top below with ⟨front, hfront⟩
    have hend : (spell absolute (top :: below)).toList = front.toList ++ top.toList := by
      rw [hfront, String.toList_append]
    have htop : top.toList ≠ [] := fun hnil => hne (String.toList_eq_nil_iff.1 hnil)
    apply String.toList_injective
    rw [toList_join, base_of_name hend htop hslash, spell_cons_cons, String.toList_append,
      String.toList_append]
    rfl

/-- A step down from a path is a step down from its shortest form. -/
theorem direct_join (h : Plain name) : direct (join dir name) = join (direct dir) name := by
  show spell _ (steps (join dir name)) = join (spell _ (steps dir)) name
  rw [steps_join h, startsWith_join h, spell_cons (steps_named dir)]

/-! ## The paths of a chunk -/

/-- The directory that chunks with the same `x` share. -/
def rowFor (root : String) (c : ChunkCoord) : String := join root (Base36.encode c.x)

/-- The directory of a row. -/
theorem toList_rowFor : (rowFor root c).toList = base root ++ chars c.x := by
  unfold rowFor
  rw [toList_join, toList_encode]

/-- The directory of a chunk lies in that of its row. -/
theorem dirFor_eq : dirFor root c = join (rowFor root c) (Base36.encode c.z) := by
  apply String.toList_injective
  rw [toList_dirFor, toList_join,
    base_of_name toList_rowFor Base36.chars_ne_nil Base36.slash_not_mem, toList_rowFor,
    toList_encode]
  simp

/-- The shortest form of a row is a row below the shortest form of the root. -/
theorem direct_rowFor : direct (rowFor root c) = rowFor (direct root) c :=
  direct_join (plain_encode c.x)

/-- In the same way for the directory of a chunk. -/
theorem direct_dirFor : direct (dirFor root c) = dirFor (direct root) c := by
  rw [dirFor_eq, dirFor_eq, direct_join (plain_encode c.z), direct_rowFor]

/-- The file of a chunk is spelled directly if its root is. -/
theorem direct_fileFor : direct (fileFor root c) = fileFor (direct root) c := by
  unfold fileFor
  rw [direct_join (plain_fileName c), direct_dirFor]

/-! ## On the way to a chunk -/

/-- A directory on the way is what stands before one of the slashes. -/
theorem mem_ancestorsFrom {acc l : List Char} :
    dir ∈ ancestorsFrom acc l ↔
      ∃ m r, l = m ++ '/' :: r ∧ dir = String.ofList (acc.reverse ++ m) := by
  induction l generalizing acc with
  | nil =>
    refine ⟨nofun, ?_⟩
    rintro ⟨m, r, hl, -⟩
    cases m <;> cases hl
  | cons ch l ih =>
    -- a later slash is one of the rest, with one more character passed
    have hlater : dir ∈ ancestorsFrom (ch :: acc) l ↔
        ∃ m r, l = m ++ '/' :: r ∧ dir = String.ofList (acc.reverse ++ ch :: m) := by
      rw [ih, List.reverse_cons]
      simp only [List.append_assoc, List.singleton_append]
    have hsplit : (∃ m r, ch :: l = m ++ '/' :: r ∧ dir = String.ofList (acc.reverse ++ m)) ↔
        ch = '/' ∧ dir = String.ofList acc.reverse ∨ dir ∈ ancestorsFrom (ch :: acc) l := by
      rw [hlater]
      constructor
      · rintro ⟨_ | ⟨ch', m⟩, r, hl, hdir⟩
        · rw [List.append_nil] at hdir
          exact .inl ⟨(List.cons.inj hl).1, hdir⟩
        · rcases List.cons.inj hl with ⟨rfl, hrest⟩
          exact .inr ⟨m, r, hrest, hdir⟩
      · rintro (⟨rfl, hdir⟩ | ⟨m, r, rfl, hdir⟩)
        · exact ⟨[], l, rfl, by rw [List.append_nil]; exact hdir⟩
        · exact ⟨ch :: m, r, rfl, hdir⟩
    rw [hsplit]
    by_cases hch : ch = '/'
    · subst hch
      rw [ancestorsFrom, List.mem_cons]
      simp only [true_and]
    · rw [ancestorsFrom]
      · exact ⟨.inr, fun h => h.resolve_left fun h => hch h.1⟩
      · exact hch

/-- A directory is on the way to a path if the path goes on with a slash behind it. -/
theorem mem_ancestors : dir ∈ ancestors path ↔ ∃ r, path.toList = dir.toList ++ '/' :: r := by
  unfold ancestors
  rw [mem_ancestorsFrom]
  constructor
  · rintro ⟨m, r, hpath, rfl⟩
    exact ⟨r, by rw [String.toList_ofList]; exact hpath⟩
  · rintro ⟨r, hpath⟩
    exact ⟨dir.toList, r, hpath, String.ofList_toList.symm⟩

/-- A slash comes right after the first name or later. -/
theorem first_slash {t r x rest : List Char} (hx : '/' ∉ x)
    (h : t ++ '/' :: r = x ++ '/' :: rest) :
    t = x ∨ ∃ s, t = x ++ '/' :: s ∧ s ++ '/' :: r = rest := by
  rcases List.append_eq_append_iff.1 h with ⟨m, hm, hrest⟩ | ⟨m, hm, hrest⟩
  · cases m with
    | nil => exact .inl (by rw [hm, List.append_nil])
    | cons ch m =>
      -- the slash would belong to the first name
      have hch : '/' = ch := (List.cons.inj hrest).1
      exact absurd (hm ▸ hch ▸ List.mem_append_right _ List.mem_cons_self) hx
  · cases m with
    | nil => exact .inl (by rw [hm, List.append_nil])
    | cons ch m =>
      have hch : '/' = ch := (List.cons.inj hrest).1
      exact .inr ⟨m, by rw [hm, ← hch], (List.cons.inj hrest).2.symm⟩

/-- The directories on the way down from the root are the root itself, the row of the chunk and
its directory. -/
theorem passes_fileFor (h : dir ∈ ancestors (fileFor root c)) (hroot : root.toList <+: dir.toList) :
    dir = root ∨ dir = rowFor root c ∨ dir = dirFor root c := by
  rcases mem_ancestors.1 h with ⟨r, hr⟩
  rcases hroot with ⟨t, ht⟩
  -- below the root the path has two names, the row and the chunk, before that of the file
  have hbelow : ∀ t : List Char, t ++ '/' :: r = chars c.x ++ '/' :: (chars c.z ++
      '/' :: (['b', 'c', '_'] ++ (chars c.x ++ '.' :: chars c.z))) →
      dir.toList = base root ++ t → dir = rowFor root c ∨ dir = dirFor root c := by
    intro t ht hdir
    rcases first_slash Base36.slash_not_mem ht with heq | ⟨t₁, heq, ht₁⟩
    · refine .inl (String.toList_injective ?_)
      rw [hdir, toList_rowFor, heq]
    · rcases first_slash Base36.slash_not_mem ht₁ with heq₁ | ⟨t₂, -, ht₂⟩
      · refine .inr (String.toList_injective ?_)
        rw [hdir, toList_dirFor, heq, heq₁]
      · -- there is no slash in the name of the file
        have hslash : '/' ∈ t₂ ++ '/' :: r := List.mem_append_right _ List.mem_cons_self
        rw [ht₂] at hslash
        simp [Base36.slash_not_mem] at hslash
  rw [toList_fileFor, ← ht] at hr
  unfold inDir at hr
  by_cases hbase : base root = root.toList
  · rw [hbase, List.append_assoc] at hr
    refine .inr (hbelow t (List.append_cancel_left hr).symm ?_)
    rw [hbase, ht]
  · have hslash : base root = root.toList ++ ['/'] := by
      unfold base at hbase ⊢
      split at hbase
      · exact absurd rfl hbase
      · rename_i hno
        exact if_neg hno
    rw [hslash, List.append_assoc, List.append_assoc] at hr
    have hr := List.append_cancel_left hr
    cases t with
    | nil =>
      refine .inl (String.toList_injective ?_)
      rw [← ht, List.append_nil]
    | cons ch t =>
      rw [List.singleton_append] at hr
      rcases List.cons.inj hr with ⟨hch, hr⟩
      refine .inr (hbelow t hr.symm ?_)
      rw [hslash, ← ht, ← hch, List.append_assoc]
      rfl

/-- A row lies right below the names of the root. -/
theorem depth_rowFor : depth (rowFor root c) = (base root).count '/' := by
  unfold depth
  rw [toList_rowFor, List.count_append, count_slash_of_not_mem Base36.slash_not_mem]
  omega

/-- The root itself does not lie further down. -/
theorem depth_le_base (root : String) : depth root ≤ (base root).count '/' := by
  unfold depth base
  split
  · exact Nat.le_refl _
  · rw [List.count_append]
    exact Nat.le_add_right _ _

/-- Numbers are written in one way, which can be read back and has no character that means
something in paths. So each chunk has a path of its own below any root, and stands nowhere on the
way from the root to another chunk, however the paths are spelled. -/
theorem chunk_paths_apart :
    (∀ v : Int, Base36.decode? (Base36.encode v) = some v ∧
      (v ≠ 0 → ¬ Base36.LeadsWithZero (Base36.encode v)) ∧
      ∀ ch ∈ (Base36.encode v).toList, ch ≠ '.' ∧ ch ≠ '/' ∧ ch ≠ '\\') ∧
    Function.Injective Base36.encode ∧
    ∀ root : String, Function.Injective (fun c => direct (fileFor root c)) ∧
      ∀ c c' dir, dir ∈ ancestors (fileFor root c') → root.toList <+: dir.toList →
        direct (fileFor root c) ≠ direct dir := by
  refine ⟨fun v => ⟨Base36.decode?_encode v, Base36.not_leadsWithZero, fun ch => Base36.mem_encode⟩,
    fun v w => Base36.encode_inj, fun root => ⟨fun c c' h => ?_, fun c c' dir hdir hroot heq => ?_⟩⟩
  · simp only [direct_fileFor] at h
    exact fileFor_inj h
  · -- the file lies deeper than all of the directories
    have hdepth := congrArg depth heq
    rw [direct_fileFor, depth_fileFor] at hdepth
    rcases passes_fileFor hdir hroot with rfl | rfl | rfl
    · have := depth_le_base (direct dir)
      omega
    · rw [direct_rowFor, depth_rowFor] at hdepth
      omega
    · rw [direct_dirFor, depth_dirFor] at hdepth
      omega

/-- The directory of a chunk is on the way to its file, and it is no file of another chunk. The
lowest number is written like all others. -/
theorem chunk_paths_apart_lowest :
    Base36.decode? (Base36.encode (-2147483648)) = some (-2147483648) ∧
      ¬ Base36.LeadsWithZero (Base36.encode (-2147483648)) ∧
      dirFor "saves" ⟨-37, 100⟩ ∈ ancestors (fileFor "saves" ⟨-37, 100⟩) ∧
      direct (fileFor "saves" ⟨-2147483648, 0⟩) ≠ direct (dirFor "saves" ⟨-37, 100⟩) := by
  have hway : dirFor "saves" ⟨-37, 100⟩ ∈ ancestors (fileFor "saves" ⟨-37, 100⟩) := by
    refine mem_ancestors.2 ⟨['b', 'c', '_'] ++ (chars (-37) ++ '.' :: chars 100), ?_⟩
    rw [toList_fileFor, toList_dirFor]
    unfold inDir
    simp only [List.append_assoc, List.cons_append]
  rcases chunk_paths_apart with ⟨hnumber, -, hpath⟩
  refine ⟨(hnumber _).1, (hnumber _).2.1 (by decide), hway, ?_⟩
  refine (hpath "saves").2 _ _ _ hway ?_
  have hbase : base "saves" = "saves".toList ++ ['/'] :=
    base_of_name (l := []) rfl (by decide) (by decide)
  rw [toList_dirFor, hbase, List.append_assoc]
  exact List.prefix_append _ _

end Path

end VoxelWorld
