import Mathlib.Data.List.Basic
import Mathlib.Data.String.Basic
import VoxelWorld.Checked
import VoxelWorld.Save.Path

/-!
# Proofs.Save.Path — chunks have paths of their own

* A coordinate is written in one way only (`Base36.encode_inj`), and without slashes.
* `Path.toList_dirFor`, `Path.toList_fileFor` and `Path.toList_temporaryFor` spell the three
  paths of a chunk out. Two chunks share neither of the last two (`Path.inDir_inj`).
* Directories on the way to a path have fewer slashes than the path, also in their shortest form
  (`Path.depth_direct_lt`). So no file of a chunk is a directory that another one needs.
* Below a short root all three paths can be asked for (`Path.isNameable_fileFor`).
-/

namespace VoxelWorld

/-! ## Numbers -/

namespace Base36

variable {n m : Nat} {v w : Int} {ch : Char}

/-- Digits differ from each other. -/
theorem digit_inj : ∀ a < 36, ∀ b < 36, digit a = digit b → a = b := by decide

/-- Digits are neither signs nor separators, and take one byte each. -/
theorem digit_plain : ∀ a < 36, digit a ≠ '/' ∧ digit a ≠ '-' ∧ digit a ≠ '\x00' ∧
    (digit a).utf8Size = 1 := by decide

theorem digitsReversed_zero : digitsReversed 0 = [] := by
  rw [digitsReversed, dif_pos rfl]

theorem digitsReversed_pos (h : n ≠ 0) :
    digitsReversed n = digit (n % 36) :: digitsReversed (n / 36) := by
  rw [digitsReversed, dif_neg h]

/-- The digits tell the number. -/
theorem digitsReversed_inj (h : digitsReversed n = digitsReversed m) : n = m := by
  induction n using Nat.strongRecOn generalizing m with
  | _ n ih =>
    by_cases hn : n = 0
    · by_contra hm
      rw [hn, digitsReversed_zero, digitsReversed_pos (Ne.symm (hn ▸ hm))] at h
      cases h
    · by_cases hm : m = 0
      · rw [hm, digitsReversed_zero, digitsReversed_pos hn] at h
        cases h
      · -- the last digits agree, and so do the numbers without them
        rw [digitsReversed_pos hn, digitsReversed_pos hm, List.cons.injEq] at h
        have hlast := digit_inj _ (Nat.mod_lt n (by omega)) _ (Nat.mod_lt m (by omega)) h.1
        have hfront := ih (n / 36) (by omega) h.2
        omega

/-- There is nothing but digits. -/
theorem mem_digitsReversed (h : ch ∈ digitsReversed n) : ∃ a < 36, ch = digit a := by
  induction n using Nat.strongRecOn with
  | _ n ih =>
    by_cases hn : n = 0
    · rw [hn, digitsReversed_zero] at h
      cases h
    · rw [digitsReversed_pos hn] at h
      rcases List.mem_cons.1 h with rfl | h
      · exact ⟨n % 36, Nat.mod_lt n (by omega), rfl⟩
      · exact ih (n / 36) (by omega) h

/-- A number below a power of the base has no more digits than that. -/
theorem length_digitsReversed {k : Nat} (h : n < 36 ^ k) : (digitsReversed n).length ≤ k := by
  induction k generalizing n with
  | zero =>
    have hn : n = 0 := by omega
    rw [hn, digitsReversed_zero]
    exact Nat.zero_le 0
  | succ k ih =>
    by_cases hn : n = 0
    · rw [hn, digitsReversed_zero]
      exact Nat.zero_le _
    · rw [digitsReversed_pos hn, List.length_cons]
      have := ih (n := n / 36) (by omega)
      omega

/-- The way a size is written tells the size; zero has a digit too. -/
theorem magnitude_inj (h : magnitude n = magnitude m) : n = m := by
  -- only zero is written with the digit zero alone
  have hzero : ∀ {k}, k ≠ 0 → (digitsReversed k).reverse ≠ ['0'] := by
    intro k hk heq
    have heq : digitsReversed k = digitsReversed 0 ++ ['0'] := by
      rw [digitsReversed_zero, ← List.reverse_reverse (digitsReversed k), heq]
      rfl
    rw [digitsReversed_pos hk, digitsReversed_zero, List.nil_append, List.cons.injEq] at heq
    have hlast := digit_inj _ (Nat.mod_lt k (by omega)) 0 (by omega) heq.1
    have hfront : k / 36 = 0 := digitsReversed_inj (heq.2.trans digitsReversed_zero.symm)
    omega
  unfold magnitude at h
  by_cases hn : n = 0
  · by_cases hm : m = 0
    · rw [hn, hm]
    · rw [if_pos hn, if_neg hm] at h
      exact absurd h.symm (hzero hm)
  · by_cases hm : m = 0
    · rw [if_neg hn, if_pos hm] at h
      exact absurd h (hzero hn)
    · rw [if_neg hn, if_neg hm] at h
      exact digitsReversed_inj (List.reverse_injective h)

/-- A number is written with digits only. -/
theorem mem_magnitude (h : ch ∈ magnitude n) : ∃ a < 36, ch = digit a := by
  unfold magnitude at h
  split at h
  · exact ⟨0, by omega, List.mem_singleton.1 h⟩
  · exact mem_digitsReversed (List.mem_reverse.1 h)

/-- A size is written with one digit at least. -/
theorem magnitude_ne_nil : magnitude n ≠ [] := by
  unfold magnitude
  split
  · exact List.cons_ne_nil _ _
  · rename_i hn
    rw [digitsReversed_pos hn]
    simp

/-- The sign is no part of the size. -/
theorem minus_not_mem : '-' ∉ magnitude n := by
  intro h
  rcases mem_magnitude h with ⟨a, ha, heq⟩
  exact (digit_plain a ha).2.1 heq.symm

/-- With its sign the number is told as well. -/
theorem chars_inj (h : chars v = chars w) : v = w := by
  have hminus : ∀ {k l}, '-' :: magnitude k ≠ magnitude l := by
    intro k l heq
    exact minus_not_mem (heq ▸ List.mem_cons_self)
  unfold chars at h
  -- a sign tells the numbers below zero from the others
  split at h
  · split at h
    · have := magnitude_inj (List.cons.inj h).2
      omega
    · exact absurd h hminus
  · split at h
    · exact absurd h.symm hminus
    · have := magnitude_inj h
      omega

/-- Two numbers are never written in the same way. -/
theorem encode_inj (h : encode v = encode w) : v = w := chars_inj (String.ofList_injective h)

/-- The written form has digits and a sign only. -/
theorem mem_chars (h : ch ∈ chars v) : ch ≠ '/' ∧ ch ≠ '\x00' ∧ ch.utf8Size = 1 := by
  have hdigit : ∀ {k}, ch ∈ magnitude k → ch ≠ '/' ∧ ch ≠ '\x00' ∧ ch.utf8Size = 1 := by
    intro k hk
    rcases mem_magnitude hk with ⟨a, ha, rfl⟩
    exact ⟨(digit_plain a ha).1, (digit_plain a ha).2.2⟩
  unfold chars at h
  split at h
  · rcases List.mem_cons.1 h with rfl | h
    · decide
    · exact hdigit h
  · exact hdigit h

/-- A number is part of one name. -/
theorem slash_not_mem : '/' ∉ chars v := fun h => (mem_chars h).1 rfl

/-- A number is no empty name. -/
theorem chars_ne_nil : chars v ≠ [] := by
  unfold chars
  split
  · exact List.cons_ne_nil _ _
  · exact magnitude_ne_nil

/-- A number does not end a path. -/
theorem null_not_mem : '\x00' ∉ chars v := fun h => (mem_chars h).2.1 rfl

/-- A coordinate has at most six digits. -/
theorem length_chars (h : FitsCoord v) : (chars v).length ≤ 7 := by
  rcases h with ⟨hlo, hhi⟩
  have hmag : (magnitude v.natAbs).length ≤ 6 := by
    unfold magnitude
    split
    · decide
    · rw [List.length_reverse]
      apply length_digitsReversed
      omega
  unfold chars
  split
  · rw [List.length_cons]
    omega
  · omega

/-- A coordinate takes a sign and six digits at most. -/
theorem utf8Len_chars (h : FitsCoord v) : String.utf8Len (chars v) ≤ 7 := by
  -- all of its characters are of one byte
  have hbytes : ∀ l : List Char, (∀ ch ∈ l, ch.utf8Size = 1) → String.utf8Len l = l.length := by
    intro l hl
    induction l with
    | nil => rfl
    | cons ch l ih =>
      rw [String.utf8Len_cons, ih fun c hc => hl c (List.mem_cons_of_mem _ hc),
        hl ch List.mem_cons_self, List.length_cons]
  rw [hbytes _ fun ch hch => (mem_chars hch).2.2]
  exact length_chars h

end Base36

open Base36 (chars)

namespace Path

variable {root dir name path : String} {c c' : ChunkCoord}

/-! ## Spelling the paths out -/

/-- Read as a list of characters. -/
theorem endsWith_slash : dir.endsWith "/" = true ↔ ['/'] <:+ dir.toList := by
  rw [String.endsWith_eq_endsWith_toSlice, String.Slice.endsWith_string_iff, String.copy_toSlice]
  exact Iff.rfl

/-- What stands in front of the names below a directory. -/
def base (dir : String) : List Char :=
  if dir.isEmpty || dir.endsWith "/" then dir.toList else dir.toList ++ ['/']

/-- Joining puts what stands in front of names before the name. -/
theorem toList_join : (join dir name).toList = base dir ++ name.toList := by
  unfold join base
  split <;> simp

/-- A path that ends in a name gets a slash. -/
theorem base_of_name {l m : List Char} (h : dir.toList = l ++ m) (hm : m ≠ []) (hslash : '/' ∉ m) :
    base dir = dir.toList ++ ['/'] := by
  unfold base
  rw [if_neg]
  intro hor
  rcases Bool.or_eq_true_iff.1 hor with hempty | hends
  · rw [String.isEmpty_iff] at hempty
    rw [hempty] at h
    exact hm (List.append_eq_nil_iff.1 h.symm).2
  · rcases endsWith_slash.1 hends with ⟨t, ht⟩
    rw [h] at ht
    -- the last character belongs to the name
    rcases List.eq_nil_or_concat m with hnil | ⟨m', ch, hconcat⟩
    · exact hm hnil
    · rw [hconcat, List.concat_eq_append, ← List.append_assoc] at ht
      have hch := (List.append_inj' ht rfl).2
      apply hslash
      rw [hconcat, List.concat_eq_append]
      exact List.mem_append_right _ (hch ▸ List.mem_cons_self)

/-- The path of a name in the directory of a chunk. -/
def inDir (root : String) (c : ChunkCoord) (name : List Char) : List Char :=
  base root ++ (chars c.x ++ '/' :: (chars c.z ++ '/' :: name))

theorem toList_encode (v : Int) : (Base36.encode v).toList = chars v := String.toList_ofList

/-- The directory of a chunk below the root: a name for each of its numbers. -/
theorem toList_chunkDir : (chunkDir c).toList = chars c.x ++ '/' :: chars c.z := by
  unfold chunkDir
  have hx : (Base36.encode c.x).toList = [] ++ chars c.x := toList_encode c.x
  rw [toList_join, base_of_name hx Base36.chars_ne_nil Base36.slash_not_mem, toList_encode,
    toList_encode, List.append_assoc]
  rfl

/-- The directory of a chunk. -/
theorem toList_dirFor :
    (dirFor root c).toList = base root ++ (chars c.x ++ '/' :: chars c.z) := by
  unfold dirFor
  rw [toList_join, toList_chunkDir]

/-- What lies in the directory of a chunk. -/
theorem toList_join_dirFor :
    (join (dirFor root c) name).toList = inDir root c name.toList := by
  have hdir : (dirFor root c).toList = (base root ++ (chars c.x ++ ['/'])) ++ chars c.z := by
    rw [toList_dirFor]
    simp
  rw [toList_join, base_of_name hdir Base36.chars_ne_nil Base36.slash_not_mem, toList_dirFor]
  unfold inDir
  simp

/-- The file of a chunk is named by its two numbers, with a dot in between. -/
theorem toList_fileFor : (fileFor root c).toList =
    inDir root c (['b', 'c', '_'] ++ (chars c.x ++ '.' :: chars c.z)) := by
  unfold fileFor fileName fileStem
  rw [toList_join_dirFor]
  simp [toList_encode]

/-- The temporary file has a word in the place of the second number. -/
theorem toList_temporaryFor : (temporaryFor root c).toList =
    inDir root c (['b', 'c', '_'] ++ (chars c.x ++ ['.', 't', 'm', 'p'])) := by
  unfold temporaryFor fileStem
  rw [toList_join_dirFor]
  simp [toList_encode]

/-- Two paths agree in their first name and in the rest. -/
theorem first_name_inj {l l' r r' : List Char} (hl : '/' ∉ l) (hl' : '/' ∉ l')
    (h : l ++ '/' :: r = l' ++ '/' :: r') : l = l' ∧ r = r' := by
  induction l generalizing l' with
  | nil =>
    cases l' with
    | nil => exact ⟨rfl, (List.cons.inj h).2⟩
    | cons ch l' => exact absurd ((List.cons.inj h).1 ▸ List.mem_cons_self) hl'
  | cons ch l ih =>
    cases l' with
    | nil => exact absurd ((List.cons.inj h).1 ▸ List.mem_cons_self) hl
    | cons ch' l' =>
      rcases List.cons.inj h with ⟨rfl, htail⟩
      rcases ih (fun hm => hl (List.mem_cons_of_mem _ hm))
        (fun hm => hl' (List.mem_cons_of_mem _ hm)) htail with ⟨rfl, hr⟩
      exact ⟨rfl, hr⟩

/-- The directory names the chunk. -/
theorem inDir_inj {n n' : List Char} (h : inDir root c n = inDir root c' n') : c = c' := by
  unfold inDir at h
  have hrest := List.append_cancel_left h
  rcases first_name_inj Base36.slash_not_mem Base36.slash_not_mem hrest with ⟨hx, hrest⟩
  rcases first_name_inj Base36.slash_not_mem Base36.slash_not_mem hrest with ⟨hz, -⟩
  have hcx : c.x = c'.x := Base36.chars_inj hx
  have hcz : c.z = c'.z := Base36.chars_inj hz
  cases c
  cases c'
  rw [ChunkCoord.mk.injEq]
  exact ⟨hcx, hcz⟩

/-- A chunk is kept in a file of its own. -/
theorem fileFor_inj (h : fileFor root c = fileFor root c') : c = c' := by
  have hlist := congrArg String.toList h
  rw [toList_fileFor, toList_fileFor] at hlist
  exact inDir_inj hlist

/-- No chunk is written to the file of another one, not even for a while. -/
theorem eq_of_fileFor_eq_temporaryFor (h : fileFor root c = temporaryFor root c') : c = c' := by
  have hlist := congrArg String.toList h
  rw [toList_fileFor, toList_temporaryFor] at hlist
  exact inDir_inj hlist

/-! ## Counting slashes -/

/-- The slashes of a path. -/
def depth (path : String) : Nat := path.toList.count '/'

theorem count_slash_of_not_mem {l : List Char} (h : '/' ∉ l) : l.count '/' = 0 :=
  List.count_eq_zero.2 h

/-- The directory of a chunk lies one below the names of the root. -/
theorem depth_dirFor : depth (dirFor root c) = (base root).count '/' + 1 := by
  unfold depth
  rw [toList_dirFor, List.count_append, List.count_append, List.count_cons_self,
    count_slash_of_not_mem Base36.slash_not_mem, count_slash_of_not_mem Base36.slash_not_mem]

/-- What lies in it lies two below. -/
theorem count_inDir {n : List Char} (hn : '/' ∉ n) :
    (inDir root c n).count '/' = (base root).count '/' + 2 := by
  unfold inDir
  rw [List.count_append, List.count_append, List.count_cons_self, List.count_append,
    List.count_cons_self, count_slash_of_not_mem Base36.slash_not_mem,
    count_slash_of_not_mem Base36.slash_not_mem, count_slash_of_not_mem hn]

/-- The file of a chunk lies two slashes below the root. -/
theorem depth_fileFor : depth (fileFor root c) = (base root).count '/' + 2 := by
  unfold depth
  rw [toList_fileFor, count_inDir]
  simp [Base36.slash_not_mem]

/-- The temporary file lies as deep as the file of the chunk. -/
theorem depth_temporaryFor : depth (temporaryFor root c) = (base root).count '/' + 2 := by
  unfold depth
  rw [toList_temporaryFor, count_inDir]
  simp [Base36.slash_not_mem]

/-- Each directory on the way ends before a slash. -/
theorem depth_ancestorsFrom {acc l : List Char} (h : dir ∈ ancestorsFrom acc l) :
    depth dir < acc.count '/' + l.count '/' := by
  induction l generalizing acc with
  | nil => cases h
  | cons ch l ih =>
    -- each slash ends one directory, and starts the next name
    by_cases hch : ch = '/'
    · subst hch
      rw [ancestorsFrom] at h
      rw [List.count_cons_self]
      rcases List.mem_cons.1 h with rfl | h
      · unfold depth
        rw [String.toList_ofList, List.count_reverse]
        omega
      · have := ih h
        rw [List.count_cons_self] at this
        omega
    · rw [ancestorsFrom] at h
      · have := ih h
        rw [List.count_cons_of_ne hch] at this ⊢
        exact this
      · exact hch

/-- A directory on the way lies above the path. -/
theorem depth_lt_of_ancestor (h : dir ∈ ancestors path) : depth dir < depth path := by
  have := depth_ancestorsFrom h
  rwa [List.count_nil, Nat.zero_add] at this

/-! ## The shortest form -/

/-- A slash ends a name. -/
theorem namesFrom_slash {acc l : List Char} :
    namesFrom acc ('/' :: l) = String.ofList acc.reverse :: namesFrom [] l := by
  rw [namesFrom]

/-- Any other character belongs to it. -/
theorem namesFrom_cons {acc l : List Char} {ch : Char} (h : ch ≠ '/') :
    namesFrom acc (ch :: l) = namesFrom (ch :: acc) l := by
  rw [namesFrom]
  exact h

/-- There is one name more than there are slashes. -/
theorem length_namesFrom {acc l : List Char} :
    (namesFrom acc l).length = l.count '/' + 1 := by
  induction l generalizing acc with
  | nil => rfl
  | cons ch l ih =>
    by_cases hch : ch = '/'
    · subst hch
      rw [namesFrom_slash, List.length_cons, ih, List.count_cons_self]
    · rw [namesFrom_cons hch, ih, List.count_cons_of_ne hch]

/-- Names have no slash. -/
theorem slash_not_mem_namesFrom {acc l : List Char} (hacc : '/' ∉ acc)
    (h : name ∈ namesFrom acc l) : '/' ∉ name.toList := by
  induction l generalizing acc with
  | nil =>
    rw [namesFrom, List.mem_singleton] at h
    rw [h, String.toList_ofList]
    exact fun hm => hacc (List.mem_reverse.1 hm)
  | cons ch l ih =>
    -- a slash ends the name that was being read
    by_cases hch : ch = '/'
    · subst hch
      rw [namesFrom_slash] at h
      rcases List.mem_cons.1 h with rfl | h
      · rw [String.toList_ofList]
        exact fun hm => hacc (List.mem_reverse.1 hm)
      · exact ih List.not_mem_nil h
    · rw [namesFrom_cons hch] at h
      refine ih (fun hm => ?_) h
      rcases List.mem_cons.1 hm with heq | hm
      · exact hch heq.symm
      · exact hacc hm

/-- A step down passes at most one more name, and no other. -/
theorem descend_spec (name : String) (passed : List String) :
    (descend passed name).length ≤ passed.length + 1 ∧
      ∀ n ∈ descend passed name, n = name ∨ n ∈ passed := by
  unfold descend
  split
  · exact ⟨Nat.le_succ _, fun n hn => .inr hn⟩
  · exact ⟨Nat.le_succ _, fun n hn => .inr hn⟩
  · rename_i top below
    split
    · exact ⟨Nat.le_refl _, fun n hn => List.mem_cons.1 hn⟩
    · refine ⟨?_, fun n hn => .inr (List.mem_cons_of_mem _ hn)⟩
      rw [List.length_cons]
      omega
  · exact ⟨Nat.le_refl _, fun n hn => List.mem_cons.1 hn⟩

/-- Going down by names leads through these names only, and not further down than there are names.
-/
theorem foldl_descend_spec (l passed : List String) :
    (l.foldl descend passed).length ≤ passed.length + l.length ∧
      ∀ n ∈ l.foldl descend passed, n ∈ l ∨ n ∈ passed := by
  induction l generalizing passed with
  | nil => exact ⟨Nat.le_refl _, fun n hn => .inr hn⟩
  | cons name l ih =>
    rcases descend_spec name passed with ⟨hlen, hmem⟩
    rcases ih (descend passed name) with ⟨hlen', hmem'⟩
    rw [List.foldl_cons, List.length_cons]
    refine ⟨by omega, fun n hn => ?_⟩
    rcases hmem' n hn with hl | hp
    · exact .inl (List.mem_cons_of_mem _ hl)
    · rcases hmem n hp with rfl | hp
      · exact .inl List.mem_cons_self
      · exact .inr hp

/-- Slashes add up. -/
theorem depth_append {s t : String} : depth (s ++ t) = depth s + depth t := by
  unfold depth
  rw [String.toList_append, List.count_append]

/-- Joined names have a slash between each two. -/
theorem depth_intercalate {l : List String} (h : ∀ n ∈ l, '/' ∉ n.toList) :
    depth ("/".intercalate l) = l.length - 1 := by
  induction l with
  | nil => rfl
  | cons name l ih =>
    have hname : depth name = 0 := count_slash_of_not_mem (h name List.mem_cons_self)
    cases l with
    | nil =>
      rw [String.intercalate_singleton]
      exact hname
    | cons name' l =>
      rw [String.intercalate_cons_cons, depth_append, depth_append, hname,
        ih fun n hn => h n (List.mem_cons_of_mem _ hn)]
      show 0 + 1 + _ = _
      simp only [List.length_cons]
      omega

/-- The shortest form has no more slashes. -/
theorem depth_direct_le : depth (direct path) ≤ depth path := by
  -- what is left of the names has no slashes of its own, and no more names than before
  have hplain : ∀ n ∈ ((names path).foldl descend []).reverse, '/' ∉ n.toList := by
    intro n hn
    rcases (foldl_descend_spec _ _).2 n (List.mem_reverse.1 hn) with hmem | hnil
    · exact slash_not_mem_namesFrom List.not_mem_nil hmem
    · cases hnil
  unfold direct spell
  rw [depth_append, depth_intercalate hplain, List.length_reverse]
  have hlen : ((names path).foldl descend []).length ≤ depth path + 1 := by
    have := (foldl_descend_spec (names path) []).1
    unfold names at this ⊢
    rw [length_namesFrom, List.length_nil, Nat.zero_add] at this
    exact this
  by_cases habs : path.startsWith "/" = true
  · -- the empty name in front of the first slash is not passed
    rw [if_pos habs]
    rcases String.startsWith_string_iff.1 habs with ⟨l, hl⟩
    have hlist : path.toList = '/' :: l := hl.symm
    have hnames : names path = "" :: namesFrom [] l := by
      unfold names
      rw [hlist, namesFrom_slash]
      rfl
    have hdepth : depth path = l.count '/' + 1 := by
      unfold depth
      rw [hlist, List.count_cons_self]
    have hpassed : ((names path).foldl descend []).length ≤ l.count '/' + 1 := by
      have := (foldl_descend_spec (namesFrom [] l) []).1
      rw [length_namesFrom, List.length_nil, Nat.zero_add] at this
      rw [hnames]
      exact this
    have hslash : depth "/" = 1 := rfl
    omega
  · rw [if_neg habs]
    have hempty : depth "" = 0 := rfl
    omega

/-- Also the shortest form of a directory on the way lies above the path. -/
theorem depth_direct_lt (h : dir ∈ ancestors path) : depth (direct dir) < depth path :=
  Nat.lt_of_le_of_lt depth_direct_le (depth_lt_of_ancestor h)

/-! ## Paths that a file system takes -/

/-- No name in a path is longer than the path. -/
theorem size_namesFrom_le {acc l : List Char} (h : name ∈ namesFrom acc l) :
    name.utf8ByteSize ≤ String.utf8Len acc + String.utf8Len l := by
  induction l generalizing acc with
  | nil =>
    rw [namesFrom, List.mem_singleton] at h
    rw [h, String.utf8ByteSize_ofList, String.utf8Len_reverse]
    exact Nat.le_add_right _ _
  | cons ch l ih =>
    rw [String.utf8Len_cons]
    -- the name that a slash ends is what was gathered before
    by_cases hch : ch = '/'
    · subst hch
      rw [namesFrom_slash] at h
      rcases List.mem_cons.1 h with rfl | h
      · rw [String.utf8ByteSize_ofList, String.utf8Len_reverse]
        exact Nat.le_add_right _ _
      · have := ih h
        rw [String.utf8Len_nil] at this
        omega
    · rw [namesFrom_cons hch] at h
      have := ih h
      rw [String.utf8Len_cons] at this
      omega

/-- A short path can be asked for. -/
theorem isNameable_of_short (hnull : '\x00' ∉ path.toList)
    (hlen : String.utf8Len path.toList ≤ 255) : isNameable path = true := by
  have hsize : path.utf8ByteSize < 4096 := by
    rw [← String.utf8Len_toList]
    omega
  have hnames : (names path).all (·.utf8ByteSize ≤ 255) = true := by
    rw [List.all_eq_true]
    intro n hn
    have := size_namesFrom_le hn
    rw [String.utf8Len_nil] at this
    exact decide_eq_true (by omega)
  unfold isNameable
  rw [hnames, String.contains_char_eq, decide_eq_false hnull, decide_eq_true hsize]
  rfl

/-- What stands in front of names is the directory and a slash at most. -/
theorem utf8Len_base_le : String.utf8Len (base root) ≤ root.utf8ByteSize + 1 := by
  unfold base
  split
  · rw [String.utf8Len_toList]
    exact Nat.le_succ _
  · rw [String.utf8Len_append, String.utf8Len_toList]
    exact Nat.le_refl _

/-- It has no character that ends a path, if the directory has none. -/
theorem null_not_mem_base (h : '\x00' ∉ root.toList) : '\x00' ∉ base root := by
  unfold base
  split
  · exact h
  · intro hm
    rcases List.mem_append.1 hm with hm | hm
    · exact h hm
    · cases List.mem_singleton.1 hm

section Short

variable (hnull : '\x00' ∉ root.toList) (hroot : root.utf8ByteSize ≤ 200) (hx : FitsCoord c.x)
  (hz : FitsCoord c.z)

include hnull hroot hx hz

/-- The directory of a chunk has a path that a file system takes. -/
theorem isNameable_dirFor : isNameable (dirFor root c) = true := by
  have hbase : String.utf8Len (base root) ≤ root.utf8ByteSize + 1 := utf8Len_base_le
  have hlx := Base36.utf8Len_chars hx
  have hlz := Base36.utf8Len_chars hz
  have hslash : '/'.utf8Size = 1 := rfl
  apply isNameable_of_short
  · simp [toList_dirFor, null_not_mem_base hnull, Base36.null_not_mem]
  · rw [toList_dirFor]
    simp only [String.utf8Len_append, String.utf8Len_cons]
    omega

/-- A path of the directory with a short name at its end can be asked for. -/
theorem isNameable_inDir {name : List Char} (hpath : path.toList = inDir root c name)
    (hname : '\x00' ∉ name) (hlen : String.utf8Len name ≤ 37) : isNameable path = true := by
  have hbase : String.utf8Len (base root) ≤ root.utf8ByteSize + 1 := utf8Len_base_le
  have hlx := Base36.utf8Len_chars hx
  have hlz := Base36.utf8Len_chars hz
  have hslash : '/'.utf8Size = 1 := rfl
  apply isNameable_of_short
  · simp [hpath, inDir, null_not_mem_base hnull, Base36.null_not_mem, hname]
  · rw [hpath]
    unfold inDir
    simp only [String.utf8Len_append, String.utf8Len_cons]
    omega

/-- The file of a chunk has a path that a file system takes. -/
theorem isNameable_fileFor : isNameable (fileFor root c) = true := by
  have hlx := Base36.utf8Len_chars hx
  have hlz := Base36.utf8Len_chars hz
  have hdot : '.'.utf8Size = 1 := rfl
  have hstem : String.utf8Len ['b', 'c', '_'] = 3 := rfl
  refine isNameable_inDir hnull hroot hx hz toList_fileFor ?_ ?_
  · simp [Base36.null_not_mem]
  · rw [String.utf8Len_append, String.utf8Len_append, String.utf8Len_cons '.']
    omega

/-- The temporary file of a chunk has a path that a file system takes. -/
theorem isNameable_temporaryFor : isNameable (temporaryFor root c) = true := by
  have hlx := Base36.utf8Len_chars hx
  have hstem : String.utf8Len ['b', 'c', '_'] = 3 := rfl
  have hend : String.utf8Len ['.', 't', 'm', 'p'] = 4 := rfl
  refine isNameable_inDir hnull hroot hx hz toList_temporaryFor ?_ ?_
  · simp [Base36.null_not_mem]
  · rw [String.utf8Len_append, String.utf8Len_append]
    omega

end Short

end Path

end VoxelWorld
