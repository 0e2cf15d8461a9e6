import Mathlib.Data.List.Basic
import Zkvm.Proofs.Workspace.Writing

/-!
# Where paths lead

A path is split at its slashes.  A name without slashes joined to the path of a directory leads to
the place of that name in the directory, and a path with an ending leads to a place whose last name
has the ending.  Once a directory was made with all that were missing on the way, its path leads to
a directory.
-/
set_option autoImplicit false

namespace Zkvm

namespace Text

theorem splitChars_ne_nil (separator : Char) (text : List Char) :
    splitChars separator text ≠ [] := by
  cases text with
  | nil => simp [splitChars]
  | cons c rest =>
      rw [splitChars]
      split
      · simp
      · split <;> simp

theorem splitChars_cons_of_ne {separator c : Char} (differ : c ≠ separator) {rest first : List Char}
    {more : List (List Char)} (pieces : splitChars separator rest = first :: more) :
    splitChars separator (c :: rest) = (c :: first) :: more := by
  simp only [splitChars, if_neg differ, pieces]

theorem splitChars_append_separator (separator : Char) (front back : List Char) :
    splitChars separator (front ++ separator :: back) =
      splitChars separator front ++ splitChars separator back := by
  induction front with
  | nil => simp [splitChars]
  | cons c rest ih =>
      by_cases same : c = separator
      · simp only [List.cons_append, splitChars, if_pos same, ih]
      · obtain ⟨first, more, pieces⟩ :=
          List.exists_cons_of_ne_nil (splitChars_ne_nil separator rest)
        rw [pieces, List.cons_append] at ih
        rw [List.cons_append, splitChars_cons_of_ne same ih, splitChars_cons_of_ne same pieces,
          List.cons_append]

theorem splitChars_of_not_mem {separator : Char} {text : List Char} (free : separator ∉ text) :
    splitChars separator text = [text] := by
  induction text with
  | nil => rfl
  | cons c rest ih =>
      rw [List.mem_cons, not_or] at free
      exact splitChars_cons_of_ne (Ne.symm free.1) (ih free.2)

theorem not_mem_of_mem_splitChars {separator : Char} {text piece : List Char}
    (member : piece ∈ splitChars separator text) : separator ∉ piece := by
  induction text generalizing piece with
  | nil =>
      cases List.mem_singleton.mp member
      exact List.not_mem_nil
  | cons c rest ih =>
      by_cases same : c = separator
      · rw [splitChars, if_pos same] at member
        rcases List.mem_cons.mp member with rfl | later
        · exact List.not_mem_nil
        · exact ih later
      · obtain ⟨first, more, pieces⟩ :=
          List.exists_cons_of_ne_nil (splitChars_ne_nil separator rest)
        rw [splitChars_cons_of_ne same pieces] at member
        rw [pieces] at ih
        rcases List.mem_cons.mp member with rfl | later
        · rw [List.mem_cons, not_or]
          exact ⟨Ne.symm same, ih (List.mem_cons_self ..)⟩
        · exact ih (List.mem_cons_of_mem _ later)

/-- What has no separator in it is added to the last piece. -/
theorem splitChars_append_of_not_mem {separator : Char} {ending : List Char}
    (free : separator ∉ ending) (text : List Char) :
    ∃ front last, splitChars separator text = front ++ [last] ∧
      splitChars separator (text ++ ending) = front ++ [last ++ ending] := by
  induction text with
  | nil => exact ⟨[], [], rfl, splitChars_of_not_mem free⟩
  | cons c rest ih =>
      obtain ⟨front, last, pieces, longer⟩ := ih
      by_cases same : c = separator
      · refine ⟨[] :: front, last, ?_, ?_⟩
        · rw [splitChars, if_pos same, pieces, List.cons_append]
        · rw [List.cons_append, splitChars, if_pos same, longer, List.cons_append]
      · cases front with
        | nil =>
            rw [List.nil_append] at pieces longer
            exact ⟨[], c :: last, splitChars_cons_of_ne same pieces,
              splitChars_cons_of_ne same longer⟩
        | cons first more =>
            rw [List.cons_append] at pieces longer
            exact ⟨(c :: first) :: more, last, splitChars_cons_of_ne same pieces,
              splitChars_cons_of_ne same longer⟩

theorem splitChars_intercalate {separator : Char} {pieces : List (List Char)}
    (nonempty : pieces ≠ []) (free : ∀ piece ∈ pieces, separator ∉ piece) :
    splitChars separator ([separator].intercalate pieces) = pieces := by
  induction pieces with
  | nil => exact absurd rfl nonempty
  | cons first rest ih =>
      rw [List.forall_mem_cons] at free
      cases rest with
      | nil =>
          rw [List.intercalate_singleton]
          exact splitChars_of_not_mem free.1
      | cons next more =>
          rw [List.intercalate_cons_cons, List.append_assoc, List.singleton_append,
            splitChars_append_separator, splitChars_of_not_mem free.1, ih (by simp) free.2,
            List.singleton_append]

end Text

namespace Path

/-- A name that stands for itself in a path: no slash in it, and neither empty nor one of the two
names for directories on the way. -/
structure Plain (name : String) : Prop where
  slash : '/' ∉ name.toList
  nonempty : name ≠ ""
  here : name ≠ "."
  up : name ≠ ".."

instance (name : String) : Decidable (Plain name) :=
  decidable_of_iff ('/' ∉ name.toList ∧ name ≠ "" ∧ name ≠ "." ∧ name ≠ "..")
    ⟨fun ⟨slash, nonempty, here, up⟩ => ⟨slash, nonempty, here, up⟩,
      fun plain => ⟨plain.slash, plain.nonempty, plain.here, plain.up⟩⟩

theorem isAbsolute_iff {path : String} : isAbsolute path = true ↔ path.toList.head? = some '/' := by
  unfold isAbsolute Text.hasPrefix
  rw [show ("/" : String).toList = ['/'] from rfl]
  cases path.toList with
  | nil => simp
  | cons c rest =>
      simp only [List.isPrefixOf, Bool.and_true, beq_iff_eq, List.head?_cons, Option.some.injEq]
      exact eq_comm

theorem isAbsolute_append {path : String} (named : path ≠ "") (ending : String) :
    isAbsolute (path ++ ending) = isAbsolute path := by
  have heads : (path ++ ending).toList.head? = path.toList.head? := by
    rw [String.toList_append]
    cases letters : path.toList with
    | nil => exact absurd (String.toList_eq_nil_iff.mp letters) named
    | cons c rest => rfl
  rw [Bool.eq_iff_iff, isAbsolute_iff, isAbsolute_iff, heads]

theorem not_isAbsolute_of_slash {name : String} (slash : '/' ∉ name.toList) :
    isAbsolute name = false := by
  rw [Bool.eq_false_iff, Ne, isAbsolute_iff]
  intro head
  exact slash (List.mem_of_mem_head? head)

theorem parts_eq {path : String} {pieces : List (List Char)}
    (split : Text.splitChars '/' path.toList = pieces) :
    parts path = (pieces.map String.ofList).filter fun part => part ≠ "" && part ≠ "." := by
  rw [parts, Text.split, split]

theorem plain_of_mem_parts {path name : String} (member : name ∈ parts path) :
    '/' ∉ name.toList ∧ name ≠ "" ∧ name ≠ "." := by
  rw [parts, List.mem_filter, Text.split, List.mem_map] at member
  obtain ⟨⟨piece, inText, rfl⟩, kept⟩ := member
  rw [Bool.and_eq_true, decide_eq_true_eq, decide_eq_true_eq] at kept
  rw [String.toList_ofList]
  exact ⟨Text.not_mem_of_mem_splitChars inText, kept⟩

/-- A slash and a plain name after a path. -/
theorem parts_append_plain {path name : String} (plain : Plain name) :
    parts (path ++ "/" ++ name) = parts path ++ [name] := by
  have split : Text.splitChars '/' (path ++ "/" ++ name).toList =
      Text.splitChars '/' path.toList ++ [name.toList] := by
    rw [String.append_assoc, String.toList_append, String.toList_append]
    exact (Text.splitChars_append_separator '/' path.toList name.toList).trans
      (by rw [Text.splitChars_of_not_mem plain.slash])
  rw [parts_eq split, parts_eq rfl, List.map_append, List.filter_append]
  simp [String.ofList_toList, plain.nonempty, plain.here]

theorem parts_append_slash (path : String) : parts (path ++ "/") = parts path := by
  have split :
      Text.splitChars '/' (path ++ "/").toList = Text.splitChars '/' path.toList ++ [[]] := by
    rw [String.toList_append]
    exact Text.splitChars_append_separator '/' path.toList []
  rw [parts_eq split, parts_eq rfl, List.map_append, List.filter_append]
  simp

theorem parts_slash_append (path : String) : parts ("/" ++ path) = parts path := by
  have split :
      Text.splitChars '/' ("/" ++ path).toList = [] :: Text.splitChars '/' path.toList := by
    rw [String.toList_append]
    exact Text.splitChars_append_separator '/' [] path.toList
  rw [parts_eq split, parts_eq rfl, List.map_cons]
  simp

section Spelling
variable {names : List String} (plain : ∀ name ∈ names, '/' ∉ name.toList ∧ name ≠ "" ∧ name ≠ ".")
include plain

theorem splitChars_names (nonempty : names ≠ []) :
    Text.splitChars '/' ("/".intercalate names).toList = names.map String.toList := by
  rw [String.toList_intercalate]
  apply Text.splitChars_intercalate
  · exact fun empty => nonempty (List.map_eq_nil_iff.mp empty)
  · exact List.forall_mem_map.mpr fun name member => (plain name member).1

theorem parts_intercalate (nonempty : names ≠ []) : parts ("/".intercalate names) = names := by
  rw [parts_eq (splitChars_names plain nonempty), List.map_map, List.filter_eq_self.mpr]
  · simp [Function.comp_def, String.ofList_toList]
  · rw [List.forall_mem_map]
    intro name member
    simp [String.ofList_toList, (plain name member).2]

theorem not_isAbsolute_intercalate : isAbsolute ("/".intercalate names) = false := by
  rw [Bool.eq_false_iff, Ne, isAbsolute_iff, String.toList_intercalate]
  cases names with
  | nil => simp
  | cons first rest =>
      have start := plain first (List.mem_cons_self ..)
      obtain ⟨c, letters, spelled⟩ :=
        List.exists_cons_of_ne_nil (mt String.toList_eq_nil_iff.mp start.2.1)
      have slash : c ≠ '/' := by
        rintro rfl
        exact start.1 (spelled ▸ List.mem_cons_self ..)
      cases rest with
      | nil => simp [spelled, slash]
      | cons next more => simp [List.intercalate_cons_cons, spelled, slash]

end Spelling

/-! ### Clean paths -/

theorem parts_clean (path : String) : parts (clean path) = parts path := by
  have plain (name : String) (member : name ∈ parts path) := plain_of_mem_parts member
  by_cases empty : parts path = []
  · cases absolute : isAbsolute path with
    | true =>
        simp only [clean, empty, absolute, if_true]
        decide
    | false =>
        simp only [clean, empty, absolute]
        decide
  · have again := parts_intercalate plain empty
    have filled : "/".intercalate (parts path) ≠ "" := by
      intro none'
      rw [none'] at again
      exact empty (again.symm.trans (by decide))
    unfold clean
    split
    · exact (parts_slash_append _).trans again
    · rw [if_neg filled]
      exact again

theorem isAbsolute_clean (path : String) : isAbsolute (clean path) = isAbsolute path := by
  unfold clean
  cases isAbsolute path with
  | true => exact isAbsolute_append (by decide) _
  | false =>
      simp only [Bool.false_eq_true, if_false]
      split
      · decide
      · exact not_isAbsolute_intercalate fun _ member => plain_of_mem_parts member

theorem clean_clean (path : String) : clean (clean path) = clean path := by
  rw [clean, parts_clean, isAbsolute_clean, ← clean.eq_def]

theorem clean_ne_empty (path : String) : clean path ≠ "" := by
  unfold clean
  split
  · intro empty
    exact absurd (congrArg String.toList empty) (by simp)
  · dsimp only
    split
    · decide
    · assumption

theorem clean_under (directory name : String) :
    clean (under directory name) = under directory name := by
  unfold under
  split <;> exact clean_clean _

theorem under_ne_empty (directory name : String) : under directory name ≠ "" := by
  unfold under
  split <;> exact clean_ne_empty _

section Under
variable {directory name : String} (plain : Plain name) (named : directory ≠ "")
include plain

theorem under_eq : under directory name = clean (directory ++ "/" ++ name) := by
  rw [under, not_isAbsolute_of_slash plain.slash, if_neg Bool.false_ne_true]

theorem parts_under : parts (under directory name) = parts directory ++ [name] := by
  rw [under_eq plain, parts_clean, parts_append_plain plain]

include named in
theorem isAbsolute_under : isAbsolute (under directory name) = isAbsolute directory := by
  rw [under_eq plain, isAbsolute_clean, String.append_assoc, isAbsolute_append named]

theorem name_under : Path.name (under directory name) = name := by
  rw [Path.name, parts_under plain]
  simp

end Under

theorem names_under (directory : String) {name : String} (plain : Plain name) :
    ∀ part ∈ parts directory ++ [name], '/' ∉ part.toList ∧ part ≠ "" ∧ part ≠ "." :=
  List.forall_mem_append.mpr ⟨fun _ => plain_of_mem_parts,
    List.forall_mem_singleton.mpr ⟨plain.slash, plain.nonempty, plain.here⟩⟩

section Relative
variable {directory name : String} (plain : Plain name) (named : directory ≠ "")
  (relative : isAbsolute directory = false)
include plain named relative

theorem under_eq_intercalate :
    under directory name = "/".intercalate (parts directory ++ [name]) := by
  have listed : parts (directory ++ "/" ++ name) = parts directory ++ [name] :=
    parts_append_plain plain
  have path : isAbsolute (directory ++ "/" ++ name) = false := by
    rw [String.append_assoc, isAbsolute_append named, relative]
  have filled : "/".intercalate (parts directory ++ [name]) ≠ "" := by
    intro empty
    have again := parts_intercalate (names_under directory plain) (by simp)
    rw [empty] at again
    exact absurd again.symm (by simp [show parts "" = [] by decide])
  rw [under_eq plain, clean, listed, path, if_neg Bool.false_ne_true, if_neg filled]

/-- What stands under a directory keeps its name. -/
theorem lastPart_under : lastPart (under directory name) = name := by
  rw [under_eq_intercalate plain named relative, lastPart, Text.split,
    splitChars_names (names_under directory plain) (by simp)]
  simp [String.ofList_toList]

end Relative

theorem exists_of_hasSuffix_slash {path : String} (ends : Text.hasSuffix "/" path = true) :
    ∃ front : String, path = front ++ "/" := by
  obtain ⟨front, rest⟩ := List.isSuffixOf_iff_suffix.mp ends
  refine ⟨String.ofList front, String.toList_inj.mp ?_⟩
  rw [String.toList_append, String.toList_ofList, rest]

theorem parts_join {directory name : String} (named : directory ≠ "") (plain : Plain name) :
    parts (join directory name) = parts directory ++ [name] := by
  rw [join, not_isAbsolute_of_slash plain.slash]
  cases ends : Text.hasSuffix "/" directory with
  | true =>
      obtain ⟨front, rfl⟩ := exists_of_hasSuffix_slash ends
      simp only [Bool.false_eq_true, if_false, named, false_or, if_true]
      rw [parts_append_plain plain, parts_append_slash]
  | false =>
      simp only [Bool.false_eq_true, if_false, named, or_self]
      exact parts_append_plain plain

theorem name_join {directory name : String} (named : directory ≠ "") (plain : Plain name) :
    Path.name (join directory name) = name := by
  rw [Path.name, parts_join named plain]
  simp

theorem isAbsolute_join {directory name : String} (named : directory ≠ "") (plain : Plain name) :
    isAbsolute (join directory name) = isAbsolute directory := by
  rw [join, not_isAbsolute_of_slash plain.slash]
  simp only [Bool.false_eq_true, if_false, named, false_or]
  split
  · exact isAbsolute_append named name
  · rw [String.append_assoc]
    exact isAbsolute_append named ("/" ++ name)

theorem join_ne_empty {directory name : String} (nonempty : name ≠ "") :
    join directory name ≠ "" := by
  have longer (front : String) : front ++ name ≠ "" := by
    intro empty
    have letters := congrArg String.toList empty
    rw [String.toList_append, String.toList_empty, List.append_eq_nil_iff] at letters
    exact nonempty (String.toList_eq_nil_iff.mp letters.2)
  unfold join
  split
  · exact nonempty
  · split
    · exact longer directory
    · exact longer (directory ++ "/")

/-- An ending without slashes stays at the end of a joined path. -/
theorem join_append {ending : String} (free : '/' ∉ ending.toList) (directory name : String) :
    join directory (name ++ ending) = join directory name ++ ending := by
  have absolute : isAbsolute (name ++ ending) = isAbsolute name := by
    by_cases named : name = ""
    · subst named
      rw [String.empty_append, not_isAbsolute_of_slash free]
      rfl
    · exact isAbsolute_append named ending
  unfold join
  rw [absolute]
  split
  · rfl
  · split
    · rw [String.append_assoc]
    · simp only [String.append_assoc]

/-- The last part of a path with a long enough ending. -/
theorem parts_append_ending {ending : String} (free : '/' ∉ ending.toList)
    (long : 2 < ending.length) (path : String) :
    ∃ front, parts (path ++ ending) = front ++ [lastPart path ++ ending] := by
  obtain ⟨front, last, pieces, longer⟩ := Text.splitChars_append_of_not_mem free path.toList
  have lastEq : lastPart path = String.ofList last := by
    rw [lastPart, Text.split, pieces, List.map_append]
    simp
  rw [← String.toList_append] at longer
  refine ⟨(front.map String.ofList).filter fun part => part ≠ "" && part ≠ ".", ?_⟩
  have kept (short : String) (bound : short.length ≤ 2) : String.ofList last ++ ending ≠ short := by
    rintro rfl
    rw [String.length_append] at bound
    omega
  rw [parts_eq longer, List.map_append, List.filter_append, lastEq]
  simp [String.ofList_append, String.ofList_toList, kept "" (by decide), kept "." (by decide)]

end Path

namespace Tree

/-- From a place on the way to a directory, one more name leads into the directory. -/
theorem follow_append {tree : Tree} {here base : Location} {names : List String} {name : String}
    (found : tree.follow here names = .ok base) (directory : tree.isDirectory base = true)
    (up : name ≠ "..") :
    tree.follow here (names ++ [name]) = .ok (base ++ [name]) := by
  induction names generalizing here with
  | nil =>
      cases found
      simp [follow, up]
  | cons first rest ih =>
      cases rest with
      | nil =>
          simp only [follow, List.isEmpty_nil, if_true] at found
          cases found
          simp [follow, isDirectory_iff.mp directory, up]
      | cons next more =>
          rw [follow] at found
          simp only [List.isEmpty_cons, Bool.false_eq_true, if_false] at found
          rw [List.cons_append, follow]
          simp only [List.cons_append, List.isEmpty_cons, Bool.false_eq_true, if_false]
          split at found
          · exact ih found
          · cases found
          · cases found

/-- Names that do not lead up are added to the place from which they are followed. -/
theorem eq_append_of_follow {tree : Tree} {here location : Location} {names : List String}
    (down : ".." ∉ names) (found : tree.follow here names = .ok location) :
    location = here ++ names := by
  induction names generalizing here with
  | nil => exact (Except.ok.inj found).symm.trans (List.append_nil here).symm
  | cons name rest ih =>
      rw [List.mem_cons, not_or] at down
      rw [follow, if_neg (Ne.symm down.1)] at found
      split at found
      next last =>
        cases found
        rw [List.isEmpty_iff.mp last]
      next =>
        split at found
        · rw [ih down.2 found, List.append_assoc, List.singleton_append]
        · cases found
        · cases found

/-- A path that ends in a name leads to a place of that name. -/
theorem last_of_follow {tree : Tree} {here location : Location} {names : List String}
    {name : String} (up : name ≠ "..") (found : tree.follow here (names ++ [name]) = .ok location) :
    location.getLast? = some name := by
  induction names generalizing here with
  | nil =>
      simp only [List.nil_append, follow, List.isEmpty_nil, if_true, if_neg up] at found
      cases found
      simp
  | cons first rest ih =>
      have more : (rest ++ [name]).isEmpty = false := by simp
      rw [List.cons_append, follow] at found
      simp only [more, Bool.false_eq_true, if_false] at found
      split at found
      · exact ih found
      · cases found
      · cases found

theorem resolve_join {tree : Tree} {here base : Location} {directory name : String}
    (named : directory ≠ "") (plain : Path.Plain name)
    (found : tree.resolve here directory = .ok base) (isDirectory : tree.isDirectory base = true) :
    tree.resolve here (Path.join directory name) = .ok (base ++ [name]) := by
  unfold resolve at found ⊢
  rw [Path.parts_join named plain, Path.isAbsolute_join named plain]
  exact follow_append found isDirectory plain.up

theorem last_of_resolve {tree : Tree} {here location : Location} {path ending : String}
    (free : '/' ∉ ending.toList) (long : 2 < ending.length)
    (found : tree.resolve here (path ++ ending) = .ok location) :
    location.getLast? = some (Path.lastPart path ++ ending) := by
  obtain ⟨front, parts⟩ := Path.parts_append_ending free long path
  unfold resolve at found
  rw [parts] at found
  refine last_of_follow ?_ found
  intro same
  have length := congrArg String.length same
  rw [String.length_append, show (".." : String).length = 2 from rfl] at length
  omega

end Tree

/-! ## Directories that were made -/

namespace Workspace

/-- The path is a directory's, and it leads to this location. -/
structure Opens (w : Workspace) (path : String) (base : Location) : Prop where
  named : path ≠ ""
  found : w.tree.resolve w.directory path = .ok base
  held : w.tree.isDirectory base = true

/-- A file can be written into a directory unless a directory has its name. -/
theorem Opens.places {w : Workspace} {directory name : String} {base : Location}
    (opens : w.Opens directory base) (plain : Path.Plain name)
    (fits : Action.refusal? (Path.join directory name) name = none)
    (clear : w.tree.isDirectory (base ++ [name]) = false) :
    w.Places (Path.join directory name) (base ++ [name]) where
  named := Path.join_ne_empty plain.nonempty
  fits := by
    rw [Path.name_join opens.named plain]
    exact fits
  found := Tree.resolve_join opens.named plain opens.found opens.held
  free := clear
  held := by
    rw [List.dropLast_concat]
    exact opens.held

end Workspace

namespace Action

theorem after_of_allow {path : String} {w after : Workspace}
    (run : (allow path).runIn w = (.ok (), after)) :
    after = w := by
  cases refused : refusal? path (Path.name path) with
  | some trouble =>
      rw [runIn_allow_of_some refused] at run
      cases run
  | none =>
      rw [runIn_allow_of_none refused] at run
      cases run
      rfl

/-- A directory that was made is where its path leads. -/
theorem resolve_of_makeDirectory {path : String} {w after : Workspace}
    (made : (makeDirectory path).runIn w = (.ok (), after)) :
    ∃ base, after.tree.resolve after.directory path = .ok base ∧
      after.tree.isDirectory base = true := by
  rcases runIn_locate path w with ⟨location, _, found, located⟩ | ⟨_, trouble, located⟩
  · simp only [makeDirectory, runIn_bind, located, runIn_get] at made
    cases there : w.tree.lookup location with
    | none =>
        simp only [there] at made
        obtain ⟨_, between, allowed, made⟩ := exists_of_runIn_bind made
        cases after_of_allow allowed
        cases made
        have inner : location ≠ [] := by
          rintro rfl
          cases there
        have grown (other : Location) (isDirectory : w.tree.isDirectory other = true) :
            (w.tree.set location .directory).isDirectory other = true := by
          rw [Tree.isDirectory_iff] at isDirectory ⊢
          by_cases same : location = other
          · rw [← same, Tree.lookup_set_same w.tree inner]
          · rw [Tree.lookup_set_of_ne w.tree same, isDirectory]
        exact ⟨location, Tree.follow_of_directories grown found,
          Tree.isDirectory_iff.mpr (Tree.lookup_set_same w.tree inner _)⟩
    | some node =>
        simp only [there] at made
        cases node with
        | directory =>
            cases made
            exact ⟨location, found, Tree.isDirectory_iff.mpr there⟩
        | file text => cases made
  · simp only [makeDirectory, runIn_bind, located] at made
    cases made

theorem makeDirectory_of_makeEach {front : List String} {path : String} {w after : Workspace}
    (made : (makeEach (front ++ [path])).runIn w = (.ok (), after)) :
    ∃ before, (makeDirectory path).runIn before = (.ok (), after) := by
  induction front generalizing w with
  | nil => exact ⟨w, made⟩
  | cons first rest ih =>
      obtain ⟨next, more, shape⟩ := List.exists_cons_of_ne_nil (by simp : rest ++ [path] ≠ [])
      rw [List.cons_append, shape] at made
      obtain ⟨there, between, _, run⟩ := exists_of_runIn_bind made
      rw [← shape] at run
      cases there with
      | true => exact ih run
      | false =>
          obtain ⟨_, later, _, run⟩ := exists_of_runIn_bind run
          exact ih run

/-- The last of the paths on the way to a directory is its own in another spelling. -/
theorem ancestors_eq {path : String} (nonempty : Path.parts path ≠ []) :
    ∃ front last, ancestors path = front ++ [last] ∧ Path.parts last = Path.parts path ∧
      Path.isAbsolute last = Path.isAbsolute path := by
  have plain (name : String) (member : name ∈ Path.parts path) := Path.plain_of_mem_parts member
  obtain ⟨count, length⟩ := Nat.exists_eq_succ_of_ne_zero (mt List.length_eq_zero_iff.mp nonempty)
  refine ⟨(List.range count).map fun i => (if Path.isAbsolute path then "/" else "") ++
      "/".intercalate ((Path.parts path).take (i + 1)),
    (if Path.isAbsolute path then "/" else "") ++ "/".intercalate (Path.parts path), ?_, ?_⟩
  · have whole : (Path.parts path).take (count + 1) = Path.parts path :=
      List.take_of_length_le (Nat.le_of_eq length)
    simp only [ancestors]
    rw [length, List.range_succ, List.map_append, List.map_singleton, whole]
  · cases Path.isAbsolute path with
    | true =>
        refine ⟨(Path.parts_slash_append _).trans (Path.parts_intercalate plain nonempty), ?_⟩
        exact Path.isAbsolute_append (by decide) _
    | false =>
        simp only [Bool.false_eq_true, if_false, String.empty_append]
        exact ⟨Path.parts_intercalate plain nonempty, Path.not_isAbsolute_intercalate plain⟩

/-- Once a directory was made with all on the way to it, its path leads to a directory. -/
theorem opens_of_makeDirectories {path : String} {w after : Workspace}
    (standing : w.tree.isDirectory w.directory = true)
    (made : (makeDirectories path).runIn w = (.ok (), after)) : ∃ base, after.Opens path base := by
  by_cases named : path = ""
  · subst named
    cases made
  · simp only [makeDirectories, if_neg named] at made
    by_cases nonempty : Path.parts path = []
    · have none' : ancestors path = [] := by simp [ancestors, nonempty]
      rw [none'] at made
      cases made
      refine ⟨if Path.isAbsolute path then [] else w.directory, named, ?_, ?_⟩
      · unfold Tree.resolve
        rw [nonempty]
        rfl
      · split
        · exact w.tree.isDirectory_root
        · exact standing
    · obtain ⟨front, last, shape, parts, absolute⟩ := ancestors_eq nonempty
      rw [shape] at made
      obtain ⟨before, makes⟩ := makeDirectory_of_makeEach made
      obtain ⟨base, found, isDirectory⟩ := resolve_of_makeDirectory makes
      refine ⟨base, named, ?_, isDirectory⟩
      unfold Tree.resolve at found ⊢
      rw [← parts, ← absolute]
      exact found

end Action

end Zkvm
