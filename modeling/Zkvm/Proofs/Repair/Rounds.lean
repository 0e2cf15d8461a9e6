import Mathlib.Data.List.Nodup
import Zkvm.Proofs.Text.Digits
import Zkvm.Proofs.Workspace.Replay
import Zkvm.Repair.Round

/-!
# Rounds of repairs

A round writes to files that are there, in the directories of its operations, and what it writes to
a file depends on the name of the file alone.  So every step of a round can be replayed, a second
run of a round changes nothing, and the two rounds, which are about different operations, can be run
in either order.
-/
set_option autoImplicit false

namespace Zkvm

/-- No directory has a name with this ending. -/
def Tree.Reserves (tree : Tree) (ending : String) : Prop :=
  ∀ location name, tree.isDirectory (location ++ [name]) = true → Text.hasSuffix ending name = false

/-- Only the directories of a tree need be looked at. -/
theorem Tree.reserves_iff {tree : Tree} {ending : String} :
    tree.Reserves ending ↔ ∀ location ∈ tree.places, tree.isDirectory location = true →
      ∀ name ∈ location.getLast?, Text.hasSuffix ending name = false := by
  constructor
  · intro reserves location _ isDirectory name last
    obtain ⟨parent, rfl⟩ := List.getLast?_eq_some_iff.mp last
    exact reserves parent name isDirectory
  · intro reserves location name isDirectory
    have found := Tree.isDirectory_iff.mp isDirectory
    have there := (Tree.isSome_lookup.mp (Option.isSome_of_eq_some found)).resolve_left (by simp)
    exact reserves _ there isDirectory name (by simp)

instance (tree : Tree) (ending : String) : Decidable (tree.Reserves ending) :=
  decidable_of_iff' _ Tree.reserves_iff

namespace Repair

open Zkvm.Action (Performs Quiet performs_pure performs_exists performs_listFiles performs_solve
  performs_say performs_sayAll performs_writeFile performs_mapM performs_forM quiet_pure
  quiet_say quiet_sayAll quiet_mapM quiet_filterM)

/-! ## Files in the directory of an operation -/

def folderAt (w : Workspace) (folder : String) : Location :=
  w.directory ++ ["build", "zkvm_100_percent", folder]

/-- A constraint file in the directory of one of some operations. -/
def Covered (w : Workspace) (folders : List String) (location : Location) : Prop :=
  ∃ folder ∈ folders, ∃ file, Text.hasSuffix ".tau" file = true ∧
    location = folderAt w folder ++ [file]

section Files
variable {w : Workspace} {folder file : String}

theorem parts_folder (plain : Path.Plain folder) :
    Path.parts (Path.under Component.buildDirectory folder) =
      ["build", "zkvm_100_percent", folder] := by
  rw [Path.parts_under plain, show Path.parts Component.buildDirectory =
    ["build", "zkvm_100_percent"] by decide]
  rfl

theorem not_isAbsolute_folder (plain : Path.Plain folder) :
    Path.isAbsolute (Path.under Component.buildDirectory folder) = false := by
  rw [Path.isAbsolute_under plain (by decide)]
  decide

theorem eq_folderAt {location : Location} (plain : Path.Plain folder)
    (found : w.tree.resolve w.directory (Path.under Component.buildDirectory folder) =
      .ok location) :
    location = folderAt w folder := by
  rw [Tree.resolve, not_isAbsolute_folder plain, if_neg Bool.false_ne_true,
    parts_folder plain] at found
  exact Tree.eq_append_of_follow (by simpa using Ne.symm plain.up) found

variable (plain : Path.Plain folder) (plainFile : Path.Plain file)
include plain plainFile

theorem resolve_file :
    w.tree.resolve w.directory (Path.under (Path.under Component.buildDirectory folder) file) =
      w.tree.follow w.directory (["build", "zkvm_100_percent", folder] ++ [file]) := by
  rw [Tree.resolve, Path.isAbsolute_under plainFile (Path.under_ne_empty _ _),
    not_isAbsolute_folder plain, if_neg Bool.false_ne_true, Path.parts_under plainFile,
    parts_folder plain]

theorem eq_of_resolve_file {location : Location}
    (found : w.tree.resolve w.directory
      (Path.under (Path.under Component.buildDirectory folder) file) = .ok location) :
    location = folderAt w folder ++ [file] := by
  rw [resolve_file plain plainFile] at found
  have down : ".." ∉ ["build", "zkvm_100_percent", folder] ++ [file] := by
    simpa using ⟨Ne.symm plain.up, Ne.symm plainFile.up⟩
  rw [Tree.eq_append_of_follow down found, folderAt, List.append_assoc]

/-- A path of two names that are not too long, in the directory of all files, is not too long
either. -/
theorem fits_file (fits : Action.refusal? folder folder = none)
    (fitsFile : Action.refusal? file file = none) :
    Action.refusal? (Path.under (Path.under Component.buildDirectory folder) file)
      (Path.name (Path.under (Path.under Component.buildDirectory folder) file)) = none := by
  have spelled : Path.under (Path.under Component.buildDirectory folder) file =
      "build/zkvm_100_percent/" ++ folder ++ "/" ++ file := by
    rw [Path.under_eq_intercalate plainFile (Path.under_ne_empty _ _) (not_isAbsolute_folder plain),
      parts_folder plain]
    refine String.toList_inj.mp ?_
    simp
  rw [Path.name_under plainFile, spelled, Action.refusal?_eq_none_iff]
  obtain ⟨null, short, _⟩ := Action.refusal?_eq_none_iff.mp fits
  obtain ⟨nullFile, shortFile, _⟩ := Action.refusal?_eq_none_iff.mp fitsFile
  refine ⟨?_, shortFile, ?_⟩
  · rw [Path.hasNull, List.contains_eq_mem, decide_eq_false_iff_not] at null nullFile ⊢
    simp only [String.toList_append, List.mem_append, not_or]
    exact ⟨⟨⟨by decide, null⟩, by decide⟩, nullFile⟩
  · simp only [Path.mostNameBytes] at short shortFile
    have front : ("build/zkvm_100_percent/" : String).utf8ByteSize = 23 := by decide
    have slash : ("/" : String).utf8ByteSize = 1 := by decide
    simp only [String.utf8ByteSize_append, front, slash, Path.mostBytes]
    omega

variable (sound : w.tree.Sound) (reserved : w.tree.Reserves ".tau")
  (ends : Text.hasSuffix ".tau" file = true)
include sound

theorem fits_of_mem (there : folderAt w folder ++ [file] ∈ w.tree.places) :
    Action.refusal? (Path.under (Path.under Component.buildDirectory folder) file)
      (Path.name (Path.under (Path.under Component.buildDirectory folder) file)) = none :=
  fits_file plain plainFile (sound.fits _ there folder (by simp [folderAt]))
    (sound.fits _ there file (by simp))

include reserved ends

omit plain plainFile in
/-- What has the ending of constraint files and is there is a file in a directory. -/
theorem isFile_of_mem (there : folderAt w folder ++ [file] ∈ w.tree.places) :
    w.IsFile (folderAt w folder ++ [file]) ∧ w.tree.isDirectory (folderAt w folder) = true := by
  refine ⟨⟨there, ?_⟩, ?_⟩
  · rw [Bool.eq_false_iff]
    intro isDirectory
    rw [reserved _ _ isDirectory] at ends
    cases ends
  · have held := sound.held _ there
    rwa [List.dropLast_concat] at held

/-- A constraint file whose path leads to something can be written. -/
theorem places_of_occupied
    (there : w.occupied (Path.under (Path.under Component.buildDirectory folder) file) = true) :
    w.Places (Path.under (Path.under Component.buildDirectory folder) file)
      (folderAt w folder ++ [file]) ∧
      w.IsFile (folderAt w folder ++ [file]) := by
  cases found :
    w.tree.resolve w.directory (Path.under (Path.under Component.buildDirectory folder) file) with
  | error detour =>
      rw [Workspace.occupied, found] at there
      cases there
  | ok location =>
      rw [Workspace.occupied, found] at there
      obtain rfl := eq_of_resolve_file plain plainFile found
      have placed := (Tree.isSome_lookup.mp there).resolve_left (by simp)
      obtain ⟨file, held⟩ := isFile_of_mem sound reserved ends placed
      have fits := fits_of_mem plain plainFile sound placed
      exact ⟨⟨Path.under_ne_empty _ _, fits, found, file.free, by rwa [List.dropLast_concat]⟩, file⟩

end Files

/-- What is listed with the ending of constraint files are files that can be written. -/
theorem exists_of_mem_listed {w : Workspace} {folder path : String} (plain : Path.Plain folder)
    (sound : w.tree.Sound) (reserved : w.tree.Reserves ".tau")
    (member : path ∈ w.listed (Path.under Component.buildDirectory folder) ".tau") :
    ∃ file, path = Path.under (Path.under Component.buildDirectory folder) file ∧ Path.Plain file ∧
      Text.hasSuffix ".tau" file = true ∧ w.Places path (folderAt w folder ++ [file]) ∧
      w.IsFile (folderAt w folder ++ [file]) := by
  cases found : w.tree.resolve w.directory (Path.under Component.buildDirectory folder) with
  | error detour =>
      rw [Workspace.listed, found] at member
      cases member
  | ok location =>
      rw [Workspace.listed, found] at member
      obtain rfl := eq_folderAt plain found
      obtain ⟨file, child, rfl⟩ := List.mem_map.mp member
      obtain ⟨child, ends⟩ := List.mem_filter.mp child
      have there := Tree.mem_children.mp child
      have plainFile := sound.plain _ there file (by simp)
      obtain ⟨isFile, held⟩ := isFile_of_mem sound reserved ends there
      have fits := fits_of_mem plain plainFile sound there
      refine ⟨file, rfl, plainFile, ends,
        ⟨Path.under_ne_empty _ _, fits, ?_, isFile.free, ?_⟩, isFile⟩
      · rw [Tree.resolve, not_isAbsolute_folder plain, if_neg Bool.false_ne_true,
          parts_folder plain] at found
        rw [resolve_file plain plainFile]
        exact Tree.follow_append found held plainFile.up
      · rwa [List.dropLast_concat]

/-! ## Stems -/

theorem parts_of_plain {name : String} (plain : Path.Plain name) : Path.parts name = [name] := by
  rw [Path.parts_eq (Text.splitChars_of_not_mem plain.slash)]
  simp [String.ofList_toList, plain.nonempty, plain.here]

/-- A file is its stem with the ending, unless it is the ending alone. -/
theorem stem_append {file : String} (plain : Path.Plain file)
    (ends : Text.hasSuffix ".tau" file = true) (more : file ≠ ".tau") :
    Path.stem file ++ ".tau" = file := by
  obtain ⟨front, spelled⟩ := List.isSuffixOf_iff_suffix.mp ends
  have filled : front ≠ [] := by
    rintro rfl
    exact more (String.toList_inj.mp spelled.symm)
  have named : Path.name file = file := by rw [Path.name, parts_of_plain plain]; rfl
  have back : file.toList.reverse = 'u' :: 'a' :: 't' :: '.' :: front.reverse := by
    rw [← spelled]
    simp
  have stem : Path.stem file = String.ofList front := by
    simp only [Path.stem, named, back]
    simp [filled]
  rw [stem, ← String.toList_inj, String.toList_append, String.toList_ofList, spelled]

/-! ## Repairing files -/

def renewal (w : Workspace) (folder : String) (component : Component) : Location × String :=
  (folderAt w folder ++ [component.name ++ ".tau"], component.text)

/-- The path to the file of a component leads to something. -/
def hasFile (w : Workspace) (folder : String) (component : Component) : Bool :=
  w.occupied (Path.under (Path.under Component.buildDirectory folder) (component.name ++ ".tau"))

def foundIn (w : Workspace) (folder : String) (components : List Component) : List Component :=
  components.filter (hasFile w folder)

theorem hasSuffix_append (name ending : String) :
    Text.hasSuffix ending (name ++ ending) = true := by
  rw [Text.hasSuffix, String.toList_append]
  exact List.isSuffixOf_iff_suffix.mpr (List.suffix_append ..)

section Renewing
variable {w : Workspace} {folder : String}

theorem performs_renewFile {component : Component}
    (placed :
      w.Places (Path.under (Path.under Component.buildDirectory folder) (component.name ++ ".tau"))
        (renewal w folder component).1) (isFile : w.IsFile (renewal w folder component).1) :
    Performs w [renewal w folder component] ()
      (renewFile (Path.under Component.buildDirectory folder) component) :=
  (performs_writeFile placed isFile _).andLook (performs_say _)

/-- Of some components those are renewed whose files are there. -/
theorem performs_renewFound {components : List Component} (sound : w.tree.Sound)
    (reserved : w.tree.Reserves ".tau") (plain : Path.Plain folder)
    (files : ∀ component ∈ components, Path.Plain (component.name ++ ".tau")) :
    Performs w ((foundIn w folder components).map (renewal w folder))
      (foundIn w folder components).length
      (renewFound (Path.under Component.buildDirectory folder) components) := by
  induction components with
  | nil => exact performs_pure 0
  | cons component rest ih =>
      rw [List.forall_mem_cons] at files
      refine (performs_exists _).andThen ?_
      change Performs w _ _ (if hasFile w folder component = true then _ else _)
      cases there : hasFile w folder component with
      | true =>
          obtain ⟨placed, isFile⟩ :=
            places_of_occupied plain files.1 sound reserved (hasSuffix_append ..) there
          rw [foundIn, List.filter_cons_of_pos there]
          exact (performs_renewFile placed isFile).bind ((ih files.2).andLook (performs_pure _))
      | false =>
          rw [foundIn, List.filter_cons_of_neg (by rw [there]; exact Bool.false_ne_true)]
          exact ih files.2

end Renewing

namespace Category

/-- A category whose files have plain names, and whose components are told apart by the names of
their files. -/
structure Regular (category : Category) : Prop where
  folder : Path.Plain category.name
  files : ∀ component ∈ category.components, Path.Plain (component.name ++ ".tau")
  distinct : (category.components.map Component.name).Nodup
  stems : ∀ make, category.other = some make → ∀ stem, (make stem).name = stem
  nibbles : category.other.isSome = true → ∀ component ∈ category.components,
    Text.mentions component.name "nibble" = true

variable {w : Workspace} {category : Category}

/-- The stems of the files that are about no nibble, as they are found in a workspace. -/
def stemsIn (w : Workspace) (category : Category) : List String :=
  (((w.listed category.directory ".tau").map Path.name).filter fun name =>
    Text.hasPrefix s!"{category.name}_" name && !Text.mentions name "nibble").map Path.stem

/-- The components for files that are found by their stems. -/
def othersIn (w : Workspace) (category : Category) : List Component :=
  (category.other.map fun make => (category.stemsIn w).map make).getD []

/-- All components of a category whose files are there. -/
def renewed (w : Workspace) (category : Category) : List Component :=
  if w.occupied category.directory then
    foundIn w category.name category.components ++ category.othersIn w
  else
    []

theorem exists_of_mem_othersIn {component : Component} (member : component ∈ category.othersIn w) :
    ∃ make, category.other = some make ∧ ∃ stem ∈ category.stemsIn w, make stem = component := by
  unfold othersIn at member
  cases other : category.other with
  | none =>
      rw [other] at member
      cases member
  | some make =>
      rw [other, Option.map_some, Option.getD_some, List.mem_map] at member
      exact ⟨make, rfl, member⟩

theorem performs_otherStems : Performs w [] (category.stemsIn w) category.otherStems :=
  (performs_listFiles _ _).andThen (performs_pure _)

section Stems
variable {stem : String} (regular : category.Regular) (sound : w.tree.Sound)
  (reserved : w.tree.Reserves ".tau") (member : stem ∈ category.stemsIn w)
include regular sound reserved member

/-- A stem is that of a file that can be written and is about no nibble. -/
theorem places_of_mem_stems :
    w.Places (Path.under category.directory (stem ++ ".tau"))
      (folderAt w category.name ++ [stem ++ ".tau"]) ∧
      w.IsFile (folderAt w category.name ++ [stem ++ ".tau"]) ∧
      Text.mentions (stem ++ ".tau") "nibble" = false := by
  rw [stemsIn, List.mem_map] at member
  obtain ⟨name, kept, stemmed⟩ := member
  rw [List.mem_filter, List.mem_map] at kept
  obtain ⟨⟨path, listed, named⟩, kept⟩ := kept
  obtain ⟨file, spelled, plain, ends, placed, isFile⟩ :=
    exists_of_mem_listed regular.folder sound reserved listed
  rw [spelled, Path.name_under plain] at named
  subst named
  rw [Bool.and_eq_true_iff, Bool.not_eq_true'] at kept
  have more : file ≠ ".tau" := by
    rintro rfl
    -- The ending alone has no underscore, with which the name of the operation is followed.
    have start := List.isPrefixOf_iff_prefix.mp kept.1
    have mark : '_' ∈ ".tau".toList := start.subset (by simp [toString])
    exact absurd mark (by decide)
  rw [← stemmed, stem_append plain ends more]
  exact ⟨spelled ▸ placed, isFile, kept.2⟩

theorem not_mentions_of_mem_stems : Text.mentions stem "nibble" = false := by
  have free := (places_of_mem_stems regular sound reserved member).2.2
  rw [Bool.eq_false_iff, Ne, Text.mentions_iff] at free ⊢
  rw [String.toList_append] at free
  exact fun inside => free (inside.trans (List.prefix_append ..).isInfix)

end Stems

section Repair
variable (regular : category.Regular) (sound : w.tree.Sound) (reserved : w.tree.Reserves ".tau")
include regular sound reserved

/-- A repair writes the components whose files are there, and counts them. -/
theorem performs_repair :
    Performs w ((category.renewed w).map (renewal w category.name)) (category.renewed w).length
      category.repair := by
  unfold repair
  refine (performs_say _).andThen ((performs_exists _).andThen ?_)
  cases there : w.occupied category.directory with
  | false =>
      rw [renewed, there]
      exact (performs_say _).andThen (performs_pure _)
  | true =>
      have found := performs_renewFound sound reserved regular.folder regular.files
      rw [renewed, there, if_pos rfl, othersIn, List.map_append, List.length_append]
      cases other : category.other with
      | none =>
          rw [Option.map_none, Option.getD_none, List.map_nil, List.append_nil, List.length_nil,
            Nat.add_zero]
          exact found.andLook (performs_pure _)
      | some make =>
          have each (stem : String) (member : stem ∈ category.stemsIn w) :
              Performs w [renewal w category.name (make stem)] ()
                (renewFile category.directory (make stem)) := by
            obtain ⟨placed, isFile, _⟩ := places_of_mem_stems regular sound reserved member
            rw [← regular.stems make other stem] at placed isFile
            exact performs_renewFile placed isFile
          have renews := performs_forM each
          rw [← List.map_eq_flatMap] at renews
          rw [Option.map_some, Option.getD_some, List.map_map, List.length_map]
          exact found.bind (performs_otherStems.andThen (renews.andLook (performs_pure _)))

/-- Files of one name are about one component. -/
theorem eq_of_mem_renewed {first second : Component} (member : first ∈ category.renewed w)
    (memberToo : second ∈ category.renewed w) (same : first.name = second.name) :
    first = second := by
  have known {component : Component}
      (found : component ∈ foundIn w category.name category.components) :
      component ∈ category.components := List.mem_of_mem_filter found
  -- Where files are found by their stems, those that are known by name are about nibbles, and the
  -- others are not.
  have apart {component other : Component}
      (found : component ∈ foundIn w category.name category.components)
      (stemmed : other ∈ category.othersIn w) : component.name ≠ other.name := by
    obtain ⟨make, makes, stem, member, rfl⟩ := exists_of_mem_othersIn stemmed
    intro same
    have nibble := regular.nibbles (Option.isSome_of_eq_some makes) component (known found)
    rw [same, regular.stems make makes,
      not_mentions_of_mem_stems regular sound reserved member] at nibble
    cases nibble
  unfold renewed at member memberToo
  split at member
  next there =>
    rw [if_pos there] at memberToo
    rcases List.mem_append.mp member with found | stemmed <;>
    rcases List.mem_append.mp memberToo with foundToo | stemmedToo
    · exact List.inj_on_of_nodup_map regular.distinct (known found) (known foundToo) same
    · exact absurd same (apart found stemmedToo)
    · exact absurd same.symm (apart foundToo stemmed)
    · obtain ⟨make, makes, stem, _, rfl⟩ := exists_of_mem_othersIn stemmed
      obtain ⟨makeToo, makesToo, stemToo, _, rfl⟩ := exists_of_mem_othersIn stemmedToo
      cases makes.symm.trans makesToo
      rw [regular.stems make makes, regular.stems make makes] at same
      rw [same]
  next => cases member

end Repair

end Category

/-! ## The categories of the rounds -/

theorem plain_file {name : String} (slash : '/' ∉ name.toList) : Path.Plain (name ++ ".tau") := by
  have long (short : String) (bound : short.length ≤ 2) : name ++ ".tau" ≠ short := by
    rintro rfl
    rw [String.length_append, show (".tau" : String).length = 4 by decide] at bound
    omega
  refine ⟨?_, long "" (by decide), long "." (by decide), long ".." (by decide)⟩
  rw [String.toList_append, List.mem_append, not_or]
  exact ⟨slash, by decide⟩

/-- The files of numbered components have plain names. -/
theorem files_of_numbered {category : Category} (word : String) (free : '/' ∉ word.toList)
    (numbered : ∀ i : Int, (category.nibble i).name = word ++ toString i)
    (whole : ∀ component ∈ category.whole, '/' ∉ component.name.toList) :
    ∀ component ∈ category.components, Path.Plain (component.name ++ ".tau") := by
  refine List.forall_mem_append.mpr ⟨List.forall_mem_map.mpr fun i _ => plain_file ?_,
    fun component member => plain_file (whole component member)⟩
  rw [numbered, String.toList_append, List.mem_append, not_or]
  refine ⟨free, fun slash => ?_⟩
  exact absurd (Text.isDigit_of_mem_toString slash) (by decide)

theorem regular_of_mem {category : Category} (member : category ∈ firstRound ++ lastRound) :
    category.Regular := by
  have folders : ∀ category ∈ firstRound ++ lastRound, Path.Plain category.name := by decide
  have distinct : ∀ category ∈ firstRound ++ lastRound,
      (category.components.map Component.name).Nodup := by decide
  have nibbles : ∀ category ∈ firstRound ++ lastRound, category.other.isSome = true →
      ∀ component ∈ category.components, Text.mentions component.name "nibble" = true := by decide
  have rest : (∀ component ∈ category.components, Path.Plain (component.name ++ ".tau")) ∧
      ∀ make, category.other = some make → ∀ stem, (make stem).name = stem := by
    have which := member
    simp only [firstRound, lastRound, List.cons_append, List.nil_append, List.mem_cons,
      List.not_mem_nil, or_false] at which
    rcases which with rfl | rfl | rfl | rfl | rfl | rfl | rfl | rfl
    · exact ⟨files_of_numbered "dup_nibble_" (by decide) (fun _ => rfl) (by decide),
        by rintro make ⟨⟩⟩
    · exact ⟨files_of_numbered "swap_nibble_" (by decide) (fun _ => rfl) (by decide),
        by rintro make ⟨⟩⟩
    · exact ⟨files_of_numbered "mul_partial_" (by decide) (fun _ => rfl) (by decide),
        by rintro make ⟨⟩⟩
    · exact ⟨files_of_numbered "mload_nibble_" (by decide) (fun _ => rfl) (by decide),
        by rintro make ⟨⟩⟩
    · exact ⟨files_of_numbered "mstore_nibble_" (by decide) (fun _ => rfl) (by decide),
        by rintro make ⟨⟩⟩
    · exact ⟨files_of_numbered "push_nibble_" (by decide) (fun _ => rfl) (by decide),
        by rintro make ⟨⟩ stem; rfl⟩
    · exact ⟨files_of_numbered "pop_nibble_" (by decide) (fun _ => rfl) (by decide),
        by rintro make ⟨⟩ stem; rfl⟩
    · exact ⟨files_of_numbered "verify_nibble_" (by decide) (fun _ => rfl) (by decide),
        by rintro make ⟨⟩⟩
  exact ⟨folders category member, rest.1, distinct category member, rest.2, nibbles category member⟩

/-! ## Whole rounds -/

/-- The operations of a round with those of their components whose files are there. -/
abbrev Renewed := List (String × List Component)

def firstFolders : List String := ["dup", "swap", "mul", "halt", "nop"]

def lastFolders : List String := ["mload", "mstore", "push", "pop", "verify"]

def renewals (w : Workspace) (renewed : Renewed) : List (Location × String) :=
  renewed.flatMap fun pair => pair.2.map (renewal w pair.1)

/-- The components of the first round, whose last operations have a single file each. -/
def firstRenewed (w : Workspace) : Renewed :=
  firstRound.map (fun category => (category.name, category.renewed w)) ++
    singles.map fun component => (component.name, foundIn w component.name [component])

def lastRenewed (w : Workspace) : Renewed :=
  lastRound.map fun category => (category.name, category.renewed w)

section Rounds
variable {w : Workspace}

theorem quiet_tryFile (path : String) : Quiet w (tryFile path) :=
  (performs_solve path).quiet.bind fun _ => (quiet_say _).bind fun _ => quiet_pure _

theorem quiet_tryFirst (paths : List String) : Quiet w (tryFirst paths) :=
  (quiet_say _).bind fun _ => (quiet_mapM fun path _ => quiet_tryFile path).bind fun _ =>
    quiet_pure _

theorem quiet_trySamples (counts : List (String × Int)) : Quiet w (trySamples counts) := by
  refine (quiet_say _).bind fun _ => (quiet_mapM fun pair _ => ?_).bind fun _ =>
    (quiet_say _).bind fun _ => quiet_pure _
  have sample : Quiet w (sampleFiles pair.1) :=
    (performs_listFiles _ _).quiet.bind fun _ => quiet_pure _
  exact sample.bind fun files => quiet_mapM fun path _ => quiet_tryFile path

variable (sound : w.tree.Sound) (reserved : w.tree.Reserves ".tau")
include sound reserved

theorem performs_repairSingles :
    Performs w
      (renewals w (singles.map fun component =>
        (component.name, foundIn w component.name [component])))
      (singles.flatMap fun component => foundIn w component.name [component]).length
        repairSingles := by
  have names : ∀ component ∈ singles, Path.Plain component.name := by decide
  have each (component : Component) (member : component ∈ singles) :=
    performs_renewFound sound reserved (names component member)
      (List.forall_mem_singleton.mpr (plain_file (names component member).slash))
  rw [renewals, List.flatMap_map, List.length_flatMap, List.sum_eq_foldr]
  dsimp only
  exact (performs_say _).andThen ((performs_mapM each).andLook (performs_pure _))

theorem performs_runFirstRound : Performs w (renewals w (firstRenewed w)) () runFirstRound := by
  rw [firstRenewed, renewals, List.flatMap_append, List.flatMap_map]
  dsimp only
  have each (category : Category) (member : category ∈ firstRound) :
      Performs w ((category.renewed w).map (renewal w category.name))
        (if (category.renewed w).length = 0 then (0, []) else
          ((category.renewed w).length, w.listed category.directory ".tau"))
            (repairAndList category) := by
    have repairs :=
      category.performs_repair (regular_of_mem (List.mem_append_left _ member)) sound reserved
    refine repairs.andLook ?_
    split
    · exact performs_pure _
    · exact (performs_listFiles _ _).andThen (performs_pure _)
  refine (performs_sayAll _).andThen
    ((performs_mapM each).bind ((performs_repairSingles sound reserved).andLook
      ((performs_sayAll _).andThen (Quiet.performs ?_))))
  split
  · exact (quiet_filterM fun path _ => (performs_exists path).quiet).bind fun files =>
      (quiet_tryFirst files).bind fun _ => quiet_sayAll _
  · exact quiet_say _

theorem performs_runLastRound : Performs w (renewals w (lastRenewed w)) () runLastRound := by
  rw [lastRenewed, renewals, List.flatMap_map]
  dsimp only
  have each (category : Category) (member : category ∈ lastRound) :
      Performs w ((category.renewed w).map (renewal w category.name))
        (category.name, (category.renewed w).length)
        (do pure (category.name, ← category.repair)) :=
    (category.performs_repair (regular_of_mem (List.mem_append_right _ member))
      sound reserved).andLook (performs_pure _)
  refine (performs_sayAll _).andThen ((performs_mapM each).andLook ((performs_say _).andThen
    ((performs_sayAll _).andThen ((performs_say _).andThen (Quiet.performs ?_)))))
  split
  · exact (quiet_trySamples _).bind fun _ => quiet_sayAll _
  · exact quiet_say _

end Rounds

/-! ## Repeated rounds -/

/-- What a round of repairs leaves, and what it does when it is run once more. -/
structure Settles (w : Workspace) (folders : List String) (renewed : Renewed)
    (round : Action Unit) : Prop where
  /-- It ends well, makes and deletes nothing, and changes only constraint files that are there. -/
  frame : ∃ after, round.runIn w = (.ok (), after) ∧ w.Alike after ∧ (∀ location,
    after.tree.lookup location = w.tree.lookup location ∨
      Covered w folders location ∧ w.IsFile location) ∧
    ∀ write ∈ renewals w renewed, after.tree.lookup write.1 = some (.file write.2)
  /-- A second run changes no file and prints the same text. -/
  again : ∃ text after last, round.runIn w = (.ok (), after) ∧ round.runIn after = (.ok (), last) ∧
    last.tree = after.tree ∧ after.printed = w.printed ++ text ∧
      last.printed = after.printed ++ text

section Settling
variable {w : Workspace} {folders : List String} {renewed : Renewed}

theorem exists_of_mem_renewals {write : Location × String} (member : write ∈ renewals w renewed) :
    ∃ pair ∈ renewed, ∃ component ∈ pair.2, renewal w pair.1 component = write := by
  obtain ⟨pair, listed, inside⟩ := List.mem_flatMap.mp member
  exact ⟨pair, listed, List.mem_map.mp inside⟩

/-- The place of a file tells the operation and the name of the component. -/
theorem eq_of_renewal {folder folder' : String} {component component' : Component}
    (same : (renewal w folder component).1 = (renewal w folder' component').1) :
    folder = folder' ∧ component.name = component'.name := by
  obtain ⟨folders, files⟩ := List.append_inj' same rfl
  refine ⟨by simpa [folderAt] using folders, ?_⟩
  simpa using files

theorem covered_of_mem_renewals (names : renewed.map Prod.fst = folders) {write : Location × String}
    (member : write ∈ renewals w renewed) : Covered w folders write.1 := by
  obtain ⟨pair, listed, component, _, rfl⟩ := exists_of_mem_renewals member
  exact ⟨pair.1, names ▸ List.mem_map_of_mem listed, _, hasSuffix_append .., rfl⟩

theorem settles_of_performs {round : Action Unit} (sound : w.tree.Sound)
    (performs : Performs w (renewals w renewed) () round) (names : renewed.map Prod.fst = folders)
    (distinct : folders.Nodup)
    (single : ∀ pair ∈ renewed, ∀ first ∈ pair.2, ∀ second ∈ pair.2,
      first.name = second.name → first = second) :
    Settles w folders renewed round where
  frame := by
    obtain ⟨after, run, alike, untouched, written⟩ := performs.frame
    refine ⟨after, run, alike, fun location => ?_,
      fun write member => written write member fun other memberToo same => ?_⟩
    · by_cases touched : location ∈ (renewals w renewed).map Prod.fst
      · obtain ⟨write, member, rfl⟩ := List.mem_map.mp touched
        exact Or.inr ⟨covered_of_mem_renewals names member, performs.files write member⟩
      · exact Or.inl (untouched location touched)
    · obtain ⟨pair, listed, component, inside, rfl⟩ := exists_of_mem_renewals member
      obtain ⟨pair', listed', component', inside', rfl⟩ := exists_of_mem_renewals memberToo
      obtain ⟨folder, name⟩ := eq_of_renewal same
      obtain rfl := List.inj_on_of_nodup_map (names ▸ distinct) listed' listed folder
      rw [single _ listed _ inside' _ inside name]
  again := performs.again sound

end Settling

section Settled
variable {w : Workspace} (sound : w.tree.Sound) (reserved : w.tree.Reserves ".tau")
include sound reserved

theorem settles_first : Settles w firstFolders (firstRenewed w) runFirstRound := by
  refine settles_of_performs sound (performs_runFirstRound sound reserved) rfl (by decide) ?_
  refine List.forall_mem_append.mpr ⟨List.forall_mem_map.mpr fun category member => ?_,
    List.forall_mem_map.mpr fun component _ => ?_⟩
  · dsimp only
    exact fun first found second foundToo => category.eq_of_mem_renewed
      (regular_of_mem (List.mem_append_left _ member)) sound reserved found foundToo
  · dsimp only
    intro first found second foundToo _
    rw [List.mem_singleton.mp (List.mem_of_mem_filter found),
      List.mem_singleton.mp (List.mem_of_mem_filter foundToo)]

theorem settles_last : Settles w lastFolders (lastRenewed w) runLastRound := by
  refine settles_of_performs sound (performs_runLastRound sound reserved) rfl (by decide) ?_
  refine List.forall_mem_map.mpr fun category member => ?_
  dsimp only
  exact fun first found second foundToo => category.eq_of_mem_renewed
    (regular_of_mem (List.mem_append_right _ member)) sound reserved found foundToo

end Settled

/-- The two rounds are about different files. -/
theorem not_covered_of_covered {w : Workspace} {location : Location}
    (first : Covered w firstFolders location) :
    ¬ Covered w lastFolders location := by
  obtain ⟨folder, member, file, _, rfl⟩ := first
  rintro ⟨other, memberToo, fileToo, _, same⟩
  obtain ⟨same, -⟩ := List.append_inj' same rfl
  obtain rfl : folder = other := by simpa [folderAt] using same
  have apart : ∀ folder ∈ firstFolders, folder ∉ lastFolders := by decide
  exact apart folder member memberToo

/-- In a tree where no directory has the ending of constraint files, each round is settled by one
run, its repairs count the same files whatever stands in them, and the two rounds can be run in
either order. -/
theorem rounds_settle (w : Workspace) (sound : w.tree.Sound) (reserved : w.tree.Reserves ".tau") :
    Settles w firstFolders (firstRenewed w) runFirstRound ∧
      Settles w lastFolders (lastRenewed w) runLastRound ∧
      (∀ v, w.Alike v → (repairSingles.runIn v).1 =
          .ok (singles.flatMap fun component => foundIn w component.name [component]).length ∧
        ∀ category ∈ firstRound ++ lastRound,
          (category.repair.runIn v).1 = .ok (category.renewed w).length) ∧
      ∃ first last both bothToo, runFirstRound.runIn w = (.ok (), first) ∧
        runLastRound.runIn first = (.ok (), both) ∧
        runLastRound.runIn w = (.ok (), last) ∧ runFirstRound.runIn last = (.ok (), bothToo) ∧
        both.tree = bothToo.tree := by
  refine ⟨settles_first sound reserved, settles_last sound reserved,
    fun v alike => ⟨?_, fun category member => ?_⟩, ?_⟩
  · exact (performs_repairSingles sound reserved).value_eq alike
  · exact (category.performs_repair (regular_of_mem member) sound reserved).value_eq alike
  · refine (performs_runFirstRound sound reserved).comm (performs_runLastRound sound reserved)
      sound ?_
    intro write member later
    obtain ⟨other, memberToo, same⟩ := List.mem_map.mp later
    have covered : Covered w firstFolders write.1 := covered_of_mem_renewals rfl member
    rw [← same] at covered
    exact not_covered_of_covered covered (covered_of_mem_renewals rfl memberToo)

/-- A build with files of all kinds: known by name, found by their stems, about a nibble under
another name, of an operation that no round is about, and a file where the directory of an operation
should be. -/
def roughBuild : Workspace where
  tree := ⟨[(["build"], .directory), (["build", "zkvm_100_percent"], .directory),
    (["build", "zkvm_100_percent", "dup"], .directory),
    (["build", "zkvm_100_percent", "dup", "dup_nibble_0.tau"], .file "solve x_0=1"),
    (["build", "zkvm_100_percent", "push"], .directory),
    (["build", "zkvm_100_percent", "push", "push_nibble_7.tau"], .file "solve d_7=0"),
    (["build", "zkvm_100_percent", "push", "push_carry_1.tau"], .file "solve c_1=0"),
    (["build", "zkvm_100_percent", "push", "push_nibble_07.tau"], .file "solve d_7=1"),
    (["build", "zkvm_100_percent", "add"], .directory),
    (["build", "zkvm_100_percent", "add", "add_nibble_0.tau"], .file "solve s_0=1"),
    (["build", "zkvm_100_percent", "halt"], .file "")]⟩
  directory := []
  clock := 0
  solver := []
  printed := ""

theorem mem_renewed_roughBuild : dup.nibble 0 ∈ dup.renewed roughBuild := by
  have directory : roughBuild.occupied dup.directory = true := by decide +kernel
  have file : hasFile roughBuild dup.name (dup.nibble 0) = true := by decide +kernel
  have known : dup.nibble 0 ∈ dup.components :=
    List.mem_append_left _ (List.mem_map.mpr ⟨0, List.mem_range.mpr (by decide), rfl⟩)
  rw [Category.renewed, if_pos directory]
  exact List.mem_append_left _ (List.mem_filter.mpr ⟨known, file⟩)

theorem roughBuild_settles : roughBuild.tree.Sound ∧ roughBuild.tree.Reserves ".tau" ∧
    Settles roughBuild firstFolders (firstRenewed roughBuild) runFirstRound ∧
    Settles roughBuild lastFolders (lastRenewed roughBuild) runLastRound ∧
    ∃ after, runFirstRound.runIn roughBuild = (.ok (), after) ∧
      after.tree.lookup (renewal roughBuild dup.name (dup.nibble 0)).1 =
        some (.file (dup.nibble 0).text) := by
  have sound : roughBuild.tree.Sound := by decide
  have reserved : roughBuild.tree.Reserves ".tau" := by decide
  obtain ⟨first, last, _⟩ := rounds_settle roughBuild sound reserved
  obtain ⟨after, run, _, _, renewed⟩ := first.frame
  have listed : (dup.name, dup.renewed roughBuild) ∈ firstRenewed roughBuild :=
    List.mem_append_left _ (List.mem_map.mpr ⟨dup, List.mem_cons_self .., rfl⟩)
  have written :
      renewal roughBuild dup.name (dup.nibble 0) ∈ renewals roughBuild (firstRenewed roughBuild) :=
    List.mem_flatMap.mpr ⟨_, listed, List.mem_map_of_mem mem_renewed_roughBuild⟩
  exact ⟨sound, reserved, first, last, after, run, renewed _ written⟩

end Repair

end Zkvm
