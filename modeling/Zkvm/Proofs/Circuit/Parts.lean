import Mathlib.Data.List.Nodup
import Zkvm.Circuit.Compiler
import Zkvm.Proofs.Text.Digits
import Zkvm.Proofs.Workspace.Paths

/-!
# The files of a module

A module is written as one file for each group of its lines, with a name made of the module's name
and the number of the group.  Different modules or numbers never give the same name, and the parts
of one module never fall on the same place, so that after a module was compiled all its files are
there with their texts, and nothing else has changed.
-/
set_option autoImplicit false

namespace Zkvm.Circuit

/-! ## Names of parts -/

def partEnding (index : Nat) : String :=
  "_part" ++ toString index ++ ".tau"

def partName (name : String) (index : Nat) : String :=
  s!"{name}_part{index}.tau"

theorem partName_eq (name : String) (index : Nat) :
    partName name index = name ++ partEnding index := by
  unfold partName partEnding
  simp only [String.append_assoc]
  rfl

theorem partEnding_toList (index : Nat) :
    (partEnding index).toList = "_part".toList ++ (toString index).toList ++ ".tau".toList := by
  rw [partEnding, String.toList_append, String.toList_append]

theorem partEnding_slash (index : Nat) : '/' ∉ (partEnding index).toList := by
  rw [partEnding_toList, List.mem_append, List.mem_append, not_or, not_or]
  refine ⟨⟨by decide, fun member => ?_⟩, by decide⟩
  have digit := Text.isDigit_of_mem_toString member
  revert digit
  decide

theorem partEnding_length (index : Nat) : 2 < (partEnding index).length := by
  rw [← String.length_toList, partEnding_toList, List.length_append, List.length_append]
  have : "_part".toList.length = 5 := by decide
  omega

theorem partName_inj {name name' : String} {index index' : Nat}
    (same : partName name index = partName name' index') : name = name' ∧ index = index' := by
  rw [partName_eq, partName_eq] at same
  have letters := congrArg String.toList same
  simp only [String.toList_append, partEnding_toList, ← List.append_assoc] at letters
  have bare := List.append_cancel_right letters
  rw [show "_part".toList = "_par".toList ++
    ['t'] from by decide, ← List.append_assoc, ← List.append_assoc] at bare
  obtain ⟨names, digits⟩ := Text.digits_inj (by decide) (fun _ => Text.isDigit_of_mem_toString)
    (fun _ => Text.isDigit_of_mem_toString) bare
  have numbers := congrArg (fun letters => Nat.ofDigitChars 10 letters 0) digits
  refine ⟨String.toList_inj.mp (List.append_cancel_right names), ?_⟩
  simpa [Nat.toString_eq_ofList_toDigits] using numbers

theorem plain_partName {name : String} (slash : '/' ∉ name.toList) (index : Nat) :
    Path.Plain (partName name index) := by
  have long : 2 < (partName name index).length := by
    rw [partName_eq, String.length_append]
    have := partEnding_length index
    omega
  refine ⟨?_, ?_, ?_, ?_⟩
  · rw [partName_eq, String.toList_append, List.mem_append, not_or]
    exact ⟨slash, partEnding_slash index⟩
  all_goals
    intro short
    rw [short] at long
    revert long
    decide

/-! ## Places of parts -/

/-- A part lies under its number, whatever directory the module's name leads to. -/
theorem last_of_part {w : Workspace} {directory name : String} {index : Nat} {location : Location}
    (places : w.Places (Path.join directory (partName name index)) location) :
    location.getLast? = some (Path.lastPart (Path.join directory name) ++ partEnding index) := by
  have found := places.found
  rw [partName_eq, Path.join_append (partEnding_slash index)] at found
  exact Tree.last_of_resolve (partEnding_slash index) (partEnding_length index) found

theorem index_of_part {w : Workspace} {directory name : String} {index index' : Nat}
    {location : Location} (first : w.Places (Path.join directory (partName name index)) location)
    (second : w.Places (Path.join directory (partName name index')) location) : index = index' := by
  have last := last_of_part first
  rw [last_of_part second, Option.some.injEq, ← partName_eq, ← partName_eq] at last
  exact (partName_inj last).2.symm

/-- No part lies where the list of all files does. -/
theorem part_ne_manifest {w : Workspace} {directory name : String} {index : Nat}
    {location other : Location}
    (part : w.Places (Path.join directory (partName name index)) location)
    (manifest : w.tree.resolve w.directory (Path.join directory "manifest.json") = .ok other) :
    location ≠ other := by
  rintro rfl
  have last := last_of_part part
  have ending : '/' ∉ "manifest.json".toList := by decide
  rw [show "manifest.json" = "" ++ "manifest.json" from rfl, Path.join_append ending] at manifest
  rw [Tree.last_of_resolve ending (by decide) manifest, Option.some.injEq] at last
  have letters := congrArg (fun text : String => text.toList.getLast?) last
  simp only [String.toList_append, partEnding_toList] at letters
  rw [List.getLast?_append_of_ne_nil _ (by decide), ← List.append_assoc,
    List.getLast?_append_of_ne_nil _ (by decide)] at letters
  revert letters
  decide

/-! ## What a part asks -/

def commonLines (m : Module) : List String :=
  inputLines m.vars ++ ["result=1"]

/-- What a file with these lines asks of the solver. -/
def solveText (m : Module) (lines : List String) : String :=
  Formula.joinTexts (inputLines m.vars ++ lines ++ ["result=1"])

def heading (m : Module) (index : Int) : String :=
  s!"# Module: {m.name} (Part {index + 1})\n# Auto-generated by TauCompiler\n\n"

theorem fileText_eq (m : Module) (lines : List String) (index : Int) :
    fileText m lines index = heading m index ++ "solve " ++ solveText m lines ++ "\n\nquit" := by
  unfold fileText heading solveText
  simp only [String.append_assoc]
  rfl

/-! ## Writing the parts -/

/-- The paths and texts of the files for groups of lines, numbered from an index on. -/
def partFiles (directory : String) (m : Module) (index : Nat) (groups : List (List String)) :
    List (String × String) :=
  (groups.zipIdx index).map fun (lines, i) =>
    (Path.join directory (partName m.name i), fileText m lines i)

def partNames (name : String) (index count : Nat) : List String :=
  (List.range' index count).map (partName name)

theorem partFiles_cons (directory : String) (m : Module) (index : Nat) (lines : List String)
    (rest : List (List String)) :
    partFiles directory m index (lines :: rest) =
      (Path.join directory (partName m.name index), fileText m lines index) ::
        partFiles directory m (index + 1) rest := by
  rw [partFiles, List.zipIdx_cons, List.map_cons, ← partFiles]

theorem partNames_succ (name : String) (index count : Nat) :
    partNames name index (count + 1) = partName name index :: partNames name (index + 1) count := by
  rw [partNames, List.range'_succ, List.map_cons, ← partNames]

theorem mem_partFiles (directory : String) (m : Module) {groups : List (List String)} {i : Nat}
    {lines : List String} (there : groups[i]? = some lines) :
    (Path.join directory (partName m.name i), fileText m lines i) ∈
      partFiles directory m 0 groups :=
  List.mem_map.mpr ⟨(lines, i), List.mem_zipIdx_iff_getElem?.mpr there, rfl⟩

theorem exists_of_mem_partFiles {directory : String} {m : Module} {index : Nat}
    {groups : List (List String)} {file : String × String}
    (member : file ∈ partFiles directory m index groups) :
    ∃ i, index ≤ i ∧ i < index + groups.length ∧
      file.1 = Path.join directory (partName m.name i) := by
  obtain ⟨⟨lines, i⟩, there, rfl⟩ := List.mem_map.mp member
  have bounds := List.mem_zipIdx there
  exact ⟨i, bounds.1, bounds.2.1, rfl⟩

theorem apart_partFiles (w : Workspace) (directory : String) (m : Module) (index : Nat)
    (groups : List (List String)) : w.Apart (partFiles directory m index groups) := by
  induction groups generalizing index with
  | nil => exact .nil
  | cons lines rest ih =>
      rw [partFiles_cons]
      refine List.pairwise_cons.mpr ⟨?_, ih (index + 1)⟩
      intro later member location here there
      obtain ⟨i, bound, _, path⟩ := exists_of_mem_partFiles member
      rw [path] at there
      have same := index_of_part here there
      omega

/-- The compiler after it has written files to these paths. -/
def Compiler.record (compiler : Compiler) (paths : List String) : Compiler :=
  { compiler with generated := compiler.generated ++ paths }

theorem Compiler.record_nil (compiler : Compiler) : compiler.record [] = compiler := by
  simp [record]

theorem Compiler.record_record (compiler : Compiler) (first second : List String) :
    (compiler.record first).record second = compiler.record (first ++ second) := by
  simp [record]

/-- What becomes of files that are written one after another: all go to their places, or they are
written up to the first that has none. -/
inductive Written (compiler : Compiler) (w : Workspace) (files : List (String × String))
    (names : List String) :
    Except Failure (List String) × Compiler × Workspace → Prop where
  | all (writes : List (Location × String)) (admits : w.Admits files writes) :
      Written compiler w files names
        (.ok names, compiler.record (files.map Prod.fst), w.putAll writes)
  | refused (done later : List (String × String)) (file : String × String)
    (writes : List (Location × String))
      (trouble : PathTrouble) (split : files = done ++ file :: later)
        (admits : w.Admits done writes)
      (nowhere : ∀ location, ¬ w.Places file.1 location) :
      Written compiler w files names
        (.error (.path trouble file.1), compiler.record (done.map Prod.fst), w.putAll writes)

/-- A file that has a place, before files whose fate is known once it is written.  Its writing
leaves all directories alone, so the places of the others were theirs from the beginning. -/
theorem Written.cons {compiler : Compiler} {w : Workspace} {file : String × String}
    {files : List (String × String)} {name : String} {names : List String} {location : Location}
    {run : Except Failure (List String) × Compiler × Workspace} (places : w.Places file.1 location)
    (later : Written (compiler.record [file.1]) (w.put location file.2) files names run) :
    Written compiler w (file :: files) (name :: names) (run.1.map (name :: ·), run.2) := by
  have same := Workspace.sameDirectories_put places.free file.2
  have placed : w.Places file.1 (location, file.2).1 ∧ (location, file.2).2 = file.2 :=
    ⟨places, rfl⟩
  cases later with
  | all writes admits =>
      simp only [Compiler.record_record]
      exact .all ((location, file.2) :: writes) (.cons placed (same.symm.admits admits))
  | refused done later refused writes trouble split admits nowhere =>
      simp only [Compiler.record_record]
      refine .refused (file :: done) later refused ((location, file.2) :: writes) trouble ?_
        (.cons placed (same.symm.admits admits))
          (fun other there => nowhere other (same.places there))
      rw [split, List.cons_append]

theorem Written.first_refused {compiler : Compiler} {w : Workspace} {file : String × String}
    {files : List (String × String)} {names : List String} {trouble : PathTrouble}
    (nowhere : ∀ location, ¬ w.Places file.1 location) :
    Written compiler w (file :: files) names (.error (.path trouble file.1), compiler, w) := by
  have nothing : Written compiler w (file :: files) names _ :=
    .refused [] files file [] trouble rfl .nil nowhere
  rw [List.map_nil, compiler.record_nil] at nothing
  exact nothing

section Write
variable {m : Module} {index : Nat} {lines : List String} {rest : List (List String)}
  {compiler : Compiler} {w after : Workspace}

theorem runIn_writeParts_refused {failure : Failure}
    (written : (Action.writeFile (Path.join compiler.directory (partName m.name index))
      (fileText m lines index)).runIn w = (.error failure, after)) :
    (writeParts m index (lines :: rest)).runIn compiler w = (.error failure, compiler, after) := by
  have spelled : (Action.writeFile (Path.join compiler.directory s!"{m.name}_part{index}.tau")
      (fileText m lines index)).runIn w = (.error failure, after) := written
  simp only [writeParts, Session.runIn_bind, Session.runIn_own, Session.runIn_act, spelled]

theorem runIn_writeParts_written
    (written : (Action.writeFile (Path.join compiler.directory (partName m.name index))
      (fileText m lines index)).runIn w = (.ok (), after)) :
    (writeParts m index (lines :: rest)).runIn compiler w =
      (((writeParts m (index + 1) rest).runIn
        (compiler.record [Path.join compiler.directory (partName m.name index)]) after).1.map
          (partName m.name index :: ·),
        ((writeParts m (index + 1) rest).runIn
          (compiler.record [Path.join compiler.directory (partName m.name index)]) after).2) := by
  have spelled : (Action.writeFile (Path.join compiler.directory s!"{m.name}_part{index}.tau")
      (fileText m lines index)).runIn w = (.ok (), after) := written
  simp only [writeParts, Session.runIn_bind, Session.runIn_own, Session.runIn_act, spelled,
    Session.runIn_update, Session.runIn_pure, Compiler.record, partName]
  rcases Session.runIn (writeParts m (index + 1) rest) _ after with ⟨outcome, own, last⟩
  cases outcome <;> rfl

end Write

theorem written_parts (m : Module) (index : Nat) (groups : List (List String)) (compiler : Compiler)
    (w : Workspace) :
    Written compiler w (partFiles compiler.directory m index groups)
      (partNames m.name index groups.length)
      ((writeParts m index groups).runIn compiler w) := by
  induction groups generalizing index compiler w with
  | nil =>
      have nothing : Written compiler w [] [] _ := .all [] .nil
      rw [List.map_nil, compiler.record_nil] at nothing
      exact nothing
  | cons lines rest ih =>
      rcases Action.runIn_writeFile (Path.join compiler.directory (partName m.name index))
        (fileText m lines index) w with ⟨location, places, written⟩ | ⟨nowhere, trouble, written⟩
      · rw [runIn_writeParts_written written, partFiles_cons, List.length_cons, partNames_succ]
        exact Written.cons places (ih (index + 1) _ _)
      · rw [runIn_writeParts_refused written, partFiles_cons]
        exact Written.first_refused nowhere

/-! ## Compiling a module -/

def Module.Lowers (m : Module) : Prop :=
  ∃ lines, lowerAll m.constraints = .ok lines

namespace Compiler

def groups (compiler : Compiler) (m : Module) : List (List String) :=
  match lowerAll m.constraints with
  | .ok lines => split compiler.limits (lines.map Line.text)
  | .error _ => []

def files (compiler : Compiler) (m : Module) : List (String × String) :=
  partFiles compiler.directory m 0 (compiler.groups m)

def fileNames (compiler : Compiler) (m : Module) : List String :=
  partNames m.name 0 (compiler.groups m).length

theorem exists_of_mem_files {compiler : Compiler} {m : Module} {file : String × String}
    (member : file ∈ compiler.files m) :
    ∃ i, partName m.name i ∈ compiler.fileNames m ∧
      file.1 = Path.join compiler.directory (partName m.name i) := by
  obtain ⟨i, low, high, path⟩ := exists_of_mem_partFiles member
  exact ⟨i, List.mem_map.mpr ⟨i, List.mem_range'_1.mpr ⟨low, high⟩, rfl⟩, path⟩

end Compiler

theorem groups_of_lowered {m : Module} {lines : List Line}
    (lowered : lowerAll m.constraints = .ok lines) (compiler : Compiler) :
    compiler.groups m = split compiler.limits (lines.map Line.text) := by
  rw [Compiler.groups, lowered]

theorem runIn_compile_failed {m : Module} {failure : Failure}
    (failed : lowerAll m.constraints = .error failure) (compiler : Compiler) (w : Workspace) :
    (compile m).runIn compiler w = (.error failure, compiler, w) := by
  simp only [compile, failed, Session.runIn_bind, Session.runIn_act]
  rfl

theorem runIn_compile_lowered {m : Module} (lowers : m.Lowers) (compiler : Compiler)
    (w : Workspace) :
    (compile m).runIn compiler w = (writeParts m 0 (compiler.groups m)).runIn compiler w := by
  obtain ⟨lines, lowered⟩ := lowers
  simp only [compile, Compiler.groups, lowered, Session.runIn_bind, Session.runIn_act,
    Session.runIn_own]
  rfl

theorem written_of_lowers {m : Module} (lowers : m.Lowers) (compiler : Compiler) (w : Workspace) :
    Written compiler w (compiler.files m) (compiler.fileNames m)
      ((compile m).runIn compiler w) := by
  rw [runIn_compile_lowered lowers, Compiler.files, Compiler.fileNames]
  exact written_parts m 0 _ compiler w

/-- A module whose files all have places is compiled. -/
theorem runIn_compile_of_admits {m : Module} (lowers : m.Lowers) {compiler : Compiler}
    {w : Workspace} {writes : List (Location × String)}
    (admits : w.Admits (compiler.files m) writes) :
    (compile m).runIn compiler w =
      (.ok (compiler.fileNames m), compiler.record ((compiler.files m).map Prod.fst),
        w.putAll writes) := by
  have written := written_of_lowers lowers compiler w
  generalize (compile m).runIn compiler w = run at written
  cases written with
  | all others placed => rw [placed.unique admits]
  | refused done later file others trouble split placed nowhere =>
      obtain ⟨location, places, _⟩ :=
        admits.exists_write (by rw [split]; simp : file ∈ compiler.files m)
      exact absurd places (nowhere location)

theorem textAt_of_compile {m : Module} {compiler own : Compiler} {w after : Workspace}
    {names : List String} (run : (compile m).runIn compiler w = (.ok names, own, after)) {i : Nat}
    {group : List String} (there : (compiler.groups m)[i]? = some group) :
    after.textAt (Path.join compiler.directory (partName m.name i)) =
      some (heading m i ++ "solve " ++ solveText m group ++ "\n\nquit") := by
  cases lowered : lowerAll m.constraints with
  | error failure =>
      rw [runIn_compile_failed lowered] at run
      cases run
  | ok lines =>
      have written := written_of_lowers ⟨lines, lowered⟩ compiler w
      rw [run] at written
      cases written with
      | all writes admits =>
          have member : _ ∈ compiler.files m := mem_partFiles compiler.directory m there
          have apart : w.Apart (compiler.files m) :=
            apart_partFiles w compiler.directory m 0 (compiler.groups m)
          rw [← fileText_eq]
          exact (admits.textAt apart member :)

/-! ## An empty workspace -/

/-- A workspace with nothing but an empty directory. -/
def emptyBuild : Workspace :=
  { tree := ⟨[(["build"], .directory)]⟩, directory := [], clock := 0, solver := [], printed := "" }

theorem opens_emptyBuild : emptyBuild.Opens "build" ["build"] := by
  constructor
  · decide
  · rfl
  · rfl

theorem not_isDirectory_emptyBuild (name : String) :
    emptyBuild.tree.isDirectory (["build"] ++ [name]) = false := by
  simp [Tree.isDirectory, Tree.lookup, Tree.lookupIn, emptyBuild]

/-- Every module that lowers is compiled there, if its name leads to no other directory and is not
too long. -/
theorem compiles_in_emptyBuild {m : Module} (lowers : m.Lowers) (slash : '/' ∉ m.name.toList)
    (compiler : Compiler) (directory : compiler.directory = "build")
    (fits : ∀ name ∈ compiler.fileNames m, Action.refusal? (Path.join "build" name) name = none) :
    ∃ own after, (compile m).runIn compiler emptyBuild =
      (.ok (compiler.fileNames m), own, after) := by
  have placed : ∀ file ∈ compiler.files m, ∃ location, emptyBuild.Places file.1 location := by
    intro file member
    obtain ⟨i, named, path⟩ := Compiler.exists_of_mem_files member
    rw [path, directory]
    exact ⟨_, opens_emptyBuild.places (plain_partName slash i) (fits _ named)
      (not_isDirectory_emptyBuild _)⟩
  obtain ⟨writes, admits⟩ := Workspace.exists_admits placed
  exact ⟨_, _, runIn_compile_of_admits lowers admits⟩

def givenModule (name : String) (vars : List Variable) (lines dependencies : List String) :
    Module :=
  { name
    vars
    constraints := lines.map fun line => { kind := .boolean, vars := [], expression := line }
    dependencies := some dependencies }

theorem lowerAll_given (name : String) (vars : List Variable) (lines dependencies : List String) :
    lowerAll (givenModule name vars lines dependencies).constraints =
      .ok (lines.map Line.given) := by
  unfold givenModule
  induction lines with
  | nil => rfl
  | cons line rest ih =>
      simp only at ih
      simp only [List.map_cons, lowerAll, lower, ih, Except.map, List.singleton_append]

theorem givenModule_lowers (name : String) (vars : List Variable)
    (lines dependencies : List String) :
    (givenModule name vars lines dependencies).Lowers :=
  ⟨_, lowerAll_given name vars lines dependencies⟩

theorem groups_given (compiler : Compiler) (name : String) (vars : List Variable)
    (lines dependencies : List String) :
    compiler.groups (givenModule name vars lines dependencies) = split compiler.limits lines := by
  have texts : (lines.map Line.given).map Line.text = lines := by
    rw [List.map_map]
    exact List.map_id lines
  rw [groups_of_lowered (lowerAll_given ..), texts]

end Zkvm.Circuit
