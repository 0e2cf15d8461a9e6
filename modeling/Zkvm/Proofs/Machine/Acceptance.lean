import Mathlib.Data.List.Basic
import Zkvm.Machine.Validator
import Zkvm.Proofs.Workspace.Paths

/-!
# What an accepted operation was checked against

An operation is accepted only on answers of the solver: an operation on words needs a solution for
each of its own files that is there, one for each nibble and the one that joins them, and any other
operation needs one for the first file of its directory.  The other files of the directory are not
asked about.
-/
set_option autoImplicit false

namespace Zkvm.Machine.ConstraintSource

/-- The solver ends with code zero on a file and mentions a solution. -/
def Solves (source : ConstraintSource) (path : String) : Prop :=
  ∃ out err, source.solver.answer path = .ran 0 out err ∧ Text.mentions out "solution" = true

def Accepts (source : ConstraintSource) (opcode : Opcode) (inputs outputs : List Int) : Prop :=
  ∃ warnings, source.validate opcode inputs outputs = .ok (true, warnings)

/-- The names of the files that an operation on words is checked against, whether they are there or
not. -/
def wordNames (opcode : Opcode) : List String :=
  (List.range 8).map (fun i => s!"{opcode.name}_nibble_{i}.tau") ++
    [s!"{opcode.name}_aggregator.tau"]

def wordPaths (opcode : Opcode) : List String :=
  (wordNames opcode).map (Path.under (folder opcode))

/-- The solver solves the files that an operation is checked against: for an operation on words
those of its files that are there, for any other the first constraint file of its directory, which
must have one. -/
def SolvesChecked (source : ConstraintSource) (opcode : Opcode) : Prop :=
  if opcode.isWordwise = true then
    ∀ path ∈ wordPaths opcode, (source.node? path).isSome = true → source.Solves path
  else ∃ first rest, source.folderFiles (folder opcode) = first :: rest ∧ source.Solves first

section Checks
variable (source : ConstraintSource) (inputs outputs : List Int)

theorem solved_iff (path : String) :
    (source.solver.answer path).solved = true ↔ source.Solves path := by
  rw [Solves]
  cases source.solver.answer path with
  | ran code out err => simp [Answer.solved]
  | timedOut command => simp [Answer.solved]
  | failed reason => simp [Answer.solved]

instance (path : String) : Decidable (source.Solves path) :=
  decidable_of_iff _ (source.solved_iff path)

theorem checkFile_verdict (path : String) (nibble : Option Nat) :
    (source.checkFile path inputs outputs nibble).1 = true ↔ source.Solves path := by
  rw [← source.solved_iff, checkFile]
  cases source.solver.answer path with
  | ran code out err => rfl
  | timedOut command => rfl
  | failed reason => rfl

theorem checkFiles_verdict (files : List (String × Option Nat)) :
    (source.checkFiles inputs outputs files).1 = true ↔ ∀ file ∈ files, source.Solves file.1 := by
  induction files with
  | nil => exact ⟨fun _ => List.forall_mem_nil _, fun _ => rfl⟩
  | cons file rest ih =>
      obtain ⟨path, nibble⟩ := file
      rw [List.forall_mem_cons, ← ih, checkFiles,
        ← source.checkFile_verdict inputs outputs path nibble]
      rcases source.checkFile path inputs outputs nibble with ⟨verdict, warnings⟩
      cases verdict with
      | true => exact (and_iff_right rfl).symm
      | false => exact iff_of_false Bool.false_ne_true fun both => absurd both.1 Bool.false_ne_true

theorem checkWord_verdict (opcode : Opcode) :
    (source.checkWord (folder opcode) opcode inputs outputs).1 = true ↔
      ∀ path ∈ wordPaths opcode, (source.node? path).isSome = true → source.Solves path := by
  rw [checkWord, checkFiles_verdict, wordFiles]
  simp only [List.mem_filter, wordPaths, wordNames, List.mem_append, List.mem_map,
    List.mem_singleton]
  constructor
  · rintro solved path ⟨name, ⟨i, inside, rfl⟩ | rfl, rfl⟩ present
    · exact solved (_, some i) ⟨Or.inl ⟨i, inside, rfl⟩, present⟩
    · exact solved (_, none) ⟨Or.inr rfl, present⟩
  · rintro solved file ⟨⟨i, inside, rfl⟩ | rfl, present⟩
    · exact solved _ ⟨_, Or.inl ⟨i, inside, rfl⟩, rfl⟩ present
    · exact solved _ ⟨_, Or.inr rfl, rfl⟩ present

end Checks

section Accepted
variable (source : ConstraintSource) (opcode : Opcode) (inputs outputs : List Int)

theorem ok_iff {verdict : Bool × List String} :
    (∃ warnings, (.ok verdict : Except NoVerdict (Bool × List String)) = .ok (true, warnings)) ↔
      verdict.1 = true := by
  obtain ⟨accepted, warnings⟩ := verdict
  simp

/-- The first file of a directory is asked about, and there must be one. -/
theorem checkFirst_verdict :
    (∃ warnings, source.checkFirst (folder opcode) opcode inputs outputs = .ok (true, warnings)) ↔
      ∃ first rest, source.folderFiles (folder opcode) = first :: rest ∧ source.Solves first := by
  rw [checkFirst]
  cases files : source.folderFiles (folder opcode) with
  | nil => simp
  | cons first rest =>
      rw [ok_iff, checkFile_verdict]
      simp

theorem accepts_iff :
    source.Accepts opcode inputs outputs ↔
      (source.node? (folder opcode)).isSome = true ∧ source.SolvesChecked opcode := by
  rw [Accepts, validate, SolvesChecked]
  cases source.node? (folder opcode) with
  | none => simp
  | some node =>
      rw [if_neg (by simp), and_iff_right Option.isSome_some]
      split
      · rw [ok_iff, checkWord_verdict]
      · exact source.checkFirst_verdict opcode inputs outputs

/-- An operation is accepted only if its directory is there and the solver ended with code zero and
mentioned a solution on all files that the operation is checked against.  If this is so it is
accepted, provided that at least one of the files of an operation on words is there. -/
theorem accepted_on_solutions :
    (source.Accepts opcode inputs outputs →
      (source.node? (folder opcode)).isSome = true ∧ source.SolvesChecked opcode) ∧
    ((source.node? (folder opcode)).isSome = true → source.SolvesChecked opcode →
      (opcode.isWordwise = true → ∃ path ∈ wordPaths opcode, (source.node? path).isSome = true) →
      source.Accepts opcode inputs outputs) := by
  rw [accepts_iff]
  exact ⟨fun accepted => accepted, fun present solved _ => ⟨present, solved⟩⟩

end Accepted

/-- A solver that knows files by their names alone answers by the name on a file of any
directory. -/
theorem answer_under {solver : Solver} {directory name : String}
    (names : ∀ known ∈ solver, Path.lastPart known.1 = known.1) (plain : Path.Plain name)
    (named : directory ≠ "") (relative : Path.isAbsolute directory = false) :
    solver.answer (Path.under directory name) =
      ((solver.lookup name).or (solver.lookup "*")).getD (.ran 1 "" "") := by
  have last := Path.lastPart_under plain named relative
  rw [Solver.answer, last]
  cases found : solver.lookup (Path.under directory name) with
  | none => rw [Option.none_or]
  | some answer =>
      obtain ⟨before, after, split, -⟩ := List.lookup_eq_some_iff.mp found
      have known := names (_, answer) (split ▸ List.mem_append_cons_self)
      rw [← last, known, found]
      rfl

section Unasked

/-- Files with two names are refused, and all others are solved. -/
def pickySolver : Solver :=
  [("carry_0_to_1.tau", .ran 1 "" ""), ("q.tau", .ran 1 "" ""), ("*", .ran 0 "solution" "")]

def place (opcode : Opcode) : Location :=
  ["compiler", "build", "zkvm_100_percent", opcode.name]

def holding (opcode : Opcode) (files : List String) : ConstraintSource where
  tree := ⟨[(["compiler"], .directory), (["compiler", "build"], .directory),
    (["compiler", "build", "zkvm_100_percent"], .directory), (place opcode, .directory)] ++
    files.map fun file => (place opcode ++ [file], .file "solve x=1")⟩
  directory := ["runtime"]
  solver := pickySolver

/-- The path to the directory of an operation, taken apart. -/
structure Leads (opcode : Opcode) : Prop where
  named : folder opcode ≠ ""
  relative : Path.isAbsolute (folder opcode) = false
  way : Path.parts (folder opcode) = ".." :: place opcode
  inside : opcode.name ≠ ".."

theorem leads_add : Leads .add :=
  ⟨by decide +kernel, by decide +kernel, by decide +kernel, by decide⟩

theorem leads_push : Leads .push :=
  ⟨by decide +kernel, by decide +kernel, by decide +kernel, by decide⟩

variable {opcode : Opcode} (leads : Leads opcode) (files : List String)
include leads

theorem resolve_holding :
    (holding opcode files).tree.resolve (holding opcode files).directory (folder opcode) =
      .ok (place opcode) := by
  rw [Tree.resolve, leads.relative, leads.way]
  simp [holding, place, Tree.follow, Tree.lookup, Tree.lookupIn, leads.inside]

theorem node?_holding : ((holding opcode files).node? (folder opcode)).isSome = true := by
  rw [node?, resolve_holding leads]
  simp [holding, place, Tree.lookup, Tree.lookupIn]

theorem folderFiles_holding :
    (holding opcode files).folderFiles (folder opcode) =
      (files.filter (Text.hasSuffix ".tau")).map (Path.under (folder opcode)) := by
  have child : ∀ file, Tree.childName? (place opcode) (place opcode ++ [file]) = some file := by
    intro file
    rw [Tree.childName?, List.getLast?_concat]
    exact if_pos rfl
  have listed : (holding opcode files).tree.children (place opcode) = files := by
    rw [Tree.children, holding, List.filterMap_append, List.filterMap_map]
    simp only [Function.comp_def, child, List.filterMap_some]
    simp [Tree.childName?, place]
  rw [folderFiles, resolve_holding leads]
  simp only [listed]

theorem solves_holding_iff {name : String} (plain : Path.Plain name) :
    (holding opcode files).Solves (Path.under (folder opcode) name) ↔
      name ≠ "carry_0_to_1.tau" ∧ name ≠ "q.tau" := by
  have names : ∀ known ∈ pickySolver, Path.lastPart known.1 = known.1 := by decide +kernel
  have byName : ((pickySolver.lookup name).or (pickySolver.lookup "*")).getD (.ran 1 "" "") =
      if name = "carry_0_to_1.tau" ∨ name = "q.tau" then .ran 1 "" ""
      else .ran 0 "solution" "" := by
    simp only [pickySolver, List.lookup_cons]
    grind
  rw [← solved_iff, holding, answer_under names plain leads.named leads.relative, byName, ← not_or]
  split
  case isTrue refused => exact iff_of_false (by decide) (not_not_intro refused)
  case isFalse allowed => exact iff_of_true (by decide) allowed

end Unasked

/-- Files that were not asked about do not stand against an operation: here the link between two
nibbles of a sum, the second file of a push, and all files of a sum, of which there is none. -/
theorem accepted_beside_unsolved :
    let sum := holding .add ["add_nibble_0.tau", "carry_0_to_1.tau"]
    let push := holding .push ["p.tau", "q.tau"]
    let empty := holding .add []
    (sum.Accepts .add [1, 2] [3] ∧ ∃ path ∈ sum.folderFiles (folder .add), ¬ sum.Solves path) ∧
    (push.Accepts .push [] [7] ∧ ∃ path ∈ push.folderFiles (folder .push), ¬ push.Solves path) ∧
    empty.Accepts .add [1, 2] [3] ∧ empty.folderFiles (folder .add) = [] := by
  intro sum push empty
  have spelled : ∀ name ∈ wordNames .add ++ ["carry_0_to_1.tau", "p.tau", "q.tau"],
      '/' ∉ name.toList ∧ name ≠ "" ∧ name ≠ "." ∧ name ≠ ".." := by
    decide +kernel
  have plain :
      ∀ name ∈ wordNames .add ++ ["carry_0_to_1.tau", "p.tau", "q.tau"], Path.Plain name := by
    intro name member
    obtain ⟨slash, nonempty, here, up⟩ := spelled name member
    exact ⟨slash, nonempty, here, up⟩
  have acceptsAdd : ∀ files, (holding .add files).Accepts .add [1, 2] [3] := by
    intro files
    have allowed : ∀ name ∈ wordNames .add, name ≠ "carry_0_to_1.tau" ∧ name ≠ "q.tau" := by
      decide +kernel
    rw [accepts_iff, SolvesChecked, if_pos (by decide), wordPaths, List.forall_mem_map]
    refine ⟨node?_holding leads_add files, fun name member _ => ?_⟩
    exact (solves_holding_iff leads_add files (plain name (List.mem_append_left _ member))).mpr
      (allowed name member)
  have sumFiles : sum.folderFiles (folder .add) =
      [Path.under (folder .add) "add_nibble_0.tau", Path.under (folder .add) "carry_0_to_1.tau"] :=
    folderFiles_holding leads_add _
  have pushFiles : push.folderFiles (folder .push) =
      [Path.under (folder .push) "p.tau", Path.under (folder .push) "q.tau"] :=
    folderFiles_holding leads_push _
  have acceptsPush : push.Accepts .push [] [7] := by
    rw [accepts_iff, SolvesChecked, if_neg (by decide)]
    refine ⟨node?_holding leads_push _, _, _, pushFiles, ?_⟩
    exact (solves_holding_iff leads_push _ (plain "p.tau" (by simp))).mpr (by decide)
  have linkRefused : ¬ sum.Solves (Path.under (folder .add) "carry_0_to_1.tau") := by
    rw [solves_holding_iff leads_add _ (plain _ (by simp))]
    decide
  have secondRefused : ¬ push.Solves (Path.under (folder .push) "q.tau") := by
    rw [solves_holding_iff leads_push _ (plain _ (by simp))]
    decide
  refine ⟨⟨acceptsAdd _, _, ?_, linkRefused⟩, ⟨acceptsPush, _, ?_, secondRefused⟩, acceptsAdd _,
    folderFiles_holding leads_add _⟩
  · simp [sumFiles]
  · simp [pushFiles]

end Zkvm.Machine.ConstraintSource
