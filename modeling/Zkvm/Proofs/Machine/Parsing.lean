import Mathlib.Data.List.Nodup
import Zkvm.Machine.Program

/-!
# Names of operations and sources

The name of an operation is looked up in lower case, and no two operations have one name.  So a
source whose names are all known is parsed to the commands that are spelled like it, and any other
source is refused by its first unknown name.
-/
set_option autoImplicit false

namespace Zkvm.Machine

/-! ## Names of operations -/

namespace Opcode

theorem mem_all (opcode : Opcode) : opcode ∈ all := by
  cases opcode <;> decide

theorem nodup_names : (all.map name).Nodup := by
  decide +kernel

theorem name_inj {first second : Opcode} (same : first.name = second.name) : first = second :=
  List.inj_on_of_nodup_map nodup_names (mem_all first) (mem_all second) same

theorem name_of_ofName? {spelling : String} {opcode : Opcode}
    (found : ofName? spelling = some opcode) :
    opcode.name = spelling := by
  rw [ofName?] at found
  have named := List.find?_some found
  exact beq_iff_eq.mp named

theorem ofName?_eq_some_iff {spelling : String} {opcode : Opcode} :
    ofName? spelling = some opcode ↔ opcode.name = spelling := by
  refine ⟨name_of_ofName?, ?_⟩
  rintro rfl
  cases found : ofName? opcode.name with
  | none =>
      have missed := List.find?_eq_none.mp found opcode (mem_all opcode)
      simp at missed
  | some other => rw [name_inj (name_of_ofName? found)]

end Opcode

def Known (spelling : String) : Prop :=
  Text.lower spelling ∈ Opcode.all.map Opcode.name

instance (spelling : String) : Decidable (Known spelling) :=
  inferInstanceAs (Decidable (Text.lower spelling ∈ Opcode.all.map Opcode.name))

theorem known_iff {spelling : String} :
    Known spelling ↔ ∃ opcode, Opcode.ofSpelling? spelling = some opcode := by
  simp only [Known, List.mem_map, Opcode.ofSpelling?, Opcode.ofName?_eq_some_iff]
  exact ⟨fun ⟨opcode, _, named⟩ => ⟨opcode, named⟩,
    fun ⟨opcode, named⟩ => ⟨opcode, opcode.mem_all, named⟩⟩

theorem ofSpelling?_of_not_known {spelling : String} (unknown : ¬ Known spelling) :
    Opcode.ofSpelling? spelling = none := by
  rw [known_iff] at unknown
  exact Option.eq_none_iff_forall_ne_some.mpr fun opcode found => unknown ⟨opcode, found⟩

/-! ## Sources and commands -/

/-- The line of a source that spells a command. -/
def Command.line (command : Command) : String × List Int :=
  (command.opcode.name, command.args)

def lowered (line : String × List Int) : String × List Int :=
  (Text.lower line.1, line.2)

theorem line_inj {first second : Command} (same : first.line = second.line) : first = second := by
  obtain ⟨opcode, args⟩ := first
  obtain ⟨names, rfl⟩ := Prod.mk.inj same
  cases Opcode.name_inj names
  rfl

theorem ofSpelling?_eq_some_iff {line : String × List Int} {command : Command} :
    Opcode.ofSpelling? line.1 = some command.opcode ∧ line.2 = command.args ↔
      command.line = lowered line := by
  rw [Opcode.ofSpelling?, Opcode.ofName?_eq_some_iff, Command.line, lowered, Prod.mk.injEq,
    eq_comm (a := line.2)]

theorem parse_cons_known {line : String × List Int} {opcode : Opcode} (rest : Source)
    (found : Opcode.ofSpelling? line.1 = some opcode) :
    parse (line :: rest) = (parse rest).map (⟨opcode, line.2⟩ :: ·) := by
  obtain ⟨spelling, args⟩ := line
  simp only [parse, found]

/-- A source is parsed to the commands that are spelled like it. -/
theorem parse_eq_ok_iff {source : Source} {program : List Command} :
    parse source = .ok program ↔ program.map Command.line = source.map lowered := by
  induction source generalizing program with
  | nil =>
      rw [parse, Except.ok.injEq, List.map_nil, List.map_eq_nil_iff]
      exact eq_comm
  | cons line rest ih =>
      rw [List.map_cons, List.map_eq_cons_iff]
      constructor
      · intro parsed
        cases found : Opcode.ofSpelling? line.1 with
        | none =>
            obtain ⟨spelling, args⟩ := line
            simp [parse, found] at parsed
        | some opcode =>
            rw [parse_cons_known rest found] at parsed
            cases later : parse rest with
            | error unknown => simp [later, Except.map] at parsed
            | ok commands =>
                simp only [later, Except.map, Except.ok.injEq] at parsed
                subst parsed
                exact ⟨⟨opcode, line.2⟩, commands, rfl, ofSpelling?_eq_some_iff.mp ⟨found, rfl⟩,
                  ih.mp later⟩
      · rintro ⟨command, commands, rfl, spelled, later⟩
        obtain ⟨found, args⟩ := ofSpelling?_eq_some_iff.mpr spelled
        rw [parse_cons_known rest found, ih.mpr later, args]
        rfl

/-- Where all names are known there are commands that are spelled like the source. -/
theorem exists_program {source : Source} (known : ∀ line ∈ source, Known line.1) :
    ∃ program : List Command, program.map Command.line = source.map lowered := by
  induction source with
  | nil => exact ⟨[], rfl⟩
  | cons line rest ih =>
      obtain ⟨here, later⟩ := List.forall_mem_cons.mp known
      obtain ⟨opcode, found⟩ := known_iff.mp here
      obtain ⟨commands, spelled⟩ := ih later
      have first : Command.line ⟨opcode, line.2⟩ = lowered line :=
        ofSpelling?_eq_some_iff.mp ⟨found, rfl⟩
      exact ⟨⟨opcode, line.2⟩ :: commands, by rw [List.map_cons, List.map_cons, first, spelled]⟩

theorem parse_unknown {before rest : Source} {spelling : String} {args : List Int}
    (known : ∀ line ∈ before, Known line.1) (unknown : ¬ Known spelling) :
    parse (before ++ (spelling, args) :: rest) = .error ⟨spelling⟩ := by
  induction before with
  | nil => rw [List.nil_append, parse, ofSpelling?_of_not_known unknown]
  | cons line more ih =>
      obtain ⟨here, later⟩ := List.forall_mem_cons.mp known
      obtain ⟨opcode, found⟩ := known_iff.mp here
      rw [List.cons_append, parse_cons_known _ found, ih later]
      rfl

/-- A source whose names are not all known has a first unknown one. -/
theorem exists_first_unknown {source : Source} (unknown : ¬ ∀ line ∈ source, Known line.1) :
    ∃ before spelling args rest, source = before ++ (spelling, args) :: rest ∧
      (∀ line ∈ before, Known line.1) ∧ ¬ Known spelling := by
  induction source with
  | nil => exact absurd (List.forall_mem_nil _) unknown
  | cons line more ih =>
      obtain ⟨spelling, args⟩ := line
      by_cases here : Known spelling
      · have later : ¬ ∀ line ∈ more, Known line.1 :=
          fun all => unknown (List.forall_mem_cons.mpr ⟨here, all⟩)
        obtain ⟨before, other, others, rest, rfl, known, first⟩ := ih later
        exact ⟨(spelling, args) :: before, other, others, rest, rfl,
          List.forall_mem_cons.mpr ⟨here, known⟩, first⟩
      · exact ⟨[], spelling, args, more, rfl, List.forall_mem_nil _, here⟩

end Zkvm.Machine
