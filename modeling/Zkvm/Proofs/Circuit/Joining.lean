import Mathlib.Tactic.Choose
import Mathlib.Tactic.Tauto
import Zkvm.Proofs.Circuit.Grouping
import Zkvm.Proofs.Circuit.Legibility

/-!
# Joining parts

A part asks for its own lines together with the values of the inputs and a result.  An assignment
for all parts at once satisfies all lines of the module.  Assignments for the parts one by one do so
only if they can be joined: they have to agree on every name that lines of two parts mention.
-/
set_option autoImplicit false

namespace Zkvm.Circuit

open Formula (joinTexts Readable Mentions holdsText holdsText_congr holdsText_joinTexts)

/-! ## What a part demands -/

theorem holdsText_solveText {m : Module} {group : List String}
    (readable : ∀ line ∈ commonLines m ++ group, Readable line) (value : Assignment) :
    holdsText value (solveText m group) = true ↔ ∀ line ∈ commonLines m ++ group,
      holdsText value line = true := by
  have same : ∀ line, line ∈ inputLines m.vars ++ group ++ ["result=1"] ↔
      line ∈ commonLines m ++ group := by
    intro line
    simp only [commonLines, List.mem_append]
    tauto
  have all :=
    (holdsText_joinTexts (by simp) fun line member => readable line ((same line).mp member)).2 value
  rw [solveText, all, List.all_eq_true]
  exact forall_congr' fun line => imp_congr_left (same line)

/-! ## Names that parts share -/

/-- A line of the part with this number mentions the name. -/
def PartMentions (groups : List (List String)) (i : Nat) (name : String) : Prop :=
  ∃ group, groups[i]? = some group ∧ ∃ line ∈ group, Mentions line name

/-- What stands in every part leaves only one value for the name. -/
def Settled (m : Module) (name : String) : Prop :=
  ∃ bit, ∀ value, (∀ line ∈ commonLines m, holdsText value line = true) → value name = bit

/-- Assignments that agree where parts meet come from one. -/
theorem exists_joined {groups : List (List String)} {values : Nat → Assignment}
    (agree : ∀ i j name, PartMentions groups i name → PartMentions groups j name →
      values i name = values j name) :
    ∃ value, ∀ i group, groups[i]? = some group → ∀ line ∈ group,
      holdsText value line = holdsText (values i) line := by
  classical
  -- A name has the value that it has in some part that mentions it.
  refine ⟨fun name => if known : ∃ i, PartMentions groups i name then values known.choose name
    else false, ?_⟩
  intro i group there line member
  refine holdsText_congr fun name mentioned => ?_
  have here : PartMentions groups i name := ⟨group, there, line, member, mentioned⟩
  have known : ∃ i, PartMentions groups i name := ⟨i, here⟩
  rw [dif_pos known]
  exact agree known.choose i name known.choose_spec here

section Join
variable {m : Module} {compiler : Compiler} {lines : List Line}

theorem exists_part (lowered : lowerAll m.constraints = .ok lines) {line : String}
    (member : line ∈ lines.map Line.text) :
    ∃ (i : Nat) (group : List String), (compiler.groups m)[i]? = some group ∧ line ∈ group := by
  rw [← split_flatten compiler.limits (lines.map Line.text), ← groups_of_lowered lowered] at member
  obtain ⟨group, there, inside⟩ := List.mem_flatten.mp member
  obtain ⟨i, found⟩ := List.getElem?_of_mem there
  exact ⟨i, group, found, inside⟩

theorem mem_lines_of_part (lowered : lowerAll m.constraints = .ok lines) {i : Nat}
    {group : List String} (there : (compiler.groups m)[i]? = some group) :
    ∀ line ∈ group, line ∈ lines.map Line.text := by
  intro line inside
  rw [groups_of_lowered lowered] at there
  exact mem_of_mem_split (List.mem_of_getElem? there) inside

end Join

/-- The parts of a module, each with an assignment of its own, make the module satisfiable if the
assignments agree on what lines of different parts share, and so if everything shared is settled in
all parts. -/
theorem parts_joined {m : Module} (legible : m.Legible) {lines : List Line}
    (lowered : lowerAll m.constraints = .ok lines) {compiler own : Compiler} {w after : Workspace}
    {names : List String} (run : (compile m).runIn compiler w = (.ok names, own, after)) :
    (∀ clause, .clause clause ∈ lines → ∀ value, holdsText value clause.text = clause.holds value) ∧
    (∀ (i : Nat) (group : List String), (compiler.groups m)[i]? = some group →
      after.textAt (Path.join compiler.directory (partName m.name i)) =
        some (heading m i ++ "solve " ++ solveText m group ++ "\n\nquit") ∧
      ∀ value, holdsText value (solveText m group) = true ↔
        ∀ line ∈ commonLines m ++ group, holdsText value line = true) ∧
    (∀ value, (∀ line ∈ commonLines m ++ lines.map Line.text, holdsText value line = true) →
      ∀ (i : Nat) (group : List String), (compiler.groups m)[i]? = some group →
        holdsText value (solveText m group) = true) ∧
    (∀ values : Nat → Assignment,
      (∀ (i : Nat) (group : List String), (compiler.groups m)[i]? = some group →
        holdsText (values i) (solveText m group) = true) →
      (∀ i j name, i ≠ j → PartMentions (compiler.groups m) i name →
        PartMentions (compiler.groups m) j name →
        values i name = values j name) →
      ∃ value, ∀ line ∈ lines.map Line.text, holdsText value line = true) ∧
    ((∀ (i : Nat) (group : List String), (compiler.groups m)[i]? = some group →
        ∃ value, holdsText value (solveText m group) = true) →
      (∀ i j name, i ≠ j → PartMentions (compiler.groups m) i name →
        PartMentions (compiler.groups m) j name →
        Settled m name) →
      ∃ value, ∀ line ∈ lines.map Line.text, holdsText value line = true) := by
  have readable := legible.readable lowered
  have demands (i : Nat) (group : List String) (there : (compiler.groups m)[i]? = some group)
      (value : Assignment) :
      holdsText value (solveText m group) = true ↔ ∀ line ∈ commonLines m ++ group,
        holdsText value line = true := by
    refine holdsText_solveText (fun line member => readable line ?_) value
    rw [List.mem_append] at member ⊢
    exact member.imp_right (mem_lines_of_part lowered there line)
  have joins (values : Nat → Assignment)
      (satisfied : ∀ (i : Nat) (group : List String), (compiler.groups m)[i]? = some group →
        holdsText (values i) (solveText m group) = true)
      (agree : ∀ i j name, i ≠ j → PartMentions (compiler.groups m) i name →
        PartMentions (compiler.groups m) j name → values i name = values j name) :
      ∃ value, ∀ line ∈ lines.map Line.text, holdsText value line = true := by
    have meet (i j : Nat) (name : String) (here : PartMentions (compiler.groups m) i name)
        (there : PartMentions (compiler.groups m) j name) : values i name = values j name := by
      by_cases same : i = j
      · rw [same]
      · exact agree i j name same here there
    obtain ⟨value, joined⟩ := exists_joined meet
    refine ⟨value, fun line member => ?_⟩
    obtain ⟨i, group, there, inside⟩ := exists_part lowered member
    rw [joined i group there line inside]
    exact (demands i group there (values i)).mp (satisfied i group there) line
      (List.mem_append_right _ inside)
  refine ⟨fun clause member value => legible.holdsText_clause lowered member value,
    fun i group there => ⟨textAt_of_compile run there, demands i group there⟩,
    fun value all i group there => ?_, joins, fun satisfiable settled => ?_⟩
  · refine (demands i group there value).mpr fun line member => all line ?_
    rw [List.mem_append] at member ⊢
    exact member.imp_right (mem_lines_of_part lowered there line)
  · have chosen (i : Nat) : ∃ value, ∀ group, (compiler.groups m)[i]? = some group →
        holdsText value (solveText m group) = true := by
      cases there : (compiler.groups m)[i]? with
      | none => exact ⟨fun _ => false, fun group found => nomatch found⟩
      | some group =>
          obtain ⟨value, holds⟩ := satisfiable i group there
          exact ⟨value, fun other found => Option.some.inj found ▸ holds⟩
    choose values satisfied using chosen
    refine joins values satisfied fun i j name differ here there => ?_
    obtain ⟨bit, only⟩ := settled i j name differ here there
    have settles (k : Nat) (mentions : PartMentions (compiler.groups m) k name) :
        values k name = bit := by
      obtain ⟨group, found, _⟩ := mentions
      refine only (values k) fun line member => ?_
      exact (demands k group found (values k)).mp (satisfied k group found) line
        (List.mem_append_left _ member)
    rw [settles i here, settles j there]

def sharingModule : Module :=
  givenModule "m" [{ name := "a", width := 2, isInput := true }] ["x=(a0&a1)", "y=(a0|a1)"] []

/-- A compiler that puts every line of it into a file of its own. -/
def narrowCompiler : Compiler :=
  { directory := "build", limits := { maxLength := 20 } }

theorem groups_sharingModule :
    narrowCompiler.groups sharingModule = [["x=(a0&a1)"], ["y=(a0|a1)"]] := by
  rw [sharingModule, groups_given]
  decide

theorem settled_sharingModule {name : String} (here : Mentions "x=(a0&a1)" name)
    (there : Mentions "y=(a0|a1)" name) :
    Settled sharingModule name := by
  obtain ⟨first, done, member⟩ := here
  obtain ⟨second, doneToo, memberToo⟩ := there
  cases done
  cases doneToo
  have input : name = "a0" ∨ name = "a1" := by
    have mine : name ∈ ["x", "a0", "a1"] := member
    have yours : name ∈ ["y", "a0", "a1"] := memberToo
    simp only [List.mem_cons, List.not_mem_nil, or_false] at mine yours
    rcases mine with rfl | bit
    · exact absurd yours (by decide)
    · exact bit
  rcases input with rfl | rfl
  · refine ⟨false, fun value all => ?_⟩
    have zero : (!(value "a0" ^^ false)) = true := all "a0=0" (by decide)
    simpa using zero
  · refine ⟨true, fun value all => ?_⟩
    have one : (!(value "a1" ^^ true)) = true := all "a1=1" (by decide)
    simpa using one

theorem mentions_sharingModule {i : Nat} {name : String}
    (mentions : PartMentions [["x=(a0&a1)"], ["y=(a0|a1)"]] i name) :
    i = 0 ∧ Mentions "x=(a0&a1)" name ∨ i = 1 ∧ Mentions "y=(a0|a1)" name := by
  obtain ⟨group, found, line, member, there⟩ := mentions
  obtain _ | _ | _ := i
  · cases found
    exact Or.inl ⟨rfl, List.mem_singleton.mp member ▸ there⟩
  · cases found
    exact Or.inr ⟨rfl, List.mem_singleton.mp member ▸ there⟩
  · cases found

/-- Its two files are satisfiable, and so are its two lines together. -/
theorem parts_joined_sharing :
    ∃ own after, (compile sharingModule).runIn narrowCompiler emptyBuild =
        (.ok ["m_part0.tau", "m_part1.tau"], own, after) ∧
      ∃ value, ∀ line ∈ ["x=(a0&a1)", "y=(a0|a1)"], holdsText value line = true := by
  have lowered :
      lowerAll sharingModule.constraints = .ok (["x=(a0&a1)", "y=(a0|a1)"].map Line.given) :=
    lowerAll_given ..
  have names : narrowCompiler.fileNames sharingModule = ["m_part0.tau", "m_part1.tau"] := by
    rw [Compiler.fileNames, groups_sharingModule]
    decide
  have legible : sharingModule.Legible := by
    constructor
    · decide
    · exact List.forall_mem_map.mpr (by decide : ∀ line ∈ ["x=(a0&a1)", "y=(a0|a1)"], Readable line)
  obtain ⟨own, after, run⟩ := compiles_in_emptyBuild ⟨_, lowered⟩ (by decide) narrowCompiler rfl
    (names ▸ by decide)
  obtain ⟨_, _, _, _, joined⟩ := parts_joined legible lowered run
  rw [groups_sharingModule] at joined
  refine ⟨own, after, names ▸ run,
    joined (fun i group found => ?_) fun i j name differ here there => ?_⟩
  · refine ⟨fun name => name ∈ ["a1", "y", "result"], ?_⟩
    obtain _ | _ | _ := i
    · cases found
      decide
    · cases found
      decide
    · cases found
  · rcases mentions_sharingModule here with ⟨rfl, first⟩ | ⟨rfl, second⟩ <;>
      rcases mentions_sharingModule there with ⟨rfl, other⟩ | ⟨rfl, other⟩
    · exact absurd rfl differ
    · exact settled_sharingModule first other
    · exact settled_sharingModule other second
    · exact absurd rfl differ

def longLine (count : Nat) : String :=
  String.ofList (List.replicate (count + 1) 'y')

theorem longLine_length (count : Nat) : (longLine count).length = count + 1 := by
  rw [longLine, String.length_ofList, List.length_replicate]

theorem read_longLine (count : Nat) :
    Formula.read (longLine count) = some (.var (longLine count)) := by
  have named : Formula.IsName (longLine count) := by
    constructor
    · rw [longLine, String.toList_ofList, List.replicate_succ]
      rfl
    · intro c member
      rw [longLine, String.toList_ofList] at member
      rw [List.eq_of_mem_replicate member]
      rfl
  exact (Formula.read_text (.var named) :)

/-- A module with two lines that contradict each other, and one between them that fills a file. -/
def seamModule : Module :=
  givenModule "m" [] ["x=0", longLine 693, "x=1"] []

theorem split_around_long {line : String} (long : 693 < line.length) :
    split {} ["x=0", line, "x=1"] = [["x=0"], [line], ["x=1"]] := by
  have before : (700 : Int) < ("x=0".length + 4 + line.length + 4 : Nat) := by
    have short : ("x=0" : String).length = 3 := rfl
    omega
  have after : (700 : Int) < (line.length + "x=1".length + 4 : Nat) := by
    have short : ("x=1" : String).length = 3 := rfl
    omega
  rw [split, pack_long before, pack_long after]
  rfl

theorem groups_seamModule :
    Compiler.groups { directory := "build" } seamModule = [["x=0"], [longLine 693], ["x=1"]] := by
  have long : 693 < (longLine 693).length := by
    rw [longLine_length]
    decide
  rw [seamModule, groups_given, split_around_long long]

theorem satisfiable_seamModule {count : Nat} {group : List String}
    (member : group ∈ [["x=0"], [longLine count], ["x=1"]]) :
    ∃ value, holdsText value (solveText seamModule group) = true := by
  simp only [List.mem_cons, List.not_mem_nil, or_false] at member
  rcases member with rfl | rfl | rfl
  · exact ⟨fun name => name = "result", by decide⟩
  · have readable : ∀ line ∈ commonLines seamModule ++ [longLine count], Readable line :=
      List.forall_mem_append.mpr ⟨by decide, List.forall_mem_singleton.mpr ⟨_, read_longLine count⟩⟩
    refine ⟨fun _ => true, (holdsText_solveText readable _).mpr ?_⟩
    exact List.forall_mem_append.mpr ⟨by decide,
      List.forall_mem_singleton.mpr (Formula.holdsText_eq (read_longLine count) _)⟩
  · exact ⟨fun _ => true, by decide⟩

/-- Each of the three files is satisfiable, but the lines are not satisfiable together. -/
theorem seamModule_parts_satisfiable :
    ∃ own after, (compile seamModule).runIn { directory := "build" } emptyBuild =
        (.ok ["m_part0.tau", "m_part1.tau", "m_part2.tau"], own, after) ∧
      (∀ (i : Nat) (group : List String), [["x=0"], [longLine 693], ["x=1"]][i]? = some group →
        after.textAt (Path.join "build" (partName "m" i)) =
          some (heading seamModule i ++ "solve " ++ solveText seamModule group ++ "\n\nquit") ∧
        ∃ value, holdsText value (solveText seamModule group) = true) ∧
      ¬ ∃ value, ∀ line ∈ ["x=0", longLine 693, "x=1"], holdsText value line = true := by
  have lowers : seamModule.Lowers := givenModule_lowers ..
  have names : Compiler.fileNames { directory := "build" } seamModule =
      ["m_part0.tau", "m_part1.tau", "m_part2.tau"] := by
    rw [Compiler.fileNames, groups_seamModule]
    decide
  obtain ⟨own, after, run⟩ := compiles_in_emptyBuild lowers (by decide) { directory := "build" } rfl
    (names ▸ by decide)
  refine ⟨own, after, names ▸ run, fun i group there => ⟨?_, ?_⟩, ?_⟩
  · rw [← groups_seamModule] at there
    exact textAt_of_compile run there
  · exact satisfiable_seamModule (List.mem_of_getElem? there)
  · rintro ⟨value, all⟩
    have low : (!(value "x" ^^ false)) = true := all "x=0" (by simp)
    have high : (!(value "x" ^^ true)) = true := all "x=1" (by simp)
    cases bit : value "x" <;> simp [bit] at low high

end Zkvm.Circuit
