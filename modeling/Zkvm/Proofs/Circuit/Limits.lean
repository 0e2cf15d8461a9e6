import Mathlib.Data.List.Perm.Subperm
import Zkvm.Proofs.Circuit.Grouping
import Zkvm.Proofs.Circuit.Parts
import Zkvm.Proofs.Formula.Reading
import Zkvm.Proofs.Formula.Row

/-!
# Sizes of files

The lines that share a file are within the limits, as far as they are counted.  What stands in every
file besides them, the values of the inputs and the demand for a result, is not counted, and a name
is counted only up to its first underscore.
-/
set_option autoImplicit false

namespace Zkvm.Circuit

open Formula (joinTexts isWordSign runs beginsName exists_runs variableNames mem_variableNames
  nodup_variableNames mem_variableNames_joinTexts)

/-! ## Variables that are counted -/

/-- Without underscores, every run that begins like a name is counted, and so is one that has begun
before. -/
theorem mem_scanNames {letters : List Char} (free : '_' ∉ letters) {first : List Char}
    {rest : List (List Char)} (shape : runs letters = first :: rest) :
    (∀ run ∈ first :: rest, beginsName run = true → String.ofList run ∈ scanNames [] letters) ∧
      ∀ c begun, String.ofList ((c :: begun).reverse ++ first) ∈ scanNames (c :: begun) letters ∧
        ∀ run ∈ rest, beginsName run = true →
          String.ofList run ∈ scanNames (c :: begun) letters := by
  -- The second half carries the induction: a name goes on through the first run of what follows.
  induction letters generalizing first rest with
  | nil =>
      cases shape
      simp [scanNames, beginsName]
  | cons c letters ih =>
      rw [List.mem_cons, not_or] at free
      obtain ⟨next, more, later⟩ := exists_runs letters
      obtain ⟨fresh, going⟩ := ih free.2 later
      rw [runs, later] at shape
      have sign : isWordSign c = (isLetter c || isDigit c) := by
        simp [isWordSign, Ne.symm free.1]
      cases word : isWordSign c with
      | false =>
          rw [word, if_neg Bool.false_ne_true] at shape
          obtain ⟨rfl, rfl⟩ := List.cons.inj shape
          rw [word] at sign
          have letter : isLetter c = false := (Bool.or_eq_false_iff.mp sign.symm).1
          constructor
          · intro run member begins
            rw [scanNames, letter, if_neg Bool.false_ne_true]
            rcases List.mem_cons.mp member with rfl | there
            · cases begins
            · exact fresh run there begins
          · intro d begun
            rw [scanNames, ← sign, if_neg Bool.false_ne_true, List.append_nil]
            · exact ⟨List.mem_cons_self ..,
                fun run there begins => List.mem_cons_of_mem _ (fresh run there begins)⟩
            · simp
      | true =>
          rw [word, if_pos rfl] at shape
          obtain ⟨rfl, rfl⟩ := List.cons.inj shape
          rw [word] at sign
          constructor
          · intro run member begins
            rw [scanNames]
            cases letter : isLetter c with
            | true =>
                rw [if_pos rfl]
                rcases List.mem_cons.mp member with rfl | there
                · exact (going c []).1
                · exact (going c []).2 run there begins
            | false =>
                rw [if_neg Bool.false_ne_true]
                rcases List.mem_cons.mp member with rfl | there
                · simp [beginsName, letter, Ne.symm free.1] at begins
                · exact fresh run (List.mem_cons_of_mem _ there) begins
          · intro d begun
            rw [scanNames, ← sign, if_pos rfl]
            · have := going c (d :: begun)
              rw [List.reverse_cons, List.append_assoc, List.singleton_append] at this
              exact this
            · simp

theorem mem_namesIn {text name : String} (free : '_' ∉ text.toList)
    (member : name ∈ variableNames text) :
    name ∈ namesIn text := by
  obtain ⟨run, there, begins, rfl⟩ := mem_variableNames.mp member
  obtain ⟨first, rest, shape⟩ := exists_runs text.toList
  rw [shape] at there
  exact mem_newOnes.mpr ⟨(mem_scanNames free shape).1 run there begins, by simp⟩

/-! ## What a file asks -/

theorem length_joinTexts {texts : List String} (filled : texts ≠ []) :
    (joinTexts texts).length + 4 = (texts.map fun text => text.length + 4).sum :=
  Text.length_intercalate " && " filled

theorem length_solveText (m : Module) {lines : List String} (filled : lines ≠ []) :
    (solveText m lines).length = (joinTexts (commonLines m)).length + 4 +
      (joinTexts lines).length := by
  have whole := length_joinTexts (by simp : inputLines m.vars ++ lines ++ ["result=1"] ≠ [])
  have common := length_joinTexts (by simp [commonLines] : commonLines m ≠ [])
  have part := length_joinTexts filled
  simp only [commonLines, List.map_append, List.sum_append] at whole common part
  rw [solveText, commonLines]
  omega

theorem mem_variableNames_solveText {m : Module} {lines : List String} {name : String} :
    name ∈ variableNames (solveText m lines) ↔
      name ∈ variableNames (joinTexts (commonLines m)) ∨ ∃ line ∈ lines,
        name ∈ variableNames line := by
  simp only [solveText, commonLines, mem_variableNames_joinTexts, List.mem_append]
  constructor
  · rintro ⟨text, (input | line) | result, named⟩
    · exact Or.inl ⟨text, Or.inl input, named⟩
    · exact Or.inr ⟨text, line, named⟩
    · exact Or.inl ⟨text, Or.inr result, named⟩
  · rintro (⟨text, input | result, named⟩ | ⟨text, line, named⟩)
    · exact ⟨text, Or.inl (Or.inl input), named⟩
    · exact ⟨text, Or.inr result, named⟩
    · exact ⟨text, Or.inl (Or.inr line), named⟩

/-! ## Bounds -/

def countedNames (lines : List String) : List String :=
  (lines.flatMap namesIn).dedup

section Bounds
variable {limits : Limits} {lines group : List String}

/-- The lines of a file are no longer than the limit, with what joins them. -/
theorem length_le_of_mem_split (short : ∀ line ∈ lines, (line.length : Int) ≤ limits.maxLength)
    (member : group ∈ split limits lines) :
    ((joinTexts group).length : Int) ≤ limits.maxLength := by
  obtain ⟨filled, rfl, counts, fits | ⟨line, alone⟩⟩ := counts_of_mem_split member
  · have counted := counts.length
    simp only [Group.fits, Bool.and_eq_true, decide_eq_true_eq] at fits
    omega
  · rw [alone, joinTexts, String.intercalate_singleton]
    refine short line (mem_of_mem_split member ?_)
    rw [alone]
    exact List.mem_singleton_self line

theorem countedNames_le_of_mem_split (member : group ∈ split limits lines)
    (several : 2 ≤ group.length) :
    ((countedNames group).length : Int) ≤ limits.maxNames := by
  obtain ⟨filled, rfl, counts, fits | ⟨line, alone⟩⟩ := counts_of_mem_split member
  · simp only [Group.fits, Bool.and_eq_true, decide_eq_true_eq] at fits
    have among : countedNames filled.lines ⊆ filled.names := by
      intro name named
      obtain ⟨line, there, here⟩ := List.mem_flatMap.mp (List.mem_dedup.mp named)
      exact counts.names line there name here
    have distinct : (countedNames filled.lines).Nodup := List.nodup_dedup _
    have fewer := (List.subperm_of_subset distinct among).length_le
    omega
  · rw [alone] at several
    simp at several

/-- Without underscores no more variables share a file than the limit allows, beside those of every
file. -/
theorem variableNames_le_of_mem_split (m : Module)
    (few : ∀ line ∈ lines, ((variableNames line).length : Int) ≤ limits.maxNames)
    (member : group ∈ split limits lines) (free : ∀ line ∈ group, '_' ∉ line.toList) :
    ((variableNames (solveText m group)).length : Int) ≤
      limits.maxNames + (variableNames (joinTexts (commonLines m))).length := by
  -- A line by itself is bounded by its own variables, since no limit was applied to it.
  have bound : ∃ own : List String, (own.length : Int) ≤ limits.maxNames ∧
      ∀ line ∈ group, ∀ name ∈ variableNames line, name ∈ own := by
    by_cases several : 2 ≤ group.length
    · refine ⟨countedNames group, countedNames_le_of_mem_split member several,
        fun line there name named => ?_⟩
      exact List.mem_dedup.mpr
        (List.mem_flatMap.mpr ⟨line, there, mem_namesIn (free line there) named⟩)
    · obtain ⟨line, rfl⟩ : ∃ line, group = [line] := by
        apply List.length_eq_one_iff.mp
        have := List.length_pos_iff.mpr (ne_nil_of_mem_split member)
        omega
      have short := few line (mem_of_mem_split member (List.mem_singleton_self line))
      refine ⟨variableNames line, short, fun other there name named => ?_⟩
      rwa [List.mem_singleton.mp there] at named
  obtain ⟨own, small, covers⟩ := bound
  have among :
      variableNames (solveText m group) ⊆ own ++ variableNames (joinTexts (commonLines m)) := by
    intro name named
    rw [List.mem_append]
    rcases mem_variableNames_solveText.mp named with common | ⟨line, there, here⟩
    · exact Or.inr common
    · exact Or.inl (covers line there name here)
  have fewer := (List.subperm_of_subset (nodup_variableNames _) among).length_le
  rw [List.length_append] at fewer
  omega

end Bounds

/-- A module whose lines are each within the limits is written to files that go beyond them at most
by what every file has, and in the number of variables also by variables with underscores. -/
theorem compiled_sizes {m : Module} {lines : List Line}
    (lowered : lowerAll m.constraints = .ok lines) {compiler own : Compiler} {w after : Workspace}
    {names : List String}
    (small : ∀ line ∈ lines.map Line.text, (line.length : Int) ≤ compiler.limits.maxLength ∧
      ((variableNames line).length : Int) ≤ compiler.limits.maxNames)
    (run : (compile m).runIn compiler w = (.ok names, own, after)) :
    (compiler.groups m).flatten = lines.map Line.text ∧
    ∀ i group, (compiler.groups m)[i]? = some group →
      group ≠ [] ∧
      after.textAt (Path.join compiler.directory (partName m.name i)) =
        some (heading m i ++ "solve " ++ solveText m group ++ "\n\nquit") ∧
      ((solveText m group).length : Int) ≤
        compiler.limits.maxLength + ((joinTexts (commonLines m)).length + 4) ∧
      (2 ≤ group.length → ((countedNames group).length : Int) ≤ compiler.limits.maxNames) ∧
      ((∀ line ∈ group, '_' ∉ line.toList) → ((variableNames (solveText m group)).length : Int) ≤
        compiler.limits.maxNames + (variableNames (joinTexts (commonLines m))).length) := by
  have groups := groups_of_lowered lowered compiler
  refine ⟨?_, fun i group there => ?_⟩
  · rw [groups, split_flatten]
  · have member : group ∈ split compiler.limits (lines.map Line.text) :=
      groups ▸ List.mem_of_getElem? there
    have filled := ne_nil_of_mem_split member
    have long := length_le_of_mem_split (fun line inside => (small line inside).1) member
    refine ⟨filled, textAt_of_compile run there, ?_, countedNames_le_of_mem_split member,
      variableNames_le_of_mem_split m (fun line inside => (small line inside).2) member⟩
    rw [length_solveText m filled]
    omega

/-- A module of two lines and an input of two bits. -/
def smallModule : Module :=
  givenModule "m" [{ name := "a", width := 2, isInput := true }] ["x=0", "y=(a0&a1)"] []

/-- Its one file has two variables of its own beside the two bits of the input and the result. -/
theorem compiled_sizes_small :
    ∃ own after, (compile smallModule).runIn { directory := "build" } emptyBuild =
      (.ok ["m_part0.tau"], own, after) ∧
      after.textAt "build/m_part0.tau" = some (heading smallModule 0 ++ "solve " ++
        "a0=0 && a1=1 && x=0 && y=(a0&a1) && result=1" ++ "\n\nquit") ∧
      (variableNames "a0=0 && a1=1 && x=0 && y=(a0&a1) && result=1").length ≤ 53 := by
  have lowered : lowerAll smallModule.constraints = .ok (["x=0", "y=(a0&a1)"].map Line.given) :=
    lowerAll_given ..
  have lowers : smallModule.Lowers := ⟨_, lowered⟩
  have asked : solveText smallModule ["x=0", "y=(a0&a1)"] =
      "a0=0 && a1=1 && x=0 && y=(a0&a1) && result=1" := by
    decide
  have common : (variableNames (joinTexts (commonLines smallModule))).length = 3 := by decide
  obtain ⟨own, after, run⟩ :=
    compiles_in_emptyBuild lowers (by decide) { directory := "build" } rfl (by decide)
  obtain ⟨_, sizes⟩ := compiled_sizes lowered (by decide) run
  obtain ⟨_, text, _, _, few⟩ := sizes 0 ["x=0", "y=(a0&a1)"] (by decide)
  have bound := few (by decide)
  rw [asked, common] at bound
  exact ⟨own, after, run, asked ▸ text, Int.ofNat_le.mp bound⟩

def eighteenLines : List String :=
  (List.range 18).map fun i => (Clause.fixWire "x" i false).text

/-- They are to share files with an input of thirty-two bits. -/
def wideModule : Module :=
  givenModule "m" [{ name := "a", width := 32, isInput := true }] eighteenLines []

theorem split_eighteenLines : split {} eighteenLines = [eighteenLines] := by
  have one : (split {} eighteenLines).length = 1 := by decide +kernel
  obtain ⟨group, alone⟩ := List.length_eq_one_iff.mp one
  have whole := split_flatten {} eighteenLines
  rw [alone, List.flatten_singleton] at whole
  rw [alone, whole]

def wideNames : List String :=
  (List.range 32).map (fun (i : Nat) => Formula.wireName "a" i) ++
    (List.range 18).map (fun (i : Nat) => Formula.wireName "x" i) ++ ["result"]

theorem nodup_wideNames : wideNames.Nodup := by
  have numbered (name : String) (count : Nat) :
      ((List.range count).map fun (i : Nat) => Formula.wireName name i).Nodup :=
    List.nodup_range.map fun i j same => Int.ofNat_inj.mp (Formula.wireName_inj.mp same)
  refine List.nodup_append.mpr ⟨List.nodup_append.mpr ⟨numbered "a" 32, numbered "x" 18, ?_⟩,
    by simp, ?_⟩
  · intro first here second there
    obtain ⟨i, _, rfl⟩ := List.mem_map.mp here
    obtain ⟨j, _, rfl⟩ := List.mem_map.mp there
    exact Formula.wireName_ne (by decide) (by decide) (by decide) i j
  · decide +kernel

theorem wideNames_subset : wideNames ⊆ variableNames (solveText wideModule eighteenLines) := by
  intro name member
  rw [mem_variableNames_solveText, mem_variableNames_joinTexts]
  revert name
  decide +kernel

/-- All of them are asked for in one file, although every line has but one. -/
theorem wideModule_beyond_limits :
    (∀ line ∈ eighteenLines, line.length ≤ 700 ∧ (variableNames line).length ≤ 50) ∧
      ∃ own after, (compile wideModule).runIn { directory := "build" } emptyBuild =
          (.ok ["m_part0.tau"], own, after) ∧
        after.textAt "build/m_part0.tau" =
          some (heading wideModule 0 ++ "solve " ++ solveText wideModule eighteenLines ++
            "\n\nquit") ∧
        50 < (variableNames (solveText wideModule eighteenLines)).length := by
  refine ⟨by decide +kernel, ?_⟩
  have lowers : wideModule.Lowers := givenModule_lowers ..
  have groups : Compiler.groups { directory := "build" } wideModule = [eighteenLines] :=
    (groups_given ..).trans split_eighteenLines
  have names : Compiler.fileNames { directory := "build" } wideModule = ["m_part0.tau"] := by
    rw [Compiler.fileNames, groups]
    decide
  obtain ⟨own, after, run⟩ := compiles_in_emptyBuild lowers (by decide) { directory := "build" } rfl
    (names ▸ by decide)
  have text := textAt_of_compile run (by rw [groups]; exact List.getElem?_cons_zero)
  have many := (List.subperm_of_subset nodup_wideNames wideNames_subset).length_le
  exact ⟨own, after, names ▸ run, text, many⟩

end Zkvm.Circuit
