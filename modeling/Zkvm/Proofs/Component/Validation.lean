import Zkvm.Component.Report
import Zkvm.Proofs.Json.Put
import Zkvm.Proofs.Text.Digits
import Zkvm.Proofs.Text.Rounding
import Zkvm.Proofs.Workspace.Printing

/-!
# What the validation report tells

Validation announces full success if the share of satisfiable files comes out as one hundred
percent.  The share is taken of the files on which the solver came to an end.  A file on which it
took too long, or could not be started, is listed with its trouble and counts in neither number, so
that the announcement says nothing about such files.
-/
set_option autoImplicit false

namespace Zkvm

namespace Text

section Capitals

variable {c : Char} (capital : c.isUpper = true)
include capital

theorem not_mem_of_isDigit {text : List Char} (digits : ∀ d ∈ text, d.isDigit = true) :
    c ∉ text := by
  intro member
  have digit := digits c member
  simp only [Char.isUpper, Char.isDigit, Bool.and_eq_true, decide_eq_true_eq,
    UInt32.le_iff_toNat_le] at capital digit
  have first : 'A'.val.toNat = 65 := rfl
  have last : '9'.val.toNat = 57 := rfl
  omega

theorem not_mem_toString (n : Nat) : c ∉ (toString n).toList :=
  not_mem_of_isDigit capital fun _ member => isDigit_of_mem_toString member

theorem not_mem_padZeros (width n : Nat) : c ∉ (padZeros width (toString n)).toList := by
  refine not_mem_of_isDigit capital fun d member => ?_
  rw [padZeros, String.toList_append, String.toList_ofList, List.mem_append] at member
  rcases member with zero | digit
  · rw [(List.mem_replicate.mp zero).2]
    rfl
  · exact isDigit_of_mem_toString digit

theorem not_mem_pointed (places value : Nat) : c ∉ (pointed places value).toList := by
  unfold pointed
  split
  · exact not_mem_toString capital value
  · have digits := not_mem_padZeros capital (places + 1) value
    simp only [String.toList_append, String.toList_ofList, List.mem_append]
    rintro ((before | point) | after)
    · exact digits (List.mem_of_mem_take before)
    · rw [List.mem_singleton.mp point] at capital
      cases capital
    · exact digits (List.mem_of_mem_drop after)

theorem not_mem_fixed (places : Nat) (x : Float) : c ∉ (fixed places x).toList := by
  have small {text : String} (all : text.toList.any Char.isUpper = false) : c ∉ text.toList := by
    intro member
    rw [List.any_eq_false] at all
    exact all c member capital
  unfold fixed
  cases Binary.ofFloat? x with
  | none =>
      dsimp only
      split
      · exact small rfl
      · split
        · exact small rfl
        · exact small rfl
  | some b =>
      rw [String.toList_append, List.mem_append]
      rintro (sign | digits)
      · split at sign
        · exact small rfl sign
        · exact small rfl sign
      · exact not_mem_pointed capital places _ digits

end Capitals

end Text

namespace Component

/-! ## Verdicts -/

def Ends (solver : Solver) (path : String) : Prop :=
  ∃ code out err, solver.answer path = .ran code out err

/-- The solver comes to an end on a file and shows a solution. -/
def Shows (solver : Solver) (path : String) : Prop :=
  ∃ code out err, solver.answer path = .ran code out err ∧ "solution:".toList <:+: out.toList

section Verdicts

variable {solver : Solver} {path : String}

theorem Shows.ends (shown : Shows solver path) : Ends solver path := by
  obtain ⟨code, out, err, answer, _⟩ := shown
  exact ⟨code, out, err, answer⟩

/-- A verdict says what the solver made of the file. -/
structure Judged (solver : Solver) (v : FileVerdict) : Prop where
  validated : v.validated = true ↔ Ends solver v.path
  satisfiable : v.satisfiable = true ↔ Shows solver v.path
  verdict : v.verdict = "satisfiable" ↔ Shows solver v.path

theorem judged_satisfiable (shown : Shows solver path) :
    Judged solver ⟨path, "satisfiable", true, true⟩ where
  validated := iff_of_true rfl shown.ends
  satisfiable := iff_of_true rfl shown
  verdict := iff_of_true rfl shown

theorem judged_failed (ended : Ends solver path) (hidden : ¬ Shows solver path) :
    Judged solver ⟨path, "failed", true, false⟩ where
  validated := iff_of_true rfl ended
  satisfiable := iff_of_false Bool.false_ne_true hidden
  verdict := iff_of_false (of_decide_eq_false rfl) hidden

theorem judged_error (unended : ¬ Ends solver path) (trouble : String) :
    Judged solver ⟨path, "error: " ++ trouble, false, false⟩ where
  validated := iff_of_false Bool.false_ne_true unended
  satisfiable := iff_of_false Bool.false_ne_true fun shown => unended shown.ends
  verdict := by
    refine iff_of_false (fun same => ?_) fun shown => unended shown.ends
    have first := congrArg (fun text : String => text.toList.head?) same
    simp at first

end Verdicts

theorem runIn_judge (path : String) (w : Workspace) :
    ∃ v, (judge path).runIn w = (.ok v, w) ∧ v.path = path ∧ Judged w.solver v := by
  have asked : (Action.solve path).runIn w = (.ok (w.solver.answer path), w) := rfl
  rw [judge, Action.runIn_bind, asked]
  cases answer : w.solver.answer path with
  | ran code out err =>
      by_cases mentioned : Text.mentions out "solution:" = true
      · refine ⟨_, ?_, rfl,
          judged_satisfiable ⟨code, out, err, answer, Text.mentions_iff.mp mentioned⟩⟩
        simp only [mentioned, if_true]
        rfl
      · refine ⟨_, ?_, rfl, judged_failed ⟨code, out, err, answer⟩ ?_⟩
        · simp only [mentioned]
          rfl
        · rintro ⟨_, _, _, same, there⟩
          rw [answer, Answer.ran.injEq] at same
          rw [← same.2.1] at there
          exact mentioned (Text.mentions_iff.mpr there)
  | timedOut command =>
      refine ⟨_, rfl, rfl, judged_error ?_ _⟩
      rintro ⟨_, _, _, same⟩
      rw [answer] at same
      cases same
  | failed reason =>
      refine ⟨_, rfl, rfl, judged_error ?_ _⟩
      rintro ⟨_, _, _, same⟩
      rw [answer] at same
      cases same

/-- A report has one verdict on each of the files, in their order. -/
structure Covers (solver : Solver) (files : List String) (report : ValidationReport) : Prop where
  paths : report.verdicts.map (·.path) = files
  judged : ∀ v ∈ report.verdicts, Judged solver v

/-- Asking about all files leaves the workspace as it is. -/
theorem runIn_judgeAll (files : List String) (w : Workspace) :
    ∃ report : ValidationReport,
      (files.mapM judge).runIn w = (.ok report.verdicts, w) ∧ Covers w.solver files report := by
  induction files with
  | nil => exact ⟨⟨[]⟩, rfl, rfl, fun _ member => absurd member List.not_mem_nil⟩
  | cons path rest ih =>
      obtain ⟨v, asked, named, judged⟩ := runIn_judge path w
      obtain ⟨report, run, covers⟩ := ih
      refine ⟨⟨v :: report.verdicts⟩, ?_, ?_, List.forall_mem_cons.mpr ⟨judged, covers.judged⟩⟩
      · rw [List.mapM_cons, Action.runIn_bind, asked]
        simp only [Action.runIn_bind, run]
        rfl
      · rw [List.map_cons, named, covers.paths]

/-! ## Counts -/

namespace Covers

variable {solver : Solver} {files : List String} {report : ValidationReport}
  (covers : Covers solver files report)
include covers

theorem mem_files_iff {path : String} : path ∈ files ↔ ∃ v ∈ report.verdicts, v.path = path := by
  rw [← covers.paths, List.mem_map]

theorem validated_le : report.validated ≤ files.length := by
  rw [← covers.paths, List.length_map]
  exact List.countP_le_length

theorem satisfiable_le_validated : report.satisfiable ≤ report.validated := by
  refine List.countP_mono_left fun v member shown => ?_
  have judged := covers.judged v member
  exact judged.validated.mpr (judged.satisfiable.mp shown).ends

theorem validated_pos_iff : 0 < report.validated ↔ ∃ path ∈ files, Ends solver path := by
  rw [ValidationReport.validated, List.countP_pos_iff]
  constructor
  · rintro ⟨v, member, validated⟩
    exact ⟨v.path, covers.mem_files_iff.mpr ⟨v, member, rfl⟩,
      (covers.judged v member).validated.mp validated⟩
  · rintro ⟨path, found, ended⟩
    obtain ⟨v, member, rfl⟩ := covers.mem_files_iff.mp found
    exact ⟨v, member, (covers.judged v member).validated.mpr ended⟩

/-- The counts are the same exactly if every run that ended showed a solution. -/
theorem validated_eq_satisfiable_iff :
    report.validated = report.satisfiable ↔ ∀ path ∈ files,
      Ends solver path → Shows solver path := by
  have within :
      report.satisfiable = (report.verdicts.filter (·.validated)).countP (·.satisfiable) := by
    rw [List.countP_filter]
    refine List.countP_congr fun v member => ?_
    have judged := covers.judged v member
    rw [Bool.and_eq_true, judged.satisfiable, judged.validated]
    exact (and_iff_left_of_imp Shows.ends).symm
  rw [within, ValidationReport.validated, List.countP_eq_length_filter, eq_comm,
    List.countP_eq_length]
  constructor
  · intro all path found ended
    obtain ⟨v, member, rfl⟩ := covers.mem_files_iff.mp found
    have judged := covers.judged v member
    exact judged.satisfiable.mp (all v (List.mem_filter.mpr ⟨member, judged.validated.mpr ended⟩))
  · intro all v kept
    obtain ⟨member, validated⟩ := List.mem_filter.mp kept
    have judged := covers.judged v member
    exact judged.satisfiable.mpr
      (all v.path (covers.mem_files_iff.mpr ⟨v, member, rfl⟩) (judged.validated.mp validated))

theorem complete_iff :
    report.complete = true ↔
      0 < report.validated ∧ 2 ^ 54 * (report.validated - report.satisfiable) ≤
        report.validated := by
  have order := covers.satisfiable_le_validated
  unfold ValidationReport.complete ValidationReport.rate
  split
  · rename_i empty
    rw [empty]
    exact iff_of_false (by decide) fun counted => Nat.lt_irrefl 0 counted.1
  · rename_i ended
    have positive := Nat.pos_of_ne_zero ended
    rw [Text.percent_beq_hundred_iff positive order]
    exact (and_iff_right positive).symm

theorem complete_iff_of_lt (few : files.length < 2 ^ 54) :
    report.complete = true ↔
      (∃ path ∈ files, Ends solver path) ∧ ∀ path ∈ files,
        Ends solver path → Shows solver path := by
  have order := covers.satisfiable_le_validated
  have bound := covers.validated_le
  rw [covers.complete_iff, ← covers.validated_pos_iff, ← covers.validated_eq_satisfiable_iff]
  refine and_congr_right fun positive => ?_
  omega

theorem rateJson_eq_iff : report.rateJson = .float 100.0 ↔ report.complete = true := by
  have order := covers.satisfiable_le_validated
  rw [covers.complete_iff]
  unfold ValidationReport.rateJson ValidationReport.rate
  split
  · rename_i empty
    rw [empty]
    exact iff_of_false (by simp) fun counted => Nat.lt_irrefl 0 counted.1
  · rename_i ended
    have positive := Nat.pos_of_ne_zero ended
    rw [Json.float.injEq, Text.percent_eq_hundred_iff positive order]
    exact (and_iff_right positive).symm

end Covers

/-! ## The results by path -/

/-- The validation part of a report lists a file as satisfiable. -/
def ListedSatisfiable (validation : Json) (path : String) : Prop :=
  (validation.get? "results").bind (·.get? path) = some (.str "satisfiable")

theorem lookup_results {solver : Solver} {verdicts : List FileVerdict}
    (judged : ∀ v ∈ verdicts, Judged solver v) {path : String} (fields : List (String × Json))
    (given : path ∈ verdicts.map (·.path) ∨
      ∃ verdict, fields.lookup path = some
    (.str verdict) ∧ (verdict = "satisfiable" ↔ Shows solver path)) :
    ∃ verdict,
      (verdicts.foldl (fun fields v => Json.put v.path (.str v.verdict) fields) fields).lookup
          path =
        some (.str verdict) ∧ (verdict = "satisfiable" ↔ Shows solver path) := by
  induction verdicts generalizing fields with
  | nil => exact given.resolve_left List.not_mem_nil
  | cons v rest ih =>
      rw [List.forall_mem_cons] at judged
      refine ih judged.2 (Json.put v.path (.str v.verdict) fields) ?_
      by_cases here : path = v.path
      · subst here
        exact .inr ⟨v.verdict, by rw [Json.lookup_put, if_pos rfl], judged.1.verdict⟩
      · rw [List.map_cons, List.mem_cons, or_assoc] at given
        rw [Json.lookup_put, if_neg here]
        exact given.resolve_left here

theorem Covers.listedSatisfiable_iff {solver : Solver} {files : List String}
    {report : ValidationReport} (covers : Covers solver files report) {path : String}
    (found : path ∈ files) :
    ListedSatisfiable report.json path ↔ Shows solver path := by
  obtain ⟨verdict, there, same⟩ := lookup_results covers.judged [] (.inl (covers.paths ▸ found))
  rw [← same]
  have listed : (report.json.get? "results").bind (·.get? path) = some (.str verdict) := there
  rw [ListedSatisfiable, listed, Option.some_inj, Json.str.injEq]

/-! ## The run -/

def openingLines (files : Nat) : List String :=
  ["\n=== Validating All Components ===", s!"Found {files} Tau files to validate..."]

def countLines (report : ValidationReport) : List String :=
  ["\nValidation Results:", s!"Total files: {report.files}", s!"Validated: {report.validated}",
    s!"Satisfiable: {report.satisfiable}", s!"Success rate: {report.rateText}%"]

def lastLine (report : ValidationReport) : String :=
  if report.complete then "\n✅ 100% VALIDATION ACHIEVED!"
  else s!"\n❌ Need to fix {report.validated - report.satisfiable} components"

def reportLines (files : Nat) (report : ValidationReport) : List String :=
  openingLines files ++ countLines report ++ [lastLine report]

theorem runIn_lastLine {α : Type} (result : α) (report : ValidationReport) (w : Workspace) :
    Action.runIn (if report.complete then do
        Action.say "\n✅ 100% VALIDATION ACHIEVED!"
        pure result
      else do
        Action.say s!"\n❌ Need to fix {report.validated - report.satisfiable} components"
        pure result) w = (.ok result, w.saying [lastLine report]) := by
  unfold lastLine
  split
  all_goals
    rw [Action.runIn_bind, Action.runIn_say]
    rfl

theorem get?_withField {old new value : Json} {key : String}
    (set : old.withField key value = .ok new) :
    new.get? key = some value := by
  cases old with
  | obj fields =>
      rw [← Except.ok.inj set, Json.get?, Json.lookup_put, if_pos rfl]
  | _ => cases set

/-- Either validation fails before it comes to the counts, or it writes its report and then prints
counts and last line. -/
theorem runIn_validateAll (reportPath : String) (w : Workspace) :
    ∃ files, (Action.listTree buildDirectory ".tau").runIn w = (.ok files, w) ∧
      ((∃ failure lines, (∀ line ∈ lines, line ∈ openingLines files.length) ∧
          (validateAll reportPath).runIn w = (.error failure, w.saying lines)) ∨
        ∃ new report location, Covers w.solver files report ∧
          new.get? "validation" = some report.json ∧
          (validateAll reportPath).runIn w =
            (.ok (new, report),
              (w.put location new.pretty).saying (reportLines files.length report))) := by
  obtain ⟨files, listed⟩ := Action.exists_runIn_listTree buildDirectory ".tau" w
  obtain ⟨outcome, read⟩ := Action.exists_runIn_readJson reportPath w
  refine ⟨files, w.saying_nil ▸ listed [], ?_⟩
  cases outcome with
  | error failure =>
      refine .inl ⟨failure, [], fun _ member => absurd member List.not_mem_nil, ?_⟩
      rw [validateAll, Action.runIn_bind, read, Workspace.saying_nil]
  | ok old =>
      obtain ⟨report, asked, covers⟩ := runIn_judgeAll files (w.saying (openingLines files.length))
      have opened : (w.saying ["\n=== Validating All Components ==="]).saying
          [s!"Found {files.length} Tau files to validate..."] =
            w.saying (openingLines files.length) :=
        w.saying_saying _ _
      cases set : old.withField "validation" report.json with
      | error failure =>
          refine .inl ⟨failure, openingLines files.length, fun _ member => member, ?_⟩
          simp only [validateAll, Action.runIn_bind, read, Action.runIn_say, listed, opened,
            asked, set]
          rfl
      | ok new =>
          rcases Action.runIn_writeFile (Path.under buildDirectory "validation_report.json")
            new.pretty (w.saying (openingLines files.length)) with
            ⟨location, _, written⟩ | ⟨_, trouble, refused⟩
          · refine .inr ⟨new, report, location, covers, get?_withField set, ?_⟩
            simp only [validateAll, Action.runIn_bind, read, Action.runIn_say, listed, opened,
              asked, set, Action.runIn_ofExcept_ok, written, Action.runIn_sayAll]
            refine (runIn_lastLine (new, report) report _).trans ?_
            change
              (_, (((w.put location new.pretty).saying _).saying (countLines report)).saying _) = _
            rw [Workspace.saying_saying, Workspace.saying_saying, reportLines, List.append_assoc]
          · refine .inl ⟨.path trouble (Path.under buildDirectory "validation_report.json"),
              openingLines files.length, fun _ member => member, ?_⟩
            simp only [validateAll, Action.runIn_bind, read, Action.runIn_say, listed, opened,
              asked, set, Action.runIn_ofExcept_ok, refused]

/-! ## The announcement -/

def Announced (shown : String) : Prop :=
  Text.mentions shown "100% VALIDATION ACHIEVED" = true

/-- No line but the one that announces full success has this letter of the announcement. -/
theorem capital_of_announced {lines : List String}
    (announced : Announced (Text.printedLines lines)) :
    ∃ line ∈ lines, 'H' ∈ line.toList := by
  by_contra none
  have absent : ∀ line ∈ lines, 'H' ∉ line.toList :=
    fun line member there => none ⟨line, member, there⟩
  exact Text.not_mem_printedLines (by decide) absent
    ((Text.mentions_iff.mp announced).subset (by decide))

theorem announced_of_mem {lines : List String} (member : "\n✅ 100% VALIDATION ACHIEVED!" ∈ lines) :
    Announced (Text.printedLines lines) := by
  have within : "100% VALIDATION ACHIEVED".toList <:+: "\n✅ 100% VALIDATION ACHIEVED!".toList :=
    ⟨"\n✅ ".toList, "!".toList, by decide⟩
  exact Text.mentions_iff.mpr (within.trans (Text.infix_printedLines member))

theorem no_capital_opening {files : Nat} : ∀ line ∈ openingLines files, 'H' ∉ line.toList := by
  have number := Text.not_mem_toString (c := 'H') (by decide) files
  simp only [openingLines, List.forall_mem_cons, String.toList_append, List.mem_append, not_or]
  exact ⟨by decide, ⟨⟨by decide, number⟩, by decide⟩,
    fun _ member => absurd member List.not_mem_nil⟩

theorem no_capital_counts {report : ValidationReport} :
    ∀ line ∈ countLines report, 'H' ∉ line.toList := by
  have number := Text.not_mem_toString (c := 'H') (by decide)
  have rate : 'H' ∉ report.rateText.toList := Text.not_mem_fixed (by decide) 1 report.rate
  simp only [countLines, List.forall_mem_cons, String.toList_append, List.mem_append, not_or]
  exact ⟨by decide, ⟨by decide, number _⟩, ⟨by decide, number _⟩, ⟨by decide, number _⟩,
    ⟨⟨by decide, rate⟩, by decide⟩, fun _ member => absurd member List.not_mem_nil⟩

theorem no_capital_last {report : ValidationReport} (incomplete : report.complete = false) :
    'H' ∉ (lastLine report).toList := by
  have number :=
    Text.not_mem_toString (c := 'H') (by decide) (report.validated - report.satisfiable)
  simp only [lastLine, incomplete, Bool.false_eq_true, if_false, String.toList_append,
    List.mem_append, not_or]
  exact ⟨⟨by decide, number⟩, by decide⟩

theorem announced_iff {files : Nat} {report : ValidationReport} :
    Announced (Text.printedLines (reportLines files report)) ↔ report.complete = true := by
  constructor
  · intro announced
    by_contra incomplete
    obtain ⟨line, member, capital⟩ := capital_of_announced announced
    rw [reportLines, List.mem_append, List.mem_append, List.mem_singleton] at member
    rcases member with (opening | count) | rfl
    · exact no_capital_opening line opening capital
    · exact no_capital_counts line count capital
    · exact no_capital_last (Bool.eq_false_iff.mpr incomplete) capital
  · intro complete
    refine announced_of_mem (List.mem_append_right _ ?_)
    rw [lastLine, if_pos complete]
    exact List.mem_singleton_self _

/-- Full success is announced exactly if the share of satisfiable files among those on which the
solver ended comes out as one hundred percent: with fewer than `2 ^ 54` files, if it ended on some
and showed a solution on all of these.  The other files play no part in it. -/
theorem announced_of_ended_runs (reportPath : String) (w : Workspace) :
    ∃ files shown, (Action.listTree buildDirectory ".tau").runIn w = (.ok files, w) ∧
      ((validateAll reportPath).runIn w).2.printed = w.printed ++ shown ∧
      (Announced shown → ∃ new report, ((validateAll reportPath).runIn w).1 = .ok (new, report)) ∧
      ∀ new report, ((validateAll reportPath).runIn w).1 = .ok (new, report) →
        new.get? "validation" = some report.json ∧
        (∀ path ∈ files, ListedSatisfiable report.json path ↔ Shows w.solver path) ∧
        (Announced shown ↔ report.json.get? "success_rate" = some (.float 100.0)) ∧
        (Announced shown ↔
          0 < report.validated ∧ 2 ^ 54 * (report.validated - report.satisfiable) ≤
            report.validated) ∧
        (files.length < 2 ^ 54 → (Announced shown ↔ (∃ path ∈ files, Ends w.solver path) ∧
          ∀ path ∈ files, Ends w.solver path → ListedSatisfiable report.json path)) := by
  obtain ⟨files, listed, failed | succeeded⟩ := runIn_validateAll reportPath w
  · obtain ⟨failure, lines, opening, run⟩ := failed
    rw [run]
    refine ⟨files, Text.printedLines lines, listed, rfl, fun announced => ?_,
      fun _ _ same => by cases same⟩
    obtain ⟨line, member, capital⟩ := capital_of_announced announced
    exact absurd capital (no_capital_opening line (opening line member))
  · obtain ⟨new, report, location, covers, kept, run⟩ := succeeded
    rw [run]
    refine ⟨files, _, listed, rfl, fun _ => ⟨new, report, rfl⟩, ?_⟩
    intro _ _ same
    cases same
    rw [announced_iff]
    refine ⟨kept, fun path found => covers.listedSatisfiable_iff found, ?_, covers.complete_iff,
      fun few => ?_⟩
    · rw [← covers.rateJson_eq_iff]
      exact Option.some_inj.symm
    · rw [covers.complete_iff_of_lt few]
      refine and_congr_right fun _ => forall₂_congr fun path found => ?_
      rw [covers.listedSatisfiable_iff found]

/-- Two constraint files: the solver finds a solution of the first and does not end on the
second. -/
def oneTimedOut : Workspace :=
  { tree := ⟨[(["report.json"], .file "\x7b\x7d"), (["build"], .directory),
      (["build", "zkvm_100_percent"], .directory),
      (["build", "zkvm_100_percent", "a.tau"], .file ""),
      (["build", "zkvm_100_percent", "b.tau"], .file "")]⟩
    directory := []
    clock := 0
    solver := [("a.tau", .ran 0 "solution: x" ""), ("b.tau", .timedOut "['tau']")]
    printed := "" }

theorem listed_oneTimedOut {files : List String} {after : Workspace}
    (listed : (Action.listTree buildDirectory ".tau").runIn oneTimedOut = (.ok files, after)) :
    files = ["build/zkvm_100_percent/a.tau", "build/zkvm_100_percent/b.tau"] := by
  have found : ((Action.listTree buildDirectory ".tau").runIn oneTimedOut).1.toOption =
      some ["build/zkvm_100_percent/a.tau", "build/zkvm_100_percent/b.tau"] := by decide +kernel
  rw [listed] at found
  exact Option.some_inj.mp found

theorem isOk_oneTimedOut : ((validateAll "report.json").runIn oneTimedOut).1.isOk = true := by
  decide +kernel

theorem not_ends_oneTimedOut : ¬ Ends oneTimedOut.solver "build/zkvm_100_percent/b.tau" := by
  have answer :
      oneTimedOut.solver.answer "build/zkvm_100_percent/b.tau" = .timedOut "['tau']" := rfl
  rintro ⟨code, out, err, ended⟩
  rw [answer] at ended
  cases ended

/-- Full success is announced although a file that was found is not listed as satisfiable. -/
theorem oneTimedOut_announced :
    ∃ new report, ((validateAll "report.json").runIn oneTimedOut).1 = .ok (new, report) ∧
      Announced ((validateAll "report.json").runIn oneTimedOut).2.printed ∧
      report.json.get? "success_rate" = some (.float 100.0) ∧
      (Action.listTree buildDirectory ".tau").runIn oneTimedOut =
        (.ok ["build/zkvm_100_percent/a.tau", "build/zkvm_100_percent/b.tau"], oneTimedOut) ∧
      ¬ ListedSatisfiable report.json "build/zkvm_100_percent/b.tau" := by
  obtain ⟨files, listed, failed | succeeded⟩ := runIn_validateAll "report.json" oneTimedOut
  · obtain ⟨failure, lines, _, run⟩ := failed
    have ok := isOk_oneTimedOut
    rw [run] at ok
    cases ok
  · obtain ⟨new, report, location, covers, _, run⟩ := succeeded
    have same := listed_oneTimedOut listed
    subst same
    have first : Shows oneTimedOut.solver "build/zkvm_100_percent/a.tau" :=
      ⟨0, "solution: x", "", rfl, [], " x".toList, by decide⟩
    have complete : report.complete = true := by
      refine (covers.complete_iff_of_lt (by decide)).mpr ⟨⟨_, List.mem_cons_self, first.ends⟩, ?_⟩
      rw [List.forall_mem_cons, List.forall_mem_singleton]
      exact ⟨fun _ => first, fun ended => absurd ended not_ends_oneTimedOut⟩
    rw [run]
    refine ⟨new, report, rfl, ?_, ?_, listed, fun satisfiable => ?_⟩
    · exact announced_iff.mpr complete
    · exact congrArg some (covers.rateJson_eq_iff.mpr complete)
    · have shown :=
        (covers.listedSatisfiable_iff (List.mem_cons_of_mem _ List.mem_cons_self)).mp satisfiable
      exact not_ends_oneTimedOut shown.ends

end Component

end Zkvm
