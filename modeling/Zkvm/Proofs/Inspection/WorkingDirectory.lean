import Mathlib.Logic.Function.Iterate
import Zkvm.Inspection.Trial
import Zkvm.Proofs.Workspace.Paths
import Zkvm.Proofs.Workspace.Printing

/-!
# The working directory after trials

A trial is made in the directory of the solver.  A run that comes to its end is followed by the way
back; a run that takes too long or cannot be started is not, so that the trial leaves the workspace
in the directory of the solver, from where the next trial starts.  Trials of many files therefore
take one such step for each run that was cut short.  No number of steps leads back to the beginning
unless the first one already stays there, so the directory is the old one exactly if all runs came
to their end or the directory of the solver is not another one.
-/
set_option autoImplicit false

namespace Zkvm

/-! ## Moves between directories -/

namespace Tree

/-- The names of a path replace the last names of the place from which they are followed. -/
theorem exists_replaced (names : List String) :
    ∃ dropped added, ∀ (tree : Tree) (here base : Location), tree.follow here names = .ok base →
      base = here.take (here.length - dropped) ++ added := by
  induction names with
  | nil =>
      refine ⟨0, [], fun tree here base found => ?_⟩
      cases found
      simp
  | cons name rest ih =>
      obtain ⟨dropped, added, later⟩ := ih
      have onward {tree : Tree} {here base : Location}
          (found : tree.follow here (name :: rest) = .ok base) :
          tree.follow (if name = ".." then here.dropLast else here ++ [name]) rest = .ok base := by
        rw [follow] at found
        cases rest with
        | nil => exact found
        | cons next more =>
            simp only [List.isEmpty_cons, Bool.false_eq_true, if_false] at found
            split at found
            · exact found
            · cases found
            · cases found
      by_cases up : name = ".."
      · refine ⟨dropped + 1, added, fun tree here base found => ?_⟩
        have rest := later tree _ base (onward found)
        rw [if_pos up, List.dropLast_eq_take, List.take_take, List.length_take] at rest
        rw [rest]
        congr 2
        omega
      · cases dropped with
        | zero =>
            refine ⟨0, name :: added, fun tree here base found => ?_⟩
            have rest := later tree _ base (onward found)
            rw [if_neg up, Nat.sub_zero, List.take_length, List.append_assoc] at rest
            rw [rest, Nat.sub_zero, List.take_length, List.singleton_append]
        | succ fewer =>
            refine ⟨fewer, added, fun tree here base found => ?_⟩
            have rest := later tree _ base (onward found)
            rw [if_neg up, List.length_append, List.length_singleton, Nat.add_sub_add_right,
              List.take_append_of_le_length (Nat.sub_le ..)] at rest
            exact rest

/-- Where one is after trying to enter a directory: there, if it is one, and else where one was. -/
def moved (tree : Tree) (path : String) (here : Location) : Location :=
  ((tree.resolve here path).toOption.filter fun base => path ≠
    "" && tree.isDirectory base).getD here

theorem moved_eq_or {tree : Tree} {path : String} {here : Location} :
    tree.moved path here = here ∨ tree.resolve here path = .ok (tree.moved path here) := by
  unfold moved
  cases tree.resolve here path with
  | error detour => exact Or.inl rfl
  | ok base =>
      simp only [Except.toOption, Option.filter_some]
      split
      · exact Or.inr rfl
      · exact Or.inl rfl

end Tree

/-! ## No way back -/

section Return
variable {α : Type} {move : α → α} {start : α}

theorem iterate_ne_start (kept : α → Prop) (first : kept (move start))
    (step : ∀ place, kept place → kept (move place)) (never : ¬ kept start) (count : Nat) :
    move^[count + 1] start ≠ start := by
  have always : kept (move^[count + 1] start) := by
    induction count with
    | zero => exact first
    | succ count ih =>
        rw [Function.iterate_succ_apply']
        exact step _ ih
  intro back
  rw [back] at always
  exact never always

theorem iterate_ne_of_constant (target : α)
    (either : ∀ place, move place = place ∨ move place = target) (left : move start ≠ start)
    (count : Nat) : move^[count + 1] start ≠ start := by
  have first : move start = target := (either start).resolve_left left
  refine iterate_ne_start (· = target) first (fun place there => ?_) ?_ count
  · rcases either place with stays | leads
    · exact stays.trans there
    · exact leads
  · intro there
    exact left (first.trans there.symm)

end Return

section Replacing
variable {move : Location → Location} {start : Location}

/-- A step that puts names in the place of others.  It goes deeper, stays on its level or goes up,
and upward steps end where the new names lead from the root. -/
theorem iterate_ne_of_replacing (dropped : Nat) (added : Location)
    (either : ∀ place, move place = place ∨
      move place = place.take (place.length - dropped) ++ added)
    (left : move start ≠ start) (count : Nat) : move^[count + 1] start ≠ start := by
  have first := (either start).resolve_left left
  have length (place : Location) :
      (place.take (place.length - dropped) ++ added).length =
        place.length - dropped + added.length := by
    rw [List.length_append, List.length_take, Nat.min_eq_left (Nat.sub_le ..)]
  rcases Nat.lt_trichotomy dropped added.length with deeper | level | higher
  · refine iterate_ne_start (start.length < ·.length) ?_ (fun place below => ?_)
      (Nat.lt_irrefl _) count
    · rw [first, length]
      omega
    · rcases either place with stays | leads
      · rwa [stays]
      · rw [leads, length]
        omega
  · refine iterate_ne_start (· = move start) rfl (fun place there => ?_) left.symm count
    rcases either place with stays | leads
    · exact stays.trans there
    · have again : place.length - dropped = start.length - dropped := by
        rw [there, first, length]
        omega
      rw [leads, again, there, first, List.take_append_of_le_length (by simp), List.take_take,
        Nat.min_self]
  · have ended {place : Location} (short : place.length < dropped) :
        place.take (place.length - dropped) ++ added = added := by
      rw [Nat.sub_eq_zero_of_le (Nat.le_of_lt short), List.take_zero, List.nil_append]
    have upward {place : Location} (long : dropped ≤ place.length) :
        (place.take (place.length - dropped) ++ added).length < place.length := by
      rw [length]
      omega
    refine iterate_ne_start (fun place => place = added ∨ place.length < start.length) ?_
      (fun place there => ?_) ?_ count
    · rw [first]
      exact (Nat.lt_or_ge start.length dropped).imp ended upward
    · rcases either place with stays | leads
      · rwa [stays]
      · rw [leads]
        rcases Nat.lt_or_ge place.length dropped with short | long
        · exact Or.inl (ended short)
        · rcases there with rfl | below
          · exact absurd long (Nat.not_le.mpr higher)
          · exact Or.inr (Nat.lt_trans (upward long) below)
    · rintro (rfl | less)
      · exact left (first.trans (ended higher))
      · exact Nat.lt_irrefl _ less

end Replacing

/-- Once a move has left a directory, no number of the same moves leads back. -/
theorem Tree.iterate_moved_ne {tree : Tree} {path : String} {here : Location}
    (left : tree.moved path here ≠ here) (count : Nat) :
    (tree.moved path)^[count + 1] here ≠ here := by
  by_cases absolute : Path.isAbsolute path = true
  · have same (place : Location) : tree.resolve place path = tree.resolve here path := by
      unfold resolve
      rw [if_pos absolute, if_pos absolute]
    refine iterate_ne_of_constant (tree.moved path here) (fun place => ?_) left count
    refine moved_eq_or.imp_right fun leads => ?_
    rw [same, moved_eq_or.resolve_left left] at leads
    exact (Except.ok.inj leads).symm
  · obtain ⟨dropped, added, replaced⟩ := exists_replaced (Path.parts path)
    refine iterate_ne_of_replacing dropped added (fun place => ?_) left count
    refine moved_eq_or.imp_right fun leads => ?_
    rw [resolve, if_neg absolute] at leads
    exact replaced tree place _ leads

theorem Tree.iterate_moved_eq_iff {tree : Tree} {path : String} {here : Location} (count : Nat) :
    (tree.moved path)^[count] here = here ↔ count = 0 ∨ tree.moved path here = here := by
  cases count with
  | zero => simp
  | succ count =>
      constructor
      · intro back
        by_contra away
        exact iterate_moved_ne (fun stays => away (Or.inr stays)) count back
      · rintro (none | stays)
        · cases none
        · exact Function.iterate_fixed stays _

/-! ## Running trials -/

/-- The run took too long or could not be started. -/
def Answer.cutShort (answer : Answer) : Bool :=
  (answer.trouble? 30).isSome

theorem Workspace.Opens.moved {w : Workspace} {path : String} {base : Location}
    (opens : w.Opens path base) :
    w.tree.moved path w.directory = base := by
  have held : (path ≠ "" && w.tree.isDirectory base) = true := by simp [opens.named, opens.held]
  simp only [Tree.moved, opens.found, Except.toOption, Option.filter_some, if_pos held]
  rfl

theorem Workspace.moved_of_not_opens {w : Workspace} {path : String}
    (shut : ∀ base, ¬ w.Opens path base) :
    w.tree.moved path w.directory = w.directory := by
  unfold Tree.moved
  cases found : w.tree.resolve w.directory path with
  | error detour => rfl
  | ok base =>
      have closed : ¬ (path ≠ "" && w.tree.isDirectory base) = true := by
        rw [Bool.and_eq_true, decide_eq_true_eq]
        exact fun held => shut base ⟨held.1, found, held.2⟩
      simp only [Except.toOption, Option.filter_some, if_neg closed]
      rfl

theorem Workspace.moved_eq_iff {w : Workspace} {path : String} :
    w.tree.moved path w.directory = w.directory ↔ ∀ base,
      w.Opens path base → base = w.directory := by
  constructor
  · intro stays base opens
    rw [← opens.moved, stays]
  · intro only
    by_cases opened : ∃ base, w.Opens path base
    · obtain ⟨base, opens⟩ := opened
      rw [opens.moved, only base opens]
    · exact moved_of_not_opens (not_exists.mp opened)

namespace Action

theorem runIn_enter (path : String) (w : Workspace) :
    (∃ base, w.Opens path base ∧ (enter path).runIn w = (.ok (), { w with directory := base })) ∨
      ((∀ base, ¬ w.Opens path base) ∧ ∃ failure, (enter path).runIn w = (.error failure, w)) := by
  rcases runIn_locate path w with ⟨location, named, found, located⟩ | ⟨nowhere, trouble, located⟩
  · have only {base : Location} (opens : w.Opens path base) : base = location := by
      have there := opens.found
      rw [found] at there
      exact (Except.ok.inj there).symm
    cases there : w.tree.lookup location with
    | none =>
        refine Or.inr ⟨fun base opens => ?_,
          .path (trouble path (.missing (Path.name path))) path, ?_⟩
        · have held := Tree.isDirectory_iff.mp opens.held
          rw [only opens, there] at held
          cases held
        · simp only [enter, runIn_bind, located, runIn_get, there]
          rfl
    | some node =>
        cases node with
        | directory =>
            refine Or.inl ⟨location, ⟨named, found, Tree.isDirectory_iff.mpr there⟩, ?_⟩
            simp only [enter, runIn_bind, located, runIn_get, there]
            rfl
        | file text =>
            refine Or.inr ⟨fun base opens => ?_, .path .notADirectory path, ?_⟩
            · have held := Tree.isDirectory_iff.mp opens.held
              rw [only opens, there] at held
              cases held
            · simp only [enter, runIn_bind, located, runIn_get, there]
              rfl
  · refine Or.inr ⟨fun base opens => nowhere base opens.named opens.found, .path trouble path, ?_⟩
    rw [enter, runIn_bind, located]

end Action

namespace Inspection

def leftIn (w : Workspace) (root file : String) : Location :=
  if (w.solver.answer file).cutShort then w.tree.moved root w.directory else w.directory

theorem leftIn_eq_iff {w : Workspace} {root file : String} :
    leftIn w root file = w.directory ↔
      (w.solver.answer file).cutShort = false ∨ ∀ base, w.Opens root base → base = w.directory := by
  unfold leftIn
  cases (w.solver.answer file).cutShort with
  | true => simp [Workspace.moved_eq_iff]
  | false => simp

/-- An attempt tells of a run, and only a run that came to its end is followed by the way back; or
the directory of the solver cannot be entered. -/
theorem runIn_attempt (root file : String) (w : Workspace) :
    (∃ trial, (attempt root file).runIn w =
      (.ok trial, { w with directory := leftIn w root file })) ∨
      ∃ failure, (attempt root file).runIn w = (.error failure, w) ∧
      leftIn w root file = w.directory := by
  have here : Action.here.runIn w = (.ok w.directory, w) := rfl
  rcases Action.runIn_enter root w with ⟨base, opens, entered⟩ | ⟨shut, failure, refused⟩
  · left
    have asked : (Action.solve file).runIn { w with directory := base } =
        (.ok (w.solver.answer file), { w with directory := base }) := rfl
    have left' := opens.moved
    cases answer : w.solver.answer file with
    | ran code out err =>
        refine ⟨trialOfRun file code out err, ?_⟩
        simp only [attempt, Action.runIn_bind, here, entered, asked, leftIn, answer]
        rfl
    | timedOut command =>
        refine ⟨.failed file "Timeout after 30 seconds", ?_⟩
        simp only [attempt, Action.runIn_bind, here, entered, asked, leftIn, answer, left']
        rfl
    | failed reason =>
        refine ⟨.failed file reason, ?_⟩
        simp only [attempt, Action.runIn_bind, here, entered, asked, leftIn, answer, left']
        rfl
  · refine Or.inr ⟨failure, ?_, ?_⟩
    · simp only [attempt, Action.runIn_bind, here, refused]
    · rw [leftIn, Workspace.moved_of_not_opens shut, ite_self]

theorem runIn_tryFile (root file : String) (w : Workspace) :
    ∃ trial seconds, trial.time = .double seconds ∧
      (tryFile root file).runIn w = (.ok trial, { w with directory := leftIn w root file }) := by
  obtain ⟨trial, run⟩ : ∃ trial, (Action.orElse (attempt root file) fun failure =>
      pure (.failed file failure.message)).runIn w =
        (.ok trial, { w with directory := leftIn w root file }) := by
    rcases runIn_attempt root file w with ⟨trial, made⟩ | ⟨failure, refused, kept⟩
    · exact ⟨trial, Action.runIn_orElse_of_ok made _⟩
    · refine ⟨.failed file failure.message, ?_⟩
      rw [Action.runIn_orElse_of_error refused, kept]
      rfl
  have start : Action.now.runIn w = (.ok w.clock, w) := rfl
  refine ⟨{ trial with time := .double (w.clock - w.clock) }, _, rfl, ?_⟩
  simp only [tryFile, Action.runIn_bind, start, run]
  rfl

namespace Tester

theorem runIn_keep (file : String) (tester : Tester) (w : Workspace) :
    ∃ trial seconds, trial.time = .double seconds ∧
      (keep file).runIn tester w =
        (.ok trial, { tester with trials := tester.trials ++ [trial] },
          { w with directory := leftIn w tester.root file }) := by
  obtain ⟨trial, seconds, time, made⟩ := runIn_tryFile tester.root file w
  refine ⟨trial, seconds, time, ?_⟩
  simp only [keep, Session.runIn_bind, Session.runIn_own, Session.runIn_act, made,
    Session.runIn_update]
  rfl

theorem runIn_testFile (results : List (String × Trial)) (file : String) (tester : Tester)
    (w : Workspace) :
    ∃ trial text, (testFile results file).runIn tester w =
      (.ok (Json.put file trial results), { tester with trials := tester.trials ++ [trial] },
        { w with directory := leftIn w tester.root file, printed := text }) := by
  let told : Workspace := { w with printed := w.printed ++ s!"  Testing {file}..." }
  obtain ⟨trial, seconds, time, made⟩ := runIn_keep file tester told
  obtain ⟨line, verdict⟩ : ∃ line, verdictLine trial = .ok line := by
    rw [verdictLine, Trial.timeText, time]
    exact ⟨_, rfl⟩
  have announced : (Action.write s!"  Testing {file}...").runIn w = (.ok (), told) := rfl
  refine ⟨trial, told.printed ++ (line ++ "\n"), ?_⟩
  simp only [testFile, Session.runIn_bind, Session.runIn_act, announced, made, verdict]
  rfl

/-! ## Solvers that answer differently each time -/

def testTurn (results : List (String × Trial)) (turn : Solver × String) :
    Session Tester (List (String × Trial)) := do
  Session.act (modify fun w => { w with solver := turn.1 })
  testFile results turn.2

/-- Trials of the files of a module, where the solver may be another one each time. -/
def testTurns (name : String) (turns : List (Solver × String)) :
    Session Tester (List (String × Trial)) := do
  Session.act (Action.sayAll [s!"\nTesting module: {name}", Text.repeated 50 '-'])
  turns.foldlM testTurn []

theorem runIn_testTurn (results : List (String × Trial)) (turn : Solver × String) (tester : Tester)
    (w : Workspace) :
    (testTurn results turn).runIn tester w =
      (testFile results turn.2).runIn tester { w with solver := turn.1 } := by
  rw [testTurn, Session.runIn_bind]
  rfl

theorem runIn_foldlM_testFile (files : List String) (results : List (String × Trial))
    (tester : Tester) (w : Workspace) :
    (files.foldlM testFile results).runIn tester w =
      ((files.map (w.solver, ·)).foldlM testTurn results).runIn tester w := by
  induction files generalizing results tester w with
  | nil => rfl
  | cons file rest ih =>
      obtain ⟨trial, text, tried⟩ := runIn_testFile results file tester w
      rw [List.map_cons, List.foldlM_cons, List.foldlM_cons, Session.runIn_bind, Session.runIn_bind,
        runIn_testTurn, tried]
      exact ih _ _ { w with directory := leftIn w tester.root file, printed := text }

theorem runIn_testModule (name : String) (files : List String) (tester : Tester) (w : Workspace) :
    (testModule name files).runIn tester w =
      (testTurns name (files.map (w.solver, ·))).runIn tester w := by
  rw [testModule, testTurns, Session.runIn_bind, Session.runIn_bind, Session.runIn_act,
    Action.runIn_sayAll]
  exact runIn_foldlM_testFile files [] tester (w.saying _)

/-- Files are tried one after another: one is moved once for each run that was cut short. -/
theorem runIn_foldlM_testTurn (turns : List (Solver × String)) (results : List (String × Trial))
    (tester : Tester) (w : Workspace) :
    ∃ found kept solver text, (turns.foldlM testTurn results).runIn tester w =
      (.ok found, kept,
        { w with
          solver
          directory :=
            (w.tree.moved tester.root)^[turns.countP fun turn => (turn.1.answer turn.2).cutShort]
              w.directory
          printed := text }) := by
  induction turns generalizing results tester w with
  | nil => exact ⟨results, tester, w.solver, w.printed, rfl⟩
  | cons turn rest ih =>
      obtain ⟨trial, text, tried⟩ :=
        runIn_testFile results turn.2 tester { w with solver := turn.1 }
      obtain ⟨found, kept, solver, more, later⟩ := ih (Json.put turn.2 trial results)
        { tester with trials := tester.trials ++ [trial] }
        { w with
          solver := turn.1
          directory := leftIn { w with solver := turn.1 } tester.root turn.2
          printed := text }
      refine ⟨found, kept, solver, more, ?_⟩
      rw [List.foldlM_cons, Session.runIn_bind, runIn_testTurn, tried]
      refine later.trans ?_
      cases cut : (turn.1.answer turn.2).cutShort with
      | true => simp [leftIn, cut]
      | false => simp [leftIn, cut]

theorem runIn_testTurns (name : String) (turns : List (Solver × String)) (tester : Tester)
    (w : Workspace) :
    ∃ found kept solver text, (testTurns name turns).runIn tester w =
      (.ok found, kept,
        { w with
          solver
          directory :=
            (w.tree.moved tester.root)^[turns.countP fun turn => (turn.1.answer turn.2).cutShort]
              w.directory
          printed := text }) := by
  obtain ⟨found, kept, solver, text, run⟩ := runIn_foldlM_testTurn turns [] tester
    (w.saying [s!"\nTesting module: {name}", Text.repeated 50 '-'])
  refine ⟨found, kept, solver, text, ?_⟩
  rw [testTurns, Session.runIn_bind, Session.runIn_act, Action.runIn_sayAll]
  exact run

theorem directory_after_turns (name : String) (turns : List (Solver × String)) (tester : Tester)
    (w : Workspace) :
    ∃ found kept after, (testTurns name turns).runIn tester w = (.ok found, kept, after) ∧
      after.tree = w.tree ∧
      after.directory =
        (w.tree.moved tester.root)^[turns.countP fun turn => (turn.1.answer turn.2).cutShort]
          w.directory ∧
      (after.directory = w.directory ↔ (∀ turn ∈ turns, (turn.1.answer turn.2).cutShort = false) ∨
        ∀ base, w.Opens tester.root base → base = w.directory) := by
  obtain ⟨found, kept, solver, text, run⟩ := runIn_testTurns name turns tester w
  refine ⟨found, kept, _, run, rfl, rfl, ?_⟩
  rw [Tree.iterate_moved_eq_iff, Workspace.moved_eq_iff, List.countP_eq_zero]
  simp only [Bool.not_eq_true]

/-- Trials always return.  Each run that was cut short moves one into the directory of the solver;
so one is back where one was exactly if every run came to its end, or the directory of the solver
cannot be entered or is the one where one was.  The same holds if the solver answers differently
each time, also about one and the same file. -/
theorem directory_after_trials (tester : Tester) (w : Workspace) :
    (∀ file, ∃ trial after, (tryFile tester.root file).runIn w = (.ok trial, after) ∧
      after.tree = w.tree ∧
      after.directory = leftIn w tester.root file ∧
      (after.directory = w.directory ↔ (w.solver.answer file).cutShort = false ∨
        ∀ base, w.Opens tester.root base → base = w.directory)) ∧
    (∀ name files, ∃ found kept after,
      (testModule name files).runIn tester w = (.ok found, kept, after) ∧
      after.tree = w.tree ∧
      after.directory =
        (w.tree.moved tester.root)^[files.countP fun file => (w.solver.answer file).cutShort]
          w.directory ∧
      (after.directory = w.directory ↔ (∀ file ∈ files, (w.solver.answer file).cutShort = false) ∨
        ∀ base, w.Opens tester.root base → base = w.directory)) ∧
    ∀ name turns, ∃ found kept after,
      (testTurns name turns).runIn tester w = (.ok found, kept, after) ∧
      after.tree = w.tree ∧
      after.directory =
        (w.tree.moved tester.root)^[turns.countP fun turn => (turn.1.answer turn.2).cutShort]
          w.directory ∧
      (after.directory = w.directory ↔ (∀ turn ∈ turns, (turn.1.answer turn.2).cutShort = false) ∨
        ∀ base, w.Opens tester.root base → base = w.directory) := by
  refine ⟨?_, ?_, fun name turns => directory_after_turns name turns tester w⟩
  · intro file
    obtain ⟨trial, _, _, run⟩ := runIn_tryFile tester.root file w
    exact ⟨trial, _, run, rfl, rfl, leftIn_eq_iff⟩
  · intro name files
    obtain ⟨found, kept, after, run, tree, moves, back⟩ :=
      directory_after_turns name (files.map (w.solver, ·)) tester w
    rw [← runIn_testModule] at run
    rw [List.countP_map] at moves
    rw [List.forall_mem_map] at back
    exact ⟨found, kept, after, run, tree, moves, back⟩

/-- A workspace with a directory `solver`, where the run on one file takes too long. -/
def slowWorkspace : Workspace where
  tree := ⟨[(["solver"], .directory)]⟩
  directory := []
  clock := 1000.0
  solver := [("a.tau", .timedOut "['tau']")]
  printed := ""

/-- After a run that takes too long one is in the directory of the solver, after one trial and after
several. -/
theorem slowWorkspace_not_back :
    ((tryFile "solver" "a.tau").runIn slowWorkspace).2.directory = ["solver"] ∧
      ((testModule "m" ["a.tau", "b.tau"]).runIn { root := "solver" } slowWorkspace).2.2.directory =
        ["solver"] ∧
      slowWorkspace.directory = [] := by
  decide +kernel

end Tester

end Inspection

end Zkvm
