import Zkvm.Component.Report
import Zkvm.Inspection.Examiner
import Zkvm.Proofs.Workspace.Paths
import Zkvm.Proofs.Workspace.Printing

/-!
# Measuring what was written

The statement of a file is found by the first mention of the word that begins a statement.  In the
file of a component that word comes after remarks with a name and two lists of texts.  A piece of
text without the characters that stand between those cannot reach from one into the other, so the
first mention is the right one if no name and no listed text has it, and the statement that is
measured is the one that was written.
-/
set_option autoImplicit false

namespace Zkvm

/-! ## Pieces of a text -/

namespace Text

variable {needle front back text : List Char} {separator : Char}

theorem prefix_of_prefix_append (free : separator ∉ needle)
    (begins : needle <+: front ++ separator :: back) :
    needle <+: front := by
  induction front generalizing needle with
  | nil =>
      cases needle with
      | nil => exact List.prefix_refl _
      | cons c rest =>
          rw [List.nil_append, List.cons_prefix_cons] at begins
          exact absurd (begins.1 ▸ List.mem_cons_self ..) free
  | cons first more ih =>
      cases needle with
      | nil => exact List.nil_prefix
      | cons c rest =>
          rw [List.cons_append, List.cons_prefix_cons] at begins
          rw [List.mem_cons, not_or] at free
          exact List.cons_prefix_cons.mpr ⟨begins.1, ih free.2 begins.2⟩

theorem eq_nil_of_prefix (free : separator ∉ needle) (begins : needle <+: separator :: back) :
    needle = [] :=
  List.prefix_nil.mp
    (prefix_of_prefix_append free (show needle <+: [] ++ separator :: back from begins))

theorem infix_of_infix_cons (free : separator ∉ needle) (inside : needle <:+: separator :: back) :
    needle <:+: back := by
  rcases List.infix_cons_iff.mp inside with begins | later
  · exact eq_nil_of_prefix free begins ▸ List.nil_infix
  · exact later

/-- A piece without the separator lies on one side of it. -/
theorem infix_append_separator (free : separator ∉ needle) :
    needle <:+: front ++ separator :: back ↔ needle <:+: front ∨ needle <:+: back := by
  constructor
  · intro inside
    induction front with
    | nil => exact Or.inr (infix_of_infix_cons free inside)
    | cons first more ih =>
        rcases List.infix_cons_iff.mp inside with begins | later
        · exact Or.inl (prefix_of_prefix_append free begins).isInfix
        · exact (ih later).imp_left List.infix_cons
  · rintro (first | second)
    · exact first.trans (List.prefix_append ..).isInfix
    · exact second.trans ((List.suffix_cons ..).trans (List.suffix_append ..)).isInfix

/-- The first place of a text that comes after a separator and is nowhere before it. -/
theorem findFrom_append_separator (free : separator ∉ needle) (absent : ¬ needle <:+: front)
    (filled : needle ≠ []) (start : Nat) :
    findFrom needle start (front ++ separator :: (needle ++ back)) =
      some (start + (front.length + 1)) := by
  have whole : needle.isPrefixOf (needle ++ back) = true :=
    List.isPrefixOf_iff_prefix.mpr (List.prefix_append ..)
  have early {first : List Char} (elsewhere : ¬ needle <:+: first) :
      needle.isPrefixOf (first ++ separator :: (needle ++ back)) = false := by
    rw [Bool.eq_false_iff, Ne, List.isPrefixOf_iff_prefix]
    exact fun begins => elsewhere (prefix_of_prefix_append free begins).isInfix
  induction front generalizing start with
  | nil =>
      obtain ⟨c, rest, spelled⟩ := List.exists_cons_of_ne_nil filled
      have skipped := early absent
      rw [List.nil_append] at skipped ⊢
      rw [findFrom, skipped, if_neg Bool.false_ne_true]
      rw [spelled] at whole ⊢
      rw [List.cons_append, findFrom, ← List.cons_append, whole, if_pos rfl]
      rfl
  | cons first more ih =>
      have skipped := early absent
      rw [List.cons_append] at skipped ⊢
      rw [findFrom, skipped, if_neg Bool.false_ne_true,
        ih (fun later => absent (List.infix_cons later))]
      simp only [List.length_cons]
      congr 1
      omega

/-! ## Line ends -/

theorem unifyLineEnds_cons {c : Char} (ordinary : c ≠ '\r') (rest : List Char) :
    unifyLineEnds (c :: rest) = c :: unifyLineEnds rest := by
  rw [unifyLineEnds]
  · exact fun _ same => absurd same ordinary
  · exact ordinary

theorem unifyLineEnds_return (lone : text.head? ≠ some '\n') :
    unifyLineEnds ('\r' :: text) = '\n' :: unifyLineEnds text := by
  rw [unifyLineEnds]
  rintro rest rfl
  exact lone rfl

theorem unifyLineEnds_of_not_mem (free : '\r' ∉ text) : unifyLineEnds text = text := by
  induction text with
  | nil => rfl
  | cons c rest ih =>
      rw [List.mem_cons, not_or] at free
      rw [unifyLineEnds_cons (Ne.symm free.1), ih free.2]

theorem exists_unifyLineEnds_append (front : List Char) :
    ∃ before, ∀ back, unifyLineEnds (front ++ '\n' :: back) =
      before ++ '\n' :: unifyLineEnds back := by
  fun_induction unifyLineEnds front with
  | case1 => exact ⟨[], fun back => unifyLineEnds_cons (by decide) back⟩
  | case2 rest ih =>
      obtain ⟨before, same⟩ := ih
      refine ⟨'\n' :: before, fun back => ?_⟩
      rw [List.cons_append, List.cons_append, unifyLineEnds, same, List.cons_append]
  | case3 rest lone ih =>
      cases rest with
      | nil => exact ⟨[], fun back => by simp [unifyLineEnds]⟩
      | cons c more =>
          have other : c ≠ '\n' := by
            rintro rfl
            exact lone more rfl
          obtain ⟨before, same⟩ := ih
          refine ⟨'\n' :: before, fun back => ?_⟩
          change unifyLineEnds ('\r' :: (c :: more ++ '\n' :: back)) = _
          rw [unifyLineEnds_return (by simp [other]), same, List.cons_append]
  | case4 c rest _ ordinary ih =>
      obtain ⟨before, same⟩ := ih
      refine ⟨c :: before, fun back => ?_⟩
      rw [List.cons_append, unifyLineEnds_cons ordinary, same, List.cons_append]

/-- Reading lines makes no new piece that lies within one line. -/
theorem prefix_of_prefix_unifyLineEnds (free : '\n' ∉ needle)
    (begins : needle <+: unifyLineEnds text) :
    needle <+: text := by
  fun_induction unifyLineEnds text generalizing needle with
  | case1 => exact begins
  | case2 rest ih => exact eq_nil_of_prefix free begins ▸ List.nil_prefix
  | case3 rest lone ih => exact eq_nil_of_prefix free begins ▸ List.nil_prefix
  | case4 c rest _ ordinary ih =>
      cases needle with
      | nil => exact List.nil_prefix
      | cons first more =>
          rw [List.mem_cons, not_or] at free
          rw [List.cons_prefix_cons] at begins ⊢
          exact ⟨begins.1, ih free.2 begins.2⟩

theorem infix_of_infix_unifyLineEnds (free : '\n' ∉ needle)
    (inside : needle <:+: unifyLineEnds text) :
    needle <:+: text := by
  fun_induction unifyLineEnds text with
  | case1 => exact inside
  | case2 rest ih => exact List.infix_cons (List.infix_cons (ih (infix_of_infix_cons free inside)))
  | case3 rest lone ih => exact List.infix_cons (ih (infix_of_infix_cons free inside))
  | case4 c rest _ ordinary ih =>
      rcases List.infix_cons_iff.mp inside with begins | later
      · rw [← unifyLineEnds_cons ordinary] at begins
        exact (prefix_of_prefix_unifyLineEnds free begins).isInfix
      · exact List.infix_cons (ih later)

/-! ## White space at the ends -/

theorem trim_eq_self {text : String} (first : ∀ c, text.toList.head? = some c → isSpace c = false)
    (last : ∀ c, text.toList.getLast? = some c → isSpace c = false) : trim text = text := by
  have kept {letters : List Char} (start : ∀ c, letters.head? = some c → isSpace c = false) :
      letters.dropWhile isSpace = letters := by
    cases letters with
    | nil => rfl
    | cons c rest => rw [List.dropWhile_cons, start c rfl, if_neg Bool.false_ne_true]
  rw [trim, trimChars, kept first, kept, List.reverse_reverse, String.ofList_toList]
  rw [List.head?_reverse]
  exact last

end Text

/-! ## The statement of a component -/

namespace Component

open Inspection (statementOf readStatement examine)

def headings (component : Component) : List String :=
  component.name :: (component.assumptions.getD [] ++ component.guarantees.getD [])

/-- The statement is in one line without white space at its ends, and the word that begins a
statement is in no text before it. -/
structure Legible (component : Component) : Prop where
  unmentioned : ∀ heading ∈ component.headings, Text.mentions heading "solve" = false
  unbroken : '\n' ∉ component.statement.toList
  unreturned : '\r' ∉ component.statement.toList
  first : ∀ c, component.statement.toList.head? = some c → Text.isSpace c = false
  last : ∀ c, component.statement.toList.getLast? = some c → Text.isSpace c = false

def Silent (text : List Char) : Prop :=
  ¬ "solve".toList <:+: text

theorem silent_of_not_mentions {text : String} (unmentioned : Text.mentions text "solve" = false) :
    Silent text.toList := by
  rw [Silent, ← Text.mentions_iff, unmentioned]
  exact Bool.false_ne_true

theorem silent_nil : Silent [] := by
  simp [Silent]

theorem Silent.append {first second : List Char} (before : Silent first) (separator : Char)
    (free : separator ∉ "solve".toList) (after : Silent second) :
    Silent (first ++ separator :: second) := by
  intro inside
  exact ((Text.infix_append_separator free).mp inside).elim before after

theorem silent_intercalate {items : List String} (silent : ∀ item ∈ items, Silent item.toList) :
    Silent (", ".intercalate items).toList := by
  rw [String.toList_intercalate]
  induction items with
  | nil => exact silent_nil
  | cons item rest ih =>
      rw [List.forall_mem_cons] at silent
      cases rest with
      | nil =>
          rw [List.map_singleton, List.intercalate_singleton]
          exact silent.1
      | cons next more =>
          rw [List.map_cons, List.map_cons, List.intercalate_cons_cons, List.append_assoc]
          exact silent.1.append ',' (by decide) (silent_nil.append ' ' (by decide) (ih silent.2))

theorem silent_remark_append {title : String} (titled : Silent ("# " ++ title ++ ":").toList)
    {items : Option (List String)} (silent : ∀ item ∈ items.getD [], Silent item.toList)
    {rest : List Char} (after : Silent rest) : Silent ((remark title items).toList ++ rest) := by
  rcases items with _ | _ | ⟨item, more⟩
  · exact after
  · exact after
  · have spelled : (remark title (some (item :: more))).toList ++ rest =
        ("# " ++ title ++ ":").toList ++ ' ' ::
          ((", ".intercalate (item :: more)).toList ++ '\n' :: rest) := by
      simp [remark, toString]
    rw [spelled]
    exact titled.append ' ' (by decide) ((silent_intercalate silent).append '\n' (by decide) after)

def heading (component : Component) : List Char :=
  "# Component:".toList ++ ' ' :: (component.name.toList ++ '\n' ::
    ((remark "Assumptions" component.assumptions).toList ++
      (remark "Guarantees" component.guarantees).toList))

theorem toList_text (component : Component) :
    component.text.toList =
      component.heading ++ '\n' ::
        ("solve".toList ++ ' ' :: (component.statement.toList ++ '\n' :: "\nquit".toList)) := by
  have start : "# Component: ".toList = "# Component:".toList ++ [' '] := by decide
  have word : "\nsolve ".toList = '\n' :: ("solve".toList ++ [' ']) := by decide
  have finish : "\n\nquit".toList = '\n' :: "\nquit".toList := by decide
  have lineEnd : "\n".toList = ['\n'] := by decide
  unfold text heading
  simp only [toString, String.toList_append, start, word, finish, lineEnd, List.append_assoc,
    List.cons_append, List.nil_append]

theorem Legible.silent_heading {component : Component} (legible : component.Legible) :
    Silent component.heading := by
  have silent := fun heading member => silent_of_not_mentions (legible.unmentioned heading member)
  rw [headings, List.forall_mem_cons, List.forall_mem_append] at silent
  have assumptions : Silent ("# " ++ "Assumptions" ++ ":").toList :=
    silent_of_not_mentions (by decide)
  have guarantees : Silent ("# " ++ "Guarantees" ++ ":").toList :=
    silent_of_not_mentions (by decide)
  have last := silent_remark_append guarantees silent.2.2 silent_nil
  rw [List.append_nil] at last
  have remarks := silent_remark_append assumptions silent.2.1 last
  exact (silent_of_not_mentions (by decide)).append ' ' (by decide)
    (silent.1.append '\n' (by decide) remarks)

/-- The statement that is found in the text of a component, with its lines as they are read, is the
component's. -/
theorem Legible.statementOf_text {component : Component} (legible : component.Legible) :
    statementOf (String.ofList (Text.unifyLineEnds component.text.toList)) =
      component.statement := by
  obtain ⟨before, same⟩ := Text.exists_unifyLineEnds_append component.heading
  have unbroken : '\n' ∉ "solve".toList := by decide
  have silent : ¬ "solve".toList <:+: before := by
    intro inside
    have longer : "solve".toList <:+: Text.unifyLineEnds (component.heading ++ '\n' :: []) := by
      rw [same]
      exact inside.trans (List.prefix_append ..).isInfix
    have written := Text.infix_of_infix_unifyLineEnds unbroken longer
    exact (legible.silent_heading.append '\n' unbroken silent_nil) written
  have unreturned :
      '\r' ∉ "solve".toList ++ ' ' :: (component.statement.toList ++ '\n' :: "\nquit".toList) := by
    have absent := legible.unreturned
    simp [absent]
  have read : (String.ofList (Text.unifyLineEnds component.text.toList)).toList =
      before ++ '\n' ::
        ("solve".toList ++ ' ' :: (component.statement.toList ++ '\n' :: "\nquit".toList)) := by
    exact String.toList_ofList.trans
      (by rw [toList_text, same, Text.unifyLineEnds_of_not_mem unreturned])
  have place : Text.find? "solve" (String.ofList (Text.unifyLineEnds component.text.toList)) =
      some (0 + (before.length + 1)) := by
    rw [Text.find?, read]
    exact Text.findFrom_append_separator unbroken silent (by decide) 0
  have rest : (before ++ '\n' :: ("solve".toList ++ ' ' ::
      (component.statement.toList ++ '\n' :: "\nquit".toList))).drop (0 + (before.length + 1) + 6) =
        component.statement.toList ++ '\n' :: "\nquit".toList := by
    rw [show 0 + (before.length + 1) + 6 = before.length + 7 by omega, List.drop_length_add_append]
    rfl
  have line : (component.statement.toList ++ '\n' :: "\nquit".toList).takeWhile (· ≠ '\n') =
      component.statement.toList := by
    rw [List.takeWhile_append_of_pos, List.takeWhile_cons]
    · simp
    · intro c member
      exact decide_eq_true fun same => legible.unbroken (same ▸ member)
  rw [statementOf, place]
  simp only [read, rest, line, String.ofList_toList]
  exact Text.trim_eq_self legible.first legible.last

end Component

/-! ## Writing and reading back -/

namespace Action

theorem runIn_readFile_of_lookup {path text : String} {w : Workspace} {location : Location}
    (named : path ≠ "") (found : w.tree.resolve w.directory path = .ok location)
    (there : w.tree.lookup location = some (.file text)) :
    (readFile path).runIn w = (.ok (String.ofList (Text.unifyLineEnds text.toList)), w) := by
  rcases runIn_locate path w with ⟨other, _, foundToo, located⟩ | ⟨nowhere, _⟩
  · rw [found] at foundToo
    cases foundToo
    simp only [readFile, runIn_bind, located, runIn_get, there]
    rfl
  · exact absurd found (nowhere location named)

/-- A file that was written is read back with its lines unified. -/
theorem runIn_readFile_put {path : String} {w : Workspace} {location : Location}
    (places : w.Places path location) (text : String) :
    (readFile path).runIn (w.put location text) =
      (.ok (String.ofList (Text.unifyLineEnds text.toList)), w.put location text) :=
  runIn_readFile_of_lookup places.named
    ((Workspace.sameDirectories_put places.free text).resolve places.found)
    (Tree.lookup_set_same w.tree (Tree.ne_root_of_not_isDirectory places.free) _)

end Action

namespace Inspection

theorem Outcome.ofAnswer_ne_tooLarge (answer : Answer) : Outcome.ofAnswer answer ≠ .tooLarge := by
  cases answer with
  | timedOut command => simp [ofAnswer]
  | failed reason => simp [ofAnswer]
  | ran code out err =>
      rw [ofAnswer]
      split
      · simp
      · split
        · simp
        · split <;> simp

/-- A file with a statement that is not too long is examined by its answer. -/
theorem runIn_examine {path text : String} {w after : Workspace} (clean : Path.clean path = path)
    (read : (readStatement path).runIn w = (.ok text, after)) (short : text.length ≤ maxStatement) :
    (examine path).runIn w = (.ok ⟨text.length, .ofAnswer (after.solver.answer path)⟩, after) := by
  have asked : (Action.solve path).runIn after = (.ok (after.solver.answer path), after) := rfl
  simp only [examine, clean, Action.runIn_bind, read, if_neg (Nat.not_lt.mpr short), asked]
  rfl

end Inspection

namespace Component

open Inspection (readStatement examine)

def filePath (component : Component) (directory : String) : String :=
  Path.under directory s!"{component.name}.tau"

theorem fileText_of_short {component : Component} (short : component.statement.length ≤ maxLength) :
    component.fileText = .ok component.text :=
  if_neg (Nat.not_lt.mpr short)

theorem fileText_of_long {component : Component} (long : ¬ component.statement.length ≤ maxLength) :
    component.fileText = .error (.tooLong (some component.name) component.statement.length) :=
  if_pos (Nat.lt_of_not_le long)

theorem exists_fileText_iff {component : Component} :
    (∃ text, component.fileText = .ok text) ↔ component.statement.length ≤ maxLength := by
  constructor
  · rintro ⟨text, made⟩
    by_contra long
    rw [fileText_of_long long] at made
    cases made
  · exact fun short => ⟨_, fileText_of_short short⟩

/-- A component is written if its statement is short enough and there is a place for its file;
otherwise nothing is changed. -/
theorem runIn_save (component : Component) (directory : String) (w : Workspace) :
    (∃ location, component.statement.length ≤ maxLength ∧
      w.Places (component.filePath directory) location ∧
        (component.save directory).runIn w =
          (.ok ⟨component.name, true, component.statement.length⟩, w.put location component.text)) ∨
      ((∀ location, component.statement.length ≤ maxLength →
        ¬ w.Places (component.filePath directory) location) ∧
        (component.save directory).runIn w = (.ok ⟨component.name, false, 0⟩, w)) := by
  by_cases short : component.statement.length ≤ maxLength
  · have made : (Action.ofExcept component.fileText).runIn w = (.ok component.text, w) := by
      rw [fileText_of_short short]
      rfl
    rcases Action.runIn_writeFile (component.filePath directory) component.text w with
      ⟨location, places, written⟩ | ⟨nowhere, trouble, refused⟩
    · refine Or.inl ⟨location, short, places, Action.runIn_orElse_of_ok ?_ _⟩
      rw [filePath] at written
      simp only [Action.runIn_bind, made, written]
      rfl
    · refine Or.inr ⟨fun location _ => nowhere location, ?_⟩
      refine (Action.runIn_orElse_of_error (show Action.runIn _ w =
        (.error (.path trouble (component.filePath directory)), w) from ?_) _).trans rfl
      rw [filePath] at refused ⊢
      simp only [Action.runIn_bind, made, refused]
  · refine Or.inr ⟨fun _ again => absurd again short, ?_⟩
    refine (Action.runIn_orElse_of_error (show Action.runIn _ w =
      (.error (.tooLong (some component.name) component.statement.length), w) from ?_) _).trans rfl
    rw [fileText_of_long short]
    rfl

/-- The text of a component is made exactly if its statement has at most seven hundred characters.
It is then written wherever there is a place for its file, and what is measured in that file is the
statement, letter for letter; so the file is never found too large. -/
theorem measured_as_written {component : Component} (legible : component.Legible) :
    ((∃ text, component.fileText = .ok text) ↔ component.statement.length ≤ 700) ∧
      ∀ directory w, ∃ saved after, (component.save directory).runIn w = (.ok saved, after) ∧
        (saved.success = true ↔ component.statement.length ≤ 700 ∧
          ∃ location, w.Places (component.filePath directory) location) ∧
        (saved.success = true →
          (readStatement (component.filePath directory)).runIn after =
            (.ok component.statement, after) ∧
          ∃ outcome, (examine (component.filePath directory)).runIn after =
            (.ok ⟨component.statement.length, outcome⟩, after) ∧ outcome ≠ .tooLarge) := by
  refine ⟨exists_fileText_iff, fun directory w => ?_⟩
  rcases runIn_save component directory w with ⟨location, short, places, run⟩ | ⟨nowhere, run⟩
  · refine ⟨_, _, run, ⟨fun _ => ⟨short, location, places⟩, fun _ => rfl⟩, fun _ => ?_⟩
    have read :
        (readStatement (component.filePath directory)).runIn (w.put location component.text) =
        (.ok component.statement, w.put location component.text) := by
      rw [readStatement, Action.runIn_bind, Action.runIn_readFile_put places]
      simp only [legible.statementOf_text]
      rfl
    have within : component.statement.length ≤ Inspection.maxStatement :=
      Nat.le_trans short (by decide)
    exact ⟨read, _, Inspection.runIn_examine (Path.clean_under ..) read within,
      Inspection.Outcome.ofAnswer_ne_tooLarge _⟩
  · refine ⟨_, _, run,
      ⟨fun done => ?_, fun ⟨short, location, places⟩ => absurd places (nowhere location short)⟩,
      fun done => ?_⟩
    · cases done
    · cases done

/-- A component whose headings come close to the word that begins a statement, and whose statement
has it. -/
def nearMiss : Component where
  name := "resolv"
  constraints := ["solve=1", "e=(solve&s)"]
  assumptions := some ["sol", "ve=0|ve=1"]
  guarantees := some ["e"]

theorem nearMiss_legible : nearMiss.Legible where
  unmentioned := by decide
  unbroken := by decide
  unreturned := by decide
  first c head := by
    have start : nearMiss.statement.toList.head? = some 's' := by decide
    rw [start] at head
    cases head
    decide
  last c end' := by
    have finish : nearMiss.statement.toList.getLast? = some ')' := by decide
    rw [finish] at end'
    cases end'
    decide

def emptyBuild : Workspace where
  tree := ⟨[(["build"], .directory)]⟩
  directory := []
  clock := 1000.0
  solver := []
  printed := ""

/-- It is written to the directory, and measured as it was written. -/
theorem nearMiss_measured :
    nearMiss.Legible ∧ nearMiss.statement = "solve=1 && e=(solve&s)" ∧
      ∃ saved after, (nearMiss.save "build").runIn emptyBuild = (.ok saved, after) ∧
        saved.success = true ∧
        (readStatement (nearMiss.filePath "build")).runIn after =
          (.ok "solve=1 && e=(solve&s)", after) := by
  obtain ⟨saved, after, run, written, measured⟩ :=
    (measured_as_written nearMiss_legible).2 "build" emptyBuild
  have path : nearMiss.filePath "build" = "build/resolv.tau" := by decide +kernel
  have places : emptyBuild.Places "build/resolv.tau" ["build", "resolv.tau"] :=
    ⟨by decide, by decide, rfl, rfl, rfl⟩
  have done := written.mpr ⟨by decide, _, path ▸ places⟩
  exact ⟨nearMiss_legible, by decide, saved, after, run, done, (measured done).1⟩

end Component

end Zkvm
