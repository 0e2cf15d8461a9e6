import Zkvm.Proofs.Workspace.Writing

/-!
# Printing and looking

Lines are added to what a workspace has printed and change nothing else in it.  Reading and listing
files changes nothing at all, and the files that are listed do not depend on what was printed.
-/
set_option autoImplicit false

namespace Zkvm

namespace Text

def printedLines (lines : List String) : String :=
  String.join (lines.map (· ++ "\n"))

theorem printedLines_append (first second : List String) :
    printedLines (first ++ second) = printedLines first ++ printedLines second := by
  simp [printedLines]

theorem printedLines_cons (line : String) (rest : List String) :
    printedLines (line :: rest) = line ++ "\n" ++ printedLines rest := by
  simp [printedLines]

theorem not_mem_printedLines {lines : List String} {c : Char} (ordinary : c ≠ '\n')
    (absent : ∀ line ∈ lines, c ∉ line.toList) : c ∉ (printedLines lines).toList := by
  induction lines with
  | nil => exact List.not_mem_nil
  | cons line rest ih =>
      rw [List.forall_mem_cons] at absent
      rw [printedLines_cons, String.toList_append, String.toList_append, List.mem_append,
        List.mem_append]
      rintro ((inLine | atEnd) | later)
      · exact absent.1 inLine
      · exact ordinary (List.mem_singleton.mp atEnd)
      · exact ih absent.2 later

theorem infix_printedLines {lines : List String} {line : String} (member : line ∈ lines) :
    line.toList <:+: (printedLines lines).toList := by
  obtain ⟨before, after, same⟩ := List.append_of_mem member
  refine ⟨(printedLines before).toList, ("\n" ++ printedLines after).toList, ?_⟩
  rw [same, printedLines_append, printedLines_cons]
  simp only [String.toList_append, List.append_assoc]

theorem findFrom_isSome_iff (needle : List Char) (start : Nat) (text : List Char) :
    (findFrom needle start text).isSome = true ↔ needle <:+: text := by
  induction text generalizing start with
  | nil => simp [findFrom]
  | cons c rest ih =>
      rw [List.infix_cons_iff, ← List.isPrefixOf_iff_prefix, findFrom]
      split
      · simp [*]
      · simp [*]

theorem mentions_iff {text needle : String} :
    mentions text needle = true ↔ needle.toList <:+: text.toList :=
  findFrom_isSome_iff needle.toList 0 text.toList

end Text

/-- The workspace in which these lines were printed as well. -/
def Workspace.saying (w : Workspace) (lines : List String) : Workspace :=
  { w with printed := w.printed ++ Text.printedLines lines }

theorem Workspace.saying_nil (w : Workspace) : w.saying [] = w := by
  simp [saying, Text.printedLines]

theorem Workspace.saying_saying (w : Workspace) (first second : List String) :
    (w.saying first).saying second = w.saying (first ++ second) := by
  simp [saying, Text.printedLines_append, String.append_assoc]

namespace Action

theorem runIn_ofExcept_ok {α : Type} (value : α) (w : Workspace) :
    (ofExcept (.ok value)).runIn w = (.ok value, w) :=
  rfl

theorem runIn_say (line : String) (w : Workspace) :
    (say line).runIn w = (.ok (), w.saying [line]) := by
  have single : Text.printedLines [line] = line ++ "\n" := by simp [Text.printedLines]
  rw [Workspace.saying, single]
  rfl

theorem runIn_sayAll (lines : List String) (w : Workspace) :
    (sayAll lines).runIn w = (.ok (), w.saying lines) := by
  induction lines generalizing w with
  | nil =>
      rw [Workspace.saying_nil]
      rfl
  | cons line rest ih =>
      change (say line >>= fun _ => sayAll rest).runIn w = _
      rw [runIn_bind, runIn_say]
      simp only [ih, Workspace.saying_saying]
      rfl

theorem exists_runIn_readFile (path : String) (w : Workspace) :
    ∃ outcome, (readFile path).runIn w = (outcome, w) := by
  rcases runIn_locate path w with ⟨location, _, _, located⟩ | ⟨_, trouble, located⟩
  · cases there : w.tree.lookup location with
    | none =>
        refine ⟨.error (.path (trouble path (.missing (Path.name path))) path), ?_⟩
        simp only [readFile, runIn_bind, located, runIn_get, there]
        rfl
    | some node =>
        cases node with
        | file text =>
            refine ⟨.ok (String.ofList (Text.unifyLineEnds text.toList)), ?_⟩
            simp only [readFile, runIn_bind, located, runIn_get, there]
            rfl
        | directory =>
            refine ⟨.error (.path .isADirectory path), ?_⟩
            simp only [readFile, runIn_bind, located, runIn_get, there]
            rfl
  · refine ⟨.error (.path trouble path), ?_⟩
    rw [readFile, runIn_bind, located]

theorem exists_runIn_readJson (path : String) (w : Workspace) :
    ∃ outcome, (readJson path).runIn w = (outcome, w) := by
  obtain ⟨outcome, read⟩ := exists_runIn_readFile path w
  cases outcome with
  | error failure =>
      refine ⟨.error failure, ?_⟩
      rw [readJson, runIn_bind, read]
  | ok text =>
      cases parsed : Json.parse text with
      | ok value =>
          refine ⟨.ok value, ?_⟩
          simp only [readJson, runIn_bind, read, parsed]
          rfl
      | error reason =>
          refine ⟨.error (.malformed reason), ?_⟩
          simp only [readJson, runIn_bind, read, parsed]
          rfl

/-- The same files are listed whatever was printed. -/
theorem exists_runIn_listTree (directory ending : String) (w : Workspace) :
    ∃ files, ∀ lines, (listTree directory ending).runIn (w.saying lines) =
      (.ok files, w.saying lines) := by
  cases found : w.tree.resolve w.directory directory with
  | error detour =>
      refine ⟨[], fun lines => ?_⟩
      simp only [listTree, runIn_bind, runIn_get, Workspace.saying, found]
      rfl
  | ok location =>
      apply Exists.intro
      intro lines
      simp only [listTree, runIn_bind, runIn_get, Workspace.saying, found]
      rfl

end Action

end Zkvm
