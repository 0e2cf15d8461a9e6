import Zkvm.Formula.Basic
import Zkvm.Workspace.Action

/-!
# Collections of demonstrations

A demonstration is a file that explains one idea: a statement for the solver under a few remarks, or
a document. A collection has several of them and a guide, and writes them all.
-/
set_option autoImplicit false

namespace Zkvm.Showcase

structure Demo where
  /-- What it shows. -/
  title : String
  fileName : String
  text : String

def Demo.ofStatement (title fileName : String) (remarks clauses : List String) : Demo :=
  ⟨title, fileName, Text.lines remarks ++ s!"\nsolve {Formula.joinTexts clauses}\n\nquit"⟩

/-- Gives the numbered names of a row the bits of a text. -/
def row (name bits : String) : List String :=
  bits.toList.zipIdx.map fun (bit, i) => s!"{name}{i}={bit}"

def each (count : Nat) (clause : Nat → String) : List String :=
  (List.range count).map clause

structure Collection where
  demos : List Demo
  /-- The document that explains the collection. -/
  guide : String
  /-- Whether the files go to a directory of their own. -/
  ownDirectory : Bool := false

namespace Collection

def files (collection : Collection) : List (String × String) :=
  collection.demos.map (fun demo => (demo.fileName, demo.text)) ++ [("README.md", collection.guide)]

def text? (collection : Collection) (title : String) : Option String :=
  (collection.demos.find? fun demo => demo.title = title).map (·.text)

def save (collection : Collection) (directory : String) : Action Unit :=
  collection.files.forM fun (name, text) => do
    Action.writeFile (if collection.ownDirectory then Path.join directory name else name) text
    Action.say s!"Generated {name}"

end Collection

end Zkvm.Showcase
