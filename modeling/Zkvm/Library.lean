import Zkvm.Circuit.Blueprint
import Zkvm.Circuit.Record
import Zkvm.Component.Catalogue
import Zkvm.Component.Sample
import Zkvm.Composition.Assembly
import Zkvm.Composition.Halves
import Zkvm.Composition.Words
import Zkvm.Contract.Record
import Zkvm.Folding.Decomposition
import Zkvm.Folding.Record
import Zkvm.Inspection.Coverage
import Zkvm.Inspection.Examiner
import Zkvm.Inspection.Survey
import Zkvm.Inspection.Trial
import Zkvm.Json.View
import Zkvm.Lookup.Notations
import Zkvm.Lookup.Table
import Zkvm.Machine.Script
import Zkvm.Machine.Validator
import Zkvm.Repair.Round
import Zkvm.Showcase.Folding
import Zkvm.Showcase.Instructions
import Zkvm.Showcase.Patterns
import Zkvm.Showcase.Proving
import Zkvm.Testing.Suite
import Zkvm.Work.Orchestrator
import Zkvm.Workspace.Setup

/-!
# The library

Everything that computes: the machine, the generators, the inspections and the jobs around them.
What talks to the outside is not part of it.
-/
