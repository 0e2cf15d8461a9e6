import Mathlib.Data.List.Perm.Basic
import Zkvm.Proofs.Circuit.Order
import Zkvm.Proofs.Circuit.Parts
import Zkvm.Proofs.Json.Put

/-!
# Compiling all modules

The modules are compiled in their order, one after another, and the list of all files is written at
the end.  A name in the order that is no module's stops the compilation, and so does a module that
cannot be lowered or a file that has no place.  Where there is no room to follow all dependencies
there is no order, and nothing is written. Whatever stops it, only parts of modules were written
before, and the list of files is as it was.
-/
set_option autoImplicit false

namespace Zkvm.Circuit

namespace Compiler

/-! ## Registering modules -/

def registerAll (compiler : Compiler) (modules : List Module) : Compiler :=
  modules.foldl register compiler

/-- Every module stands under its own name, and under no other. -/
structure Consistent (compiler : Compiler) : Prop where
  distinct : (compiler.modules.map Prod.fst).Nodup
  named : ∀ entry ∈ compiler.modules, entry.2.name = entry.1

/-- Of modules with one name, the last that was registered is kept. -/
theorem lookup_registerAll (compiler : Compiler) (modules : List Module) (name : String) :
    (compiler.registerAll modules).modules.lookup name =
      (modules.reverse.find? (·.name == name)).or (compiler.modules.lookup name) := by
  induction modules generalizing compiler with
  | nil => rfl
  | cons m rest ih =>
      have first : (compiler.register m).modules.lookup name =
          if name = m.name then some m else compiler.modules.lookup name :=
        Json.lookup_put m.name name m compiler.modules
      rw [registerAll, List.foldl_cons, ← registerAll, ih, first, List.reverse_cons,
        List.find?_append, Option.or_assoc]
      by_cases same : name = m.name
      · simp [same]
      · simp [same, Ne.symm same]

theorem Consistent.register {compiler : Compiler} (consistent : compiler.Consistent) (m : Module) :
    (compiler.register m).Consistent where
  distinct := Json.nodup_put consistent.distinct
  named entry member := by
    rcases Json.mem_put member with rfl | earlier
    · rfl
    · exact consistent.named entry earlier

theorem Consistent.registerAll {compiler : Compiler} (consistent : compiler.Consistent)
    (modules : List Module) :
    (compiler.registerAll modules).Consistent := by
  induction modules generalizing compiler with
  | nil => exact consistent
  | cons m rest ih => exact ih (consistent.register m)

theorem consistent_of_empty {compiler : Compiler} (empty : compiler.modules = []) :
    compiler.Consistent := by
  constructor <;> simp [empty]

theorem mem_of_lookup {compiler : Compiler} {name : String} {m : Module}
    (found : compiler.modules.lookup name = some m) : (name, m) ∈ compiler.modules := by
  obtain ⟨front, back, split, _⟩ := List.lookup_eq_some_iff.mp found
  rw [split]
  simp

theorem Consistent.lookup_of_mem {compiler : Compiler} (consistent : compiler.Consistent)
    {entry : String × Module} (member : entry ∈ compiler.modules) :
    compiler.modules.lookup entry.1 = some entry.2 := by
  obtain ⟨front, back, split⟩ := List.append_of_mem member
  refine List.lookup_eq_some_iff.mpr ⟨front, back, split, fun earlier there => ?_⟩
  have distinct := consistent.distinct
  rw [split, List.map_append, List.nodup_append] at distinct
  rw [bne_iff_ne]
  exact (distinct.2.2 earlier.1 (List.mem_map_of_mem there) entry.1 (by simp)).symm

theorem Consistent.name_of_lookup {compiler : Compiler} (consistent : compiler.Consistent)
    {name : String} {m : Module} (found : compiler.modules.lookup name = some m) : m.name = name :=
  consistent.named _ (mem_of_lookup found)

/-! ## Modules in their order -/

/-- The modules of these names; a name that is no module's is passed over. -/
def modulesOf (compiler : Compiler) (names : List String) : List Module :=
  names.filterMap fun name => compiler.modules.lookup name

/-- A module depends on a name that is no module's. -/
def Dangling (compiler : Compiler) : Prop :=
  ∃ name dependency, compiler.DependsOn name dependency ∧ ¬ compiler.Registered dependency

def report (compiler : Compiler) (m : Module) : String × List String :=
  (m.name, compiler.fileNames m)

theorem Orders.registered {compiler : Compiler} {names : List String}
    (orders : compiler.Orders names) (closed : ¬ compiler.Dangling) {name : String}
    (member : name ∈ names) : compiler.Registered name := by
  rcases (orders.mem_iff name).mp member with registered | ⟨other, depends⟩
  · exact registered
  · by_contra missing
    exact closed ⟨other, name, depends, missing⟩

theorem Consistent.names_modulesOf {compiler : Compiler} (consistent : compiler.Consistent)
    {names : List String} (registered : ∀ name ∈ names, compiler.Registered name) :
    (compiler.modulesOf names).map Module.name = names := by
  unfold modulesOf
  induction names with
  | nil => rfl
  | cons name rest ih =>
      rw [List.forall_mem_cons] at registered
      obtain ⟨m, found⟩ := registered.1
      rw [List.filterMap_cons, found, List.map_cons, ih registered.2,
        consistent.name_of_lookup found]

theorem Consistent.lookup_of_mem_modulesOf {compiler : Compiler} (consistent : compiler.Consistent)
    {names : List String} {m : Module} (member : m ∈ compiler.modulesOf names) :
    compiler.modules.lookup m.name = some m := by
  obtain ⟨name, _, found⟩ := List.mem_filterMap.mp member
  rw [consistent.name_of_lookup found, found]

theorem Consistent.modulesOf_perm {compiler : Compiler} (consistent : compiler.Consistent)
    (closed : ¬ compiler.Dangling) {names : List String} (orders : compiler.Orders names) :
    (compiler.modulesOf names).Perm (compiler.modules.map Prod.snd) := by
  have all : names.Perm (compiler.modules.map Prod.fst) := by
    refine (List.perm_ext_iff_of_nodup orders.nodup consistent.distinct).mpr fun name => ?_
    rw [← registered_iff_mem]
    refine ⟨orders.registered closed, fun registered => ?_⟩
    exact (orders.mem_iff name).mpr (Or.inl registered)
  have lookups :
      compiler.modulesOf (compiler.modules.map Prod.fst) = compiler.modules.map Prod.snd := by
    rw [modulesOf, List.filterMap_map, ← List.filterMap_eq_map]
    exact List.filterMap_congr fun entry member => consistent.lookup_of_mem member
  rw [← lookups]
  exact all.filterMap _

end Compiler

/-! ## Compiling modules one after another -/

section Each
variable {compiler own : Compiler} {w after : Workspace} {name : String} {rest : List String}

theorem runIn_compileEach_missing (missing : compiler.modules.lookup name = none) :
    (compileEach (name :: rest)).runIn compiler w = (.error (.missingKey name), compiler, w) := by
  simp only [compileEach, Session.runIn_bind, Session.runIn_own, missing, Session.runIn_throw]

theorem runIn_compileEach_failed {m : Module} {failure : Failure}
    (found : compiler.modules.lookup name = some m)
    (run : (compile m).runIn compiler w = (.error failure, own, after)) :
    (compileEach (name :: rest)).runIn compiler w = (.error failure, own, after) := by
  simp only [compileEach, Session.runIn_bind, Session.runIn_own, found, run]

theorem runIn_compileEach_compiled {m : Module} {files : List String}
    {outcome : Except Failure (List (String × List String))} {last : Compiler × Workspace}
    (found : compiler.modules.lookup name = some m)
    (run : (compile m).runIn compiler w = (.ok files, own, after))
    (later : (compileEach rest).runIn own after = (outcome, last)) :
    (compileEach (name :: rest)).runIn compiler w = (outcome.map ((name, files) :: ·), last) := by
  simp only [compileEach, Session.runIn_bind, Session.runIn_own, found, run, later,
    Session.runIn_pure]
  cases outcome <;> rfl

end Each

/-- Modules that lower and whose files have places are compiled, and the compilation goes on with
the rest. -/
theorem runIn_compileEach_append {modules : List Module} {rest : List String} {compiler : Compiler}
    {w : Workspace} {writes : List (Location × String)}
    {outcome : Except Failure (List (String × List String))} {last : Compiler × Workspace}
    (registered : ∀ m ∈ modules, compiler.modules.lookup m.name = some m)
    (lowers : ∀ m ∈ modules, m.Lowers) (admits : w.Admits (modules.flatMap compiler.files) writes)
    (later :
      (compileEach rest).runIn (compiler.record ((modules.flatMap compiler.files).map Prod.fst))
        (w.putAll writes) = (outcome, last)) :
    (compileEach (modules.map Module.name ++ rest)).runIn compiler w =
      (outcome.map (modules.map compiler.report ++ ·), last) := by
  induction modules generalizing compiler w writes outcome with
  | nil =>
      cases admits
      rw [List.flatMap_nil, List.map_nil, compiler.record_nil] at later
      refine later.trans ?_
      cases outcome <;> rfl
  | cons m others ih =>
      rw [List.forall_mem_cons] at registered lowers
      rw [List.flatMap_cons] at admits later
      obtain ⟨first, second, rfl, here, there⟩ := admits.append
      have run := runIn_compile_of_admits lowers.1 here
      have stay : (w.putAll first).Admits (others.flatMap
          (compiler.record ((compiler.files m).map Prod.fst)).files) second :=
        here.sameDirectories.admits there
      rw [List.map_append, ← Compiler.record_record, Workspace.putAll_append] at later
      rw [List.map_cons, List.cons_append,
        runIn_compileEach_compiled registered.1 run (ih registered.2 lowers.2 stay later)]
      cases outcome <;> rfl

/-! ## What a compilation leaves -/

/-- Where the list of all files is written. -/
def Compiler.listing (compiler : Compiler) : String :=
  Path.join compiler.directory "manifest.json"

/-- What is left of a compilation, whether it succeeds or not, before the list of all files is
written. -/
structure Compiler.Leaves (compiler : Compiler) (w : Workspace) (last : Compiler × Workspace) :
    Prop where
  recorded : ∃ paths, last.1 = compiler.record paths
  kept : w.SameDirectories last.2
  listed : last.2.textAt compiler.listing = w.textAt compiler.listing

theorem Compiler.Leaves.refl (compiler : Compiler) (w : Workspace) :
    compiler.Leaves w (compiler, w) :=
  ⟨⟨[], compiler.record_nil.symm⟩, .refl w, rfl⟩

theorem Compiler.Leaves.trans {compiler : Compiler} {w : Workspace}
    {between last : Compiler × Workspace} (first : compiler.Leaves w between)
    (second : between.1.Leaves between.2 last) : compiler.Leaves w last := by
  obtain ⟨own, after⟩ := between
  obtain ⟨⟨paths, rfl⟩, kept, listed⟩ := first
  obtain ⟨⟨more, recorded⟩, keptToo, listedToo⟩ := second
  exact ⟨⟨paths ++ more, recorded.trans (compiler.record_record paths more)⟩, kept.trans keptToo,
    listedToo.trans listed⟩

theorem leaves_putAll {compiler : Compiler} {m : Module} {w : Workspace}
    {done : List (String × String)} {writes : List (Location × String)}
    (parts : ∀ file ∈ done, file ∈ compiler.files m) (admits : w.Admits done writes)
    (paths : List String) :
    compiler.Leaves w (compiler.record paths, w.putAll writes) := by
  refine ⟨⟨paths, rfl⟩, admits.sameDirectories, ?_⟩
  refine admits.sameDirectories.textAt_eq_of_lookup fun location found => ?_
  apply Workspace.lookup_putAll_of_not_mem
  intro touched
  obtain ⟨write, member, rfl⟩ := List.mem_map.mp touched
  obtain ⟨file, there, places, _⟩ := admits.exists_file member
  obtain ⟨i, _, _, path⟩ := exists_of_mem_partFiles (parts file there)
  rw [path] at places
  exact part_ne_manifest places found rfl

theorem leaves_compile (m : Module) (compiler : Compiler) (w : Workspace) :
    compiler.Leaves w ((compile m).runIn compiler w).2 := by
  cases lowered : lowerAll m.constraints with
  | error failure =>
      rw [runIn_compile_failed lowered]
      exact .refl compiler w
  | ok lines =>
      have written := written_of_lowers ⟨lines, lowered⟩ compiler w
      generalize (compile m).runIn compiler w = run at written
      cases written with
      | all writes admits => exact leaves_putAll (fun _ member => member) admits _
      | refused done later file writes trouble split admits nowhere =>
          have parts : ∀ other ∈ done, other ∈ compiler.files m := by
            intro other member
            rw [split]
            exact List.mem_append_left _ member
          exact leaves_putAll parts admits _

theorem leaves_compileEach (names : List String) (compiler : Compiler) (w : Workspace) :
    compiler.Leaves w ((compileEach names).runIn compiler w).2 := by
  induction names generalizing compiler w with
  | nil => exact .refl compiler w
  | cons name rest ih =>
      cases found : compiler.modules.lookup name with
      | none =>
          rw [runIn_compileEach_missing found]
          exact .refl compiler w
      | some m =>
          have first := leaves_compile m compiler w
          rcases run : (compile m).runIn compiler w with ⟨outcome, own, after⟩
          rw [run] at first
          cases outcome with
          | error failure =>
              rw [runIn_compileEach_failed found run]
              exact first
          | ok files =>
              rw [runIn_compileEach_compiled found run (Prod.eta _).symm]
              exact first.trans (ih own after)

/-! ## Compiling all modules -/

theorem Compiler.runIn_ordered (compiler : Compiler) (w : Workspace) :
    Compiler.ordered.runIn compiler w = (compiler.order w.room, compiler, w) := by
  have reads : (do Action.ofExcept (compiler.order (← get).room) : Action (List String)).runIn w =
      (compiler.order w.room, w) := by
    rw [Action.runIn_bind, Action.runIn_get]
    dsimp only
    cases compiler.order w.room <;> rfl
  simp only [Compiler.ordered, Session.runIn_bind, Session.runIn_own, Session.runIn_act, reads]

theorem runIn_compileAll_unordered {compiler : Compiler} {w : Workspace} {failure : Failure}
    (stopped : compiler.order w.room = .error failure) :
    compileAll.runIn compiler w = (.error failure, compiler, w) := by
  simp only [compileAll, Session.runIn_bind, Compiler.runIn_ordered, stopped]

section All
variable {compiler own : Compiler} {w after : Workspace} {failure : Failure} {names : List String}
  {results : List (String × List String)} (ordered : compiler.order w.room = .ok names)
include ordered

theorem runIn_compileAll_failed
    (run : (compileEach names).runIn compiler w = (.error failure, own, after)) :
    compileAll.runIn compiler w = (.error failure, own, after) := by
  simp only [compileAll, Session.runIn_bind, Compiler.runIn_ordered, ordered, run]

theorem runIn_compileAll_unlisted
    (run : (compileEach names).runIn compiler w = (.ok results, own, after))
    (saved : (saveManifest own (resultsJson results)).runIn after = (.error failure, after)) :
    compileAll.runIn compiler w = (.error failure, own, after) := by
  simp only [compileAll, Session.runIn_bind, Compiler.runIn_ordered, ordered,
    Session.runIn_own, run, Session.runIn_act, saved]

theorem runIn_compileAll_listed {last : Workspace}
    (run : (compileEach names).runIn compiler w = (.ok results, own, after))
    (saved : (saveManifest own (resultsJson results)).runIn after = (.ok (), last)) :
    compileAll.runIn compiler w = (.ok results, own, last) := by
  simp only [compileAll, Session.runIn_bind, Compiler.runIn_ordered, ordered,
    Session.runIn_own, run, Session.runIn_act, saved, Session.runIn_pure]

end All

/-- The list of all files is as it was when the compilation fails, for whatever reason. -/
theorem listing_of_failed {compiler own : Compiler} {w after : Workspace} {failure : Failure}
    (run : compileAll.runIn compiler w = (.error failure, own, after)) :
    after.textAt compiler.listing = w.textAt compiler.listing := by
  cases ordered : compiler.order w.room with
  | error trouble =>
      rw [runIn_compileAll_unordered ordered] at run
      cases run
      rfl
  | ok names =>
      have leaves := leaves_compileEach names compiler w
      rcases each : (compileEach names).runIn compiler w with ⟨outcome, made, between⟩
      rw [each] at leaves
      cases outcome with
      | error trouble =>
          rw [runIn_compileAll_failed ordered each] at run
          cases run
          exact leaves.listed
      | ok results =>
          rcases Action.runIn_writeFile made.listing
            (manifest made (resultsJson results)).pretty between with
            ⟨location, _, saved⟩ | ⟨_, trouble, saved⟩
          · rw [runIn_compileAll_listed ordered each saved] at run
            cases run
          · rw [runIn_compileAll_unlisted ordered each saved] at run
            cases run
            exact leaves.listed

namespace Compiler

/-- All modules lower, and every file that is to be written has a place. -/
structure Ready (compiler : Compiler) (w : Workspace) : Prop where
  lowers : ∀ name m, compiler.modules.lookup name = some m → m.Lowers
  placed : ∀ name m, compiler.modules.lookup name = some m →
    ∀ file ∈ compiler.files m, ∃ location, w.Places file.1 location
  listed : ∃ location, w.Places compiler.listing location

/-- A directory is ready for modules with names of its own files that are not too long, where no
directory has the name of a file. -/
theorem ready_of_opens {compiler : Compiler} {w : Workspace} {base : Location}
    (opens : w.Opens compiler.directory base) (lowers : ∀ entry ∈ compiler.modules, entry.2.Lowers)
    (slash : ∀ entry ∈ compiler.modules, '/' ∉ entry.2.name.toList)
    (fits : ∀ entry ∈ compiler.modules, ∀ name ∈ compiler.fileNames entry.2,
      Action.refusal? (Path.join compiler.directory name) name = none)
    (fitsToo : Action.refusal? compiler.listing "manifest.json" = none)
    (clear : ∀ entry ∈ compiler.modules, ∀ name ∈ compiler.fileNames entry.2,
      w.tree.isDirectory (base ++ [name]) = false)
    (listed : w.tree.isDirectory (base ++ ["manifest.json"]) = false) : compiler.Ready w where
  lowers name m found := lowers _ (mem_of_lookup found)
  placed name m found file member := by
    obtain ⟨i, named, path⟩ := exists_of_mem_files member
    rw [path]
    have there := mem_of_lookup found
    exact ⟨_, opens.places (plain_partName (slash _ there) i) (fits _ there _ named)
      (clear _ there _ named)⟩
  listed := ⟨_, opens.places (by constructor <;> decide) fitsToo listed⟩

section Ready
variable {compiler : Compiler} {w : Workspace}

/-- The modules of any names are compiled, and the compilation goes on with the names that
follow. -/
theorem Ready.runIn_compileEach (ready : compiler.Ready w) (consistent : compiler.Consistent)
    {names : List String} (registered : ∀ name ∈ names, compiler.Registered name) :
    ∃ writes, w.Admits ((compiler.modulesOf names).flatMap compiler.files) writes ∧
      ∀ rest outcome last,
        (compileEach rest).runIn
            (compiler.record (((compiler.modulesOf names).flatMap compiler.files).map Prod.fst))
              (w.putAll writes) =
          (outcome, last) →
        (compileEach (names ++ rest)).runIn compiler w =
          (outcome.map ((compiler.modulesOf names).map compiler.report ++ ·), last) := by
  have found : ∀ m ∈ compiler.modulesOf names, compiler.modules.lookup m.name = some m :=
    fun m member => consistent.lookup_of_mem_modulesOf member
  have placed : ∀ file ∈ (compiler.modulesOf names).flatMap compiler.files,
      ∃ location, w.Places file.1 location := by
    intro file member
    obtain ⟨m, there, part⟩ := List.mem_flatMap.mp member
    exact ready.placed m.name m (found m there) file part
  obtain ⟨writes, admits⟩ := Workspace.exists_admits placed
  refine ⟨writes, admits, fun rest outcome last later => ?_⟩
  nth_rewrite 1 [← consistent.names_modulesOf registered]
  exact runIn_compileEach_append found (fun m there => ready.lowers m.name m (found m there))
    admits later

variable {names : List String}

theorem Ready.runIn_compileAll (ready : compiler.Ready w) (consistent : compiler.Consistent)
    (closed : ¬ compiler.Dangling) (ordered : compiler.order w.room = .ok names)
    (orders : compiler.Orders names) :
    let modules := compiler.modulesOf names
    let own := compiler.record ((modules.flatMap compiler.files).map Prod.fst)
    ∃ writes location, w.Admits (modules.flatMap compiler.files) writes ∧
      w.Places compiler.listing location ∧
      compileAll.runIn compiler w =
        (.ok (modules.map compiler.report), own,
          (w.putAll writes).put location
            (manifest own (resultsJson (modules.map compiler.report))).pretty) := by
  intro modules own
  obtain ⟨writes, admits, each⟩ :=
    ready.runIn_compileEach consistent (fun name member => orders.registered closed member)
  have run : (compileEach names).runIn compiler w =
      (.ok (modules.map compiler.report), own, w.putAll writes) := by
    simpa only [List.append_nil, Except.map] using each [] (.ok []) _ rfl
  obtain ⟨location, places⟩ := ready.listed
  refine ⟨writes, location, admits, places, ?_⟩
  have stay := admits.sameDirectories.places places
  exact runIn_compileAll_listed ordered run (Action.runIn_writeFile_of_places stay _)

/-- The first name that is no module's stops the compilation. -/
theorem Ready.runIn_compileAll_dangling (ready : compiler.Ready w)
    (consistent : compiler.Consistent) (dangling : compiler.Dangling)
    (ordered : compiler.order w.room = .ok names) (orders : compiler.Orders names) :
    ∃ key last, ¬ compiler.Registered key ∧ (∃ name, compiler.DependsOn name key) ∧
      compileAll.runIn compiler w = (.error (.missingKey key), last) := by
  obtain ⟨name, dependency, depends, missing⟩ := dangling
  have somewhere :
      (names.find? fun name => (compiler.modules.lookup name).isNone).isSome = true := by
    refine List.find?_isSome.mpr ⟨dependency, ?_, ?_⟩
    · exact (orders.mem_iff dependency).mpr (Or.inr ⟨name, depends⟩)
    · exact Option.isNone_iff_eq_none.mpr
        (Option.eq_none_iff_forall_ne_some.mpr fun m found => missing ⟨m, found⟩)
  -- All names before the first that is missing are compiled, and the run stops there.
  obtain ⟨key, first⟩ := Option.isSome_iff_exists.mp somewhere
  obtain ⟨unknown, front, later, split, known⟩ := List.find?_eq_some_iff_append.mp first
  rw [Option.isNone_iff_eq_none] at unknown
  have registered : ∀ name ∈ front, compiler.Registered name := by
    intro name member
    have here := known name member
    rw [Bool.not_eq_true', Option.isNone_eq_false_iff] at here
    exact Option.isSome_iff_exists.mp here
  have absent : ¬ compiler.Registered key := by
    rintro ⟨m, found⟩
    rw [unknown] at found
    cases found
  have member : key ∈ names := by
    rw [split]
    simp
  obtain ⟨writes, _, each⟩ := ready.runIn_compileEach consistent registered
  have run := each (key :: later) (.error (.missingKey key)) _ (runIn_compileEach_missing unknown)
  rw [← split] at run
  have wanted := ((orders.mem_iff key).mp member).resolve_left absent
  exact ⟨key, _, absent, wanted, runIn_compileAll_failed ordered run⟩

end Ready

/-- Files of different modules have different names, and so have the files of one module. -/
theorem nodup_fileNames (compiler : Compiler) {modules : List Module}
    (distinct : (modules.map Module.name).Nodup) :
    ((modules.map compiler.report).flatMap Prod.snd).Nodup := by
  rw [List.flatMap_map, List.nodup_flatMap]
  constructor
  · intro m _
    exact (List.nodup_range' ..).map fun i j same => (partName_inj same).2
  · refine (List.pairwise_map.mp distinct).imp fun {m other} differ => ?_
    refine List.disjoint_left.mpr fun file here there => ?_
    obtain ⟨i, _, rfl⟩ := List.mem_map.mp here
    obtain ⟨j, _, same⟩ := List.mem_map.mp there
    exact differ (partName_inj same).1.symm

theorem not_dangling {compiler : Compiler}
    (closed : ∀ entry ∈ compiler.modules, ∀ dependency ∈ entry.2.dependencies.getD [],
      dependency ∈ compiler.modules.map Prod.fst) : ¬ compiler.Dangling := by
  rintro ⟨name, dependency, depends, missing⟩
  obtain ⟨m, found⟩ := registered_of_dependsOn depends
  rw [DependsOn, dependencies_of_registered found] at depends
  exact missing ((registered_iff_mem compiler dependency).mpr
    (closed _ (mem_of_lookup found) dependency depends))

/-- What a compilation that succeeds gives: every module once, in order, each with files that no
other has, and the files written with the list of them all at the end. -/
structure Completed (compiler : Compiler) (w : Workspace) (results : List (String × List String))
    (own : Compiler) (after : Workspace) : Prop where
  order : compiler.order w.room = .ok (results.map Prod.fst)
  once : results.Perm (compiler.modules.map fun entry => compiler.report entry.2)
  distinct : (results.flatMap Prod.snd).Nodup
  recorded : own = compiler.record
    (((compiler.modulesOf (results.map Prod.fst)).flatMap compiler.files).map Prod.fst)
  written : ∃ writes location,
    w.Admits ((compiler.modulesOf (results.map Prod.fst)).flatMap compiler.files) writes ∧
    w.Places compiler.listing location ∧
    after = (w.putAll writes).put location (manifest own (resultsJson results)).pretty

theorem Ready.completes {compiler : Compiler} {w : Workspace} (ready : compiler.Ready w)
    (consistent : compiler.Consistent) (closed : ¬ compiler.Dangling)
    (shallow : compiler.Shallow w.room) :
    ∃ results own after, compileAll.runIn compiler w = (.ok results, own, after) ∧
      compiler.Completed w results own after := by
  obtain ⟨names, ordered, orders⟩ := shallow.exists_order
  obtain ⟨writes, location, admits, places, run⟩ :=
    ready.runIn_compileAll consistent closed ordered orders
  have named : (compiler.modulesOf names).map Module.name = names :=
    consistent.names_modulesOf fun _ member => orders.registered closed member
  have same : ((compiler.modulesOf names).map compiler.report).map Prod.fst = names := by
    rw [List.map_map]
    exact named
  refine ⟨_, _, _, run, ?_, ?_, ?_, ?_, writes, location, ?_, places, rfl⟩
  · rw [same]
    exact ordered
  · have once := (consistent.modulesOf_perm closed orders).map compiler.report
    rwa [List.map_map] at once
  · refine compiler.nodup_fileNames ?_
    rw [named]
    exact orders.nodup
  · rw [same]
  · rw [same]
    exact admits

end Compiler

/-- The modules that were registered are compiled in an order that has every name once, after what
it depends on if there is no cycle; only if a chain of dependencies has more names than there is
room for, nothing is compiled at all. A failure never touches the list of all files.  If everything
lowers and has its place, and there is room, it is a missing key exactly if a dependency is no
module's, and without such a dependency all is compiled. -/
theorem compileAll_of_registered {directory : String} {modules : List Module} {compiler : Compiler}
    (registered : compiler = Compiler.registerAll { directory := directory } modules)
    (w : Workspace) :
    (∀ name, compiler.modules.lookup name = modules.reverse.find? (·.name == name)) ∧
    ((∃ names, compiler.order w.room = .ok names ∧ names.Nodup ∧
      (∀ name, name ∈ names ↔ compiler.Named name) ∧
        (compiler.Acyclic → ∀ before name later dependency, names = before ++ name :: later →
          compiler.DependsOn name dependency → dependency ∈ before)) ∨
      ¬ compiler.Shallow w.room ∧ compiler.order w.room = .error .tooDeep ∧
        compileAll.runIn compiler w = (.error .tooDeep, compiler, w)) ∧
    (∀ failure own after, compileAll.runIn compiler w = (.error failure, own, after) →
      after.textAt compiler.listing = w.textAt compiler.listing) ∧
    (compiler.Ready w → compiler.Shallow w.room →
      ((∃ key last, compileAll.runIn compiler w = (.error (.missingKey key), last)) ↔
        compiler.Dangling) ∧
      (¬ compiler.Dangling → ∃ results own after,
        compileAll.runIn compiler w = (.ok results, own, after) ∧
        compiler.Completed w results own after)) := by
  have consistent : compiler.Consistent := by
    rw [registered]
    exact (Compiler.consistent_of_empty rfl).registerAll modules
  refine ⟨fun name => ?_, ?_, ?_, fun ready shallow => ⟨⟨?_, ?_⟩, ?_⟩⟩
  · rw [registered, Compiler.lookup_registerAll]
    exact Option.or_none
  · obtain ⟨names, ordered, orders⟩ | ⟨stopped, deep⟩ := compiler.order_cases w.room
    · refine .inl ⟨names, ordered, orders.nodup, orders.mem_iff, ?_⟩
      intro acyclic before name later dependency split depends
      exact orders.mem_before acyclic split depends
    · exact .inr ⟨deep, stopped, runIn_compileAll_unordered stopped⟩
  · intro failure own after run
    exact listing_of_failed run
  · rintro ⟨key, last, run⟩
    by_contra closed
    obtain ⟨results, own, after, done, _⟩ := ready.completes consistent closed shallow
    rw [run] at done
    cases done
  · intro dangling
    obtain ⟨names, ordered, orders⟩ := shallow.exists_order
    obtain ⟨key, last, _, _, run⟩ :=
      ready.runIn_compileAll_dangling consistent dangling ordered orders
    exact ⟨key, last, run⟩
  · exact fun closed => ready.completes consistent closed shallow

def fixingModule (name : String) (dependencies : List String) : Module :=
  givenModule name [] ["x=0"] dependencies

/-- A module, and one it depends on that is registered after it. -/
def twoModules : Compiler :=
  Compiler.registerAll { directory := "build" } [fixingModule "b" ["a", "a"], fixingModule "a" []]

theorem ready_twoModules : twoModules.Ready emptyBuild := by
  have modules :
      twoModules.modules = [("b", fixingModule "b" ["a", "a"]), ("a", fixingModule "a" [])] := rfl
  refine Compiler.ready_of_opens opens_emptyBuild ?_ ?_ ?_ (by decide) ?_ rfl
  · rw [modules]
    simp only [List.forall_mem_cons, List.not_mem_nil, false_implies, implies_true, and_true]
    exact ⟨givenModule_lowers .., givenModule_lowers ..⟩
  · rw [modules]
    decide
  · rw [modules]
    decide
  · exact fun _ _ name _ => not_isDirectory_emptyBuild name

theorem closed_twoModules : ¬ twoModules.Dangling :=
  Compiler.not_dangling (by decide)

theorem shallow_twoModules : twoModules.Shallow emptyBuild.room :=
  Compiler.shallow_of_length_lt (by decide : 2 < 996)

/-- The two modules are compiled, each after the one it depends on. -/
theorem compileAll_of_registered_two :
    twoModules.Ready emptyBuild ∧ twoModules.Shallow emptyBuild.room ∧ ¬ twoModules.Dangling ∧
      ∃ results own after, compileAll.runIn twoModules emptyBuild = (.ok results, own, after) ∧
        results.map Prod.fst = ["a", "b"] ∧
        results.Perm [("b", ["b_part0.tau"]), ("a", ["a_part0.tau"])] := by
  refine ⟨ready_twoModules, shallow_twoModules, closed_twoModules, ?_⟩
  obtain ⟨_, _, _, compiled⟩ := compileAll_of_registered (rfl : twoModules = _) emptyBuild
  obtain ⟨results, own, after, run, completed⟩ :=
    (compiled ready_twoModules shallow_twoModules).2 closed_twoModules
  refine ⟨results, own, after, run, ?_, ?_⟩
  · have order := completed.order
    rw [show twoModules.order emptyBuild.room = .ok ["a", "b"] from rfl] at order
    exact (Except.ok.inj order).symm
  · have reports : (twoModules.modules.map fun entry => twoModules.report entry.2) =
        [("b", ["b_part0.tau"]), ("a", ["a_part0.tau"])] := by decide
    rw [← reports]
    exact completed.once

/-- A module whose name leads into a directory of its own. -/
def nestedModule : Compiler :=
  Compiler.registerAll { directory := "build" } [fixingModule "a/b" []]

/-- Where that directory is missing the module is not compiled, though it lowers and depends on
nothing. -/
theorem compileAll_without_directory :
    (fixingModule "a/b" []).Lowers ∧ ¬ nestedModule.Dangling ∧
      compileAll.runIn nestedModule emptyBuild =
        (.error (.path .missing "build/a/b_part0.tau"), nestedModule, emptyBuild) := by
  have lowers : (fixingModule "a/b" []).Lowers := givenModule_lowers ..
  have refused (text : String) : (Action.writeFile "build/a/b_part0.tau" text).runIn emptyBuild =
      (.error (.path .missing "build/a/b_part0.tau"), emptyBuild) := rfl
  have run : (compile (fixingModule "a/b" [])).runIn nestedModule emptyBuild =
      (.error (.path .missing "build/a/b_part0.tau"), nestedModule, emptyBuild) :=
    (runIn_compile_lowered lowers _ _).trans (runIn_writeParts_refused (refused _))
  refine ⟨lowers, Compiler.not_dangling (by decide), ?_⟩
  exact runIn_compileAll_failed (rfl : nestedModule.order emptyBuild.room = .ok ["a/b"])
    (runIn_compileEach_failed rfl run)

end Zkvm.Circuit
