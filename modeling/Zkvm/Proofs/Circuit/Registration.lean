import Zkvm.Proofs.Circuit.Compilation

/-!
# The order of registration

The order in which modules are compiled depends on the order in which they were registered, but what
is compiled does not.  The files of modules with different names lie in different places, so that
they can be written in any order; the lists of all files have the same entries.
-/
set_option autoImplicit false

namespace Zkvm

/-- There is a directory at the path. -/
def Workspace.DirectoryAt (w : Workspace) (path : String) : Prop :=
  ∃ location, w.tree.resolve w.directory path = .ok location ∧ w.tree.isDirectory location = true

theorem Workspace.Opens.directoryAt_iff {w : Workspace} {directory name : String} {base : Location}
    (opens : w.Opens directory base) (plain : Path.Plain name) :
    w.DirectoryAt (Path.join directory name) ↔ w.tree.isDirectory (base ++ [name]) = true := by
  have found := Tree.resolve_join opens.named plain opens.found opens.held
  constructor
  · rintro ⟨location, there, isDirectory⟩
    rwa [Except.ok.inj (found.symm.trans there)]
  · exact fun isDirectory => ⟨_, found, isDirectory⟩

namespace Circuit

namespace Compiler

/-! ## What is registered -/

theorem registerAll_eq (compiler : Compiler) (modules : List Module) :
    compiler.registerAll modules =
      { compiler with modules := (compiler.registerAll modules).modules } := by
  induction modules generalizing compiler with
  | nil => rfl
  | cons m rest ih => exact ih (compiler.register m)

theorem files_registerAll (compiler : Compiler) (modules : List Module) :
    (compiler.registerAll modules).files = compiler.files := by
  rw [registerAll_eq]
  rfl

theorem fileNames_registerAll (compiler : Compiler) (modules : List Module) :
    (compiler.registerAll modules).fileNames = compiler.fileNames := by
  rw [registerAll_eq]
  rfl

theorem report_registerAll (compiler : Compiler) (modules : List Module) :
    (compiler.registerAll modules).report = compiler.report := by
  rw [registerAll_eq]
  rfl

theorem directory_registerAll (compiler : Compiler) (modules : List Module) :
    (compiler.registerAll modules).directory = compiler.directory := by
  rw [registerAll_eq]

theorem generated_registerAll (compiler : Compiler) (modules : List Module) :
    (compiler.registerAll modules).generated = compiler.generated := by
  rw [registerAll_eq]

theorem modules_registerAll {compiler : Compiler} {modules : List Module}
    (distinct : (compiler.modules.map Prod.fst ++ modules.map Module.name).Nodup) :
    (compiler.registerAll modules).modules =
      compiler.modules ++ modules.map fun m => (m.name, m) := by
  induction modules generalizing compiler with
  | nil => simp [registerAll]
  | cons m rest ih =>
      have new : m.name ∉ compiler.modules.map Prod.fst := by
        intro old
        exact (List.nodup_append.mp distinct).2.2 _ old _ (by simp) rfl
      have grown : (compiler.register m).modules = compiler.modules ++ [(m.name, m)] :=
        Json.put_of_not_mem new
      refine (@ih (compiler.register m) ?_).trans ?_
      · simpa [grown] using distinct
      · simp [grown]

/-- Modules of different names are found by their names alone, in whatever order they stand. -/
theorem Consistent.lookup_eq {first second : Compiler} (consistent : first.Consistent)
    (consistentToo : second.Consistent) (same : first.modules.Perm second.modules) (name : String) :
    first.modules.lookup name = second.modules.lookup name := by
  refine Option.ext fun m => ?_
  constructor
  · exact fun found => consistentToo.lookup_of_mem (same.mem_iff.mp (mem_of_lookup found))
  · exact fun found => consistent.lookup_of_mem (same.mem_iff.mpr (mem_of_lookup found))

theorem Shallow.of_perm {first second : Compiler} {room : Nat} (shallow : first.Shallow room)
    (consistent : first.Consistent) (consistentToo : second.Consistent)
    (same : first.modules.Perm second.modules) :
    second.Shallow room := by
  have dependsOn : second.DependsOn = first.DependsOn := by
    funext name dependency
    rw [DependsOn, DependsOn, dependencies, dependencies, consistent.lookup_eq consistentToo same]
  intro names nodup chain
  rw [dependsOn] at chain
  exact shallow names nodup chain

/-! ## Modules that can be compiled -/

/-- Modules with names of their own that depend on each other only, not too deeply, lower, and have
files whose names and paths are not too long, with no directory in the way. -/
structure Compilable (fresh : Compiler) (modules : List Module) (w : Workspace) : Prop where
  distinct : (modules.map Module.name).Nodup
  slash : ∀ m ∈ modules, '/' ∉ m.name.toList
  closed : ∀ m ∈ modules, ∀ dependency ∈ m.dependencies.getD [],
    dependency ∈ modules.map Module.name
  shallow : (fresh.registerAll modules).Shallow w.room
  lowers : ∀ m ∈ modules, m.Lowers
  fits : ∀ m ∈ modules, ∀ name ∈ fresh.fileNames m,
    Action.refusal? (Path.join fresh.directory name) name = none
  fitsListing : Action.refusal? fresh.listing "manifest.json" = none
  clear : ∀ m ∈ modules, ∀ name ∈ fresh.fileNames m,
    ¬ w.DirectoryAt (Path.join fresh.directory name)
  listed : ¬ w.DirectoryAt fresh.listing

section Compilable
variable {fresh : Compiler} {modules others : List Module} {w : Workspace} {base : Location}

theorem modules_of_empty (empty : fresh.modules = []) (distinct : (modules.map Module.name).Nodup) :
    (fresh.registerAll modules).modules = modules.map fun m => (m.name, m) := by
  rw [modules_registerAll, empty, List.nil_append]
  rw [empty]
  exact distinct

theorem Compilable.perm (compilable : fresh.Compilable modules w) (empty : fresh.modules = [])
    (same : modules.Perm others) : fresh.Compilable others w where
  distinct := (same.map Module.name).nodup_iff.mp compilable.distinct
  slash m member := compilable.slash m (same.mem_iff.mpr member)
  closed m member dependency named :=
    (same.map Module.name).mem_iff.mp
      (compilable.closed m (same.mem_iff.mpr member) dependency named)
  shallow := by
    have fresh := consistent_of_empty empty
    refine compilable.shallow.of_perm (fresh.registerAll modules) (fresh.registerAll others) ?_
    rw [modules_of_empty empty compilable.distinct,
      modules_of_empty empty ((same.map Module.name).nodup_iff.mp compilable.distinct)]
    exact same.map _
  lowers m member := compilable.lowers m (same.mem_iff.mpr member)
  fits m member := compilable.fits m (same.mem_iff.mpr member)
  fitsListing := compilable.fitsListing
  clear m member := compilable.clear m (same.mem_iff.mpr member)
  listed := compilable.listed

theorem Compilable.ready (compilable : fresh.Compilable modules w) (empty : fresh.modules = [])
    (opens : w.Opens fresh.directory base) : (fresh.registerAll modules).Ready w := by
  have registered := modules_of_empty empty compilable.distinct
  refine ready_of_opens (directory_registerAll fresh modules ▸ opens) ?_ ?_ ?_ ?_ ?_ ?_
  · rw [registered]
    exact List.forall_mem_map.mpr compilable.lowers
  · rw [registered]
    exact List.forall_mem_map.mpr compilable.slash
  · rw [registered, fileNames_registerAll, directory_registerAll]
    exact List.forall_mem_map.mpr compilable.fits
  · rw [listing, directory_registerAll]
    exact compilable.fitsListing
  · rw [registered, fileNames_registerAll]
    refine List.forall_mem_map.mpr fun m member name named => ?_
    obtain ⟨i, _, rfl⟩ := List.mem_map.mp named
    have plain := plain_partName (compilable.slash m member) i
    exact Bool.eq_false_iff.mpr fun held =>
      compilable.clear m member _ named ((opens.directoryAt_iff plain).mpr held)
  · exact Bool.eq_false_iff.mpr fun held =>
      compilable.listed ((opens.directoryAt_iff (by constructor <;> decide)).mpr held)

theorem Compilable.not_dangling (compilable : fresh.Compilable modules w)
    (empty : fresh.modules = []) :
    ¬ (fresh.registerAll modules).Dangling := by
  apply Compiler.not_dangling
  rw [modules_of_empty empty compilable.distinct]
  refine List.forall_mem_map.mpr fun m member dependency named => ?_
  rw [List.map_map]
  exact compilable.closed m member dependency named

theorem Compilable.runIn_compileAll (compilable : fresh.Compilable modules w)
    (empty : fresh.modules = []) (opens : w.Opens fresh.directory base) :
    ∃ (ordered : List Module) (own : Compiler) (writes : List (Location × String))
      (location : Location),
      ordered.Perm modules ∧
      own = (fresh.registerAll modules).record ((ordered.flatMap fresh.files).map Prod.fst) ∧
      w.Admits (ordered.flatMap fresh.files) writes ∧ w.Places fresh.listing location ∧
      compileAll.runIn (fresh.registerAll modules) w =
        (.ok (ordered.map fresh.report), own,
          (w.putAll writes).put location
            (manifest own (resultsJson (ordered.map fresh.report))).pretty) := by
  have closed := compilable.not_dangling empty
  have consistent := (consistent_of_empty empty).registerAll modules
  obtain ⟨names, ordered, orders⟩ := compilable.shallow.exists_order
  have once := consistent.modulesOf_perm closed orders
  obtain ⟨writes, location, admits, places, run⟩ :=
    (compilable.ready empty opens).runIn_compileAll consistent closed ordered orders
  rw [modules_of_empty empty compilable.distinct, List.map_map] at once
  rw [files_registerAll] at admits run
  rw [listing, directory_registerAll] at places
  rw [report_registerAll] at run
  exact ⟨_, _, writes, location, once.trans (List.map_id _ ▸ .refl _), rfl, admits, places, run⟩

/-- The files of all modules lie in different places. -/
theorem Compilable.apart (compilable : fresh.Compilable modules w)
    (opens : w.Opens fresh.directory base) :
    w.Apart (modules.flatMap fresh.files) := by
  have slash := compilable.slash
  refine List.pairwise_flatMap.mpr ⟨fun m _ => apart_partFiles w _ m 0 _, ?_⟩
  refine (List.pairwise_map.mp compilable.distinct).imp_of_mem fun {m other} here there differ => ?_
  intro file member later memberToo location places placesToo
  obtain ⟨i, _, path⟩ := exists_of_mem_files member
  obtain ⟨j, _, pathToo⟩ := exists_of_mem_files memberToo
  have found := places.found
  have foundToo := placesToo.found
  rw [path,
    Tree.resolve_join opens.named (plain_partName (slash m here) i) opens.found opens.held] at found
  rw [pathToo, Tree.resolve_join opens.named (plain_partName (slash other there) j) opens.found
    opens.held] at foundToo
  have same := List.append_cancel_left (Except.ok.inj (found.trans foundToo.symm))
  exact differ (partName_inj (List.singleton_inj.mp same)).1

theorem textAt_part {ordered : List Module} {writes : List (Location × String)}
    {location : Location} (admits : w.Admits (ordered.flatMap fresh.files) writes)
    (apart : w.Apart (ordered.flatMap fresh.files)) (places : w.Places fresh.listing location)
    (text : String) {m : Module} (member : m ∈ ordered) {i : Nat} {lines : List String}
    (there : (fresh.groups m)[i]? = some lines) :
    ((w.putAll writes).put location text).textAt (Path.join fresh.directory (partName m.name i)) =
      some (fileText m lines i) := by
  have part : _ ∈ ordered.flatMap fresh.files :=
    List.mem_flatMap.mpr ⟨m, member, mem_partFiles fresh.directory m there⟩
  obtain ⟨place, found, _⟩ := admits.exists_write part
  have here := admits.sameDirectories.places found
  have stay := admits.sameDirectories.places places
  have kept := Workspace.textAt_put_of_ne stay.free text fun met =>
    part_ne_manifest here stay.found (Except.ok.inj (here.found.symm.trans met))
  exact kept.trans (admits.textAt apart part :)

end Compilable

theorem opens_of_openAt {directory : String} {start w : Workspace} {fresh : Compiler}
    (standing : start.tree.isDirectory start.directory = true)
    (opened : (openAt directory).runIn start = (.ok fresh, w)) :
    fresh = { directory := directory } ∧ ∃ base, w.Opens directory base := by
  obtain ⟨_, between, made, rest⟩ := Action.exists_of_runIn_bind opened
  cases rest
  exact ⟨rfl, Action.opens_of_makeDirectories standing made⟩

end Compiler

/-- Modules that are registered in another order are all compiled again, with the same files.  Only
the order of the modules in the results, and in the list of all files, may be another. -/
theorem compileAll_reordered {directory : String} {modules others : List Module}
    {start w : Workspace} {fresh : Compiler}
    (standing : start.tree.isDirectory start.directory = true)
    (opened : (Compiler.openAt directory).runIn start = (.ok fresh, w))
    (compilable : fresh.Compilable modules w) (reordered : modules.Perm others) :
    ∃ first second own ownToo after afterToo,
      compileAll.runIn (fresh.registerAll modules) w = (.ok first, own, after) ∧
      compileAll.runIn (fresh.registerAll others) w = (.ok second, ownToo, afterToo) ∧
      (first.map Prod.fst).Nodup ∧ first.Perm second ∧
      (∀ m ∈ modules, ∀ i lines, (fresh.groups m)[i]? = some lines →
        after.textAt (Path.join directory (partName m.name i)) = some (fileText m lines i)) ∧
      (∀ location, w.tree.resolve w.directory fresh.listing ≠ .ok location →
        after.tree.lookup location = afterToo.tree.lookup location) ∧
      after.textAt fresh.listing = some (manifest own (resultsJson first)).pretty ∧
      afterToo.textAt fresh.listing = some (manifest ownToo (resultsJson second)).pretty ∧
      own.generated.length = ownToo.generated.length := by
  obtain ⟨rfl, base, opens⟩ := Compiler.opens_of_openAt standing opened
  obtain ⟨ordered, own, writes, location, once, recorded, admits, places, run⟩ :=
    compilable.runIn_compileAll rfl opens
  obtain ⟨orderedToo, ownToo, writesToo, locationToo, onceToo, recordedToo, admitsToo, placesToo,
    runToo⟩ :=
    (compilable.perm rfl reordered).runIn_compileAll rfl opens
  obtain rfl := places.unique placesToo
  -- Both runs write the same files, to places that are apart, so that their order does not matter.
  have same : ordered.Perm orderedToo := once.trans (reordered.trans onceToo.symm)
  have files := same.flatMap_right (Compiler.files { directory := directory })
  have apart := (compilable.perm rfl once.symm).apart opens
  have distinct := admits.nodup apart
  refine ⟨_, _, own, ownToo, _, _, run, runToo, ?_, same.map _, ?_, ?_, ?_, ?_, ?_⟩
  · rw [List.map_map]
    exact (once.map Module.name).nodup_iff.mpr compilable.distinct
  · intro m member i lines there
    exact Compiler.textAt_part admits apart places _ (once.mem_iff.mpr member) there
  · intro other elsewhere
    have differ : location ≠ other := by
      rintro rfl
      exact elsewhere places.found
    refine (Tree.lookup_set_of_ne _ differ _).trans
      (.trans ?_ (Tree.lookup_set_of_ne _ differ _).symm)
    exact w.lookup_putAll_perm (admits.perm files admitsToo) distinct other
  · exact Workspace.textAt_put (admits.sameDirectories.places places) _
  · exact Workspace.textAt_put (admitsToo.sameDirectories.places places) _
  · rw [recorded, recordedToo]
    simp [Compiler.record, Compiler.generated_registerAll, files.length_eq]

def mutualModules : List Module :=
  [fixingModule "a" ["b"], fixingModule "b" ["a"]]

theorem compilable_mutualModules :
    Compiler.Compilable { directory := "build" } mutualModules emptyBuild where
  distinct := by decide
  slash := by decide
  closed := by decide
  shallow := Compiler.shallow_of_length_lt (by decide : 2 < 996)
  fits := by decide
  fitsListing := by decide
  lowers := by
    simp only [mutualModules, List.forall_mem_cons, List.not_mem_nil, false_implies, implies_true,
      and_true]
    exact ⟨givenModule_lowers .., givenModule_lowers ..⟩
  clear := by
    intro m member name named
    obtain ⟨i, _, rfl⟩ := List.mem_map.mp named
    have slash : ∀ m ∈ mutualModules, '/' ∉ m.name.toList := by decide
    rw [opens_emptyBuild.directoryAt_iff (plain_partName (slash m member) i),
      not_isDirectory_emptyBuild]
    exact Bool.false_ne_true
  listed := by
    have plain : Path.Plain "manifest.json" := by constructor <;> decide
    exact fun held => Bool.noConfusion ((opens_emptyBuild.directoryAt_iff plain).mp held)

/-- The two are compiled in different orders if they are registered in different orders. -/
theorem compileAll_reordered_mutual :
    Compiler.order (Compiler.registerAll { directory := "build" } mutualModules) emptyBuild.room =
      .ok ["b", "a"] ∧
    Compiler.order (Compiler.registerAll { directory := "build" } mutualModules.reverse)
        emptyBuild.room =
      .ok ["a", "b"] ∧
    ∃ first second own ownToo after afterToo,
      compileAll.runIn (Compiler.registerAll { directory := "build" } mutualModules) emptyBuild =
        (.ok first, own, after) ∧
      compileAll.runIn (Compiler.registerAll { directory := "build" } mutualModules.reverse)
          emptyBuild =
        (.ok second, ownToo, afterToo) ∧
      first.Perm second := by
  obtain ⟨first, second, own, ownToo, after, afterToo, run, runToo, _, same, _⟩ :=
    compileAll_reordered (rfl : emptyBuild.tree.isDirectory emptyBuild.directory = true)
      (rfl : (Compiler.openAt "build").runIn emptyBuild =
        (.ok { directory := "build" }, emptyBuild))
      compilable_mutualModules (List.reverse_perm mutualModules).symm
  exact ⟨rfl, rfl, first, second, own, ownToo, after, afterToo, run, runToo, same⟩

/-- A workspace where a directory has the name of a file. -/
def blockedBuild : Workspace :=
  { emptyBuild with tree := ⟨[(["build"], .directory), (["build", "a_part0.tau"], .directory)]⟩ }

/-- There the module of that file is not compiled. -/
theorem compileAll_blocked :
    (Compiler.openAt "build").runIn blockedBuild = (.ok { directory := "build" }, blockedBuild) ∧
      (fixingModule "a" []).Lowers ∧
      compileAll.runIn (Compiler.registerAll { directory := "build" } [fixingModule "a" []])
          blockedBuild =
        (.error (.path .isADirectory "build/a_part0.tau"),
          Compiler.registerAll { directory := "build" } [fixingModule "a" []], blockedBuild) := by
  have lowers : (fixingModule "a" []).Lowers := givenModule_lowers ..
  have refused (text : String) : (Action.writeFile "build/a_part0.tau" text).runIn blockedBuild =
      (.error (.path .isADirectory "build/a_part0.tau"), blockedBuild) := rfl
  have run : (compile (fixingModule "a" [])).runIn
      (Compiler.registerAll { directory := "build" } [fixingModule "a" []]) blockedBuild =
        (.error (.path .isADirectory "build/a_part0.tau"), _, blockedBuild) :=
    (runIn_compile_lowered lowers _ _).trans (runIn_writeParts_refused (refused _))
  refine ⟨rfl, lowers, ?_⟩
  exact runIn_compileAll_failed
    (rfl : Compiler.order (Compiler.registerAll { directory := "build" } [fixingModule "a" []])
        blockedBuild.room = .ok ["a"]) (runIn_compileEach_failed rfl run)

end Circuit

end Zkvm
