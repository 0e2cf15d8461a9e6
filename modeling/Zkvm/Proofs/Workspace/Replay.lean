import Zkvm.Proofs.Workspace.Paths
import Zkvm.Proofs.Workspace.Printing

/-!
# Actions that can be replayed

Two workspaces are alike if they have the same files and directories, whatever stands in the files.
An action can be replayed if it does the same in all workspaces that are like a given one: it gives
the same value, prints the same text and writes the same texts to the same files, all of which are
there already.  So a run leaves a workspace like the one from which it started, a second run changes
nothing, and two such actions on different files can be run in either order.  What a sequence or a
loop writes is put together from what its steps write.
-/
set_option autoImplicit false

namespace Zkvm

/-! ## Trees with the same places -/

namespace Tree

def places (tree : Tree) : List Location :=
  tree.entries.map Prod.fst

/-- A tree as it is kept on a disk: every place is there once, lies in a directory and has plain
names, none of which is too long. -/
structure Sound (tree : Tree) : Prop where
  distinct : tree.places.Nodup
  held : ∀ location ∈ tree.places, tree.isDirectory location.dropLast = true
  plain : ∀ location ∈ tree.places, ∀ name ∈ location, Path.Plain name
  fits : ∀ location ∈ tree.places, ∀ name ∈ location, Action.refusal? name name = none

instance (tree : Tree) : Decidable tree.Sound :=
  decidable_of_iff (tree.places.Nodup ∧
    (∀ location ∈ tree.places, tree.isDirectory location.dropLast = true) ∧
      (∀ location ∈ tree.places, ∀ name ∈ location, Path.Plain name) ∧
      ∀ location ∈ tree.places, ∀ name ∈ location, Action.refusal? name name = none)
    ⟨fun ⟨distinct, held, plain, fits⟩ => ⟨distinct, held, plain, fits⟩,
      fun sound => ⟨sound.distinct, sound.held, sound.plain, sound.fits⟩⟩

theorem isSome_lookupIn {location : Location} {entries : List (Location × Node)} :
    (lookupIn location entries).isSome = true ↔ location ∈ entries.map Prod.fst := by
  induction entries with
  | nil => simp [lookupIn]
  | cons entry rest ih =>
      obtain ⟨here, node⟩ := entry
      by_cases same : here = location
      · simp [lookupIn, same]
      · simp [lookupIn, same, ih, Ne.symm same]

theorem isSome_lookup {tree : Tree} {location : Location} :
    (tree.lookup location).isSome = true ↔ location = [] ∨ location ∈ tree.places := by
  unfold lookup
  split
  · simp [*]
  · simp [*, isSome_lookupIn, places]

theorem childName?_eq_some_iff {directory location : Location} {name : String} :
    childName? directory location = some name ↔ location = directory ++ [name] := by
  unfold childName?
  cases last : location.getLast? with
  | none => simp [List.getLast?_eq_none_iff.mp last]
  | some other =>
      dsimp only
      constructor
      · intro found
        split at found
        next child => exact Option.some.inj found ▸ child
        next => cases found
      · rintro rfl
        rw [List.getLast?_concat] at last
        cases last
        exact if_pos rfl

/-- What lies in a directory is told by the places alone. -/
theorem children_eq (tree : Tree) (directory : Location) :
    tree.children directory = tree.places.filterMap (childName? directory) := by
  rw [places, List.filterMap_map]
  rfl

theorem mem_children {tree : Tree} {directory : Location} {name : String} :
    name ∈ tree.children directory ↔ directory ++ [name] ∈ tree.places := by
  rw [children_eq, List.mem_filterMap]
  constructor
  · rintro ⟨location, there, child⟩
    exact childName?_eq_some_iff.mp child ▸ there
  · exact fun there => ⟨_, there, childName?_eq_some_iff.mpr rfl⟩

theorem map_fst_setIn {location : Location} {entries : List (Location × Node)}
    (there : location ∈ entries.map Prod.fst) (node : Node) :
    (setIn location node entries).map Prod.fst = entries.map Prod.fst := by
  induction entries with
  | nil => cases there
  | cons entry rest ih =>
      obtain ⟨here, old⟩ := entry
      by_cases same : here = location
      · simp [setIn, same]
      · rw [List.map_cons, List.mem_cons] at there
        simp [setIn, same, ih (there.resolve_left (Ne.symm same))]

theorem places_set {tree : Tree} {location : Location} (there : location ∈ tree.places)
    (node : Node) :
    (tree.set location node).places = tree.places :=
  map_fst_setIn there node

/-- Entries at the same distinct places are the same if each place has the same in both. -/
theorem entries_ext {first second : List (Location × Node)}
    (places : first.map Prod.fst = second.map Prod.fst) (distinct : (first.map Prod.fst).Nodup)
    (agree : ∀ location, lookupIn location first = lookupIn location second) : first = second := by
  induction first generalizing second with
  | nil => exact (List.map_eq_nil_iff.mp places.symm).symm
  | cons entry rest ih =>
      cases second with
      | nil => cases places
      | cons other more =>
          obtain ⟨here, node⟩ := entry
          obtain ⟨there, node'⟩ := other
          rw [List.map_cons, List.map_cons, List.cons.injEq] at places
          obtain ⟨rfl, places⟩ := places
          rw [List.map_cons, List.nodup_cons] at distinct
          have node_eq : node = node' := by
            have head := agree here
            simpa [lookupIn] using head
          refine List.cons_eq_cons.mpr ⟨by rw [node_eq], ih places distinct.2 fun location => ?_⟩
          by_cases same : here = location
          · subst same
            have absent {entries : List (Location × Node)} (missing : here ∉ entries.map Prod.fst) :
                lookupIn here entries = none := by
              rw [← Option.not_isSome_iff_eq_none, isSome_lookupIn]
              exact missing
            rw [absent distinct.1, absent (places ▸ distinct.1)]
          · simpa [lookupIn, same] using agree location

end Tree

namespace Workspace

/-! ## Workspaces that are alike -/

def noting (w : Workspace) (text : String) : Workspace :=
  { w with printed := w.printed ++ text }

/-- The same files and directories, the same solver, and the same directory to work in. -/
structure Alike (w v : Workspace) : Prop where
  directory : v.directory = w.directory
  solver : v.solver = w.solver
  places : v.tree.places = w.tree.places
  directories : ∀ location, v.tree.isDirectory location = w.tree.isDirectory location

section Alike
variable {w v u : Workspace}

theorem Alike.refl (w : Workspace) : w.Alike w :=
  ⟨rfl, rfl, rfl, fun _ => rfl⟩

theorem Alike.symm (alike : w.Alike v) : v.Alike w :=
  ⟨alike.directory.symm, alike.solver.symm, alike.places.symm,
    fun location => (alike.directories location).symm⟩

theorem Alike.trans (first : w.Alike v) (second : v.Alike u) : w.Alike u :=
  ⟨second.directory.trans first.directory, second.solver.trans first.solver,
    second.places.trans first.places,
    fun location => (second.directories location).trans (first.directories location)⟩

theorem Alike.sameDirectories (alike : w.Alike v) : w.SameDirectories v :=
  ⟨alike.directory, alike.directories⟩

theorem Alike.resolve (alike : w.Alike v) (path : String) :
    (v.tree.resolve v.directory path).toOption = (w.tree.resolve w.directory path).toOption := by
  cases found : w.tree.resolve w.directory path with
  | ok location => rw [alike.sameDirectories.resolve found]
  | error detour =>
      cases foundToo : v.tree.resolve v.directory path with
      | ok location =>
          rw [alike.sameDirectories.symm.resolve foundToo] at found
          cases found
      | error other => rfl

theorem Alike.isSome_lookup (alike : w.Alike v) (location : Location) :
    (v.tree.lookup location).isSome = (w.tree.lookup location).isSome := by
  rw [Bool.eq_iff_iff, Tree.isSome_lookup, Tree.isSome_lookup, alike.places]

theorem Alike.sound (alike : w.Alike v) (sound : w.tree.Sound) : v.tree.Sound where
  distinct := alike.places ▸ sound.distinct
  held location there := by
    rw [alike.directories]
    exact sound.held location (alike.places ▸ there)
  plain location there := sound.plain location (alike.places ▸ there)
  fits location there := sound.fits location (alike.places ▸ there)

theorem alike_noting (w : Workspace) (text : String) : w.Alike (w.noting text) :=
  ⟨rfl, rfl, rfl, fun _ => rfl⟩

end Alike

/-- There is a file at this location. -/
structure IsFile (w : Workspace) (location : Location) : Prop where
  there : location ∈ w.tree.places
  free : w.tree.isDirectory location = false

theorem Alike.isFile {w v : Workspace} (alike : w.Alike v) {location : Location}
    (file : w.IsFile location) :
    v.IsFile location :=
  ⟨alike.places ▸ file.there, (alike.directories location).trans file.free⟩

theorem IsFile.alike_put {w : Workspace} {location : Location} (file : w.IsFile location)
    (text : String) :
    w.Alike (w.put location text) :=
  ⟨rfl, rfl, Tree.places_set file.there _, Tree.isDirectory_set_file file.free text⟩

theorem alike_putAll {w : Workspace} {writes : List (Location × String)}
    (files : ∀ write ∈ writes, w.IsFile write.1) : w.Alike (w.putAll writes) := by
  induction writes generalizing w with
  | nil => exact .refl w
  | cons write rest ih =>
      rw [List.forall_mem_cons] at files
      have first := files.1.alike_put write.2
      exact first.trans (ih fun other member => first.isFile (files.2 other member))

theorem alike_noting_putAll {w : Workspace} {writes : List (Location × String)}
    (files : ∀ write ∈ writes, w.IsFile write.1) (text : String) :
    w.Alike ((w.putAll writes).noting text) :=
  (alike_putAll files).trans (alike_noting _ text)

theorem noting_putAll (w : Workspace) (writes : List (Location × String)) (text : String) :
    (w.noting text).putAll writes = (w.putAll writes).noting text := by
  induction writes generalizing w with
  | nil => rfl
  | cons write rest ih => exact ih (w.put write.1 write.2)

theorem printed_putAll (w : Workspace) (writes : List (Location × String)) :
    (w.putAll writes).printed = w.printed := by
  induction writes generalizing w with
  | nil => rfl
  | cons write rest ih => exact ih (w.put write.1 write.2)

/-- What is at a place in the end: the last text that was put there, or what was there before. -/
theorem lookupIn_putAll (w : Workspace) (writes : List (Location × String)) (location : Location) :
    Tree.lookupIn location (w.putAll writes).tree.entries =
      ((writes.reverse.lookup location).map Node.file).or
        (Tree.lookupIn location w.tree.entries) := by
  induction writes generalizing w with
  | nil => rfl
  | cons write rest ih =>
      obtain ⟨place, text⟩ := write
      have last : Tree.lookupIn location (w.put place text).tree.entries =
          (([(place, text)].lookup location).map Node.file).or
            (Tree.lookupIn location w.tree.entries) := by
        change Tree.lookupIn location (Tree.setIn place (.file text) w.tree.entries) = _
        by_cases same : place = location
        · rw [same, Tree.lookupIn_setIn_same, List.lookup_cons_self]
          rfl
        · rw [Tree.lookupIn_setIn_of_ne same, List.lookup_cons,
            beq_eq_false_iff_ne.mpr (Ne.symm same)]
          rfl
      rw [List.reverse_cons, List.lookup_append, Option.map_or, Option.or_assoc, ← last]
      exact ih (w.put place text)

/-- A file for which there is only one text has this text in the end. -/
theorem lookup_putAll_of_agree (w : Workspace) {writes : List (Location × String)}
    {write : Location × String} (inner : write.1 ≠ []) (member : write ∈ writes)
    (agree : ∀ other ∈ writes, other.1 = write.1 → other.2 = write.2) :
    (w.putAll writes).tree.lookup write.1 = some (.file write.2) := by
  induction writes generalizing w with
  | nil => cases member
  | cons first rest ih =>
      rw [List.forall_mem_cons] at agree
      by_cases touched : write.1 ∈ rest.map Prod.fst
      · obtain ⟨other, later, same⟩ := List.mem_map.mp touched
        have eq : other = write := Prod.ext same (agree.2 other later same)
        exact ih _ (eq ▸ later) agree.2
      · obtain rfl : write = first :=
          (List.mem_cons.mp member).resolve_right fun later => touched (List.mem_map_of_mem later)
        exact (lookup_putAll_of_not_mem _ touched).trans (Tree.lookup_set_same w.tree inner _)

theorem tree_eq_of_lookupIn {w v : Workspace} (alike : w.Alike v) (sound : w.tree.Sound)
    (agree : ∀ location, Tree.lookupIn location v.tree.entries =
      Tree.lookupIn location w.tree.entries) :
    v.tree = w.tree := by
  have entries : v.tree.entries = w.tree.entries :=
    Tree.entries_ext alike.places (alike.sound sound).distinct agree
  cases v with
  | mk tree => cases tree; exact congrArg Tree.mk entries

/-- Texts that were put are not changed by putting them again. -/
theorem putAll_again {w : Workspace} (sound : w.tree.Sound) {writes : List (Location × String)}
    (files : ∀ write ∈ writes, w.IsFile write.1) :
    ((w.putAll writes).putAll writes).tree = (w.putAll writes).tree := by
  have once := alike_putAll files
  have twice := alike_putAll fun write member => once.isFile (files write member)
  refine tree_eq_of_lookupIn twice (once.sound sound) fun location => ?_
  rw [lookupIn_putAll, lookupIn_putAll, ← Option.or_assoc, Option.or_self]

/-- Texts for different files can be put in either order. -/
theorem putAll_comm {w : Workspace} (sound : w.tree.Sound) {first second : List (Location × String)}
    (files : ∀ write ∈ first, w.IsFile write.1) (filesToo : ∀ write ∈ second, w.IsFile write.1)
    (apart : ∀ write ∈ first, write.1 ∉ second.map Prod.fst) :
    ((w.putAll first).putAll second).tree = ((w.putAll second).putAll first).tree := by
  have one := alike_putAll files
  have other := alike_putAll filesToo
  have both := one.trans (alike_putAll fun write member => one.isFile (filesToo write member))
  have bothToo := other.trans (alike_putAll fun write member => other.isFile (files write member))
  refine tree_eq_of_lookupIn (bothToo.symm.trans both) (bothToo.sound sound) fun location => ?_
  have absent {writes : List (Location × String)} (untouched : location ∉ writes.map Prod.fst) :
      writes.reverse.lookup location = none := by
    rw [List.lookup_eq_none_iff]
    intro write member
    rw [bne_iff_ne]
    rintro rfl
    exact untouched (List.mem_map_of_mem (List.mem_reverse.mp member))
  simp only [lookupIn_putAll]
  by_cases touched : location ∈ first.map Prod.fst
  · obtain ⟨write, member, rfl⟩ := List.mem_map.mp touched
    rw [absent (apart write member), Option.map_none, Option.none_or, Option.none_or]
  · rw [absent touched, Option.map_none, Option.none_or, Option.none_or]

end Workspace

/-! ## What is seen of a workspace -/

def Workspace.occupied (w : Workspace) (path : String) : Bool :=
  ((w.tree.resolve w.directory path).toOption.map fun location =>
    (w.tree.lookup location).isSome).getD false

def Workspace.listed (w : Workspace) (directory ending : String) : List String :=
  ((w.tree.resolve w.directory directory).toOption.map fun location =>
    ((w.tree.children location).filter (Text.hasSuffix ending)).map (Path.under directory)).getD []

theorem Workspace.Alike.occupied {w v : Workspace} (alike : w.Alike v) (path : String) :
    v.occupied path = w.occupied path := by
  simp only [Workspace.occupied, alike.resolve, alike.isSome_lookup]

theorem Workspace.Alike.listed {w v : Workspace} (alike : w.Alike v) (directory ending : String) :
    v.listed directory ending = w.listed directory ending := by
  simp only [Workspace.listed, alike.resolve, Tree.children_eq, alike.places]

namespace Action

theorem runIn_exists (path : String) (w : Workspace) :
    (exists? path).runIn w = (.ok (w.occupied path), w) := by
  cases found : w.tree.resolve w.directory path with
  | ok location =>
      simp only [exists?, look, runIn_bind, runIn_get, Workspace.occupied, found]
      rfl
  | error detour =>
      simp only [exists?, look, runIn_bind, runIn_get, Workspace.occupied, found]
      rfl

theorem runIn_listFiles (directory ending : String) (w : Workspace) :
    (listFiles directory ending).runIn w = (.ok (w.listed directory ending), w) := by
  cases found : w.tree.resolve w.directory directory with
  | ok location =>
      simp only [listFiles, runIn_bind, runIn_get, Workspace.listed, found]
      rfl
  | error detour =>
      simp only [listFiles, runIn_bind, runIn_get, Workspace.listed, found]
      rfl

/-! ## Replaying -/

section Replaying
variable {α β : Type} {w : Workspace} {writes later : List (Location × String)}

/-- In every workspace like this one the action gives this value, writes these texts to files that
are there, and prints the same. -/
structure Performs (w : Workspace) (writes : List (Location × String)) (value : α)
    (action : Action α) : Prop where
  files : ∀ write ∈ writes, w.IsFile write.1
  run : ∃ text, ∀ v, w.Alike v → action.runIn v = (.ok value, (v.putAll writes).noting text)

/-- An action that writes to no file. -/
def Quiet (w : Workspace) (action : Action α) : Prop :=
  ∃ value, Performs w [] value action

/-! ### Single steps -/

theorem performs_look {action : Action α} {value : α}
    (run : ∀ v, w.Alike v → action.runIn v = (.ok value, v)) :
    Performs w [] value action :=
  ⟨List.forall_mem_nil _, "",
    fun v alike => by rw [run v alike, Workspace.noting, String.append_empty]; rfl⟩

theorem performs_pure (value : α) : Performs w [] value (pure value) :=
  performs_look fun _ _ => rfl

theorem performs_exists (path : String) : Performs w [] (w.occupied path) (exists? path) :=
  performs_look fun v alike => by rw [runIn_exists, alike.occupied]

theorem performs_listFiles (directory ending : String) :
    Performs w [] (w.listed directory ending) (listFiles directory ending) :=
  performs_look fun v alike => by rw [runIn_listFiles, alike.listed]

theorem performs_solve (path : String) : Performs w [] (w.solver.answer path) (solve path) :=
  performs_look fun v alike => by rw [← alike.solver]; rfl

theorem performs_sayAll (lines : List String) : Performs w [] () (sayAll lines) :=
  ⟨List.forall_mem_nil _, Text.printedLines lines, fun v _ => runIn_sayAll lines v⟩

theorem performs_say (line : String) : Performs w [] () (say line) :=
  ⟨List.forall_mem_nil _, Text.printedLines [line], fun v _ => runIn_say line v⟩

theorem performs_writeFile {path : String} {location : Location} (places : w.Places path location)
    (file : w.IsFile location) (text : String) :
    Performs w [(location, text)] () (writeFile path text) := by
  refine ⟨List.forall_mem_singleton.mpr file, "", fun v alike => ?_⟩
  rw [runIn_writeFile_of_places (alike.sameDirectories.places places), Workspace.noting,
    String.append_empty]
  rfl

/-! ### Sequences -/

section Sequences
variable {first : Action α} {next : α → Action β} {value : α} {result : β}

theorem Performs.bind (performs : Performs w writes value first)
    (rest : Performs w later result (next value)) :
    Performs w (writes ++ later) result (first >>= next) := by
  obtain ⟨files, text, run⟩ := performs
  obtain ⟨filesToo, more, runToo⟩ := rest
  refine ⟨List.forall_mem_append.mpr ⟨files, filesToo⟩, text ++ more, fun v alike => ?_⟩
  have between : w.Alike ((v.putAll writes).noting text) :=
    alike.trans
      (Workspace.alike_noting_putAll (fun write member => alike.isFile (files write member)) text)
  rw [runIn_bind, run v alike]
  refine (runToo _ between).trans ?_
  rw [Workspace.noting_putAll, Workspace.putAll_append]
  simp only [Workspace.noting, String.append_assoc]

/-- What comes after a look does all the writing. -/
theorem Performs.andThen (looks : Performs w [] value first)
    (rest : Performs w later result (next value)) :
    Performs w later result (first >>= next) :=
  looks.bind rest

/-- What comes before a look does all the writing. -/
theorem Performs.andLook (performs : Performs w writes value first)
    (rest : Performs w [] result (next value)) :
    Performs w writes result (first >>= next) := by
  have both := performs.bind rest
  rwa [List.append_nil] at both

theorem Performs.quiet (performs : Performs w [] value first) : Quiet w first :=
  ⟨value, performs⟩

theorem quiet_pure (value : α) : Quiet w (pure value) :=
  (performs_pure value).quiet

theorem quiet_say (line : String) : Quiet w (say line) :=
  (performs_say line).quiet

theorem quiet_sayAll (lines : List String) : Quiet w (sayAll lines) :=
  (performs_sayAll lines).quiet

theorem Quiet.performs {action : Action Unit} (quiet : Quiet w action) : Performs w [] () action :=
  quiet.choose_spec

theorem Quiet.bind (quiet : Quiet w first) (rest : ∀ value, Quiet w (next value)) :
    Quiet w (first >>= next) := by
  obtain ⟨value, looks⟩ := quiet
  obtain ⟨result, looksToo⟩ := rest value
  exact ⟨result, looks.bind looksToo⟩

end Sequences

/-! ### Loops -/

section Loops
variable {items : List α}

theorem performs_mapM {step : α → Action β} {writesOf : α → List (Location × String)}
    {valueOf : α → β}
    (each : ∀ item ∈ items, Performs w (writesOf item) (valueOf item) (step item)) :
    Performs w (items.flatMap writesOf) (items.map valueOf) (items.mapM step) := by
  induction items with
  | nil => exact performs_pure []
  | cons item rest ih =>
      rw [List.forall_mem_cons] at each
      rw [List.mapM_cons, List.flatMap_cons, List.map_cons]
      exact each.1.bind ((ih each.2).andLook (performs_pure _))

theorem performs_forM {step : α → Action Unit} {writesOf : α → List (Location × String)}
    (each : ∀ item ∈ items, Performs w (writesOf item) () (step item)) :
    Performs w (items.flatMap writesOf) () (items.forM step) := by
  induction items with
  | nil => exact performs_pure ()
  | cons item rest ih =>
      rw [List.forall_mem_cons] at each
      rw [List.flatMap_cons]
      exact each.1.bind (ih each.2)

theorem quiet_mapM {step : α → Action β} (each : ∀ item ∈ items, Quiet w (step item)) :
    Quiet w (items.mapM step) := by
  induction items with
  | nil => exact quiet_pure []
  | cons item rest ih =>
      rw [List.forall_mem_cons] at each
      rw [List.mapM_cons]
      exact each.1.bind fun _ => (ih each.2).bind fun _ => quiet_pure _

theorem quiet_filterM {test : α → Action Bool} (each : ∀ item ∈ items, Quiet w (test item)) :
    Quiet w (items.filterM test) := by
  have collects (kept : List α) : Quiet w (items.filterAuxM test kept) := by
    induction items generalizing kept with
    | nil => exact quiet_pure kept
    | cons item rest ih =>
        rw [List.forall_mem_cons] at each
        exact each.1.bind fun _ => ih each.2 _
  exact (collects []).bind fun _ => quiet_pure _

end Loops

/-! ### Whole runs -/

theorem Performs.value_eq {action : Action α} {value : α}
    (performs : Performs w writes value action) {v : Workspace} (alike : w.Alike v) :
    (action.runIn v).1 = .ok value := by
  obtain ⟨_, text, run⟩ := performs
  rw [run v alike]

/-- A run ends well and leaves everything where it was.  What is not written stays as it was, and a
file that is written with one text only has this text. -/
theorem Performs.frame {action : Action α} {value : α} (performs : Performs w writes value action) :
    ∃ after, action.runIn w = (.ok value, after) ∧ w.Alike after ∧
      (∀ location, location ∉ writes.map Prod.fst →
        after.tree.lookup location = w.tree.lookup location) ∧
      ∀ write ∈ writes, (∀ other ∈ writes, other.1 = write.1 → other.2 = write.2) →
        after.tree.lookup write.1 = some (.file write.2) := by
  obtain ⟨files, text, run⟩ := performs
  refine ⟨_, run w (.refl w), ?_, fun location untouched => ?_, fun write member agree => ?_⟩
  · exact Workspace.alike_noting_putAll files text
  · exact Workspace.lookup_putAll_of_not_mem w untouched
  · exact Workspace.lookup_putAll_of_agree w
      (Tree.ne_root_of_not_isDirectory (files write member).free) member agree

/-- A second run gives the same value, prints the same text and changes no file. -/
theorem Performs.again {action : Action α} {value : α} (performs : Performs w writes value action)
    (sound : w.tree.Sound) :
    ∃ text after last, action.runIn w = (.ok value, after) ∧
      action.runIn after = (.ok value, last) ∧
      last.tree = after.tree ∧ after.printed = w.printed ++ text ∧
      last.printed = after.printed ++ text := by
  obtain ⟨files, text, run⟩ := performs
  refine ⟨text, _, _, run w (.refl w), run _ (Workspace.alike_noting_putAll files text), ?_, ?_, ?_⟩
  · rw [Workspace.noting_putAll]
    exact Workspace.putAll_again sound files
  · rw [Workspace.noting, Workspace.printed_putAll]
  · rw [Workspace.noting, Workspace.printed_putAll]

/-- Two runs that write to different files can be made in either order. -/
theorem Performs.comm {first : Action α} {second : Action β} {value : α} {result : β}
    (performs : Performs w writes value first) (performsToo : Performs w later result second)
    (sound : w.tree.Sound) (apart : ∀ write ∈ writes, write.1 ∉ later.map Prod.fst) :
    ∃ one other both bothToo, first.runIn w = (.ok value, one) ∧
      second.runIn one = (.ok result, both) ∧
      second.runIn w = (.ok result, other) ∧ first.runIn other = (.ok value, bothToo) ∧
      both.tree = bothToo.tree := by
  obtain ⟨files, text, run⟩ := performs
  obtain ⟨filesToo, textToo, runToo⟩ := performsToo
  have one := Workspace.alike_noting_putAll files text
  have other := Workspace.alike_noting_putAll filesToo textToo
  refine ⟨_, _, _, _, run w (.refl w), runToo _ one, runToo w (.refl w), run _ other, ?_⟩
  rw [Workspace.noting_putAll, Workspace.noting_putAll]
  exact Workspace.putAll_comm sound files filesToo apart

end Replaying

end Action

end Zkvm
