import Mathlib.Data.List.Perm.Basic
import Zkvm.Workspace.Session

/-!
# Writing files

A file can be written at a path if nothing in the path is too long, and if it leads to a place in a
directory that is not itself a directory. Writing there changes what is at that place and nothing
else; in particular the directories stay as they are, so that the places of all other paths stay as
well, and a list of files goes to the places that its paths had at the beginning.
-/
set_option autoImplicit false

namespace Zkvm

namespace Tree

theorem lookupIn_setIn_same (location : Location) (node : Node) (entries : List (Location × Node)) :
    lookupIn location (setIn location node entries) = some node := by
  induction entries with
  | nil => simp [setIn, lookupIn]
  | cons entry rest ih =>
      obtain ⟨here, old⟩ := entry
      by_cases same : here = location
      · simp [setIn, lookupIn, same]
      · simp [setIn, lookupIn, same, ih]

theorem lookupIn_setIn_of_ne {location other : Location} (differ : location ≠ other) (node : Node)
    (entries : List (Location × Node)) :
    lookupIn other (setIn location node entries) = lookupIn other entries := by
  induction entries with
  | nil => simp [setIn, lookupIn, differ]
  | cons entry rest ih =>
      obtain ⟨here, old⟩ := entry
      by_cases same : here = location
      · subst same
        simp [setIn, lookupIn, differ]
      · simp only [setIn, lookupIn, if_neg same, ih]

theorem lookup_set_same (tree : Tree) {location : Location} (inner : location ≠ []) (node : Node) :
    (tree.set location node).lookup location = some node := by
  rw [lookup, if_neg inner]
  exact lookupIn_setIn_same location node tree.entries

theorem lookup_set_of_ne (tree : Tree) {location other : Location} (differ : location ≠ other)
    (node : Node) :
    (tree.set location node).lookup other = tree.lookup other := by
  unfold lookup
  rw [show (tree.set location node).entries = setIn location node tree.entries from rfl,
    lookupIn_setIn_of_ne differ]

theorem isDirectory_iff {tree : Tree} {location : Location} :
    tree.isDirectory location = true ↔ tree.lookup location = some .directory := by
  unfold isDirectory
  cases tree.lookup location with
  | none => simp
  | some node => cases node <;> simp

theorem isDirectory_root (tree : Tree) : tree.isDirectory [] = true :=
  rfl

theorem ne_root_of_not_isDirectory {tree : Tree} {location : Location}
    (free : tree.isDirectory location = false) : location ≠ [] := by
  rintro rfl
  rw [isDirectory_root] at free
  cases free

/-- A file in a place that was not a directory's leaves all directories as they are. -/
theorem isDirectory_set_file {tree : Tree} {location : Location}
    (free : tree.isDirectory location = false) (text : String) (other : Location) :
    (tree.set location (.file text)).isDirectory other = tree.isDirectory other := by
  by_cases same : location = other
  · subst same
    rw [free, isDirectory, lookup_set_same tree (ne_root_of_not_isDirectory free)]
  · rw [isDirectory, isDirectory, lookup_set_of_ne tree same]

/-- A path leads to the same place in a tree that has all the directories. -/
theorem follow_of_directories {first second : Tree}
    (kept : ∀ location, first.isDirectory location = true → second.isDirectory location = true)
    {here location : Location} {names : List String}
    (found : first.follow here names = .ok location) :
    second.follow here names = .ok location := by
  induction names generalizing here with
  | nil => exact found
  | cons name rest ih =>
      cases rest with
      | nil => exact found
      | cons next more =>
          simp only [follow, List.isEmpty_cons, Bool.false_eq_true, if_false] at found ⊢
          generalize (if name = ".." then here.dropLast else here ++ [name]) = step at found ⊢
          cases at' : first.lookup step with
          | none =>
              rw [at'] at found
              cases found
          | some node =>
              cases node with
              | file text =>
                  rw [at'] at found
                  cases found
              | directory =>
                  rw [at'] at found
                  rw [isDirectory_iff.mp (kept step (isDirectory_iff.mpr at'))]
                  exact ih found

end Tree

namespace Workspace

/-- A file can be written at this path, and it goes to this location. -/
structure Places (w : Workspace) (path : String) (location : Location) : Prop where
  named : path ≠ ""
  fits : Action.refusal? path (Path.name path) = none
  found : w.tree.resolve w.directory path = .ok location
  free : w.tree.isDirectory location = false
  held : w.tree.isDirectory location.dropLast = true

def put (w : Workspace) (location : Location) (text : String) : Workspace :=
  { w with tree := w.tree.set location (.file text) }

def putAll (w : Workspace) (writes : List (Location × String)) : Workspace :=
  writes.foldl (fun before write => before.put write.1 write.2) w

def textAt (w : Workspace) (path : String) : Option String :=
  match w.tree.resolve w.directory path with
  | .ok location =>
    match w.tree.lookup location with
    | some (.file text) => some text
    | _ => none
  | .error _ => none

theorem textAt_eq {w : Workspace} {path text : String} {location : Location}
    (found : w.tree.resolve w.directory path = .ok location)
    (there : w.tree.lookup location = some (.file text)) : w.textAt path = some text := by
  simp only [textAt, found, there]

/-! ## Workspaces with the same directories -/

structure SameDirectories (w v : Workspace) : Prop where
  directory : v.directory = w.directory
  directories : ∀ location, v.tree.isDirectory location = w.tree.isDirectory location

theorem SameDirectories.refl (w : Workspace) : w.SameDirectories w :=
  ⟨rfl, fun _ => rfl⟩

theorem SameDirectories.symm {w v : Workspace} (same : w.SameDirectories v) : v.SameDirectories w :=
  ⟨same.directory.symm, fun location => (same.directories location).symm⟩

theorem SameDirectories.trans {u v w : Workspace} (first : u.SameDirectories v)
    (second : v.SameDirectories w) :
    u.SameDirectories w :=
  ⟨second.directory.trans first.directory,
    fun location => (second.directories location).trans (first.directories location)⟩

theorem SameDirectories.resolve {w v : Workspace} (same : w.SameDirectories v) {path : String}
    {location : Location} (found : w.tree.resolve w.directory path = .ok location) :
    v.tree.resolve v.directory path = .ok location := by
  unfold Tree.resolve at found ⊢
  rw [same.directory]
  apply Tree.follow_of_directories (fun other isDirectory => ?_) found
  rw [same.directories, isDirectory]

theorem SameDirectories.places {w v : Workspace} (same : w.SameDirectories v) {path : String}
    {location : Location} (places : w.Places path location) : v.Places path location where
  named := places.named
  fits := places.fits
  found := same.resolve places.found
  free := (same.directories location).trans places.free
  held := (same.directories _).trans places.held

/-- Where the trees agree at the end of a path, and the path leads as far in both, the texts
agree. -/
theorem SameDirectories.textAt_eq_of_lookup {w v : Workspace} (same : w.SameDirectories v)
    {path : String} (agree : ∀ location, w.tree.resolve w.directory path = .ok location →
      v.tree.lookup location = w.tree.lookup location) : v.textAt path = w.textAt path := by
  cases found : w.tree.resolve w.directory path with
  | ok location => simp only [textAt, found, same.resolve found, agree location found]
  | error detour =>
      cases foundToo : v.tree.resolve v.directory path with
      | ok location =>
          rw [same.symm.resolve foundToo] at found
          cases found
      | error detour => simp only [textAt, found, foundToo]

theorem sameDirectories_put {w : Workspace} {location : Location}
    (free : w.tree.isDirectory location = false) (text : String) :
    w.SameDirectories (w.put location text) :=
  ⟨rfl, Tree.isDirectory_set_file free text⟩

theorem sameDirectories_putAll {w : Workspace} {writes : List (Location × String)}
    (free : ∀ write ∈ writes, w.tree.isDirectory write.1 = false) :
    w.SameDirectories (w.putAll writes) := by
  induction writes generalizing w with
  | nil => exact .refl w
  | cons write rest ih =>
      rw [List.forall_mem_cons] at free
      have first := sameDirectories_put free.1 write.2
      refine first.trans (ih fun other member => ?_)
      rw [first.directories]
      exact free.2 other member

theorem putAll_append (w : Workspace) (first second : List (Location × String)) :
    w.putAll (first ++ second) = (w.putAll first).putAll second :=
  List.foldl_append

theorem lookup_putAll_of_not_mem (w : Workspace) {writes : List (Location × String)}
    {location : Location} (untouched : location ∉ writes.map Prod.fst) :
    (w.putAll writes).tree.lookup location = w.tree.lookup location := by
  induction writes generalizing w with
  | nil => rfl
  | cons write rest ih =>
      rw [List.map_cons, List.mem_cons, not_or] at untouched
      exact (ih (w.put write.1 write.2) untouched.2).trans
        (Tree.lookup_set_of_ne w.tree (Ne.symm untouched.1) _)

/-- Every file of a list of distinct places is there in the end. -/
theorem lookup_putAll_of_mem (w : Workspace) {writes : List (Location × String)}
    {location : Location} {text : String} (distinct : (writes.map Prod.fst).Nodup)
    (inner : location ≠ []) (member : (location, text) ∈ writes) :
    (w.putAll writes).tree.lookup location = some (.file text) := by
  induction writes generalizing w with
  | nil => cases member
  | cons write rest ih =>
      rw [List.map_cons, List.nodup_cons] at distinct
      rcases List.mem_cons.mp member with rfl | later
      · exact (lookup_putAll_of_not_mem _ distinct.1).trans (Tree.lookup_set_same w.tree inner _)
      · exact ih (w.put write.1 write.2) distinct.2 later

/-- Files in distinct places can be put in any order. -/
theorem lookup_putAll_perm (w : Workspace) {first second : List (Location × String)}
    (same : first.Perm second) (distinct : (first.map Prod.fst).Nodup) (location : Location) :
    (w.putAll first).tree.lookup location = (w.putAll second).tree.lookup location := by
  have distinctToo : (second.map Prod.fst).Nodup := (same.map Prod.fst).nodup_iff.mp distinct
  by_cases root : location = []
  · subst root
    rfl
  · by_cases touched : location ∈ first.map Prod.fst
    · obtain ⟨⟨_, text⟩, member, rfl⟩ := List.mem_map.mp touched
      rw [lookup_putAll_of_mem w distinct root member,
        lookup_putAll_of_mem w distinctToo root (same.mem_iff.mp member)]
    · rw [lookup_putAll_of_not_mem w touched,
        lookup_putAll_of_not_mem w (fun later => touched ((same.map Prod.fst).mem_iff.mpr later))]

theorem textAt_put {w : Workspace} {path : String} {location : Location}
    (places : w.Places path location) (text : String) :
    (w.put location text).textAt path = some text :=
  textAt_eq ((sameDirectories_put places.free text).resolve places.found)
    (Tree.lookup_set_same w.tree (Tree.ne_root_of_not_isDirectory places.free) _)

theorem textAt_put_of_ne {w : Workspace} {location : Location}
    (free : w.tree.isDirectory location = false) (text : String) {path : String}
    (elsewhere : w.tree.resolve w.directory path ≠ .ok location) :
    (w.put location text).textAt path = w.textAt path := by
  refine (sameDirectories_put free text).textAt_eq_of_lookup fun other found => ?_
  refine Tree.lookup_set_of_ne w.tree ?_ _
  rintro rfl
  exact elsewhere found

/-! ## Files that can be written -/

/-- The places of a list of files, given by paths and texts. -/
def Admits (w : Workspace) (files : List (String × String))
    (writes : List (Location × String)) : Prop :=
  List.Forall₂ (fun file write => w.Places file.1 write.1 ∧ write.2 = file.2) files writes

section Admits
variable {w : Workspace} {files : List (String × String)} {writes : List (Location × String)}

theorem SameDirectories.admits {v : Workspace} (same : w.SameDirectories v)
    (admits : w.Admits files writes) : v.Admits files writes :=
  List.Forall₂.imp (fun _ _ placed => ⟨same.places placed.1, placed.2⟩) admits

theorem Admits.free (admits : w.Admits files writes) :
    ∀ write ∈ writes, w.tree.isDirectory write.1 = false := by
  induction admits with
  | nil => exact fun _ member => nomatch member
  | cons placed _ ih => exact List.forall_mem_cons.mpr ⟨placed.1.free, ih⟩

theorem Admits.sameDirectories (admits : w.Admits files writes) :
    w.SameDirectories (w.putAll writes) :=
  sameDirectories_putAll admits.free

theorem Admits.exists_write (admits : w.Admits files writes) {file : String × String}
    (member : file ∈ files) :
    ∃ location, w.Places file.1 location ∧ (location, file.2) ∈ writes := by
  induction admits with
  | nil => cases member
  | @cons first write _ _ placed _ ih =>
      rcases List.mem_cons.mp member with rfl | later
      · refine ⟨write.1, placed.1, ?_⟩
        rw [← placed.2]
        exact List.mem_cons_self ..
      · obtain ⟨location, places, written⟩ := ih later
        exact ⟨location, places, List.mem_cons_of_mem _ written⟩

theorem Admits.exists_file (admits : w.Admits files writes) {write : Location × String}
    (member : write ∈ writes) :
    ∃ file ∈ files, w.Places file.1 write.1 ∧ write.2 = file.2 := by
  induction admits with
  | nil => cases member
  | @cons file first _ _ placed _ ih =>
      rcases List.mem_cons.mp member with rfl | later
      · exact ⟨file, List.mem_cons_self .., placed⟩
      · obtain ⟨other, there, rest⟩ := ih later
        exact ⟨other, List.mem_cons_of_mem _ there, rest⟩

theorem exists_admits (placed : ∀ file ∈ files, ∃ location, w.Places file.1 location) :
    ∃ writes, w.Admits files writes := by
  induction files with
  | nil => exact ⟨[], .nil⟩
  | cons file rest ih =>
      rw [List.forall_mem_cons] at placed
      obtain ⟨location, places⟩ := placed.1
      obtain ⟨writes, admits⟩ := ih placed.2
      exact ⟨(location, file.2) :: writes, .cons ⟨places, rfl⟩ admits⟩

theorem Places.unique {path : String} {first second : Location} (places : w.Places path first)
    (placesToo : w.Places path second) : first = second :=
  Except.ok.inj (places.found.symm.trans placesToo.found)

theorem Admits.unique {others : List (Location × String)} (admits : w.Admits files writes)
    (admitsToo : w.Admits files others) : writes = others := by
  induction admits generalizing others with
  | nil => exact (List.forall₂_nil_left_iff.mp admitsToo).symm
  | cons placed rest ih =>
      obtain ⟨other, later, placedToo, restToo, rfl⟩ := List.forall₂_cons_left_iff.mp admitsToo
      rw [ih restToo, Prod.ext (placed.1.unique placedToo.1) (placed.2.trans placedToo.2.symm)]

theorem Admits.append {more : List (String × String)} (admits : w.Admits (files ++ more) writes) :
    ∃ first second, writes = first ++ second ∧ w.Admits files first ∧ w.Admits more second := by
  have front := List.forall₂_take files.length admits
  have back := List.forall₂_drop files.length admits
  rw [List.take_left] at front
  rw [List.drop_left] at back
  exact ⟨_, _, (List.take_append_drop files.length writes).symm, front, back⟩

theorem Admits.perm {others : List (String × String)} {later : List (Location × String)}
    (same : files.Perm others) (admits : w.Admits files writes)
    (admitsToo : w.Admits others later) : writes.Perm later := by
  obtain ⟨reordered, there, perm⟩ := List.perm_comp_forall₂ same admitsToo
  rw [admits.unique there]
  exact perm

/-- No two of the files have the same place. -/
def Apart (w : Workspace) (files : List (String × String)) : Prop :=
  files.Pairwise fun first second => ∀ location,
    w.Places first.1 location → ¬ w.Places second.1 location

theorem Admits.nodup (admits : w.Admits files writes) (apart : w.Apart files) :
    (writes.map Prod.fst).Nodup := by
  induction admits with
  | nil => exact List.nodup_nil
  | @cons file write _ _ placed rest ih =>
      obtain ⟨differ, apart⟩ := List.pairwise_cons.mp apart
      rw [List.map_cons, List.nodup_cons]
      refine ⟨fun again => ?_, ih apart⟩
      obtain ⟨other, member, same⟩ := List.mem_map.mp again
      obtain ⟨later, there, places, _⟩ := Admits.exists_file rest member
      rw [same] at places
      exact differ later there write.1 placed.1 places

/-- Files with places of their own are all there once they were put. -/
theorem Admits.textAt (admits : w.Admits files writes) (apart : w.Apart files)
    {file : String × String} (member : file ∈ files) :
    (w.putAll writes).textAt file.1 = some file.2 := by
  obtain ⟨location, places, written⟩ := admits.exists_write member
  exact textAt_eq (admits.sameDirectories.resolve places.found)
    (lookup_putAll_of_mem w (admits.nodup apart) (Tree.ne_root_of_not_isDirectory places.free)
      written)

end Admits

end Workspace

/-! ## Running actions and sessions -/

namespace Action

variable {α β : Type}

theorem runIn_bind (first : Action α) (next : α → Action β) (w : Workspace) :
    (first >>= next).runIn w =
      match first.runIn w with
      | (.ok value, after) => (next value).runIn after
      | (.error failure, after) => (.error failure, after) := by
  simp only [runIn, ExceptT.run_bind, StateT.run_bind]
  rcases StateT.run (ExceptT.run first) w with ⟨outcome, after⟩
  cases outcome <;> rfl

/-- A sequence that succeeds has gone through a first half that succeeded. -/
theorem exists_of_runIn_bind {first : Action α} {next : α → Action β} {w after : Workspace}
    {result : β} (run : (first >>= next).runIn w = (.ok result, after)) :
    ∃ value between, first.runIn w = (.ok value, between) ∧
      (next value).runIn between = (.ok result, after) := by
  rw [runIn_bind] at run
  rcases half : first.runIn w with ⟨outcome, between⟩
  cases outcome with
  | ok value =>
      rw [half] at run
      exact ⟨value, between, rfl, run⟩
  | error failure =>
      rw [half] at run
      cases run

theorem runIn_orElse_of_ok {action : Action α} {w after : Workspace} {value : α}
    (run : action.runIn w = (.ok value, after)) (handler : Failure → Action α) :
    (orElse action handler).runIn w = (.ok value, after) := by
  simp only [runIn] at run
  simp only [orElse, runIn, ExceptT.run_tryCatch, StateT.run_bind, run]
  rfl

theorem runIn_orElse_of_error {action : Action α} {w after : Workspace} {failure : Failure}
    (run : action.runIn w = (.error failure, after)) (handler : Failure → Action α) :
    (orElse action handler).runIn w = (handler failure).runIn after := by
  simp only [runIn] at run ⊢
  simp only [orElse, ExceptT.run_tryCatch, StateT.run_bind, run]
  rfl

theorem runIn_get (w : Workspace) : (get : Action Workspace).runIn w = (.ok w, w) :=
  rfl

/-- A path is located where it leads, or it is refused. -/
theorem runIn_locate (path : String) (w : Workspace) :
    (∃ location, path ≠ "" ∧ w.tree.resolve w.directory path = .ok location ∧
        (locate path).runIn w = (.ok location, w)) ∨
      ((∀ location, path ≠ "" → w.tree.resolve w.directory path ≠ .ok location) ∧
        ∃ trouble, (locate path).runIn w = (.error (.path trouble path), w)) := by
  by_cases named : path = ""
  · subst named
    exact Or.inr ⟨fun _ named => absurd rfl named, .missing, rfl⟩
  · cases found : w.tree.resolve w.directory path with
    | ok location =>
        refine Or.inl ⟨location, named, rfl, ?_⟩
        simp only [locate, runIn_bind, runIn_get, if_neg named, found]
        rfl
    | error detour =>
        right
        constructor
        · intro location _ there
          contradiction
        · refine ⟨trouble path detour, ?_⟩
          simp only [locate, runIn_bind, runIn_get, if_neg named, found]
          rfl

theorem refusal?_eq_none_iff {path name : String} :
    refusal? path name = none ↔ Path.hasNull path = false ∧ name.utf8ByteSize ≤ Path.mostNameBytes ∧
      path.utf8ByteSize ≤ Path.mostBytes := by
  rw [refusal?]
  split
  · next null => simp [null]
  · next sound =>
      rw [Bool.not_eq_true] at sound
      split
      · next long =>
          simp only [reduceCtorEq, false_iff]
          rintro ⟨-, short, shortPath⟩
          omega
      · next short =>
          simp only [sound, true_and, true_iff]
          omega

theorem runIn_allow_of_none {path : String} (fits : refusal? path (Path.name path) = none)
    (w : Workspace) :
    (allow path).runIn w = (.ok (), w) := by
  rw [allow, fits]
  rfl

theorem runIn_allow_of_some {path : String} {trouble : PathTrouble}
    (refused : refusal? path (Path.name path) = some trouble) (w : Workspace) :
    (allow path).runIn w = (.error (.path trouble path), w) := by
  rw [allow, refused]
  rfl

/-- A file is written to its place, or it is refused with the path and nothing is changed. -/
theorem runIn_writeFile (path text : String) (w : Workspace) :
    (∃ location, w.Places path location ∧
      (writeFile path text).runIn w = (.ok (), w.put location text)) ∨
      ((∀ location, ¬ w.Places path location) ∧
        ∃ trouble, (writeFile path text).runIn w = (.error (.path trouble path), w)) := by
  rcases runIn_locate path w with ⟨location, named, found, located⟩ | ⟨nowhere, trouble, located⟩
  · have only {other : Location} (places : w.Places path other) : other = location := by
      have there := places.found
      rw [found] at there
      exact (Except.ok.inj there).symm
    cases fits : refusal? path (Path.name path) with
    | some trouble =>
        refine Or.inr ⟨fun other places => ?_, trouble, ?_⟩
        · rw [places.fits] at fits
          cases fits
        · simp only [writeFile, runIn_bind, located, runIn_allow_of_some fits]
    | none =>
        have allowed := runIn_allow_of_none fits w
        cases free : w.tree.isDirectory location with
        | true =>
            refine Or.inr ⟨fun other places => ?_, .isADirectory, ?_⟩
            · rw [← only places, places.free] at free
              cases free
            · simp only [writeFile, runIn_bind, located, allowed, runIn_get, free, if_true]
              rfl
        | false =>
            cases held : w.tree.isDirectory location.dropLast with
            | true =>
                refine Or.inl ⟨location, ⟨named, fits, found, free, held⟩, ?_⟩
                simp only [writeFile, runIn_bind, located, allowed, runIn_get, free, held,
                  Bool.not_true, Bool.false_eq_true, if_false]
                rfl
            | false =>
                refine Or.inr ⟨fun other places => ?_, .notADirectory, ?_⟩
                · rw [← only places, places.held] at held
                  cases held
                · simp only [writeFile, runIn_bind, located, allowed, runIn_get, free, held,
                    Bool.not_false, Bool.false_eq_true, if_false, if_true]
                  rfl
  · refine Or.inr ⟨fun location places => nowhere location places.named places.found, trouble, ?_⟩
    rw [writeFile, runIn_bind, located]

theorem runIn_writeFile_of_places {path : String} {w : Workspace} {location : Location}
    (places : w.Places path location) (text : String) :
    (writeFile path text).runIn w = (.ok (), w.put location text) := by
  rcases runIn_writeFile path text w with ⟨other, placesToo, written⟩ | ⟨nowhere, _⟩
  · rw [written, places.unique placesToo]
  · exact absurd places (nowhere location)

end Action

namespace Session

variable {σ α β : Type}

theorem runIn_bind (first : Session σ α) (next : α → Session σ β) (state : σ) (w : Workspace) :
    (first >>= next).runIn state w =
      match first.runIn state w with
      | (.ok value, own, after) => (next value).runIn own after
      | (.error failure, own, after) => (.error failure, own, after) := by
  simp only [runIn, ExceptT.run_bind, StateT.run_bind]
  rcases StateT.run (ExceptT.run first) (state, w) with ⟨outcome, own, after⟩
  cases outcome <;> rfl

theorem runIn_act (action : Action α) (state : σ) (w : Workspace) :
    (act action).runIn state w = ((action.runIn w).1, state, (action.runIn w).2) := by
  have start : (get : Session σ (σ × Workspace)).runIn state w = (.ok (state, w), state, w) := rfl
  rcases run : action.runIn w with ⟨outcome, after⟩
  cases outcome with
  | ok value =>
      simp only [act, runIn_bind, start, run]
      rfl
  | error failure =>
      simp only [act, runIn_bind, start, run]
      rfl

theorem runIn_own (state : σ) (w : Workspace) :
    (own : Session σ σ).runIn state w = (.ok state, state, w) :=
  rfl

theorem runIn_update (change : σ → σ) (state : σ) (w : Workspace) :
    (update change).runIn state w = (.ok (), change state, w) :=
  rfl

theorem runIn_pure (value : α) (state : σ) (w : Workspace) :
    (pure value : Session σ α).runIn state w = (.ok value, state, w) :=
  rfl

theorem runIn_throw (failure : Failure) (state : σ) (w : Workspace) :
    (throw failure : Session σ α).runIn state w = (.error failure, state, w) :=
  rfl

end Session

end Zkvm
