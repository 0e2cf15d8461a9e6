import Mathlib.Logic.Relation
import Mathlib.Data.List.Chain
import Mathlib.Data.List.Nodup
import Mathlib.Data.List.Perm.Subperm
import Zkvm.Circuit.Compiler

/-!
# The order of the modules

Modules are visited depth first, and a name is done once everything that it depends on was visited.
Between two visits the names fall into those that were not reached, those that are done, and the
pending ones in between, which form a chain that leads to the name that is visited next.  A visit
keeps this, and so the final order has every name once, and before it whatever it depends on, save
what depends on it in turn.  Where there is no room for a visit, the chain has more names than there
was room for at the beginning.
-/
set_option autoImplicit false

namespace Zkvm.Circuit.Compiler

open Relation (ReflTransGen TransGen)

/-- The second name is one of those that the module of the first depends on. -/
def DependsOn (compiler : Compiler) (name dependency : String) : Prop :=
  dependency ∈ compiler.dependencies name

def Registered (compiler : Compiler) (name : String) : Prop :=
  ∃ m, compiler.modules.lookup name = some m

/-- The name of a module, or one that a module depends on. -/
def Named (compiler : Compiler) (name : String) : Prop :=
  compiler.Registered name ∨ ∃ other, compiler.DependsOn other name

def Acyclic (compiler : Compiler) : Prop :=
  ∀ name, ¬ TransGen compiler.DependsOn name name

theorem registered_iff_mem (compiler : Compiler) (name : String) :
    compiler.Registered name ↔ name ∈ compiler.modules.map Prod.fst := by
  unfold Registered
  induction compiler.modules with
  | nil => simp
  | cons first rest ih =>
      obtain ⟨key, m⟩ := first
      by_cases same : name = key
      · subst same
        simp
      · have differs : (name == key) = false := beq_false_of_ne same
        simp only [List.lookup_cons, differs, List.map_cons, List.mem_cons, same, false_or]
        exact ih

theorem dependencies_of_registered {compiler : Compiler} {name : String} {m : Module}
    (found : compiler.modules.lookup name = some m) :
    compiler.dependencies name = m.dependencies.getD [] := by
  rw [dependencies, found]

theorem registered_of_dependsOn {compiler : Compiler} {name dependency : String}
    (depends : compiler.DependsOn name dependency) : compiler.Registered name := by
  unfold DependsOn dependencies at depends
  cases found : compiler.modules.lookup name with
  | none =>
      rw [found] at depends
      cases depends
  | some m => exact ⟨m, found⟩

/-! ## What a visit keeps -/

def Visit.Pending (visit : Visit) (name : String) : Prop :=
  name ∈ visit.reached ∧ name ∉ visit.order

structure Visit.Sound (compiler : Compiler) (visit : Visit) : Prop where
  nodup : visit.order.Nodup
  reached : ∀ name ∈ visit.order, name ∈ visit.reached
  named : ∀ name ∈ visit.reached, compiler.Named name
  closed : ∀ name ∈ visit.order, ∀ dependency ∈ compiler.dependencies name,
    dependency ∈ visit.reached
  follows : ∀ before name later, visit.order = before ++ name :: later →
    ∀ dependency ∈ compiler.dependencies name,
      dependency ∈ before ∨ ReflTransGen compiler.DependsOn dependency name

/-- What was reached or done before still is, and the same names are pending. -/
structure Visit.Extends (before after : Visit) : Prop where
  reached : ∀ name ∈ before.reached, name ∈ after.reached
  done : ∀ name ∈ before.order, name ∈ after.order
  pending : ∀ name, after.Pending name ↔ before.Pending name

theorem Visit.Extends.refl (visit : Visit) : visit.Extends visit :=
  ⟨fun _ => id, fun _ => id, fun _ => Iff.rfl⟩

theorem Visit.Extends.trans {first second third : Visit} (left : first.Extends second)
    (right : second.Extends third) : first.Extends third where
  reached name member := right.reached name (left.reached name member)
  done name member := right.done name (left.done name member)
  pending name := (right.pending name).trans (left.pending name)

/-- What a visit of some names leads to, from a sound state. -/
structure Visits (compiler : Compiler) (before after : Visit) (names : List String) : Prop where
  sound : after.Sound compiler
  grown : before.Extends after
  reached : ∀ name ∈ names, name ∈ after.reached

theorem sound_entered {compiler : Compiler} {before : Visit} {name : String}
    (sound : before.Sound compiler) (named : compiler.Named name) :
    Visit.Sound compiler { before with reached := name :: before.reached } where
  nodup := sound.nodup
  reached other done := List.mem_cons_of_mem _ (sound.reached other done)
  named := List.forall_mem_cons.mpr ⟨named, sound.named⟩
  closed other done dependency depends :=
    List.mem_cons_of_mem _ (sound.closed other done dependency depends)
  follows := sound.follows

theorem pending_entered {before : Visit} {name : String}
    (sound : ∀ other ∈ before.order, other ∈ before.reached) (fresh : name ∉ before.reached)
    (other : String) :
    Visit.Pending { before with reached := name :: before.reached } other ↔
      before.Pending other ∨ other = name := by
  have notDone : name ∉ before.order := fun done => fresh (sound name done)
  unfold Visit.Pending
  constructor
  · rintro ⟨member, waiting⟩
    rcases List.mem_cons.mp member with same | earlier
    · exact Or.inr same
    · exact Or.inl ⟨earlier, waiting⟩
  · rintro (⟨earlier, waiting⟩ | rfl)
    · exact ⟨List.mem_cons_of_mem _ earlier, waiting⟩
    · exact ⟨List.mem_cons_self .., notDone⟩

/-- A pending name whose dependencies were all reached can be done. -/
theorem sound_done {compiler : Compiler} {visit : Visit} {name : String}
    (sound : visit.Sound compiler) (pending : visit.Pending name)
    (reached : ∀ dependency ∈ compiler.dependencies name, dependency ∈ visit.reached)
    (leads : ∀ other, visit.Pending other → ReflTransGen compiler.DependsOn other name) :
    Visit.Sound compiler { visit with order := visit.order ++ [name] } where
  nodup := by
    refine List.nodup_append.mpr ⟨sound.nodup, List.nodup_singleton name,
      fun other done same member => ?_⟩
    cases List.mem_singleton.mp member
    rintro rfl
    exact pending.2 done
  reached := by
    rw [List.forall_mem_append, List.forall_mem_singleton]
    exact ⟨sound.reached, pending.1⟩
  named := sound.named
  closed := by
    rw [List.forall_mem_append, List.forall_mem_singleton]
    exact ⟨sound.closed, reached⟩
  follows := by
    intro before other later split dependency depends
    -- either the new name is meant, or one that was done before
    change visit.order ++ [name] = _ at split
    rcases List.eq_nil_or_concat later with rfl | ⟨front, last, rfl⟩
    · obtain ⟨rfl, same⟩ := List.append_inj' split rfl
      cases same
      by_cases done : dependency ∈ visit.order
      · exact Or.inl done
      · exact Or.inr (leads dependency ⟨reached dependency depends, done⟩)
    · have inner : visit.order ++ [name] = (before ++ other :: front) ++ [last] := by
        rw [split, List.concat_eq_append, List.append_assoc, List.cons_append]
      exact sound.follows before other front (List.append_inj' inner rfl).1 dependency depends

theorem pending_done (visit : Visit) (name other : String) :
    Visit.Pending { visit with order := visit.order ++ [name] } other ↔
      visit.Pending other ∧ other ≠ name := by
  simp only [Visit.Pending, List.mem_append, List.mem_singleton, not_or, and_assoc, ne_eq]

/-! ## Room -/

/-- A chain of different names, each of which depends on the next, has at most so many of them. -/
def Shallow (compiler : Compiler) (room : Nat) : Prop :=
  ∀ names : List String, names.Nodup → names.IsChain compiler.DependsOn → names.length ≤ room

/-- Of such a chain all names but the last are modules'. -/
theorem shallow_of_length_lt {compiler : Compiler} {room : Nat}
    (few : compiler.modules.length < room) :
    compiler.Shallow room := by
  intro names nodup chain
  have registered : ∀ names : List String, names.IsChain compiler.DependsOn →
      names.dropLast ⊆ compiler.modules.map Prod.fst := by
    intro names chain
    induction chain with
    | nil => exact List.nil_subset _
    | singleton name => exact List.nil_subset _
    | cons_cons depends _ ih =>
        rw [List.dropLast_cons_cons]
        exact List.cons_subset.mpr
          ⟨(registered_iff_mem compiler _).mp (registered_of_dependsOn depends), ih⟩
  have bound :=
    (List.subperm_of_subset (nodup.sublist (List.dropLast_sublist names))
      (registered names chain)).length_le
  rw [List.length_dropLast, List.length_map] at bound
  omega

/-- Different names that were reached, the last one first, with all pending names among them. -/
structure Visit.Trail (visit : Visit) (trail : List String) : Prop where
  pending : ∀ name, visit.Pending name → name ∈ trail
  reached : ∀ name ∈ trail, name ∈ visit.reached
  nodup : trail.Nodup

/-- Each name of the trail depends on the one reached after it, and the last one on this name. -/
def Leads (compiler : Compiler) (trail : List String) (name : String) : Prop :=
  (name :: trail).IsChain fun later earlier => compiler.DependsOn earlier later

theorem Leads.reaches {compiler : Compiler} {trail : List String} {name : String}
    (leads : compiler.Leads trail name) :
    ∀ other ∈ trail, ReflTransGen compiler.DependsOn other name := by
  induction trail generalizing name with
  | nil => exact fun _ member => nomatch member
  | cons last rest ih =>
      obtain ⟨depends, earlier⟩ := List.isChain_cons_cons.mp leads
      refine List.forall_mem_cons.mpr ⟨.single depends, fun other member => ?_⟩
      exact (ih earlier other member).tail depends

theorem Visit.Trail.extend {before after : Visit} {trail : List String}
    (stands : before.Trail trail) (grown : before.Extends after) : after.Trail trail where
  pending name waits := stands.pending name ((grown.pending name).mp waits)
  reached name member := grown.reached name (stands.reached name member)
  nodup := stands.nodup

theorem Visit.Trail.enter {compiler : Compiler} {before : Visit} {trail : List String}
    {name : String} (stands : before.Trail trail) (sound : before.Sound compiler)
    (fresh : name ∉ before.reached) :
    Visit.Trail { before with reached := name :: before.reached } (name :: trail) where
  pending other waits := by
    rcases (pending_entered sound.reached fresh other).mp waits with earlier | rfl
    · exact List.mem_cons_of_mem _ (stands.pending other earlier)
    · exact List.mem_cons_self ..
  reached := List.forall_mem_cons.mpr
    ⟨List.mem_cons_self .., fun other member =>
      List.mem_cons_of_mem _ (stands.reached other member)⟩
  nodup := List.nodup_cons.mpr ⟨fun member => fresh (stands.reached name member), stands.nodup⟩

/-- A visit leads where it should, or it ends for want of room. -/
def Ends (compiler : Compiler) (limit : Nat) (before : Visit) (names : List String)
    (outcome : Except Failure Visit) : Prop :=
  (∃ after, outcome = .ok after ∧ compiler.Visits before after names) ∨
    outcome = .error .tooDeep ∧ ¬ compiler.Shallow limit

/-- Names visited one after another, if each of them is visited properly from wherever it is
begun. -/
theorem ends_all {compiler : Compiler} {limit room : Nat} {trail : List String}
    (one : ∀ (before : Visit) (name : String), before.Sound compiler → compiler.Named name →
      before.Trail trail → compiler.Leads trail name →
      compiler.Ends limit before [name] (compiler.visit room before name))
    (names : List String) (before : Visit) (sound : before.Sound compiler)
    (named : ∀ name ∈ names, compiler.Named name) (stands : before.Trail trail)
    (leads : ∀ name ∈ names, compiler.Leads trail name) :
    compiler.Ends limit before names (names.foldlM (compiler.visit room) before) := by
  induction names generalizing before with
  | nil => exact .inl ⟨before, rfl, sound, .refl before, fun _ member => nomatch member⟩
  | cons name rest ih =>
      rw [List.forall_mem_cons] at named leads
      rw [List.foldlM_cons]
      obtain ⟨between, visited, first⟩ | ⟨stopped, deep⟩ :=
        one before name sound named.1 stands leads.1
      · rw [visited]
        obtain ⟨after, visitedToo, later⟩ | stopped :=
          ih between first.sound named.2 (stands.extend first.grown) leads.2
        · refine .inl ⟨after, visitedToo, later.sound, first.grown.trans later.grown, ?_⟩
          rw [List.forall_mem_cons]
          exact ⟨later.grown.reached name (first.reached name (List.mem_singleton_self name)),
            later.reached⟩
        · exact .inr stopped
      · rw [stopped]
        exact .inr ⟨rfl, deep⟩

theorem visit_known {compiler : Compiler} {before : Visit} {name : String}
    (known : name ∈ before.reached) (room : Nat) :
    compiler.visit room before name = .ok before := by
  cases room <;> rw [visit, if_pos (List.contains_iff_mem.mpr known)]

theorem visit_zero {compiler : Compiler} {before : Visit} {name : String}
    (fresh : name ∉ before.reached) :
    compiler.visit 0 before name = .error .tooDeep := by
  rw [visit, if_neg (fun contains => fresh (List.contains_iff_mem.mp contains))]

theorem visit_fresh {compiler : Compiler} {before : Visit} {name : String}
    (fresh : name ∉ before.reached) (room : Nat) :
    compiler.visit (room + 1) before name =
      ((compiler.dependencies name).foldlM (compiler.visit room)
        { before with reached := name :: before.reached }).map
          fun after => { after with order := after.order ++ [name] } := by
  rw [visit, if_neg (fun contains => fresh (List.contains_iff_mem.mp contains))]
  dsimp only
  cases List.foldlM (compiler.visit room) { before with reached := name :: before.reached }
    (compiler.dependencies name) <;> rfl

/-- A name can be done once all that it depends on was visited. -/
theorem visits_done {compiler : Compiler} {before after : Visit} {name : String}
    (sound : before.Sound compiler) (fresh : name ∉ before.reached)
    (leads : ∀ other, before.Pending other → ReflTransGen compiler.DependsOn other name)
    (inner : compiler.Visits { before with reached := name :: before.reached } after
      (compiler.dependencies name)) :
    compiler.Visits before { after with order := after.order ++ [name] } [name] := by
  have back (other : String) : after.Pending other ↔ before.Pending other ∨ other = name :=
    (inner.grown.pending other).trans (pending_entered sound.reached fresh other)
  have pending : after.Pending name := (back name).mpr (Or.inr rfl)
  refine ⟨sound_done inner.sound pending inner.reached ?_, ⟨?_, ?_, ?_⟩, ?_⟩
  · intro other waits
    rcases (back other).mp waits with earlier | rfl
    · exact leads other earlier
    · exact .refl
  · exact fun other member => inner.grown.reached other (List.mem_cons_of_mem _ member)
  · exact fun other member => List.mem_append_left _ (inner.grown.done other member)
  · intro other
    rw [pending_done]
    constructor
    · rintro ⟨waits, differs⟩
      exact ((back other).mp waits).resolve_right differs
    · intro earlier
      refine ⟨(back other).mpr (Or.inl earlier), ?_⟩
      rintro rfl
      exact fresh earlier.1
  · exact List.forall_mem_singleton.mpr pending.1

theorem ends_known {compiler : Compiler} {before : Visit} {name : String}
    (sound : before.Sound compiler) (known : name ∈ before.reached) (limit room : Nat) :
    compiler.Ends limit before [name] (compiler.visit room before name) :=
  .inl ⟨before, visit_known known room, sound, .refl before, List.forall_mem_singleton.mpr known⟩

/-- A visit keeps everything and reaches its name, unless the pending names take up all the room. -/
theorem ends_one {compiler : Compiler} {limit : Nat} (room : Nat) (before : Visit) (name : String)
    (trail : List String) (rest : room + trail.length = limit) (sound : before.Sound compiler)
    (named : compiler.Named name) (stands : before.Trail trail)
    (leads : compiler.Leads trail name) :
    compiler.Ends limit before [name] (compiler.visit room before name) := by
  -- The name becomes pending, its dependencies are visited from there, and it is done last.
  induction room generalizing before name trail with
  | zero =>
      by_cases known : name ∈ before.reached
      · exact ends_known sound known limit 0
      refine .inr ⟨visit_zero known, fun shallow => ?_⟩
      have nodup : (name :: trail).Nodup :=
        List.nodup_cons.mpr ⟨fun member => known (stands.reached name member), stands.nodup⟩
      have chain := shallow _ (List.nodup_reverse.mpr nodup) (List.isChain_reverse.mpr leads)
      rw [List.length_reverse, List.length_cons] at chain
      omega
  | succ room ih =>
      by_cases known : name ∈ before.reached
      · exact ends_known sound known limit (room + 1)
      have longer : room + (name :: trail).length = limit := by
        rw [List.length_cons]
        omega
      rw [visit_fresh known]
      obtain ⟨after, visited, inner⟩ | ⟨stopped, deep⟩ :=
        ends_all (fun between next => ih between next (name :: trail) longer)
          (compiler.dependencies name) _ (sound_entered sound named)
          (fun dependency depends => Or.inr ⟨name, depends⟩) (stands.enter sound known)
          (fun dependency depends => List.isChain_cons_cons.mpr ⟨depends, leads⟩)
      · rw [visited]
        have reaches (other : String) (waits : before.Pending other) :=
          leads.reaches other (stands.pending other waits)
        exact .inl ⟨_, rfl, visits_done sound known reaches inner⟩
      · rw [stopped]
        exact .inr ⟨rfl, deep⟩

/-! ## The order -/

/-- A list of all names: those of the modules and those that they depend on, each once, and after
whatever its module depends on, save what leads back to it. -/
structure Orders (compiler : Compiler) (names : List String) : Prop where
  nodup : names.Nodup
  mem_iff : ∀ name, name ∈ names ↔ compiler.Named name
  follows : ∀ before name later dependency,
    names = before ++ name :: later → compiler.DependsOn name dependency →
    dependency ∈ before ∨ ReflTransGen compiler.DependsOn dependency name

theorem sound_nothing (compiler : Compiler) : Visit.Sound compiler {} where
  nodup := List.nodup_nil
  reached _ member := nomatch member
  named _ member := nomatch member
  closed _ member := nomatch member
  follows before name later split := by
    cases before with
    | nil => nomatch split
    | cons head tail => nomatch split

theorem ends_modules (compiler : Compiler) (room : Nat) :
    compiler.Ends room {} (compiler.modules.map Prod.fst)
      ((compiler.modules.map Prod.fst).foldlM (compiler.visit room) {}) := by
  refine ends_all (fun before name => ends_one room before name [] rfl) _ _
    compiler.sound_nothing ?_
    ⟨fun _ pending => (List.not_mem_nil pending.1).elim, List.forall_mem_nil _, List.nodup_nil⟩
    fun name _ => .singleton name
  exact fun name member => Or.inl ((registered_iff_mem compiler name).mpr member)

theorem Visits.orders {compiler : Compiler} {after : Visit}
    (visits : compiler.Visits {} after (compiler.modules.map Prod.fst)) :
    compiler.Orders after.order where
  nodup := visits.sound.nodup
  mem_iff name := by
    have done {name : String} (reached : name ∈ after.reached) : name ∈ after.order := by
      by_contra missing
      have pending := (visits.grown.pending name).mp ⟨reached, missing⟩
      exact nomatch pending.1
    constructor
    · intro member
      exact visits.sound.named name (visits.sound.reached name member)
    · rintro (registered | ⟨other, depends⟩)
      · exact done (visits.reached name ((registered_iff_mem compiler name).mp registered))
      · have registered := (registered_iff_mem compiler other).mp (registered_of_dependsOn depends)
        exact done (visits.sound.closed other (done (visits.reached other registered)) name depends)
  follows before name later dependency split depends :=
    visits.sound.follows before name later split dependency depends

/-- The names are put in order, unless a chain of dependencies has more names than there is room
for. -/
theorem order_cases (compiler : Compiler) (room : Nat) :
    (∃ names, compiler.order room = .ok names ∧ compiler.Orders names) ∨
      compiler.order room = .error .tooDeep ∧ ¬ compiler.Shallow room := by
  rw [order]
  obtain ⟨after, visited, visits⟩ | ⟨stopped, deep⟩ := compiler.ends_modules room
  · rw [visited]
    exact .inl ⟨after.order, rfl, visits.orders⟩
  · rw [stopped]
    exact .inr ⟨rfl, deep⟩

theorem Shallow.exists_order {compiler : Compiler} {room : Nat} (shallow : compiler.Shallow room) :
    ∃ names, compiler.order room = .ok names ∧ compiler.Orders names :=
  (compiler.order_cases room).resolve_right fun deep => deep.2 shallow

theorem Orders.mem_before {compiler : Compiler} {names : List String}
    (orders : compiler.Orders names) (acyclic : compiler.Acyclic) {before later : List String}
    {name dependency : String} (split : names = before ++ name :: later)
    (depends : compiler.DependsOn name dependency) :
    dependency ∈ before := by
  rcases orders.follows before name later dependency split depends with earlier | back
  · exact earlier
  · exact absurd (TransGen.head' depends back) (acyclic name)

end Zkvm.Circuit.Compiler
