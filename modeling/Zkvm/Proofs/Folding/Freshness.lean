import Mathlib.Algebra.Order.Ring.Nat
import Zkvm.Proofs.Folding.Dependence

/-!
# Seeds of noise

Noise is generated from the round.  Folding goes on to the next round and accumulating does not, so
an instance gets the same noise again unless something was folded since.  A log of all draws says
which seeds were used: every draw has the number of folds before it as its seed, whatever the
requests were, and the vectors that the managers remember are those of the seeds in the log.
-/
set_option autoImplicit false

namespace Zkvm.Folding

/-- A vector that was generated: for an instance, from a seed, and whether something was folded with
it. -/
structure Draw where
  instance' : String
  folds : Bool
  seed : Int

/-! ## Logs -/

/-- Every draw has as its seed the number of folds before it. -/
def Numbered (log : List Draw) : Prop :=
  ∀ i (below : i < log.length), log[i].seed = (log.take i).countP Draw.folds

theorem numbered_nil : Numbered [] := by
  intro i below
  simp at below

theorem Numbered.concat {log : List Draw} (numbered : Numbered log) {draw : Draw}
    (seed : draw.seed = log.countP Draw.folds) : Numbered (log ++ [draw]) := by
  intro i below
  rcases Nat.lt_or_ge i log.length with inside | beyond
  · rw [List.getElem_append_left inside, numbered i inside, List.take_append_of_le_length inside.le]
  · have last : i = log.length := by
      rw [List.length_append, List.length_singleton] at below
      omega
    subst last
    rw [List.getElem_concat_length rfl, List.take_left, seed]

/-- Something is folded from one place of a log on, before another one. -/
def FoldedBetween (log : List Draw) (i j : Nat) : Prop :=
  ∃ draw ∈ (log.take j).drop i, draw.folds = true

theorem Numbered.seed_ne_iff {log : List Draw} (numbered : Numbered log) {i j : Nat}
    (before : i < j) (below : j < log.length) :
    log[i].seed ≠ log[j].seed ↔ FoldedBetween log i j := by
  have parts : log.take i ++ (log.take j).drop i = log.take j := by
    have front : (log.take j).take i = log.take i := by
      rw [List.take_take, Nat.min_eq_left before.le]
    rw [← front, List.take_append_drop]
  have counts := congrArg (List.countP Draw.folds) parts
  rw [List.countP_append] at counts
  rw [numbered i (by omega), numbered j below, FoldedBetween, ← List.countP_pos_iff]
  omega

def seedsOf (key : String) (log : List Draw) : List Int :=
  (log.filter fun draw => draw.instance' = key).map Draw.seed

theorem Numbered.nodup_seedsOf_iff {log : List Draw} (numbered : Numbered log) (key : String) :
    (seedsOf key log).Nodup ↔
      ∀ i j (_ : i < j) (_ : j < log.length), log[i].instance' = key → log[j].instance' = key →
        FoldedBetween log i j := by
  rw [seedsOf, List.Nodup, List.pairwise_map, List.pairwise_filter, List.pairwise_iff_getElem]
  constructor
  · intro distinct i j before below first second
    have differ :=
      distinct i j (by omega) below before (by simpa using first) (by simpa using second)
    exact (numbered.seed_ne_iff before below).mp differ
  · intro folded i j _ below before first second
    exact (numbered.seed_ne_iff before below).mpr
      (folded i j before below (by simpa using first) (by simpa using second))

namespace Generator
variable (settings : Settings)

/-! ## What is drawn -/

/-- What is drawn for a node: nothing if it asks for no noise, or for noise that cannot be
generated.  A vector is drawn to fold only if the circuit could be made from it. -/
def drawn (generator : Generator) (node : Node) : List Draw :=
  let ready := generator.withManager settings node.instance'
  let draw (seed : Int) (folds : Bool) : List Draw :=
    if (ready.2.drawNoise node.instance' ready.1 seed).isOk then [⟨node.instance', folds, seed⟩]
    else []
  match Operation.ofName? node.operation with
  | some .fold => draw (node.seed.getD generator.round) (generator.processNode settings node).1.isOk
  | some .accumulate => draw generator.round false
  | _ => []

def drawnFor : Generator → List Node → List Draw
  | _, [] => []
  | generator, node :: rest =>
    if node.kind ≠ some "folding" then drawnFor generator rest
    else
      generator.drawn settings node ++
        match generator.processNode settings node with
        | (.ok _, after) => drawnFor after rest
        | (.error _, _) => []

def drawnBy (generator : Generator) (request : Json × Json) : List Draw :=
  match Settings.ofJson request.2 with
  | .ok settings => generator.drawnFor settings (requested request.1)
  | .error _ => []

def served : Generator → List (Json × Json) → Generator
  | generator, [] => generator
  | generator, request :: rest => served (generator.serve request.1 request.2).2 rest

def log : Generator → List (Json × Json) → List Draw
  | _, [] => []
  | generator, request :: rest =>
    generator.drawnBy request ++ log (generator.serve request.1 request.2).2 rest

/-! ## One node -/

def advance (generator : Generator) (key : String) (manager : NoiseManager) (folds : Bool) :
    Generator :=
  { generator.remember key manager generator.round with round := generator.round + folds.toNat }

/-- A node draws nothing, and then at most a manager was made for its instance, or it draws once,
from the round. -/
theorem processNode_drawn (generator : Generator) {node : Node} (seedless : node.seed = none) :
    (generator.drawn settings node = [] ∧
      ((generator.processNode settings node).2 = generator ∨
        (generator.processNode settings node).2 =
          (generator.withManager settings node.instance').2)) ∨
    ∃ folds, generator.drawn settings node = [⟨node.instance', folds, generator.round⟩] ∧
      (generator.processNode settings node).2 =
        (generator.withManager settings node.instance').2.advance node.instance'
          (generator.withManager settings node.instance').1 folds := by
  have drawing := drawNoise_cases (generator.withManager settings node.instance').2 node.instance'
    (generator.withManager settings node.instance').1 generator.round
  have round := generator.withManager_round settings node.instance'
  have advanced (folds : Bool) :
      (generator.withManager settings node.instance').2.advance node.instance'
          (generator.withManager settings node.instance').1 folds =
        { (generator.withManager settings node.instance').2.remember node.instance'
            (generator.withManager settings node.instance').1 generator.round with
          round := (generator.withManager settings node.instance').2.round + folds.toNat } := by
    rw [advance, round]
  rw [drawn, processNode]
  cases Operation.ofName? node.operation with
  | none => exact .inl ⟨rfl, .inl rfl⟩
  | some operation =>
      dsimp only
      cases operation with
      | unfold | commit | verify => exact .inl ⟨rfl, .inr rfl⟩
      | fold =>
          rw [circuit, seedless, round, Option.getD_none]
          generalize folding : withNoise _ node _ _ _ _ = folded
          rw [withNoise] at folding
          rcases drawing with ⟨failure, failed⟩ | done
          · rw [failed] at folding ⊢
            exact .inl ⟨rfl, .inr (folding ▸ rfl)⟩
          · rw [done] at folding ⊢
            obtain ⟨outcome, after⟩ := folded
            obtain ⟨-, rfl⟩ := Prod.mk.inj folding
            -- The round goes on only if the circuit could be written out.
            cases outcome with
            | error failure => exact .inr ⟨false, rfl, (advanced false).symm⟩
            | ok made => exact .inr ⟨true, rfl, (advanced true).symm⟩
      | accumulate =>
          rw [circuit, round, withNoise]
          rcases drawing with ⟨failure, failed⟩ | done
          · rw [failed]
            exact .inl ⟨rfl, .inr rfl⟩
          · rw [done]
            exact .inr ⟨false, rfl, (advanced false).symm⟩

theorem lookup_withManager (generator : Generator) (key : String) :
    (generator.withManager settings key).2.managers.lookup key =
      some (generator.withManager settings key).1 := by
  rw [withManager]
  cases found : generator.managers.lookup key with
  | some manager => exact found
  | none => simp [Json.lookup_put]

/-! ## Runs -/

/-- The log of a generator: it numbers all draws, the round is the number of folds, and every
manager remembers the vectors of the seeds that were used for its instance. -/
structure Logged (log : List Draw) (generator : Generator) : Prop where
  numbered : Numbered log
  round : generator.round = log.countP Draw.folds
  registered : ∀ draw ∈ log, (generator.managers.lookup draw.instance').isSome = true
  remembered : ∀ key manager, generator.managers.lookup key = some manager →
    manager.history = (seedsOf key log).map manager.vector

theorem logged_fresh : Logged [] {} where
  numbered := numbered_nil
  round := rfl
  registered := by simp
  remembered := by simp

section Logged
variable {log : List Draw} {generator : Generator} (logged : Logged log generator)
include logged

theorem Logged.seedsOf_of_none {key : String} (unknown : generator.managers.lookup key = none) :
    seedsOf key log = [] := by
  rw [seedsOf, List.map_eq_nil_iff, List.filter_eq_nil_iff]
  intro draw member
  have known := logged.registered draw member
  simp only [decide_eq_true_eq]
  rintro rfl
  simp [unknown] at known

theorem Logged.withManager (key : String) : Logged log (generator.withManager settings key).2 := by
  rw [Generator.withManager]
  cases found : generator.managers.lookup key with
  | some manager => exact logged
  | none =>
      refine ⟨logged.numbered, logged.round, fun draw member => ?_, fun other manager => ?_⟩
      · rw [Json.lookup_put]
        split
        · rfl
        · exact logged.registered draw member
      · rw [Json.lookup_put]
        split
        · rename_i same
          rintro ⟨⟩
          rw [same, logged.seedsOf_of_none found, List.map_nil]
        · exact logged.remembered other manager

theorem Logged.advance {key : String} {manager : NoiseManager}
    (found : generator.managers.lookup key = some manager) (folds : Bool) :
    Logged (log ++ [⟨key, folds, generator.round⟩]) (generator.advance key manager folds) := by
  have seeds (other : String) : seedsOf other (log ++ [⟨key, folds, generator.round⟩]) =
      seedsOf other log ++ if key = other then [(generator.round : Int)] else [] := by
    rw [seedsOf, List.filter_append, List.map_append, seedsOf]
    congr 1
    by_cases same : key = other <;> simp [same]
  refine ⟨logged.numbered.concat (congrArg Nat.cast logged.round), ?_, fun draw member => ?_,
    fun other manager' => ?_⟩
  · rw [List.countP_append, ← logged.round]
    cases folds <;> rfl
  · rw [Generator.advance, remember, Json.lookup_put]
    split
    · rfl
    · rename_i differs
      rcases List.mem_append.mp member with earlier | last
      · exact logged.registered draw earlier
      · exact absurd (congrArg Draw.instance' (List.mem_singleton.mp last)) differs
  · rw [Generator.advance, remember, Json.lookup_put, seeds]
    split
    · rename_i same
      rintro ⟨⟩
      rw [same, if_pos rfl, List.map_append, logged.remembered key manager found]
      rfl
    · rename_i differs
      rw [if_neg (Ne.symm differs), List.append_nil]
      exact logged.remembered other manager'

/-- A node keeps the log. -/
theorem Logged.processNode {node : Node} (seedless : node.seed = none) :
    Logged (log ++ generator.drawn settings node) (generator.processNode settings node).2 := by
  rcases processNode_drawn settings generator seedless with ⟨nothing, same | made⟩
    | ⟨folds, draw, after⟩
  · rw [nothing, List.append_nil, same]
    exact logged
  · rw [nothing, List.append_nil, made]
    exact logged.withManager settings node.instance'
  · have ready := (logged.withManager settings node.instance').advance
      (lookup_withManager settings generator node.instance') folds
    rw [withManager_round] at ready
    rw [draw, after]
    exact ready

end Logged

/-- No node about folding carries a seed. -/
def Seedless (nodes : List Node) : Prop :=
  ∀ node ∈ nodes, node.kind = some "folding" → node.seed = none

instance (nodes : List Node) : Decidable (Seedless nodes) :=
  inferInstanceAs (Decidable (∀ _ ∈ _, _))

theorem Logged.takeNodes {log : List Draw} {generator : Generator} (logged : Logged log generator)
    {nodes : List Node} (seedless : Seedless nodes) (progress : Progress) :
    Logged (log ++ generator.drawnFor settings nodes)
      (generator.takeNodes settings progress nodes).2 := by
  induction nodes generalizing log generator progress with
  | nil =>
      rw [drawnFor, List.append_nil]
      exact logged
  | cons node rest ih =>
      have later : Seedless rest :=
        fun other member => seedless other (List.mem_cons_of_mem node member)
      rw [drawnFor, Generator.takeNodes, takeNode_eq]
      by_cases folding : node.kind = some "folding"
      · have step := logged.processNode settings (seedless node List.mem_cons_self folding)
        rw [if_neg (not_not_intro folding), if_neg (not_not_intro folding)]
        cases taken : generator.processNode settings node with
        | mk outcome after =>
            rw [taken] at step
            cases outcome with
            | error failure =>
                rw [List.append_nil]
                exact step
            | ok made =>
                rw [← List.append_assoc]
                exact ih step later _
      · rw [if_pos folding, if_pos folding]
        exact ih logged later progress

theorem generate_after (generator : Generator) (nodes : List Node) :
    (generator.generate settings nodes).2 = (generator.takeNodes settings {} nodes).2 := by
  rw [generate]
  dsimp only
  cases (generator.takeNodes settings {} nodes).1.bind
    ((generator.takeNodes settings {} nodes).2.finish settings) <;> rfl

theorem serve_refused {generator : Generator} {nodes given : Json} {failure : Failure}
    (refused : Settings.ofJson given = .error failure) :
    (generator.serve nodes given).2 = generator := by
  rw [serve, refused]

theorem serve_after {settings : Settings} (generator : Generator) (nodes : Json) {given : Json}
    (read : Settings.ofJson given = .ok settings) :
    (generator.serve nodes given).2 = (generator.takeNodes settings {} (requested nodes)).2 := by
  rw [serve, read, requested]
  cases nodes.iterateValues with
  | error failure => rfl
  | ok records =>
      dsimp only
      cases readNodes records with
      | mk taken unread =>
          cases unread with
          | none => exact generate_after settings generator taken
          | some failure =>
              dsimp only
              cases (generator.takeNodes settings {} taken).1 <;> rfl

section Served
variable {log : List Draw} {generator : Generator} (logged : Logged log generator)
include logged

theorem Logged.serve {request : Json × Json} (seedless : Seedless (requested request.1)) :
    Logged (log ++ generator.drawnBy request) (generator.serve request.1 request.2).2 := by
  rw [drawnBy]
  cases read : Settings.ofJson request.2 with
  | error failure =>
      rw [List.append_nil, serve_refused read]
      exact logged
  | ok settings =>
      rw [serve_after generator request.1 read]
      exact logged.takeNodes settings seedless {}

theorem Logged.served {requests : List (Json × Json)}
    (seedless : ∀ request ∈ requests, Seedless (requested request.1)) :
    Logged (log ++ generator.log requests) (generator.served requests) := by
  induction requests generalizing log generator with
  | nil =>
      rw [Generator.log, List.append_nil]
      exact logged
  | cons request rest ih =>
      rw [Generator.log, Generator.served, ← List.append_assoc]
      exact ih (logged.serve (seedless request List.mem_cons_self))
        fun other member => seedless other (List.mem_cons_of_mem request member)

end Served

/-- Whatever a generator was asked for without giving seeds, its log numbers all draws by the folds
before them.  So the seeds of an instance are all fresh exactly if from each draw for it on, this
one included, something is folded before the next draw for it: folding is enough by itself,
accumulating is not. -/
theorem fresh_after_folds {requests : List (Json × Json)}
    (seedless : ∀ request ∈ requests, Seedless (requested request.1)) :
    Logged (({} : Generator).log requests) (({} : Generator).served requests) ∧
    ∀ key, (seedsOf key (({} : Generator).log requests)).Nodup ↔
      ∀ i j (_ : i < j) (_ : j < (({} : Generator).log requests).length),
        (({} : Generator).log requests)[i].instance' = key →
          (({} : Generator).log requests)[j].instance' = key →
          FoldedBetween (({} : Generator).log requests) i j := by
  have logged := logged_fresh.served seedless
  rw [List.nil_append] at logged
  exact ⟨logged, logged.numbered.nodup_seedsOf_iff⟩

/-- A request about one instance, by the names of operations. -/
def instanceRequest (instance' : String) (operations : List String) : Json :=
  .arr (operations.map fun operation =>
    .obj [("type", .str "folding"), ("operation", .str operation), ("instance_id", .str instance')])

/-- Three draws in two requests: the fold of the second one has the seed of what was accumulated
before. -/
theorem fresh_after_folds_twice :
    (∀ request ∈ [(instanceRequest "a" ["FOLD", "ACCUMULATE"], noiseSettings 3 5),
      (instanceRequest "a" ["FOLD"], noiseSettings 2 7)], Seedless (requested request.1)) ∧
    seedsOf "a"
      (({} : Generator).log [(instanceRequest "a" ["FOLD", "ACCUMULATE"], noiseSettings 3 5),
      (instanceRequest "a" ["FOLD"], noiseSettings 2 7)]) = [0, 1, 1] ∧
    Numbered (({} : Generator).log [(instanceRequest "a" ["FOLD", "ACCUMULATE"], noiseSettings 3 5),
      (instanceRequest "a" ["FOLD"], noiseSettings 2 7)]) := by
  have seedless : ∀ request ∈ [(instanceRequest "a" ["FOLD", "ACCUMULATE"], noiseSettings 3 5),
      (instanceRequest "a" ["FOLD"], noiseSettings 2 7)], Seedless (requested request.1) := by
    rw [List.forall_mem_cons, List.forall_mem_singleton]
    exact ⟨by decide +kernel, by decide +kernel⟩
  exact ⟨seedless, by decide +kernel, (fresh_after_folds seedless).1.numbered⟩

/-- An instance that is accumulated and then folded gets the same noise twice. -/
theorem accumulated_then_folded :
    (∀ request ∈ [(instanceRequest "a" ["ACCUMULATE", "FOLD"], noiseSettings 3 5)],
      Seedless (requested request.1)) ∧
    seedsOf "a" (({} : Generator).log
      [(instanceRequest "a" ["ACCUMULATE", "FOLD"], noiseSettings 3 5)]) = [0, 0] ∧
    ((({} : Generator).served
      [(instanceRequest "a" ["ACCUMULATE", "FOLD"], noiseSettings 3 5)]).managers.lookup
      "a").map (fun manager => manager.history.map NoiseVector.elements) =
        some [[-5, -4, -1], [-5, -4, -1]] := by
  refine ⟨?_, by decide +kernel, by decide +kernel⟩
  rw [List.forall_mem_singleton]
  decide +kernel

end Generator

end Zkvm.Folding
