import Mathlib.Data.List.Forall2
import Zkvm.Folding.Record
import Zkvm.Proofs.Json.Put

/-!
# What the answer to a request depends on

A generator keeps the noise manager of an instance, and with it the dimension and the bound of the
request that named the instance first.  Nothing else is carried from one request to the next but the
round: two generators in the same round that have the same noise for the instances of a request
answer it alike, and whatever else they have served does not matter.
-/
set_option autoImplicit false

namespace Zkvm.Folding

/-- The node is about folding and names an operation, so that a circuit is asked for. -/
def Node.Asks (node : Node) : Prop :=
  node.kind = some "folding" ∧ (Operation.ofName? node.operation).isSome = true

instance (node : Node) : Decidable node.Asks :=
  inferInstanceAs (Decidable (_ ∧ _))

def NoiseManager.vector (manager : NoiseManager) (seed : Int) : NoiseVector :=
  ⟨manager.dimension, seeded manager.dimension manager.bound seed, manager.bound⟩

namespace Generator

theorem exists_of_bind {α β : Type} {first : Except Failure α} {next : α → Except Failure β}
    {result : β} (done : first >>= next = .ok result) :
    ∃ value, first = .ok value ∧ next value = .ok result := by
  cases first with
  | error failure => cases done
  | ok value => exact ⟨value, rfl, done⟩

variable (settings : Settings)

/-- The dimension and the bound of the noise of an instance: those of its manager, or those of the
present request if it has none. -/
def noiseOf (generator : Generator) (instance' : String) : Int × Int :=
  match generator.managers.lookup instance' with
  | some manager => (manager.dimension, manager.bound)
  | none => (settings.noiseDimension, settings.noiseBound)

/-! ## One node -/

section Step
variable (generator : Generator)

theorem noiseOf_of_put {after : Generator} {key : String} {manager : NoiseManager}
    (put : after.managers = Json.put key manager generator.managers)
    (same : (manager.dimension, manager.bound) = generator.noiseOf settings key) :
    after.noiseOf settings = generator.noiseOf settings := by
  funext other
  rw [noiseOf, put, Json.lookup_put]
  by_cases own : other = key
  · rw [if_pos own, own, ← same]
  · rw [if_neg own]
    rfl

theorem withManager_noise (key : String) :
    ((generator.withManager settings key).1.dimension,
      (generator.withManager settings key).1.bound) =
      generator.noiseOf settings key := by
  rw [withManager, noiseOf]
  cases generator.managers.lookup key <;> rfl

theorem withManager_round (key : String) :
    (generator.withManager settings key).2.round = generator.round := by
  rw [withManager]
  cases generator.managers.lookup key <;> rfl

/-- A manager that is made for a request has the noise that the instance had for it before. -/
theorem noiseOf_withManager (key : String) :
    (generator.withManager settings key).2.noiseOf settings = generator.noiseOf settings := by
  have noise := generator.withManager_noise settings key
  rw [withManager] at noise ⊢
  cases found : generator.managers.lookup key with
  | some manager => rfl
  | none =>
      rw [found] at noise
      exact noiseOf_of_put settings generator rfl noise

/-- Noise is drawn from the dimension, the bound and the seed alone; the manager only remembers
it. -/
theorem drawNoise_eq (key : String) (manager : NoiseManager) (seed : Int) :
    generator.drawNoise key manager seed =
      (NoiseVector.make manager.dimension (NoiseManager.seeded manager.dimension manager.bound seed)
        manager.bound).map fun noise =>
          (noise, { generator with
            managers := Json.put key { manager with history := manager.history ++ [noise] }
              generator.managers }) := by
  rw [drawNoise, NoiseManager.generate]
  cases NoiseVector.make manager.dimension _ manager.bound <;> rfl

theorem make_eq {dimension bound : Int} {elements : List Int} {noise : NoiseVector}
    (made : NoiseVector.make dimension elements bound = .ok noise) :
    noise = ⟨dimension, elements, bound⟩ := by
  rw [NoiseVector.make] at made
  split at made
  · cases made
  · split at made
    · cases made
    · exact (Except.ok.inj made).symm

def remember (key : String) (manager : NoiseManager) (seed : Int) : Generator :=
  { generator with
    managers :=
      Json.put key { manager with history := manager.history ++ [manager.vector seed] }
        generator.managers }

theorem drawNoise_cases (key : String) (manager : NoiseManager) (seed : Int) :
    (∃ failure, generator.drawNoise key manager seed = .error failure) ∨
      generator.drawNoise key manager seed =
        .ok (manager.vector seed, generator.remember key manager seed) := by
  rw [drawNoise_eq]
  cases made :
    NoiseVector.make manager.dimension (NoiseManager.seeded manager.dimension manager.bound seed)
      manager.bound with
  | error failure => exact .inl ⟨failure, rfl⟩
  | ok noise =>
      right
      rw [make_eq made]
      rfl

variable {node : Node} {manager : NoiseManager} {operation : Operation} {made : Circuit}

/-- A circuit with noise fails before the noise is drawn, or its noise stays drawn. -/
theorem withNoise_cases (node : Node) (manager : NoiseManager) (seed : Int)
    (numbers : NoiseVector → List Int) (make : NoiseVector → Circuit) :
    (∃ failure, generator.withNoise node manager seed numbers make = (.error failure, generator)) ∨
      generator.withNoise node manager seed numbers make =
        ((writeNumbers (numbers (manager.vector seed))).map fun _ => make (manager.vector seed),
          generator.remember node.instance' manager seed) := by
  rw [withNoise]
  obtain ⟨failure, failed⟩ | drew := generator.drawNoise_cases node.instance' manager seed
  · rw [failed]
    exact .inl ⟨failure, rfl⟩
  · rw [drew]
    exact .inr rfl

theorem withNoise_made {seed : Int} {numbers : NoiseVector → List Int}
    {make : NoiseVector → Circuit}
    (done : (generator.withNoise node manager seed numbers make).1 = .ok made) :
    make (manager.vector seed) = made ∧
      (generator.withNoise node manager seed numbers make).2 =
        generator.remember node.instance' manager seed := by
  obtain ⟨failure, failed⟩ | drew := generator.withNoise_cases node manager seed numbers make
  · rw [failed] at done
    cases done
  · rw [drew] at done ⊢
    cases written : writeNumbers (numbers (manager.vector seed)) with
    | error failure =>
        rw [written] at done
        cases done
    | ok _ =>
        rw [written] at done
        exact ⟨Except.ok.inj done, rfl⟩

/-- Two managers with the same dimension and bound draw the same noise. -/
theorem withNoise_congr {other : Generator} {manager' : NoiseManager}
    (round : generator.round = other.round)
    (noise : (manager.dimension, manager.bound) = (manager'.dimension, manager'.bound)) (seed : Int)
    (numbers : NoiseVector → List Int) (make : NoiseVector → Circuit) :
    (generator.withNoise node manager seed numbers make).1 =
      (other.withNoise node manager' seed numbers make).1 ∧
      (generator.withNoise node manager seed numbers make).2.round =
        (other.withNoise node manager' seed numbers make).2.round := by
  obtain ⟨dimension, bound⟩ := Prod.mk.inj noise
  rw [withNoise, withNoise, drawNoise_eq, drawNoise_eq, dimension, bound]
  cases NoiseVector.make manager'.dimension _ manager'.bound with
  | error failure => exact ⟨rfl, round⟩
  | ok noise => exact ⟨rfl, round⟩

theorem circuit_managers :
    (generator.circuit settings node manager operation).2.managers = generator.managers ∨
      ∃ seed, (generator.circuit settings node manager operation).2.managers =
        (generator.remember node.instance' manager seed).managers := by
  have drawing (seed : Int) (numbers : NoiseVector → List Int) (make : NoiseVector → Circuit) :
      (generator.withNoise node manager seed numbers make).2.managers = generator.managers ∨
        ∃ used, (generator.withNoise node manager seed numbers make).2.managers =
          (generator.remember node.instance' manager used).managers := by
    obtain ⟨failure, failed⟩ | drew := generator.withNoise_cases node manager seed numbers make
    · exact .inl (by rw [failed])
    · exact .inr ⟨seed, by rw [drew]⟩
  cases operation with
  | fold =>
      dsimp only [circuit]
      split <;> exact drawing _ _ _
  | accumulate => exact drawing _ _ _
  | unfold | commit | verify => exact .inl rfl

/-- A circuit is of the operation that was asked for, and one that folds records the dimension and
the bound of the manager. -/
theorem circuit_made (done : (generator.circuit settings node manager operation).1 = .ok made) :
    made.operation = operation ∧
    (operation = .fold → ∃ seed, made.noise = .seeded manager.dimension manager.bound seed) := by
  cases operation with
  | fold =>
      rw [← (generator.withNoise_made done).1]
      exact ⟨rfl, fun _ => ⟨node.seed.getD generator.round, rfl⟩⟩
  | accumulate =>
      rw [← (generator.withNoise_made done).1]
      exact ⟨rfl, Operation.noConfusion⟩
  | unfold | commit | verify =>
      cases done
      exact ⟨rfl, Operation.noConfusion⟩

theorem noiseOf_circuit
    (own : (manager.dimension, manager.bound) = generator.noiseOf settings node.instance') :
    (generator.circuit settings node manager operation).2.noiseOf settings =
      generator.noiseOf settings := by
  obtain same | ⟨seed, put⟩ := circuit_managers settings generator
  · funext key
    rw [noiseOf, same, noiseOf]
  · exact noiseOf_of_put settings generator put own

/-- The circuit and the round after it are the same for two generators in the same round, and for
two managers with the same dimension and bound. -/
theorem circuit_congr (node : Node) (operation : Operation) {other : Generator}
    {manager' : NoiseManager} (round : generator.round = other.round)
    (noise : (manager.dimension, manager.bound) = (manager'.dimension, manager'.bound)) :
    (generator.circuit settings node manager operation).1 =
      (other.circuit settings node manager' operation).1 ∧
      (generator.circuit settings node manager operation).2.round =
        (other.circuit settings node manager' operation).2.round := by
  cases operation with
  | fold =>
      obtain ⟨outcome, rounds⟩ := generator.withNoise_congr round noise (node.seed.getD other.round)
        (·.elements.take 4) (foldCircuit node (node.seed.getD other.round))
      rw [circuit, circuit, round, outcome]
      refine ⟨rfl, ?_⟩
      split
      · exact congrArg Nat.succ rounds
      · exact rounds
  | accumulate =>
      rw [circuit, circuit, round]
      exact generator.withNoise_congr round noise _ _ _
  | unfold =>
      obtain ⟨dimension, bound⟩ := Prod.mk.inj noise
      rw [circuit, circuit, dimension, bound]
      exact ⟨rfl, round⟩
  | commit | verify => exact ⟨rfl, round⟩

end Step

section Node
variable (node : Node)

/-- A node leaves the noise of all instances as it was. -/
theorem noiseOf_processNode (generator : Generator) :
    (generator.processNode settings node).2.noiseOf settings = generator.noiseOf settings := by
  rw [processNode]
  cases Operation.ofName? node.operation with
  | none => rfl
  | some operation =>
      have ready := generator.noiseOf_withManager settings node.instance'
      have own := generator.withManager_noise settings node.instance'
      rw [← ready] at own
      exact (noiseOf_circuit settings _ own).trans ready

theorem processNode_congr {first second : Generator} (round : first.round = second.round)
    (noise : (Operation.ofName? node.operation).isSome = true →
      first.noiseOf settings node.instance' = second.noiseOf settings node.instance') :
    (first.processNode settings node).1 = (second.processNode settings node).1 ∧
      (first.processNode settings node).2.round = (second.processNode settings node).2.round := by
  cases named : Operation.ofName? node.operation with
  | none =>
      rw [processNode, processNode, named]
      exact ⟨rfl, round⟩
  | some operation =>
      have rounds := (first.withManager_round settings node.instance').trans
        (round.trans (second.withManager_round settings node.instance').symm)
      have noises := (first.withManager_noise settings node.instance').trans
        ((noise (named ▸ rfl)).trans (second.withManager_noise settings node.instance').symm)
      obtain ⟨same, after⟩ := circuit_congr settings _ node operation rounds noises
      rw [processNode, processNode, named]
      exact ⟨congrArg (Except.map some) same, after⟩

/-- The circuit of a node has the operation that the node names, and if it folds the noise of the
node's instance. -/
def MadeFor (noise : String → Int × Int) (node : Node) (circuit : Circuit) : Prop :=
  Operation.ofName? node.operation = some circuit.operation ∧
  (circuit.operation = .fold →
    ∃ seed, circuit.noise = .seeded (noise node.instance').1 (noise node.instance').2 seed)

theorem processNode_cases (generator : Generator) :
    (Operation.ofName? node.operation = none ∧ (generator.processNode settings node).1 = .ok none) ∨
    (∃ circuit, MadeFor (generator.noiseOf settings) node circuit ∧
      (generator.processNode settings node).1 = .ok (some circuit)) ∨
    ∃ failure, (generator.processNode settings node).1 = .error failure := by
  rw [processNode]
  cases named : Operation.ofName? node.operation with
  | none => exact .inl ⟨rfl, rfl⟩
  | some operation =>
      dsimp only
      cases done : ((generator.withManager settings node.instance').2.circuit settings node
          (generator.withManager settings node.instance').1 operation).1 with
      | error failure => exact .inr (.inr ⟨failure, rfl⟩)
      | ok made =>
          obtain ⟨own, records⟩ := circuit_made settings _ done
          refine .inr (.inl ⟨made, ?_, rfl⟩)
          rw [MadeFor, named, own, ← generator.withManager_noise settings node.instance']
          exact ⟨rfl, records⟩

/-! ## All nodes of a request -/

/-- Two generators that some nodes cannot tell apart. -/
structure Alike (nodes : List Node) (first second : Generator) : Prop where
  round : first.round = second.round
  noise : ∀ node ∈ nodes, node.Asks →
    first.noiseOf settings node.instance' = second.noiseOf settings node.instance'

def Progress.add (progress : Progress) (node : Node) : Option Circuit → Progress
  | some made => { progress with circuits := progress.circuits ++ [made] }
  | none => { progress with errors := progress.errors ++ [s!"Failed to process node: {node.id}"] }

theorem takeNode_eq (generator : Generator) (progress : Progress) :
    generator.takeNode settings progress node =
      if node.kind ≠ some "folding" then (.ok progress, generator)
      else
        ((generator.processNode settings node).1.map (progress.add node),
          (generator.processNode settings node).2) := by
  rw [takeNode]
  rcases generator.processNode settings node with ⟨failure | none | made, after⟩ <;> rfl

theorem noiseOf_takeNode (generator : Generator) (progress : Progress) :
    (generator.takeNode settings progress node).2.noiseOf settings =
      generator.noiseOf settings := by
  rw [takeNode_eq]
  split
  · rfl
  · exact generator.noiseOf_processNode settings node

theorem takeNode_congr {first second : Generator} (progress : Progress)
    (round : first.round = second.round)
    (noise : node.Asks → first.noiseOf settings node.instance' =
      second.noiseOf settings node.instance') :
    (first.takeNode settings progress node).1 = (second.takeNode settings progress node).1 ∧
      (first.takeNode settings progress node).2.round =
        (second.takeNode settings progress node).2.round := by
  rw [takeNode_eq, takeNode_eq]
  split
  case isTrue other => exact ⟨rfl, round⟩
  case isFalse folding =>
      obtain ⟨same, after⟩ :=
        processNode_congr settings node round fun named => noise ⟨not_not.mp folding, named⟩
      dsimp only
      exact ⟨by rw [same], after⟩

/-- The circuits that a node adds: one if it asks for one, and none if it does not. -/
theorem takeNode_made {generator : Generator} {progress next : Progress}
    (taken : (generator.takeNode settings progress node).1 = .ok next) :
    ∃ made, next.circuits = progress.circuits ++ made ∧
      List.Forall₂ (MadeFor (generator.noiseOf settings)) ([node].filter fun node => node.Asks)
        made := by
  rw [takeNode_eq] at taken
  split at taken
  case isTrue other =>
      cases taken
      exact ⟨[], (List.append_nil _).symm, by simp [Node.Asks, other]⟩
  case isFalse folding =>
      obtain ⟨unknown, none⟩ | ⟨circuit, made, some⟩ | ⟨failure, error⟩ :=
        generator.processNode_cases settings node
      · rw [none] at taken
        cases taken
        exact ⟨[], (List.append_nil _).symm, by simp [Node.Asks, unknown]⟩
      · rw [some] at taken
        cases taken
        have asks : node.Asks := ⟨not_not.mp folding, made.1 ▸ rfl⟩
        exact ⟨[circuit], rfl, by simpa [asks] using made⟩
      · rw [error] at taken
        cases taken

end Node

/-- Nodes are taken alike, up to the same round. -/
theorem takeNodes_congr {nodes : List Node} {first second : Generator} (progress : Progress)
    (alike : Alike settings nodes first second) :
    (first.takeNodes settings progress nodes).1 = (second.takeNodes settings progress nodes).1 ∧
      (first.takeNodes settings progress nodes).2.round =
        (second.takeNodes settings progress nodes).2.round := by
  induction nodes generalizing first second progress with
  | nil => exact ⟨rfl, alike.round⟩
  | cons node rest ih =>
      obtain ⟨same, round⟩ :=
        takeNode_congr settings node progress alike.round (alike.noise node List.mem_cons_self)
      have left := first.noiseOf_takeNode settings node progress
      have right := second.noiseOf_takeNode settings node progress
      rw [takeNodes, takeNodes]
      generalize first.takeNode settings progress node = one at same round left ⊢
      generalize second.takeNode settings progress node = two at same round right ⊢
      obtain ⟨outcome, after⟩ := one
      obtain ⟨outcome', after'⟩ := two
      obtain rfl : outcome = outcome' := same
      cases outcome with
      | error failure => exact ⟨rfl, round⟩
      | ok next =>
          -- The node left all noise as it was, so the generators are alike for the nodes that
          -- remain.
          refine ih next ⟨round, fun later member asks => ?_⟩
          exact (congrFun left _).trans
            ((alike.noise later (List.mem_cons_of_mem _ member) asks).trans
            (congrFun right _).symm)

theorem takeNodes_made {nodes : List Node} {generator : Generator} {progress final : Progress}
    (taken : (generator.takeNodes settings progress nodes).1 = .ok final) :
    ∃ made, final.circuits = progress.circuits ++ made ∧
      List.Forall₂ (MadeFor (generator.noiseOf settings)) (nodes.filter fun node => node.Asks)
        made := by
  induction nodes generalizing generator progress with
  | nil =>
      cases taken
      exact ⟨[], (List.append_nil _).symm, .nil⟩
  | cons node rest ih =>
      have noise := generator.noiseOf_takeNode settings node progress
      rw [takeNodes] at taken
      cases stepped : generator.takeNode settings progress node with
      | mk outcome after =>
          rw [stepped] at taken noise
          cases outcome with
          | error failure => cases taken
          | ok next =>
              obtain ⟨one, first, makes⟩ := takeNode_made settings node (congrArg Prod.fst stepped)
              obtain ⟨more, others, makesMore⟩ := ih taken
              refine ⟨one ++ more, by rw [others, first, List.append_assoc], ?_⟩
              rw [← List.singleton_append, List.filter_append]
              exact List.rel_append makes (noise ▸ makesMore)

/-! ## Requests -/

/-- The nodes of a request up to the first that cannot be read. -/
def requested (nodes : Json) : List Node :=
  match nodes.iterateValues with
  | .ok records => (readNodes records).1
  | .error _ => []

/-- The end of a request whose nodes were taken: a report, unless there was a node that could not be
read. -/
def conclude (unread : Option Failure) (generator : Generator) (progress : Progress) :
    Except Failure Result :=
  match unread with
  | none => generator.finish settings progress
  | some failure => .error failure

def answer : Except Failure Result → Result
  | .ok result => result
  | .error failure => failed failure

theorem conclude_none (generator : Generator) :
    generator.conclude settings none = generator.finish settings :=
  rfl

theorem conclude_congr {first second : Generator} (round : first.round = second.round)
    (unread : Option Failure) :
    first.conclude settings unread = second.conclude settings unread := by
  funext progress
  cases unread with
  | none => rw [conclude_none, conclude_none, finish, finish, round]
  | some failure => rfl

theorem conclude_circuits {generator : Generator} {unread : Option Failure} {progress : Progress}
    {result : Result} (concluded : generator.conclude settings unread progress = .ok result) :
    result.circuits = progress.circuits := by
  cases unread with
  | none =>
      rw [conclude_none, finish] at concluded
      split at concluded
      all_goals
        obtain ⟨accumulated, -, rest⟩ := exists_of_bind concluded
        obtain ⟨committed, -, made⟩ := exists_of_bind rest
        cases made
        rfl
  | some failure => cases concluded

theorem generate_eq (generator : Generator) (nodes : List Node) :
    (generator.generate settings nodes).1 =
      answer ((generator.takeNodes settings {} nodes).1.bind
        ((generator.takeNodes settings {} nodes).2.finish settings)) := by
  rw [generate]
  dsimp only
  cases (generator.takeNodes settings {} nodes).1.bind
    ((generator.takeNodes settings {} nodes).2.finish settings) <;> rfl

section Served
variable {nodes given : Json} {settings : Settings} {records : List Json}
  (read : Settings.ofJson given = .ok settings) (listed : nodes.iterateValues = .ok records)
include read listed

theorem serve_eq (generator : Generator) :
    (generator.serve nodes given).1 =
      answer ((generator.takeNodes settings {} (requested nodes)).1.bind
        ((generator.takeNodes settings {} (requested nodes)).2.conclude settings
          (readNodes records).2)) := by
  rw [serve, read, listed, requested, listed]
  dsimp only
  cases all : readNodes records with
  | mk taken unread =>
      cases unread with
      | none => rw [generate_eq, conclude_none]
      | some failure =>
          dsimp only
          cases (generator.takeNodes settings {} taken).1 <;> rfl

theorem serve_congr {first second : Generator}
    (alike : Alike settings (requested nodes) first second) :
    (first.serve nodes given).1 = (second.serve nodes given).1 := by
  obtain ⟨same, round⟩ := takeNodes_congr settings {} alike
  rw [serve_eq read listed, serve_eq read listed, same, conclude_congr settings round]

theorem serve_made (generator : Generator) :
    (∃ failure, (generator.serve nodes given).1 = failed failure) ∨
      List.Forall₂ (MadeFor (generator.noiseOf settings))
        ((requested nodes).filter fun node => node.Asks)
        (generator.serve nodes given).1.circuits := by
  rw [serve_eq read listed]
  cases taken : (generator.takeNodes settings {} (requested nodes)).1 with
  | error failure => exact .inl ⟨failure, rfl⟩
  | ok final =>
      cases concluded : (generator.takeNodes settings {} (requested nodes)).2.conclude settings
        (readNodes records).2
          final with
      | error failure => exact .inl ⟨failure, by rw [Except.bind, concluded, answer]⟩
      | ok result =>
          obtain ⟨made, circuits, makes⟩ := takeNodes_made settings taken
          refine .inr ?_
          simp only [Except.bind, concluded, answer, conclude_circuits settings concluded, circuits]
          exact makes

end Served

/-- Two generators in the same round answer a request alike if they have the same noise for every
instance that the request names, whatever they served before.  Unless the request fails it gives one
circuit for every node that asks for one, and a circuit that folds records that noise. -/
theorem answers_by_round_and_noise {first second : Generator} (nodes given : Json)
    (round : first.round = second.round)
    (noise : ∀ settings, Settings.ofJson given = .ok settings →
      ∀ node ∈ requested nodes, node.Asks →
      first.noiseOf settings node.instance' = second.noiseOf settings node.instance') :
    (first.serve nodes given).1 = (second.serve nodes given).1 ∧
    ((∃ failure, (first.serve nodes given).1 = failed failure) ∨
      ∃ settings, Settings.ofJson given = .ok settings ∧
        List.Forall₂ (MadeFor (first.noiseOf settings))
          ((requested nodes).filter fun node => node.Asks)
          (first.serve nodes given).1.circuits) := by
  cases read : Settings.ofJson given with
  | error failure =>
      have refused (generator : Generator) : (generator.serve nodes given).1 = failed failure := by
        rw [serve, read]
      rw [refused, refused]
      exact ⟨rfl, .inl ⟨failure, rfl⟩⟩
  | ok settings =>
      cases listed : nodes.iterateValues with
      | error failure =>
          have refused (generator : Generator) :
              (generator.serve nodes given).1 = failed failure := by
            rw [serve, read, listed]
          rw [refused, refused]
          exact ⟨rfl, .inl ⟨failure, rfl⟩⟩
      | ok records =>
          have alike : Alike settings (requested nodes) first second := ⟨round, noise settings read⟩
          refine ⟨serve_congr read listed alike,
            (serve_made read listed first).imp_right fun made => ?_⟩
          exact ⟨settings, rfl, made⟩

def foldRequest (instance' : String) : Json :=
  .arr
    [.obj [("type", .str "folding"), ("operation", .str "FOLD"), ("instance_id", .str instance')]]

def noiseSettings (dimension bound : Int) : Json :=
  .obj [("noise_dimension", .int dimension), ("noise_bound", .int bound)]

def afterFold (instance' : String) (dimension bound : Int) : Generator :=
  (({} : Generator).serve (foldRequest instance') (noiseSettings dimension bound)).2

/-- The noise of an instance is the same whether it was given by an earlier request or is given
now. -/
theorem answers_fold_alike :
    (afterFold "a" 3 5).round = (afterFold "b" 2 7).round ∧
    ((afterFold "a" 3 5).serve (foldRequest "a") (noiseSettings 3 5)).1 =
      ((afterFold "b" 2 7).serve (foldRequest "a") (noiseSettings 3 5)).1 := by
  have round : (afterFold "a" 3 5).round = (afterFold "b" 2 7).round := by decide +kernel
  refine ⟨round, (answers_by_round_and_noise _ _ round ?_).1⟩
  intro settings read
  cases read
  decide +kernel

/-- An instance keeps the noise of the request that named it first, and so what was served before
shows. -/
theorem earlier_noise_shows :
    (afterFold "a" 3 5).round = (afterFold "b" 3 5).round ∧
    ((afterFold "a" 3 5).serve (foldRequest "a") (noiseSettings 2 7)).1 ≠
      ((afterFold "b" 3 5).serve (foldRequest "a") (noiseSettings 2 7)).1 ∧
    ((afterFold "a" 3 5).serve (foldRequest "a") (noiseSettings 2 7)).1.circuits.map
      (fun circuit => (circuit.noise.dimension?, circuit.noise.bound?)) = [(some 3, some 5)] := by
  have kept : ((afterFold "a" 3 5).serve (foldRequest "a") (noiseSettings 2 7)).1.circuits.map
      (fun circuit => (circuit.noise.dimension?, circuit.noise.bound?)) = [(some 3, some 5)] := by
    decide +kernel
  have given : ((afterFold "b" 3 5).serve (foldRequest "a") (noiseSettings 2 7)).1.circuits.map
      (fun circuit => (circuit.noise.dimension?, circuit.noise.bound?)) = [(some 2, some 7)] := by
    decide +kernel
  refine ⟨by decide +kernel, fun same => ?_, kept⟩
  rw [same, given] at kept
  exact absurd kept (by decide)

end Generator

end Zkvm.Folding
