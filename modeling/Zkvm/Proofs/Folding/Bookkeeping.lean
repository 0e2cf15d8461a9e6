import Mathlib.Data.List.Forall2
import Mathlib.Data.List.Sigma
import Zkvm.Proofs.Folding.Freshness
import Zkvm.Proofs.Text.Digits

/-!
# Books of folding

A generator keeps a round and a history for every instance, and each answer has its own circuits,
errors, commitments and accumulator.  All of them count nodes: as long as no request fails, the
round moves on by the nodes that fold, the history of an instance grows by the nodes that draw noise
for it, and an answer lists what was made of its own nodes, one by one and in order.
-/
set_option autoImplicit false

namespace Zkvm.Folding

def Operation.folds : Operation → Bool
  | .fold => true
  | _ => false

def Operation.draws : Operation → Bool
  | .fold | .accumulate => true
  | _ => false

def Operation.commits : Operation → Bool
  | .commit => true
  | _ => false

namespace Node

def operation? (node : Node) : Option Operation :=
  if node.kind = some "folding" then Operation.ofName? node.operation else none

theorem asks_iff (node : Node) : node.Asks ↔ node.operation?.isSome = true := by
  rw [Asks, operation?]
  split <;> simp_all

def folds (node : Node) : Bool :=
  node.operation?.any Operation.folds

def drawsFor (key : String) (node : Node) : Bool :=
  node.operation?.any Operation.draws && node.instance' = key

/-- The node is about folding and asks for nothing that is known. -/
def Refused (node : Node) : Prop :=
  node.kind = some "folding" ∧ ¬node.Asks

instance (node : Node) : Decidable node.Refused :=
  inferInstanceAs (Decidable (_ ∧ _))

def refusal (node : Node) : String :=
  s!"Failed to process node: {node.id}"

/-- The circuit does what the node asks for, from the inputs to the outputs that the node gives. -/
structure Gets (node : Node) (circuit : Circuit) : Prop where
  operation : node.operation? = some circuit.operation
  inputs : ∀ given, node.inputs = some given → circuit.inputs = given
  outputs : ∀ given, node.outputs = some given → circuit.outputs = given

end Node

namespace Generator

def remembered (generator : Generator) (key : String) : Nat :=
  ((generator.managers.lookup key).map fun manager => manager.history.length).getD 0

def registered (generator : Generator) (key : String) : Bool :=
  (generator.managers.lookup key).isSome

/-- What some nodes leave in the books. -/
structure Booked (nodes : List Node) (before after : Generator) : Prop where
  round : after.round = before.round + nodes.countP Node.folds
  remembered : ∀ key, after.remembered key =
    before.remembered key + nodes.countP (Node.drawsFor key)
  registered : ∀ key, after.registered key = true ↔
    before.registered key = true ∨ ∃ node ∈ nodes, node.Asks ∧ node.instance' = key

theorem booked_nil (generator : Generator) : Booked [] generator generator := by
  constructor <;> simp

theorem Booked.append {first second : List Node} {before between after : Generator}
    (front : Booked first before between) (back : Booked second between after) :
    Booked (first ++ second) before after where
  round := by rw [back.round, front.round, List.countP_append, Nat.add_assoc]
  remembered key := by rw [back.remembered, front.remembered, List.countP_append, Nat.add_assoc]
  registered key := by
    rw [back.registered, front.registered]
    simp only [List.mem_append, or_and_right, exists_or, or_assoc]

/-! ## One node -/

section Managers
variable (settings : Settings) (generator : Generator)

theorem remembered_of_lookup {key : String} {manager : NoiseManager}
    (found : generator.managers.lookup key = some manager) :
    generator.remembered key = manager.history.length := by
  rw [remembered, found]
  rfl

theorem remembered_withManager (key other : String) :
    (generator.withManager settings key).2.remembered other = generator.remembered other := by
  rw [withManager]
  cases found : generator.managers.lookup key with
  | some manager => rfl
  | none =>
      simp only [remembered, Json.lookup_put]
      split
      · rename_i same
        rw [same, found]
        rfl
      · rfl

theorem registered_withManager (key other : String) :
    (generator.withManager settings key).2.registered other = true ↔
      generator.registered other = true ∨ key = other := by
  rw [withManager]
  cases found : generator.managers.lookup key with
  | some manager =>
      constructor
      · exact Or.inl
      · rintro (known | rfl)
        · exact known
        · rw [registered, found]
          rfl
  | none =>
      rw [registered, Json.lookup_put]
      split
      · rename_i same
        simp [same]
      · rename_i differs
        simp [registered, Ne.symm differs]

variable {generator} {key : String} {manager : NoiseManager} (seed : Int)

theorem remembered_remember (found : generator.managers.lookup key = some manager)
    (other : String) :
    (generator.remember key manager seed).remembered other =
      generator.remembered other + if key = other then 1 else 0 := by
  rw [remembered, remember, Json.lookup_put]
  by_cases own : other = key
  · rw [if_pos own, if_pos own.symm, own, remembered_of_lookup generator found]
    simp
  · rw [if_neg own, if_neg (Ne.symm own)]
    rfl

theorem registered_remember (found : generator.managers.lookup key = some manager)
    (other : String) :
    (generator.remember key manager seed).registered other = generator.registered other := by
  rw [registered, registered, remember, Json.lookup_put]
  split
  · rename_i same
    rw [same, found]
    rfl
  · rfl

end Managers

section Node
variable (settings : Settings) {generator : Generator} {node : Node}

/-- What a circuit that was made leaves behind: the round and the history of its own instance move
on as its operation says, and nothing else does. -/
theorem circuit_books {manager : NoiseManager} {operation : Operation} {made : Circuit}
    (found : generator.managers.lookup node.instance' = some manager)
    (done : (generator.circuit settings node manager operation).1 = .ok made) :
    let after := (generator.circuit settings node manager operation).2
    (made.operation = operation ∧ (∀ given, node.inputs = some given → made.inputs = given) ∧
      ∀ given, node.outputs = some given → made.outputs = given) ∧
    after.round = generator.round + operation.folds.toNat ∧
    (∀ key, after.remembered key =
      generator.remembered key + if node.instance' = key then operation.draws.toNat else 0) ∧
    ∀ key, after.registered key = generator.registered key := by
  have own : ∀ (given : Option (List String)) (default : List String) names,
      given = some names → given.getD default = names := by
    rintro _ default names rfl
    rfl
  cases operation with
  | unfold | commit | verify =>
      cases done
      refine ⟨⟨rfl, own _ _, own _ _⟩, rfl, fun key => ?_, fun _ => rfl⟩
      simp [circuit, Operation.draws]
  | fold =>
      dsimp only [circuit] at done ⊢
      obtain ⟨rfl, after⟩ := generator.withNoise_made done
      rw [done, after]
      exact ⟨⟨rfl, own _ _, own _ _⟩, rfl, remembered_remember _ found, registered_remember _ found⟩
  | accumulate =>
      dsimp only [circuit] at done ⊢
      obtain ⟨rfl, after⟩ := generator.withNoise_made done
      rw [after]
      exact ⟨⟨rfl, own _ _, own _ _⟩, rfl, remembered_remember _ found, registered_remember _ found⟩

theorem booked_singleton {after : Generator} {operation : Operation}
    (named : node.operation? = some operation)
    (round : after.round = generator.round + operation.folds.toNat)
    (remembered : ∀ key, after.remembered key =
      generator.remembered key + if node.instance' = key then operation.draws.toNat else 0)
    (registered : ∀ key, after.registered key = true ↔
      generator.registered key = true ∨ node.instance' = key) :
    Booked [node] generator after where
  round := by
    rw [round, List.countP_singleton, Node.folds, named]
    cases operation <;> rfl
  remembered key := by
    rw [remembered, List.countP_singleton, Node.drawsFor, named]
    by_cases own : node.instance' = key <;> cases operation <;> simp [own, Operation.draws]
  registered key := by
    have asks : node.Asks := (node.asks_iff).mpr (by rw [named]; rfl)
    simp [registered, asks]

theorem booked_of_not_asks (idle : ¬node.Asks) : Booked [node] generator generator := by
  have unnamed : node.operation? = none := by simpa [Node.asks_iff] using idle
  constructor <;> simp [Node.folds, Node.drawsFor, unnamed, idle]

/-- A node about folding that does not fail gets a circuit or is refused, and the books say so. -/
theorem processNode_books (folding : node.kind = some "folding") {outcome : Option Circuit}
    (done : (generator.processNode settings node).1 = .ok outcome) :
    Booked [node] generator (generator.processNode settings node).2 ∧
    ((node.Refused ∧ outcome = none) ∨ ∃ circuit, node.Gets circuit ∧ outcome = some circuit) := by
  have named : node.operation? = Operation.ofName? node.operation := if_pos folding
  rw [processNode] at done ⊢
  cases known : Operation.ofName? node.operation with
  | none =>
      rw [known] at named done
      cases done
      have idle : ¬node.Asks := by rw [node.asks_iff, named]; exact Bool.false_ne_true
      exact ⟨booked_of_not_asks idle, .inl ⟨⟨folding, idle⟩, rfl⟩⟩
  | some operation =>
      rw [known] at named done
      dsimp only at done ⊢
      cases made : ((generator.withManager settings node.instance').2.circuit settings node
          (generator.withManager settings node.instance').1 operation).1 with
      | error failure =>
          rw [made] at done
          cases done
      | ok circuit =>
          rw [made] at done
          cases done
          obtain ⟨⟨own, inputs, outputs⟩, round, remembered, registered⟩ :=
            circuit_books settings (lookup_withManager settings generator node.instance') made
          refine ⟨booked_singleton named ?_ ?_ ?_,
            .inr ⟨circuit, ⟨named.trans (own ▸ rfl), inputs, outputs⟩, rfl⟩⟩
          · rw [round, withManager_round]
          · intro key
            rw [remembered, remembered_withManager]
          · intro key
            rw [registered, registered_withManager]

end Node

/-! ## The nodes of a request -/

/-- Some nodes were taken: the books and the progress have what was made of them. -/
structure Taken (nodes : List Node) (before : Generator) (progress : Progress) (after : Generator)
    (final : Progress) : Prop where
  circuits : ∃ made, final.circuits = progress.circuits ++ made ∧
    List.Forall₂ Node.Gets (nodes.filter fun node => node.Asks) made
  errors : final.errors = progress.errors ++
    (nodes.filter fun node => node.Refused).map Node.refusal
  booked : Booked nodes before after

theorem taken_nil (generator : Generator) (progress : Progress) :
    Taken [] generator progress generator progress where
  circuits := ⟨[], (List.append_nil _).symm, .nil⟩
  errors := (List.append_nil _).symm
  booked := booked_nil generator

theorem Taken.append {first second : List Node} {before between after : Generator}
    {progress next final : Progress} (front : Taken first before progress between next)
    (back : Taken second between next after final) :
    Taken (first ++ second) before progress after final where
  circuits := by
    obtain ⟨one, made, gets⟩ := front.circuits
    obtain ⟨more, madeMore, getsMore⟩ := back.circuits
    refine ⟨one ++ more, by rw [madeMore, made, List.append_assoc], ?_⟩
    rw [List.filter_append]
    exact List.rel_append gets getsMore
  errors := by
    rw [back.errors, front.errors, List.filter_append, List.map_append, List.append_assoc]
  booked := front.booked.append back.booked

section Request
variable (settings : Settings) {generator : Generator} {progress : Progress}

theorem takeNode_taken {node : Node} {next : Progress}
    (done : (generator.takeNode settings progress node).1 = .ok next) :
    Taken [node] generator progress (generator.takeNode settings progress node).2 next := by
  rw [takeNode_eq] at done ⊢
  by_cases folding : node.kind = some "folding"
  · rw [if_neg (not_not_intro folding)] at done ⊢
    cases processed : (generator.processNode settings node).1 with
    | error failure =>
        rw [processed] at done
        cases done
    | ok outcome =>
        rw [processed] at done
        cases done
        obtain ⟨booked, ⟨refused, rfl⟩ | ⟨circuit, gets, rfl⟩⟩ :=
          processNode_books settings folding processed
        · have errors : [node].filter (fun node => node.Refused) = [node] := by simp [refused]
          exact ⟨⟨[], (List.append_nil _).symm, by simp [refused.2]⟩, by rw [errors]; rfl, booked⟩
        · have asks : node.Asks := (node.asks_iff).mpr (by rw [gets.operation]; rfl)
          have served : ¬node.Refused := fun refused => refused.2 asks
          exact ⟨⟨[circuit], rfl, by simpa [asks] using gets⟩,
            by simp [Progress.add, served], booked⟩
  · rw [if_pos folding] at done ⊢
    cases done
    have idle : ¬node.Asks := fun asks => folding asks.1
    have other : ¬node.Refused := fun refused => folding refused.1
    exact ⟨⟨[], (List.append_nil _).symm, by simp [idle]⟩, by simp [other], booked_of_not_asks idle⟩

theorem takeNodes_taken {nodes : List Node} {final : Progress}
    (done : (generator.takeNodes settings progress nodes).1 = .ok final) :
    Taken nodes generator progress (generator.takeNodes settings progress nodes).2 final := by
  induction nodes generalizing generator progress with
  | nil =>
      cases done
      exact taken_nil generator _
  | cons node rest ih =>
      rw [takeNodes] at done ⊢
      cases stepped : generator.takeNode settings progress node with
      | mk outcome after =>
          rw [stepped] at done
          cases outcome with
          | error failure => cases done
          | ok next =>
              have front := takeNode_taken settings (congrArg Prod.fst stepped)
              rw [stepped] at front
              exact front.append (ih done)

end Request

/-! ## Answers -/

/-- The key of the commitment to a circuit at a place. -/
inductive CommitmentKey (circuit : Circuit) (place : Nat) : String → Prop where
  | fold (folds : circuit.operation = .fold) : CommitmentKey circuit place s!"fold_{place}"
  | commit (commits : circuit.operation = .commit) : CommitmentKey circuit place s!"commit_{place}"

/-- An accumulator of circuits: an instance of zeros for each circuit that draws noise and a digest
for each that commits. -/
structure Accumulates (round : Nat) (circuits : List Circuit) (accumulator : Accumulator) :
    Prop where
  instances : List.Forall₂ (fun circuit folded => folded.round = round ∧
      folded.noise.dimension = circuit.noise.dimension?.getD 16 ∧ ∀ element ∈ folded.noise.elements,
        element = 0)
    (circuits.filter fun circuit => circuit.operation.draws) accumulator.instances
  commitments : accumulator.commitments =
    (circuits.filter fun circuit => circuit.operation.commits).map fun circuit =>
      hashTexts circuit.constraints
  round : accumulator.round = round

/-- The answer to some nodes in a round. -/
structure Reported (settings : Settings) (nodes : List Node) (round : Nat) (result : Result) :
    Prop where
  circuits : List.Forall₂ Node.Gets (nodes.filter fun node => node.Asks) result.circuits
  errors : result.errors = (nodes.filter fun node => node.Refused).map Node.refusal
  success : result.success = true ↔ ∀ node ∈ nodes, ¬node.Refused
  keys : (result.commitments.map Prod.fst).Nodup ∧ ∀ key, key ∈ result.commitments.map Prod.fst ↔
    ∃ place circuit, result.circuits[place]? = some circuit ∧ CommitmentKey circuit place key
  accumulator : settings.createAccumulator = true →
    ∃ accumulator, result.accumulator = some accumulator ∧
      Accumulates round result.circuits accumulator
  unasked : settings.createAccumulator = false → result.accumulator.isNone = true

/-! ### Commitments -/

/-- What is listed for the circuit at a place, if anything. -/
def listed? (pair : Circuit × Nat) : Option (String × String) :=
  (committed? pair.1).map fun committed => (s!"{committed.1}_{pair.2}", hashTexts committed.2)

theorem commitments_eq (circuits : List Circuit) :
    commitments circuits = circuits.zipIdx.filterMap listed? :=
  rfl

theorem key_of_listed {pair : Circuit × Nat} {entry : String × String}
    (listed : listed? pair = some entry) :
    CommitmentKey pair.1 pair.2 entry.1 := by
  obtain ⟨committed, found, rfl⟩ := Option.map_eq_some_iff.mp listed
  rw [committed?] at found
  split at found <;> cases found
  · exact .commit ‹_›
  · exact .fold ‹_›

theorem exists_listed {circuit : Circuit} {place : Nat} {key : String}
    (named : CommitmentKey circuit place key) :
    ∃ digest, listed? (circuit, place) = some (key, digest) := by
  cases named with
  | fold folds => exact ⟨_, by rw [listed?, committed?, folds]; rfl⟩
  | commit commits => exact ⟨_, by rw [listed?, committed?, commits]; rfl⟩

theorem mem_keys_commitments {circuits : List Circuit} {key : String} :
    key ∈ (commitments circuits).map Prod.fst ↔
      ∃ place circuit, circuits[place]? = some circuit ∧ CommitmentKey circuit place key := by
  rw [commitments_eq, List.mem_map]
  constructor
  · rintro ⟨entry, member, rfl⟩
    obtain ⟨⟨circuit, place⟩, indexed, listed⟩ := List.mem_filterMap.mp member
    exact ⟨place, circuit, List.mk_mem_zipIdx_iff_getElem?.mp indexed, key_of_listed listed⟩
  · rintro ⟨place, circuit, here, named⟩
    obtain ⟨digest, listed⟩ := exists_listed named
    exact ⟨(key, digest),
      List.mem_filterMap.mpr ⟨(circuit, place), List.mk_mem_zipIdx_iff_getElem?.mpr here, listed⟩,
      rfl⟩

theorem place_of_key {circuit circuit' : Circuit} {place place' : Nat} {key : String}
    (here : CommitmentKey circuit place key) (there : CommitmentKey circuit' place' key) :
    place = place' := by
  have read (kind kind' : String) (same : kind ++ "_" ++ toString place =
      kind' ++ "_" ++ toString place') :
      place = place' := by
    have letters := congrArg String.toList same
    simp only [String.toList_append] at letters
    exact Text.eq_of_toList_toString
      (Text.digits_inj (by decide : '_'.isDigit = false) (fun _ => Text.isDigit_of_mem_toString)
        (fun _ => Text.isDigit_of_mem_toString) letters).2
  cases here with
  | fold =>
    generalize same : s!"fold_{place}" = key at there
    cases there with
    | fold => exact read "fold" "fold" same
    | commit => exact read "fold" "commit" same
  | commit =>
    generalize same : s!"commit_{place}" = key at there
    cases there with
    | fold => exact read "commit" "fold" same
    | commit => exact read "commit" "commit" same

theorem nodup_keys_commitments (circuits : List Circuit) :
    ((commitments circuits).map Prod.fst).Nodup := by
  have places : circuits.zipIdx.Pairwise fun first second => first.2 ≠ second.2 :=
    List.pairwise_map.mp (List.nodup_zipIdx_map_snd circuits)
  rw [commitments_eq, List.Nodup, List.pairwise_map, List.pairwise_filterMap]
  refine places.imp fun {first second} apart entry here other there same => ?_
  have secondKey := key_of_listed there
  rw [← same] at secondKey
  exact apart (place_of_key (key_of_listed here) secondKey)

/-! ### Accumulators -/

section Accumulator
variable (settings : Settings) (round : Nat)

theorem instance?_of_draws {circuit : Circuit} (draws : circuit.operation.draws = true) :
    instance? settings round circuit =
      some ((NoiseVector.make (circuit.noise.dimension?.getD 16)
        (List.replicate (circuit.noise.dimension?.getD 16).toNat 0)
        (circuit.noise.bound?.getD settings.noiseBound)).map (⟨·, round⟩)) := by
  rw [instance?]
  cases operation : circuit.operation with
  | fold | accumulate => rfl
  | unfold | commit | verify =>
      rw [operation] at draws
      cases draws

theorem instance?_of_not_draws {circuit : Circuit} (idle : circuit.operation.draws = false) :
    instance? settings round circuit = none := by
  rw [instance?]
  cases operation : circuit.operation with
  | fold | accumulate =>
      rw [operation] at idle
      cases idle
  | unfold | commit | verify => rfl

theorem instances_of_circuits {circuits : List Circuit} {instances : List FoldedInstance}
    (done : (circuits.filterMap (instance? settings round)).mapM id = .ok instances) :
    List.Forall₂ (fun circuit folded => folded.round = round ∧
        folded.noise.dimension = circuit.noise.dimension?.getD 16 ∧
          ∀ element ∈ folded.noise.elements, element = 0)
      (circuits.filter fun circuit => circuit.operation.draws) instances := by
  induction circuits generalizing instances with
  | nil =>
      cases done
      exact .nil
  | cons circuit rest ih =>
      cases draws : circuit.operation.draws with
      | false =>
          rw [List.filterMap_cons_none (instance?_of_not_draws settings round draws)] at done
          rw [List.filter_cons_of_neg (by simp [draws])]
          exact ih done
      | true =>
          rw [List.filterMap_cons_some (instance?_of_draws settings round draws),
            List.mapM_cons] at done
          rw [List.filter_cons, draws, if_pos rfl]
          obtain ⟨first, made, done⟩ := exists_of_bind done
          obtain ⟨later, others, done⟩ := exists_of_bind done
          cases done
          refine .cons ?_ (ih others)
          rw [id] at made
          cases zeros : NoiseVector.make (circuit.noise.dimension?.getD 16)
              (List.replicate (circuit.noise.dimension?.getD 16).toNat 0)
              (circuit.noise.bound?.getD settings.noiseBound) with
          | error failure =>
              rw [zeros] at made
              cases made
          | ok noise =>
              rw [zeros] at made
              cases made
              rw [make_eq zeros]
              exact ⟨rfl, rfl, fun element member => List.eq_of_mem_replicate member⟩

theorem accumulates_of_accumulator {circuits : List Circuit} {made : Accumulator}
    (done : accumulator settings round circuits = .ok made) : Accumulates round circuits made := by
  obtain ⟨instances, all, rest⟩ := exists_of_bind done
  cases rest
  refine ⟨instances_of_circuits settings round all, ?_, rfl⟩
  refine congrArg (List.map _) (List.filter_congr fun circuit _ => ?_)
  cases circuit.operation <;> decide

end Accumulator

/-! ### The end of a request -/

theorem success_iff {nodes : List Node} :
    ((nodes.filter fun node => node.Refused).map Node.refusal).isEmpty = true ↔ ∀ node ∈ nodes,
      ¬node.Refused := by
  simp [List.isEmpty_iff, List.filter_eq_nil_iff]

theorem finish_done {settings : Settings} {generator : Generator} {progress : Progress}
    {result : Result} (done : generator.finish settings progress = .ok result) :
    result.circuits = progress.circuits ∧ result.errors = progress.errors ∧
    result.success = progress.errors.isEmpty ∧ result.commitments = commitments progress.circuits ∧
    (settings.createAccumulator = true → ∃ made, result.accumulator = some made ∧
      accumulator settings generator.round progress.circuits = .ok made) ∧
    (settings.createAccumulator = false → result.accumulator.isNone = true) := by
  have committed {made : List (String × String)} (done : commit progress.circuits = .ok made) :
      made = commitments progress.circuits := by
    obtain ⟨-, -, rest⟩ := exists_of_bind done
    exact (Except.ok.inj rest).symm
  rw [finish] at done
  split at done
  · next asked =>
      obtain ⟨accumulated, made, rest⟩ := exists_of_bind done
      obtain ⟨listed, all, rest⟩ := exists_of_bind rest
      cases rest
      refine ⟨rfl, rfl, rfl, committed all, fun _ => ?_, fun unasked => by simp [asked] at unasked⟩
      cases built : accumulator settings generator.round progress.circuits with
      | error failure =>
          rw [built] at made
          cases made
      | ok accumulated =>
          rw [built] at made
          cases made
          exact ⟨accumulated, rfl, rfl⟩
  · next unasked =>
      obtain ⟨-, ⟨⟩, rest⟩ := exists_of_bind done
      obtain ⟨listed, all, rest⟩ := exists_of_bind rest
      cases rest
      exact ⟨rfl, rfl, rfl, committed all, fun asked => absurd asked unasked, fun _ => rfl⟩

theorem finish_reported {settings : Settings} {nodes : List Node} {before after : Generator}
    {final : Progress} {result : Result} (taken : Taken nodes before {} after final)
    (done : after.finish settings final = .ok result) :
    Reported settings nodes after.round result := by
  obtain ⟨made, circuits, gets⟩ := taken.circuits
  have errors := taken.errors
  rw [List.nil_append] at circuits errors
  obtain ⟨sameCircuits, sameErrors, success, listed, asked, unasked⟩ := finish_done done
  refine ⟨?_, sameErrors.trans errors, ?_, ?_, ?_, unasked⟩
  · rw [sameCircuits, circuits]
    exact gets
  · rw [success, errors]
    exact success_iff
  · rw [listed, sameCircuits]
    exact ⟨nodup_keys_commitments _, fun key => mem_keys_commitments⟩
  · intro wanted
    obtain ⟨accumulated, here, made⟩ := asked wanted
    rw [sameCircuits]
    exact ⟨accumulated, here, accumulates_of_accumulator settings after.round made⟩

end Generator

/-! ## Requests -/

/-- Some error says that the generation failed. -/
def Result.Fails (result : Result) : Prop :=
  ∃ error ∈ result.errors, "Generation failed".toList <+: error.toList

instance (result : Result) : Decidable result.Fails :=
  inferInstanceAs (Decidable (∃ error ∈ result.errors, _))

namespace Generator

theorem fails_failed (failure : Failure) : (failed failure).Fails := by
  have opening :
      "Generation failed: ".toList = "Generation failed".toList ++ ": ".toList := by decide
  have text : (s!"Generation failed: {failure.message}").toList =
      "Generation failed: ".toList ++ failure.message.toList :=
    String.toList_append
  rw [opening, List.append_assoc] at text
  exact ⟨_, List.mem_singleton_self _, _, text.symm⟩

theorem exists_of_clean {outcome : Except Failure Result} (clean : ¬(answer outcome).Fails) :
    ∃ result, outcome = .ok result := by
  cases outcome with
  | error failure => exact absurd (fails_failed failure) clean
  | ok result => exact ⟨result, rfl⟩

theorem readNodes_all {records : List Json} (all : (readNodes records).2 = none) :
    List.Forall₂ (fun record node => Node.ofJson record = .ok node) records
      (readNodes records).1 := by
  induction records with
  | nil => exact .nil
  | cons record rest ih =>
      rw [readNodes] at all ⊢
      cases read : Node.ofJson record with
      | error failure =>
          rw [read] at all
          cases all
      | ok node =>
          rw [read] at all
          exact .cons read (ih all)

/-- A request that was read to its end is answered. -/
def Answered (request : Json × Json) (answer : Result × Generator) : Prop :=
  ∃ settings records, Settings.ofJson request.2 = .ok settings ∧
    request.1.iterateValues = .ok records ∧
    List.Forall₂ (fun record node => Node.ofJson record = .ok node) records (requested request.1) ∧
    Reported settings (requested request.1) answer.2.round answer.1

theorem serve_answered {generator : Generator} {request : Json × Json}
    (clean : ¬(generator.serve request.1 request.2).1.Fails) :
    Answered request (generator.serve request.1 request.2) ∧
      Booked (requested request.1) generator (generator.serve request.1 request.2).2 := by
  obtain ⟨nodes, given⟩ := request
  dsimp only at clean ⊢
  cases read : Settings.ofJson given with
  | error failure =>
      rw [serve, read] at clean
      exact absurd (fails_failed failure) clean
  | ok settings =>
      cases listed : nodes.iterateValues with
      | error failure =>
          rw [serve, read, listed] at clean
          exact absurd (fails_failed failure) clean
      | ok records =>
          have after := serve_after generator nodes read
          have result := serve_eq read listed generator
          rw [result] at clean
          obtain ⟨reported, done⟩ := exists_of_clean clean
          rw [done, answer] at result
          obtain ⟨final, taken, concluded⟩ := exists_of_bind done
          cases unread : (readNodes records).2 with
          | some failure =>
              rw [unread] at concluded
              cases concluded
          | none =>
              rw [unread, conclude_none] at concluded
              have books := takeNodes_taken settings taken
              have all := readNodes_all unread
              refine ⟨⟨settings, records, read, listed, ?_, ?_⟩, ?_⟩
              · rw [requested, listed]
                exact all
              · rw [result, after]
                exact finish_reported books concluded
              · rw [after]
                exact books.booked

def answers : Generator → List (Json × Json) → List (Result × Generator)
  | _, [] => []
  | generator, request :: rest =>
    generator.serve request.1 request.2 :: answers (generator.serve request.1 request.2).2 rest

/-- As long as no request fails all books balance, whatever generator is asked for whatever nodes.
Every answer has one circuit for each node that asks for one and one error for each other node about
folding, in order; its commitments and its accumulator are those of its own circuits, in the round
that was reached.  Over all requests the round has moved on by the nodes that fold, and each
instance has one more vector for every node that draws noise for it.  A new generator is in round
zero and remembers nothing, so there these are the numbers themselves. -/
theorem books_balance (generator : Generator) (requests : List (Json × Json))
    (clean : ∀ answer ∈ generator.answers requests, ¬answer.1.Fails) :
    List.Forall₂ Answered requests (generator.answers requests) ∧
    Booked (requests.flatMap fun request => requested request.1) generator
      (generator.served requests) := by
  induction requests generalizing generator with
  | nil => exact ⟨.nil, booked_nil generator⟩
  | cons request rest ih =>
      rw [answers, List.forall_mem_cons] at clean
      obtain ⟨answered, booked⟩ := serve_answered clean.1
      obtain ⟨later, bookedLater⟩ := ih (generator.serve request.1 request.2).2 clean.2
      exact ⟨.cons answered later, booked.append bookedLater⟩

/-- Two requests to a new generator about two instances, with all operations, one node that is not
about folding and one that asks for nothing known. -/
def mixedRequests : List (Json × Json) :=
  [(.arr [.obj [("type", .str "folding"), ("operation", .str "fold"), ("instance_id", .str "a")],
      .obj [("type", .str "folding"), ("operation", .str "SPLIT"), ("id", .str "n1")],
      .obj [("type", .str "folding"), ("operation", .str "Accumulate"), ("instance_id", .str "b")],
      .obj [("type", .str "arithmetic"), ("operation", .str "FOLD")],
      .obj [("type", .str "folding"), ("operation", .str "COMMIT"), ("instance_id", .str "b")]],
    .obj [("noise_dimension", .int 3), ("noise_bound", .int 5),
      ("create_accumulator", .bool true)]),
  (.arr [.obj [("type", .str "folding"), ("operation", .str "VERIFY")],
      .obj [("type", .str "folding"), ("operation", .str "FOLD"), ("instance_id", .str "a"),
        ("seed", .int 7)]],
    .obj [])]

theorem books_balance_mixed :
    (∀ answer ∈ ({} : Generator).answers mixedRequests, ¬answer.1.Fails) ∧
    ((({} : Generator).answers mixedRequests).map fun answer =>
      (answer.1.success, answer.1.circuits.length, answer.1.errors, answer.2.round)) =
        [(false, 3, ["Failed to process node: n1"], 1), (true, 2, [], 2)] ∧
    (({} : Generator).served mixedRequests).round = 2 ∧
    (({} : Generator).served mixedRequests).remembered "a" = 2 ∧
    (({} : Generator).served mixedRequests).remembered "b" = 1 := by
  have clean : ∀ answer ∈ ({} : Generator).answers mixedRequests, ¬answer.1.Fails := by
    decide +kernel
  have booked := (books_balance {} mixedRequests clean).2
  rw [booked.round, booked.remembered, booked.remembered]
  exact ⟨clean, by decide +kernel, by decide +kernel, by decide +kernel, by decide +kernel⟩

end Generator

end Zkvm.Folding
