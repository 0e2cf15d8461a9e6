import Zkvm.Contract.Proving.Basic

/-!
# The parts of a proof

Witnesses, checks, commitments and proofs of the shards; the tree that combines them; the validation
of the result.
-/
set_option autoImplicit false

namespace Zkvm.Contract.Proving

def witness (shard : Shard) : Part Place where
  name := s!"Witness Generation {shard.name}"
  contract :=
    let w := shard.word
    { name := s!"witness_{w}"
      assumptions := [mentioned s!"trace_{w}"]
      guarantees := [s!"witness_{w}_generated"]
      names := [s!"witness_{w}", s!"trace_{w}", s!"public_input_{w}", s!"private_input_{w}"]
      constraints := [s!"witness_{w} = (public_input_{w} & private_input_{w})",
        s!"(witness_{w} & trace_{w}) = trace_{w}"] }
  role := { phase := .witness, shard := some shard }

def constraintCheck (shard : Int) : Part Place where
  name := s!"Constraint Check Shard {shard}"
  contract :=
    { name := s!"constraint_check_{shard}"
      assumptions := [mentioned s!"witness_shard_{shard}"]
      guarantees := [s!"constraints_checked_shard_{shard}"]
      names := [s!"constraints_shard_{shard}", s!"witness_shard_{shard}", s!"satisfied_{shard}",
        s!"violation_flags_{shard}"]
      constraints := [s!"satisfied_{shard} = (constraints_shard_{shard} = 0)",
        s!"violation_flags_{shard} = constraints_shard_{shard}'"] }
  role := { phase := .check }

def commitmentNibble (n : Int) : Part Place where
  name := s!"Commitment Nibble {n}"
  contract :=
    { name := s!"commitment_nibble_{n}"
      assumptions := [mentioned s!"witness_n{n}"]
      guarantees := [s!"commitment_nibble_{n}_generated"]
      names := [s!"commit_n{n}", s!"witness_n{n}", s!"randomness_n{n}", s!"hash_n{n}"]
      constraints :=
        [s!"hash_n{n} = (witness_n{n} + randomness_n{n}) & 15", s!"commit_n{n} = hash_n{n}"] }
  role := { phase := .commitment }

/-- A level of the proof of a shard, with a challenge from the commitment. -/
def proofLevel (shard : Shard) (level : Int) : Part Place where
  name := s!"Proof Generation {shard.name} Level {level}"
  contract :=
    let w := shard.word
    let witness := s!"witness_{w}_l{level}"
    let commitment := s!"commitment_{w}_l{level}"
    { name := s!"proof_{w}_level_{level}"
      assumptions := [mentioned witness, mentioned commitment]
      guarantees := [s!"proof_{w}_level_{level}_generated"]
      names := [s!"proof_{w}_l{level}", witness, commitment, s!"challenge_l{level}"]
      constraints := [s!"challenge_l{level} = ({commitment} & 7)",
        s!"proof_{w}_l{level} = {witness} + (challenge_l{level} * {commitment})"] }
  role := { phase := .proof, shard := some shard, depth := level }

/-- A node of the tree that combines proofs in pairs. -/
def aggregationNode (level node : Int) : Part Place where
  name := s!"Aggregation Level {level} Node {node}"
  contract :=
    let left := s!"proof_left_{level}_{node}"
    let right := s!"proof_right_{level}_{node}"
    let combined := s!"combined_{level}_{node}"
    { name := s!"aggregation_l{level}_n{node}"
      assumptions := [mentioned left, mentioned right]
      guarantees := [s!"aggregation_level_{level}_node_{node}_complete"]
      names := [s!"agg_l{level}_n{node}", left, right, combined]
      constraints := [s!"{combined} = {left} + {right}", s!"agg_l{level}_n{node} = {combined}"] }
  role := { phase := .aggregation, depth := level }

def proofCombiner (n : Int) : Part Place where
  name := s!"Proof Combiner {n}"
  contract :=
    let input (i : Nat) := s!"proof_input_{n}_{i}"
    { name := s!"proof_combiner_{n}"
      assumptions := (List.range 4).map fun i => mentioned (input i)
      guarantees := [s!"proofs_combined_{n}"]
      names := s!"combined_proof_{n}" :: (List.range 4).map input
      constraints :=
        [s!"combined_proof_{n} = (({input 0} + {input 1}) & ({input 2} + {input 3}))"] }
  role := { phase := .aggregation, depth := 1 }

def recursiveVerifier : Part Place where
  name := "Recursive Verifier"
  contract :=
    { name := "recursive_verifier"
      assumptions := [mentioned "inner_proof", mentioned "outer_proof"]
      guarantees := ["recursive_verification_complete"]
      names :=
        ["recursive_proof", "inner_proof", "outer_proof", "verification_key", "recursive_valid"]
      constraints :=
        ["recursive_valid = ((inner_proof & verification_key) = (outer_proof & verification_key))",
          "recursive_proof = recursive_valid * (inner_proof + outer_proof)"] }
  role := { phase := .aggregation, depth := 2 }

def finalAggregation : Part Place where
  name := "Final Aggregation"
  contract :=
    { name := "final_aggregation"
      assumptions := [mentioned "aggregated_proofs"]
      guarantees := ["final_proof_generated"]
      names := ["final_proof", "aggregated_proofs", "final_commitment", "soundness_check"]
      constraints := ["soundness_check = (aggregated_proofs' = 0)'",
        "final_proof = soundness_check * aggregated_proofs",
        "final_commitment = (final_proof & 255)"] }
  role := { phase := .aggregation, depth := 3 }

def commitmentValidator (n : Int) : Part Place where
  name := s!"Commitment Validator Nibble {n}"
  contract :=
    { name := s!"commitment_validator_{n}"
      assumptions := [mentioned s!"provided_commit_n{n}"]
      guarantees := [s!"commitment_nibble_{n}_validated"]
      names :=
        [s!"commit_check_n{n}", s!"provided_commit_n{n}", s!"computed_commit_n{n}",
          s!"commit_valid_n{n}"]
      constraints := [s!"commit_valid_n{n} = (provided_commit_n{n} = computed_commit_n{n})",
        s!"commit_check_n{n} = commit_valid_n{n}"] }
  role := { phase := .validation }

def constraintValidator (kind : String) : Part Place where
  name := s!"Constraint Validator {Text.upper kind}"
  contract :=
    let satisfied := s!"satisfied_{kind}"
    let witness := s!"witness_{kind}"
    let inputs := s!"public_inputs_{kind}"
    { name := s!"constraint_validator_{kind}"
      assumptions := [mentioned witness]
      guarantees := [s!"constraints_{kind}_validated"]
      names := [s!"constraint_{kind}", witness, satisfied, inputs]
      constraints := [s!"{satisfied} = ((constraint_{kind} & {witness}) = 0)",
        s!"{satisfied} = {satisfied} & (({inputs} & {witness}) = {inputs})"] }
  role := { phase := .validation }

def structureValidator : Part Place where
  name := "Proof Structure Validator"
  contract :=
    { name := "proof_structure_validator"
      assumptions := [mentioned "proof_structure"]
      guarantees := ["proof_structure_validated"]
      names :=
        ["proof_structure", "expected_structure", "structure_valid", "proof_size", "expected_size"]
      constraints :=
        ["structure_valid = (proof_structure & expected_structure) = expected_structure",
        "structure_valid = structure_valid & (proof_size = expected_size)"] }
  role := { phase := .validation }

def decision : Part Place where
  name := "Validation Decision"
  contract :=
    { name := "validation_decision"
      assumptions := [mentioned "all_checks"]
      guarantees := ["proof_validation_complete"]
      names := ["valid", "all_checks", "commitment_valid", "constraints_valid", "structure_valid"]
      constraints :=
        ["all_checks = commitment_valid & constraints_valid & structure_valid",
          "valid = all_checks"] }
  role := { phase := .validation }

end Zkvm.Contract.Proving
