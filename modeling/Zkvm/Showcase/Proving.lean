import Zkvm.Json.Fields
import Zkvm.Showcase.Basic

/-!
# Demonstrations of shared proving

A proof is split into shards, which provers bid for, prove, fold together in a tree and verify for a
reward.
-/
set_option autoImplicit false

namespace Zkvm.Showcase.Proving

structure Shard where
  id : Int
  startStep : Int
  endStep : Int
  /-- The memory that it may use. -/
  memory : List Int
  commitment : String
  reward : Int

namespace Shard

def ofJson (value : Json) : Shard where
  id := (value.field "shard_id").toInt
  startStep := (value.field "start_step").toInt
  endStep := (value.field "end_step").toInt
  memory := (value.field "memory_range").toInts
  commitment := (value.field "commitment").toText
  reward := (value.field "reward").toInt

def json (shard : Shard) : Json := .obj [
  ("shard_id", .int shard.id), ("start_step", .int shard.startStep),
  ("end_step", .int shard.endStep), ("memory_range", .ints shard.memory),
  ("commitment", .str shard.commitment), ("reward", .int shard.reward)]

end Shard

def shards : Demo := .ofStatement "shard_structure" "shard_structure.tau"
  ["# Proof Shard Structure", "# Each shard proves a portion of execution trace", "",
    "# Shard 0: Steps 0-3"]
  (row "shard0_id" "00" ++ row "start0_" "00" ++ row "end0_" "11" ++ row "mem_start" "00" ++
    row "mem_end" "11" ++
    row "commit0_" "1011" ++ row "shard1_id" "10" ++ row "start1_" "00" ++ row "end1_" "11" ++
    row "commit1_" "0101" ++
    ["no_overlap=((end0_0+1)|(end0_1+1)|start1_0|start1_1)",
      "valid=(commit0_0&commit1_1&no_overlap)"])

def request : Demo := .ofStatement "proof_request" "proof_request.tau"
  ["# Proof Request Specification", "# Defines work to be proven and rewards", "",
    "# Program hash (using RC hash)"]
  (row "prog" "10110100" ++ row "input" "01011010" ++ row "max_steps" "0001" ++
    row "reward" "00100110" ++
    each 4 (fun i => s!"req_id{i}=(prog{i}+input{i}+max_steps{i}+reward{i})") ++
    ["valid=(prog0|prog2|prog3)&(input1|input3|input5)&max_steps3&(reward2|reward5|reward6)"])

/-- The lowest commitment gets the shard. -/
def assignment : Demo := .ofStatement "shard_assignment" "shard_assignment.tau"
  ["# Shard Assignment Protocol", "# Assigns shards to provers based on commitment", "",
    "# Prover addresses (4-bit)"]
  (row "prover0_" "1001" ++ row "prover1_" "0110" ++ row "commit" "1010" ++
    ["assign0=((commit0+1)&commit1)", "assign1=(commit0&(commit1+1))", "valid=(assign0+assign1)"])

def aggregation : Demo := .ofStatement "aggregation_tree" "aggregation_tree.tau"
  ["# Proof Aggregation Tree", "# Combines shard proofs via binary tree folding", "",
    "# Level 0: 4 shard proofs (2-bit identifiers)"]
  (row "proof0" "10" ++ row "proof1" "01" ++ row "proof2" "11" ++ row "proof3" "00" ++
    each 2 (fun i => s!"fold01_{i}=(proof0{i}+proof1{i})") ++
      each 2 (fun i => s!"fold23_{i}=(proof2{i}+proof3{i})") ++
    each 2 (fun i => s!"root{i}=(fold01_{i}+fold23_{i})") ++
    ["level1_valid=(fold01_0|fold01_1)&(fold23_0|fold23_1)", "root_valid=(root0+root1)",
      "valid=(level1_valid&root_valid)"])

def market : Demo := .ofStatement "verification_market" "verification_market.tau"
  ["# Verification Market", "# Anyone can verify proofs and claim rewards for finding errors", "",
    "# Submitted proof (4-bit)"]
  (row "proof" "1011" ++ row "expected" "0110" ++
    each 4 (fun i => s!"check{i}=(proof{i}+expected{i})") ++
    ["all_match=((check0+1)&(check1+1)&(check2+1)&(check3+1))", "slash=(all_match+1)",
      "reward=slash", "result=(slash&reward)"])

def incentives : String := Text.lines [
  "# Distributed Proving Incentive Model", "", "## Overview", "",
  "The TauFoldZKVM distributed proving network uses economic incentives to ensure:",
  "1. **Availability**: Provers compete to provide proofs",
  "2. **Correctness**: Verifiers rewarded for finding errors",
  "3. **Efficiency**: Market-based pricing", "", "## Proof Markets", "", "### Request Flow",
  "1. User submits proof request with reward", "2. Request split into shards",
  "3. Provers bid on shards", "4. Lowest commitment wins (reverse auction)",
  "5. Proofs submitted and aggregated", "6. Payment on successful verification", "",
  "### Shard Assignment", "```", "Assignment Score = Hash(prover_address, shard_id, bid)",
  "Lowest score wins shard", "```", "", "### Pricing Dynamics", "- Base reward split among shards",
  "- Bonus for fast completion", "- Penalty for failed proofs",
  "- Market determines equilibrium price", "", "## Verification Market", "",
  "### Verification Incentives", "- Anyone can verify submitted proofs",
  "- Reward for finding invalid proofs (slash amount)", "- Small fee for valid verification",
  "- Encourages thorough checking", "", "### Slashing Conditions", "1. Invalid proof submitted",
  "2. Timeout on assigned shard", "3. Malicious behavior detected", "", "## Network Effects", "",
  "### Positive Feedback Loops", "1. More provers → Lower prices → More users",
  "2. More verifiers → Higher security → More trust",
  "3. More volume → Better liquidity → Stable pricing", "", "### Anti-Sybil Measures",
  "- Proof-of-work commitment for bids", "- Reputation scoring over time",
  "- Stake requirements for large shards", "", "## Implementation in Tau", "",
  "All incentive logic encoded as constraints:", "- Auction resolution", "- Payment distribution  ",
  "- Slashing logic", "- Reputation updates", "",
  "This ensures fairness and transparency in the proving market.", ""]

def guide : String := Text.lines [
  "# TauFoldZKVM Distributed Proving", "", "## Architecture", "",
  "The distributed proving system splits zkVM execution proofs into shards that can be proven " ++
    "in parallel by different provers.",
  "", "### Components", "", "1. **Proof Sharding**", "   - Time-based: Split by execution steps",
  "   - Memory-based: Split by memory regions  ",
  "   - Instruction-based: Split by instruction types", "", "2. **Proof Markets**",
  "   - Reverse auction for shard assignment", "   - Commitment-based selection",
  "   - Automatic payment on verification", "", "3. **Aggregation Protocol**",
  "   - Binary tree folding of shard proofs", "   - ProtoStar accumulation at each level",
  "   - Single root proof output", "", "4. **Verification Market**",
  "   - Open verification of all proofs", "   - Rewards for finding errors",
  "   - Slashing for invalid proofs", "", "## Implementation Files", "",
  "1. **shard_structure.tau** - Proof shard specification",
  "2. **proof_request.tau** - Request format and validation",
  "3. **shard_assignment.tau** - Auction-based assignment",
  "4. **aggregation_tree.tau** - Tree-based proof aggregation",
  "5. **verification_market.tau** - Verification incentives",
  "6. **incentive_model.md** - Economic model details", "", "## Performance Analysis", "",
  "### Parallelization Benefits", "- 1000-step program → 10 shards of 100 steps",
  "- 10x speedup with 10 provers", "- Sublinear scaling due to aggregation overhead", "",
  "### Constraint Counts", "- Shard specification: ~50 constraints",
  "- Assignment logic: ~100 constraints  ", "- Aggregation node: ~150 constraints",
  "- Verification: ~80 constraints", "", "### Market Efficiency", "- Auction overhead: ~30 seconds",
  "- Proof generation: Parallel", "- Aggregation: O(log n) depth",
  "- Total latency: Auction + Proof + O(log n) aggregation", "", "## Security Properties", "",
  "1. **Shard Independence**: Shards can't affect each other",
  "2. **Aggregation Soundness**: Tree folding preserves correctness",
  "3. **Economic Security**: Cost to attack > potential profit",
  "4. **Verification Incentives**: Always profitable to verify", "", "## Future Enhancements", "",
  "1. **Dynamic Sharding**: Adapt shard size to workload",
  "2. **Reputation System**: Track prover reliability",
  "3. **Cross-shard Optimization**: Minimize communication",
  "4. **Layer 2 Integration**: Direct blockchain settlement", ""]

def collection : Collection where
  demos := [shards, request, assignment, aggregation, market,
    ⟨"incentive_model", "incentive_model.md", incentives⟩]
  guide := guide

end Zkvm.Showcase.Proving
