import Zkvm.Showcase.Basic

/-!
# Demonstrations of folding

Two instances are folded with a challenge; noise, gates of degree three and lookups are folded with
them.
-/
set_option autoImplicit false

namespace Zkvm.Showcase.Folding

def instances : Demo := .ofStatement "instance_structure" "protostar_instance.tau"
  ["# ProtoStar Instance Structure", "# Instance = (C, r, u, E) where:",
    "# C: commitments (using RC hash)", "# r: challenges", "# u: slack scalar", "# E: noise vector",
    "", "# For 8-bit demonstration", "# Instance 1: Simple computation witness"]
  (row "c1" "10110010" ++ row "r1" "11010000" ++ row "u1" "00010000" ++ row "e1" "00000000" ++
    row "c2" "01101001" ++ row "r2" "01101000" ++ row "u2" "01000000" ++ row "e2" "00000000" ++
    row "beta" "10100000" ++
    each 8 (fun i => s!"cf{i}=(c1{i}+((beta0&c2{i})))") ++
      each 8 (fun i => s!"rf{i}=(r1{i}+(r2{i}&beta0))") ++
    each 8 (fun i => s!"uf{i}=(u1{i}+(u2{i}&beta0))") ++
      each 8 (fun i => s!"ef{i}=(e1{i}+(e2{i}&beta0))") ++
    ["valid=(cf0|cf1|cf2|cf3|cf4|cf5|cf6|cf7)"])

def noise : Demo := .ofStatement "noise_vector_handling" "protostar_noise.tau"
  ["# Noise Vector Evolution in ProtoStar", "# Shows how noise accumulates through folding", "",
    "# Initial instances have zero noise"]
  (row "e1" "0000" ++ row "e2" "0000" ++ row "cross" "1011" ++ ["beta=1"] ++
    each 4 (fun i => s!"ef{i}=(e1{i}+(cross{i}&beta)+(e2{i}&beta))") ++
      ["noise_present=(ef0|ef1|ef2|ef3)"])

def degreeThree : Demo := .ofStatement "high_degree_gate" "protostar_degree3.tau"
  ["# High-Degree Gate in ProtoStar", "# Degree-3 constraint: a*b*c = d", "", "# Inputs"]
  (row "a" "1010" ++ row "b" "1100" ++ row "c" "0110" ++
    each 4 (fun i => s!"d{i}=(a{i}&b{i}&c{i})") ++
    row "expected" "0000" ++ each 4 (fun i => s!"t{i}=(d{i}+expected{i}+1)") ++
      ["valid=(t0&t1&t2&t3)"])

def lookups : Demo := .ofStatement "lookup_folding_integration" "protostar_lookup_fold.tau"
  ["# Lookup Integration with ProtoStar Folding", "# Demonstrates O(d) lookup efficiency", "",
    "# Lookup table index (4-bit for demo)"]
  (row "idx" "1101" ++ row "lut" "0110" ++ row "beta" "1000" ++
    ["lookup_constraint=((idx0+lut0+1)&(idx1+lut1)&(idx2+lut2)&(idx3+lut3+1))"] ++
    row "idx2" "0110" ++ row "lut2" "1001" ++
    ["folded_lookup=(lookup_constraint|(beta0&((idx20+lut20)&(idx21+lut21+1)&(idx22+lut22+1)&" ++
        "(idx23+lut23))))",
      "result=folded_lookup"])

def guide : String := Text.lines [
  "# ProtoStar Folding in TauFoldZKVM", "", "## Overview", "",
  "ProtoStar is an advanced folding scheme that improves upon Nova/SuperNova with:",
  "1. **Explicit noise vectors** - Clean handling of accumulation errors",
  "2. **High-degree gate support** - No additional MSM costs",
  "3. **O(d) lookup efficiency** - Native lookup integration",
  "4. **Cheap cross-terms** - Field elements as commitments", "", "## Key Components", "",
  "### Instance Structure", "```", "Instance = (C, r, u, E)",
  "- C: Commitment vector (using RC hash)", "- r: Challenge vector", "- u: Slack scalar",
  "- E: Noise vector (tracks accumulation)", "```", "", "### Folding Operation", "```",
  "fold(I1, I2, β) → I_folded", "- C_fold = C1 + β·C2", "- r_fold = concat(r1, r2, β)  ",
  "- u_fold = u1 + β·u2", "- E_fold = E1 + β·(cross_terms) + β²·E2", "```", "",
  "### Binary Field Adaptation", "In Tau's binary field (F2):", "- Addition is XOR",
  "- Multiplication is AND", "- β² = β for β ∈ \x7b0,1\x7d", "", "## Implementation Files", "",
  "1. **protostar_instance.tau** - Basic instance folding",
  "2. **protostar_noise.tau** - Noise vector evolution",
  "3. **protostar_degree3.tau** - High-degree gate example",
  "4. **protostar_lookup_fold.tau** - Lookup integration", "", "## Performance Analysis", "",
  "- **Folding step**: ~150 constraints", "- **Noise tracking**: ~50 constraints",
  "- **Lookup integration**: O(d) where d = lookup degree",
  "- **Total per fold**: ~200-300 constraints", "", "## Next Steps", "",
  "1. Integrate with ISA implementation", "2. Build commitment scheme using RC hash",
  "3. Create distributed folding protocol", ""]

def collection : Collection where
  demos := [instances, noise, degreeThree, lookups]
  guide := guide
  ownDirectory := true

end Zkvm.Showcase.Folding
