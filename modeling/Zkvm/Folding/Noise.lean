import Zkvm.Failure

/-!
# Noise

A noise vector has elements within a bound.  Elements are computed modulo `2 * bound + 1` and
represented between `-bound` and `bound`; a manager generates vectors from seeds and remembers them.
-/
set_option autoImplicit false

namespace Zkvm.Folding

structure NoiseVector where
  dimension : Int
  elements : List Int
  bound : Int

namespace NoiseVector

/-- A vector, unless its elements are too few, too many or beyond the bound. -/
def make (dimension : Int) (elements : List Int) (bound : Int) : Except Failure NoiseVector :=
  if (elements.length : Int) ≠ dimension then .error (.noise .wrongLength)
  else if elements.any fun e => decide (bound < e.natAbs) then .error (.noise .beyondBound)
  else .ok ⟨dimension, elements, bound⟩

end NoiseVector

structure NoiseManager where
  dimension : Int
  bound : Int
  /-- The vectors that were generated, the first one first. -/
  history : List NoiseVector := []

namespace NoiseManager

/-- The number of values of an element. -/
def modulus (bound : Int) : Int :=
  2 * bound + 1

def seeded (dimension bound seed : Int) : List Int :=
  (List.range dimension.toNat).map fun (i : Nat) =>
    Int.fmod (seed * (i + 1) + i * i) (modulus bound) - bound

def generate (manager : NoiseManager) (seed : Int) :
    Except Failure (NoiseVector × NoiseManager) := do
  let noise ← NoiseVector.make manager.dimension (seeded manager.dimension manager.bound seed)
    manager.bound
  pure (noise, { manager with history := manager.history ++ [noise] })

/-- The representative of a number within the bound. -/
def representative (bound value : Int) : Int :=
  let rest := Int.fmod value (modulus bound)
  if bound < rest then rest - modulus bound else rest

/-- The first vector plus the second one times a challenge. -/
def combine (manager : NoiseManager) (first second : NoiseVector) (challenge : Int) :
    Except Failure NoiseVector :=
  if first.dimension ≠ second.dimension then .error (.noise .differentDimensions)
  else
    NoiseVector.make first.dimension
      ((first.elements.zip second.elements).map fun (a, b) =>
        representative manager.bound (a + challenge * b))
      manager.bound

end NoiseManager

end Zkvm.Folding
