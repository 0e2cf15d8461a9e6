import Mathlib.Algebra.Ring.Int.Defs
import Mathlib.Data.Nat.Bitwise
import Zkvm.Proofs.Machine.Ledger
import Zkvm.Proofs.Machine.StraightLine

/-!
# Signatures

A signature is the exclusive or of a message and a key, reduced to a word.  A verification keeps the
lowest bit of the exclusive or of signature, message and key, and accepts where it is one.  For a
signature of the same message and key it is zero.
-/
set_option autoImplicit false

namespace Zkvm.Machine

/-! ## Parity -/

theorem bitXor_emod_two (a b : Int) : bitXor a b % 2 = (a + b) % 2 := by
  rcases a with m | m <;> rcases b with n | n
  all_goals
    have bits : (m ^^^ n) % 2 = (m + n) % 2 := Nat.xor_mod_two_eq
    simp only [bitXor, Int.ofNat_eq_natCast, Int.negSucc_eq]
    omega

theorem word_emod_two (value : Int) : word value % 2 = value % 2 := by
  rw [word]
  omega

def signature (message key : Int) : Int :=
  word (bitXor message key)

/-- A verification tells whether a signature differs in its lowest bit from the one that is made. -/
theorem verified_iff_parity_differs (given message key : Int) :
    bitXor (bitXor given message) key % 2 =
      truth (decide (given % 2 ≠ signature message key % 2)) := by
  have lowest : bitXor (bitXor given message) key % 2 = (given + message + key) % 2 := by
    rw [bitXor_emod_two, Int.add_emod, bitXor_emod_two, ← Int.add_emod]
  have made : signature message key % 2 = (message + key) % 2 := by
    rw [signature, word_emod_two, bitXor_emod_two]
  rw [lowest, made, truth]
  split
  · next differs =>
      have parity := of_decide_eq_true differs
      omega
  · next same =>
      have parity := not_not.mp (of_decide_eq_false (Bool.eq_false_iff.mpr same))
      omega

/-! ## Lines of commands -/

section Lines
variable (ambient : Ambient) (inspector : Inspector)

/-- Every machine in the first state executes all commands and is left in the second. -/
def Leads (commands : List Command) (s t : State) : Prop :=
  ∀ m : Machine, m.state = s → ∃ left,
    sweep ambient inspector commands m = (left, none) ∧ left.state = t

variable {ambient inspector} {rest : List Command} {s t : State}

theorem leads_nil (s : State) : Leads ambient inspector [] s s :=
  fun m same => ⟨m, rfl, same⟩

theorem leads_cons {command : Command} {next : State} {said : List String}
    (done : step ambient command s = .done next said)
    (later : Leads ambient inspector rest { next with cycles := next.cycles + 1 } t) :
    Leads ambient inspector (command :: rest) s t := by
  rintro m rfl
  cases result : execute ambient inspector command m with
  | mk left fault =>
      have went : fault = none ∧ left.state = { next with cycles := next.cycles + 1 } := by
        simp only [execute, done, Prod.mk.injEq] at result
        obtain ⟨rfl, rfl⟩ := result
        exact ⟨rfl, rfl⟩
      obtain ⟨rfl, reached⟩ := went
      rw [sweep_went ambient inspector result]
      exact later left reached

end Lines

/-- Puts operands on the stack, the first lowest. -/
def pushes (values : List Int) : List Command :=
  values.map fun value => ⟨.push, [value]⟩

section Signing
variable {ambient : Ambient} {inspector : Inspector} {rest : List Command} {s t : State}

theorem leads_pushes (values : List Int)
    (later : Leads ambient inspector rest { s with
      stack := values.reverse ++ s.stack
      counter := s.counter + values.length
      cycles := s.cycles + values.length } t) :
        Leads ambient inspector (pushes values ++ rest) s t := by
  induction values generalizing s with
  | nil => simpa [pushes] using later
  | cons value more ih =>
      have counter : s.counter + (value :: more).length = s.counter + 1 + more.length := by
        rw [List.length_cons]
        omega
      have cycles : s.cycles + (value :: more).length = s.cycles + 1 + more.length := by
        rw [List.length_cons]
        omega
      rw [counter, cycles, List.reverse_cons, List.append_assoc] at later
      exact leads_cons rfl (ih later)

def signing (message key : Int) : List Command :=
  pushes [message, key] ++ [⟨.sign, []⟩]

def verifying (message key : Int) : List Command :=
  pushes [message, key] ++ [⟨.verify, []⟩]

theorem leads_signing (message key : Int)
    (later : Leads ambient inspector rest { s with
      stack := signature message key :: s.stack
      counter := s.counter + 3
      cycles := s.cycles + 3 } t) : Leads ambient inspector (signing message key ++ rest) s t := by
  have three : s.counter + 3 = s.counter + ([message, key] : List Int).length + 1 :=
    (Int.add_assoc _ 2 1).symm
  rw [three] at later
  rw [signing, List.append_assoc]
  exact leads_pushes [message, key] (leads_cons rfl later)

theorem leads_verifying {given : Int} {below : List Int} (top : s.stack = given :: below)
    (message key : Int) :
    Leads ambient inspector (verifying message key) s { s with
      stack := truth (decide (given % 2 ≠ signature message key % 2)) :: below
      counter := s.counter + 3
      cycles := s.cycles + 3
      signatures :=
        recordSignature message (decide (given % 2 ≠ signature message key % 2))
          s.signatures } := by
  have three : s.counter + 3 = s.counter + ([message, key] : List Int).length + 1 :=
    (Int.add_assoc _ 2 1).symm
  have one (accepts : Bool) : (truth accepts == 1) = accepts := by cases accepts <;> rfl
  have done (pushed : State) (stack : pushed.stack = key :: message :: given :: below) :
      step ambient ⟨.verify, []⟩ pushed = .done ({ pushed with
        signatures :=
          recordSignature message (decide (given % 2 ≠ signature message key % 2)) pushed.signatures
        }.advance (truth (decide (given % 2 ≠ signature message key % 2)) :: below)) [] := by
    change verify pushed = _
    rw [verify, stack]
    simp only [verified_iff_parity_differs, one]
  rw [three]
  refine leads_pushes [message, key] (leads_cons (done _ ?_) (leads_nil _))
  rw [top]
  rfl

end Signing

/-- No signature is accepted that the machine has made.  On every machine, signing a message with a
key and verifying the signature with the same two leaves zero on the stack and records that the
message is not verified; beyond that only the counter and the cycles move on.  A verification
accepts exactly the signatures that differ in their lowest bit from the one that is made. -/
theorem own_signature_refused (ambient : Ambient) (inspector : Inspector) (m : Machine)
    (message key : Int) :
    (∃ left, sweep ambient inspector (signing message key ++ verifying message key) m =
      (left, none) ∧
      left.state = { m.state with
        stack := 0 :: m.state.stack
        counter := m.state.counter + 6
        cycles := m.state.cycles + 6
        signatures := recordSignature message false m.state.signatures } ∧
      left.state.signatures.lookup message = some false) ∧
    ∀ given : Int, ∃ left, sweep ambient inspector (pushes [given] ++ verifying message key) m =
      (left, none) ∧
      left.state.stack = truth (decide (given % 2 ≠ signature message key % 2)) :: m.state.stack ∧
      left.state.signatures.lookup message =
        some (decide (given % 2 ≠ signature message key % 2)) := by
  constructor
  · obtain ⟨left, swept, state⟩ := leads_signing message key (leads_verifying rfl message key) m rfl
    have refused : decide (signature message key % 2 ≠ signature message key % 2) = false :=
      decide_eq_false (· rfl)
    have six : m.state.counter + 3 + 3 = m.state.counter + 6 := Int.add_assoc _ 3 3
    simp only [refused, six] at state
    refine ⟨left, swept, state, ?_⟩
    rw [state, lookup_recordSignature, if_pos rfl]
  · intro given
    obtain ⟨left, swept, state⟩ := leads_pushes [given] (leads_verifying rfl message key) m rfl
    refine ⟨left, swept, ?_, ?_⟩
    · rw [state]
      rfl
    · rw [state, lookup_recordSignature, if_pos rfl]

/-- The signature of five with the key three is not accepted for five with the key three. -/
theorem signature_of_five_refused :
    let m : Machine := ({} : Machine).loaded (signing 5 3 ++ verifying 5 3)
    let left := (run ⟨fun _ => 0, fun _ => 0, fun _ => 0⟩ none 6 m).1
    left.state.stack = [0] ∧ left.state.signatures.lookup 5 = some false := by
  decide +kernel

end Zkvm.Machine
