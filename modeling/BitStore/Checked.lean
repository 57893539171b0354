import BitStore.Fault

namespace BitStore

def maxCount : Nat := 0xffffffffffffffff

def maxSigned : Nat := 0x7fffffffffffffff

def FitsSigned (n : Int) : Prop := -(maxSigned : Int) - 1 ≤ n ∧ n ≤ maxSigned

instance (n : Int) : Decidable (FitsSigned n) := inferInstanceAs (Decidable (_ ∧ _))

namespace Checked

def add (a b : Nat) : Except Fault Nat :=
  if a + b ≤ maxCount then .ok (a + b) else .error .addOverflow

def sub (a b : Nat) : Except Fault Nat :=
  if b ≤ a then .ok (a - b) else .error .subOverflow

def mul (a b : Nat) : Except Fault Nat :=
  if a * b ≤ maxCount then .ok (a * b) else .error .mulOverflow

def addSigned (a b : Int) : Except Fault Int :=
  if -(maxSigned : Int) - 1 ≤ a + b ∧ a + b ≤ maxSigned then .ok (a + b) else .error .addOverflow

def add? (a b : Nat) : Option Nat :=
  if a + b ≤ maxCount then some (a + b) else none

def mul? (a b : Nat) : Option Nat :=
  if a * b ≤ maxCount then some (a * b) else none

variable {a b c : Nat}

theorem add_eq_ok_iff : add a b = .ok c ↔ a + b = c ∧ c ≤ maxCount := by
  rw [add]
  split <;> simp <;> omega

theorem sub_eq_ok_iff : sub a b = .ok c ↔ b + c = a := by
  rw [sub]
  split <;> simp <;> omega

theorem mul_eq_ok_iff : mul a b = .ok c ↔ a * b = c ∧ c ≤ maxCount := by
  rw [mul]
  split <;> simp <;> omega

theorem addSigned_eq_ok_iff {a b c : Int} :
    addSigned a b = .ok c ↔ a + b = c ∧ -(maxSigned : Int) - 1 ≤ c ∧ c ≤ maxSigned := by
  rw [addSigned]
  split <;> simp <;> omega

theorem addSigned_of_fits {a b : Int} (h : FitsSigned (a + b)) : addSigned a b = .ok (a + b) :=
  addSigned_eq_ok_iff.mpr ⟨rfl, h⟩

end Checked

def roundUp (n step : Nat) : Except Fault (Option Nat) := do
  let slack ← Checked.sub step 1
  return (Checked.add? n slack).map fun m => step * (m / step)

def wordBytes? (bits : Nat) : Option Nat :=
  (Checked.add? bits 63).map fun b => b / 64 * 8

/-- The bytes reserved for `bits` bits: a spare word stands behind every whole number of words, so
that the word which holds position `bits` always exists. -/
def paddedBytes? (bits : Nat) : Option Nat :=
  (Checked.add? bits 64).map fun b => b / 64 * 8

end BitStore
