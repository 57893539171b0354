import BitStore.Checked
import Mathlib.Order.Bounds.Basic
import Mathlib.Tactic.Lemma

/-! The sum is checked and not the multiple below it, so where the step does not divide 2^64 a few counts are
refused whose least multiple would still fit. -/

namespace BitStore

variable {n step k m : Nat} {f : Fault}

def leastMultiple (n step : Nat) : Nat := step * ((n + (step - 1)) / step)

lemma leastMultiple_le (n step : Nat) : leastMultiple n step ≤ n + (step - 1) := Nat.mul_div_le _ _

lemma isLeast_leastMultiple (n : Nat) (hstep : 0 < step) :
    IsLeast {k | n ≤ k ∧ step ∣ k} (leastMultiple n step) := by
  refine ⟨⟨?_, Nat.dvd_mul_right _ _⟩, ?_⟩
  · have hlt := Nat.lt_mul_div_succ (n + (step - 1)) hstep
    rw [Nat.mul_succ] at hlt
    change n ≤ step * _
    omega
  · rintro _ ⟨hn, j, rfl⟩
    refine Nat.mul_le_mul_left step (Nat.le_of_lt_succ ((Nat.div_lt_iff_lt_mul hstep).mpr ?_))
    rw [Nat.succ_mul, Nat.mul_comm]
    omega

lemma leastMultiple_fits_iff (n : Nat) (hstep : 0 < step) :
    leastMultiple n step ≤ maxCount ↔ n ≤ step * (maxCount / step) := by
  obtain ⟨⟨hle, hdvd⟩, hleast⟩ := isLeast_leastMultiple n hstep
  refine ⟨fun h => Nat.le_trans hle ?_, fun h => Nat.le_trans (hleast ⟨h, Nat.dvd_mul_right _ _⟩) (Nat.mul_div_le _ _)⟩
  obtain ⟨j, hj⟩ := hdvd
  rw [hj] at h ⊢
  exact Nat.mul_le_mul_left step ((Nat.le_div_iff_mul_le hstep).mpr (by rwa [Nat.mul_comm]))

lemma sum_fits_of_dvd (hstep : 0 < step) (hdvd : step ∣ maxCount + 1) (h : leastMultiple n step ≤ maxCount) :
    n + (step - 1) ≤ maxCount := by
  obtain ⟨⟨hle, hmultiple⟩, _⟩ := isLeast_leastMultiple n hstep
  have hroom := Nat.le_of_dvd (by omega) (Nat.dvd_sub hdvd hmultiple)
  omega

lemma roundUp_of_pos (n : Nat) (hstep : 0 < step) :
    roundUp n step = .ok (if n + (step - 1) ≤ maxCount then some (leastMultiple n step) else none) := by
  have hslack : Checked.sub step 1 = .ok (step - 1) := Checked.sub_eq_ok_iff.mpr (by omega)
  rw [roundUp, hslack]
  change Except.ok ((Checked.add? n (step - 1)).map fun sum => step * (sum / step)) = _
  rw [Checked.add?]
  split <;> rfl

lemma roundUp_eq_error_iff : roundUp n step = .error f ↔ step = 0 ∧ f = .subOverflow := by
  rcases Nat.eq_zero_or_pos step with rfl | hstep
  · simp [roundUp, Checked.sub, bind, Except.bind, eq_comm]
  · simp [roundUp_of_pos n hstep, Nat.ne_of_gt hstep]

lemma roundUp_eq_some_iff : roundUp n step = .ok (some m) ↔
    0 < step ∧ n + (step - 1) ≤ maxCount ∧ leastMultiple n step = m := by
  rcases Nat.eq_zero_or_pos step with rfl | hstep
  · simp [roundUp_eq_error_iff.mpr ⟨rfl, rfl⟩]
  · simp [roundUp_of_pos n hstep, hstep]

lemma roundUp_mod (hstep : step % k = 0) (h : roundUp n step = .ok (some m)) : m % k = 0 := by
  obtain ⟨_, _, rfl⟩ := roundUp_eq_some_iff.mp h
  rw [leastMultiple, Nat.mul_mod, hstep, Nat.zero_mul, Nat.zero_mod]

lemma roundUp_ge (h : roundUp n step = .ok (some m)) : n ≤ m := by
  obtain ⟨hstep, _, rfl⟩ := roundUp_eq_some_iff.mp h
  exact (isLeast_leastMultiple n hstep).1.1

theorem roundUp_least (n : Nat) (hstep : 0 < step) : ∃ m, IsLeast {k | n ≤ k ∧ step ∣ k} m ∧
    roundUp n step = .ok (if n + (step - 1) ≤ maxCount then some m else none) ∧
    (m ≤ maxCount ↔ n ≤ step * (maxCount / step)) ∧
    (n + (step - 1) ≤ maxCount → m ≤ maxCount) ∧
    (step ∣ maxCount + 1 → m ≤ maxCount → n + (step - 1) ≤ maxCount) :=
  ⟨_, isLeast_leastMultiple n hstep, roundUp_of_pos n hstep, leastMultiple_fits_iff n hstep,
    Nat.le_trans (leastMultiple_le n step), sum_fits_of_dvd hstep⟩

theorem roundUp_least_page : roundUp 18446744073709547520 4096 = .ok (some 18446744073709547520) ∧
    roundUp 18446744073709547521 4096 = .ok none := by
  have hstep : 0 < 4096 := by decide
  obtain ⟨m, hm, hround, _⟩ := roundUp_least 18446744073709547520 hstep
  obtain ⟨_, _, hround', _⟩ := roundUp_least 18446744073709547521 hstep
  have hself : m = 18446744073709547520 := hm.unique ⟨⟨Nat.le_refl _, by decide⟩, fun k hk => hk.1⟩
  rw [if_pos (by decide), hself] at hround
  rw [if_neg (by decide)] at hround'
  exact ⟨hround, hround'⟩

theorem roundUp_refuses_multiple : IsLeast {k | maxCount ≤ k ∧ 3 ∣ k} maxCount ∧ roundUp maxCount 3 = .ok none :=
  ⟨⟨⟨Nat.le_refl _, by decide⟩, fun _ hk => hk.1⟩, rfl⟩

end BitStore
