import BitStore.Text.Numeral
import Mathlib.Data.List.Basic
import Mathlib.Tactic.Lemma

namespace BitStore.Text

def Counts (cs : List Char) (value : Nat) : Prop :=
  ∃ sign digits, cs = sign ++ digits ∧ (sign = [] ∨ sign = ['+']) ∧ digits ≠ [] ∧ (∀ c ∈ digits, isDigit c = true) ∧
    numeralValue digits = value ∧ value ≤ maxCount

variable {n d : Nat} {cs digits : List Char}

section Digits

lemma toNat_digitChar : ∀ d < 10, (digitChar d).toNat = 48 + d := by decide

lemma isDigit_digitChar : ∀ d < 10, isDigit (digitChar d) = true := by decide

lemma digitValue_digitChar (hd : d < 10) : digitValue (digitChar d) = d := by
  rw [digitValue, toNat_digitChar d hd, Nat.add_sub_cancel_left]

lemma digitChar_ne_zero (hd : d < 10) (hpos : 0 < d) : digitChar d ≠ '0' := by
  intro h
  have hvalue := congrArg Char.toNat h
  rw [toNat_digitChar d hd] at hvalue
  simp at hvalue
  omega

end Digits

section Naturals

lemma natural_small (h : n < 10) : natural n = [digitChar n] := by rw [natural, if_pos h]

lemma natural_large (h : 10 ≤ n) : natural n = natural (n / 10) ++ [digitChar (n % 10)] := by
  rw [natural, if_neg (Nat.not_lt.mpr h)]

lemma natural_ne_nil (n : Nat) : natural n ≠ [] := by
  rw [natural]
  split <;> simp

lemma isDigit_of_mem_natural (n : Nat) : ∀ c ∈ natural n, isDigit c = true := by
  induction n using natural.induct with
  | case1 n h =>
    rw [natural_small h]
    exact List.forall_mem_singleton.mpr (isDigit_digitChar n h)
  | case2 n h ih =>
    rw [natural_large (Nat.not_lt.mp h)]
    exact List.forall_mem_append.mpr
      ⟨ih, List.forall_mem_singleton.mpr (isDigit_digitChar _ (Nat.mod_lt _ (by decide)))⟩

lemma natural_unpadded (h : 1 < (natural n).length) : (natural n).head? ≠ some '0' := by
  have hpos : ∀ n, 0 < n → (natural n).head? ≠ some '0' := by
    intro n
    induction n using natural.induct with
    | case1 n hn =>
      intro hpos
      rw [natural_small hn]
      exact fun h => digitChar_ne_zero hn hpos (Option.some.inj h)
    | case2 n hn ih =>
      intro _
      rw [natural_large (Nat.not_lt.mp hn), List.head?_append_of_ne_nil _ (natural_ne_nil _)]
      exact ih (by omega)
  refine hpos n (Nat.pos_of_ne_zero ?_)
  rintro rfl
  simp [natural_small] at h

lemma numeralValue_concat (cs : List Char) (c : Char) :
    numeralValue (cs ++ [c]) = 10 * numeralValue cs + digitValue c := List.foldl_append

@[simp] lemma numeralValue_natural (n : Nat) : numeralValue (natural n) = n := by
  induction n using natural.induct with
  | case1 n h =>
    rw [natural_small h]
    exact (Nat.zero_add _).trans (digitValue_digitChar h)
  | case2 n h ih =>
    rw [natural_large (Nat.not_lt.mp h), numeralValue_concat, ih, digitValue_digitChar (Nat.mod_lt _ (by decide))]
    omega

end Naturals

section Counts

lemma numeral?_eq_some_iff : numeral? cs = some n ↔ cs ≠ [] ∧ (∀ c ∈ cs, isDigit c = true) ∧ numeralValue cs = n := by
  rw [numeral?]
  simp [and_assoc]

lemma unsigned_digits (hdigits : ∀ c ∈ digits, isDigit c = true) : unsigned digits = digits := by
  rw [unsigned.eq_def]
  split
  · next cs => exact absurd (hdigits '+' List.mem_cons_self) (by decide)
  · rfl

lemma unsigned_cut (cs : List Char) : ∃ sign, cs = sign ++ unsigned cs ∧ (sign = [] ∨ sign = ['+']) := by
  rw [unsigned.eq_def]
  split
  · exact ⟨['+'], rfl, .inr rfl⟩
  · exact ⟨[], rfl, .inl rfl⟩

theorem count?_eq_some_iff : count? cs = some n ↔ Counts cs n := by
  rw [count?, Option.filter_eq_some_iff, numeral?_eq_some_iff, decide_eq_true_eq]
  constructor
  · rintro ⟨⟨hne, hdigits, hvalue⟩, hn⟩
    obtain ⟨sign, hcs, hsign⟩ := unsigned_cut cs
    exact ⟨sign, unsigned cs, hcs, hsign, hne, hdigits, hvalue, hn⟩
  · rintro ⟨sign, digits, rfl, hsign, hne, hdigits, hvalue, hn⟩
    have hunsigned : unsigned (sign ++ digits) = digits := by
      rcases hsign with rfl | rfl
      · exact unsigned_digits hdigits
      · rfl
    rw [hunsigned]
    exact ⟨⟨hne, hdigits, hvalue⟩, hn⟩

end Counts

end BitStore.Text
