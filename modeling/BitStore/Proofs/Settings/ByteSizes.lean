import BitStore.ByteSize
import BitStore.Proofs.Text.Blanks
import BitStore.Proofs.Text.Numerals
import Mathlib.Data.List.Find

namespace BitStore

namespace Text

def CutsBytes (s front : List Char) (n : Nat) : Prop :=
  ∃ back, s = front ++ back ∧ (String.ofList back).utf8ByteSize = n

variable {cs : List Char} {c : Char} {n : Nat}

lemma not_isBlank_of_isDigit (hc : isDigit c = true) : isBlank c = false := by
  simp only [isDigit, Bool.and_eq_true, decide_eq_true_eq] at hc
  obtain ⟨hlow, hhigh⟩ : 48 ≤ c.toNat ∧ c.toNat ≤ 57 := hc
  simp only [isBlank, Bool.or_eq_false_iff, Bool.and_eq_false_iff, decide_eq_false_iff_not, beq_eq_false_iff_ne]
  omega

lemma Counts.last (h : Counts cs n) : ∃ front c, cs = front ++ [c] ∧ isDigit c = true := by
  obtain ⟨sign, digits, rfl, _, hne, hdigits, _⟩ := h
  refine ⟨sign ++ digits.dropLast, digits.getLast hne, ?_, hdigits _ (List.getLast_mem hne)⟩
  rw [List.append_assoc, List.dropLast_append_getLast]

lemma Counts.bare (h : Counts cs n) : Bare cs := by
  obtain ⟨front, last, hlast, hc⟩ := h.last
  obtain ⟨sign, digits, rfl, hsign, hne, hdigits, _⟩ := h
  refine ⟨fun d hd => ?_, fun d hd => ?_⟩
  · rcases hsign with rfl | rfl
    · exact not_isBlank_of_isDigit (hdigits d (List.mem_of_mem_head? hd))
    · cases hd
      decide
  · rw [hlast, List.getLast?_concat] at hd
    cases hd
    exact not_isBlank_of_isDigit hc

end Text

namespace ByteSize

open Text

def spellings : List (List Char × Nat) :=
  [([], 1), (['B'], 1),
   (['K'], 1024), (['K', 'B'], 1024), (['K', 'i', 'B'], 1024),
   (['M'], 1048576), (['M', 'B'], 1048576), (['M', 'i', 'B'], 1048576),
   (['G'], 1073741824), (['G', 'B'], 1073741824), (['G', 'i', 'B'], 1073741824)]

def SameLetters (a b : List Char) : Prop := a.map Char.toUpper = b.map Char.toUpper

instance (a b : List Char) : Decidable (SameLetters a b) := inferInstanceAs (Decidable (_ = _))

def Amount (s : List Char) (value factor : Nat) : Prop :=
  ∃ count gap unit name, s = count ++ gap ++ unit ∧ Counts count value ∧ AllBlank gap ∧ (name, factor) ∈ spellings ∧
    SameLetters unit name

def letters : List Char := ['G', 'M', 'K', 'I', 'B']

def unitOf (s : List Char) : List Char × Nat :=
  (units.find? fun u => u.1.isSuffixOf (s.map Char.toUpper)).getD ([], 1)

variable {s p q unit name : List Char} {c : Char} {u : List Char × Nat} {value factor : Nat}

section Units

lemma letters_of_mem_units : ∀ u ∈ ([], 1) :: units, ∀ c ∈ u.1, c ∈ letters := by simp [units, letters]

lemma spelling_of_mem_units : ∀ u ∈ ([], 1) :: units, ∃ x ∈ spellings, x.2 = u.2 ∧ x.1.map Char.toUpper = u.1 := by
  decide

lemma unitOf_spelling : ∀ x ∈ spellings, unitOf x.1 = (x.1.map Char.toUpper, x.2) := by decide

lemma toUpper_mem (hc : c ∈ letters) : c.toUpper ∈ letters := by
  have hsame : letters.map Char.toUpper = letters := by decide
  have hupper := List.mem_map_of_mem (f := Char.toUpper) hc
  rwa [hsame] at hupper

lemma unitOf_mem (s : List Char) : unitOf s ∈ ([], 1) :: units ∧ (unitOf s).1 <:+ s.map Char.toUpper := by
  rw [unitOf]
  cases hu : units.find? fun u => u.1.isSuffixOf (s.map Char.toUpper) with
  | none => exact ⟨List.mem_cons_self, List.nil_suffix⟩
  | some u =>
    have hsuffix := List.find?_some hu
    exact ⟨List.mem_cons_of_mem _ (List.mem_of_find?_eq_some hu), List.isSuffixOf_iff_suffix.mp hsuffix⟩

lemma isSuffixOf_append (hc : c ∉ p) : p.isSuffixOf (q ++ c :: s) = p.isSuffixOf s := by
  rw [Bool.eq_iff_iff, List.isSuffixOf_iff_suffix, List.isSuffixOf_iff_suffix]
  refine ⟨fun h => ?_, fun h => h.trans ((List.suffix_cons c s).trans (List.suffix_append q _))⟩
  rcases List.suffix_or_suffix_of_suffix h (List.suffix_append q (c :: s)) with h | h
  · exact (List.suffix_cons_iff.mp h).resolve_left (by rintro rfl; exact hc List.mem_cons_self)
  · exact absurd (h.subset List.mem_cons_self) hc

lemma unitOf_append (hc : c.toUpper ∉ letters) (hunit : SameLetters unit name) :
    unitOf (q ++ c :: unit) = unitOf name := by
  rw [unitOf, unitOf, ← hunit]
  congr 1
  refine List.find?_congr fun u hu => ?_
  rw [List.map_append, List.map_cons,
    isSuffixOf_append fun h => hc (letters_of_mem_units u (List.mem_cons_of_mem _ hu) _ h)]

lemma forall_ascii {P : Char → Prop} (h : ∀ n < 128, P (Char.ofNat n)) (hc : c.toNat < 128) : P c := by
  have hp := h c.toNat hc
  rwa [Char.ofNat_toNat] at hp

lemma toUpper_of_large (hc : ¬c.toNat < 128) : c.toUpper = c := by
  exact dif_neg fun h => hc (Nat.lt_of_le_of_lt (UInt32.le_iff_toNat_le.mp h.2) (by decide))

lemma mem_of_toUpper (hc : c.toUpper ∈ letters) : c ∈ letters ++ letters.map Char.toLower := by
  by_cases hn : c.toNat < 128
  · exact forall_ascii (P := fun c => c.toUpper ∈ letters → c ∈ letters ++ letters.map Char.toLower) (by decide) hn hc
  · rw [toUpper_of_large hn] at hc
    exact List.mem_append_left _ hc

lemma toUpper_digit (hc : isDigit c = true ∨ isDigit c.toUpper = true) : c.toUpper = c := by
  by_cases hn : c.toNat < 128
  · exact forall_ascii (P := fun c => isDigit c = true ∨ isDigit c.toUpper = true → c.toUpper = c) (by decide) hn hc
  · exact toUpper_of_large hn

lemma utf8Size_of_toUpper (hc : c.toUpper ∈ letters) : c.utf8Size = 1 := by
  have hone : ((letters ++ letters.map Char.toLower).all fun c => c.utf8Size == 1) = true := by decide
  exact eq_of_beq (List.all_eq_true.mp hone c (mem_of_toUpper hc))

lemma toUpper_not_mem (hc : isDigit c = true ∨ isBlank c = true) : c.toUpper ∉ letters := by
  have hnone : ((letters ++ letters.map Char.toLower).all fun c => !(isDigit c || isBlank c)) = true := by decide
  intro h
  have hother := List.all_eq_true.mp hnone c (mem_of_toUpper h)
  rw [Bool.not_eq_true', ← Bool.not_eq_true, Bool.or_eq_true] at hother
  exact hother hc

lemma utf8ByteSize_of_toUpper (h : ∀ c ∈ s, c.toUpper ∈ letters) : (String.ofList s).utf8ByteSize = s.length := by
  induction s with
  | nil => rfl
  | cons c s ih =>
    obtain ⟨hc, hs⟩ := List.forall_mem_cons.mp h
    rw [String.ofList_cons, String.utf8ByteSize_append, String.utf8ByteSize_singleton, utf8Size_of_toUpper hc, ih hs,
      List.length_cons, Nat.add_comm]

end Units

section Cutting

lemma splitUnit_eq (s : List Char) :
    splitUnit s = (s.take (s.length - (unitOf s).1.length), (unitOf s).2) := by
  rw [splitUnit, unitOf]
  split
  · next h => rw [h]; rfl
  · next h => rw [h]; exact congrArg (·, 1) (List.take_length ..).symm

lemma splitUnit_of_unitOf (hs : (unitOf (q ++ unit)).1.length = unit.length) :
    splitUnit (q ++ unit) = (q, (unitOf (q ++ unit)).2) := by
  rw [splitUnit_eq, hs, List.length_append, Nat.add_sub_cancel, List.take_left]

lemma splitUnit_cut (s : List Char) : ∃ unit, s = (splitUnit s).1 ++ unit ∧ unit.map Char.toUpper = (unitOf s).1 := by
  obtain ⟨unit, ⟨front, rfl⟩, hunit⟩ := List.suffix_map_iff.mp (unitOf_mem s).2
  refine ⟨unit, ?_, hunit.symm⟩
  rw [splitUnit_of_unitOf (by rw [hunit, List.length_map])]

lemma splitUnit_bytes (hu : (units.find? fun u => u.1.isSuffixOf (s.map Char.toUpper)) = some u) :
    CutsBytes s (splitUnit s).1 (String.ofList u.1).utf8ByteSize := by
  obtain ⟨unit, hs, hunit⟩ := splitUnit_cut s
  rw [unitOf, hu, Option.getD_some] at hunit
  have hletters := letters_of_mem_units u (List.mem_cons_of_mem _ (List.mem_of_find?_eq_some hu))
  refine ⟨unit, hs, ?_⟩
  have hname : (String.ofList u.1).utf8ByteSize = u.1.length :=
    utf8ByteSize_of_toUpper fun c hc => toUpper_mem (hletters c hc)
  rw [hname, ← hunit, List.length_map]
  rw [← hunit] at hletters
  exact utf8ByteSize_of_toUpper (List.forall_mem_map.mp hletters)

lemma splitUnit_append (hc : c.toUpper ∉ letters) (hname : (name, factor) ∈ spellings) (hunit : SameLetters unit name) :
    splitUnit (q ++ [c] ++ unit) = (q ++ [c], factor) := by
  have hfound : unitOf (q ++ [c] ++ unit) = (unit.map Char.toUpper, factor) := by
    rw [List.append_assoc, List.singleton_append, unitOf_append hc hunit, hunit, unitOf_spelling _ hname]
  rw [splitUnit_of_unitOf (by rw [hfound, List.length_map]), hfound]

end Cutting

section Amounts

lemma Amount.splitUnit (h : Amount s value factor) :
    ∃ count gap, splitUnit s = (count ++ gap, factor) ∧ Counts count value ∧ AllBlank gap := by
  obtain ⟨count, gap, unit, name, rfl, hcount, hgap, hname, hunit⟩ := h
  obtain ⟨front, digit, hlast, hdigit⟩ := hcount.last
  -- The unit stands behind a blank or, if there is none, behind a digit.
  have hbefore : ∃ q c, count ++ gap = q ++ [c] ∧ (isDigit c = true ∨ isBlank c = true) := by
    rcases List.eq_nil_or_concat gap with rfl | ⟨gap, c, rfl⟩
    · exact ⟨front, digit, by rw [List.append_nil, hlast], .inl hdigit⟩
    · exact ⟨count ++ gap, c, by simp, .inr (hgap c (by simp))⟩
  obtain ⟨q, c, hq, hc⟩ := hbefore
  refine ⟨count, gap, ?_, hcount, hgap⟩
  rw [hq, splitUnit_append (toUpper_not_mem hc) hname hunit]

lemma amount_of_splitUnit (hs : Bare s) (hcount : count? (trim (splitUnit s).1) = some value) :
    Amount s value (splitUnit s).2 := by
  obtain ⟨unit, hcut, hunit⟩ := splitUnit_cut s
  obtain ⟨_, front, gap, hnumber, hfront, hgap⟩ := trims_trim (splitUnit s).1
  obtain ⟨⟨name, factor⟩, hname, hfactor, hupper⟩ := spelling_of_mem_units _ (unitOf_mem s).1
  have hbare := (count?_eq_some_iff.mp hcount).bare
  have hnone : front = [] := by
    cases front with
    | nil => rfl
    | cons c front =>
      have hhead : s.head? = some c := by rw [hcut, hnumber]; rfl
      exact absurd (hfront c List.mem_cons_self) (by simp [hs.head c hhead])
  subst hnone
  refine ⟨_, gap, unit, name, ?_, count?_eq_some_iff.mp hcount, hgap, ?_, hunit.trans hupper.symm⟩
  · rw [← List.nil_append (trim _), ← hnumber, ← hcut]
  · rwa [splitUnit_eq, ← hfactor]

theorem amount_iff (hs : Bare s) :
    Amount s value factor ↔ count? (trim (splitUnit s).1) = some value ∧ (splitUnit s).2 = factor := by
  constructor
  · intro h
    obtain ⟨count, gap, hsplit, hcount, hgap⟩ := h.splitUnit
    have htrim := trim_around allBlank_nil hgap hcount.bare
    rw [List.nil_append] at htrim
    rw [hsplit, htrim]
    exact ⟨count?_eq_some_iff.mpr hcount, rfl⟩
  · rintro ⟨hcount, rfl⟩
    exact amount_of_splitUnit hs hcount

end Amounts

lemma parse_none {text : List Char} (h : count? (trim (splitUnit (trim text)).1) = none) :
    parse text = .error (.byteSize (String.ofList (trim text))) := by
  simp only [parse, h]

lemma parse_some {text : List Char} (h : count? (trim (splitUnit (trim text)).1) = some value) : parse text =
    if value * (splitUnit (trim text)).2 ≤ maxCount then .ok ⟨value * (splitUnit (trim text)).2⟩
    else .error (.byteSizeOverflow (String.ofList (trim text))) := by
  simp only [parse, h]
  by_cases hfits : value * (splitUnit (trim text)).2 ≤ maxCount
  · rw [Checked.mul?, if_pos hfits, if_pos hfits]
  · rw [Checked.mul?, if_neg hfits, if_neg hfits]

/-- Every text is read as an amount or refused, and which of the two depends on the grammar alone. The unit is cut
off by its length in bytes, and that never splits a character. -/
theorem parse_exactly (text : List Char) : Trims text (trim text) ∧
    (∀ u, (units.find? fun u => u.1.isSuffixOf ((trim text).map Char.toUpper)) = some u →
      CutsBytes (trim text) (splitUnit (trim text)).1 (String.ofList u.1).utf8ByteSize) ∧
    (∀ b, parse text = .ok b ↔
      ∃ value factor, Amount (trim text) value factor ∧ value * factor = b.bytes ∧ b.bytes ≤ maxCount) ∧
    (parse text = .error (.byteSizeOverflow (String.ofList (trim text))) ↔
      ∃ value factor, Amount (trim text) value factor ∧ maxCount < value * factor) ∧
    (parse text = .error (.byteSize (String.ofList (trim text))) ↔ ¬∃ value factor, Amount (trim text) value factor) := by
  have htrims := trims_trim text
  refine ⟨htrims, fun u hu => splitUnit_bytes hu, ?_⟩
  simp only [amount_iff htrims.bare]
  cases hcount : count? (trim (splitUnit (trim text)).1) with
  | none => simp [parse_none hcount]
  | some value =>
    rw [parse_some hcount]
    split
    · next hfits =>
      refine ⟨fun b => ?_, by simp [Nat.not_lt.mpr hfits], by simp⟩
      constructor
      · rintro ⟨⟩
        exact ⟨value, _, ⟨rfl, rfl⟩, rfl, hfits⟩
      · rintro ⟨_, _, ⟨⟨⟩, rfl⟩, hb, _⟩
        rw [hb]
    · next hfits =>
      refine ⟨fun b => ?_, by simpa using Nat.not_le.mp hfits, by simp⟩
      simp only [reduceCtorEq, false_iff]
      rintro ⟨_, _, ⟨⟨⟩, rfl⟩, hb, hle⟩
      exact hfits (hb ▸ hle)

theorem parse_exactly_spaced :
    (units.find? fun u => u.1.isSuffixOf ("+12\u00a0kIb".toList.map Char.toUpper)) = some (['K', 'I', 'B'], 1024) ∧
    CutsBytes "+12\u00a0kIb".toList "+12\u00a0".toList 3 ∧ parse "\u3000+12\u00a0kIb\n".toList = .ok ⟨12288⟩ := by
  have htrim : trim "\u3000+12\u00a0kIb\n".toList = "+12\u00a0kIb".toList := by decide +kernel
  have hunit : (units.find? fun u => u.1.isSuffixOf ("+12\u00a0kIb".toList.map Char.toUpper)) =
      some (['K', 'I', 'B'], 1024) := by decide +kernel
  have hamount : Amount "+12\u00a0kIb".toList 12 1024 :=
    ⟨['+', '1', '2'], ['\u00a0'], ['k', 'I', 'b'], ['K', 'i', 'B'], by decide +kernel,
      ⟨['+'], ['1', '2'], rfl, .inr rfl, nofun, by simp [isDigit], by decide, by decide⟩, by decide, by decide, rfl⟩
  obtain ⟨_, hcut, hok, _⟩ := parse_exactly "\u3000+12\u00a0kIb\n".toList
  rw [htrim] at hcut hok
  exact ⟨hunit, hcut _ hunit, (hok ⟨12288⟩).mpr ⟨12, 1024, hamount, rfl, by decide⟩⟩

end ByteSize

end BitStore
