import BitStore.Proofs.Json.Reading
import BitStore.Proofs.Text.Numerals

namespace BitStore.Json

variable {α : Type} {a : α} {cs ds rest : List Char} {c : Char} {n : Nat}

section Numbers

lemma continues_of_isDigit (h : Text.isDigit c = true) : continues c = true := by simp [continues, h]

namespace Numeral

lemma digits_append (hds : ∀ c ∈ ds, Text.isDigit c = true) (hrest : Ends rest) : digits (ds ++ rest) = (ds, rest) := by
  have htake : rest.takeWhile Text.isDigit = [] ∧ rest.dropWhile Text.isDigit = rest := by
    cases rest with
    | nil => exact ⟨rfl, rfl⟩
    | cons c rest =>
      have hc : ¬Text.isDigit c = true := fun h => absurd (hrest c rfl) (by simp [continues_of_isDigit h])
      exact ⟨List.takeWhile_cons_of_neg hc, List.dropWhile_cons_of_neg hc⟩
  rw [digits, List.takeWhile_append_of_pos hds, List.dropWhile_append_of_pos hds, htake.1, htake.2, List.append_nil]

lemma wholeDigits_natural (n : Nat) (hrest : Ends rest) :
    wholeDigits (Text.natural n ++ rest) = .ok (Text.natural n, rest) := by
  have hsome : someDigits (Text.natural n ++ rest) = .ok (Text.natural n, rest) := by
    rw [someDigits, digits_append (Text.isDigit_of_mem_natural n) hrest]
    split
    · next h => exact absurd (congrArg Prod.fst h) (Text.natural_ne_nil n)
    · next h => exact absurd (congrArg Prod.fst h) (Text.natural_ne_nil n)
    · rfl
  have hunpadded : ¬((Text.natural n).head? = some '0' ∧ 1 < (Text.natural n).length) :=
    fun h => Text.natural_unpadded h.2 h.1
  rw [wholeDigits, hsome]
  exact if_neg (by simpa using hunpadded)

lemma fractionDigits_ends (hrest : Ends rest) : fractionDigits rest = .ok ([], rest) := by
  rw [fractionDigits.eq_def]
  split
  · next cs => exact absurd (hrest '.' rfl) (by decide)
  · rfl

lemma exponentPart_ends (hrest : Ends rest) : exponentPart rest = .ok (none, rest) := by
  cases rest with
  | nil => rfl
  | cons c rest =>
    have hc := hrest c rfl
    simp only [continues, Bool.or_eq_false_iff, decide_eq_false_iff_not] at hc
    exact if_neg (by simp [hc])

lemma unsigned_natural (negative : Bool) (n : Nat) (hrest : Ends rest) :
    (do
      let (whole, cs) ← wholeDigits (Text.natural n ++ rest)
      let (fraction, cs) ← fractionDigits cs
      let (exponent, cs) ← exponentPart cs
      return ((⟨negative, whole, fraction, exponent⟩ : Numeral), cs)) =
      (.ok (⟨negative, Text.natural n, [], none⟩, rest) : Except Failure (Numeral × List Char)) := by
  rw [wholeDigits_natural n hrest]
  change (fractionDigits rest >>= _) = _
  rw [fractionDigits_ends hrest]
  change (exponentPart rest >>= _) = _
  rw [exponentPart_ends hrest]
  rfl

lemma scan_natural (n : Nat) (hrest : Ends rest) :
    scan (Text.natural n ++ rest) = .ok (⟨false, Text.natural n, [], none⟩, rest) := by
  rw [scan]
  · exact unsigned_natural false n hrest
  · intro cs hcs
    obtain ⟨c, ds, hds⟩ := List.exists_cons_of_ne_nil (Text.natural_ne_nil n)
    rw [hds] at hcs
    obtain ⟨rfl, -⟩ := List.cons.inj hcs
    exact absurd (Text.isDigit_of_mem_natural n '-' (hds ▸ List.mem_cons_self)) (by decide)

lemma scan_negative (n : Nat) (hrest : Ends rest) :
    scan ('-' :: Text.natural n ++ rest) = .ok (⟨true, Text.natural n, [], none⟩, rest) :=
  unsigned_natural true n hrest

def extend (m : Nat) (c : Char) : Nat := 10 * m + Text.digitValue c

lemma le_foldl_extend (cs : List Char) (m : Nat) : m ≤ cs.foldl extend m := by
  induction cs generalizing m with
  | nil => exact Nat.le_refl m
  | cons c cs ih =>
    have hgrows : m ≤ extend m c := by
      rw [extend]
      omega
    exact Nat.le_trans hgrows (ih _)

lemma gather_of_fits {m : Nat} (h : cs.foldl extend m ≤ maxCount) : gather m cs = (cs.foldl extend m, []) := by
  induction cs generalizing m with
  | nil => rfl
  | cons c cs ih =>
    rw [gather]
    exact (if_pos (Nat.le_trans (le_foldl_extend cs _) h)).trans (ih h)

lemma gather_natural (h : n ≤ maxCount) : gather 0 (Text.natural n) = (n, []) := by
  have hvalue : (Text.natural n).foldl extend 0 = n := Text.numeralValue_natural n
  rw [gather_of_fits (hvalue.symm ▸ h), hvalue]

lemma toNumber?_natural (h : n ≤ maxCount) : toNumber? ⟨false, Text.natural n, [], none⟩ = some (.count n) := by
  rw [toNumber?, gather_natural h]
  rfl

lemma toNumber?_negative (hpos : 0 < n) (h : n ≤ maxSigned + 1) :
    toNumber? ⟨true, Text.natural n, [], none⟩ = some (.negative n) := by
  rw [toNumber?, gather_natural (Nat.le_trans h (by decide))]
  change (if (decide (0 < n) && decide (n ≤ maxSigned + 1)) = true then some (Number.negative n) else _) = _
  rw [if_pos (by simp [hpos, h])]

end Numeral

namespace Reader

lemma number_of_scan {text : List Char} {x : Numeral} {m : Number} (hscan : Numeral.scan text = .ok (x, rest))
    (hx : x.toNumber? = some m) : number text = .ok (m, rest) := by
  rw [number, hscan]
  simp only [bind, Except.bind, hx]
  rfl

lemma number_natural (h : n ≤ maxCount) (hrest : Ends rest) :
    number (Text.natural n ++ rest) = .ok (.count n, rest) :=
  number_of_scan (Numeral.scan_natural n hrest) (Numeral.toNumber?_natural h)

lemma number_negative (hpos : 0 < n) (h : n ≤ maxSigned + 1) (hrest : Ends rest) :
    number ('-' :: Text.natural n ++ rest) = .ok (.negative n, rest) :=
  number_of_scan (Numeral.scan_negative n hrest) (Numeral.toNumber?_negative hpos h)

variable {text : List Char} {expected : String} {take : Number → Except Mismatch α} {x : Number}

lemma begins_number (hc : c = '-' ∨ Text.isDigit c = true) : isSpace c = false ∧ c ≠ ']' := by
  rcases hc with rfl | hc
  · decide
  · refine ⟨Bool.eq_false_iff.mpr fun hspace => ?_, ?_⟩
    · exact absurd (continues_of_isDigit hc) (by simp [continues_of_isSpace hspace])
    · rintro rfl
      exact absurd hc (by decide)

lemma reads_numberAs (hbegins : ∃ c later, text = c :: later ∧ (c = '-' ∨ Text.isDigit c = true))
    (hnumber : ∀ rest, Ends rest → number (text ++ rest) = .ok (x, rest)) (htake : take x = .ok a) :
    Reads (numberAs expected take) text a where
  begins := by
    obtain ⟨c, later, rfl, hc⟩ := hbegins
    exact ⟨c, later, rfl, begins_number hc⟩
  reads space rest hspace hrest := by
    obtain ⟨c, later, rfl, hc⟩ := hbegins
    have hnumber := hnumber rest hrest
    rw [List.append_assoc, List.cons_append] at *
    rw [numberAs, bind_ok (peekValue_some hspace (begins_number hc).1), if_pos (by simpa using hc), bind_ok hnumber]
    rw [htake]
    rfl

lemma reads_natural (h : n ≤ maxCount) (htake : take (.count n) = .ok a) :
    Reads (numberAs expected take) (Text.natural n) a := by
  refine reads_numberAs ?_ (fun rest hrest => number_natural h hrest) htake
  obtain ⟨c, ds, hds⟩ := List.exists_cons_of_ne_nil (Text.natural_ne_nil n)
  exact ⟨c, ds, hds, .inr (Text.isDigit_of_mem_natural n c (hds ▸ List.mem_cons_self))⟩

theorem unsigned_reads (h : n ≤ maxCount) (expected : String) : Reads (unsigned expected) (Text.natural n) n :=
  reads_natural h rfl

theorem signed_reads {n : Int} (h : FitsSigned n) (expected : String) :
    Reads (signed expected) (Text.integer n) n := by
  obtain ⟨hleast, hmost⟩ := h
  rw [Text.integer]
  split
  · next hneg =>
    have htake : -(n.natAbs : Int) = n := by omega
    refine reads_numberAs ⟨'-', _, rfl, .inl rfl⟩
      (fun rest hrest => number_negative (by omega) (by omega) hrest) (congrArg Except.ok htake)
  · next hpos =>
    have htake : ((n.natAbs : Nat) : Int) = n := by omega
    have hlow : n.natAbs ≤ maxSigned := by omega
    exact reads_natural (Nat.le_trans hlow (by decide)) ((if_pos hlow).trans (congrArg Except.ok htake))

end Reader

end Numbers

section Strings

namespace Literal

variable {place place' : Place} {read : Option Char} {s left : List Char} {d : Nat}

lemma hexValue?_hexDigit : ∀ d < 16, hexValue? (Text.hexDigit d) = some d := by decide

lemma body_cons (hstep : step true place c cs = .ok (read, place')) (hclosing : place = .plain → c ≠ '"')
    (hbody : body true place' cs = .ok (s, left)) : body true place (c :: cs) = .ok (read.toList ++ s, left) := by
  rw [body, if_neg (by simpa using hclosing), hstep]
  simp only [hbody]

lemma body_skip (hstep : step true place c cs = .ok (none, place')) (hclosing : place = .plain → c ≠ '"')
    (hbody : body true place' cs = .ok (s, left)) : body true place (c :: cs) = .ok (s, left) :=
  body_cons hstep hclosing hbody

lemma body_named {d : Char} (hc : c ≠ 'u') (hnamed : named? c = some d) (hbody : body true .plain cs = .ok (s, left)) :
    body true .plain ('\\' :: c :: cs) = .ok (d :: s, left) := by
  have hescaped : step true .escaped c cs = .ok (some d, .plain) := by rw [step, if_neg hc, hnamed]
  exact body_skip rfl (by decide) (body_cons hescaped nofun hbody)

lemma body_digit {count value : Nat} (hd : d < 16) (hcount : count ≠ 3)
    (hbody : body true (.digits none (count + 1) (16 * value + d)) cs = .ok (s, left)) :
    body true (.digits none count value) (Text.hexDigit d :: cs) = .ok (s, left) := by
  have hstep : step true (.digits none count value) (Text.hexDigit d) cs =
      .ok (none, .digits none (count + 1) (16 * value + d)) := by
    rw [step, hexValue?_hexDigit d hd]
    exact if_neg hcount
  exact body_skip hstep nofun hbody

lemma body_lastDigit {value : Nat} (hd : d < 16) (hvalue : 16 * value + d = c.toNat) (hc : c.toNat < 0xd800)
    (hbody : body true .plain cs = .ok (s, left)) :
    body true (.digits none 3 value) (Text.hexDigit d :: cs) = .ok (c :: s, left) := by
  have hstep : step true (.digits none 3 value) (Text.hexDigit d) cs = .ok (some c, .plain) := by
    have hresolve : resolve true none c.toNat = .ok (some (Char.ofNat c.toNat), .plain) := by
      rw [resolve, if_neg (by decide), if_neg (by simp; omega), if_neg (by simp; omega)]
    rw [step, hexValue?_hexDigit d hd]
    simp only [↓reduceIte]
    rw [hvalue, hresolve, Char.ofNat_toNat]
  exact body_cons hstep nofun hbody

lemma body_control (hc : c.toNat < 0x20) (hbody : body true .plain cs = .ok (s, left)) :
    body true .plain ('\\' :: 'u' :: hexQuad c.toNat ++ cs) = .ok (c :: s, left) := by
  have hvalue : 16 * (16 * (16 * (16 * 0 + c.toNat / 4096 % 16) + c.toNat / 256 % 16) + c.toNat / 16 % 16) +
    c.toNat % 16 = c.toNat := by omega
  have hlast := body_lastDigit (Nat.mod_lt _ (by decide)) hvalue (by omega) hbody
  have hthird := body_digit (Nat.mod_lt (c.toNat / 16) (by decide)) (by decide) hlast
  have hsecond := body_digit (Nat.mod_lt (c.toNat / 256) (by decide)) (by decide) hthird
  have hfirst := body_digit (Nat.mod_lt (c.toNat / 4096) (by decide)) (by decide) hsecond
  exact body_skip rfl (by decide) (body_skip rfl nofun hfirst)

lemma body_escape (c : Char) (hbody : body true .plain cs = .ok (s, left)) :
    body true .plain (escape c ++ cs) = .ok (c :: s, left) := by
  rw [escape]
  split
  · next hc =>
    have hnamed : c ≠ 'u' ∧ named? c = some c := by
      rcases (by simpa using hc : c = '"' ∨ c = '\\') with rfl | rfl <;> decide
    exact body_named hnamed.1 hnamed.2 hbody
  split
  · next hc => exact hc ▸ body_named (by decide) rfl hbody
  split
  · next hc => exact hc ▸ body_named (by decide) rfl hbody
  split
  · next hc => exact hc ▸ body_named (by decide) rfl hbody
  split
  · next hc => exact hc ▸ body_named (by decide) rfl hbody
  split
  · next hc => exact hc ▸ body_named (by decide) rfl hbody
  split
  · next hc => exact body_control hc hbody
  · next hplain _ _ _ _ _ hvisible =>
    simp only [Bool.or_eq_true, decide_eq_true_eq, not_or] at hplain
    have hstep : step true .plain c cs = .ok (some c, .plain) := by rw [step, if_neg hplain.2, if_neg hvisible]
    exact body_cons hstep (fun _ => hplain.1) hbody

lemma write_append (s rest : List Char) : write s ++ rest = '"' :: (s.flatMap escape ++ '"' :: rest) := by
  simp [write]

lemma body_flatMap (s rest : List Char) : body true .plain (s.flatMap escape ++ '"' :: rest) = .ok (s, rest) := by
  induction s with
  | nil => rfl
  | cons c s ih =>
    rw [List.flatMap_cons, List.append_assoc]
    exact body_escape c ih

end Literal

namespace Reader

lemma text_write (s rest : List Char) : text (Literal.write s ++ rest) = .ok (s, rest) := by
  rw [Literal.write_append, text, bind_ok (advance_next _ _)]
  exact Literal.body_flatMap s rest

theorem string_reads (s expected : String) : Reads (string expected) (Literal.write s.toList) s where
  begins := ⟨'"', _, rfl, rfl, by decide⟩
  reads space rest hspace _ := by
    have htext := text_write s.toList rest
    rw [Literal.write_append] at htext
    rw [List.append_assoc, Literal.write_append, string, bind_ok (peekValue_some hspace rfl), if_pos rfl, bind_ok htext,
      String.ofList_toList]
    rfl

end Reader

end Strings

end BitStore.Json
