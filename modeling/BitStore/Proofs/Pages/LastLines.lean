import BitStore.Proofs.Pages.Report
import BitStore.Proofs.Text.Blanks
import BitStore.Proofs.Text.Numerals
import Mathlib.Logic.Relation

namespace BitStore.HugePageInfo

open Text

/-- The text is these lines. Each ends with a line feed, perhaps behind a carriage return, but the last need not. -/
inductive Lined : List Char → List (List Char) → Prop
  | nil : Lined [] []
  | last {line : List Char} : '\n' ∉ line → Lined line [line]
  | next {line stop rest : List Char} {ls : List (List Char)} : '\n' ∉ line → stop ∈ [['\n'], ['\r', '\n']] →
      Lined rest ls → Lined (line ++ stop ++ rest) (line :: ls)

def lastLine (key : List Char) (ls : List (List Char)) : Option (List Char) :=
  (ls.filter fun line => (words line).head? = some key).getLast?

def Says (key : List Char) (ls : List (List Char)) (n : Nat) : Prop :=
  ∃ line w rest, lastLine key ls = some line ∧ words line = key :: w :: rest ∧ Counts w n

def Fits (ls : List (List Char)) : Prop :=
  ∀ line ∈ ls, ∀ w rest n, words line = sizeKey :: w :: rest → Counts w n → n * 1024 ≤ maxCount

/-- A line of neither key comes in, a line is written in another way but for its first two words, or two lines of
different keys change places. Where a line of their keys stands between them, one stands behind them, too: the last line
of a key remains its last. -/
inductive Edit : List (List Char) → List (List Char) → Prop
  | insert (front back : List (List Char)) {line : List Char} : (words line).head? ≠ some freeKey →
      (words line).head? ≠ some sizeKey → Edit (front ++ back) (front ++ line :: back)
  | rewrite (front back : List (List Char)) {line line' : List Char} : (words line).take 2 = (words line').take 2 →
      Edit (front ++ line :: back) (front ++ line' :: back)
  | exchange (front mid back : List (List Char)) {x y : List Char} : (words x).head? ≠ (words y).head? →
      (∀ z ∈ [x, y], ∀ line ∈ mid, (words line).head? = (words z).head? →
        ∃ later ∈ back, (words later).head? = (words z).head?) →
      Edit (front ++ x :: (mid ++ y :: back)) (front ++ y :: (mid ++ x :: back))

def keyed (key : List Char) (ls : List (List Char)) : List (Option (List Char) × Option Nat) :=
  (ls.map keyAndValue).filter (·.1 = some key)

structure Alike {α : Type} (xs ys : List α) : Prop where
  perm : xs.Perm ys
  last : xs.getLast? = ys.getLast?

def Agree (ls ls' : List (List Char)) : Prop := ∀ key ∈ [freeKey, sizeKey], Alike (keyed key ls) (keyed key ls')

variable {key line line' text : List Char} {ls ls' : List (List Char)} {n : Nat}

section Lines

lemma keyAndValue_eq (line : List Char) :
    keyAndValue line = ((words line).head?, (words line)[1]?.bind count?) := by
  rw [keyAndValue, words_eq line]
  cases nextWord line with
  | none => rfl
  | some cut =>
    obtain ⟨w, rest⟩ := cut
    change (some w, (nextWord rest).bind fun w => count? w.1) = (some w, (words rest)[0]?.bind count?)
    rw [words_eq rest]
    cases nextWord rest <;> rfl

lemma keyAndValue_congr (h : (words line).take 2 = (words line').take 2) : keyAndValue line = keyAndValue line' := by
  have hkey : (words line).head? = (words line').head? := by
    simpa [List.head?_take] using congrArg List.head? h
  have hvalue : (words line)[1]? = (words line')[1]? := by
    have hsecond := congrArg (·[1]?) h
    simp only [List.getElem?_take] at hsecond
    exact hsecond
  rw [keyAndValue_eq, keyAndValue_eq, hkey, hvalue]

lemma keyAndValue_eq_iff :
    keyAndValue line = (some key, some n) ↔ ∃ w rest, words line = key :: w :: rest ∧ Counts w n := by
  rw [keyAndValue_eq]
  simp only [← count?_eq_some_iff]
  rcases words line with _ | ⟨first, _ | ⟨w, rest⟩⟩
  · simp
  · simp
  · simp

lemma lines_line (hline : '\n' ∉ line) : lines line = [line] := List.splitOn_eq_singleton hline

lemma lines_next (hline : '\n' ∉ line) (rest : List Char) : lines (line ++ '\n' :: rest) = line :: lines rest := by
  have hcut : lines (line ++ '\n' :: rest) = lines line ++ lines rest := List.splitOnP_append_cons line rest rfl
  rw [hcut, lines_line hline]
  rfl

end Lines

section Texts

lemma Lined.cons {c : Char} (h : Lined text ls) (hls : ls ≠ []) (hc : '\n' ≠ c) :
    Lined (c :: text) (ls.modifyHead (List.cons c)) := by
  cases h with
  | nil => exact absurd rfl hls
  | last hline => exact .last (List.not_mem_cons_of_ne_of_not_mem hc hline)
  | next hline hstop hrest => exact .next (List.not_mem_cons_of_ne_of_not_mem hc hline) hstop hrest

lemma lined_lines (text : List Char) : Lined text (lines text) := by
  induction text with
  | nil => exact .last List.not_mem_nil
  | cons c text ih =>
    have hlines : lines (c :: text) = if c == '\n' then [] :: lines text else (lines text).modifyHead (List.cons c) :=
      @List.splitOnP_cons_eq_if_modifyHead Char (· == '\n') c text
    rw [hlines]
    split
    · next hc =>
      obtain rfl := eq_of_beq hc
      have hstop : ['\n'] ∈ [['\n'], ['\r', '\n']] := List.mem_cons_self
      exact .next List.not_mem_nil hstop ih
    · next hc => exact ih.cons (List.splitOnP_ne_nil _ text) fun h => hc (beq_iff_eq.mpr h.symm)

end Texts

section Agreement

lemma Alike.of_eq {α : Type} {xs ys : List α} (h : xs = ys) : Alike xs ys := h ▸ ⟨.refl xs, rfl⟩

lemma Alike.symm {α : Type} {xs ys : List α} (h : Alike xs ys) : Alike ys xs := ⟨h.perm.symm, h.last.symm⟩

lemma Alike.pass {α : Type} {mid back : List α} (h : mid ≠ [] → back ≠ []) (front xs : List α) :
    Alike (front ++ (xs ++ (mid ++ back))) (front ++ (mid ++ (xs ++ back))) := by
  refine ⟨List.perm_append_comm_assoc .. |>.append_left front, ?_⟩
  by_cases hmid : mid = []
  · rw [hmid]
    rfl
  · simp only [List.getLast?_append_of_ne_nil _ (h hmid), ← List.append_assoc]

lemma keyed_append (key : List Char) (ls ls' : List (List Char)) :
    keyed key (ls ++ ls') = keyed key ls ++ keyed key ls' := by
  rw [keyed, List.map_append, List.filter_append]
  rfl

lemma keyed_cons (key line : List Char) (ls : List (List Char)) :
    keyed key (line :: ls) = keyed key [line] ++ keyed key ls :=
  keyed_append key [line] ls

lemma keyed_eq_nil_iff : keyed key ls = [] ↔ ∀ line ∈ ls, (words line).head? ≠ some key := by
  simp [keyed, keyAndValue_eq]

lemma keyed_line (h : keyAndValue line = keyAndValue line') (key : List Char) :
    keyed key [line] = keyed key [line'] := by
  rw [keyed, List.map_singleton, h]
  rfl

lemma keyed_exchange (key x y : List Char) (front mid back : List (List Char)) :
    keyed key (front ++ x :: (mid ++ y :: back)) =
      keyed key front ++ (keyed key [x] ++ (keyed key mid ++ (keyed key [y] ++ keyed key back))) := by
  rw [keyed_append, keyed_cons key x, keyed_append, keyed_cons key y]

lemma Lined.agree (h : Lined text ls) : Agree (lines text) ls := by
  intro key _
  apply Alike.of_eq
  induction h with
  | nil => exact keyed_eq_nil_iff.mpr (by simp [lines, words_nil])
  | last hline => rw [lines_line hline]
  | @next line stop rest ls hline hstop _ ih =>
    -- A carriage return stays with its line, where it is blank.
    have hkept : ∃ kept, '\n' ∉ kept ∧ keyAndValue kept = keyAndValue line ∧
        line ++ stop ++ rest = kept ++ '\n' :: rest := by
      rcases List.mem_pair.mp hstop with rfl | rfl
      · exact ⟨line, hline, rfl, by simp⟩
      · have hwords : words (line ++ ['\r']) = words line := words_concat_blank (by decide) line
        exact ⟨line ++ ['\r'], by simpa using hline, keyAndValue_congr (by rw [hwords]), by simp⟩
    obtain ⟨kept, hkept, hsame, htext⟩ := hkept
    rw [htext, lines_next hkept, keyed_cons, keyed_line hsame, ih, ← keyed_cons]

lemma Edit.agree (h : Edit ls ls') : Agree ls ls' := by
  intro key hkey
  have hout (z : List Char) (hz : (words z).head? ≠ some key) : keyed key [z] = [] :=
    keyed_eq_nil_iff.mpr (by simpa using hz)
  cases h with
  | @insert front back line hfree hsize =>
    have hline : keyed key [line] = [] := by
      rcases List.mem_pair.mp hkey with rfl | rfl
      · exact hout line hfree
      · exact hout line hsize
    rw [keyed_append, keyed_append, keyed_cons, hline, List.nil_append]
    exact .of_eq rfl
  | @rewrite front back line line' hwords =>
    rw [keyed_append, keyed_append, keyed_cons, keyed_cons key line', keyed_line (keyAndValue_congr hwords)]
    exact .of_eq rfl
  | @exchange front mid back x y hne hbehind =>
    have hback (z : List Char) (hz : z ∈ [x, y]) (hhead : (words z).head? = some key)
        (hmid : keyed key mid ≠ []) : keyed key back ≠ [] := by
      simp only [ne_eq, keyed_eq_nil_iff, not_forall, not_not] at hmid ⊢
      obtain ⟨line, hline, hbetween⟩ := hmid
      obtain ⟨later, hlater, hsame⟩ := hbehind z hz line hline (hbetween.trans hhead.symm)
      exact ⟨later, hlater, hsame.trans hhead⟩
    rw [keyed_exchange, keyed_exchange]
    -- At most one of the two lines has the key, and passes those between.
    by_cases hx : (words x).head? = some key
    · rw [hout y fun hy => hne (hx.trans hy.symm)]
      exact .pass (hback x (by simp) hx) _ _
    · rw [hout x hx]
      by_cases hy : (words y).head? = some key
      · exact (Alike.pass (hback y (by simp) hy) _ _).symm
      · rw [hout y hy]
        exact .of_eq rfl

lemma oversized_iff : (∃ line ∈ ls, Oversized line) ↔
    ∃ n, (some sizeKey, some n) ∈ keyed sizeKey ls ∧ maxCount < n * 1024 := by
  simp only [keyed, List.mem_filter, List.mem_map, Oversized, decide_true, and_true]
  constructor
  · rintro ⟨line, hline, n, hn, hlarge⟩
    exact ⟨n, ⟨line, hline, hn⟩, hlarge⟩
  · rintro ⟨n, ⟨line, hline, hn⟩, hlarge⟩
    exact ⟨line, hline, n, hn, hlarge⟩

lemma Agree.foldlM_eq (h : Agree ls ls') : ls.foldlM addLine blank = ls'.foldlM addLine blank := by
  have hover : (∃ line ∈ ls, Oversized line) ↔ ∃ line ∈ ls', Oversized line := by
    simp only [oversized_iff, (h sizeKey (by simp)).perm.mem_iff]
  by_cases hlarge : ∃ line ∈ ls, Oversized line
  · rw [foldlM_oversized hlarge, foldlM_oversized (hover.mp hlarge)]
  · have hfree : lastValue freeKey ls = lastValue freeKey ls' := congrArg (·.bind (·.2)) (h freeKey (by simp)).last
    have hsize : lastValue sizeKey ls = lastValue sizeKey ls' := congrArg (·.bind (·.2)) (h sizeKey (by simp)).last
    have htold : told ls = told ls' := by rw [told, told, hfree, hsize]
    rw [foldlM_told fun line hline hmore => hlarge ⟨line, hline, hmore⟩,
      foldlM_told fun line hline hmore => hlarge (hover.mpr ⟨line, hline, hmore⟩), htold]

lemma foldlM_edited (h : Relation.EqvGen Edit ls ls') : ls.foldlM addLine blank = ls'.foldlM addLine blank := by
  induction h with
  | rel _ _ hedit => exact hedit.agree.foldlM_eq
  | refl => rfl
  | symm _ _ _ ih => exact ih.symm
  | trans _ _ _ _ _ hfirst hsecond => exact hfirst.trans hsecond

lemma Lined.parse_eq (h : Lined text ls) : parse text = ls.foldlM addLine blank := h.agree.foldlM_eq

end Agreement

section Reading

lemma Fits.not_oversized (h : Fits ls) : ∀ line ∈ ls, ¬Oversized line := by
  rintro line hline ⟨n, hsays, hlarge⟩
  obtain ⟨w, rest, hwords, hcount⟩ := keyAndValue_eq_iff.mp hsays
  exact Nat.not_lt.mpr (h line hline w rest n hwords hcount) hlarge

lemma lastValue_eq (key : List Char) (ls : List (List Char)) :
    lastValue key ls = (lastLine key ls).bind fun line => (keyAndValue line).2 := by
  have hkey : (fun x : Option (List Char) × Option Nat => decide (x.1 = some key)) ∘ keyAndValue =
      fun line => decide ((words line).head? = some key) := by
    funext line
    rw [Function.comp_apply, keyAndValue_eq]
  rw [lastValue, List.filter_map, List.getLast?_map, Option.bind_map, hkey]
  rfl

lemma lastValue_eq_some_iff : lastValue key ls = some n ↔ Says key ls n := by
  rw [lastValue_eq, Option.bind_eq_some_iff]
  constructor
  · rintro ⟨line, hlast, hvalue⟩
    have hkey : (words line).head? = some key := by
      simpa using (List.mem_filter.mp (List.mem_of_getLast? hlast)).2
    have hsays : keyAndValue line = (some key, some n) := Prod.ext (by rw [keyAndValue_eq, hkey]) hvalue
    obtain ⟨w, rest, hwords, hcount⟩ := keyAndValue_eq_iff.mp hsays
    exact ⟨line, w, rest, hlast, hwords, hcount⟩
  · rintro ⟨line, w, rest, hlast, hwords, hcount⟩
    exact ⟨line, hlast, congrArg Prod.snd (keyAndValue_eq_iff.mpr ⟨w, rest, hwords, hcount⟩)⟩

theorem parse_lastLines (text : List Char) : (∃ ls, Lined text ls) ∧ ∀ ls, Lined text ls → Fits ls →
    ∃ info, parse text = .ok info ∧
      (∀ n, info.free = some n ↔ Says freeKey ls n) ∧
      (∀ size, info.pageSize = some size ↔ ∃ n, Says sizeKey ls n ∧ n * 1024 = size) ∧
      ∀ text' ls', Lined text' ls' → Relation.EqvGen Edit ls ls' → parse text' = .ok info := by
  refine ⟨⟨lines text, lined_lines text⟩, fun ls htext hfits => ?_⟩
  have hread := foldlM_told hfits.not_oversized
  refine ⟨told ls, htext.parse_eq.trans hread, fun n => lastValue_eq_some_iff, fun size => ?_,
    fun text' ls' htext' hedits => ?_⟩
  · simp only [told, Option.map_eq_some_iff, lastValue_eq_some_iff]
  · rw [htext'.parse_eq, ← foldlM_edited hedits, hread]

def repeated : List (List Char) :=
  ["HugePages_Free: x".toList, "Hugepagesize:\u30002 kB".toList, "HugePages_Free:\t+3".toList]

def rearranged : List (List Char) :=
  ["HugePages_Free: x".toList, "MemTotal: 1 kB".toList, "HugePages_Free: +3 4".toList, "Hugepagesize:\u30002 kB".toList]

lemma repeated_lined : Lined "HugePages_Free: x\r\nHugepagesize:\u30002 kB\r\nHugePages_Free:\t+3".toList repeated := by
  have htext : "HugePages_Free: x\r\nHugepagesize:\u30002 kB\r\nHugePages_Free:\t+3".toList =
      repeated[0] ++ ['\r', '\n'] ++ (repeated[1] ++ ['\r', '\n'] ++ repeated[2]) := by decide +kernel
  rw [htext]
  exact .next (by decide +kernel) (by decide) (.next (by decide +kernel) (by decide) (.last (by decide +kernel)))

lemma rearranged_lined :
    Lined "HugePages_Free: x\nMemTotal: 1 kB\nHugePages_Free: +3 4\nHugepagesize:\u30002 kB".toList rearranged := by
  have hlines : rearranged = lines
      "HugePages_Free: x\nMemTotal: 1 kB\nHugePages_Free: +3 4\nHugepagesize:\u30002 kB".toList := by decide +kernel
  rw [hlines]
  exact lined_lines _

lemma repeated_fits : Fits repeated := by
  intro line hline w rest n hwords hcount
  have hall : ∀ line ∈ repeated, ∀ n ∈ (keyAndValue line).2, (keyAndValue line).1 = some sizeKey →
      n * 1024 ≤ maxCount := by decide +kernel
  have hsays := keyAndValue_eq_iff.mpr ⟨w, rest, hwords, hcount⟩
  exact hall line hline n (congrArg Prod.snd hsays) (congrArg Prod.fst hsays)

lemma repeated_edits : Relation.EqvGen Edit repeated rearranged := by
  have hexchange : Edit repeated [repeated[0], repeated[2], repeated[1]] :=
    .exchange [repeated[0]] [] [] (by decide +kernel) (by simp)
  have hrewrite : Edit [repeated[0], repeated[2], repeated[1]] [repeated[0], rearranged[2], repeated[1]] :=
    .rewrite [repeated[0]] [repeated[1]] (by decide +kernel)
  have hinsert : Edit [repeated[0], rearranged[2], repeated[1]] rearranged :=
    .insert [repeated[0]] [rearranged[2], repeated[1]] (by decide +kernel) (by decide +kernel)
  exact .trans _ _ _ (.trans _ _ _ (.rel _ _ hexchange) (.rel _ _ hrewrite)) (.rel _ _ hinsert)

theorem parse_lastLines_repeated : Fits repeated ∧ Relation.EqvGen Edit repeated rearranged ∧
    parse "HugePages_Free: x\r\nHugepagesize:\u30002 kB\r\nHugePages_Free:\t+3".toList = .ok ⟨some 3, some 2048⟩ ∧
    parse "HugePages_Free: x\nMemTotal: 1 kB\nHugePages_Free: +3 4\nHugepagesize:\u30002 kB".toList =
      .ok ⟨some 3, some 2048⟩ := by
  obtain ⟨_, hparse⟩ := parse_lastLines "HugePages_Free: x\r\nHugepagesize:\u30002 kB\r\nHugePages_Free:\t+3".toList
  obtain ⟨⟨free, size⟩, hread, hfree, hsize, hedited⟩ := hparse repeated repeated_lined repeated_fits
  have hthree : Says freeKey repeated 3 :=
    ⟨repeated[2], ['+', '3'], [], by decide +kernel, by decide +kernel, count?_eq_some_iff.mp (by decide)⟩
  have htwo : Says sizeKey repeated 2 :=
    ⟨repeated[1], ['2'], [['k', 'B']], by decide +kernel, by decide +kernel, count?_eq_some_iff.mp (by decide)⟩
  obtain rfl : free = some 3 := (hfree 3).mpr hthree
  obtain rfl : size = some 2048 := (hsize 2048).mpr ⟨2, htwo, rfl⟩
  exact ⟨repeated_fits, repeated_edits, hread, hedited _ _ rearranged_lined repeated_edits⟩

/-- The first and the last line are of different keys. But the last line changes places with one that was not the last
of its key and becomes it. -/
theorem parse_exchanged :
    Lined "HugePages_Free: 1\nHugePages_Free: 2\nHugepagesize: 2 kB\n".toList
      ["HugePages_Free: 1".toList, "HugePages_Free: 2".toList, "Hugepagesize: 2 kB".toList] ∧
    Lined "Hugepagesize: 2 kB\nHugePages_Free: 2\nHugePages_Free: 1\n".toList
      ["Hugepagesize: 2 kB".toList, "HugePages_Free: 2".toList, "HugePages_Free: 1".toList] ∧
    (words "HugePages_Free: 1".toList).head? ≠ (words "Hugepagesize: 2 kB".toList).head? ∧
    parse "HugePages_Free: 1\nHugePages_Free: 2\nHugepagesize: 2 kB\n".toList = .ok ⟨some 2, some 2048⟩ ∧
    parse "Hugepagesize: 2 kB\nHugePages_Free: 2\nHugePages_Free: 1\n".toList = .ok ⟨some 1, some 2048⟩ := by
  have hlined {a b c text : List Char} (htext : text = a ++ ['\n'] ++ (b ++ ['\n'] ++ (c ++ ['\n'] ++ [])))
      (ha : '\n' ∉ a) (hb : '\n' ∉ b) (hc : '\n' ∉ c) : Lined text [a, b, c] := by
    rw [htext]
    exact .next ha (by simp) (.next hb (by simp) (.next hc (by simp) .nil))
  refine ⟨hlined ?_ ?_ ?_ ?_, hlined ?_ ?_ ?_ ?_, ?_, ?_, ?_⟩
  all_goals decide +kernel

end Reading

end BitStore.HugePageInfo
