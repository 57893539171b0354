import BitStore.Text.Blank
import Mathlib.Data.List.TakeWhile
import Mathlib.Tactic.Lemma

namespace BitStore.Text

def AllBlank (cs : List Char) : Prop := ∀ c ∈ cs, isBlank c = true

instance (cs : List Char) : Decidable (AllBlank cs) := List.decidableBAll _ cs

structure Bare (s : List Char) : Prop where
  head : ∀ c ∈ s.head?, isBlank c = false
  last : ∀ c ∈ s.getLast?, isBlank c = false

structure Trims (text s : List Char) : Prop where
  bare : Bare s
  around : ∃ front back, text = front ++ s ++ back ∧ AllBlank front ∧ AllBlank back

def words (s : List Char) : List (List Char) := (s.splitOnP isBlank).filter (· ≠ [])

variable {text s w rest front back : List Char} {c : Char}

lemma dropWhile_blank (hfront : AllBlank front) (hs : ∀ c ∈ s.head?, isBlank c = false) :
    (front ++ s).dropWhile isBlank = s := by
  rw [List.dropWhile_append_of_pos hfront]
  cases s with
  | nil => rfl
  | cons c s => exact List.dropWhile_cons_of_neg (by simp [hs c rfl])

lemma allBlank_nil : AllBlank [] := List.forall_mem_nil _

lemma AllBlank.reverse (h : AllBlank s) : AllBlank s.reverse := fun c hc => h c (List.mem_reverse.mp hc)

lemma trimEnd_append (hback : AllBlank back) (hs : ∀ c ∈ s.getLast?, isBlank c = false) :
    trimEnd (s ++ back) = s := by
  rw [trimEnd, List.reverse_append, dropWhile_blank hback.reverse (by rwa [List.head?_reverse]), List.reverse_reverse]

lemma trim_blank (h : AllBlank s) : trim s = [] := by
  have hdropped : s.dropWhile isBlank = [] := by
    have hall := dropWhile_blank (s := []) h nofun
    rwa [List.append_nil] at hall
  rw [trim, hdropped]
  rfl

lemma trim_around (hfront : AllBlank front) (hback : AllBlank back) (hs : Bare s) :
    trim (front ++ s ++ back) = s := by
  cases s with
  | nil =>
    rw [List.append_nil]
    exact trim_blank (List.forall_mem_append.mpr ⟨hfront, hback⟩)
  | cons c s => rw [trim, List.append_assoc, dropWhile_blank (s := c :: s ++ back) hfront hs.head,
      trimEnd_append hback hs.last]

lemma head_dropWhile (p : Char → Bool) (s : List Char) : ∀ c ∈ (s.dropWhile p).head?, p c = false := by
  intro c hc
  have hnot := List.head?_dropWhile_not p s
  rw [hc] at hnot
  exact hnot

lemma blank_dropWhile (s : List Char) :
    ∃ front, s = front ++ s.dropWhile isBlank ∧ AllBlank front ∧ ∀ c ∈ (s.dropWhile isBlank).head?, isBlank c = false :=
  ⟨s.takeWhile isBlank, (List.takeWhile_append_dropWhile ..).symm, fun _ hc => List.mem_takeWhile_imp hc,
    head_dropWhile isBlank s⟩

lemma blank_trimEnd (s : List Char) :
    ∃ back, s = trimEnd s ++ back ∧ AllBlank back ∧ ∀ c ∈ (trimEnd s).getLast?, isBlank c = false := by
  obtain ⟨front, hs, hfront, hhead⟩ := blank_dropWhile s.reverse
  refine ⟨front.reverse, ?_, hfront.reverse, fun c hc => hhead c ?_⟩
  · rw [trimEnd, ← List.reverse_append, ← hs, List.reverse_reverse]
  · rwa [trimEnd, List.getLast?_reverse] at hc

theorem trims_trim (text : List Char) : Trims text (trim text) := by
  obtain ⟨front, htext, hfront, hhead⟩ := blank_dropWhile text
  obtain ⟨back, hrest, hback, hlast⟩ := blank_trimEnd (text.dropWhile isBlank)
  refine ⟨⟨fun c hc => hhead c ?_, hlast⟩, front, back, ?_, hfront, hback⟩
  · rw [hrest, List.head?_append, show (trimEnd (text.dropWhile isBlank)).head? = some c from hc]
    rfl
  · rw [trim, List.append_assoc, ← hrest, ← htext]

section Words

lemma words_append (hc : isBlank c = true) (s rest : List Char) : words (s ++ c :: rest) = words s ++ words rest := by
  rw [words, List.splitOnP_append_cons s rest hc, List.filter_append]
  rfl

lemma words_nil : words [] = [] := rfl

lemma words_cons_blank (hc : isBlank c = true) (s : List Char) : words (c :: s) = words s := words_append hc [] s

lemma words_blank (hfront : AllBlank front) (s : List Char) : words (front ++ s) = words s := by
  induction front with
  | nil => rfl
  | cons c front ih =>
    obtain ⟨hc, hfront⟩ := List.forall_mem_cons.mp hfront
    exact (words_cons_blank hc (front ++ s)).trans (ih hfront)

lemma words_concat_blank (hc : isBlank c = true) (s : List Char) : words (s ++ [c]) = words s := by
  rw [words_append hc, words_nil, List.append_nil]

lemma words_word (hw : ∀ c ∈ w, isBlank c = false) (hne : w ≠ []) (hrest : ∀ c ∈ rest.head?, isBlank c = true) :
    words (w ++ rest) = w :: words rest := by
  have hone : words w = [w] := by
    rw [words, List.splitOnP_eq_singleton hw, List.filter_cons_of_pos (by simpa using hne), List.filter_nil]
  cases rest with
  | nil => rw [List.append_nil, hone, words_nil]
  | cons c rest =>
    have hc := hrest c rfl
    rw [words_append hc, hone, words_cons_blank hc]
    rfl

theorem words_eq (s : List Char) : words s =
    match nextWord s with
    | none => []
    | some (w, rest) => w :: words rest := by
  obtain ⟨front, hs, hfront, hhead⟩ := blank_dropWhile s
  have hwords : words s = words (s.dropWhile isBlank) := by
    rw [hs, words_blank hfront, ← hs]
  rw [hwords, nextWord]
  generalize s.dropWhile isBlank = t at hhead
  have ht := List.takeWhile_append_dropWhile (p := (!isBlank ·)) (l := t)
  have hw : ∀ c ∈ t.takeWhile (!isBlank ·), isBlank c = false := fun c hc => by simpa using List.mem_takeWhile_imp hc
  have hrest : ∀ c ∈ (t.dropWhile (!isBlank ·)).head?, isBlank c = true :=
    fun c hc => by simpa using head_dropWhile (!isBlank ·) t c hc
  cases htake : t.takeWhile (!isBlank ·) with
  | nil =>
    cases t with
    | nil => rfl
    | cons c t => simp [hhead c rfl] at htake
  | cons c w =>
    rw [htake] at ht hw
    rw [← ht, words_word hw (List.cons_ne_nil c w) hrest, ht]

end Words

end BitStore.Text
