import BitStore.Json.Record
import BitStore.Json.Writer
import Mathlib.Data.List.Forall2
import Mathlib.Tactic.Lemma

/-! A value is read from its own characters, whatever white space is before it and whatever stands after it that
cannot go on with a number. -/

namespace BitStore.Json

def Blank (space : List Char) : Prop := ∀ c ∈ space, Reader.isSpace c = true

def continues (c : Char) : Bool := Text.isDigit c || c = '.' || c = 'e' || c = 'E'

def Ends (rest : List Char) : Prop := ∀ c ∈ rest.head?, continues c = false

lemma continues_of_isSpace {c : Char} (h : Reader.isSpace c = true) : continues c = false := by
  simp only [Reader.isSpace, Bool.or_eq_true, decide_eq_true_eq] at h
  rcases h with ((rfl | rfl) | rfl) | rfl <;> rfl

structure Reads {α : Type} (r : Reader α) (text : List Char) (a : α) : Prop where
  begins : ∃ c later, text = c :: later ∧ Reader.isSpace c = false ∧ c ≠ ']'
  reads : ∀ space rest, Blank space → Ends rest → r (space ++ text ++ rest) = .ok (a, rest)

structure Layout where
  lead : List Char
  gap : List Char
  tail : List Char
  colon : List Char
  blank_lead : Blank lead
  blank_gap : Blank gap
  blank_tail : Blank tail
  blank_colon : Blank colon

namespace Layout

lemma blank_newline (depth : Nat) : Blank (Spread.newline depth) := by
  rintro c (_ | ⟨_, hc⟩)
  · rfl
  · rw [List.eq_of_mem_replicate hc]
    rfl

def tight : Layout := ⟨[], [], [], [], nofun, nofun, nofun, nofun⟩

def spread (depth : Nat) : Layout :=
  ⟨Spread.newline (depth + 1), Spread.newline (depth + 1), Spread.newline depth, [' '], blank_newline _,
    blank_newline _, blank_newline _, List.forall_mem_singleton.mpr rfl⟩

def enclose (l : Layout) (opening closing : Char) (parts : List (List Char)) : List Char :=
  opening :: l.lead ++ join (',' :: l.gap) parts ++ l.tail ++ [closing]

def member (l : Layout) (m : String × List Char) : List Char := Literal.write m.1.toList ++ ':' :: (l.colon ++ m.2)

def list (l : Layout) (elements : List (List Char)) : List Char := l.enclose '[' ']' elements

def map (l : Layout) (members : List (String × List Char)) : List Char :=
  l.enclose '\x7b' '\x7d' (members.map l.member)

def more (l : Layout) (parts : List (List Char)) : List Char := parts.flatMap fun p => ',' :: l.gap ++ p

lemma join_cons (l : Layout) (part : List Char) (parts : List (List Char)) :
    join (',' :: l.gap) (part :: parts) = part ++ l.more parts := by
  induction parts generalizing part with
  | nil => simp [join, more]
  | cons next parts ih =>
    have hjoin : join (',' :: l.gap) (part :: next :: parts) =
      part ++ (',' :: l.gap) ++ join (',' :: l.gap) (next :: parts) := rfl
    rw [hjoin, ih, more, more, List.flatMap_cons, List.append_assoc, List.append_assoc]

lemma length_le_more (l : Layout) (parts : List (List Char)) : parts.length ≤ (l.more parts).length := by
  induction parts with
  | nil => exact Nat.zero_le _
  | cons part parts ih =>
    rw [more, List.flatMap_cons, ← more]
    simp only [List.length_append, List.length_cons]
    omega

lemma length_le (l : Layout) (parts : List (List Char)) (closing : Char) (rest : List Char) :
    parts.length ≤ (l.lead ++ join (',' :: l.gap) parts ++ l.tail ++ closing :: rest).length := by
  cases parts with
  | nil => exact Nat.zero_le _
  | cons part parts =>
    have hmore := l.length_le_more parts
    rw [l.join_cons]
    simp only [List.length_append, List.length_cons]
    omega

lemma enclosed (l : Layout) (opening closing : Char) (parts : List (List Char)) (space rest : List Char) :
    space ++ l.enclose opening closing parts ++ rest =
      space ++ opening :: (l.lead ++ join (',' :: l.gap) parts ++ l.tail ++ closing :: rest) := by
  simp [enclose]

lemma ends_more (l : Layout) (parts : List (List Char)) {closing : Char} (hclosing : continues closing = false)
    (rest : List Char) : Ends (l.more parts ++ l.tail ++ closing :: rest) := by
  cases parts with
  | nil =>
    cases htail : l.tail with
    | nil =>
      rintro c ⟨⟩
      exact hclosing
    | cons space tail =>
      rintro c ⟨⟩
      exact continues_of_isSpace (l.blank_tail space (htail ▸ List.mem_cons_self))
  | cons part parts =>
    rintro c ⟨⟩
    rfl

lemma spread_list (depth : Nat) (elements : List (List Char)) :
    ∃ l : Layout, Spread.list depth elements = l.list elements := by
  cases elements with
  | nil => exact ⟨tight, rfl⟩
  | cons element elements => exact ⟨spread depth, rfl⟩

lemma spread_map (depth : Nat) (members : List (String × List Char)) :
    ∃ l : Layout, Spread.map depth members = l.map members := by
  cases members with
  | nil => exact ⟨tight, rfl⟩
  | cons member members => exact ⟨spread depth, rfl⟩

end Layout

lemma Reads.here {α : Type} {r : Reader α} {text rest : List Char} {a : α} (h : Reads r text a) (hrest : Ends rest) :
    r (text ++ rest) = .ok (a, rest) := h.reads [] rest nofun hrest

variable {α β : Type} {r : Reader α} {a : α} {cs rest space : List Char} {c : Char} {first : Bool}

section Steps

namespace Reader

lemma bind_ok {f : α → Reader β} {left : List Char} (h : r cs = .ok (a, left)) : (r >>= f) cs = f a left := by
  change (r cs >>= fun x => f x.1 x.2) = _
  rw [h]
  rfl

lemma peek_some (hspace : Blank space) (hc : isSpace c = false) :
    peek (space ++ c :: rest) = .ok (some c, c :: rest) := by
  rw [peek, List.dropWhile_append_of_pos hspace, List.dropWhile_cons_of_neg (by simp [hc])]
  rfl

lemma peek_next (hc : isSpace c = false) : peek (c :: rest) = .ok (some c, c :: rest) :=
  peek_some (show Blank [] from nofun) hc

lemma peekValue_some (hspace : Blank space) (hc : isSpace c = false) :
    peekValue (space ++ c :: rest) = .ok (c, c :: rest) :=
  bind_ok (peek_some hspace hc)

lemma advance_next (c : Char) (rest : List Char) : advance (c :: rest) = .ok ((), rest) := rfl

lemma anotherElement_end (hspace : Blank space) (first : Bool) (rest : List Char) :
    anotherElement first (space ++ ']' :: rest) = .ok (false, ']' :: rest) :=
  bind_ok (peek_some hspace rfl)

lemma anotherElement_first (hspace : Blank space) (hc : isSpace c = false) (hne : c ≠ ']') (rest : List Char) :
    anotherElement true (space ++ c :: rest) = .ok (true, c :: rest) := by
  rw [anotherElement, bind_ok (peek_some hspace hc)]
  -- `hne` decides the match on the character.
  simp only [↓reduceIte]
  rfl

lemma anotherElement_next (hspace : Blank space) (hc : isSpace c = false) (hne : c ≠ ']') (rest : List Char) :
    anotherElement false (',' :: space ++ c :: rest) = .ok (true, c :: rest) := by
  rw [anotherElement, List.cons_append, bind_ok (peek_next rfl)]
  refine (bind_ok (advance_next _ _)).trans ?_
  rw [bind_ok (peek_some hspace hc)]
  simp only
  rfl

lemma anotherKey_end (hspace : Blank space) (first : Bool) (rest : List Char) :
    anotherKey first (space ++ '\x7d' :: rest) = .ok (false, '\x7d' :: rest) :=
  bind_ok (peek_some hspace rfl)

lemma anotherKey_first (hspace : Blank space) (rest : List Char) :
    anotherKey true (space ++ '"' :: rest) = .ok (true, '"' :: rest) :=
  bind_ok (peek_some hspace rfl)

lemma anotherKey_next (hspace : Blank space) (rest : List Char) :
    anotherKey false (',' :: space ++ '"' :: rest) = .ok (true, '"' :: rest) := by
  rw [anotherKey, List.cons_append, bind_ok (peek_next rfl)]
  refine (bind_ok (advance_next _ _)).trans ?_
  rw [bind_ok (peek_some hspace rfl)]
  rfl

lemma colon_next : colon (':' :: rest) = .ok ((), rest) := bind_ok (peek_next rfl)

lemma close_next (bracket : Bracket) : close bracket (bracket.closing :: rest) = .ok ((), rest) := by
  cases bracket <;> exact bind_ok (peek_next rfl)

lemma run_ok (h : Reads r cs a) : r.run cs = .ok a := by
  have hr := h.reads [] [] nofun nofun
  rw [List.append_nil, List.nil_append] at hr
  rw [run, hr]
  rfl

end Reader

end Steps

section Lists

namespace Reader

variable {item : Reader α} {text left : List Char} {as : List α} {parts : List (List Char)} {n : Nat}

lemma elements_step (hfirst : anotherElement first cs = .ok (true, text ++ rest)) (hread : Reads item text a)
    (hrest : Ends rest) (hmore : elements item n false rest = .ok (as, left)) :
    elements item (n + 1) first cs = .ok (a :: as, left) := by
  rw [elements, bind_ok hfirst, if_pos rfl, bind_ok (hread.here hrest), bind_ok hmore]
  rfl

lemma elements_end (hend : anotherElement first cs = .ok (false, left)) :
    elements item (n + 1) first cs = .ok ([], left) := by
  rw [elements, bind_ok hend]
  rfl

lemma elements_more (l : Layout) (h : List.Forall₂ (Reads item) parts as) (hn : parts.length < n)
    (rest : List Char) :
    elements item n false (l.more parts ++ l.tail ++ ']' :: rest) = .ok (as, ']' :: rest) := by
  induction h generalizing n with
  | nil =>
    obtain ⟨n, rfl⟩ := Nat.exists_eq_succ_of_ne_zero (Nat.ne_of_gt hn)
    exact elements_end (anotherElement_end l.blank_tail false rest)
  | @cons part a parts as hread _ ih =>
    obtain ⟨n, rfl⟩ := Nat.exists_eq_succ_of_ne_zero (Nat.ne_of_gt (Nat.zero_lt_of_lt hn))
    obtain ⟨c, later, rfl, hc, hne⟩ := hread.begins
    refine elements_step ?_ hread (l.ends_more parts rfl rest) (ih (Nat.lt_of_succ_lt_succ hn))
    have hnext := anotherElement_next l.blank_gap hc hne (later ++ (l.more parts ++ l.tail ++ ']' :: rest))
    simpa [Layout.more] using hnext

lemma elements_all (l : Layout) (h : List.Forall₂ (Reads item) parts as) (hn : parts.length ≤ n)
    (rest : List Char) :
    elements item (n + 1) true (l.lead ++ join (',' :: l.gap) parts ++ l.tail ++ ']' :: rest) =
      .ok (as, ']' :: rest) := by
  cases h with
  | nil =>
    have hblank : Blank (l.lead ++ l.tail) := List.forall_mem_append.mpr ⟨l.blank_lead, l.blank_tail⟩
    have hend : elements item (n + 1) true (l.lead ++ l.tail ++ ']' :: rest) = .ok ([], ']' :: rest) :=
      elements_end (anotherElement_end hblank true rest)
    simpa [join] using hend
  | @cons part a parts as hread h =>
    obtain ⟨c, later, rfl, hc, hne⟩ := hread.begins
    refine elements_step ?_ hread (l.ends_more parts rfl rest) (elements_more l h hn rest)
    have hfirst := anotherElement_first l.blank_lead hc hne (later ++ (l.more parts ++ l.tail ++ ']' :: rest))
    simpa [l.join_cons] using hfirst

theorem list_reads (l : Layout) (h : List.Forall₂ (Reads item) parts as) : Reads (list item) (l.list parts) as where
  begins := ⟨'[', _, rfl, rfl, by decide⟩
  reads space rest hspace _ := by
    have hall := elements_all l h (l.length_le parts ']' rest) rest
    rw [Layout.list, l.enclosed, list, bind_ok (peekValue_some hspace rfl), if_pos rfl, bind_ok (advance_next _ _),
      bind_ok (r := fun cs => elements item (cs.length + 1) true cs) hall]
    exact bind_ok (close_next .list)

end Reader

end Lists

end BitStore.Json
