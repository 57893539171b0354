import BitStore.Proofs.Json.Scalars

namespace BitStore.Json

variable {α β δ : Type}

inductive Fills (members : List (Member δ)) : δ → List (String × List Char) → δ → Prop
  | done (d : δ) : Fills members d [] d
  | member {m : Member δ} {name : String} {text : List Char} {written : List (String × List Char)} {d next last : δ} :
      members.find? (fun m => m.name.toList = name.toList) = some m → m.isSet d = false → Reads (m.read d) text next →
      Fills members next written last → Fills members d ((name, text) :: written) last

lemma Reads.map {r : Reader α} {text : List Char} {a : α} (h : Reads r text a) (f : α → β) :
    Reads (do return f (← r)) text (f a) :=
  ⟨h.begins, fun space rest hspace hrest => Reader.bind_ok (h.reads space rest hspace hrest)⟩

namespace Record

variable {members : List (Member δ)} {m : Member δ} {name : String} {d next last : δ} {cs rest left text : List Char}
  {written : List (String × List Char)} {first : Bool} {n : Nat}

lemma member_begins (l : Layout) (m : String × List Char) : ∃ later, l.member m = '"' :: later := ⟨_, rfl⟩

lemma readMembers_step (l : Layout) (hfirst : Reader.anotherKey first cs = .ok (true, l.member (name, text) ++ rest))
    (hfind : members.find? (fun m => m.name.toList = name.toList) = some m) (hfree : m.isSet d = false)
    (hread : Reads (m.read d) text next) (hrest : Ends rest)
    (hmore : readMembers members n false next rest = .ok (last, left)) :
    readMembers members (n + 1) first d cs = .ok (last, left) := by
  have hvalue := hread.reads l.colon rest l.blank_colon hrest
  rw [readMembers, Reader.bind_ok hfirst, if_pos rfl, Layout.member, List.append_assoc,
    Reader.bind_ok (Reader.text_write _ _)]
  simp only [hfind, hfree, Bool.false_eq_true, ↓reduceIte]
  rw [List.cons_append, Reader.bind_ok Reader.colon_next, Reader.bind_ok hvalue]
  exact hmore

lemma readMembers_end (hend : Reader.anotherKey first cs = .ok (false, left)) :
    readMembers members (n + 1) first d cs = .ok (d, left) := by
  rw [readMembers, Reader.bind_ok hend]
  rfl

lemma readMembers_more (l : Layout) (h : Fills members d written last) (hn : written.length < n) (rest : List Char) :
    readMembers members n false d (l.more (written.map l.member) ++ l.tail ++ '\x7d' :: rest) =
      .ok (last, '\x7d' :: rest) := by
  induction h generalizing n with
  | done =>
    obtain ⟨n, rfl⟩ := Nat.exists_eq_succ_of_ne_zero (Nat.ne_of_gt hn)
    exact readMembers_end (Reader.anotherKey_end l.blank_tail false rest)
  | @member m name text written d next last hfind hfree hread _ ih =>
    obtain ⟨n, rfl⟩ := Nat.exists_eq_succ_of_ne_zero (Nat.ne_of_gt (Nat.zero_lt_of_lt hn))
    refine readMembers_step l ?_ hfind hfree hread (l.ends_more _ rfl rest) (ih (Nat.lt_of_succ_lt_succ hn))
    obtain ⟨later, hmember⟩ := member_begins l (name, text)
    have hnext := Reader.anotherKey_next l.blank_gap
      (later ++ (l.more (written.map l.member) ++ l.tail ++ '\x7d' :: rest))
    simpa [Layout.more, hmember] using hnext

lemma readMembers_all (l : Layout) (h : Fills members d written last) (hn : written.length ≤ n) (rest : List Char) :
    readMembers members (n + 1) true d
      (l.lead ++ join (',' :: l.gap) (written.map l.member) ++ l.tail ++ '\x7d' :: rest) =
      .ok (last, '\x7d' :: rest) := by
  cases h with
  | done =>
    have hblank : Blank (l.lead ++ l.tail) := List.forall_mem_append.mpr ⟨l.blank_lead, l.blank_tail⟩
    have hend : readMembers members (n + 1) true d (l.lead ++ l.tail ++ '\x7d' :: rest) = .ok (d, '\x7d' :: rest) :=
      readMembers_end (Reader.anotherKey_end hblank true rest)
    simpa [join] using hend
  | @member m name text written d next last hfind hfree hread h =>
    refine readMembers_step l ?_ hfind hfree hread (l.ends_more _ rfl rest) (readMembers_more l h hn rest)
    obtain ⟨later, hmember⟩ := member_begins l (name, text)
    have hfirst := Reader.anotherKey_first l.blank_lead
      (later ++ (l.more (written.map l.member) ++ l.tail ++ '\x7d' :: rest))
    simpa [l.join_cons, hmember] using hfirst

theorem reads (r : Record δ α) (l : Layout) (last : δ) {a : α} (h : Fills r.members r.draft written last)
    (hlast : r.ofMap last = .ok a) : Reads r.read (l.map written) a where
  begins := ⟨'\x7b', _, rfl, rfl, by decide⟩
  reads space rest hspace _ := by
    have hlen := l.length_le (written.map l.member) '\x7d' rest
    rw [List.length_map] at hlen
    have hall := readMembers_all l h hlen rest
    rw [Layout.map, l.enclosed, read, Reader.bind_ok (Reader.peekValue_some hspace rfl), if_neg (by decide), if_pos rfl,
      Reader.bind_ok (Reader.advance_next _ _),
      Reader.bind_ok (r := fun cs => readMembers r.members (cs.length + 1) true r.draft cs) hall, hlast]
    exact (Reader.bind_ok rfl).trans (Reader.bind_ok (Reader.close_next .map))

end Record

end BitStore.Json
