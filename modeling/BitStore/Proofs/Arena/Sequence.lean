import BitStore.Proofs.Arena.ChainView
import Mathlib.Data.List.Induction

/-! A chain against the plain list of its blocks, which hears only of the handles of new blocks. -/

namespace BitStore

namespace Chain

inductive Change where
  | append (offset size : Nat) (free : Bool)
  | insertAfter (h : Handle) (offset size : Nat) (free : Bool)
  | remove (h : Handle)
  deriving DecidableEq, Repr

inductive Answer where
  | placed (h : Handle)
  | taken (b : Block)
  deriving DecidableEq, Repr

def behind (h : Handle) (n : Node) (l : List Node) : List Node :=
  l.flatMap fun m => if m.handle = h then [m, n] else [m]

def without (h : Handle) (l : List Node) : List Node := l.filter fun m => m.handle ≠ h

namespace Change

def apply (c : Chain) : Change → Except Fault (Answer × Chain)
  | append offset size free => do
    let (h, d) ← c.append offset size free
    return (.placed h, d)
  | insertAfter h offset size free => do
    let (k, d) ← c.insertAfter h offset size free
    return (.placed k, d)
  | remove h => do
    let (b, d) ← c.remove h
    return (.taken b, d)

def Permitted (l : List Node) : Change → Prop
  | append offset _ _ => offset ∉ l.map Node.offset
  | insertAfter h offset _ _ => h ∈ l.map Node.handle ∧ offset ∉ l.map Node.offset
  | remove h => h ∈ l.map Node.handle

instance (l : List Node) : (k : Change) → Decidable (k.Permitted l)
  | append .. => inferInstanceAs (Decidable (_ ∉ _))
  | insertAfter .. => inferInstanceAs (Decidable (_ ∈ _ ∧ _ ∉ _))
  | remove _ => inferInstanceAs (Decidable (_ ∈ _))

def onList (l : List Node) : Change → Answer → List Node
  | append offset size free, .placed h => l ++ [⟨h, offset, size, free⟩]
  | insertAfter h offset size free, .placed k => behind h ⟨k, offset, size, free⟩ l
  | remove h, _ => without h l
  | _, _ => l

def Answered (l : List Node) : Change → Answer → Prop
  | append .., .placed h | insertAfter .., .placed h => h ∉ l.map Node.handle
  | remove h, .taken b => ∃ n ∈ l, n.handle = h ∧ b = n.block b.prev b.next
  | _, _ => False

end Change

def run (c : Chain) (l : List Node) : List Change → Except Fault (Chain × List Node)
  | [] => .ok (c, l)
  | k :: rest => do
    let (a, d) ← k.apply c
    d.run (k.onList l a) rest

def Permits (c : Chain) (l : List Node) : List Change → Prop
  | [] => True
  | k :: rest => k.Permitted l ∧ ∀ a d, k.apply c = .ok (a, d) → d.Permits (k.onList l a) rest

structure Shows (c : Chain) (l : List Node) : Prop where
  listed : c.toList = .ok (links none none l)
  forward : c.Visits Block.next c.first (links none none l)
  backward : c.Visits Block.prev c.last (links none none l).reverse
  first : c.first = l.head?.map Node.handle
  last : c.last = l.getLast?.map Node.handle
  index : ∀ o, c.byOffset[o]? = (l.find? fun n => n.offset = o).map Node.handle
  size : c.size = l.length
  slots : (c.vacant ++ l.map Node.handle).Perm (List.range c.slots.size)

variable {c : Chain} {l pre post : List Node} {n m : Node} {h : Handle} {o : Nat} {k : Change} {changes : List Change}

section Listings

lemma firstHandle_none (l : List Node) : firstHandle none l = l.head?.map Node.handle := by
  cases l <;> rfl

lemma lastHandle_none (l : List Node) : lastHandle none l = l.getLast?.map Node.handle := by
  induction l using List.reverseRecOn with
  | nil => rfl
  | append_singleton pre n _ =>
    rw [lastHandle_append, List.getLast?_concat]
    rfl

lemma find?_eq_iff (hl : (l.map Node.offset).Nodup) :
    (l.find? fun n => n.offset = o).map Node.handle = some h ↔ (o, h) ∈ l.map Node.key := by
  induction l with
  | nil => simp
  | cons n rest ih =>
    obtain ⟨hn, hrest⟩ := List.nodup_cons.mp hl
    rw [List.map_cons, List.mem_cons]
    by_cases ho : n.offset = o
    · -- No block behind `n` starts where it does.
      have hnone : (o, h) ∉ rest.map Node.key := by
        intro hmem
        obtain ⟨m, hm, hkey⟩ := List.mem_map.mp hmem
        exact hn (List.mem_map.mpr ⟨m, hm, (congrArg Prod.fst hkey).trans ho.symm⟩)
      rw [or_iff_left hnone, List.find?_cons_of_pos (by simpa using ho), ← ho]
      simp [Node.key, eq_comm]
    · have hne : (o, h) ≠ n.key := fun hkey => ho (congrArg Prod.fst hkey).symm
      rw [or_iff_right hne, List.find?_cons_of_neg (by simpa using ho)]
      exact ih hrest

lemma behind_outside (hh : h ∉ l.map Node.handle) (m : Node) : behind h m l = l := by
  induction l with
  | nil => rfl
  | cons n rest ih =>
    rw [List.map_cons, List.mem_cons, not_or] at hh
    rw [behind, List.flatMap_cons, if_neg (Ne.symm hh.1)]
    exact congrArg (n :: ·) (ih hh.2)

lemma without_outside (hh : h ∉ l.map Node.handle) : without h l = l := by
  apply List.filter_eq_self.mpr
  intro n hn
  refine decide_eq_true fun hne => hh ?_
  exact hne ▸ List.mem_map_of_mem hn

lemma outside_of_nodup (hl : ((pre ++ n :: post).map Node.handle).Nodup) :
    n.handle ∉ pre.map Node.handle ∧ n.handle ∉ post.map Node.handle := by
  rw [List.map_append, List.map_cons, List.nodup_middle, List.nodup_cons, List.mem_append, not_or] at hl
  exact hl.1

lemma behind_middle (hl : ((pre ++ n :: post).map Node.handle).Nodup) (m : Node) :
    behind n.handle m (pre ++ n :: post) = pre ++ n :: m :: post := by
  obtain ⟨hpre, hpost⟩ := outside_of_nodup hl
  have hbefore := behind_outside hpre m
  have hafter := behind_outside hpost m
  rw [behind] at hbefore hafter ⊢
  rw [List.flatMap_append, List.flatMap_cons, hbefore, hafter, if_pos rfl]
  rfl

lemma without_middle (hl : ((pre ++ n :: post).map Node.handle).Nodup) :
    without n.handle (pre ++ n :: post) = pre ++ post := by
  obtain ⟨hpre, hpost⟩ := outside_of_nodup hl
  have hbefore := without_outside hpre
  have hafter := without_outside hpost
  rw [without] at hbefore hafter ⊢
  rw [List.filter_append, List.filter_cons_of_neg (by simp), hbefore, hafter]

end Listings

section Views

lemma Lists.visits_back (hl : c.Lists (pre ++ post)) :
    c.Visits Block.prev (lastHandle none pre) (links none (firstHandle none post) pre).reverse := by
  induction pre using List.reverseRecOn generalizing post with
  | nil => exact .stop
  | append_singleton pre n ih =>
    rw [← List.append_cons] at hl
    rw [lastHandle_append, links_append, List.reverse_append]
    exact .visit hl.get (ih hl)

lemma Lists.mem_handles (hl : c.Lists l) : h ∈ l.map Node.handle ↔ ∃ b, c.slots[h]? = some (some b) := by
  rw [← links_handles none none, List.mem_map]
  constructor
  · rintro ⟨⟨h, b⟩, hb, rfl⟩
    exact ⟨b, (hl.slots.mem_iff h b).mp hb⟩
  · rintro ⟨b, hb⟩
    exact ⟨(h, b), (hl.slots.mem_iff h b).mpr hb, rfl⟩

lemma Lists.partition (hl : c.Lists l) : (c.vacant ++ l.map Node.handle).Perm (List.range c.slots.size) := by
  have hdisjoint : c.vacant.Disjoint (l.map Node.handle) := by
    intro h hvacant hlive
    obtain ⟨b, hb⟩ := hl.mem_handles.mp hlive
    cases ((hl.slots.vacant_iff h).mp hvacant).symm.trans hb
  have hnodup := List.Nodup.append hl.slots.vacant_nodup hl.handles hdisjoint
  apply (List.perm_ext_iff_of_nodup hnodup List.nodup_range).mpr
  intro h
  rw [List.mem_append, List.mem_range, hl.slots.vacant_iff, hl.mem_handles]
  rcases Nat.lt_or_ge h c.slots.size with hlt | hge
  · rw [Array.getElem?_eq_getElem hlt]
    cases c.slots[h] <;> simp [hlt]
  · rw [Array.getElem?_eq_none hge]
    simp [Nat.not_lt.mpr hge]

lemma Lists.shows (hl : c.Lists l) : c.Shows l where
  listed := hl.toList
  forward := hl.first ▸ Lists.visits (show c.Lists ([] ++ l) from hl)
  backward := hl.last ▸ Lists.visits_back (show c.Lists (l ++ []) by rwa [List.append_nil])
  first := hl.first.trans (firstHandle_none l)
  last := hl.last.trans (lastHandle_none l)
  index o := Option.ext fun h => (hl.index o h).trans (find?_eq_iff hl.offsets).symm
  size := hl.size
  slots := hl.partition

end Views

section Runs

lemma exists_split (hh : h ∈ l.map Node.handle) : ∃ pre n post, l = pre ++ n :: post ∧ n.handle = h := by
  obtain ⟨n, hn, rfl⟩ := List.mem_map.mp hh
  obtain ⟨pre, post, rfl⟩ := List.append_of_mem hn
  exact ⟨pre, n, post, rfl, rfl⟩

lemma Lists.change (hl : c.Lists l) (hk : k.Permitted l) :
    ∃ a d, k.apply c = .ok (a, d) ∧ d.Lists (k.onList l a) ∧ k.Answered l a := by
  cases k with
  | append offset size free =>
    obtain ⟨h, d, happend, hd⟩ := hl.append size free hk
    refine ⟨.placed h, d, by rw [Change.apply, happend]; rfl, hd, ?_⟩
    exact (outside_of_nodup hd.handles).1
  | insertAfter h offset size free =>
    obtain ⟨hh, ho⟩ := hk
    obtain ⟨pre, n, post, rfl, rfl⟩ := exists_split hh
    obtain ⟨k, d, hinsert, hd⟩ := hl.insertAfter size free ho
    refine ⟨.placed k, d, by rw [Change.apply, hinsert]; rfl, ?_, ?_⟩
    · rw [Change.onList, behind_middle hl.handles]
      exact hd
    · rw [List.append_cons] at hd ⊢
      obtain ⟨hpre, hpost⟩ := outside_of_nodup hd.handles
      rw [Change.Answered, List.map_append, List.mem_append, not_or]
      exact ⟨hpre, hpost⟩
  | remove h =>
    obtain ⟨pre, n, post, rfl, rfl⟩ := exists_split hk
    obtain ⟨d, hremove, hd⟩ := hl.remove
    refine ⟨.taken _, d, by rw [Change.apply, hremove]; rfl, ?_, n, by simp, rfl, rfl⟩
    rw [Change.onList, without_middle hl.handles]
    exact hd

lemma Lists.run (hl : c.Lists l) (h : c.Permits l changes) :
    ∃ d l', c.run l changes = .ok (d, l') ∧ d.Lists l' := by
  induction changes generalizing c l with
  | nil => exact ⟨c, l, rfl, hl⟩
  | cons k rest ih =>
    obtain ⟨a, d, happly, hd, _⟩ := hl.change h.1
    obtain ⟨e, l', hrun, he⟩ := ih hd (h.2 a d happly)
    refine ⟨e, l', ?_, he⟩
    rw [Chain.run, happly]
    exact hrun

/-- However blocks come and go, the chain shows the list that the same changes make, and each change that may follow
succeeds, with a handle for a new block that no block has. -/
theorem run_shows (changes : List Change) (h : empty.Permits [] changes) :
    ∃ c l, empty.run [] changes = .ok (c, l) ∧ c.Shows l ∧
      ∀ k : Change, k.Permitted l → ∃ a d, k.apply c = .ok (a, d) ∧ d.Shows (k.onList l a) ∧ k.Answered l a := by
  obtain ⟨c, l, hrun, hl⟩ := Lists.empty.run h
  refine ⟨c, l, hrun, hl.shows, fun k hk => ?_⟩
  obtain ⟨a, d, happly, hd, ha⟩ := hl.change hk
  exact ⟨a, d, happly, hd.shows, ha⟩

def recycling : List Change :=
  [.append 0 32 false, .append 64 32 false, .insertAfter 0 32 32 true, .remove 1, .append 64 16 true, .remove 0]

lemma recycling_permitted : empty.Permits [] recycling := by
  iterate 6
    refine ⟨by decide, ?_⟩
    rintro _ _ ⟨⟩
  trivial

theorem run_shows_recycled : empty.Permits [] recycling ∧
    ∃ c, empty.run [] recycling = .ok (c, [⟨2, 32, 32, true⟩, ⟨1, 64, 16, true⟩]) ∧
      c.Shows [⟨2, 32, 32, true⟩, ⟨1, 64, 16, true⟩] ∧ c.vacant = [0] := by
  obtain ⟨c, l, hrun, hl, _⟩ := run_shows recycling recycling_permitted
  cases hrun
  exact ⟨recycling_permitted, _, rfl, hl, rfl⟩

end Runs

end Chain

end BitStore
