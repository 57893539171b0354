import BitStore.Arena.Chain
import Mathlib.Data.List.Nodup
import Mathlib.Data.List.Perm.Subperm
import Mathlib.Tactic.Lemma

/-! The linked blocks of a chain as a plain list of nodes. -/

namespace BitStore

structure Node where
  handle : Handle
  offset : Nat
  size : Nat
  free : Bool
  deriving DecidableEq, Repr

namespace Node

def block (n : Node) (prev next : Option Handle) : Block := ⟨n.offset, n.size, prev, next, n.free⟩

def key (n : Node) : Nat × Handle := (n.offset, n.handle)

@[simp] lemma block_offset (n : Node) (prev next : Option Handle) : (n.block prev next).offset = n.offset := rfl

@[simp] lemma block_size (n : Node) (prev next : Option Handle) : (n.block prev next).size = n.size := rfl

@[simp] lemma block_free (n : Node) (prev next : Option Handle) : (n.block prev next).free = n.free := rfl

end Node

namespace Chain

def firstHandle (next : Option Handle) : List Node → Option Handle
  | [] => next
  | n :: _ => some n.handle

def lastHandle (prev : Option Handle) : List Node → Option Handle
  | [] => prev
  | n :: rest => lastHandle (some n.handle) rest

def links (prev next : Option Handle) : List Node → List (Handle × Block)
  | [] => []
  | n :: rest => (n.handle, n.block prev (firstHandle next rest)) :: links (some n.handle) next rest

lemma firstHandle_append (next : Option Handle) (xs ys : List Node) :
    firstHandle next (xs ++ ys) = firstHandle (firstHandle next ys) xs := by
  cases xs <;> rfl

lemma lastHandle_append (prev : Option Handle) (xs ys : List Node) :
    lastHandle prev (xs ++ ys) = lastHandle (lastHandle prev xs) ys := by
  induction xs generalizing prev with
  | nil => rfl
  | cons n rest ih => exact ih (some n.handle)

lemma links_append (prev next : Option Handle) (xs ys : List Node) :
    links prev next (xs ++ ys) =
      links prev (firstHandle next ys) xs ++ links (lastHandle prev xs) next ys := by
  induction xs generalizing prev with
  | nil => rfl
  | cons n rest ih => simp only [List.cons_append, links, lastHandle, firstHandle_append, ih]

lemma links_handles (prev next : Option Handle) (l : List Node) :
    (links prev next l).map Prod.fst = l.map Node.handle := by
  induction l generalizing prev with
  | nil => rfl
  | cons n rest ih => simp only [links, List.map_cons, ih]

lemma links_length (prev next : Option Handle) (l : List Node) : (links prev next l).length = l.length := by
  simpa using congrArg List.length (links_handles prev next l)

/-- The slots hold exactly the listed blocks, and exactly the listed slots are vacant. -/
structure Holds (slots : Array (Option Block)) (blocks : List (Handle × Block))
    (vacant : List Handle) : Prop where
  mem_iff : ∀ h b, (h, b) ∈ blocks ↔ slots[h]? = some (some b)
  vacant_iff : ∀ h, h ∈ vacant ↔ slots[h]? = some none
  handles : (blocks.map Prod.fst).Nodup
  vacant_nodup : vacant.Nodup

variable {c : Chain} {xs ys blocks : List (Handle × Block)} {vacant : List Handle} {h : Handle} {b : Block}

lemma getElem?_set (slots : Array (Option Block)) (h k : Handle) (b : Option Block)
    (hh : h < slots.size) :
    (slots.setIfInBounds h b)[k]? = if h = k then some b else slots[k]? := by
  rw [Array.getElem?_setIfInBounds]
  by_cases hk : h = k
  · simp [← hk, hh]
  · simp [hk]

lemma Holds.get (hc : Holds c.slots blocks vacant) (hb : (h, b) ∈ blocks) : c.get h = .ok b := by
  rw [Chain.get, (hc.mem_iff h b).mp hb]

lemma Holds.lt_size (hc : Holds c.slots blocks vacant) (hb : (h, b) ∈ blocks) : h < c.slots.size :=
  (Array.getElem?_eq_some_iff.mp ((hc.mem_iff h b).mp hb)).1

lemma Holds.put (hc : Holds c.slots (xs ++ (h, b) :: ys) vacant) (d : Block) :
    ∃ slots, c.put h (some d) = .ok { c with slots := slots } ∧
      Holds slots (xs ++ (h, d) :: ys) vacant := by
  have hlt : h < c.slots.size := hc.lt_size (b := b) (by simp)
  have hd := hc.handles
  refine ⟨c.slots.setIfInBounds h (some d), by rw [Chain.put, if_pos hlt], ?_, ?_, ?_, hc.vacant_nodup⟩
  · intro k x
    have hk := hc.mem_iff k x
    rw [getElem?_set _ _ _ _ hlt]
    simp only [List.mem_append, List.mem_cons, Prod.mk.injEq, List.map_append, List.map_cons,
      List.nodup_append, List.nodup_cons, List.mem_map, Prod.exists, exists_and_right,
      exists_eq_right] at hk hd ⊢
    grind
  · intro k
    have hk := hc.vacant_iff k
    have hb := (hc.mem_iff h b).mp (by simp)
    rw [getElem?_set _ _ _ _ hlt]
    grind
  · simpa using hd

lemma Holds.update (hc : Holds c.slots (xs ++ (h, b) :: ys) vacant) (f : Block → Block) :
    ∃ slots, c.update h f = .ok { c with slots := slots } ∧
      Holds slots (xs ++ (h, f b) :: ys) vacant := by
  obtain ⟨slots, hput, hs⟩ := hc.put (f b)
  refine ⟨slots, ?_, hs⟩
  have hget : c.get h = .ok b := hc.get (by simp)
  rw [Chain.update, hget]
  exact hput

lemma Holds.take (hc : Holds c.slots (xs ++ (h, b) :: ys) vacant) :
    ∃ slots, c.put h none = .ok { c with slots := slots } ∧ Holds slots (xs ++ ys) (h :: vacant) := by
  have hb := (hc.mem_iff h b).mp (by simp)
  have hlt : h < c.slots.size := hc.lt_size (b := b) (by simp)
  have hd := hc.handles
  refine ⟨c.slots.setIfInBounds h none, by rw [Chain.put, if_pos hlt], ?_, ?_, ?_, ?_⟩
  · intro k x
    have hk := hc.mem_iff k x
    rw [getElem?_set _ _ _ _ hlt]
    simp only [List.mem_append, List.mem_cons, Prod.mk.injEq, List.map_append, List.map_cons,
      List.nodup_append, List.nodup_cons, List.mem_map, Prod.exists, exists_and_right,
      exists_eq_right] at hk hd ⊢
    grind
  · intro k
    have hk := hc.vacant_iff k
    rw [getElem?_set _ _ _ _ hlt]
    grind
  · rw [List.map_append, List.map_cons, List.nodup_middle, List.nodup_cons, ← List.map_append] at hd
    exact hd.2
  · refine List.nodup_cons.mpr ⟨?_, hc.vacant_nodup⟩
    intro hv
    rw [(hc.vacant_iff h).mp hv] at hb
    simp at hb

lemma Holds.handles_insert (hc : Holds c.slots (xs ++ ys) vacant) (hh : ∀ x, c.slots[h]? ≠ some (some x)) (b : Block) :
    ((xs ++ (h, b) :: ys).map Prod.fst).Nodup := by
  rw [List.map_append, List.map_cons, List.nodup_middle, ← List.map_append]
  refine List.nodup_cons.mpr ⟨?_, hc.handles⟩
  intro hm
  obtain ⟨⟨k, x⟩, hx, rfl⟩ := List.mem_map.mp hm
  exact hh x ((hc.mem_iff _ _).mp hx)

lemma Holds.store (hc : Holds c.slots (xs ++ ys) c.vacant) (b : Block) :
    ∃ h slots vacant, c.store b = .ok (h, { c with
        slots := slots, vacant := vacant, byOffset := c.byOffset.insert b.offset h }) ∧
      Holds slots (xs ++ (h, b) :: ys) vacant := by
  cases hv : c.vacant with
  | nil =>
    refine ⟨c.slots.size, c.slots.push (some b), [], by rw [Chain.store, hv]; rfl, ?_, ?_, ?_, .nil⟩
    · intro k x
      have hk := hc.mem_iff k x
      rw [Array.getElem?_push]
      simp only [List.mem_append, List.mem_cons, Prod.mk.injEq] at hk ⊢
      grind
    · intro k
      have hk := hc.vacant_iff k
      rw [Array.getElem?_push]
      grind
    · exact hc.handles_insert (by simp) b
  | cons h rest =>
    have hnone : c.slots[h]? = some none := (hc.vacant_iff h).mp (by simp [hv])
    have hlt : h < c.slots.size := (Array.getElem?_eq_some_iff.mp hnone).1
    have hvac := hc.vacant_nodup
    rw [hv, List.nodup_cons] at hvac
    refine ⟨h, c.slots.setIfInBounds h (some b), rest, ?_, ?_, ?_, ?_, hvac.2⟩
    · rw [Chain.store, hv]
      simp only [Chain.put, if_pos hlt]
      rfl
    · intro k x
      have hk := hc.mem_iff k x
      rw [getElem?_set _ _ _ _ hlt]
      simp only [List.mem_append, List.mem_cons, Prod.mk.injEq] at hk ⊢
      grind
    · intro k
      have hk := hc.vacant_iff k
      rw [getElem?_set _ _ _ _ hlt]
      rw [hv, List.mem_cons] at hk
      grind
    · exact hc.handles_insert (by simp [hnone]) b

lemma Holds.linkNext {pre : List Node} {q : Option Handle}
    (hc : Holds c.slots (links none q pre ++ ys) vacant) (hfirst : c.first = firstHandle q pre)
    (next : Option Handle) :
    ∃ slots, c.linkNext (lastHandle none pre) next =
        .ok { c with slots := slots, first := firstHandle next pre } ∧
      Holds slots (links none next pre ++ ys) vacant := by
  rcases pre.eq_nil_or_concat' with rfl | ⟨pre, p, rfl⟩
  · exact ⟨c.slots, rfl, hc⟩
  · rw [links_append, List.append_assoc] at hc
    obtain ⟨slots, hu, hs⟩ := hc.update fun b => { b with next := next }
    refine ⟨slots, ?_, ?_⟩
    · rw [lastHandle_append, firstHandle_append]
      rw [firstHandle_append] at hfirst
      exact hu.trans (by rw [hfirst]; rfl)
    · rw [links_append, List.append_assoc]
      exact hs

lemma Holds.linkPrev {post : List Node} {p : Option Handle}
    (hc : Holds c.slots (xs ++ links p none post) vacant) (hlast : c.last = lastHandle p post)
    (prev : Option Handle) :
    ∃ slots, c.linkPrev (firstHandle none post) prev =
        .ok { c with slots := slots, last := lastHandle prev post } ∧
      Holds slots (xs ++ links prev none post) vacant := by
  cases post with
  | nil => exact ⟨c.slots, rfl, hc⟩
  | cons n rest =>
    obtain ⟨slots, hu, hs⟩ := hc.update fun b => { b with prev := prev }
    exact ⟨slots, hu.trans (by rw [hlast]; rfl), hs⟩

inductive Visits (c : Chain) (link : Block → Option Handle) : Option Handle → List (Handle × Block) → Prop
  | stop : Visits c link none []
  | visit {h : Handle} {b : Block} {rest : List (Handle × Block)} : c.get h = .ok b →
      Visits c link (link b) rest → Visits c link (some h) ((h, b) :: rest)

lemma Visits.walk {start : Option Handle} (hv : c.Visits Block.next start blocks) {k : Nat} (hk : blocks.length ≤ k) :
    c.walk k start = .ok blocks := by
  induction hv generalizing k with
  | stop => cases k <;> rfl
  | @visit h b rest hget _ ih =>
    cases k with
    | zero => simp at hk
    | succ k =>
      rw [Chain.walk, hget]
      change (c.walk k b.next >>= fun rest => pure (_ :: rest)) = _
      rw [ih (Nat.le_of_succ_le_succ hk)]
      rfl

structure Lists (c : Chain) (l : List Node) : Prop where
  slots : Holds c.slots (links none none l) c.vacant
  first : c.first = firstHandle none l
  last : c.last = lastHandle none l
  index : ∀ o h, c.byOffset[o]? = some h ↔ (o, h) ∈ l.map Node.key
  offsets : (l.map Node.offset).Nodup
  size : c.size = l.length

variable {l pre post : List Node} {n : Node}

lemma Lists.handles (hl : c.Lists l) : (l.map Node.handle).Nodup := by
  rw [← links_handles none none]
  exact hl.slots.handles

lemma links_middle (pre : List Node) (n : Node) (post : List Node) :
    links none none (pre ++ n :: post) =
      links none (some n.handle) pre ++
        (n.handle, n.block (lastHandle none pre) (firstHandle none post)) ::
          links (some n.handle) none post := by
  rw [links_append]
  rfl

lemma Lists.get (hl : c.Lists (pre ++ n :: post)) :
    c.get n.handle = .ok (n.block (lastHandle none pre) (firstHandle none post)) :=
  hl.slots.get (by rw [links_middle]; simp)

lemma Lists.get_next {m : Node} (hl : c.Lists (pre ++ n :: m :: post)) :
    c.get m.handle = .ok (m.block (some n.handle) (firstHandle none post)) := by
  have hget := Lists.get (show c.Lists ((pre ++ [n]) ++ m :: post) by rwa [← List.append_cons])
  rwa [lastHandle_append] at hget

lemma Lists.empty : Chain.empty.Lists [] where
  slots := ⟨by simp [links, Chain.empty], by simp [Chain.empty], .nil, .nil⟩
  first := rfl
  last := rfl
  index := by simp [Chain.empty]
  offsets := .nil
  size := by simp [Chain.size, Chain.empty]

lemma Lists.update (hl : c.Lists (pre ++ n :: post)) (f : Block → Block) {m : Node}
    (hk : m.key = n.key) (hf : ∀ p q, f (n.block p q) = m.block p q) :
    ∃ d, c.update n.handle f = .ok d ∧ d.Lists (pre ++ m :: post) := by
  obtain ⟨ho, hh⟩ : m.offset = n.offset ∧ m.handle = n.handle := Prod.mk.injEq .. ▸ hk
  have hs := hl.slots
  rw [links_middle] at hs
  obtain ⟨slots, hu, hs⟩ := hs.update f
  refine ⟨_, hu, ?_, ?_, ?_, ?_, ?_, ?_⟩
  · rw [links_middle, hh, ← hf]
    exact hs
  · rw [hl.first, firstHandle_append, firstHandle_append, firstHandle, firstHandle, hh]
  · rw [hl.last, lastHandle_append, lastHandle_append, lastHandle, lastHandle, hh]
  · simpa [hk] using hl.index
  · simpa [ho] using hl.offsets
  · simpa [Chain.size] using hl.size

lemma Lists.link (hl : c.Lists (pre ++ post)) {offset : Nat} (size : Nat) (free : Bool)
    (ho : offset ∉ (pre ++ post).map Node.offset) :
    ∃ h d, c.link (lastHandle none pre) (firstHandle none post) offset size free = .ok (h, d) ∧
      d.Lists (pre ++ ⟨h, offset, size, free⟩ :: post) := by
  have hs := hl.slots
  rw [links_append] at hs
  obtain ⟨h, slots, vacant, hstore, hs⟩ :=
    hs.store ⟨offset, size, lastHandle none pre, firstHandle none post, free⟩
  have hfirst : c.first = firstHandle (firstHandle none post) pre := by
    rw [hl.first, firstHandle_append]
  obtain ⟨slots, hnext, hs⟩ :=
    Holds.linkNext (c := ⟨slots, vacant, c.first, c.last, c.byOffset.insert offset h⟩) hs hfirst (some h)
  rw [List.append_cons] at hs
  have hlast : c.last = lastHandle (lastHandle none pre) post := by rw [hl.last, lastHandle_append]
  obtain ⟨slots, hprev, hs⟩ :=
    Holds.linkPrev (c := ⟨slots, vacant, firstHandle (some h) pre, c.last, c.byOffset.insert offset h⟩)
      hs hlast (some h)
  refine ⟨h, ⟨slots, vacant, firstHandle (some h) pre, lastHandle (some h) post,
    c.byOffset.insert offset h⟩, ?_, ?_, ?_, ?_, ?_, ?_, ?_⟩
  · rw [Chain.link, hstore]
    change (Chain.linkNext _ _ _ >>= fun c => c.linkPrev _ _ >>= fun c => pure (h, c)) = _
    rw [hnext]
    change (Chain.linkPrev _ _ _ >>= fun c => pure (h, c)) = _
    rw [hprev]
    rfl
  · rw [links_middle, List.append_cons]
    exact hs
  · rw [firstHandle_append]
    rfl
  · rw [lastHandle_append]
    rfl
  · intro o k
    have hk := hl.index o k
    simp only [List.map_append, List.mem_append, List.map_cons, List.mem_cons, Std.HashMap.getElem?_insert,
      Node.key, Prod.mk.injEq, List.mem_map] at hk ho ⊢
    grind
  · rw [List.map_append, List.map_cons, List.nodup_middle, ← List.map_append]
    exact List.nodup_cons.mpr ⟨ho, hl.offsets⟩
  · have hmem : offset ∉ c.byOffset := by
      intro hm
      obtain ⟨n, hn, hk⟩ := List.mem_map.mp ((hl.index offset _).mp (Std.HashMap.getElem?_eq_some_getElem hm))
      exact ho (List.mem_map.mpr ⟨n, hn, congrArg Prod.fst hk⟩)
    have hsize := hl.size
    simp only [Chain.size, Std.HashMap.size_insert, hmem, if_false, List.length_append,
      List.length_cons] at hsize ⊢
    omega

lemma Lists.append (hl : c.Lists l) {offset : Nat} (size : Nat) (free : Bool)
    (ho : offset ∉ l.map Node.offset) :
    ∃ h d, c.append offset size free = .ok (h, d) ∧ d.Lists (l ++ [⟨h, offset, size, free⟩]) := by
  rw [Chain.append, hl.last]
  exact Lists.link (show c.Lists (l ++ []) by rwa [List.append_nil]) size free (by rwa [List.append_nil])

lemma Lists.insertAfter (hl : c.Lists (pre ++ n :: post)) {offset : Nat} (size : Nat) (free : Bool)
    (ho : offset ∉ (pre ++ n :: post).map Node.offset) :
    ∃ h d, c.insertAfter n.handle offset size free = .ok (h, d) ∧
      d.Lists (pre ++ n :: ⟨h, offset, size, free⟩ :: post) := by
  rw [List.append_cons] at ho
  obtain ⟨h, d, hlink, hd⟩ := Lists.link (by rwa [List.append_cons] at hl) size free ho
  refine ⟨h, d, ?_, by rwa [List.append_cons]⟩
  rw [Chain.insertAfter, hl.get]
  rw [lastHandle_append] at hlink
  exact hlink

lemma Lists.remove (hl : c.Lists (pre ++ n :: post)) :
    ∃ d, c.remove n.handle = .ok (n.block (lastHandle none pre) (firstHandle none post), d) ∧
      d.Lists (pre ++ post) := by
  have hs := hl.slots
  rw [links_middle] at hs
  obtain ⟨slots, hput, hs⟩ := hs.take
  have hfirst : c.first = firstHandle (some n.handle) pre := by rw [hl.first, firstHandle_append]; rfl
  obtain ⟨slots, hnext, hs⟩ :=
    Holds.linkNext (c := { c with slots := slots }) hs hfirst (firstHandle none post)
  have hlast : c.last = lastHandle (some n.handle) post := by rw [hl.last, lastHandle_append]; rfl
  obtain ⟨slots, hprev, hs⟩ :=
    Holds.linkPrev (c := { c with slots := slots, first := firstHandle (firstHandle none post) pre })
      hs hlast (lastHandle none pre)
  have hoff := hl.offsets
  rw [List.map_append, List.map_cons, List.nodup_middle, List.nodup_cons, ← List.map_append] at hoff
  refine ⟨⟨slots, n.handle :: c.vacant, firstHandle (firstHandle none post) pre,
    lastHandle (lastHandle none pre) post, c.byOffset.erase n.offset⟩, ?_, ?_, ?_, ?_, ?_, hoff.2, ?_⟩
  · rw [Chain.remove, hl.get]
    change (c.put n.handle none >>= fun d => d.linkNext (lastHandle none pre) (firstHandle none post) >>=
      fun d => d.linkPrev (firstHandle none post) (lastHandle none pre) >>= fun d => pure (_, _)) = _
    rw [hput]
    change (Chain.linkNext _ _ _ >>= fun d => d.linkPrev _ _ >>= fun d => pure (_, _)) = _
    rw [hnext]
    change (Chain.linkPrev _ _ _ >>= fun d => pure (_, _)) = _
    rw [hprev]
    rfl
  · rw [links_append]
    exact hs
  · rw [firstHandle_append]
  · rw [lastHandle_append]
  · intro o k
    have hk := hl.index o k
    have ho := hoff.1
    simp only [List.map_append, List.mem_append, List.map_cons, List.mem_cons, Std.HashMap.getElem?_erase,
      Node.key, Prod.mk.injEq, List.mem_map] at hk ho ⊢
    grind
  · have hmem : n.offset ∈ c.byOffset := by
      have hn := (hl.index n.offset n.handle).mpr (by simp [Node.key])
      rw [Std.HashMap.mem_iff_isSome_getElem?, hn]
      rfl
    have hsize := hl.size
    simp only [Chain.size, Std.HashMap.size_erase, hmem, if_true, List.length_append,
      List.length_cons] at hsize ⊢
    omega

lemma Lists.length_le (hl : c.Lists l) : l.length ≤ c.slots.size := by
  have hsub : l.map Node.handle ⊆ List.range c.slots.size := by
    intro h hh
    rw [← links_handles none none] at hh
    obtain ⟨⟨k, b⟩, hb, rfl⟩ := List.mem_map.mp hh
    exact List.mem_range.mpr (hl.slots.lt_size hb)
  simpa using (List.subperm_of_subset hl.handles hsub).length_le

lemma Lists.visits (hl : c.Lists (pre ++ post)) :
    c.Visits Block.next (firstHandle none post) (links (lastHandle none pre) none post) := by
  induction post generalizing pre with
  | nil => exact .stop
  | cons n rest ih =>
    have hrest := ih (show c.Lists ((pre ++ [n]) ++ rest) by rwa [← List.append_cons])
    rw [lastHandle_append] at hrest
    exact .visit hl.get hrest

lemma Lists.toList (hl : c.Lists l) : c.toList = .ok (links none none l) := by
  rw [Chain.toList, hl.first]
  apply (Lists.visits (show c.Lists ([] ++ l) from hl)).walk
  rw [links_length]
  exact hl.length_le

end Chain

end BitStore
