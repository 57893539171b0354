import BitStore.Proofs.Arena.ChainView
import BitStore.Proofs.Arena.FreeView
import BitStore.Proofs.Arena.Tiling
import BitStore.Proofs.Outcome

/-! The nodes of an arena tile the part handed out, the free ones are filed and never touch. -/

namespace BitStore

open Segment

namespace Node

def segment (n : Node) : Segment := ⟨n.size, n.free⟩

def entry (n : Node) : FreeBlock := ⟨n.size, n.offset, n.handle⟩

def Sized (n : Node) : Prop := minBlockSize ≤ n.size ∧ n.size % alignment = 0

lemma Sized.pos {n : Node} (hn : n.Sized) : 0 < n.size := Nat.lt_of_lt_of_le (by decide) hn.1

end Node

def Tiles : Nat → List Node → Nat → Prop
  | start, [], stop => start = stop
  | start, n :: rest, stop => n.offset = start ∧ Tiles (start + n.size) rest stop

lemma tiles_append {start stop : Nat} {xs ys : List Node} :
    Tiles start (xs ++ ys) stop ↔ ∃ mid, Tiles start xs mid ∧ Tiles mid ys stop := by
  induction xs generalizing start with
  | nil => simp [Tiles]
  | cons n rest ih => simp [Tiles, ih, and_assoc]

lemma Tiles.total {start stop : Nat} {l : List Node} (hl : Tiles start l stop) :
    start + Segment.total (l.map Node.segment) = stop := by
  induction l generalizing start with
  | nil => exact hl
  | cons n rest ih =>
    have hrest := ih hl.2
    simp only [List.map_cons, Segment.total, Node.segment] at hrest ⊢
    omega

lemma Tiles.within {start stop : Nat} {l : List Node} (hl : Tiles start l stop) :
    ∀ n ∈ l, start ≤ n.offset ∧ n.offset + n.size ≤ stop := by
  induction l generalizing start with
  | nil => simp
  | cons n rest ih =>
    have htotal := hl.2.total
    have hn := hl.1
    intro m hm
    rcases List.mem_cons.mp hm with rfl | hm
    · omega
    · have hrest := ih hl.2 m hm
      omega

lemma Tiles.offset {stop : Nat} {pre post : List Node} {n : Node} (hl : Tiles 0 (pre ++ n :: post) stop) :
    n.offset = Segment.total (pre.map Node.segment) := by
  obtain ⟨mid, hpre, hn, _⟩ := tiles_append.mp hl
  have htotal := hpre.total
  omega

lemma Tiles.join {start stop : Nat} {pre post : List Node} {n m : Node} (h : Handle) (free : Bool)
    (hl : Tiles start (pre ++ n :: m :: post) stop) :
    Tiles start (pre ++ ⟨h, n.offset, n.size + m.size, free⟩ :: post) stop := by
  obtain ⟨mid, hpre, hn, hm, hpost⟩ := tiles_append.mp hl
  refine tiles_append.mpr ⟨mid, hpre, hn, ?_⟩
  rwa [← Nat.add_assoc]

lemma Tiles.replace {start stop : Nat} {pre post : List Node} {n m : Node}
    (hl : Tiles start (pre ++ n :: post) stop) (ho : m.offset = n.offset) (hs : m.size = n.size) :
    Tiles start (pre ++ m :: post) stop := by
  obtain ⟨mid, hpre, hn, hpost⟩ := tiles_append.mp hl
  exact tiles_append.mpr ⟨mid, hpre, ho.trans hn, hs ▸ hpost⟩

lemma Tiles.inside {start stop o : Nat} {pre post : List Node} {n : Node}
    (hl : Tiles start (pre ++ n :: post) stop) (hlow : n.offset < o) (hhigh : o < n.offset + n.size) :
    o ∉ (pre ++ n :: post).map Node.offset := by
  obtain ⟨mid, hpre, hn, hpost⟩ := tiles_append.mp hl
  intro hmem
  obtain ⟨m, hm, ho⟩ := List.mem_map.mp hmem
  rcases List.mem_append.mp hm with hm | hm
  · have hm' := hpre.within m hm
    omega
  · rcases List.mem_cons.mp hm with rfl | hm
    · omega
    · have hm' := hpost.within m hm
      omega

lemma sized_replace {pre post : List Node} {n m : Node} (hl : ∀ k ∈ pre ++ n :: post, k.Sized) (hm : m.Sized) :
    ∀ k ∈ pre ++ m :: post, k.Sized := by
  rw [List.forall_mem_append, List.forall_mem_cons] at hl ⊢
  exact ⟨hl.1, hm, hl.2.2⟩

def filed (l : List Node) : List FreeBlock := (l.filter (·.free)).map Node.entry

lemma filed_append (xs ys : List Node) : filed (xs ++ ys) = filed xs ++ filed ys := by
  simp [filed]

lemma filed_cons_free {n : Node} (hn : n.free = true) (l : List Node) :
    filed (n :: l) = n.entry :: filed l := by
  simp [filed, hn]

lemma filed_cons_used {n : Node} (hn : n.free = false) (l : List Node) : filed (n :: l) = filed l := by
  simp [filed, hn]

lemma filed_middle {n : Node} (hn : n.free = true) (pre post : List Node) :
    (filed (pre ++ n :: post)).Perm (n.entry :: filed (pre ++ post)) := by
  rw [filed_append, filed_append, filed_cons_free hn]
  exact List.perm_middle

lemma filed_middle_used {n : Node} (hn : n.free = false) (pre post : List Node) :
    filed (pre ++ n :: post) = filed (pre ++ post) := by
  rw [filed_append, filed_append, filed_cons_used hn]

lemma mem_filed {l : List Node} {e : FreeBlock} :
    e ∈ filed l ↔ ∃ n ∈ l, n.free = true ∧ n.entry = e := by
  simp [filed, and_assoc]

lemma filedBytes_le (l : List Node) :
    FreeIndex.filedBytes (filed l) ≤ total (l.map Node.segment) := by
  induction l with
  | nil => exact Nat.le_refl 0
  | cons n rest ih =>
    cases hn : n.free with
    | false =>
      rw [filed_cons_used hn, List.map_cons, total]
      omega
    | true =>
      rw [filed_cons_free hn, List.map_cons, total, FreeIndex.filedBytes]
      exact Nat.add_le_add_left ih _

namespace Region

structure Placed (r : Region) : Prop where
  base_pos : 0 < r.base
  stop_le : r.base + r.len ≤ maxCount

end Region

namespace Arena

structure Shaped (a : Arena) (l : List Node) : Prop where
  chain : a.chain.Lists l
  tiles : Tiles 0 l a.top
  sized : ∀ n ∈ l, n.Sized
  top_le : a.top ≤ a.region.len
  placed : a.region.Placed
  roundable : a.region.len + 7 ≤ maxCount

structure Layout (a : Arena) (l : List Node) : Prop extends a.Shaped l where
  free : a.free.Files (filed l)
  apart : Apart (l.map Node.segment)

/-- The block between `pre` and `post` is neither filed nor joined with its neighbours. -/
structure InHand (a : Arena) (pre : List Node) (n : Node) (post : List Node) : Prop extends
    a.Shaped (pre ++ n :: post) where
  free : a.free.Files (filed (pre ++ post))
  apart_before : Apart (pre.map Node.segment)
  apart_after : Apart (post.map Node.segment)

structure Frame (a t : Arena) : Prop where
  region : t.region = a.region
  memory : t.memory = a.memory

variable {a t : Arena} {l pre post : List Node} {n m : Node}

lemma Frame.refl (a : Arena) : Frame a a := ⟨rfl, rfl⟩

lemma Frame.trans {u : Arena} (h : Frame a t) (h' : Frame t u) : Frame a u :=
  ⟨h'.region.trans h.region, h'.memory.trans h.memory⟩

lemma Shaped.top_le_maxCount (ha : a.Shaped l) : a.top ≤ maxCount := by
  have htop := ha.top_le
  have hround := ha.roundable
  omega

lemma Shaped.end_le (ha : a.Shaped l) (hn : n ∈ l) : n.offset + n.size ≤ a.top :=
  (ha.tiles.within n hn).2

lemma Shaped.join_le (ha : a.Shaped (pre ++ n :: m :: post)) : n.size + m.size ≤ maxCount := by
  have htop := ha.top_le_maxCount
  have hend := (ha.tiles.join n.handle n.free).within _ (List.mem_append_right _ (List.mem_cons_self ..))
  simp only at hend
  omega

lemma Shaped.entry_fresh (ha : a.Shaped (pre ++ n :: post)) : n.entry ∉ filed (pre ++ post) := by
  intro hmem
  obtain ⟨m, hm, _, he⟩ := mem_filed.mp hmem
  have hnodup := ha.chain.handles
  rw [List.map_append, List.map_cons, List.nodup_middle, List.nodup_cons, ← List.map_append] at hnodup
  exact hnodup.1 (List.mem_map.mpr ⟨m, hm, congrArg FreeBlock.handle he⟩)

lemma Shaped.filed_le (ha : a.Shaped (pre ++ n :: post)) :
    FreeIndex.filedBytes (filed (pre ++ post)) + n.entry.size ≤ maxCount := by
  have hle := filedBytes_le (pre ++ post)
  have htotal := ha.tiles.total
  have htop := ha.top_le_maxCount
  simp only [List.map_append, List.map_cons, total_append, total, Node.segment, Node.entry] at hle htotal ⊢
  omega

lemma Shaped.withFree (ha : a.Shaped l) (f : FreeIndex) : ({ a with free := f } : Arena).Shaped l :=
  ⟨ha.chain, ha.tiles, ha.sized, ha.top_le, ha.placed, ha.roundable⟩

lemma Shaped.withChain (ha : a.Shaped l) {c : Chain} {l' : List Node} (hc : c.Lists l')
    (ht : Tiles 0 l' a.top) (hs : ∀ n ∈ l', n.Sized) : ({ a with chain := c } : Arena).Shaped l' :=
  ⟨hc, ht, hs, ha.top_le, ha.placed, ha.roundable⟩

lemma Layout.inHand (ha : a.Layout (pre ++ n :: post)) (hn : n.free = false) : a.InHand pre n post := by
  have hapart := ha.apart
  rw [List.map_append, List.map_cons] at hapart
  refine ⟨ha.toShaped, ?_, hapart.left_of_append, hapart.right_of_append.of_cons⟩
  rw [← filed_middle_used hn]
  exact ha.free

end Arena

end BitStore
