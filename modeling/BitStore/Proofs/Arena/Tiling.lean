import BitStore.Arena.Basic
import Mathlib.Data.List.Chain
import Mathlib.Data.List.MinMax
import Mathlib.Data.Prod.Lex

/-! An arena as a plain list of segments from the front of its region on. -/

namespace BitStore

structure Segment where
  size : Nat
  free : Bool
  deriving DecidableEq, Repr

namespace Segment

def total : List Segment → Nat
  | [] => 0
  | s :: rest => s.size + total rest

def coalesce : List Segment → List Segment
  | [] => []
  | s :: rest =>
    match coalesce rest with
    | [] => [s]
    | t :: rest => if s.free && t.free then ⟨s.size + t.size, true⟩ :: rest else s :: t :: rest

def cut (size kept : Nat) : List Segment :=
  if minBlockSize ≤ size - kept then [⟨kept, false⟩, ⟨size - kept, true⟩] else [⟨size, false⟩]

def Apart (l : List Segment) : Prop := l.IsChain fun s t => (s.free && t.free) = false

@[simp] lemma total_append (xs ys : List Segment) : total (xs ++ ys) = total xs + total ys := by
  induction xs with
  | nil => simp [total]
  | cons s rest ih => simp only [List.cons_append, total, ih, Nat.add_assoc]

def stem (l : List Segment) : List Segment := if l.getLast?.any (·.free) then l.dropLast else l

lemma stem_free (xs : List Segment) (size : Nat) : stem (xs ++ [⟨size, true⟩]) = xs := by
  simp [stem]

lemma stem_used {l : List Segment} (hl : ∀ s ∈ l.getLast?, s.free = false) : stem l = l := by
  rw [stem]
  cases h : l.getLast? with
  | none => rfl
  | some s => simp [hl s h]

lemma stem_split (l : List Segment) :
    stem l = l ∧ (∀ s ∈ l.getLast?, s.free = false) ∨ ∃ k, l = stem l ++ [⟨k, true⟩] := by
  rcases l.eq_nil_or_concat' with rfl | ⟨xs, ⟨k, free⟩, rfl⟩
  · exact .inl ⟨rfl, by simp⟩
  · cases free with
    | false =>
      have hused : ∀ s ∈ (xs ++ [Segment.mk k false]).getLast?, s.free = false := by simp
      exact .inl ⟨stem_used hused, hused⟩
    | true => exact .inr ⟨k, by rw [stem_free]⟩

lemma coalesce_cons (s : Segment) (l : List Segment) :
    coalesce (s :: l) = match coalesce l with
      | [] => [s]
      | t :: rest => if s.free && t.free then ⟨s.size + t.size, true⟩ :: rest else s :: t :: rest := rfl

@[simp] lemma total_coalesce (l : List Segment) : total (coalesce l) = total l := by
  induction l with
  | nil => rfl
  | cons s rest ih =>
    rw [coalesce_cons, total, ← ih]
    cases coalesce rest with
    | nil => rfl
    | cons t tail =>
      dsimp only
      split
      · simp only [total, Nat.add_assoc]
      · rfl

lemma total_cut {size kept : Nat} (h : kept ≤ size) : total (cut size kept) = size := by
  rw [cut]
  split
  · simp only [total]
    omega
  · rfl

lemma coalesce_of_apart {l : List Segment} (hl : Apart l) : coalesce l = l := by
  induction l with
  | nil => rfl
  | cons s rest ih =>
    rw [coalesce_cons, ih hl.of_cons]
    cases rest with
    | nil => rfl
    | cons t rest =>
      obtain ⟨hst, _⟩ := List.isChain_cons_cons.mp hl
      simp [hst]

lemma Apart.around {xs ys : List Segment} (hx : Apart xs) (hy : Apart ys) (size : Nat) :
    Apart (xs ++ ⟨size, false⟩ :: ys) := by
  refine List.isChain_append.mpr ⟨hx, List.isChain_cons.mpr ⟨fun t _ => rfl, hy⟩, ?_⟩
  rintro t _ _ ⟨⟩
  exact Bool.and_false _

lemma Apart.use {xs ys : List Segment} {s : Segment} (h : Apart (xs ++ s :: ys)) (size : Nat) :
    Apart (xs ++ ⟨size, false⟩ :: ys) :=
  Apart.around h.left_of_append h.right_of_append.of_cons size

lemma Apart.cut {xs ys : List Segment} {size : Nat} (h : Apart (xs ++ ⟨size, true⟩ :: ys)) (kept : Nat) :
    Apart (xs ++ cut size kept ++ ys) := by
  rw [List.append_assoc, Segment.cut]
  split
  · refine Apart.around h.left_of_append (List.isChain_cons.mpr ⟨?_, h.right_of_append.of_cons⟩) kept
    exact (List.isChain_cons.mp h.right_of_append).1
  · exact h.use size

lemma coalesce_congr (xs : List Segment) {ys zs : List Segment} (h : coalesce ys = coalesce zs) :
    coalesce (xs ++ ys) = coalesce (xs ++ zs) := by
  induction xs with
  | nil => exact h
  | cons s rest ih => rw [List.cons_append, List.cons_append, coalesce_cons, coalesce_cons, ih]

lemma coalesce_join (xs ys : List Segment) (m n : Nat) :
    coalesce (xs ++ ⟨m, true⟩ :: ⟨n, true⟩ :: ys) = coalesce (xs ++ ⟨m + n, true⟩ :: ys) := by
  apply coalesce_congr xs
  rw [coalesce_cons, coalesce_cons ⟨n, true⟩, coalesce_cons ⟨m + n, true⟩]
  cases coalesce ys with
  | nil => rfl
  | cons t rest =>
    cases hf : t.free with
    | false => simp [hf]
    | true => simp [hf, Nat.add_assoc]

end Segment

open Segment

structure Spot where
  before : List Segment
  segment : Segment
  after : List Segment

namespace Spot

def offset (x : Spot) : Nat := total x.before

def all : List Segment → List Spot
  | [] => []
  | s :: rest => ⟨[], s, rest⟩ :: (all rest).map fun x => { x with before := s :: x.before }

lemma mem_all {x : Spot} {l : List Segment} : x ∈ all l ↔ l = x.before ++ x.segment :: x.after := by
  induction l generalizing x with
  | nil => simp [all]
  | cons s rest ih =>
    simp only [all, List.mem_cons, List.mem_map]
    constructor
    · rintro (rfl | ⟨y, hy, rfl⟩)
      · rfl
      · rw [ih.mp hy, List.cons_append]
    · intro h
      obtain ⟨before, segment, after⟩ := x
      cases before with
      | nil =>
        obtain ⟨rfl, rfl⟩ := List.cons.inj h
        exact Or.inl rfl
      | cons t before =>
        obtain ⟨rfl, hrest⟩ := List.cons.inj h
        exact Or.inr ⟨⟨before, segment, after⟩, ih.mpr hrest, rfl⟩

lemma offset_injective {l : List Segment} (hpos : ∀ s ∈ l, 0 < s.size) {x y : Spot} (hx : x ∈ all l)
    (hy : y ∈ all l) (h : x.offset = y.offset) : x = y := by
  induction l generalizing x y with
  | nil => simp [all] at hx
  | cons s rest ih =>
    have hs : 0 < s.size := hpos s (List.mem_cons_self ..)
    simp only [all, List.mem_cons, List.mem_map] at hx hy
    rcases hx with rfl | ⟨x, hx, rfl⟩ <;> rcases hy with rfl | ⟨y, hy, rfl⟩
    · rfl
    · simp only [offset, total] at h
      omega
    · simp only [offset, total] at h
      omega
    · have hxy : x.offset = y.offset := Nat.add_left_cancel h
      rw [ih (fun t ht => hpos t (List.mem_cons_of_mem _ ht)) hx hy hxy]

def stretched (x : Spot) : Option (Nat × List Segment) :=
  match x.after with
  | ⟨size, true⟩ :: rest => some (x.segment.size + size, rest)
  | _ => none

lemma after_stretched {x : Spot} {size : Nat} {after : List Segment} (hx : x.stretched = some (size, after)) :
    ∃ m, size = x.segment.size + m ∧ x.after = ⟨m, true⟩ :: after := by
  rw [stretched] at hx
  split at hx
  · next m rest hafter =>
    obtain ⟨rfl, rfl⟩ := Prod.mk.inj (Option.some.inj hx)
    exact ⟨m, rfl, hafter⟩
  · cases hx

inductive Spans (x : Spot) : Nat → List Segment → Prop
  | own : Spans x x.segment.size x.after
  | stretched {size : Nat} {after : List Segment} : x.stretched = some (size, after) → Spans x size after

lemma Spans.total {x : Spot} {size : Nat} {after : List Segment} (hx : x.Spans size after) :
    size + Segment.total after = x.segment.size + Segment.total x.after := by
  cases hx with
  | own => rfl
  | stretched hx =>
    obtain ⟨m, rfl, hafter⟩ := after_stretched hx
    rw [hafter, Segment.total, Nat.add_assoc]

end Spot

structure Tiling where
  region : Region
  segments : List Segment
  memory : Memory

namespace Tiling

def top (t : Tiling) : Nat := total t.segments

def left (t : Tiling) : Nat := t.region.len - t.top

def sizeFor (n : Nat) : Nat := max ((n + 7) / 8 * 8) minBlockSize

lemma le_sizeFor (n : Nat) : n ≤ sizeFor n := by
  rw [sizeFor]
  omega

lemma sizeFor_le {n k : Nat} (hn : n ≤ k) (hmod : k % alignment = 0) (hmin : minBlockSize ≤ k) : sizeFor n ≤ k := by
  apply Nat.max_le.mpr
  rw [alignment] at hmod
  exact ⟨by omega, hmin⟩

lemma sizeFor_self {k : Nat} (hmod : k % alignment = 0) (hmin : minBlockSize ≤ k) : sizeFor k = k :=
  Nat.le_antisymm (sizeFor_le (Nat.le_refl k) hmod hmin) (le_sizeFor k)

def fit? (t : Tiling) (size : Nat) : Option Spot :=
  ((Spot.all t.segments).filter fun x => x.segment.free && decide (size ≤ x.segment.size)).argmin
    fun x => toLex (x.segment.size, x.offset)

lemma fit?_eq_some {t : Tiling} {size : Nat} {x : Spot}
    (hx : t.segments = x.before ++ x.segment :: x.after) (hfree : x.segment.free = true)
    (hsize : size ≤ x.segment.size)
    (hmin : ∀ y : Spot, t.segments = y.before ++ y.segment :: y.after → y.segment.free = true →
      size ≤ y.segment.size → y = x ∨ x.segment.size < y.segment.size ∨
        x.segment.size = y.segment.size ∧ x.offset < y.offset) :
    t.fit? size = some x := by
  have hmem : x ∈ (Spot.all t.segments).filter
      fun x => x.segment.free && decide (size ≤ x.segment.size) := by
    simp [Spot.mem_all, hx, hfree, hsize]
  cases h : t.fit? size with
  | none =>
    rw [fit?, List.argmin_eq_none] at h
    rw [h] at hmem
    simp at hmem
  | some y =>
    have hle := List.le_of_mem_argmin hmem h
    have hy := List.argmin_mem h
    simp only [List.mem_filter, Spot.mem_all, Bool.and_eq_true, decide_eq_true_eq] at hy
    rw [Prod.Lex.le_iff] at hle
    simp only [ofLex_toLex] at hle
    rcases hmin y hy.1 hy.2.1 hy.2.2 with rfl | hlt
    · rfl
    · omega

lemma fit?_eq_none_iff {t : Tiling} {size : Nat} :
    t.fit? size = none ↔ ∀ s ∈ t.segments, s.free = true → s.size < size := by
  rw [fit?, List.argmin_eq_none, List.filter_eq_nil_iff]
  simp only [Bool.and_eq_true, decide_eq_true_eq, not_and, Nat.not_le]
  constructor
  · intro h s hs
    obtain ⟨before, after, hl⟩ := List.append_of_mem hs
    exact h ⟨before, s, after⟩ (Spot.mem_all.mpr hl)
  · intro h x hx
    exact h x.segment (by rw [Spot.mem_all.mp hx]; simp)

lemma of_fit? {t : Tiling} {size : Nat} {x : Spot} (h : t.fit? size = some x) :
    t.segments = x.before ++ x.segment :: x.after ∧ x.segment.free = true ∧ size ≤ x.segment.size := by
  have hx := List.argmin_mem h
  simpa only [List.mem_filter, Spot.mem_all, Bool.and_eq_true, decide_eq_true_eq] using hx

lemma fitted_top {t : Tiling} {size : Nat} {x : Spot} (hx : t.fit? size = some x) :
    total (x.before ++ cut x.segment.size size ++ x.after) = t.top := by
  obtain ⟨hsplit, _, hle⟩ := of_fit? hx
  rw [top, hsplit, List.append_assoc, total_append, total_append, total_cut hle, total_append, total]

lemma grown_top {t : Tiling} {n : Nat} (hnone : t.fit? (sizeFor n) = none) :
    t.top < total (stem t.segments) + sizeFor n := by
  have hpos : 0 < sizeFor n := Nat.lt_of_lt_of_le (by decide) (Nat.le_max_right _ _)
  rw [top]
  rcases stem_split t.segments with ⟨hstem, _⟩ | ⟨k, hfree⟩
  · rw [hstem]
    omega
  · have hlt : k < sizeFor n := fit?_eq_none_iff.mp hnone ⟨k, true⟩ (by rw [hfree]; simp) rfl
    conv_lhs => rw [hfree, total_append]
    simpa [total] using hlt

def grow (t : Tiling) (size : Nat) : Except StoreError (Nat × Tiling) :=
  match t.segments.getLast? with
  | some ⟨k, true⟩ =>
    if t.left < size - k then .error (.outOfMemory (size - k) t.left)
    else .ok (t.region.base + (t.top - k),
      { t with segments := t.segments.dropLast ++ [⟨size, false⟩] })
  | _ =>
    if t.left < size then .error (.outOfMemory size t.left)
    else .ok (t.region.base + t.top, { t with segments := t.segments ++ [⟨size, false⟩] })

lemma grow_free {t : Tiling} {xs : List Segment} {k : Nat} (ht : t.segments = xs ++ [⟨k, true⟩]) (size : Nat) :
    t.grow size =
      if t.left < size - k then .error (.outOfMemory (size - k) t.left)
      else .ok (t.region.base + total xs, { t with segments := xs ++ [⟨size, false⟩] }) := by
  have htop : t.top - k = total xs := by simp [top, ht, total]
  rw [grow, ht, List.getLast?_concat, List.dropLast_concat]
  simp only [htop]

lemma grow_used {t : Tiling} (ht : ∀ s ∈ t.segments.getLast?, s.free = false) (size : Nat) :
    t.grow size =
      if t.left < size then .error (.outOfMemory size t.left)
      else .ok (t.region.base + t.top, { t with segments := t.segments ++ [⟨size, false⟩] }) := by
  rw [grow]
  split
  · next h => simpa using ht _ h
  · rfl

lemma of_grow {t u : Tiling} {size q : Nat} (h : t.grow size = .ok (q, u)) :
    q = t.region.base + total (stem t.segments) ∧
      u = { t with segments := stem t.segments ++ [⟨size, false⟩] } := by
  rcases stem_split t.segments with ⟨hstem, hused⟩ | ⟨k, hfree⟩
  · rw [grow_used hused] at h
    split at h
    · cases h
    · obtain ⟨hq, hu⟩ := Prod.mk.inj (Except.ok.inj h)
      rw [hstem]
      exact ⟨hq.symm, hu.symm⟩
  · rw [grow_free hfree] at h
    split at h
    · cases h
    · obtain ⟨hq, hu⟩ := Prod.mk.inj (Except.ok.inj h)
      exact ⟨hq.symm, hu.symm⟩

def allocate (t : Tiling) (n : Nat) : Except StoreError (Nat × Tiling) :=
  if t.region.len < n then .error (.outOfMemory n t.left)
  else
    match t.fit? (sizeFor n) with
    | some x =>
      .ok (t.region.base + x.offset,
        { t with segments := x.before ++ cut x.segment.size (sizeFor n) ++ x.after })
    | none => t.grow (sizeFor n)

lemma of_allocate {t u : Tiling} {n q : Nat} (h : t.allocate n = .ok (q, u)) :
    n ≤ t.region.len ∧
      ((∃ x, t.fit? (sizeFor n) = some x ∧ q = t.region.base + x.offset ∧
          u = { t with segments := x.before ++ cut x.segment.size (sizeFor n) ++ x.after }) ∨
        t.fit? (sizeFor n) = none ∧ q = t.region.base + total (stem t.segments) ∧
          u = { t with segments := stem t.segments ++ [⟨sizeFor n, false⟩] }) := by
  rw [allocate] at h
  split at h
  · cases h
  · next hn =>
    refine ⟨Nat.not_lt.mp hn, ?_⟩
    cases hfit : t.fit? (sizeFor n) with
    | some x =>
      rw [hfit] at h
      obtain ⟨hq, hu⟩ := Prod.mk.inj (Except.ok.inj h)
      exact .inl ⟨x, rfl, hq.symm, hu.symm⟩
    | none =>
      rw [hfit] at h
      exact .inr ⟨rfl, of_grow h⟩

def held? (t : Tiling) (p : Nat) : Option Spot :=
  (Spot.all t.segments).find? fun x => !x.segment.free && p == t.region.base + x.offset

lemma of_held? {t : Tiling} {p : Nat} {x : Spot} (h : t.held? p = some x) :
    t.segments = x.before ++ x.segment :: x.after ∧ x.segment.free = false ∧
      p = t.region.base + x.offset := by
  have hp := List.find?_some h
  simp only [Bool.and_eq_true, Bool.not_eq_true', beq_iff_eq] at hp
  exact ⟨Spot.mem_all.mp (List.mem_of_find?_eq_some h), hp⟩

lemma held?_eq_some_iff {t : Tiling} (hpos : ∀ s ∈ t.segments, 0 < s.size) {p : Nat} {x : Spot} :
    t.held? p = some x ↔ t.segments = x.before ++ x.segment :: x.after ∧ x.segment.free = false ∧
      p = t.region.base + x.offset := by
  constructor
  · exact of_held?
  · rintro ⟨hx, hfree, rfl⟩
    cases h : t.held? (t.region.base + x.offset) with
    | none =>
      rw [held?, List.find?_eq_none] at h
      have hn := h x (Spot.mem_all.mpr hx)
      simp [hfree] at hn
    | some y =>
      obtain ⟨hy, _, ho⟩ := of_held? h
      rw [Spot.offset_injective hpos (Spot.mem_all.mpr hx) (Spot.mem_all.mpr hy) (Nat.add_left_cancel ho)]

lemma held?_at {t : Tiling} {p size : Nat} {xs ys : List Segment} (ht : t.segments = xs ++ ⟨size, false⟩ :: ys)
    (hpos : ∀ s ∈ t.segments, 0 < s.size) (hp : p = t.region.base + total xs) :
    t.held? p = some ⟨xs, ⟨size, false⟩, ys⟩ :=
  (held?_eq_some_iff hpos).mpr ⟨ht, rfl, hp⟩

lemma held?_eq_none {t : Tiling} {p : Nat} (h : t.held? p = none) {x : Spot}
    (hx : t.segments = x.before ++ x.segment :: x.after) (hfree : x.segment.free = false) :
    p ≠ t.region.base + x.offset := by
  intro hp
  rw [held?, List.find?_eq_none] at h
  have hn := h x (Spot.mem_all.mpr hx)
  simp [hfree, hp] at hn

def giveBack (t : Tiling) (p : Nat) : Except StoreError (Unit × Tiling) :=
  if p = 0 then .ok ((), t)
  else
    match t.held? p with
    | none => .error (.invalidPointer p)
    | some x =>
      .ok ((), { t with segments := coalesce (x.before ++ ⟨x.segment.size, true⟩ :: x.after) })

lemma giveBack_at {t : Tiling} {p size : Nat} {xs ys : List Segment}
    (ht : t.segments = xs ++ ⟨size, false⟩ :: ys) (hpos : ∀ s ∈ t.segments, 0 < s.size)
    (hp : p = t.region.base + total xs) (hnull : p ≠ 0) :
    t.giveBack p = .ok ((), { t with segments := coalesce (xs ++ ⟨size, true⟩ :: ys) }) := by
  rw [giveBack, if_neg hnull, held?_at ht hpos hp]

lemma of_giveBack {t u : Tiling} {p : Nat} (hp : p ≠ 0) (h : t.giveBack p = .ok ((), u)) :
    ∃ x, t.held? p = some x ∧
      u = { t with segments := coalesce (x.before ++ ⟨x.segment.size, true⟩ :: x.after) } := by
  rw [giveBack, if_neg hp] at h
  cases hheld : t.held? p with
  | none =>
    rw [hheld] at h
    cases h
  | some x =>
    rw [hheld] at h
    obtain ⟨_, hu⟩ := Prod.mk.inj (Except.ok.inj h)
    exact ⟨x, rfl, hu.symm⟩

def move (t : Tiling) (x : Spot) (p n : Nat) : Except StoreError (Nat × Tiling) := do
  let (q, u) ← t.allocate n
  let (_, v) ← u.giveBack p
  return (q, { v with
    memory := t.memory.copyWords (x.offset / 8) ((q - t.region.base) / 8) (x.segment.size / 8) })

lemma of_move {t u : Tiling} {x : Spot} {p n q : Nat} (h : t.move x p n = .ok (q, u)) :
    ∃ v w, t.allocate n = .ok (q, v) ∧ v.giveBack p = .ok ((), w) ∧ u = { w with
      memory := t.memory.copyWords (x.offset / 8) ((q - t.region.base) / 8) (x.segment.size / 8) } := by
  rw [move] at h
  cases halloc : t.allocate n with
  | error e =>
    rw [halloc] at h
    cases h
  | ok r =>
    obtain ⟨q', v⟩ := r
    cases hgive : v.giveBack p with
    | error e =>
      simp only [halloc, hgive, bind, Except.bind] at h
      cases h
    | ok r =>
      simp only [halloc, hgive, bind, Except.bind, pure, Except.pure] at h
      obtain ⟨rfl, rfl⟩ := Prod.mk.inj (Except.ok.inj h)
      exact ⟨v, r.2, rfl, hgive, rfl⟩

def resize (t : Tiling) (p n : Nat) : Except StoreError (Nat × Tiling) :=
  if p = 0 then t.allocate n
  else
    match t.held? p with
    | none => .error (.invalidPointer p)
    | some x =>
      if t.region.len < n then .error (.outOfMemory n t.left)
      else if sizeFor n ≤ x.segment.size then
        .ok (p, { t with segments := coalesce (x.before ++ cut x.segment.size (sizeFor n) ++ x.after) })
      else
        match x.stretched.filter fun y => decide (sizeFor n ≤ y.1) with
        | some (size, after) =>
          .ok (p, { t with segments := coalesce (x.before ++ cut size (sizeFor n) ++ after) })
        | none => t.move x p n

lemma of_resize {t u : Tiling} {p n q : Nat} (hp : p ≠ 0) (h : t.resize p n = .ok (q, u)) :
    ∃ x, t.held? p = some x ∧
      ((∃ size after, x.Spans size after ∧ sizeFor n ≤ size ∧ q = p ∧
          u = { t with segments := coalesce (x.before ++ cut size (sizeFor n) ++ after) }) ∨
        x.segment.size < sizeFor n ∧ t.move x p n = .ok (q, u)) := by
  rw [resize, if_neg hp] at h
  cases hheld : t.held? p with
  | none =>
    rw [hheld] at h
    cases h
  | some x =>
    refine ⟨x, rfl, ?_⟩
    simp only [hheld] at h
    split at h
    · cases h
    split at h
    · next hle =>
      obtain ⟨hq, hu⟩ := Prod.mk.inj (Except.ok.inj h)
      exact .inl ⟨_, _, .own, hle, hq.symm, hu.symm⟩
    split at h
    · next hroom =>
      obtain ⟨hy, hle⟩ := Option.filter_eq_some_iff.mp hroom
      obtain ⟨hq, hu⟩ := Prod.mk.inj (Except.ok.inj h)
      exact .inl ⟨_, _, .stretched hy, of_decide_eq_true hle, hq.symm, hu.symm⟩
    · next hlt _ _ => exact .inr ⟨Nat.not_le.mp hlt, h⟩

def usableSize (t : Tiling) (p : Nat) : Except StoreError Nat :=
  match t.held? p with
  | none => .error (.invalidPointer p)
  | some x => .ok x.segment.size

def owns (t : Tiling) (p : Nat) : Bool :=
  decide (p = 0 ∨ t.region.base ≤ p ∧ p < t.region.base + t.top)

def freeBytes (t : Tiling) : Nat := total (t.segments.filter (·.free))

def stats (t : Tiling) : ArenaStats :=
  ⟨t.region.len, t.top, t.top - t.freeBytes, t.freeBytes, t.segments.length,
    t.segments.countP (·.free)⟩

end Tiling

end BitStore
