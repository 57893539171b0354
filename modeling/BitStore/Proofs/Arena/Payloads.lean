import BitStore.Proofs.Arena.Tiling
import Mathlib.Data.List.Nodup

/-! Where the segments in use start and how large they are. Only a move writes to the memory, and only inside the
payload that it makes. -/

namespace BitStore

open Segment

namespace Segment

def payloads (o : Nat) : List Segment → List (Nat × Nat)
  | [] => []
  | s :: rest => if s.free then payloads (o + s.size) rest else (o, s.size) :: payloads (o + s.size) rest

lemma payloads_free (o size : Nat) (l : List Segment) :
    payloads o (⟨size, true⟩ :: l) = payloads (o + size) l := rfl

lemma payloads_used (o size : Nat) (l : List Segment) :
    payloads o (⟨size, false⟩ :: l) = (o, size) :: payloads (o + size) l := rfl

lemma payloads_append (o : Nat) (xs ys : List Segment) :
    payloads o (xs ++ ys) = payloads o xs ++ payloads (o + total xs) ys := by
  induction xs generalizing o with
  | nil => rfl
  | cons s rest ih =>
    obtain ⟨size, free⟩ := s
    have hsum : o + size + total rest = o + total (⟨size, free⟩ :: rest) := by
      rw [total, Nat.add_assoc]
    cases free with
    | false => rw [List.cons_append, payloads_used, payloads_used, ih, hsum, List.cons_append]
    | true => rw [List.cons_append, payloads_free, payloads_free, ih, hsum]

lemma payloads_coalesce (o : Nat) (l : List Segment) : payloads o (coalesce l) = payloads o l := by
  induction l generalizing o with
  | nil => rfl
  | cons s rest ih =>
    obtain ⟨size, free⟩ := s
    have hrest := ih (o + size)
    rw [coalesce_cons]
    cases hc : coalesce rest with
    | nil =>
      rw [hc] at hrest
      cases free with
      | false => rw [payloads_used, payloads_used, hrest]
      | true => rw [payloads_free, payloads_free, hrest]
    | cons t tail =>
      obtain ⟨size', free'⟩ := t
      rw [hc] at hrest
      cases free with
      | false => exact congrArg ((o, size) :: ·) hrest
      | true =>
        cases free' with
        | false => exact hrest
        | true =>
          rw [payloads_free] at hrest
          rw [payloads_free, ← hrest, Nat.add_assoc]
          rfl

def Serves (size k : Nat) : Prop := size ≤ k ∧ k < size + minBlockSize

lemma Serves.self (size : Nat) : Serves size size := ⟨Nat.le_refl _, Nat.lt_add_of_pos_right (by decide)⟩

lemma payloads_cut (o : Nat) {size kept : Nat} (h : kept ≤ size) :
    ∃ k, Serves kept k ∧ payloads o (cut size kept) = [(o, k)] := by
  rw [cut]
  split
  · exact ⟨kept, .self kept, rfl⟩
  · next hrest => exact ⟨size, ⟨h, by omega⟩, rfl⟩

lemma payloads_stem (o : Nat) (l : List Segment) : payloads o (stem l) = payloads o l := by
  rcases stem_split l with ⟨hstem, _⟩ | ⟨k, hfree⟩
  · rw [hstem]
  · conv_rhs => rw [hfree, payloads_append]
    exact (List.append_nil _).symm

lemma payloads_within {o : Nat} {l : List Segment} :
    ∀ x ∈ payloads o l, o ≤ x.1 ∧ x.1 + x.2 ≤ o + total l := by
  induction l generalizing o with
  | nil => simp [payloads]
  | cons s rest ih =>
    obtain ⟨size, free⟩ := s
    intro x hx
    simp only [total]
    cases free with
    | false =>
      rcases List.mem_cons.mp hx with rfl | hx
      · simp only
        omega
      · have hrest := ih (o := o + size) x hx
        omega
    | true =>
      have hrest := ih (o := o + size) x hx
      omega

lemma payloads_pairwise (o : Nat) (l : List Segment) :
    (payloads o l).Pairwise fun x y => x.1 + x.2 ≤ y.1 := by
  induction l generalizing o with
  | nil => exact .nil
  | cons s rest ih =>
    obtain ⟨size, free⟩ := s
    cases free with
    | false =>
      refine List.pairwise_cons.mpr ⟨?_, ih _⟩
      intro y hy
      exact (payloads_within y hy).1
    | true => exact ih _

lemma mem_payloads {o p size : Nat} {l : List Segment} :
    (p, size) ∈ payloads o l ↔ ∃ xs ys, l = xs ++ ⟨size, false⟩ :: ys ∧ p = o + total xs := by
  constructor
  · intro hp
    induction l generalizing o with
    | nil => simp [payloads] at hp
    | cons s rest ih =>
      obtain ⟨size', free⟩ := s
      have hlater (h : (p, size) ∈ payloads (o + size') rest) :
          ∃ xs ys, ⟨size', free⟩ :: rest = xs ++ ⟨size, false⟩ :: ys ∧ p = o + total xs := by
        obtain ⟨xs, ys, rfl, rfl⟩ := ih h
        exact ⟨⟨size', free⟩ :: xs, ys, rfl, by rw [total, Nat.add_assoc]⟩
      cases free with
      | false =>
        rcases List.mem_cons.mp hp with heq | hp
        · obtain ⟨rfl, rfl⟩ := Prod.mk.inj heq
          exact ⟨[], rest, rfl, rfl⟩
        · exact hlater hp
      | true => exact hlater hp
  · rintro ⟨xs, ys, rfl, rfl⟩
    rw [payloads_append, payloads_used]
    simp

end Segment

lemma starts_nodup {l : List (Nat × Nat)} (hl : l.Pairwise fun x y => x.1 + x.2 ≤ y.1)
    (hpos : ∀ x ∈ l, 0 < x.2) : (l.map Prod.fst).Nodup := by
  rw [List.Nodup, List.pairwise_map]
  apply hl.imp_of_mem
  intro x y hx _ hle heq
  have hx' := hpos x hx
  omega

def Clear (x y : Nat × Nat) : Prop := x.1 + x.2 ≤ y.1 ∨ y.1 + y.2 ≤ x.1

instance : Std.Symm Clear := ⟨fun _ _ => Or.symm⟩

namespace Tiling

variable {t u : Tiling} {x : Spot} {n p q : Nat}

def payloads (t : Tiling) : List (Nat × Nat) := Segment.payloads t.region.base t.segments

def Sized (t : Tiling) : Prop := ∀ s ∈ t.segments, 0 < s.size ∧ s.size % alignment = 0

lemma payloads_clear {y z : Nat × Nat} (hy : y ∈ t.payloads) (hz : z ∈ t.payloads) (hyz : y ≠ z) : Clear y z :=
  ((payloads_pairwise _ _).imp fun h => .inl h).forall hy hz hyz

lemma held?_payloads (h : t.held? p = some x) :
    t.payloads = Segment.payloads t.region.base x.before ++
      (p, x.segment.size) :: Segment.payloads (p + x.segment.size) x.after := by
  obtain ⟨hsplit, hused, hp⟩ := of_held? h
  obtain ⟨before, ⟨size, free⟩, after⟩ := x
  simp only at hused
  subst hused
  rw [payloads, hsplit, payloads_append, hp]
  rfl

lemma allocate_payloads (h : t.allocate n = .ok (q, u)) :
    u.region = t.region ∧ u.memory = t.memory ∧
      ∃ k, Serves (sizeFor n) k ∧ u.payloads.Perm ((q, k) :: t.payloads) := by
  obtain ⟨_, ⟨x, hfit, rfl, rfl⟩ | ⟨_, rfl, rfl⟩⟩ := of_allocate h
  · obtain ⟨hsplit, hfree, hle⟩ := of_fit? hfit
    obtain ⟨before, ⟨size, free⟩, after⟩ := x
    simp only at hfree hle
    subst hfree
    obtain ⟨k, hk, hcut⟩ := payloads_cut (t.region.base + total before) hle
    refine ⟨rfl, rfl, k, hk, ?_⟩
    simp only [payloads, hsplit, List.append_assoc, payloads_append, hcut, total_cut hle, payloads_free]
    exact List.perm_middle
  · refine ⟨rfl, rfl, sizeFor n, .self _, ?_⟩
    rw [payloads, payloads_append, payloads_stem]
    exact List.perm_append_singleton _ _

lemma giveBack_payloads (hp : p ≠ 0) (h : t.giveBack p = .ok ((), u)) :
    u.region = t.region ∧ u.memory = t.memory ∧ ∃ k, t.payloads.Perm ((p, k) :: u.payloads) := by
  obtain ⟨x, hheld, rfl⟩ := of_giveBack hp h
  refine ⟨rfl, rfl, x.segment.size, ?_⟩
  obtain ⟨_, _, hstart⟩ := of_held? hheld
  rw [held?_payloads hheld, payloads, payloads_coalesce, payloads_append, payloads_free]
  rw [hstart]
  exact List.perm_middle

lemma total_mod {l : List Segment} (hl : ∀ s ∈ l, s.size % alignment = 0) : total l % alignment = 0 := by
  induction l with
  | nil => rfl
  | cons s rest ih =>
    have hs := hl s (List.mem_cons_self ..)
    have hrest := ih fun r hr => hl r (List.mem_cons_of_mem _ hr)
    rw [total, Nat.add_mod, hs, hrest]
    rfl

lemma Sized.payload (ht : t.Sized) {k : Nat} (hx : (p, k) ∈ t.payloads) :
    t.region.base ≤ p ∧ (p - t.region.base) % alignment = 0 ∧ 0 < k ∧ k % alignment = 0 ∧
      p + k ≤ t.region.base + t.top := by
  obtain ⟨xs, ys, hsplit, rfl⟩ := mem_payloads.mp hx
  have hk := ht ⟨k, false⟩ (by simp [hsplit])
  have hxs : total xs % alignment = 0 := total_mod fun s hs => (ht s (by simp [hsplit, hs])).2
  refine ⟨Nat.le_add_right _ _, ?_, hk.1, hk.2, ?_⟩
  · rwa [Nat.add_sub_cancel_left]
  · rw [top, hsplit, total_append, total]
    simp only
    omega

lemma Sized.starts (ht : t.Sized) : (t.payloads.map Prod.fst).Nodup :=
  starts_nodup (payloads_pairwise _ _) fun _ hx => (ht.payload hx).2.2.1

lemma allocate_starts (ht : t.Sized) (h : t.allocate n = .ok (q, u)) :
    (u.payloads.map Prod.fst).Nodup ∧ q ∉ t.payloads.map Prod.fst := by
  obtain ⟨_, _, k, hk, hperm⟩ := allocate_payloads h
  have hstarts : (u.payloads.map Prod.fst).Nodup := by
    apply starts_nodup (payloads_pairwise u.region.base u.segments)
    intro y hy
    rcases List.mem_cons.mp (hperm.mem_iff.mp hy) with rfl | hy
    · exact Nat.lt_of_lt_of_le (by decide) (Nat.le_trans (Nat.le_max_right _ _) hk.1)
    · exact (ht.payload hy).2.2.1
  exact ⟨hstarts, (List.nodup_cons.mp ((hperm.map Prod.fst).nodup_iff.mp hstarts)).1⟩

lemma move_payloads (ht : t.Sized) (hp : p ≠ 0) (hheld : t.held? p = some x)
    (h : t.move x p n = .ok (q, u)) :
    u.region = t.region ∧ q ∉ t.payloads.map Prod.fst ∧
      u.memory = t.memory.copyWords (x.offset / 8) ((q - t.region.base) / 8) (x.segment.size / 8) ∧
        ∃ k rest, Serves (sizeFor n) k ∧ t.payloads.Perm ((p, x.segment.size) :: rest) ∧
          u.payloads.Perm ((q, k) :: rest) := by
  obtain ⟨v, w, halloc, hgive, rfl⟩ := of_move h
  obtain ⟨hregion, _, k, hk, hv⟩ := allocate_payloads halloc
  obtain ⟨hregion', _, j, hw⟩ := giveBack_payloads hp hgive
  have hmem : (p, x.segment.size) ∈ t.payloads := by
    rw [held?_payloads hheld]
    simp
  obtain ⟨hstarts, hq⟩ := allocate_starts ht halloc
  -- What is given back is the payload that was moved: no other one starts at `p`.
  have hj : (p, j) = (p, x.segment.size) :=
    List.inj_on_of_nodup_map hstarts (hw.mem_iff.mpr (List.mem_cons_self ..))
      (hv.mem_iff.mpr (List.mem_cons_of_mem _ hmem)) rfl
  have hrest := List.perm_cons_erase hmem
  rw [hj] at hw
  have hboth := hw.symm.trans (hv.trans ((hrest.cons (q, k)).trans (.swap _ _ _)))
  exact ⟨hregion'.trans hregion, hq, rfl, k, _, hk, hrest, hboth.cons_inv⟩

lemma trimmed_payloads {before after : List Segment} {size kept : Nat} (hle : kept ≤ size)
    (hp : p = t.region.base + total before)
    (hu : u = { t with segments := coalesce (before ++ cut size kept ++ after) }) :
    ∃ k, Serves kept k ∧ u.payloads.Perm
      ((p, k) :: (Segment.payloads t.region.base before ++ Segment.payloads (p + size) after)) := by
  obtain ⟨k, hk, hcut⟩ := payloads_cut p hle
  refine ⟨k, hk, ?_⟩
  subst hu
  rw [payloads, payloads_coalesce, List.append_assoc, payloads_append, payloads_append, ← hp, hcut,
    total_cut hle]
  exact List.perm_middle

lemma spans_payloads {o size : Nat} {after : List Segment} (hx : x.Spans size after) :
    Segment.payloads (o + size) after = Segment.payloads (o + x.segment.size) x.after := by
  cases hx with
  | own => rfl
  | stretched hx =>
    obtain ⟨m, rfl, hafter⟩ := Spot.after_stretched hx
    rw [hafter, payloads_free, Nat.add_assoc]

lemma resize_payloads (ht : t.Sized) (hp : p ≠ 0) (h : t.resize p n = .ok (q, u)) :
    u.region = t.region ∧ ∃ j k rest, t.payloads.Perm ((p, j) :: rest) ∧
      u.payloads.Perm ((q, k) :: rest) ∧ Serves (sizeFor n) k ∧ (q = p ∧ u.memory = t.memory ∨
        j ≤ k ∧ q ∉ t.payloads.map Prod.fst ∧ u.memory =
          t.memory.copyWords ((p - t.region.base) / 8) ((q - t.region.base) / 8) (j / 8)) := by
  obtain ⟨x, hheld, ⟨size, after, hspans, hle, rfl, hu⟩ | ⟨hlt, hmove⟩⟩ := of_resize hp h
  · obtain ⟨_, _, hstart⟩ := of_held? hheld
    obtain ⟨k, hk, hperm⟩ := trimmed_payloads hle hstart hu
    rw [spans_payloads hspans] at hperm
    refine ⟨by rw [hu], x.segment.size, k, _, ?_, hperm, hk, .inl ⟨rfl, by rw [hu]⟩⟩
    rw [held?_payloads hheld]
    exact List.perm_middle
  · obtain ⟨hregion, hq, hmemory, k, rest, hk, hrest, hperm⟩ := move_payloads ht hp hheld hmove
    refine ⟨hregion, _, k, rest, hrest, hperm, hk, .inr ⟨hk.1.trans' hlt.le, hq, ?_⟩⟩
    obtain ⟨_, _, hstart⟩ := of_held? hheld
    rw [hmemory, hstart, Nat.add_sub_cancel_left]

end Tiling

end BitStore
