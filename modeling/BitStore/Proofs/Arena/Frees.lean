import BitStore.Proofs.Arena.Failure

namespace BitStore

open Segment

namespace Segment

def vacate (ps : List Nat) : Nat → List Segment → List Segment
  | _, [] => []
  | o, s :: rest => ⟨s.size, s.free || decide (o ∈ ps)⟩ :: vacate ps (o + s.size) rest

def shapes : Nat → List Segment → List (Nat × Nat × Bool)
  | _, [] => []
  | o, s :: rest => (o, s.size, s.free) :: shapes (o + s.size) rest

lemma vacate_none (o : Nat) (l : List Segment) : vacate [] o l = l := by
  induction l generalizing o with
  | nil => rfl
  | cons s rest ih => simp [vacate, ih]

lemma vacate_vacate (p : Nat) (ps : List Nat) (o : Nat) (l : List Segment) :
    vacate ps o (vacate [p] o l) = vacate (p :: ps) o l := by
  induction l generalizing o with
  | nil => rfl
  | cons s rest ih =>
    simp only [vacate, ih, List.mem_cons, List.not_mem_nil, or_false, Bool.or_assoc, Bool.decide_or]

lemma vacate_perm {ps qs : List Nat} (h : ps.Perm qs) (o : Nat) (l : List Segment) :
    vacate ps o l = vacate qs o l := by
  induction l generalizing o with
  | nil => rfl
  | cons s rest ih => simp only [vacate, ih, h.mem_iff]

lemma vacate_append (ps : List Nat) (o : Nat) (xs ys : List Segment) :
    vacate ps o (xs ++ ys) = vacate ps o xs ++ vacate ps (o + total xs) ys := by
  induction xs generalizing o with
  | nil => rfl
  | cons s rest ih => simp only [List.cons_append, vacate, ih, total, Nat.add_assoc]

lemma vacate_outside {p o : Nat} {l : List Segment} (hpos : ∀ s ∈ l, 0 < s.size)
    (hp : p < o ∨ o + total l ≤ p) : vacate [p] o l = l := by
  induction l generalizing o with
  | nil => rfl
  | cons s rest ih =>
    have hs := hpos s (List.mem_cons_self ..)
    simp only [total] at hp
    have hne : o ≠ p := by omega
    have hrest : vacate [p] (o + s.size) rest = rest := by
      apply ih fun r hr => hpos r (List.mem_cons_of_mem _ hr)
      omega
    simp [vacate, hrest, hne]

lemma vacate_start {p o size : Nat} {xs ys : List Segment} (hxs : ∀ s ∈ xs, 0 < s.size)
    (hys : ∀ s ∈ ys, 0 < s.size) (hsize : 0 < size) (hp : p = o + total xs) :
    vacate [p] o (xs ++ ⟨size, false⟩ :: ys) = xs ++ ⟨size, true⟩ :: ys := by
  have hbefore : vacate [p] o xs = xs := vacate_outside hxs (.inr (by omega))
  have hafter : vacate [p] (o + total xs + size) ys = ys := vacate_outside hys (.inl (by omega))
  simp only [vacate_append, vacate, hbefore, hafter]
  simp [hp]

lemma coalesce_vacate (ps : List Nat) (o : Nat) (l : List Segment) :
    coalesce (vacate ps o (coalesce l)) = coalesce (vacate ps o l) := by
  induction l generalizing o with
  | nil => rfl
  | cons s rest ih =>
    have hrest : coalesce (vacate ps o (s :: coalesce rest)) = coalesce (vacate ps o (s :: rest)) := by
      simp only [vacate, coalesce_cons ⟨s.size, _⟩, ih]
    rw [← hrest, coalesce_cons]
    cases coalesce rest with
    | nil => rfl
    | cons t tail =>
      dsimp only
      split
      · next hboth =>
        obtain ⟨hs, ht⟩ := Bool.and_eq_true_iff.mp hboth
        simp only [vacate, hs, ht, Bool.true_or, ← Nat.add_assoc]
        exact (coalesce_join [] _ _ _).symm
      · rfl

end Segment

namespace Tiling

variable {t u : Tiling} {p : Nat} {ps : List Nat}

def vacate (t : Tiling) (ps : List Nat) : Tiling :=
  { t with segments := coalesce (Segment.vacate ps t.region.base t.segments) }

lemma vacate_nil (ht : Apart t.segments) : t.vacate [] = t := by
  rw [vacate, vacate_none, coalesce_of_apart ht]

lemma vacate_cons (t : Tiling) (p : Nat) (ps : List Nat) : (t.vacate [p]).vacate ps = t.vacate (p :: ps) := by
  simp only [vacate, coalesce_vacate, vacate_vacate]

lemma giveBack_eq_vacate (hpos : ∀ s ∈ t.segments, 0 < s.size) (hnull : p ≠ 0)
    (hp : p ∈ t.payloads.map Prod.fst) : t.giveBack p = .ok ((), t.vacate [p]) := by
  obtain ⟨⟨_, size⟩, hmem, rfl⟩ := List.mem_map.mp hp
  obtain ⟨xs, ys, hsplit, hstart⟩ := mem_payloads.mp hmem
  have hheld := held?_at hsplit hpos hstart
  rw [hsplit, List.forall_mem_append, List.forall_mem_cons] at hpos
  rw [giveBack, if_neg hnull, hheld, vacate, hsplit, vacate_start hpos.1 hpos.2.2 hpos.2.1 hstart]

end Tiling

namespace Arena

variable {a : Arena} {l : List Node} {ps qs : List Nat}

def blockShapes (a : Arena) : Except Fault (List (Nat × Nat × Bool)) := do
  return (← a.chain.toList).map fun x => (x.2.offset, x.2.size, x.2.free)

lemma links_shapes {start stop : Nat} (prev next : Option Handle) (hl : Tiles start l stop) :
    (Chain.links prev next l).map (fun x => (x.2.offset, x.2.size, x.2.free)) =
      shapes start (l.map Node.segment) := by
  induction l generalizing prev start with
  | nil => rfl
  | cons n rest ih =>
    obtain ⟨rfl, hrest⟩ := hl
    exact congrArg _ (ih _ hrest)

lemma Layout.blockShapes (ha : a.Layout l) : a.blockShapes = .ok (shapes 0 (a.tiling l).segments) := by
  rw [Arena.blockShapes, ha.chain.toList]
  exact congrArg Except.ok (links_shapes none none ha.tiles)

lemma Layout.giveBacks (ha : a.Layout l) (hps : ps.Nodup)
    (hlive : ∀ p ∈ ps, p ∈ (a.tiling l).payloads.map Prod.fst) :
    a.answers (ps.map .giveBack) = ps.map (fun _ => .ok .done) ∧
      ∃ l', (a.after (ps.map .giveBack)).Layout l' ∧
        (a.after (ps.map .giveBack)).tiling l' = (a.tiling l).vacate ps := by
  induction ps generalizing a l with
  | nil => exact ⟨rfl, l, ha, (Tiling.vacate_nil ha.apart).symm⟩
  | cons p rest ih =>
    obtain ⟨hp, hrest⟩ := List.forall_mem_cons.mp hlive
    obtain ⟨hnew, hnodup⟩ := List.nodup_cons.mp hps
    have hnull : p ≠ 0 := by
      obtain ⟨⟨_, size⟩, hmem, rfl⟩ := List.mem_map.mp hp
      exact ha.usable_pos (ha.usable_iff.mpr hmem)
    have hgive := Tiling.giveBack_eq_vacate ha.pos hnull hp
    obtain ⟨hresult, l', ha', htiling⟩ := ha.call_ok (Call.onTiling_giveBack hgive)
    obtain ⟨_, _, k, hperm⟩ := Tiling.giveBack_payloads hnull hgive
    have hstill : ∀ q ∈ rest, q ∈ ((((Call.giveBack p).action.run a).state.tiling l').payloads.map Prod.fst) := by
      intro q hq
      rw [htiling]
      refine (List.mem_cons.mp ((hperm.map Prod.fst).mem_iff.mp (hrest q hq))).resolve_left ?_
      rintro rfl
      exact hnew hq
    obtain ⟨hanswers, l'', ha'', hafter⟩ := ih ha' hnodup hstill
    rw [htiling, Tiling.vacate_cons] at hafter
    refine ⟨?_, l'', ha'', hafter⟩
    rw [List.map_cons, answers, hresult, hanswers, List.map_cons]

end Arena

open Arena

theorem Client.frees_commute {c : Client} (hc : c.Reached) {ps qs : List Nat} (hps : ps.Nodup)
    (hlive : ∀ p ∈ ps, p ∈ c.live) (hperm : ps.Perm qs) :
    c.arena.answers (ps.map .giveBack) = ps.map (fun _ => .ok .done) ∧
    c.arena.answers (qs.map .giveBack) = qs.map (fun _ => .ok .done) ∧
    (∃ shapes, (c.arena.after (ps.map .giveBack)).blockShapes = .ok shapes ∧
      (c.arena.after (qs.map .giveBack)).blockShapes = .ok shapes) ∧
    (∃ stats, (c.arena.after (ps.map .giveBack)).stats = .ok stats ∧
      (c.arena.after (qs.map .giveBack)).stats = .ok stats) ∧
    ∀ calls, (c.arena.after (ps.map .giveBack)).answers calls = (c.arena.after (qs.map .giveBack)).answers calls := by
  obtain ⟨l, hl⟩ := hc.holds
  have hstarts : ∀ p ∈ ps, p ∈ (c.arena.tiling l).payloads.map Prod.fst := fun p hp => hl.live.mem_iff.mp (hlive p hp)
  obtain ⟨hdone, l₁, ha₁, ht₁⟩ := hl.layout.giveBacks hps hstarts
  obtain ⟨hdone', l₂, ha₂, ht₂⟩ := hl.layout.giveBacks (hperm.nodup_iff.mp hps) fun q hq => hstarts q (hperm.mem_iff.mpr hq)
  have hsame : (c.arena.after (ps.map .giveBack)).tiling l₁ = (c.arena.after (qs.map .giveBack)).tiling l₂ := by
    rw [ht₁, ht₂, Tiling.vacate, Tiling.vacate, vacate_perm hperm]
  refine ⟨hdone, hdone', ⟨_, ha₁.blockShapes, ?_⟩, ⟨_, stats_eq ha₁, ?_⟩, fun calls => ?_⟩
  · rw [hsame, ha₂.blockShapes]
  · rw [hsame, stats_eq ha₂]
  · rw [(run_layout ha₁ calls).1, hsame, (run_layout ha₂ calls).1]

def Arena.divided : Arena := page.after [.allocate 8, .allocate 40, .allocate 200]

lemma divided_reached : (Client.mk divided [4168, 4128, 4096]).Reached :=
  .call (.allocate 200) (.call (.allocate 40) (.call (.allocate 8) (.start page_fresh)))

theorem Client.frees_commute_divided :
    divided.answers [.giveBack 4128, .giveBack 4096, .giveBack 4168] = [.ok .done, .ok .done, .ok .done] ∧
    divided.answers [.giveBack 4168, .giveBack 4128, .giveBack 4096] = [.ok .done, .ok .done, .ok .done] ∧
    ∀ calls, (divided.after [.giveBack 4128, .giveBack 4096, .giveBack 4168]).answers calls =
      (divided.after [.giveBack 4168, .giveBack 4128, .giveBack 4096]).answers calls := by
  have hperm : [4128, 4096, 4168].Perm [4168, 4128, 4096] := by decide
  obtain ⟨hfirst, hsecond, _, _, hanswers⟩ := frees_commute divided_reached (by decide) (by decide) hperm
  exact ⟨hfirst, hsecond, hanswers⟩

end BitStore
