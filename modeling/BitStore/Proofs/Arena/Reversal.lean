import BitStore.Proofs.Arena.Pointers
import BitStore.Proofs.Arena.Vacant

namespace BitStore

open BitStore.Action Segment

namespace Segment

lemma apart_congr {xs ys : List Segment} (h : xs.map (·.free) = ys.map (·.free)) : Apart xs ↔ Apart ys := by
  have hflags (l : List Segment) : Apart l ↔ (l.map (·.free)).IsChain fun a b => (a && b) = false := by
    rw [List.isChain_map]
    rfl
  rw [hflags, hflags, h]

lemma Apart.stem_last {l : List Segment} (hl : Apart l) : ∀ s ∈ (stem l).getLast?, s.free = false := by
  rcases stem_split l with ⟨hstem, hused⟩ | ⟨k, hfree⟩
  · rwa [hstem]
  · rw [hfree] at hl
    intro s hs
    simpa using (List.isChain_append.mp hl).2.2 s hs ⟨k, true⟩ rfl

lemma Apart.end_free {l : List Segment} (hl : Apart l) (size : Nat) : Apart (stem l ++ [⟨size, true⟩]) := by
  rcases stem_split l with ⟨hstem, hused⟩ | ⟨k, hfree⟩
  · rw [hstem]
    refine List.isChain_append.mpr ⟨hl, List.isChain_singleton _, ?_⟩
    rintro s hs _ ⟨⟩
    simp [hused s hs]
  · rw [hfree] at hl
    exact (apart_congr (by simp)).mp hl

lemma shapes_append (o : Nat) (xs ys : List Segment) :
    shapes o (xs ++ ys) = shapes o xs ++ shapes (o + total xs) ys := by
  induction xs generalizing o with
  | nil => rfl
  | cons s rest ih => simp only [List.cons_append, shapes, ih, total, Nat.add_assoc]

lemma shapes_free (o : Nat) (l : List Segment) : (shapes o l).map (·.2.2) = l.map (·.free) := by
  induction l generalizing o with
  | nil => rfl
  | cons s rest ih => simp [shapes, ih]

lemma Apart.shapes_last {l : List Segment} (hl : Apart l) (o : Nat) :
    ∀ b ∈ (shapes o (stem l)).getLast?, b.2.2 = false := by
  intro b hb
  have hlast : ((shapes o (stem l)).map (·.2.2)).getLast? = some b.2.2 := by
    rw [List.getLast?_map, Option.mem_def.mp hb]
    rfl
  rw [shapes_free, List.getLast?_map] at hlast
  obtain ⟨s, hs, hfree⟩ := Option.map_eq_some_iff.mp hlast
  rw [← hfree]
  exact hl.stem_last s hs

lemma cut_freed (before after : List Segment) {size kept : Nat} (h : kept ≤ size) :
    ∃ k rest, cut size kept = ⟨k, false⟩ :: rest ∧
      coalesce (before ++ ⟨k, true⟩ :: (rest ++ after)) = coalesce (before ++ ⟨size, true⟩ :: after) := by
  rw [cut]
  split
  · refine ⟨kept, [⟨size - kept, true⟩], rfl, ?_⟩
    rw [List.singleton_append, coalesce_join, Nat.add_sub_of_le h]
  · exact ⟨size, [], rfl, rfl⟩

/-- What follows a segment in use, as the free bytes right behind it (none, or those of a segment) and the rest. -/
lemma free_behind {before after : List Segment} {size : Nat} (hl : Apart (before ++ ⟨size, false⟩ :: after))
    (hmin : ∀ s ∈ after, minBlockSize ≤ s.size) :
    ∃ m rest, cut (size + m) size ++ rest = ⟨size, false⟩ :: after ∧ ∀ kept k,
      coalesce (before ++ ⟨kept, false⟩ :: ⟨k, true⟩ :: after) = before ++ ⟨kept, false⟩ :: ⟨k + m, true⟩ :: rest := by
  have hnone (hafter : ∀ s ∈ after.head?, s.free = false) (kept k : Nat) :
      coalesce (before ++ ⟨kept, false⟩ :: ⟨k, true⟩ :: after) = before ++ ⟨kept, false⟩ :: ⟨k, true⟩ :: after := by
    refine coalesce_of_apart (Apart.around hl.left_of_append (List.isChain_cons.mpr ⟨?_, hl.right_of_append.of_cons⟩) kept)
    intro s hs
    simp [hafter s hs]
  match after with
  | [] => exact ⟨0, [], by simp [cut, minBlockSize], hnone (by simp)⟩
  | ⟨m, false⟩ :: rest => exact ⟨0, ⟨m, false⟩ :: rest, by simp [cut, minBlockSize], hnone (by simp)⟩
  | ⟨m, true⟩ :: rest =>
    have hm : minBlockSize ≤ m := hmin ⟨m, true⟩ (List.mem_cons_self ..)
    refine ⟨m, rest, by rw [cut, Nat.add_sub_cancel_left, if_pos hm]; rfl, fun kept k => ?_⟩
    rw [List.append_cons, coalesce_join, ← List.append_cons]
    exact coalesce_of_apart ((apart_congr (by simp)).mp hl)

end Segment

namespace Tiling

variable {t u : Tiling} {x : Spot} {n p q size : Nat}

lemma fit?_last {xs : List Segment} {k : Nat} (ht : t.segments = xs ++ [⟨k, true⟩])
    (hxs : ∀ s ∈ xs, s.free = true → s.size < size) (hk : size ≤ k) : t.fit? size = some ⟨xs, ⟨k, true⟩, []⟩ := by
  refine fit?_eq_some ht rfl hk ?_
  rintro ⟨before, s, after⟩ hy hfree hle
  rw [ht] at hy
  rcases after.eq_nil_or_concat' with rfl | ⟨ys, z, rfl⟩
  · obtain ⟨rfl, hs⟩ := List.append_inj' hy rfl
    obtain rfl := List.singleton_inj.mp hs
    exact .inl rfl
  · rw [← List.cons_append, ← List.append_assoc] at hy
    obtain ⟨rfl, _⟩ := List.append_inj' hy rfl
    have hlt := hxs s (by simp) hfree
    exact absurd hle (Nat.not_le.mpr hlt)

lemma fitted_back (ht : Apart t.segments) (hu : ∀ s ∈ u.segments, 0 < s.size) (hq : q ≠ 0)
    (hx : t.fit? (sizeFor n) = some x) (hstart : q = t.region.base + x.offset)
    (hcut : u = { t with segments := x.before ++ cut x.segment.size (sizeFor n) ++ x.after }) :
    u.giveBack q = .ok ((), t) ∧ u.top = t.top := by
  have htop := fitted_top hx
  obtain ⟨hsplit, hfree, hle⟩ := of_fit? hx
  obtain ⟨before, ⟨size, free⟩, after⟩ := x
  simp only at hfree hle hsplit hcut
  subst hfree
  obtain ⟨k, rest, hkept, hjoined⟩ := cut_freed before after hle
  have hsegments : u.segments = before ++ ⟨k, false⟩ :: (rest ++ after) := by simp [hcut, hkept]
  rw [← hsplit, coalesce_of_apart ht] at hjoined
  constructor
  · rw [giveBack_at hsegments hu (by rw [hcut]; exact hstart) hq, hjoined, hcut]
  · rw [top, hcut, htop]

lemma grown_back (ht : Apart t.segments) (hu : ∀ s ∈ u.segments, 0 < s.size) (hq : q ≠ 0)
    (hstart : q = t.region.base + total (stem t.segments))
    (hgrown : u = { t with segments := stem t.segments ++ [⟨sizeFor n, false⟩] }) :
    u.giveBack q = .ok ((), { t with segments := stem t.segments ++ [⟨sizeFor n, true⟩] }) := by
  subst hgrown
  rw [giveBack_at rfl hu hstart hq, coalesce_of_apart (ht.end_free _)]

lemma allocate_again (hn : n ≤ t.region.len) (hnone : t.fit? (sizeFor n) = none) :
    ({ t with segments := stem t.segments ++ [⟨sizeFor n, true⟩] } : Tiling).allocate n =
      .ok (t.region.base + total (stem t.segments),
        { t with segments := stem t.segments ++ [⟨sizeFor n, false⟩] }) := by
  have hsmall : ∀ s ∈ stem t.segments, s.free = true → s.size < sizeFor n := by
    intro s hs
    refine fit?_eq_none_iff.mp hnone s ?_
    rcases stem_split t.segments with ⟨hstem, _⟩ | ⟨k, hfree⟩
    · rwa [hstem] at hs
    · rw [hfree]
      exact List.mem_append_left _ hs
  have hwhole : cut (sizeFor n) (sizeFor n) = [⟨sizeFor n, false⟩] := by simp [cut, minBlockSize]
  rw [allocate, if_neg (Nat.not_lt.mpr hn), fit?_last rfl hsmall (Nat.le_refl _)]
  simp only [hwhole, List.append_nil]
  rfl

lemma allocation_back (ht : Apart t.segments) (hu : ∀ s ∈ u.segments, 0 < s.size) (hq : q ≠ 0)
    (h : t.allocate n = .ok (q, u)) :
    ∃ v, u.giveBack q = .ok ((), v) ∧ v.allocate n = .ok (q, u) ∧ v.top = u.top ∧ v.payloads = t.payloads ∧
      (u.top = t.top ∧ v = t ∨ t.top < u.top ∧
        v.segments = stem t.segments ++ [⟨u.top - total (stem t.segments), true⟩]) := by
  obtain ⟨hn, ⟨x, hx, hstart, hcut⟩ | ⟨hnone, hstart, hgrown⟩⟩ := of_allocate h
  · obtain ⟨hback, htop⟩ := fitted_back ht hu hq hx hstart hcut
    exact ⟨t, hback, h, htop.symm, rfl, .inl ⟨htop, rfl⟩⟩
  · have htop : u.top = total (stem t.segments) + sizeFor n := by simp [top, hgrown, total]
    refine ⟨_, grown_back ht hu hq hstart hgrown, ?_, ?_, ?_, .inr ⟨htop ▸ grown_top hnone, ?_⟩⟩
    · rw [allocate_again hn hnone, hstart, hgrown]
    · simp [top, hgrown, total]
    · rw [payloads, payloads_append, payloads_stem]
      exact List.append_nil _
    · rw [htop, Nat.add_sub_cancel_left]

lemma resize_shrinks (hp : p ≠ 0) (hheld : t.held? p = some x) (hlen : n ≤ t.region.len)
    (hle : sizeFor n ≤ x.segment.size) : t.resize p n =
      .ok (p, { t with segments := coalesce (x.before ++ cut x.segment.size (sizeFor n) ++ x.after) }) := by
  rw [resize, if_neg hp, hheld]
  simp only [if_neg (Nat.not_lt.mpr hlen), if_pos hle]

lemma resize_stretches {k : Nat} {after : List Segment} (hp : p ≠ 0) (hheld : t.held? p = some x)
    (hlen : n ≤ t.region.len) (hlt : x.segment.size < sizeFor n) (hx : x.stretched = some (k, after))
    (hk : sizeFor n ≤ k) : t.resize p n =
      .ok (p, { t with segments := coalesce (x.before ++ cut k (sizeFor n) ++ after) }) := by
  rw [resize, if_neg hp, hheld]
  simp only [if_neg (Nat.not_lt.mpr hlen), if_neg (Nat.not_le.mpr hlt), hx, Option.filter_some, hk, decide_true, if_true]

lemma shrunk_back (ht : Apart t.segments) (hmin : ∀ s ∈ t.segments, minBlockSize ≤ s.size)
    (hu : ∀ s ∈ u.segments, 0 < s.size) (hp : p ≠ 0) (hheld : t.held? p = some x)
    (hmod : x.segment.size % alignment = 0) (hlen : x.segment.size ≤ t.region.len)
    (hshrunk : u = { t with segments := coalesce (x.before ++ cut x.segment.size (sizeFor n) ++ x.after) }) :
    u.resize p x.segment.size = .ok (p, t) := by
  obtain ⟨hsplit, hused, hstart⟩ := of_held? hheld
  obtain ⟨before, ⟨size, free⟩, after⟩ := x
  simp only at hused hsplit hmod hlen hshrunk ⊢
  subst hused
  have hself : sizeFor size = size := sizeFor_self hmod (hmin ⟨size, false⟩ (by rw [hsplit]; simp))
  have hwhole : coalesce (before ++ ⟨size, false⟩ :: after) = t.segments := by rw [← hsplit, coalesce_of_apart ht]
  by_cases hrest : minBlockSize ≤ size - sizeFor n
  · have hlt : 0 < size - sizeFor n := Nat.lt_of_lt_of_le (by decide) hrest
    rw [hsplit] at ht hmin
    obtain ⟨m, rest, hrestored, hjoined⟩ :=
      free_behind ht fun s hs => hmin s (List.mem_append_right _ (List.mem_cons_of_mem _ hs))
    have hsegments : u.segments = before ++ ⟨sizeFor n, false⟩ :: ⟨size - sizeFor n + m, true⟩ :: rest := by
      rw [hshrunk, ← hjoined, cut, if_pos hrest, List.append_assoc]
      rfl
    have hregion : u.region = t.region := by rw [hshrunk]
    have hheld' := held?_at hsegments hu (p := p) (by rw [hregion]; exact hstart)
    have hsum : sizeFor n + (size - sizeFor n + m) = size + m := by omega
    rw [resize_stretches hp hheld' (hregion ▸ hlen) (by simp only [hself]; omega) rfl (by simp only [hself]; omega)]
    simp only [hself, hsum, List.append_assoc, hrestored, hwhole, hshrunk]
  · have hsame : u = t := by
      rw [hshrunk, cut, if_neg hrest, List.append_assoc, List.singleton_append, hwhole]
    rw [hsame, resize_shrinks hp hheld hlen hself.le]
    simp [hself, cut, minBlockSize, hwhole]

end Tiling

namespace Arena

variable {a : Arena} {l : List Node}

lemma byte_tiling (a : Arena) (l : List Node) (p : Nat) : (a.tiling l).byte p = a.byte p := rfl

lemma Layout.min (ha : a.Layout l) : ∀ s ∈ (a.tiling l).segments, minBlockSize ≤ s.size := by
  intro s hs
  obtain ⟨m, hm, rfl⟩ := List.mem_map.mp hs
  exact (ha.sized m hm).1

lemma Layout.resize_smaller {n p size : Nat} (ha : a.Layout l) (hp : a.Usable p size) (hn : n ≤ size) :
    ∃ before after, (a.tiling l).held? p = some ⟨before, ⟨size, false⟩, after⟩ ∧ size % alignment = 0 ∧
      size ≤ a.region.len ∧ Tiling.sizeFor n ≤ size ∧ (a.tiling l).resize p n = .ok (p, { a.tiling l with
        segments := coalesce (before ++ cut size (Tiling.sizeFor n) ++ after) }) := by
  have hmem := ha.usable_iff.mp hp
  obtain ⟨before, after, hsplit, hstart⟩ := mem_payloads.mp hmem
  have hheld := Tiling.held?_at hsplit ha.pos hstart
  obtain ⟨_, _, _, hmod, hstop⟩ := ha.tiling_sized.payload hmem
  have hlen : size ≤ (a.tiling l).region.len := by
    have htop := ha.top_le
    rw [← ha.top_eq] at htop
    change (a.tiling l).top ≤ (a.tiling l).region.len at htop
    omega
  have hle : Tiling.sizeFor n ≤ size := Tiling.sizeFor_le hn hmod (ha.min ⟨size, false⟩ (by rw [hsplit]; simp))
  exact ⟨before, after, hheld, hmod, hlen, hle,
    Tiling.resize_shrinks (ha.usable_pos hp) hheld (hn.trans hlen) hle⟩

lemma Fresh.shapes_after (ha : a.Fresh) (calls : List Call) : (a.after calls).blockShapes =
    .ok (shapes 0 ((Tiling.mk a.region [] a.memory).after calls).segments) := by
  obtain ⟨l, hl, htiling⟩ := ha.after_layout calls
  rw [hl.blockShapes, htiling]

lemma Layout.blockShapes_stem (ha : a.Layout l) :
    a.blockShapes = .ok (shapes 0 (stem (a.tiling l).segments)) ∧ total (stem (a.tiling l).segments) = a.top ∨
      a.blockShapes = .ok (shapes 0 (stem (a.tiling l).segments) ++
        [(total (stem (a.tiling l).segments), a.top - total (stem (a.tiling l).segments), true)]) := by
  have htop := ha.top_eq
  rw [Tiling.top] at htop
  rw [ha.blockShapes]
  rcases stem_split (a.tiling l).segments with ⟨hstem, _⟩ | ⟨k, hfree⟩
  · rw [hstem]
    exact .inl ⟨rfl, htop⟩
  · refine .inr (congrArg Except.ok ?_)
    rw [hfree, total_append, total, total, Nat.add_zero] at htop
    conv_lhs => rw [hfree, shapes_append]
    rw [← htop, Nat.add_sub_cancel_left, Nat.zero_add]
    rfl

end Arena

open Arena

namespace Client

variable {c : Client} {l : List Node} {n p size : Nat}

lemma answers_cons (c : Client) (k : Call) (rest : List Call) :
    c.arena.answers (k :: rest) = (k.action.run c.arena).result :: (c.call k).arena.answers rest := rfl

lemma call_ok (ha : c.arena.Layout l) {k : Call} {v : Answer} {u : Tiling}
    (h : k.onTiling (c.arena.tiling l) = .ok (v, u)) : (k.action.run c.arena).result = .ok v ∧
      (c.call k).live = k.live c.live (.ok v) ∧
        ∃ l', (c.call k).arena.Layout l' ∧ (c.call k).arena.tiling l' = u := by
  obtain ⟨hresult, l', hlayout, htiling⟩ := ha.call_ok h
  exact ⟨hresult, by rw [call, hresult], l', hlayout, htiling⟩

/-- Giving back what was just allocated leaves the live pointers and their sizes as they were, and the blocks
too, unless the top was raised: then they end in a free block up to the new top, which extends a free last block
or is added. The same request is then served at the same address, and the top stays. -/
theorem allocation_undone (hc : c.Reached)
    (hp : ((Call.allocate n).action.run c.arena).result = .ok (.address p)) :
    c.arena.answers [.allocate n, .giveBack p, .allocate n] = [.ok (.address p), .ok .done, .ok (.address p)] ∧
    (c.after [.allocate n, .giveBack p]).live = c.live ∧
    (∀ q size, (c.after [.allocate n, .giveBack p]).arena.Usable q size ↔ c.arena.Usable q size) ∧
    (c.after [.allocate n, .giveBack p]).arena.top = (c.after [.allocate n]).arena.top ∧
    (c.after [.allocate n, .giveBack p, .allocate n]).arena.top = (c.after [.allocate n]).arena.top ∧
    ((c.after [.allocate n]).arena.top = c.arena.top ∧
        (∃ blocks, c.arena.blockShapes = .ok blocks ∧
          (c.after [.allocate n, .giveBack p]).arena.blockShapes = .ok blocks) ∨
      c.arena.top < (c.after [.allocate n]).arena.top ∧
        ∃ kept o, (∀ b ∈ kept.getLast?, b.2.2 = false) ∧
          (c.arena.blockShapes = .ok kept ∧ o = c.arena.top ∨
            c.arena.blockShapes = .ok (kept ++ [(o, c.arena.top - o, true)])) ∧
          (c.after [.allocate n, .giveBack p]).arena.blockShapes =
            .ok (kept ++ [(o, (c.after [.allocate n]).arena.top - o, true)])) := by
  obtain ⟨l, hl⟩ := hc.holds
  obtain ⟨u, hu⟩ := hl.layout.onTiling_ok hp
  obtain ⟨_, halloc, ⟨⟩⟩ := Call.of_map_ok hu
  obtain ⟨_, hlive, l₁, hused, rfl⟩ := call_ok hl.layout hu
  have hnull : p ≠ 0 := by
    obtain ⟨_, _, k, _, hperm⟩ := Tiling.allocate_payloads halloc
    exact hused.usable_pos (hused.usable_iff.mpr (hperm.mem_iff.mpr (List.mem_cons_self ..)))
  obtain ⟨v, hback, hagain, htop, hpayloads, hcases⟩ :=
    Tiling.allocation_back hl.layout.apart hused.pos hnull halloc
  obtain ⟨hdone, hlive', l₂, hgiven, rfl⟩ := call_ok hused (Call.onTiling_giveBack hback)
  obtain ⟨hserved, _, l₃, hrenewed, htiling⟩ := call_ok hgiven (Call.onTiling_allocate hagain)
  simp only [hused.top_eq, hgiven.top_eq, hl.layout.top_eq] at htop hcases
  simp only [answers_cons, hp, hdone, hserved, after]
  refine ⟨rfl, ?_, fun q size => ?_, htop, ?_, ?_⟩
  · rw [hlive', hlive]
    simp [Call.live]
  · rw [hgiven.usable_iff, hl.layout.usable_iff, hpayloads]
  · rw [← hrenewed.top_eq, htiling]
    exact hused.top_eq
  · rcases hcases with ⟨hsame, hv⟩ | ⟨hraised, hv⟩
    · exact .inl ⟨hsame, _, hl.layout.blockShapes, by rw [hgiven.blockShapes, hv]⟩
    · refine .inr ⟨hraised, shapes 0 (stem (c.arena.tiling l).segments), total (stem (c.arena.tiling l).segments),
        hl.layout.apart.shapes_last 0, hl.layout.blockShapes_stem, ?_⟩
      rw [hgiven.blockShapes, hv, shapes_append, Nat.zero_add]
      rfl

theorem allocation_undone_holed :
    holed.arena.answers [.allocate 64, .giveBack 4128, .allocate 64] =
        [.ok (.address 4128), .ok .done, .ok (.address 4128)] ∧
      holed.arena.answers [.allocate 300, .giveBack 4312, .allocate 300] =
        [.ok (.address 4312), .ok .done, .ok (.address 4312)] ∧
      (holed.after [.allocate 300, .giveBack 4312]).live = holed.live := by
  have hfitted : ((Call.allocate 64).action.run holed.arena).result = .ok (.address 4128) := by
    rw [holed_arena, page_fresh.result_after]
    decide
  have hgrown : ((Call.allocate 300).action.run holed.arena).result = .ok (.address 4312) := by
    rw [holed_arena, page_fresh.result_after]
    decide
  obtain ⟨hanswers, _⟩ := allocation_undone holed_reached hfitted
  obtain ⟨hanswers', hlive, _⟩ := allocation_undone holed_reached hgrown
  exact ⟨hanswers, hanswers', hlive⟩

theorem shrink_undone (hc : c.Reached) (hp : c.arena.Usable p size) (hn : n ≤ size) :
    c.arena.answers [.resize p n, .resize p size] = [.ok (.address p), .ok (.address p)] ∧
    (∃ blocks, c.arena.blockShapes = .ok blocks ∧
      (c.after [.resize p n, .resize p size]).arena.blockShapes = .ok blocks) ∧
    (∃ stats, c.arena.stats = .ok stats ∧ (c.after [.resize p n, .resize p size]).arena.stats = .ok stats) ∧
    ∀ i < n, (c.after [.resize p n]).arena.byte (p + i) = c.arena.byte (p + i) ∧
      (c.after [.resize p n, .resize p size]).arena.byte (p + i) = c.arena.byte (p + i) := by
  obtain ⟨l, hl⟩ := hc.holds
  have hnull := hl.layout.usable_pos hp
  obtain ⟨_, _, hheld, hmod, hlen, _, hshrink⟩ := hl.layout.resize_smaller hp hn
  obtain ⟨hshrunk, _, l₁, hused, htiling⟩ := call_ok hl.layout (Call.onTiling_resize hshrink)
  have hback : ((c.call (.resize p n)).arena.tiling l₁).resize p size = .ok (p, c.arena.tiling l) :=
    Tiling.shrunk_back hl.layout.apart hl.layout.min hused.pos hnull hheld hmod hlen htiling
  obtain ⟨hgrown, _, l₂, hagain, htiling'⟩ := call_ok hused (Call.onTiling_resize hback)
  simp only [answers_cons, hshrunk, hgrown, after]
  refine ⟨rfl, ⟨_, hl.layout.blockShapes, by rw [hagain.blockShapes, htiling']⟩,
    ⟨_, stats_eq hl.layout, by rw [stats_eq hagain, htiling']⟩, fun i _ => ⟨?_, ?_⟩⟩
  · rw [← byte_tiling _ l₁, htiling, ← byte_tiling _ l]
    exact Tiling.byte_eq rfl rfl (p + i)
  · rw [← byte_tiling _ l₂, htiling', ← byte_tiling _ l]

theorem shrink_undone_holed :
    holed.arena.Usable 4232 80 ∧
      holed.arena.answers [.resize 4232 40, .resize 4232 80] = [.ok (.address 4232), .ok (.address 4232)] ∧
      ∃ blocks shrunk, holed.arena.blockShapes = .ok blocks ∧
        (holed.after [.resize 4232 40]).arena.blockShapes = .ok shrunk ∧ shrunk ≠ blocks ∧
        (holed.after [.resize 4232 40, .resize 4232 80]).arena.blockShapes = .ok blocks := by
  have husable : holed.arena.Usable 4232 80 := by
    rw [holed_arena, page_fresh.usable_after]
    decide
  have hshrunk : (holed.after [.resize 4232 40]).arena = page.after (holing ++ [.resize 4232 40]) := by
    rw [holed, ← after_append, after_arena]
  obtain ⟨hanswers, ⟨blocks, hblocks, hagain⟩, _⟩ := shrink_undone holed_reached husable (n := 40) (by decide)
  refine ⟨husable, hanswers, blocks, _, hblocks, hshrunk ▸ page_fresh.shapes_after _, ?_, hagain⟩
  rw [holed_arena, page_fresh.shapes_after] at hblocks
  obtain rfl := Except.ok.inj hblocks
  decide

end Client

end BitStore
