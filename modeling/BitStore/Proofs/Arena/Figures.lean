import BitStore.Proofs.Arena.Sizes
import Mathlib

namespace BitStore

open BitStore.Action Segment

namespace Segment

lemma total_free_used (o : Nat) (l : List Segment) :
    total (l.filter (·.free)) + ((payloads o l).map Prod.snd).sum = total l := by
  induction l generalizing o with
  | nil => rfl
  | cons s rest ih =>
    obtain ⟨size, free⟩ := s
    have hrest := ih (o + size)
    cases free with
    | false =>
      rw [payloads_used, List.filter_cons_of_neg (by simp), List.map_cons, List.sum_cons, total]
      rw [Nat.add_left_comm, hrest]
    | true =>
      rw [payloads_free, List.filter_cons_of_pos rfl, total, total, Nat.add_assoc, hrest]

lemma length_free_used (o : Nat) (l : List Segment) :
    l.countP (·.free) + (payloads o l).length = l.length := by
  induction l generalizing o with
  | nil => rfl
  | cons s rest ih =>
    obtain ⟨size, free⟩ := s
    have hrest := ih (o + size)
    cases free with
    | false =>
      rw [payloads_used, List.countP_cons_of_neg (by simp), List.length_cons, List.length_cons]
      omega
    | true =>
      rw [payloads_free, List.countP_cons_of_pos rfl, List.length_cons]
      omega

lemma Apart.countP_free {l : List Segment} (hl : Apart l) (o : Nat) :
    l.countP (·.free) ≤ (payloads o l).length + (l.head?.any (·.free)).toNat := by
  -- The bound counts a free first segment apart: what is behind it begins with one in use.
  induction l generalizing o with
  | nil => exact Nat.le_refl 0
  | cons s rest ih =>
    obtain ⟨size, free⟩ := s
    have hrest := ih hl.of_cons (o + size)
    cases free with
    | false =>
      have hone := Bool.toNat_le (rest.head?.any (·.free))
      rw [payloads_used, List.countP_cons_of_neg (by simp), List.length_cons]
      omega
    | true =>
      have hused : rest.head?.any (·.free) = false := by
        cases hhead : rest.head? with
        | none => rfl
        | some t => exact (List.isChain_cons.mp hl).1 t hhead
      rw [hused] at hrest
      rw [payloads_free, List.countP_cons_of_pos rfl]
      exact Nat.succ_le_succ hrest

end Segment

namespace Tiling

open Arena

variable {t u : Tiling} {k : Call} {v : Answer} {n p q e : Nat}

def Ends (t : Tiling) (e : Nat) : Prop := ∃ p size, (p, size) ∈ t.payloads ∧ p + size = t.region.base + e

def Raised (t u : Tiling) : Prop := u.top = t.top ∨ t.top < u.top ∧ u.Ends u.top

lemma Sized.ends_le (ht : t.Sized) (he : t.Ends e) : e ≤ t.top := by
  obtain ⟨p, size, hp, hend⟩ := he
  obtain ⟨_, _, _, _, hstop⟩ := ht.payload hp
  omega

lemma giveBack_top (hp : p ≠ 0) (h : t.giveBack p = .ok ((), u)) : u.top = t.top := by
  obtain ⟨x, hheld, rfl⟩ := of_giveBack hp h
  obtain ⟨hsplit, _⟩ := of_held? hheld
  simp only [top, hsplit, total_coalesce, total_append, total]

lemma allocate_raised (h : t.allocate n = .ok (q, u)) : u.region = t.region ∧
    (u.top = t.top ∨ t.top < u.top ∧ ∃ k, (q, k) ∈ u.payloads ∧ q + k = t.region.base + u.top) := by
  obtain ⟨_, ⟨x, hfit, rfl, rfl⟩ | ⟨hnone, rfl, rfl⟩⟩ := of_allocate h
  · exact ⟨rfl, .inl (fitted_top hfit)⟩
  · have htop : total (stem t.segments ++ [⟨sizeFor n, false⟩]) = total (stem t.segments) + sizeFor n := by
      simp [total]
    refine ⟨rfl, .inr ⟨(grown_top hnone).trans_eq htop.symm, sizeFor n, ?_, ?_⟩⟩
    · exact mem_payloads.mpr ⟨stem t.segments, [], rfl, rfl⟩
    · rw [top, htop, Nat.add_assoc]

lemma move_raised (ht : t.Sized) (hp : p ≠ 0) {x : Spot} (hheld : t.held? p = some x)
    (h : t.move x p n = .ok (q, u)) : t.Raised u := by
  obtain ⟨v, w, halloc, hgive, rfl⟩ := of_move h
  obtain ⟨hregion, hraised⟩ := allocate_raised halloc
  obtain ⟨hregion', _, j, hperm⟩ := giveBack_payloads hp hgive
  have htop : w.top = v.top := giveBack_top hp hgive
  have hne : q ≠ p := by
    rintro rfl
    refine (allocate_starts ht halloc).2 (List.mem_map.mpr ⟨(q, x.segment.size), ?_, rfl⟩)
    rw [held?_payloads hheld]
    simp
  rcases hraised with hsame | ⟨hlt, k, hmem, hend⟩
  · exact .inl (htop.trans hsame)
  · refine .inr ⟨htop ▸ hlt, q, k, mem_of_perm_cons hperm hmem hne, ?_⟩
    change q + k = w.region.base + w.top
    rw [htop, hregion', hregion, hend]

lemma resize_raised (ht : t.Sized) (hp : p ≠ 0) (h : t.resize p n = .ok (q, u)) : t.Raised u := by
  obtain ⟨x, hheld, ⟨size, after, hspans, hle, rfl, rfl⟩ | ⟨_, hmove⟩⟩ := of_resize hp h
  · obtain ⟨hsplit, _⟩ := of_held? hheld
    refine .inl ?_
    simp only [top, hsplit, total_coalesce, total_append, total_cut hle, total, Nat.add_assoc, hspans.total]
  · exact move_raised ht hp hheld hmove

lemma call_raised (ht : t.Sized) (k : Call) : t.Raised (t.call k).2 := by
  cases hk : k.onTiling t with
  | error e =>
    rw [call_error hk]
    exact .inl rfl
  | ok r =>
    obtain ⟨v, u⟩ := r
    rw [call_ok hk]
    cases step_of_ok hk with
    | allocated _ h =>
      obtain ⟨hregion, hsame | ⟨hlt, size, hmem, hend⟩⟩ := allocate_raised h
      · exact .inl hsame
      · exact .inr ⟨hlt, _, size, hmem, hregion ▸ hend⟩
    | resized hp h => exact resize_raised ht hp h
    | freed hp h => exact .inl (giveBack_top hp h)
    | idle => exact .inl rfl

end Tiling

open Arena

namespace Client

variable {a : Arena} {c : Client} {l : List Node} {e : Nat}

def Ends (c : Client) (e : Nat) : Prop :=
  ∃ p ∈ c.live, ∃ size, c.arena.Usable p size ∧ p + size = c.arena.region.base + e

structure Counted (c : Client) (s : ArenaStats) : Prop where
  reported : c.arena.stats = .ok s
  distinct : c.live.Nodup
  allocated : ∃ sizes, List.Forall₂ c.arena.Usable c.live sizes ∧ s.allocatedBytes = sizes.sum
  split : s.allocatedBytes + s.freeBytes = s.top
  top_le : s.top ≤ s.reserved
  blocks : s.blocks = s.freeBlocks + c.live.length
  free_le : s.freeBlocks ≤ c.live.length + 1
  top : s.top = c.arena.top
  reserved : s.reserved = c.arena.region.len

lemma Reached.ends_iff (hc : c.Reached) (hl : c.arena.Layout l) : c.Ends e ↔ (c.arena.tiling l).Ends e := by
  constructor
  · rintro ⟨p, _, size, hp, hend⟩
    exact ⟨p, size, hl.usable_iff.mp hp, hend⟩
  · rintro ⟨p, size, hp, hend⟩
    obtain ⟨l', hl'⟩ := hc.holds
    have husable := hl.usable_iff.mpr hp
    exact ⟨p, hl'.mem_live husable, size, husable, hend⟩

lemma Reached.ends_le (hc : c.Reached) (he : c.Ends e) : e ≤ c.arena.top := by
  obtain ⟨l, hl⟩ := hc.holds
  rw [← hl.layout.top_eq]
  exact hl.layout.tiling_sized.ends_le ((hc.ends_iff hl.layout).mp he)

lemma Reached.call_raises (hc : c.Reached) (k : Call) : (c.call k).arena.top = c.arena.top ∨
    c.arena.top < (c.call k).arena.top ∧ (c.call k).Ends (c.call k).arena.top := by
  obtain ⟨l, hl⟩ := hc.holds
  obtain ⟨_, l', hl', htiling⟩ := call_layout hl.layout k
  have hraised := Tiling.call_raised hl.layout.tiling_sized k
  rw [← htiling, Tiling.Raised, hl'.top_eq, hl.layout.top_eq] at hraised
  exact hraised.imp_right fun h => ⟨h.1, ((hc.call k).ends_iff hl').mpr h.2⟩

lemma Reached.top_le_after (hc : c.Reached) (calls : List Call) : c.arena.top ≤ (c.after calls).arena.top := by
  induction calls generalizing c with
  | nil => exact Nat.le_refl _
  | cons k rest ih =>
    refine Nat.le_trans ?_ (ih (hc.call k))
    rcases hc.call_raises k with hsame | ⟨hlt, _⟩
    · exact hsame.ge
    · exact hlt.le

lemma Reached.top_attained (hc : c.Reached) (calls : List Call) :
    (c.after calls).arena.top = c.arena.top ∨
      ∃ before, before <+: calls ∧ (c.after before).Ends (c.after calls).arena.top := by
  induction calls generalizing c with
  | nil => exact .inl rfl
  | cons k rest ih =>
    rcases ih (hc.call k) with hlast | ⟨before, hbefore, hends⟩
    · rcases hc.call_raises k with hsame | ⟨_, hends⟩
      · exact .inl (hlast.trans hsame)
      · refine .inr ⟨[k], List.prefix_append [k] rest, ?_⟩
        change (c.call k).Ends ((c.call k).after rest).arena.top
        rwa [hlast]
    · exact .inr ⟨k :: before, List.cons_prefix_cons.mpr ⟨rfl, hbefore⟩, hends⟩

lemma Holds.sizes (hc : c.Holds l) : ∃ sizes, List.Forall₂ c.arena.Usable c.live sizes ∧
    sizes.sum = ((c.arena.tiling l).payloads.map Prod.snd).sum := by
  have hpaired : List.Forall₂ c.arena.Usable ((c.arena.tiling l).payloads.map Prod.fst)
      ((c.arena.tiling l).payloads.map Prod.snd) := by
    rw [List.forall₂_map_left_iff, List.forall₂_map_right_iff, List.forall₂_same]
    exact fun x hx => hc.layout.usable_iff.mpr hx
  obtain ⟨sizes, hsizes, hperm⟩ := List.perm_comp_forall₂ hc.live hpaired
  exact ⟨sizes, hsizes, hperm.sum_eq⟩

lemma Holds.counted (hc : c.Holds l) : c.Counted (c.arena.tiling l).stats := by
  obtain ⟨sizes, hsizes, hsum⟩ := hc.sizes
  have hlength : c.live.length = (c.arena.tiling l).payloads.length := by
    rw [hc.live.length_eq, List.length_map]
  have hbytes := total_free_used c.arena.region.base (c.arena.tiling l).segments
  have hblocks := length_free_used c.arena.region.base (c.arena.tiling l).segments
  have hfree := hc.layout.apart.countP_free c.arena.region.base
  have hone := Bool.toNat_le ((c.arena.tiling l).segments.head?.any (·.free))
  refine ⟨stats_eq hc.layout, hc.nodup, ⟨sizes, hsizes, ?_⟩, ?_, ?_, ?_, ?_, hc.layout.top_eq, rfl⟩
  · rw [hsum, Tiling.stats, Tiling.freeBytes, Tiling.top, ← hbytes, Nat.add_sub_cancel_left]
    rfl
  · apply Nat.sub_add_cancel
    rw [Tiling.freeBytes, Tiling.top, ← hbytes]
    exact Nat.le_add_right _ _
  · exact hc.layout.top_eq.trans_le hc.layout.top_le
  · rw [hlength]
    exact hblocks.symm
  · rw [hlength]
    exact hfree.trans (Nat.add_le_add_left hone _)

/-- After any calls an arena reports what is live: its bytes and its blocks, free ones aside. The top never falls,
and it is the highest end that a live allocation has had up to now. -/
theorem figures_true (ha : a.Fresh) (calls : List Call) :
    ∃ s, ((Client.mk a []).after calls).Counted s ∧
      (∀ before, before <+: calls → (a.after before).top ≤ s.top) ∧
      IsGreatest {e | e = 0 ∨ ∃ before, before <+: calls ∧ ((Client.mk a []).after before).Ends e} s.top := by
  have hstart : (Client.mk a []).Reached := .start ha
  obtain ⟨l, hl⟩ := (hstart.after calls).holds
  have hcounted := hl.counted
  have hmono (before : List Call) (hbefore : before <+: calls) :
      ((Client.mk a []).after before).arena.top ≤ ((Client.mk a []).after calls).arena.top := by
    obtain ⟨rest, rfl⟩ := hbefore
    rw [after_append]
    exact (hstart.after before).top_le_after rest
  refine ⟨_, hcounted, fun before hbefore => ?_, ?_, ?_⟩
  · rw [hcounted.top, ← after_arena ⟨a, []⟩]
    exact hmono before hbefore
  · rw [hcounted.top]
    refine (hstart.top_attained calls).imp_left fun h => h.trans ?_
    exact ha.layout.tiles.symm
  · rintro e (rfl | ⟨before, hbefore, hends⟩)
    · exact Nat.zero_le _
    · rw [hcounted.top]
      exact ((hstart.after before).ends_le hends).trans (hmono before hbefore)

theorem figures_true_holed :
    holed.Counted ⟨4096, 416, 112, 304, 4, 2⟩ ∧
      IsGreatest {e | e = 0 ∨ ∃ before, before <+: holing ∧ ((Client.mk page []).after before).Ends e} 416 := by
  have hreported : holed.arena.stats = .ok ⟨4096, 416, 112, 304, 4, 2⟩ := by
    obtain ⟨l, hl, htiling⟩ := page_fresh.after_layout holing
    rw [holed_arena, stats_eq hl, htiling]
    decide
  obtain ⟨s, hcounted, _, hgreatest⟩ := figures_true page_fresh holing
  obtain rfl : s = ⟨4096, 416, 112, 304, 4, 2⟩ := Except.ok.inj (hcounted.reported.symm.trans hreported)
  exact ⟨hcounted, hgreatest⟩

end Client

end BitStore
