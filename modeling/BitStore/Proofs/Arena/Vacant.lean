import BitStore.Proofs.Arena.Frees

namespace BitStore

open BitStore.Action Segment

namespace Segment

lemma free_of_payloads_nil {o : Nat} {l : List Segment} (hl : payloads o l = []) : ∀ s ∈ l, s.free = true := by
  rintro ⟨size, free⟩ hs
  cases free with
  | true => rfl
  | false =>
    obtain ⟨xs, ys, rfl⟩ := List.append_of_mem hs
    have hmem : (o + total xs, size) ∈ payloads o (xs ++ ⟨size, false⟩ :: ys) :=
      mem_payloads.mpr ⟨xs, ys, rfl, rfl⟩
    rw [hl] at hmem
    exact absurd hmem List.not_mem_nil

def Vacant (l : List Segment) : Prop := l = [] ∨ l = [⟨total l, true⟩]

lemma Apart.vacant {l : List Segment} (hl : Apart l) (hfree : ∀ s ∈ l, s.free = true) : Vacant l := by
  match l with
  | [] => exact .inl rfl
  | [⟨size, free⟩] =>
    have hs : free = true := hfree ⟨size, free⟩ (List.mem_singleton_self _)
    exact .inr (by rw [hs]; rfl)
  | s :: t :: rest =>
    have hst : (s.free && t.free) = false := (List.isChain_cons_cons.mp hl).1
    rw [hfree s (by simp), hfree t (by simp)] at hst
    cases hst

lemma Vacant.free {l : List Segment} (hl : Vacant l) : ∀ s ∈ l, s.free = true := by
  rcases hl with hl | hl <;> rw [hl] <;> simp

lemma Vacant.length_le_one {l : List Segment} (hl : Vacant l) : l.length ≤ 1 := by
  rcases hl with hl | hl <;> rw [hl] <;> simp

end Segment

namespace Tiling

variable {t : Tiling} {n : Nat}

lemma allocate_vacant (ht : Vacant t.segments) (htop : t.top ≤ t.region.len) (hn : n ≤ t.region.len)
    (hmod : t.region.len % alignment = 0) (hmin : minBlockSize ≤ t.region.len) :
    ∃ u, t.allocate n = .ok (t.region.base, u) := by
  have hsize := sizeFor_le hn hmod hmin
  rw [allocate, if_neg (Nat.not_lt.mpr hn)]
  cases hfit : t.fit? (sizeFor n) with
  | some x =>
    obtain ⟨hsplit, _⟩ := of_fit? hfit
    have hbefore : x.before = [] := by
      apply List.eq_nil_of_length_eq_zero
      have hlen := ht.length_le_one
      rw [hsplit, List.length_append, List.length_cons] at hlen
      omega
    have hoffset : x.offset = 0 := by rw [Spot.offset, hbefore]; rfl
    simp only [hoffset]
    exact ⟨_, rfl⟩
  | none =>
    rcases ht with ht | ht
    · -- Nothing has been handed out yet, and all of the region is left.
      have htop : t.top = 0 := by rw [top, ht]; rfl
      have hleft : ¬t.left < sizeFor n := by
        rw [left, htop]
        omega
      exact ⟨_, by rw [grow_used (by simp [ht]), if_neg hleft, htop]; rfl⟩
    · -- The free segment is too small, and what it lacks is behind it.
      have hleft : ¬t.left < sizeFor n - total t.segments := by
        rw [left, top]
        rw [top] at htop
        omega
      have hsplit : t.segments = [] ++ [⟨total t.segments, true⟩] := ht
      exact ⟨_, by rw [grow_free hsplit, if_neg hleft]; rfl⟩

end Tiling

namespace Arena

variable {a : Arena} {l : List Node}

lemma Layout.vacant (ha : a.Layout l) (hnone : ∀ p k, ¬a.Usable p k) : Vacant (a.tiling l).segments := by
  apply ha.apart.vacant
  apply free_of_payloads_nil (o := a.region.base)
  exact List.eq_nil_iff_forall_not_mem.mpr fun (p, k) hp => hnone p k (ha.usable_iff.mpr hp)

lemma Layout.allocatedBytes_vacant (ha : a.Layout l) (hnone : ∀ p k, ¬a.Usable p k) :
    (a.tiling l).stats.allocatedBytes = 0 := by
  have hbytes : (a.tiling l).freeBytes = (a.tiling l).top := by
    rw [Tiling.freeBytes, Tiling.top, List.filter_eq_self.mpr (ha.vacant hnone).free]
  rw [Tiling.stats, hbytes, Nat.sub_self]

lemma Layout.stats_vacant (ha : a.Layout l) (hnone : ∀ p k, ¬a.Usable p k) :
    ∃ stats, a.stats = .ok stats ∧ stats.allocatedBytes = 0 ∧ stats.blocks ≤ 1 :=
  ⟨_, stats_eq ha, ha.allocatedBytes_vacant hnone, (ha.vacant hnone).length_le_one⟩

lemma Layout.allocate_vacant (ha : a.Layout l) (hnone : ∀ p k, ¬a.Usable p k) {n : Nat} (hn : n ≤ a.region.len)
    (hmod : a.region.len % alignment = 0) (hmin : minBlockSize ≤ a.region.len) :
    ((allocate n).run a).result = .ok a.region.base := by
  have htop : (a.tiling l).top ≤ (a.tiling l).region.len := ha.top_eq ▸ ha.top_le
  obtain ⟨u, hallocate⟩ := Tiling.allocate_vacant (ha.vacant hnone) htop hn hmod hmin
  have hfollows := allocate_follows ha n
  rw [hallocate] at hfollows
  obtain ⟨_, _, ⟨hresult, _⟩, rfl, _⟩ := hfollows
  exact hresult

lemma Fresh.room (ha : a.Fresh) : a.region.len % alignment = 0 ∧ minBlockSize ≤ a.region.len := by
  obtain ⟨_, _, _, _, _, _, hreserve⟩ := ha
  obtain ⟨_, hmod, _, hpos⟩ := reserve_ok hreserve
  rw [alignment, minBlockSize]
  omega

end Arena

open Arena

namespace Client

variable {c : Client}

lemma Reached.region (hc : c.Reached) : ∃ a : Arena, a.Fresh ∧ c.arena.region = a.region := by
  induction hc with
  | @start a ha => exact ⟨a, ha, rfl⟩
  | call k hc ih =>
    obtain ⟨a, ha, hregion⟩ := ih
    obtain ⟨l, hl⟩ := hc.holds
    obtain ⟨_, _, hcarries⟩ := hl.call k
    exact ⟨a, ha, hcarries.region.trans hregion⟩
  | write f _ _ _ _ ih => exact ih

lemma Holds.none_usable {l : List Node} (hc : c.Holds l) (hlive : c.live = []) (p k : Nat) :
    ¬c.arena.Usable p k := by
  intro hp
  have hmem := hc.mem_live hp
  rw [hlive] at hmem
  exact absurd hmem List.not_mem_nil

/-- Once nothing is live, an arena is as good as new: it has one block at most, a free one, and serves any
request that its region could ever serve, from the base on. What was asked for when it was reserved is one. -/
theorem whole_when_vacant (hc : c.Reached) (hlive : c.live = []) :
    (c.arena.top = 0 ∧ c.arena.blockShapes = .ok [] ∨ c.arena.blockShapes = .ok [(0, c.arena.top, true)]) ∧
    (∃ stats, c.arena.stats = .ok stats ∧ stats.reserved = c.arena.region.len ∧ stats.allocatedBytes = 0) ∧
    (∀ n ≤ c.arena.region.len, ((allocate n).run c.arena).result = .ok c.arena.region.base) ∧
    ∀ {σ : Type} (s : σ) (m : Machine) (source : PageSource) (size : Nat) (a : Arena), 0 < size →
      ((reserve m source size : Action σ Arena).run s).result = .ok a → c.arena.region = a.region →
        ((allocate size).run c.arena).result = .ok c.arena.region.base := by
  obtain ⟨l, hl⟩ := hc.holds
  have hnone := hl.none_usable hlive
  have hserved : ∀ n ≤ c.arena.region.len, ((allocate n).run c.arena).result = .ok c.arena.region.base := by
    obtain ⟨fresh, hfresh, hregion⟩ := hc.region
    obtain ⟨hmod, hmin⟩ := hregion ▸ hfresh.room
    exact fun n hn => hl.layout.allocate_vacant hnone hn hmod hmin
  refine ⟨?_, ?_, hserved, ?_⟩
  · rw [hl.layout.blockShapes, ← hl.layout.top_eq, Tiling.top]
    rcases hl.layout.vacant hnone with h | h
    · exact .inl (by rw [h]; exact ⟨rfl, rfl⟩)
    · exact .inr (by rw [h]; rfl)
  · exact ⟨_, stats_eq hl.layout, rfl, hl.layout.allocatedBytes_vacant hnone⟩
  · intro σ s m source size a _ hreserve hregion
    obtain ⟨_, _, hsize, _⟩ := reserve_ok hreserve
    exact hserved size (hregion ▸ hsize)

def vacated : Client := ((Client.mk page []).call (.allocate 100)).call (.giveBack 4096)

theorem whole_when_vacant_page :
    vacated.live = [] ∧ ((allocate 4096).run vacated.arena).result = .ok 4096 ∧
      ((allocate 1).run page).result = .ok 4096 := by
  have hreached : vacated.Reached := .call (.giveBack 4096) (.call (.allocate 100) (.start page_fresh))
  have hlive : vacated.live = [] := by decide +kernel
  have hregion : vacated.arena.region = ⟨4096, 4096⟩ := by decide +kernel
  obtain ⟨_, _, hserved, _⟩ := whole_when_vacant hreached hlive
  obtain ⟨_, _, _, hasked⟩ := whole_when_vacant (.start page_fresh) rfl
  rw [hregion] at hserved
  exact ⟨hlive, hserved 4096 (Nat.le_refl _), hasked () .plain ⟨.heap, .unknown⟩ 1 page (by decide) rfl rfl⟩

end Client

end BitStore
