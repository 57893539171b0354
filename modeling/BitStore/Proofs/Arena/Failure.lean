import BitStore.Proofs.Arena.Clients

namespace BitStore

open BitStore.Action Segment

namespace Segment

def tailRoom (l : List Segment) : Nat := (l.getLast?.filter (·.free)).elim 0 (·.size)

end Segment

namespace Tiling

open Arena

variable {t : Tiling} {x : Spot} {n p size : Nat}

lemma grow_error_iff : (∃ e, t.grow size = .error e) ↔ t.left + tailRoom t.segments < size := by
  have hused (hl : ∀ s ∈ t.segments.getLast?, s.free = false) :
      (∃ e, t.grow size = .error e) ↔ t.left + tailRoom t.segments < size := by
    have hroom : tailRoom t.segments = 0 := by
      rw [tailRoom, Option.filter_eq_none_iff.mpr (by simpa using hl)]
      rfl
    rw [grow_used hl, hroom, Nat.add_zero]
    by_cases hleft : t.left < size
    · simp [hleft]
    · simp [hleft]
  rcases t.segments.eq_nil_or_concat' with hnil | ⟨xs, ⟨k, free⟩, hsplit⟩
  · exact hused (by simp [hnil])
  · cases free with
    | false => exact hused (by simp [hsplit])
    | true =>
      have hroom : tailRoom t.segments = k := by
        rw [tailRoom, hsplit, List.getLast?_concat]
        rfl
      rw [grow_free hsplit, hroom]
      by_cases hleft : t.left < size - k
      · rw [if_pos hleft]
        exact ⟨fun _ => by omega, fun _ => ⟨_, rfl⟩⟩
      · rw [if_neg hleft]
        simp
        omega

lemma allocate_error_iff : (∃ e, t.allocate n = .error e) ↔ t.region.len < n ∨
    (∀ s ∈ t.segments, s.free = true → s.size < sizeFor n) ∧
      t.left + tailRoom t.segments < sizeFor n := by
  rw [allocate]
  by_cases hn : t.region.len < n
  · rw [if_pos hn]
    exact ⟨fun _ => .inl hn, fun _ => ⟨_, rfl⟩⟩
  · rw [if_neg hn, or_iff_right hn, ← fit?_eq_none_iff]
    cases hfit : t.fit? (sizeFor n) with
    | none => simpa using grow_error_iff
    | some x => simp

lemma giveBack_ok {k : Nat} (h : (p, k) ∈ t.payloads) : ∃ u, t.giveBack p = .ok ((), u) := by
  obtain ⟨xs, ys, hsplit, hp⟩ := mem_payloads.mp h
  rw [giveBack]
  split
  · exact ⟨t, rfl⟩
  · cases hheld : t.held? p with
    | none => exact absurd hp (held?_eq_none hheld (x := ⟨xs, ⟨k, false⟩, ys⟩) hsplit rfl)
    | some x => exact ⟨_, rfl⟩

lemma move_error_iff (hheld : t.held? p = some x) {e : StoreError} :
    t.move x p n = .error e ↔ t.allocate n = .error e := by
  rw [move]
  cases halloc : t.allocate n with
  | error e' => rfl
  | ok r =>
    obtain ⟨q, u⟩ := r
    obtain ⟨_, _, k, _, hperm⟩ := allocate_payloads halloc
    have hmem : (p, x.segment.size) ∈ u.payloads := by
      refine hperm.mem_iff.mpr (List.mem_cons_of_mem _ ?_)
      rw [held?_payloads hheld]
      simp
    obtain ⟨v, hgive⟩ := giveBack_ok hmem
    simp [bind, Except.bind, hgive, pure, Except.pure]

lemma resize_error_iff (hp : p ≠ 0) (hheld : t.held? p = some x) :
    (∃ e, t.resize p n = .error e) ↔ t.region.len < n ∨ x.segment.size < sizeFor n ∧
      (∀ y ∈ x.stretched, y.1 < sizeFor n) ∧ ∃ e, t.allocate n = .error e := by
  rw [resize, if_neg hp, hheld]
  by_cases hn : t.region.len < n
  · simp [hn]
  · simp only [if_neg hn, or_iff_right hn]
    by_cases hle : sizeFor n ≤ x.segment.size
    · simp [hle]
    · simp only [if_neg hle, iff_true_intro (Nat.not_le.mp hle), true_and]
      cases hroom : x.stretched.filter fun y => decide (sizeFor n ≤ y.1) with
      | none =>
        have hsmall : ∀ y ∈ x.stretched, y.1 < sizeFor n := by
          simpa using Option.filter_eq_none_iff.mp hroom
        simp only [iff_true_intro hsmall, true_and, move_error_iff hheld]
      | some y =>
        obtain ⟨hy, hfits⟩ := Option.filter_eq_some_iff.mp hroom
        constructor
        · rintro ⟨e, h⟩
          cases h
        · rintro ⟨hsmall, _⟩
          have hlt := hsmall y hy
          have hge := of_decide_eq_true hfits
          omega

lemma grow_outOfMemory {wanted available : Nat} (h : t.grow size = .error (.outOfMemory wanted available)) :
    available = t.left ∧ t.left < wanted := by
  rw [grow] at h
  split at h
  all_goals
    split at h
    · next hlt =>
      obtain ⟨rfl, rfl⟩ := StoreError.outOfMemory.inj (Except.error.inj h)
      exact ⟨rfl, hlt⟩
    · cases h

lemma allocate_outOfMemory {wanted available : Nat} (h : t.allocate n = .error (.outOfMemory wanted available)) :
    available = t.left ∧ t.left < wanted := by
  rw [allocate] at h
  split at h
  · next hn =>
    obtain ⟨rfl, rfl⟩ := StoreError.outOfMemory.inj (Except.error.inj h)
    exact ⟨rfl, Nat.lt_of_le_of_lt (Nat.sub_le _ _) hn⟩
  · cases hfit : t.fit? (sizeFor n) with
    | none =>
      rw [hfit] at h
      exact grow_outOfMemory h
    | some x =>
      rw [hfit] at h
      cases h

lemma resize_outOfMemory {wanted available : Nat} (h : t.resize p n = .error (.outOfMemory wanted available)) :
    available = t.left ∧ t.left < wanted := by
  rw [resize] at h
  split at h
  · exact allocate_outOfMemory h
  · cases hheld : t.held? p with
    | none =>
      rw [hheld] at h
      cases h
    | some x =>
      simp only [hheld] at h
      split at h
      · next hn =>
        obtain ⟨rfl, rfl⟩ := StoreError.outOfMemory.inj (Except.error.inj h)
        exact ⟨rfl, Nat.lt_of_le_of_lt (Nat.sub_le _ _) hn⟩
      · split at h
        · cases h
        · split at h
          · cases h
          · exact allocate_outOfMemory ((move_error_iff hheld).mp h)

end Tiling

namespace Arena

variable {a : Arena} {l : List Node}

def Fails {α : Type} (x : Action Arena α) (a : Arena) : Prop := ∃ e, (x.run a).result = .error (.error e)

lemma Follows.fails_iff {α : Type} {x : Action Arena α} {r : Except StoreError (α × Tiling)}
    {post : α → Arena → List Node → Prop} (hx : Follows x a r post) : Fails x a ↔ ∃ e, r = .error e := by
  cases r with
  | error e => exact ⟨fun _ => ⟨e, rfl⟩, fun _ => ⟨e, hx.1⟩⟩
  | ok r =>
    obtain ⟨_, _, ⟨hresult, _⟩, _⟩ := hx
    simp [Fails, hresult]

lemma Follows.unchanged_of_error {α : Type} {x : Action Arena α} {r : Except StoreError (α × Tiling)}
    {post : α → Arena → List Node → Prop} (hx : Follows x a r post) {e : Stop}
    (h : (x.run a).result = .error e) : (x.run a).state = a ∧ ∃ e', e = .error e' ∧ r = .error e' := by
  cases r with
  | error e' =>
    obtain ⟨hresult, hstate⟩ := hx
    rw [hresult] at h
    exact ⟨hstate, e', (Except.error.inj h).symm, rfl⟩
  | ok r =>
    obtain ⟨_, _, ⟨hresult, _⟩, _⟩ := hx
    rw [hresult] at h
    cases h

lemma Call.outOfMemory {t : Tiling} {k : Call} {wanted available : Nat}
    (h : k.onTiling t = .error (.outOfMemory wanted available)) :
    available = t.left ∧ t.left < wanted := by
  cases k with
  | allocate n => exact Tiling.allocate_outOfMemory (of_map_error h)
  | resize p n => exact Tiling.resize_outOfMemory (of_map_error h)
  | giveBack p =>
    have hgive : t.giveBack p = .error (.outOfMemory wanted available) := of_map_error h
    rw [Tiling.giveBack] at hgive
    split at hgive
    · cases hgive
    · split at hgive <;> cases hgive
  | usableSize p =>
    rw [onTiling, Tiling.usableSize] at h
    split at h <;> cases h
  | owns p => cases h
  | stats => cases h

def freeTail (blocks : List (Handle × Block)) : Nat := (blocks.getLast?.filter (·.2.free)).elim 0 (·.2.size)

lemma freeTail_links (l : List Node) :
    freeTail (Chain.links none none l) = tailRoom (l.map Node.segment) := by
  rcases l.eq_nil_or_concat' with rfl | ⟨pre, n, rfl⟩
  · rfl
  · rw [freeTail, tailRoom, Chain.links_middle, List.map_append]
    simp only [Chain.links, List.map_cons, List.map_nil, List.getLast?_concat]
    cases hn : n.free <;> simp [Option.filter, Node.segment, hn]

lemma links_segments (prev next : Option Handle) (l : List Node) :
    (Chain.links prev next l).map (fun x => Segment.mk x.2.size x.2.free) = l.map Node.segment := by
  induction l generalizing prev with
  | nil => rfl
  | cons n rest ih =>
    simp only [Chain.links, List.map_cons, ih]
    rfl

lemma allocate_fails_iff (ha : a.Layout l) (n : Nat) :
    Fails (allocate n) a ↔ a.region.len < n ∨
      (∀ x ∈ Chain.links none none l, x.2.free = true → x.2.size < Tiling.sizeFor n) ∧
        a.region.len - a.top + freeTail (Chain.links none none l) < Tiling.sizeFor n := by
  have hfree : (∀ s ∈ (a.tiling l).segments, s.free = true → s.size < Tiling.sizeFor n) ↔
      ∀ x ∈ Chain.links none none l, x.2.free = true → x.2.size < Tiling.sizeFor n := by
    rw [tiling, ← links_segments none none, List.forall_mem_map]
  rw [(allocate_follows ha n).fails_iff, Tiling.allocate_error_iff, hfree, ha.left_eq, freeTail_links]
  rfl

lemma small_neighbour_iff (pre : List Node) (n : Node) (post : List Node) (size : Nat) :
    (∀ y ∈ (n.spot pre post).stretched, y.1 < size) ↔
      ∀ m ∈ (Chain.links (some n.handle) none post).head?, m.2.free = true → n.size + m.2.size < size := by
  cases post with
  | nil => simp [Spot.stretched, Node.spot, Chain.links]
  | cons m rest => cases hm : m.free <;> simp [Spot.stretched, Node.spot, Node.segment, Chain.links, hm]

lemma resize_fails_iff {pre post : List Node} {n : Node} (ha : a.Layout (pre ++ n :: post)) (hn : n.free = false)
    (k : Nat) :
    Fails (resize (a.region.base + n.offset) k) a ↔ a.region.len < k ∨ n.size < Tiling.sizeFor k ∧
      (∀ m ∈ (Chain.links (some n.handle) none post).head?,
        m.2.free = true → n.size + m.2.size < Tiling.sizeFor k) ∧ Fails (allocate k) a := by
  have hbase := ha.placed.base_pos
  rw [(resize_follows ha _ k).fails_iff, (allocate_follows ha k).fails_iff,
    Tiling.resize_error_iff (by omega) (ha.held? hn), small_neighbour_iff]
  rfl

lemma Layout.node_of_payload (ha : a.Layout l) {p size : Nat} (hp : (p, size) ∈ (a.tiling l).payloads) :
    ∃ pre n post, l = pre ++ n :: post ∧ n.free = false ∧ p = a.region.base + n.offset := by
  obtain ⟨xs, ys, hsplit, hstart⟩ := mem_payloads.mp hp
  obtain ⟨pre, n, post, rfl, hspot⟩ := spot_split (x := ⟨xs, ⟨size, false⟩, ys⟩) hsplit
  have hfree : (n.spot pre post).segment.free = false := by rw [← hspot]
  have hoff : (n.spot pre post).offset = total xs := by rw [← hspot]; rfl
  refine ⟨pre, n, post, rfl, hfree, ?_⟩
  rw [← ha.spot_offset, hoff]
  exact hstart

end Arena

open Arena

/-- Errors change nothing, and an allocation or a resize fails exactly when the arena has no room for it. -/
theorem Client.fails_exactly {c : Client} (hc : c.Reached) :
    (∀ (k : Call) (stop : Stop), (k.action.run c.arena).result = .error stop →
      (k.action.run c.arena).state = c.arena ∧ ∃ e, stop = .error e ∧
        ∀ wanted available, e = .outOfMemory wanted available →
          available = c.arena.region.len - c.arena.top ∧ available < wanted) ∧
    ∃ blocks, c.arena.chain.toList = .ok blocks ∧
      (∀ n, Fails (allocate n) c.arena ↔ c.arena.region.len < n ∨
        (∀ x ∈ blocks, x.2.free = true → x.2.size < Tiling.sizeFor n) ∧
          c.arena.region.len - c.arena.top + freeTail blocks < Tiling.sizeFor n) ∧
      ∀ p ∈ c.live, ∃ before h b after, blocks = before ++ (h, b) :: after ∧ b.free = false ∧
        p = c.arena.region.base + b.offset ∧
          ∀ n, Fails (resize p n) c.arena ↔ c.arena.region.len < n ∨ b.size < Tiling.sizeFor n ∧
            (∀ m ∈ after.head?, m.2.free = true → b.size + m.2.size < Tiling.sizeFor n) ∧
              Fails (allocate n) c.arena := by
  obtain ⟨l, hl⟩ := hc.holds
  refine ⟨?_, Chain.links none none l, hl.layout.chain.toList, allocate_fails_iff hl.layout, ?_⟩
  · intro k stop hstop
    obtain ⟨hstate, e, rfl, hk⟩ := (call_follows hl.layout k).unchanged_of_error hstop
    refine ⟨hstate, e, rfl, ?_⟩
    rintro wanted available rfl
    obtain ⟨rfl, hlt⟩ := Call.outOfMemory hk
    rw [hl.layout.left_eq] at hlt ⊢
    exact ⟨rfl, hlt⟩
  · intro p hp
    obtain ⟨⟨_, size⟩, hmem, rfl⟩ := List.mem_map.mp (hl.live.mem_iff.mp hp)
    obtain ⟨pre, n, post, rfl, hn, hstart⟩ := hl.layout.node_of_payload hmem
    refine ⟨_, n.handle, _, _, Chain.links_middle pre n post, hn, hstart, ?_⟩
    intro k
    rw [hstart]
    exact resize_fails_iff hl.layout hn k

theorem Client.fails_exactly_page :
    (Client.mk (page.after [.allocate 4000]) [4096]).Reached ∧
      ((Call.allocate 100).action.run (page.after [.allocate 4000])).state = page.after [.allocate 4000] ∧
        ∃ blocks, (page.after [.allocate 4000]).chain.toList = .ok blocks ∧
          (Fails (allocate 100) (page.after [.allocate 4000]) ↔ 4096 < 100 ∨
            (∀ x ∈ blocks, x.2.free = true → x.2.size < 104) ∧ 96 + freeTail blocks < 104) := by
  have hc : (Client.mk (page.after [.allocate 4000]) [4096]).Reached := .call (.allocate 4000) (.start page_fresh)
  obtain ⟨herror, blocks, hblocks, hallocate, _⟩ := fails_exactly hc
  obtain ⟨hstate, _⟩ := herror (.allocate 100) (.error (.outOfMemory 104 96)) (by decide +kernel)
  exact ⟨hc, hstate, blocks, hblocks, hallocate 100⟩

end BitStore
