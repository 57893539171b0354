import BitStore.Proofs.Arena.Blocks

/-! Each call on an arena answers as the same call does on the tiling that its layout shows. -/

namespace BitStore

open BitStore.Action Segment

namespace Node

def spot (n : Node) (pre post : List Node) : Spot :=
  ⟨pre.map segment, n.segment, post.map segment⟩

end Node

namespace Arena

def tiling (a : Arena) (l : List Node) : Tiling := ⟨a.region, l.map Node.segment, a.memory⟩

variable {a : Arena} {l pre post : List Node} {n : Node}

lemma spot_split {x : Spot} (hx : (a.tiling l).segments = x.before ++ x.segment :: x.after) :
    ∃ pre n post, l = pre ++ n :: post ∧ x = n.spot pre post := by
  obtain ⟨pre, rest, rfl, hpre, hrest⟩ := List.map_eq_append_iff.mp hx
  obtain ⟨n, post, rfl, hn, hpost⟩ := List.map_eq_cons_iff.mp hrest
  exact ⟨pre, n, post, rfl, by rw [Node.spot, hpre, hn, hpost]⟩

lemma spot_mem (a : Arena) (pre : List Node) (n : Node) (post : List Node) :
    (a.tiling (pre ++ n :: post)).segments =
      (n.spot pre post).before ++ (n.spot pre post).segment :: (n.spot pre post).after := by
  simp [tiling, Node.spot]

lemma Layout.spot_offset (ha : a.Layout (pre ++ n :: post)) : (n.spot pre post).offset = n.offset :=
  ha.tiles.offset.symm

lemma Layout.pos (ha : a.Layout l) : ∀ s ∈ (a.tiling l).segments, 0 < s.size := by
  intro s hs
  obtain ⟨m, hm, rfl⟩ := List.mem_map.mp hs
  exact (ha.sized m hm).pos

lemma Layout.top_eq (ha : a.Layout l) : (a.tiling l).top = a.top := by
  have htotal := ha.tiles.total
  rw [Nat.zero_add] at htotal
  exact htotal

lemma Layout.left_eq (ha : a.Layout l) : (a.tiling l).left = a.region.len - a.top := by
  rw [Tiling.left, ha.top_eq]
  rfl

lemma Layout.held?_eq_some (ha : a.Layout l) {p : Nat} {x : Spot} (hx : (a.tiling l).held? p = some x) :
    ∃ pre n post, l = pre ++ n :: post ∧ x = n.spot pre post ∧ n.free = false ∧
      p = a.region.base + n.offset := by
  obtain ⟨hsplit, hfree, hp⟩ := (Tiling.held?_eq_some_iff ha.pos).mp hx
  obtain ⟨pre, n, post, rfl, rfl⟩ := spot_split hsplit
  exact ⟨pre, n, post, rfl, rfl, hfree, by rw [hp, ha.spot_offset]; rfl⟩

lemma Layout.held? (ha : a.Layout (pre ++ n :: post)) (hn : n.free = false) :
    (a.tiling (pre ++ n :: post)).held? (a.region.base + n.offset) = some (n.spot pre post) := by
  refine (Tiling.held?_eq_some_iff ha.pos).mpr ⟨spot_mem a pre n post, hn, ?_⟩
  rw [ha.spot_offset]
  rfl

lemma sizeFor_min (n : Nat) : minBlockSize ≤ Tiling.sizeFor n := Nat.le_max_right _ _

lemma sizeFor_mod (n : Nat) : Tiling.sizeFor n % alignment = 0 := by
  rw [Tiling.sizeFor, minBlockSize, alignment]
  omega

lemma cannotFit_fails {α : Type} (ha : a.Layout l) (n : Nat) :
    (cannotFit n : Action Arena α).Yields a (.error (.error (.outOfMemory n (a.region.len - a.top)))) a := by
  apply (yields_say _).bind
  apply yields_get.bind
  apply (yields_lift (Checked.sub_eq_ok_iff.mpr (Nat.add_sub_of_le ha.top_le))).bind
  exact yields_fail _

lemma blockSizeFor_yields (ha : a.Layout l) {n : Nat} (hn : n ≤ a.region.len) :
    (blockSizeFor n).Yields a (.ok (Tiling.sizeFor n)) a := by
  have hround := ha.roundable
  have hroundUp : roundUp n alignment = .ok (some (8 * ((n + 7) / 8))) := by
    change Except.ok ((Checked.add? n 7).map fun m => 8 * (m / 8)) = _
    rw [Checked.add?, if_pos (by omega)]
    rfl
  apply yields_get.bind
  apply (yields_lift hroundUp).bind
  simp only [if_pos hn]
  rw [Tiling.sizeFor, Nat.mul_comm]
  exact yields_pure _

lemma blockSizeFor_fails (ha : a.Layout l) {n : Nat} (hn : a.region.len < n) :
    (blockSizeFor n).Yields a (.error (.error (.outOfMemory n (a.region.len - a.top)))) a := by
  have hroundUp : roundUp n alignment = .ok ((Checked.add? n 7).map fun m => 8 * (m / 8)) := rfl
  apply yields_get.bind
  apply (yields_lift hroundUp).bind
  cases (Checked.add? n 7).map fun m => 8 * (m / 8) with
  | none => exact cannotFit_fails ha n
  | some size =>
    simp only [if_neg (Nat.not_le.mpr hn)]
    exact cannotFit_fails ha n

lemma payload_yields (ha : a.Layout l) (hn : n ∈ l) :
    (payload n.handle).Yields a (.ok (a.region.base + n.offset)) a := by
  obtain ⟨pre, post, rfl⟩ := List.append_of_mem hn
  have hend := ha.end_le hn
  have hpos := (ha.sized n hn).pos
  have htop := ha.top_le
  apply (block_yields ha.chain.get).bind
  apply yields_get.bind
  rw [Node.block_offset, if_pos (by omega)]
  exact yields_pure _

lemma owns_eq (ha : a.Layout l) (p : Nat) : a.owns p = .ok ((a.tiling l).owns p) := by
  have hstop := ha.placed.stop_le
  have htop := ha.top_le
  rw [Arena.owns, Tiling.owns, ha.top_eq]
  by_cases hp : p = 0
  · rw [if_pos hp]
    exact congrArg Except.ok (by simp [hp])
  · rw [if_neg hp, Checked.add, if_pos (by omega)]
    exact congrArg Except.ok (by simp [hp, tiling])

lemma liveBlock_yields (ha : a.Layout (pre ++ n :: post)) (hn : n.free = false) :
    (liveBlock (a.region.base + n.offset)).Yields a (.ok n.handle) a := by
  have hend := ha.end_le (n := n) (by simp)
  have hpos := (ha.sized n (by simp)).pos
  have hbase := ha.placed.base_pos
  have howned : (a.tiling (pre ++ n :: post)).owns (a.region.base + n.offset) = true := by
    rw [Tiling.owns, ha.top_eq, decide_eq_true_eq]
    exact Or.inr ⟨Nat.le_add_right _ _, Nat.add_lt_add_left (by omega) _⟩
  have hindex : a.chain.byOffset[n.offset]? = some n.handle :=
    (ha.chain.index _ _).mpr (List.mem_map.mpr ⟨n, by simp, rfl⟩)
  apply yields_get.bind
  apply (yields_lift (owns_eq ha _)).bind
  rw [howned, if_neg (by simp; omega)]
  apply (yields_lift (Checked.sub_eq_ok_iff.mpr rfl)).bind
  rw [hindex]
  apply (block_yields ha.chain.get).bind
  rw [Node.block_free, hn]
  exact yields_pure _

lemma liveBlock_fails (ha : a.Layout l) {p : Nat} (hp : (a.tiling l).held? p = none) :
    (liveBlock p).Yields a (.error (.error (.invalidPointer p))) a := by
  apply yields_get.bind
  apply (yields_lift (owns_eq ha p)).bind
  by_cases howned : (a.tiling l).owns p = true ∧ p ≠ 0
  · obtain ⟨howned, hne⟩ := howned
    rw [howned, if_neg (by simp [hne])]
    have hbase : a.region.base ≤ p := ((decide_eq_true_eq.mp howned).resolve_left hne).1
    apply (yields_lift (Checked.sub_eq_ok_iff.mpr (Nat.add_sub_of_le hbase))).bind
    cases hindex : a.chain.byOffset[p - a.region.base]? with
    | none => exact yields_fail _
    | some h =>
      obtain ⟨n, hn, hkey⟩ := List.mem_map.mp ((ha.chain.index _ _).mp hindex)
      obtain ⟨hoff, rfl⟩ := Prod.mk.inj hkey
      obtain ⟨pre, post, rfl⟩ := List.append_of_mem hn
      apply (block_yields ha.chain.get).bind
      cases hfree : n.free with
      | true =>
        simp only [Node.block_free, hfree, if_true]
        exact yields_fail _
      | false =>
        have hspot := ha.spot_offset
        refine absurd ?_ (Tiling.held?_eq_none hp (spot_mem a pre n post) hfree)
        rw [hspot, hoff]
        exact (Nat.add_sub_of_le hbase).symm
  · rw [if_pos (by simpa [imp_iff_not_or, not_and_or] using howned)]
    exact yields_fail _

lemma bestFit_some (ha : a.Layout l) {size : Nat} {h : Handle} (hh : a.free.bestFit size = some h) :
    ∃ pre n post, l = pre ++ n :: post ∧ n.handle = h ∧ n.free = true ∧ size ≤ n.size ∧
      (a.tiling l).fit? size = some (n.spot pre post) := by
  obtain ⟨e, he, rfl, hsize, hbest⟩ := ha.free.bestFit_some hh
  obtain ⟨n, hn, hfree, rfl⟩ := mem_filed.mp he
  obtain ⟨pre, post, rfl⟩ := List.append_of_mem hn
  refine ⟨pre, n, post, rfl, rfl, hfree, hsize, Tiling.fit?_eq_some (spot_mem a pre n post) hfree hsize ?_⟩
  intro y hy hyfree hysize
  obtain ⟨xs, m, ys, hsplit, rfl⟩ := spot_split hy
  have hm : m.entry ∈ filed (pre ++ n :: post) := mem_filed.mpr ⟨m, by simp [hsplit], hyfree, rfl⟩
  have hmoff : (m.spot xs ys).offset = m.offset := Layout.spot_offset (hsplit ▸ ha)
  have hnoff : (n.spot pre post).offset = n.offset := ha.spot_offset
  have hsame (ho : m.offset = n.offset) : m.spot xs ys = n.spot pre post := by
    apply Spot.offset_injective ha.pos (Spot.mem_all.mpr hy) (Spot.mem_all.mpr (spot_mem a pre n post))
    rw [hmoff, hnoff, ho]
  rw [hmoff, hnoff]
  rcases hbest m.entry hm hysize with heq | hlt
  · exact Or.inl (hsame (congrArg FreeBlock.offset heq))
  · rcases (FreeBlock.before_iff _ _).mp hlt with hlt | ⟨hsz, hlt | ⟨ho, _⟩⟩
    · exact Or.inr (Or.inl hlt)
    · exact Or.inr (Or.inr ⟨hsz, hlt⟩)
    · exact Or.inl (hsame ho.symm)

lemma bestFit_none (ha : a.Layout l) {size : Nat} (hh : a.free.bestFit size = none) :
    (a.tiling l).fit? size = none := by
  refine Tiling.fit?_eq_none_iff.mpr ?_
  intro s hs hfree
  obtain ⟨n, hn, rfl⟩ := List.mem_map.mp hs
  exact ha.free.bestFit_none hh n.entry (mem_filed.mpr ⟨n, hn, hfree, rfl⟩)

/-- The action answers as the tiling does and ends in a layout of what the tiling has become; where
the tiling fails, it fails alike and changes nothing. -/
def Follows {α : Type} (x : Action Arena α) (a : Arena) (r : Except StoreError (α × Tiling))
    (post : α → Arena → List Node → Prop) : Prop :=
  match r with
  | .ok (v, u) => x.Ends a fun w t => w = v ∧ ∃ l, t.Layout l ∧ t.tiling l = u ∧ post v t l
  | .error e => x.Yields a (.error (.error e)) a

lemma Follows.after {α β : Type} {x : Action Arena α} {f : α → Action Arena β} {v : α}
    {r : Except StoreError (β × Tiling)} {post : β → Arena → List Node → Prop}
    (hx : x.Yields a (.ok v) a) (hf : Follows (f v) a r post) : Follows (x >>= f) a r post := by
  cases r with
  | error e => exact hx.bind hf
  | ok r => exact hx.bind_ends hf

lemma Follows.mono {α : Type} {x : Action Arena α} {r : Except StoreError (α × Tiling)}
    {mid post : α → Arena → List Node → Prop} (hx : Follows x a r mid)
    (h : ∀ v t l, mid v t l → post v t l) : Follows x a r post := by
  cases r with
  | error e => exact hx
  | ok r =>
    apply Ends.mono hx
    rintro w t ⟨hw, l, ht, hu, hm⟩
    exact ⟨hw, l, ht, hu, h _ _ _ hm⟩

def Spares (a : Arena) (l : List Node) (p : Nat) (l' : List Node) : Prop :=
  ∀ m ∈ l, m.free = false → m ∈ l' ∧ p ≠ a.region.base + m.offset

lemma Layout.offset_ne (ha : a.Layout (pre ++ n :: post)) {m : Node} (hm : m ∈ pre ++ n :: post)
    (hne : m.free ≠ n.free) : n.offset ≠ m.offset := by
  intro ho
  have hmn := List.inj_on_of_nodup_map ha.chain.offsets hm (by simp) ho.symm
  exact hne (by rw [hmn])

lemma append_follows (ha : a.Layout l) (hl : ∀ n ∈ l.getLast?, n.free = false) {size : Nat}
    (hmin : minBlockSize ≤ size) (hmod : size % alignment = 0) :
    Follows (do payload (← grow size)) a ((a.tiling l).grow size)
      fun p t l' => Frame a t ∧ a.Spares l p l' := by
  have hlast : ∀ s ∈ (a.tiling l).segments.getLast?, s.free = false := by
    intro s hs
    rw [tiling, List.getLast?_map] at hs
    obtain ⟨n, hn, rfl⟩ := Option.mem_map.mp hs
    exact hl n hn
  rw [Tiling.grow_used hlast, ha.left_eq, ha.top_eq]
  by_cases hleft : a.region.len - a.top < size
  · rw [if_pos hleft]
    exact (grow_append_fails ha hl hleft).bind_error
  · rw [if_neg hleft]
    apply (grow_appends ha hl (Nat.not_lt.mp hleft) hmin hmod).bind
    rintro h t ⟨hlayout, hsegments, hspares, hframe⟩
    apply (payload_yields hlayout (n := ⟨h, a.top, size, false⟩) (by simp)).ends
    refine ⟨by rw [hframe.region]; rfl, _, hlayout, ?_, hframe, ?_⟩
    · rw [tiling, hsegments, hframe.region, hframe.memory]
      rfl
    · intro m hm hfree
      have hend := ha.end_le hm
      have hpos := (ha.sized m hm).pos
      refine ⟨hspares m hm hfree, ?_⟩
      simp only [tiling]
      omega

lemma stretch_follows (ha : a.Layout (pre ++ [n])) (hn : n.free = true) {size : Nat} (hlt : n.size < size)
    (hmin : minBlockSize ≤ size) (hmod : size % alignment = 0) :
    Follows (do payload (← grow size)) a ((a.tiling (pre ++ [n])).grow size)
      fun p t l' => Frame a t ∧ a.Spares (pre ++ [n]) p l' := by
  have hlast : (a.tiling (pre ++ [n])).segments = pre.map Node.segment ++ [⟨n.size, true⟩] := by
    rw [tiling, List.map_append, ← hn]
    rfl
  have hoff := ha.tiles.offset
  rw [Tiling.grow_free hlast, ha.left_eq]
  by_cases hleft : a.region.len - a.top < size - n.size
  · rw [if_pos hleft]
    exact (grow_stretch_fails ha hn (Nat.le_of_lt hlt) hleft).bind_error
  · rw [if_neg hleft]
    apply (grow_stretches ha hn (Nat.le_of_lt hlt) (Nat.not_lt.mp hleft) hmin hmod).bind
    rintro _ t ⟨rfl, hlayout, hsegments, hspares, hframe⟩
    apply (payload_yields hlayout (n := ⟨n.handle, n.offset, size, false⟩) (by simp)).ends
    refine ⟨by rw [hframe.region, ← hoff]; rfl, _, hlayout, ?_, hframe, ?_⟩
    · rw [tiling, hsegments, hframe.region, hframe.memory]
      rfl
    · intro m hm hfree
      refine ⟨hspares m hm hfree, ?_⟩
      have hne := ha.offset_ne hm (by rw [hfree, hn]; decide)
      simp only [tiling, ← hoff]
      omega

lemma grow_follows (ha : a.Layout l) {size : Nat}
    (hfit : ∀ s ∈ (a.tiling l).segments, s.free = true → s.size < size) (hmin : minBlockSize ≤ size)
    (hmod : size % alignment = 0) :
    Follows (do payload (← grow size)) a ((a.tiling l).grow size)
      fun p t l' => Frame a t ∧ a.Spares l p l' := by
  rcases l.eq_nil_or_concat' with rfl | ⟨pre, n, rfl⟩
  · exact append_follows ha (by simp) hmin hmod
  · cases hn : n.free with
    | false => exact append_follows ha (by simp [hn]) hmin hmod
    | true => exact stretch_follows ha hn (hfit n.segment (by simp [tiling]) hn) hmin hmod

lemma fit_follows (ha : a.Layout (pre ++ n :: post)) (hn : n.free = true) {size : Nat} (hle : size ≤ n.size)
    (hmin : minBlockSize ≤ size) (hmod : size % alignment = 0) :
    Follows (do takeFree n.handle; split n.handle size; payload n.handle) a
      (.ok (a.region.base + n.offset, { a.tiling (pre ++ n :: post) with
        segments := pre.map Node.segment ++ cut n.size size ++ post.map Node.segment }))
      fun p t l' => Frame a t ∧ a.Spares (pre ++ n :: post) p l' := by
  apply (take_ends ha hn).bind
  rintro _ t ⟨ht, hframe⟩
  apply (split_ends (n := { n with free := false }) ht rfl hle hmin hmod).bind
  rintro _ u ⟨l', k, hmem, hlayout, hsegments, hspares, hframe'⟩
  have hboth := hframe.trans hframe'
  refine (payload_yields hlayout hmem).ends ⟨by rw [hboth.region], l', hlayout, ?_, hboth, ?_⟩
  · have hapart := ha.apart
    rw [List.map_append, List.map_cons, show n.segment = ⟨n.size, true⟩ by rw [Node.segment, hn]] at hapart
    rw [tiling, hsegments, coalesce_of_apart (hapart.cut _), hboth.region, hboth.memory]
    rfl
  · intro m hm hused
    have hne := ha.offset_ne hm (by rw [hused, hn]; decide)
    refine ⟨hspares m ?_ hused, by omega⟩
    simp only [List.mem_append, List.mem_cons] at hm ⊢
    rcases hm with hm | rfl | hm
    · exact Or.inl hm
    · simp [hn] at hused
    · exact Or.inr hm

lemma allocate_follows (ha : a.Layout l) (n : Nat) :
    Follows (allocate n) a ((a.tiling l).allocate n) fun p t l' => Frame a t ∧ a.Spares l p l' := by
  by_cases hn : a.region.len < n
  · rw [Tiling.allocate, if_pos (by exact hn), ha.left_eq]
    exact (blockSizeFor_fails ha hn).bind_error
  · rw [Tiling.allocate, if_neg (by exact hn)]
    refine Follows.after (blockSizeFor_yields ha (Nat.not_lt.mp hn)) (Follows.after yields_get ?_)
    cases hfit : a.free.bestFit (Tiling.sizeFor n) with
    | none =>
      have hnone := bestFit_none ha hfit
      rw [hnone]
      exact grow_follows ha (Tiling.fit?_eq_none_iff.mp hnone) (sizeFor_min n) (sizeFor_mod n)
    | some h =>
      obtain ⟨pre, k, post, rfl, rfl, hfree, hle, hspot⟩ := bestFit_some ha hfit
      have hfollows := fit_follows ha hfree hle (sizeFor_min n) (sizeFor_mod n)
      rw [hspot]
      simp only [ha.spot_offset]
      exact hfollows

lemma giveBack_follows (ha : a.Layout l) (p : Nat) :
    Follows (giveBack p) a ((a.tiling l).giveBack p) fun _ t _ => Frame a t := by
  by_cases hp : p = 0
  · rw [Tiling.giveBack, if_pos hp, giveBack, if_neg (by simpa using hp)]
    exact (yields_pure ()).ends ⟨rfl, l, ha, rfl, .refl a⟩
  · rw [Tiling.giveBack, if_neg hp, giveBack, if_pos hp]
    cases hheld : (a.tiling l).held? p with
    | none => exact (liveBlock_fails ha hheld).bind_error
    | some x =>
      obtain ⟨pre, n, post, rfl, rfl, hn, rfl⟩ := ha.held?_eq_some hheld
      refine (liveBlock_yields ha hn).bind_ends ((release_ends (ha.inHand hn)).mono ?_)
      rintro _ t ⟨l', hlayout, hsegments, _, hframe⟩
      refine ⟨rfl, l', hlayout, ?_, hframe⟩
      rw [tiling, hsegments, hframe.region, hframe.memory]
      rfl

lemma absorbable_yields {m : Node} (ha : a.Layout (pre ++ n :: m :: post)) (hm : m.free = true) {size : Nat}
    {b : Block} (hsize : b.size = n.size) (hnext : b.next = some m.handle) (hle : size ≤ n.size + m.size) :
    (absorbable b size).Yields a
      (.ok (some (m.handle, m.block (some n.handle) (Chain.firstHandle none post)))) a := by
  rw [absorbable, hnext]
  apply (block_yields ha.chain.get_next).bind
  simp only [Node.block_free, Node.block_size, hm, if_true, hsize]
  apply (yields_lift (Checked.add_eq_ok_iff.mpr ⟨rfl, ha.join_le⟩)).bind
  rw [if_pos hle]
  exact yields_pure _

lemma absorbable_yields_none (ha : a.Layout (pre ++ n :: post)) {size : Nat} {b : Block}
    (hsize : b.size = n.size) (hnext : b.next = Chain.firstHandle none post)
    (hnone : (n.spot pre post).stretched.filter (fun y => decide (size ≤ y.1)) = none) :
    (absorbable b size).Yields a (.ok none) a := by
  rw [absorbable, hnext]
  cases post with
  | nil => exact yields_pure none
  | cons m rest =>
    apply (block_yields ha.chain.get_next).bind
    simp only [Node.block_free, Node.block_size, hsize]
    cases hm : m.free with
    | false => exact yields_pure none
    | true =>
      have hlt : ¬size ≤ n.size + m.size := by
        simpa [Spot.stretched, Node.spot, Node.segment, hm] using hnone
      simp only [if_true]
      apply (yields_lift (Checked.add_eq_ok_iff.mpr ⟨rfl, ha.join_le⟩)).bind
      rw [if_neg hlt]
      exact yields_pure none

lemma Layout.withMemory (ha : a.Layout l) (m : Memory) : ({ a with memory := m } : Arena).Layout l :=
  ⟨⟨ha.chain, ha.tiles, ha.sized, ha.top_le, ha.placed, ha.roundable⟩, ha.free, ha.apart⟩

lemma copyBlock_yields (ha : a.Layout l) (hn : n ∈ l) (size q : Nat) :
    (copyBlock n.handle size q).Yields a (.ok ()) { a with
      memory := a.memory.copyWords (n.offset / 8) ((q - a.region.base) / 8) (size / 8) } := by
  apply (payload_yields ha hn).bind
  refine ⟨rfl, ?_⟩
  change ({ a with memory := a.memory.copyWords ((a.region.base + n.offset - a.region.base) / 8) _ _ } : Arena) = _
  rw [Nat.add_sub_cancel_left]

lemma stretched_split {y : Nat × List Segment} (hy : (n.spot pre post).stretched = some y) :
    ∃ m rest, post = m :: rest ∧ m.free = true ∧ y = (n.size + m.size, rest.map Node.segment) := by
  cases post with
  | nil => simp [Spot.stretched, Node.spot] at hy
  | cons m rest =>
    cases hm : m.free with
    | false => simp [Spot.stretched, Node.spot, Node.segment, hm] at hy
    | true =>
      refine ⟨m, rest, rfl, hm, ?_⟩
      simp only [Spot.stretched, Node.spot, List.map_cons, Node.segment, hm, Option.some.injEq] at hy
      exact hy.symm

lemma move_follows (ha : a.Layout (pre ++ n :: post)) (hn : n.free = false) (k : Nat) :
    Follows (do let q ← allocate k; copyBlock n.handle n.size q; release n.handle; return q) a
      ((a.tiling (pre ++ n :: post)).move (n.spot pre post) (a.region.base + n.offset) k)
      fun _ _ _ => True := by
  have hfollows := allocate_follows ha k
  rw [Tiling.move]
  cases hres : (a.tiling (pre ++ n :: post)).allocate k with
  | error e =>
    rw [hres] at hfollows
    exact Yields.bind_error hfollows
  | ok r =>
    obtain ⟨r, u⟩ := r
    rw [hres] at hfollows
    obtain ⟨q, t, hq, rfl, l', ht, rfl, hframe, hspares⟩ := hfollows
    -- The block is in use, so the allocation has spared it, whatever else it moved around.
    obtain ⟨hmem, _⟩ := hspares n (by simp) hn
    obtain ⟨pre', post', rfl⟩ := List.append_of_mem hmem
    have hgive : (t.tiling (pre' ++ n :: post')).giveBack (a.region.base + n.offset) =
        .ok ((), ⟨t.region, released pre' n post', t.memory⟩) := by
      have hbase := ha.placed.base_pos
      rw [Tiling.giveBack, if_neg (by omega), ← hframe.region, ht.held? hn]
      rfl
    have hcopy := ht.withMemory (t.memory.copyWords (n.offset / 8) ((q - t.region.base) / 8) (n.size / 8))
    simp only [bind, Except.bind, hgive]
    apply hq.bind_ends
    apply (copyBlock_yields ht hmem n.size q).bind_ends
    apply (release_ends (hcopy.inHand hn)).bind
    rintro _ v ⟨l'', hlayout, hsegments, _, hframe'⟩
    refine (yields_pure q).ends ⟨rfl, l'', hlayout, ?_, trivial⟩
    rw [tiling, hsegments, hframe'.region, hframe'.memory, ha.spot_offset, hframe.memory, hframe.region]
    rfl

lemma shrink_follows (ha : a.Layout (pre ++ n :: post)) (hn : n.free = false) {size : Nat} (hle : size ≤ n.size)
    (hmin : minBlockSize ≤ size) (hmod : size % alignment = 0) :
    Follows (do split n.handle size; payload n.handle) a
      (.ok (a.region.base + n.offset, { a.tiling (pre ++ n :: post) with
        segments := coalesce (pre.map Node.segment ++ cut n.size size ++ post.map Node.segment) }))
      fun _ _ _ => True := by
  apply (split_ends ha hn hle hmin hmod).bind
  rintro _ t ⟨l', k, hmem, ht, hsegments, _, hframe⟩
  refine (payload_yields ht hmem).ends ⟨by rw [hframe.region], l', ht, ?_, trivial⟩
  rw [tiling, hsegments, hframe.region, hframe.memory]
  rfl

lemma widen_follows {m : Node} (ha : a.Layout (pre ++ n :: m :: post)) (hn : n.free = false) (hm : m.free = true)
    {size : Nat} {p q : Option Handle} (hle : size ≤ n.size + m.size) (hmin : minBlockSize ≤ size)
    (hmod : size % alignment = 0) :
    Follows (do absorb n.handle m.handle (m.block p q); split n.handle size; payload n.handle) a
      (.ok (a.region.base + n.offset, { a.tiling (pre ++ n :: m :: post) with
        segments := coalesce (pre.map Node.segment ++ cut (n.size + m.size) size ++ post.map Node.segment) }))
      fun _ _ _ => True := by
  apply (absorb_layout ha hn hm).bind
  rintro _ t ⟨ht, hframe⟩
  have hshrink := shrink_follows (n := { n with size := n.size + m.size }) ht hn hle hmin hmod
  rw [tiling, hframe.region, hframe.memory] at hshrink
  exact hshrink

lemma resize_follows (ha : a.Layout l) (p k : Nat) :
    Follows (resize p k) a ((a.tiling l).resize p k) fun _ _ _ => True := by
  by_cases hp : p = 0
  · rw [Tiling.resize, if_pos hp, Arena.resize, if_pos hp]
    exact (allocate_follows ha k).mono fun _ _ _ _ => trivial
  rw [Tiling.resize, if_neg hp, Arena.resize, if_neg hp]
  cases hheld : (a.tiling l).held? p with
  | none => exact (liveBlock_fails ha hheld).bind_error
  | some x =>
    obtain ⟨pre, n, post, rfl, rfl, hn, rfl⟩ := ha.held?_eq_some hheld
    apply Follows.after (liveBlock_yields ha hn)
    by_cases hk : a.region.len < k
    · simp only [if_pos (show (a.tiling (pre ++ n :: post)).region.len < k from hk), ha.left_eq]
      exact (blockSizeFor_fails ha hk).bind_error
    simp only [if_neg (show ¬(a.tiling (pre ++ n :: post)).region.len < k from hk)]
    apply Follows.after (blockSizeFor_yields ha (Nat.not_lt.mp hk))
    apply Follows.after (block_yields ha.chain.get)
    have hsize : (n.block (Chain.lastHandle none pre) (Chain.firstHandle none post)).size = n.size := rfl
    have hnext : (n.block (Chain.lastHandle none pre) (Chain.firstHandle none post)).next =
        Chain.firstHandle none post := rfl
    generalize n.block (Chain.lastHandle none pre) (Chain.firstHandle none post) = b at hsize hnext
    rw [hsize]
    by_cases hshrink : Tiling.sizeFor k ≤ n.size
    · simp only [if_pos hshrink, if_pos (show Tiling.sizeFor k ≤ (n.spot pre post).segment.size from hshrink)]
      exact shrink_follows ha hn hshrink (sizeFor_min k) (sizeFor_mod k)
    simp only [if_neg hshrink, if_neg (show ¬Tiling.sizeFor k ≤ (n.spot pre post).segment.size from hshrink)]
    cases hroom : (n.spot pre post).stretched.filter fun y => decide (Tiling.sizeFor k ≤ y.1) with
    | none =>
      apply Follows.after (absorbable_yields_none ha hsize hnext hroom)
      exact move_follows ha hn k
    | some y =>
      obtain ⟨hy, hle⟩ := Option.filter_eq_some_iff.mp hroom
      obtain ⟨m, rest, rfl, hm, rfl⟩ := stretched_split hy
      have hle' : Tiling.sizeFor k ≤ n.size + m.size := by simpa using hle
      apply Follows.after (absorbable_yields ha hm hsize hnext hle')
      exact widen_follows ha hn hm hle' (sizeFor_min k) (sizeFor_mod k)

lemma usableSize_follows (ha : a.Layout l) (p : Nat) :
    Follows (usableSize p) a (do return (← (a.tiling l).usableSize p, a.tiling l))
      fun _ t l' => t = a ∧ l' = l := by
  rw [Tiling.usableSize]
  cases hheld : (a.tiling l).held? p with
  | none => exact (liveBlock_fails ha hheld).bind_error
  | some x =>
    obtain ⟨pre, n, post, rfl, rfl, hn, rfl⟩ := ha.held?_eq_some hheld
    refine (liveBlock_yields ha hn).bind_ends ((block_yields ha.chain.get).bind_ends ?_)
    exact (yields_pure _).ends ⟨rfl, pre ++ n :: post, ha, rfl, rfl, rfl⟩

lemma filedBytes_eq (l : List Node) :
    FreeIndex.filedBytes (filed l) = total ((l.map Node.segment).filter (·.free)) := by
  induction l with
  | nil => rfl
  | cons n rest ih =>
    cases hn : n.free with
    | false => simp [filed_cons_used hn, ih, Node.segment, hn]
    | true => simp [filed_cons_free hn, FreeIndex.filedBytes, total, ih, Node.segment, Node.entry, hn]

lemma stats_eq (ha : a.Layout l) : a.stats = .ok (a.tiling l).stats := by
  have hbytes : a.free.bytes = (a.tiling l).freeBytes := ha.free.bytes.trans (filedBytes_eq l)
  have hle : a.free.bytes ≤ a.top := by
    have hfiled := filedBytes_le l
    have htotal := ha.tiles.total
    have hfree := ha.free.bytes
    omega
  have hcount : a.free.entries.length = (a.tiling l).segments.countP (·.free) := by
    rw [ha.free.perm.length_eq, filed, List.length_map, ← List.countP_eq_length_filter, tiling,
      List.countP_map]
    rfl
  have hblocks : a.chain.size = (a.tiling l).segments.length := by
    rw [ha.chain.size, tiling, List.length_map]
  rw [Arena.stats, Checked.sub_eq_ok_iff.mpr (Nat.add_sub_of_le hle), Tiling.stats, ← hbytes, ← hcount,
    ← hblocks, ha.top_eq]
  rfl

end Arena

end BitStore
