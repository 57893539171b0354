import BitStore.Proofs.Arena.Layout

namespace BitStore.Arena

open BitStore.Action Segment

variable {a : Arena} {l pre post : List Node} {n m : Node}

lemma block_yields {h : Handle} {b : Block} (hb : a.chain.get h = .ok b) :
    (block h).Yields a (.ok b) a :=
  yields_read hb

lemma onChain_yields {α : Type} {f : Chain → Except Fault (α × Chain)} {x : α} {c : Chain}
    (hf : f a.chain = .ok (x, c)) : (onChain f).Yields a (.ok x) { a with chain := c } := by
  apply yields_update
  rw [hf]
  rfl

lemma onFree_yields {f : FreeIndex → Except Fault FreeIndex} {g : FreeIndex} (hf : f a.free = .ok g) :
    (onFree f).Yields a (.ok ()) { a with free := g } := by
  apply yields_update
  rw [hf]
  rfl

lemma change_yields {h : Handle} {f : Block → Block} {c : Chain} (hf : a.chain.update h f = .ok c) :
    (change h f).Yields a (.ok ()) { a with chain := c } := by
  apply onChain_yields
  rw [hf]
  rfl

lemma takeFree_ends {es : List FreeBlock} (hc : a.chain.Lists (pre ++ n :: post)) (hn : n.free = true)
    (hf : a.free.Files (n.entry :: es)) :
    (takeFree n.handle).Ends a fun _ t =>
      t.chain.Lists (pre ++ { n with free := false } :: post) ∧ t.free.Files es ∧ t.top = a.top ∧
        Frame a t := by
  obtain ⟨c, hupdate, hlists⟩ :=
    hc.update (fun b => { b with free := false }) (m := { n with free := false }) rfl fun _ _ => rfl
  obtain ⟨g, hremove, hfiles⟩ := hf.remove
  apply (block_yields hc.get).bind_ends
  simp only [Node.block_free, hn]
  apply (change_yields hupdate).bind_ends
  exact (onFree_yields hremove).ends ⟨hlists, hfiles, rfl, rfl, rfl⟩

lemma take_ends (ha : a.Layout (pre ++ n :: post)) (hn : n.free = true) :
    (takeFree n.handle).Ends a fun _ t =>
      t.Layout (pre ++ { n with free := false } :: post) ∧ Frame a t := by
  apply (takeFree_ends ha.chain hn (ha.free.congr (filed_middle hn pre post))).mono
  rintro _ t ⟨hlists, hfiles, htop, hframe⟩
  refine ⟨⟨⟨hlists, ?_, ?_, ?_, hframe.region ▸ ha.placed, hframe.region ▸ ha.roundable⟩, ?_, ?_⟩, hframe⟩
  · rw [htop]
    exact ha.tiles.replace rfl rfl
  · exact sized_replace ha.sized (ha.sized n (by simp))
  · rw [htop, hframe.region]
    exact ha.top_le
  · rw [filed_middle_used rfl]
    exact hfiles
  · have hapart := ha.apart
    rw [List.map_append, List.map_cons] at hapart ⊢
    exact hapart.use n.size

lemma swallow_ends (ha : a.Shaped (pre ++ n :: m :: post)) :
    (swallow n.handle m.handle).Ends a fun _ t =>
      t.Shaped (pre ++ { n with size := n.size + m.size } :: post) ∧ t.free = a.free ∧ Frame a t := by
  obtain ⟨c, hremove, hlists⟩ :=
    Chain.Lists.remove (show a.chain.Lists ((pre ++ [n]) ++ m :: post) by
      rw [← List.append_cons]; exact ha.chain)
  rw [← List.append_cons] at hlists
  obtain ⟨d, hupdate, hlists'⟩ := hlists.update (fun b => { b with size := n.size + m.size })
    (m := { n with size := n.size + m.size }) rfl fun _ _ => rfl
  apply (onChain_yields hremove).bind_ends
  apply (block_yields hlists.get).bind_ends
  apply (yields_lift (Checked.add_eq_ok_iff.mpr ⟨rfl, ha.join_le⟩)).bind_ends
  refine (change_yields (a := { a with chain := c }) hupdate).ends ⟨?_, rfl, rfl, rfl⟩
  have hsized := ha.sized
  rw [List.forall_mem_append, List.forall_mem_cons, List.forall_mem_cons] at hsized
  obtain ⟨hpre, ⟨hn, hn'⟩, ⟨_, hm'⟩, hpost⟩ := hsized
  apply ha.withChain hlists' (ha.tiles.join n.handle n.free)
  rw [List.forall_mem_append, List.forall_mem_cons]
  refine ⟨hpre, ⟨Nat.le_add_right_of_le hn, ?_⟩, hpost⟩
  rw [Nat.add_mod, hn', hm']
  rfl

lemma absorb_ends {es : List FreeBlock} {p q : Option Handle} (ha : a.Shaped (pre ++ n :: m :: post))
    (hf : a.free.Files (m.entry :: es)) :
    (absorb n.handle m.handle (m.block p q)).Ends a fun _ t =>
      t.Shaped (pre ++ { n with size := n.size + m.size } :: post) ∧ t.free.Files es ∧ Frame a t := by
  obtain ⟨g, hremove, hfiles⟩ := hf.remove
  apply (onFree_yields hremove).bind_ends
  apply (swallow_ends (ha.withFree g)).mono
  rintro _ t ⟨hshaped, hfree, hframe⟩
  exact ⟨hshaped, hfree ▸ hfiles, hframe.region, hframe.memory⟩

lemma absorb_layout {p q : Option Handle} (ha : a.Layout (pre ++ n :: m :: post)) (hn : n.free = false)
    (hm : m.free = true) :
    (absorb n.handle m.handle (m.block p q)).Ends a fun _ t =>
      t.Layout (pre ++ { n with size := n.size + m.size } :: post) ∧ Frame a t := by
  have hfree := ha.free
  rw [filed_middle_used hn] at hfree
  apply (absorb_ends ha.toShaped (hfree.congr (filed_middle hm pre post))).mono
  rintro _ t ⟨hshaped, hfiles, hframe⟩
  refine ⟨⟨hshaped, ?_, ?_⟩, hframe⟩
  · rw [filed_middle_used (by exact hn)]
    exact hfiles
  · have hapart := ha.apart
    rw [List.map_append, List.map_cons, List.map_cons, List.append_cons] at hapart
    have hafter := hapart.right_of_append.of_cons
    rw [← List.append_cons] at hapart
    have hused : ({ n with size := n.size + m.size } : Node).segment = ⟨n.size + m.size, false⟩ := by
      rw [Node.segment, hn]
    rw [List.map_append, List.map_cons, hused]
    exact Apart.around hapart.left_of_append hafter _

def released (pre : List Node) (n : Node) (post : List Node) : List Segment :=
  coalesce (pre.map Node.segment ++ ⟨n.size, true⟩ :: post.map Node.segment)

lemma joinRight_ends {b : Block} (ha : a.InHand pre n post) (hb : b.next = Chain.firstHandle none post) :
    (joinRight n.handle b).Ends a fun _ t => ∃ size rest, t.InHand pre { n with size := size } rest ∧
      (∀ m ∈ rest.head?, m.free = false) ∧ released pre { n with size := size } rest = released pre n post ∧
      (∀ m ∈ post, m.free = false → m ∈ rest) ∧ Frame a t := by
  rw [joinRight, hb]
  cases post with
  | nil =>
    exact (yields_pure ()).ends ⟨n.size, [], ha, by simp, rfl, by simp, .refl a⟩
  | cons m rest =>
    apply (block_yields ha.chain.get_next).bind_ends
    cases hm : m.free with
    | false =>
      rw [if_neg (by simp [hm])]
      exact (yields_pure ()).ends ⟨n.size, m :: rest, ha, by simp [hm], rfl, fun _ h _ => h, .refl a⟩
    | true =>
      rw [if_pos (by simp [hm])]
      apply (yields_say _).bind_ends
      have hfiles := ha.free.congr (filed_middle hm pre rest)
      apply (absorb_ends ha.toShaped hfiles).mono
      rintro _ t ⟨hshaped, hfree, hframe⟩
      have hafter := ha.apart_after
      have hseg : m.segment = ⟨m.size, true⟩ := by rw [Node.segment, hm]
      refine ⟨n.size + m.size, rest, ⟨hshaped, hfree, ha.apart_before, hafter.of_cons⟩, ?_, ?_, ?_, hframe⟩
      · intro k hk
        have hmk := (List.isChain_cons.mp hafter).1 k.segment
          (by rw [List.head?_map]; exact Option.mem_map_of_mem _ hk)
        simpa [Node.segment, hm] using hmk
      · rw [released, released, List.map_cons, hseg, coalesce_join]
      · intro k hk hused
        rcases List.mem_cons.mp hk with rfl | hk
        · simp [hm] at hused
        · exact hk

lemma joinLeft_ends {b : Block} (ha : a.InHand pre n post) (hb : b.prev = Chain.lastHandle none pre) :
    (joinLeft n.handle b).Ends a fun h t => ∃ before k, k.handle = h ∧ t.InHand before k post ∧
      (∀ m ∈ before.getLast?, m.free = false) ∧ released before k post = released pre n post ∧
      (∀ m ∈ pre, m.free = false → m ∈ before) ∧ Frame a t := by
  rw [joinLeft, hb]
  rcases pre.eq_nil_or_concat' with rfl | ⟨before, p, rfl⟩
  · exact (yields_pure _).ends ⟨[], n, rfl, ha, by simp, rfl, by simp, .refl a⟩
  · have hshaped : a.Shaped (before ++ p :: n :: post) := by
      rw [List.append_cons]; exact ha.toShaped
    rw [Chain.lastHandle_append]
    apply (block_yields hshaped.chain.get).bind_ends
    cases hp : p.free with
    | false =>
      rw [if_neg (by simp [hp])]
      exact (yields_pure _).ends ⟨before ++ [p], n, rfl, ha, by simp [hp], rfl, fun _ h _ => h, .refl a⟩
    | true =>
      rw [if_pos (by simp [hp])]
      apply (yields_say _).bind_ends
      have hfiles := ha.free
      rw [← List.append_cons] at hfiles
      obtain ⟨g, hremove, hfiles⟩ := (hfiles.congr (filed_middle hp before post)).remove
      apply (onFree_yields hremove).bind_ends
      apply (swallow_ends (hshaped.withFree g)).bind
      rintro _ t ⟨hshaped', hfree, hframe⟩
      have hbefore := ha.apart_before
      rw [List.map_append] at hbefore
      have hseg : p.segment = ⟨p.size, true⟩ := by rw [Node.segment, hp]
      refine (yields_pure _).ends ⟨before, { p with size := p.size + n.size }, rfl,
        ⟨hshaped', hfree ▸ hfiles, hbefore.left_of_append, ha.apart_after⟩, ?_, ?_, ?_,
        hframe.region, hframe.memory⟩
      · intro k hk
        have hkp := (List.isChain_append.mp hbefore).2.2 k.segment
          (by rw [List.getLast?_map]; exact Option.mem_map_of_mem _ hk) p.segment rfl
        simpa [Node.segment, hp] using hkp
      · rw [released, released, List.map_append, List.map_cons, hseg, List.append_assoc]
        exact (coalesce_join _ _ _ _).symm
      · intro k hk hused
        rcases List.mem_append.mp hk with hk | hk
        · exact hk
        · rw [List.mem_singleton.mp hk, hp] at hused
          simp at hused

structure Rearranged (a : Arena) (kept : List Node) (segments : List Segment) (t : Arena)
    (l : List Node) : Prop where
  layout : t.Layout l
  segments : l.map Node.segment = segments
  spares : ∀ m ∈ kept, m.free = false → m ∈ l
  frame : Frame a t

lemma InHand.layout (ha : a.InHand pre n post)
    (hbefore : ∀ m ∈ pre.getLast?, m.free = false) (hafter : ∀ m ∈ post.head?, m.free = false)
    {c : Chain} {g : FreeIndex} (hc : c.Lists (pre ++ { n with free := true } :: post))
    (hg : g.Files (n.entry :: filed (pre ++ post))) :
    ({ a with chain := c, free := g } : Arena).Layout (pre ++ { n with free := true } :: post) := by
  refine ⟨(ha.toShaped.withChain hc ?_ ?_).withFree g, ?_, ?_⟩
  · exact ha.tiles.replace rfl rfl
  · exact sized_replace ha.sized (ha.sized n (by simp))
  · exact hg.congr (filed_middle (n := { n with free := true }) rfl pre post).symm
  · rw [List.map_append, List.map_cons]
    refine List.isChain_append.mpr ⟨ha.apart_before, List.isChain_cons.mpr ⟨?_, ha.apart_after⟩, ?_⟩
    · rintro s hs
      rw [List.head?_map] at hs
      obtain ⟨m, hm, rfl⟩ := Option.mem_map.mp hs
      simp [Node.segment, hafter m hm]
    · rintro s hs _ ⟨⟩
      rw [List.getLast?_map] at hs
      obtain ⟨m, hm, rfl⟩ := Option.mem_map.mp hs
      simp [Node.segment, hbefore m hm]

lemma release_ends (ha : a.InHand pre n post) :
    (release n.handle).Ends a fun _ t => ∃ l, Rearranged a (pre ++ post) (released pre n post) t l := by
  apply (block_yields ha.chain.get).bind_ends
  apply (joinRight_ends ha rfl).bind
  rintro _ t ⟨size, rest, ht, hafter, hrel, hkept, hframe⟩
  apply (joinLeft_ends (b := n.block _ _) ht rfl).bind
  rintro _ u ⟨before, k, rfl, hu, hbefore, hrel', hkept', hframe'⟩
  obtain ⟨c, hupdate, hlists⟩ :=
    hu.chain.update (fun b => { b with free := true }) (m := { k with free := true }) rfl fun _ _ => rfl
  obtain ⟨g, hinsert, hfiles⟩ := hu.free.insert hu.entry_fresh hu.filed_le
  apply (change_yields hupdate).bind_ends
  apply (block_yields (a := { u with chain := c }) hlists.get).bind_ends
  apply (onFree_yields (a := { u with chain := c }) hinsert).ends
  have hlayout := hu.layout hbefore hafter hlists hfiles
  refine ⟨_, hlayout, ?_, ?_, ?_⟩
  · rw [← hrel, ← hrel', released, List.map_append, List.map_cons]
    -- Joined on both sides, the block has no free neighbour: there is nothing left to coalesce.
    refine (coalesce_of_apart ?_).symm
    have hapart := hlayout.apart
    rwa [List.map_append, List.map_cons] at hapart
  · intro m hm hused
    rcases List.mem_append.mp hm with hm | hm
    · exact List.mem_append_left _ (hkept' m hm hused)
    · exact List.mem_append_right _ (List.mem_cons_of_mem _ (hkept m hm hused))
  · exact (hframe.trans hframe').trans ⟨rfl, rfl⟩

lemma rest_inHand {size : Nat} {r : Handle} {c : Chain} (ha : a.Layout (pre ++ n :: post)) (hn : n.free = false)
    (hmin : minBlockSize ≤ size) (hmod : size % alignment = 0) (hrest : minBlockSize ≤ n.size - size)
    (hc : c.Lists (pre ++ { n with size := size } :: ⟨r, n.offset + size, n.size - size, false⟩ :: post)) :
    ({ a with chain := c } : Arena).InHand (pre ++ [{ n with size := size }])
      ⟨r, n.offset + size, n.size - size, false⟩ post := by
  have hapart := ha.apart
  rw [List.map_append, List.map_cons] at hapart
  have hsized := ha.sized
  rw [List.forall_mem_append, List.forall_mem_cons] at hsized
  obtain ⟨hpre, ⟨_, hnmod⟩, hpost⟩ := hsized
  refine ⟨?_, ?_, ?_, hapart.right_of_append.of_cons⟩
  · rw [← List.append_cons]
    refine ha.toShaped.withChain hc ?_ ?_
    · obtain ⟨mid, hbefore, hoff, hafter⟩ := tiles_append.mp ha.tiles
      have hrest' : 32 ≤ n.size - size := hrest
      have hsum : mid + size + (n.size - size) = mid + n.size := by omega
      exact tiles_append.mpr ⟨mid, hbefore, hoff, by simp only [hoff], by rwa [hsum]⟩
    · rw [List.forall_mem_append, List.forall_mem_cons, List.forall_mem_cons]
      refine ⟨hpre, ⟨hmin, hmod⟩, ⟨hrest, ?_⟩, hpost⟩
      simp only [alignment] at hnmod hmod ⊢
      omega
  · have hfree := ha.free
    rw [filed_middle_used hn] at hfree
    rw [List.append_assoc, List.singleton_append, filed_middle_used (by exact hn)]
    exact hfree
  · have hused : ({ n with size := size } : Node).segment = ⟨size, false⟩ := by rw [Node.segment, hn]
    rw [List.map_append, List.map_cons, hused]
    exact Apart.around hapart.left_of_append List.IsChain.nil size

lemma split_ends {size : Nat} (ha : a.Layout (pre ++ n :: post)) (hn : n.free = false)
    (hsize : size ≤ n.size) (hmin : minBlockSize ≤ size) (hmod : size % alignment = 0) :
    (split n.handle size).Ends a fun _ t => ∃ l k, { n with size := k } ∈ l ∧
      Rearranged a (pre ++ post)
        (coalesce (pre.map Node.segment ++ cut n.size size ++ post.map Node.segment)) t l := by
  apply (block_yields ha.chain.get).bind_ends
  simp only [Node.block_size, Node.block_offset, Nat.not_lt.mpr hsize, if_false]
  apply (yields_lift (Checked.sub_eq_ok_iff.mpr (Nat.add_sub_of_le hsize))).bind_ends
  by_cases hrest : minBlockSize ≤ n.size - size
  · rw [if_pos hrest]
    apply (yields_say _).bind_ends
    obtain ⟨c, hupdate, hlists⟩ :=
      ha.chain.update (fun b => { b with size := size }) (m := { n with size := size }) rfl fun _ _ => rfl
    apply (change_yields hupdate).bind_ends
    have hend := ha.end_le (n := n) (by simp)
    have hmax := ha.top_le_maxCount
    have hmin' : 32 ≤ size := hmin
    have hrest' : 32 ≤ n.size - size := hrest
    apply (yields_lift (Checked.add_eq_ok_iff.mpr ⟨rfl, by omega⟩)).bind_ends
    have hfresh : n.offset + size ∉ (pre ++ { n with size := size } :: post).map Node.offset := by
      rw [List.map_append, List.map_cons]
      have hinside := ha.tiles.inside (o := n.offset + size) (by omega) (by omega)
      rwa [List.map_append, List.map_cons] at hinside
    obtain ⟨r, d, hinsert, hlists'⟩ :=
      hlists.insertAfter (n := { n with size := size }) (n.size - size) false hfresh
    apply (onChain_yields (a := { a with chain := c }) hinsert).bind_ends
    apply (release_ends (rest_inHand ha hn hmin hmod hrest hlists')).mono
    rintro _ t ⟨l, hlayout, hsegments, hspares, hframe⟩
    refine ⟨l, size, ?_, hlayout, ?_, ?_, hframe.region, hframe.memory⟩
    · exact hspares _ (by simp) hn
    · rw [hsegments, released, cut, if_pos hrest]
      simp [Node.segment, hn]
    · intro m hm hm'
      refine hspares m ?_ hm'
      simp only [List.mem_append, List.mem_singleton] at hm ⊢
      tauto
  · rw [if_neg hrest]
    have hused : n.segment = ⟨n.size, false⟩ := by rw [Node.segment, hn]
    refine (yields_pure ()).ends ⟨pre ++ n :: post, n.size, by simp, ha, ?_, ?_, .refl a⟩
    · have hapart := ha.apart
      rw [List.map_append, List.map_cons, hused] at hapart
      rw [cut, if_neg hrest, List.append_assoc, List.singleton_append, coalesce_of_apart hapart, List.map_append,
        List.map_cons, hused]
    · intro m hm _
      simp only [List.mem_append, List.mem_cons] at hm ⊢
      tauto

lemma bump_yields {len : Nat} (hlen : a.top + len ≤ a.region.len) (hmax : a.region.len ≤ maxCount) :
    (bump len).Yields a (.ok a.top) { a with top := a.top + len } := by
  apply yields_get.bind
  apply (yields_lift (Checked.sub_eq_ok_iff.mpr (Nat.add_sub_of_le (Nat.le_of_add_right_le hlen)))).bind
  rw [if_neg (by omega)]
  apply (yields_lift (Checked.add_eq_ok_iff.mpr ⟨rfl, Nat.le_trans hlen hmax⟩)).bind
  exact yields_set.bind ((yields_say _).bind (yields_pure _))

lemma bump_fails {len : Nat} (htop : a.top ≤ a.region.len) (hlen : a.region.len - a.top < len) :
    (bump len).Yields a (.error (.error (.outOfMemory len (a.region.len - a.top)))) a := by
  apply yields_get.bind
  apply (yields_lift (Checked.sub_eq_ok_iff.mpr (Nat.add_sub_of_le htop))).bind
  rw [if_pos hlen]
  exact (yields_say _).bind (yields_fail _)

lemma tail_yields (hl : a.chain.Lists (pre ++ [n])) :
    (a.chain.last.mapM fun t => do return (t, ← block t)).Yields a
      (.ok (some (n.handle, n.block (Chain.lastHandle none pre) none))) a := by
  rw [hl.last, Chain.lastHandle_append]
  change ((do return (n.handle, ← block n.handle)) >>= fun x => pure (some x) : Action Arena _).Yields _ _ _
  refine Yields.bind (a := (n.handle, n.block (Chain.lastHandle none pre) none)) ?_ (yields_pure _)
  exact (block_yields hl.get).bind (yields_pure _)

lemma tail_yields_none (hl : a.chain.Lists []) :
    (a.chain.last.mapM fun t => do return (t, ← block t)).Yields a (.ok none) a := by
  rw [hl.last]
  exact yields_pure _

lemma grow_stretches {size : Nat} (ha : a.Layout (pre ++ [n])) (hn : n.free = true) (hle : n.size ≤ size)
    (hfit : size - n.size ≤ a.region.len - a.top) (hmin : minBlockSize ≤ size)
    (hmod : size % alignment = 0) :
    (grow size).Ends a fun h t => h = n.handle ∧
      Rearranged a (pre ++ [n]) (pre.map Node.segment ++ [⟨size, false⟩]) t
        (pre ++ [⟨n.handle, n.offset, size, false⟩]) := by
  have htop := ha.top_le
  have hround := ha.roundable
  apply yields_get.bind_ends
  apply (tail_yields ha.chain).bind_ends
  simp only [Node.block_free, Node.block_size, hn, if_true]
  apply (yields_lift (Checked.sub_eq_ok_iff.mpr (Nat.add_sub_of_le hle))).bind_ends
  apply (bump_yields (by omega) (by omega)).bind_ends
  refine (takeFree_ends (a := { a with top := a.top + (size - n.size) }) ha.chain hn
    (ha.free.congr (filed_middle hn pre []))).bind ?_
  -- The block still has its old size here, short of the top by what was bumped.
  rintro _ t ⟨hlists, hfiles, htop', hframe⟩
  obtain ⟨c, hupdate, hlists'⟩ := hlists.update (fun b => { b with size := size })
    (m := ⟨n.handle, n.offset, size, false⟩) rfl fun _ _ => rfl
  apply (change_yields hupdate).bind_ends
  have hregion : t.region = a.region := hframe.region
  refine (yields_pure _).ends ⟨rfl, ⟨⟨hlists', ?_, ?_, ?_, hregion ▸ ha.placed, hregion ▸ ha.roundable⟩,
    ?_, ?_⟩, by simp [Node.segment], ?_, hregion, hframe.memory⟩
  · obtain ⟨mid, hpre, hoff, hstop⟩ := tiles_append.mp ha.tiles
    refine tiles_append.mpr ⟨mid, hpre, hoff, ?_⟩
    have hstop' : mid + n.size = a.top := hstop
    simp only [Tiles, htop']
    omega
  · exact sized_replace ha.sized ⟨hmin, hmod⟩
  · simp only [htop', hregion]
    omega
  · rw [filed_middle_used rfl]
    exact hfiles
  · have hapart := ha.apart
    rw [List.map_append] at hapart ⊢
    exact Apart.around hapart.left_of_append List.IsChain.nil size
  · intro m hm hused
    rcases List.mem_append.mp hm with hm | hm
    · exact List.mem_append_left _ hm
    · rw [List.mem_singleton.mp hm, hn] at hused
      simp at hused

lemma grow_stretch_fails {size : Nat} (ha : a.Layout (pre ++ [n])) (hn : n.free = true) (hle : n.size ≤ size)
    (hfit : a.region.len - a.top < size - n.size) :
    (grow size).Yields a (.error (.error (.outOfMemory (size - n.size) (a.region.len - a.top)))) a := by
  apply yields_get.bind
  apply (tail_yields ha.chain).bind
  simp only [Node.block_free, Node.block_size, hn, if_true]
  apply (yields_lift (Checked.sub_eq_ok_iff.mpr (Nat.add_sub_of_le hle))).bind
  exact (bump_fails ha.top_le hfit).bind_error

lemma grow_append_fails {size : Nat} (ha : a.Layout l) (hl : ∀ n ∈ l.getLast?, n.free = false)
    (hfit : a.region.len - a.top < size) :
    (grow size).Yields a (.error (.error (.outOfMemory size (a.region.len - a.top)))) a := by
  rcases l.eq_nil_or_concat' with rfl | ⟨pre, n, rfl⟩
  · apply yields_get.bind
    apply (tail_yields_none ha.chain).bind
    exact (bump_fails ha.top_le hfit).bind_error
  · apply yields_get.bind
    apply (tail_yields ha.chain).bind
    have hn : n.free = false := hl n (by simp)
    simp only [Node.block_free, hn]
    exact (bump_fails ha.top_le hfit).bind_error

lemma grow_appends {size : Nat} (ha : a.Layout l) (hl : ∀ n ∈ l.getLast?, n.free = false)
    (hfit : size ≤ a.region.len - a.top) (hmin : minBlockSize ≤ size) (hmod : size % alignment = 0) :
    (grow size).Ends a fun h t =>
      Rearranged a l (l.map Node.segment ++ [⟨size, false⟩]) t (l ++ [⟨h, a.top, size, false⟩]) := by
  have htop := ha.top_le
  have hround := ha.roundable
  have hfresh : a.top ∉ l.map Node.offset := by
    intro hmem
    obtain ⟨m, hm, ho⟩ := List.mem_map.mp hmem
    have hend := ha.end_le hm
    have hpos := (ha.sized m hm).pos
    omega
  obtain ⟨h, c, happend, hlists⟩ := ha.chain.append size false hfresh
  have hadd : ((do onChain (·.append (← bump size) size false)) : Action Arena Handle).Yields a (.ok h)
      { a with top := a.top + size, chain := c } := by
    apply (bump_yields (by omega) (by omega)).bind
    exact onChain_yields (a := { a with top := a.top + size }) happend
  have hrearranged : Rearranged a l (l.map Node.segment ++ [⟨size, false⟩])
      { a with top := a.top + size, chain := c } (l ++ [⟨h, a.top, size, false⟩]) := by
    refine ⟨⟨⟨hlists, ?_, ?_, ?_, ha.placed, ha.roundable⟩, ?_, ?_⟩, by simp [Node.segment],
      fun m hm _ => List.mem_append_left _ hm, rfl, rfl⟩
    · exact tiles_append.mpr ⟨a.top, ha.tiles, rfl, rfl⟩
    · rw [List.forall_mem_append, List.forall_mem_singleton]
      exact ⟨ha.sized, hmin, hmod⟩
    · change a.top + size ≤ a.region.len
      omega
    · rw [filed_middle_used rfl, List.append_nil]
      exact ha.free
    · rw [List.map_append]
      exact Apart.around ha.apart List.IsChain.nil size
  rcases l.eq_nil_or_concat' with rfl | ⟨pre, n, rfl⟩
  · apply yields_get.bind_ends
    apply (tail_yields_none ha.chain).bind_ends
    exact hadd.ends hrearranged
  · apply yields_get.bind_ends
    apply (tail_yields ha.chain).bind_ends
    have hn : n.free = false := hl n (by simp)
    simp only [Node.block_free, hn]
    exact hadd.ends hrearranged

end BitStore.Arena
